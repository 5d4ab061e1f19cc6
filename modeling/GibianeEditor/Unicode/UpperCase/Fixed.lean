/-
Upper case is final: a character of an upper case is its own upper case (`upper_of_mem_upper`). The
two tables are checked pair by pair: where the images of an entry could meet a run of characters
that change, the step of the run leaves them out.
-/
import GibianeEditor.Unicode.UpperCase

namespace GibianeEditor.Unicode

/-- Whether a code point is a character that the run does not change. -/
def CaseRun.spares (run : CaseRun) (n : Nat) : Bool :=
  Nat.blt n run.first || Nat.blt run.last n ||
    (Nat.beq run.stride 2 && Nat.beq ((n + run.first) % 2) 1)

/-- Whether the run `b` changes no image of the run `a`. -/
def CaseRun.apart (a b : CaseRun) : Bool :=
  Nat.blt (a.image + (a.last - a.first)) b.first || Nat.blt b.last a.image ||
    (Nat.beq b.stride 2 && (Nat.beq a.stride 2 || Nat.beq a.first a.last) &&
      Nat.beq ((a.image + b.first) % 2) 1)

/-- Whether `n` is no image of the run. -/
def CaseRun.misses (run : CaseRun) (n : Nat) : Bool :=
  Nat.blt (run.image + (run.last - run.first)) n || Nat.blt n run.image ||
    (Nat.beq run.stride 2 && Nat.beq ((n + run.image) % 2) 1)

/-- Whether all images of the run are characters. -/
def CaseRun.encodable (run : CaseRun) : Bool :=
  Nat.blt (run.image + (run.last - run.first)) 0xD800 ||
    (Nat.blt 0xDFFF run.image && Nat.blt (run.image + (run.last - run.first)) 0x110000)

theorem CaseRun.of_image? {runs : List CaseRun} {n m : Nat} (h : image? runs n = some m) :
    ∃ run ∈ runs, run.first ≤ n ∧ n ≤ run.last ∧ (n - run.first) % run.stride = 0 ∧
      m = run.image + (n - run.first) := by
  induction runs with
  | nil => simp [image?] at h
  | cons run rest ih =>
    simp only [image?] at h
    split at h
    · simp at h
    · split at h
      · split at h
        · exact ⟨run, by simp, by omega, by omega, by assumption, by simpa using h.symm⟩
        · simp at h
      · obtain ⟨r, hr, hn⟩ := ih h
        exact ⟨r, by simp [hr], hn⟩

theorem of_sequence? {entries : List (Nat × List Nat)} {n : Nat} {ns : List Nat}
    (h : sequence? entries n = some ns) : (n, ns) ∈ entries := by
  induction entries with
  | nil => simp [sequence?] at h
  | cons e rest ih =>
    obtain ⟨m, ms⟩ := e
    simp only [sequence?] at h
    split at h
    · simp at h
    · split at h
      · simp_all
      · simp [ih h]

set_option maxRecDepth 20000 in
theorem upperRuns_apart :
    (upperRuns.all fun a => a.encodable && upperRuns.all fun b => a.apart b) = true := by
  decide +kernel

set_option maxRecDepth 20000 in
theorem upperRuns_miss_sequences :
    (upperRuns.all fun a => upperSequences.all fun e => a.misses e.1) = true := by
  decide +kernel

set_option maxRecDepth 20000 in
theorem upperSequences_spared :
    (upperSequences.all fun e => e.2.all fun n =>
      Nat.blt n 0xD800 && upperRuns.all fun b => b.spares n) = true := by
  decide +kernel

set_option maxRecDepth 20000 in
theorem upperSequences_apart :
    (upperSequences.all fun e => e.2.all fun n =>
      upperSequences.all fun f => !Nat.beq n f.1) = true := by
  decide +kernel

theorem toNat_ofNat {n : Nat} (h : n < 0xD800 ∨ 0xDFFF < n ∧ n < 0x110000) : (Char.ofNat n).toNat = n := by
  have hn : n.isValidChar := by simp only [Nat.isValidChar]; omega
  rw [Char.ofNat, dif_pos hn]
  rfl

theorem image?_image {n m : Nat} (h : CaseRun.image? upperRuns n = some m) :
    CaseRun.image? upperRuns m = none := by
  obtain ⟨a, ha, h1, h2, h3, rfl⟩ := CaseRun.of_image? h
  cases hk : CaseRun.image? upperRuns (a.image + (n - a.first)) with
  | none => rfl
  | some k =>
    obtain ⟨b, hb, g1, g2, g3, _⟩ := CaseRun.of_image? hk
    have hab := List.all_eq_true.1 upperRuns_apart a ha
    simp only [Bool.and_eq_true, List.all_eq_true] at hab
    have hab := hab.2 b hb
    simp only [CaseRun.apart, Bool.or_eq_true, Bool.and_eq_true, Nat.blt_eq, Nat.beq_eq] at hab
    rcases hab with (hab | hab) | ⟨⟨hs, hs' | hs'⟩, hp⟩
    · omega
    · omega
    · rw [hs] at g3; rw [hs'] at h3; omega
    · rw [hs] at g3; omega

theorem sequence?_image {n m : Nat} (h : CaseRun.image? upperRuns n = some m) :
    sequence? upperSequences m = none := by
  obtain ⟨a, ha, h1, h2, h3, rfl⟩ := CaseRun.of_image? h
  cases hk : sequence? upperSequences (a.image + (n - a.first)) with
  | none => rfl
  | some ks =>
    have hmiss := List.all_eq_true.1 upperRuns_miss_sequences a ha
    have hmiss := List.all_eq_true.1 hmiss _ (of_sequence? hk)
    simp only [CaseRun.misses, Bool.or_eq_true, Bool.and_eq_true, Nat.blt_eq, Nat.beq_eq] at hmiss
    rcases hmiss with (hm | hm) | ⟨hs, hp⟩
    · omega
    · omega
    · rw [hs] at h3; omega

theorem image?_of_mem_sequence {m n : Nat} {ns : List Nat} (h : sequence? upperSequences m = some ns) (hn : n ∈ ns) :
    CaseRun.image? upperRuns n = none := by
  have hspared := List.all_eq_true.1 (List.all_eq_true.1 upperSequences_spared _ (of_sequence? h)) n hn
  simp only [Bool.and_eq_true, List.all_eq_true] at hspared
  cases hk : CaseRun.image? upperRuns n with
  | none => rfl
  | some k =>
    obtain ⟨b, hb, g1, g2, g3, _⟩ := CaseRun.of_image? hk
    have hb := hspared.2 b hb
    simp only [CaseRun.spares, Bool.or_eq_true, Bool.and_eq_true, Nat.blt_eq, Nat.beq_eq] at hb
    rcases hb with (hb | hb) | ⟨hb, hp⟩
    · omega
    · omega
    · rw [hb] at g3; omega

theorem sequence?_of_mem_sequence {m n : Nat} {ns : List Nat} (h : sequence? upperSequences m = some ns)
    (hn : n ∈ ns) : sequence? upperSequences n = none := by
  have hapart := List.all_eq_true.1 (List.all_eq_true.1 upperSequences_apart _ (of_sequence? h)) n hn
  cases hk : sequence? upperSequences n with
  | none => rfl
  | some ks =>
    have hne := List.all_eq_true.1 hapart _ (of_sequence? hk)
    simp at hne

/-- A character of an upper case is its own upper case. -/
theorem upper_of_mem_upper {c d : Char} (h : d ∈ upper c) : upper d = [d] := by
  unfold upper at h
  split at h
  · rename_i n hn
    obtain rfl := List.mem_singleton.1 h
    obtain ⟨a, ha, h1, h2, _, hm⟩ := CaseRun.of_image? hn
    have henc := List.all_eq_true.1 upperRuns_apart a ha
    simp only [Bool.and_eq_true, CaseRun.encodable, Bool.or_eq_true, Nat.blt_eq] at henc
    have hval : (Char.ofNat n).toNat = n := toNat_ofNat (by omega)
    simp [upper, hval, image?_image hn, sequence?_image hn]
  · split at h
    · rename_i hc _ ns hns
      obtain ⟨n, hn, rfl⟩ := List.mem_map.1 h
      have hspared := List.all_eq_true.1 (List.all_eq_true.1 upperSequences_spared _ (of_sequence? hns)) n hn
      simp only [Bool.and_eq_true, Nat.blt_eq] at hspared
      have hval : (Char.ofNat n).toNat = n := toNat_ofNat (by omega)
      simp [upper, hval, image?_of_mem_sequence hns hn, sequence?_of_mem_sequence hns hn]
    · obtain rfl := List.mem_singleton.1 h
      rename_i hi hs
      simp [upper, hi, hs]

theorem flatMap_upper_of_fixed {cs : List Char} (h : ∀ c ∈ cs, upper c = [c]) : cs.flatMap upper = cs := by
  induction cs with
  | nil => rfl
  | cons c cs ih =>
    rw [List.flatMap_cons, h c (by simp), ih fun d hd => h d (by simp [hd])]
    rfl

end GibianeEditor.Unicode
