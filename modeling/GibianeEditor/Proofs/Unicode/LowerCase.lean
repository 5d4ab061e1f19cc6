/-
Upper case undoes lower case, but for six letters: each of these has the lower case of another letter
(`flatMap_upper_lower`, `exists_upper_lower_ne`). Both lower cases of the capital sigma lead back to it,
so the letters around do not matter, and a word without the six letters comes back as a whole
(`flatMap_upper_lowerBehind_eq_iff`).
-/
import GibianeEditor.Unicode.LowerCase
import GibianeEditor.Unicode.UpperCase.Fixed

namespace GibianeEditor.Unicode

/-- The letters whose lower case has another upper case: `İ`, `ϴ`, `ẞ` and the signs for ohm, kelvin and
angstrom. -/
def oneWayLetters : List Char := ['\u0130', '\u03f4', '\u1e9e', '\u2126', '\u212a', '\u212b']

/-! ## Runs that undo each other -/

namespace CaseRun

/-- The run in whose range a code point lies. -/
def around? : List CaseRun → Nat → Option CaseRun
  | [], _ => none
  | run :: rest, n => if n < run.first then none else if n ≤ run.last then some run else around? rest n

theorem image?_eq (runs : List CaseRun) (n : Nat) :
    image? runs n = (around? runs n).bind fun run =>
      if (n - run.first) % run.stride = 0 then some (run.image + (n - run.first)) else none := by
  induction runs with
  | nil => rfl
  | cons run rest ih =>
    rw [image?, around?, ih]
    split
    · rfl
    · split <;> rfl

/-- Up to the end of its range all code points lie in the run where one does. -/
theorem around?_of_le {runs : List CaseRun} {run : CaseRun} {n m : Nat} (h : around? runs n = some run)
    (hnm : n ≤ m) (hm : m ≤ run.last) : around? runs m = some run := by
  induction runs with
  | nil => cases h
  | cons r rest ih =>
    simp only [around?] at h ⊢
    split at h
    · cases h
    · rw [if_neg (by omega)]
      split at h
      · obtain rfl : r = run := by simpa using h
        rw [if_pos hm]
      · rw [if_neg (by omega)]
        exact ih h

theorem le_of_around? {runs : List CaseRun} {run : CaseRun} {n : Nat} (h : around? runs n = some run) :
    run.first ≤ n ∧ n ≤ run.last := by
  induction runs with
  | nil => cases h
  | cons r rest ih =>
    simp only [around?] at h
    split at h
    · cases h
    · split at h
      · obtain rfl : r = run := by simpa using h
        omega
      · exact ih h

/-- Whether a run maps the images of another one back. -/
def undoes (back run : CaseRun) : Bool :=
  Nat.ble (run.image + (run.last - run.first)) back.last && Nat.beq ((run.image - back.first) % back.stride) 0 &&
    (Nat.beq (run.stride % back.stride) 0 || Nat.beq run.first run.last) &&
      Nat.beq (back.image + (run.image - back.first)) run.first

theorem image?_of_undoes {runs : List CaseRun} {run back : CaseRun} (hback : around? runs run.image = some back)
    (h : back.undoes run = true) {n : Nat} (hfirst : run.first ≤ n) (hlast : n ≤ run.last)
    (hstride : (n - run.first) % run.stride = 0) : image? runs (run.image + (n - run.first)) = some n := by
  simp only [undoes, Bool.and_eq_true, Bool.or_eq_true, Nat.ble_eq, Nat.beq_eq] at h
  obtain ⟨⟨⟨hend, hstart⟩, hstep⟩, himage⟩ := h
  obtain ⟨hle, _⟩ := le_of_around? hback
  -- The steps of `run` are steps of `back` as well, so no image of `run` is passed over.
  have hsteps : back.stride ∣ n - run.first := by
    rcases hstep with hstep | hstep
    · exact Nat.dvd_trans (Nat.dvd_of_mod_eq_zero hstep) (Nat.dvd_of_mod_eq_zero hstride)
    · have hn : n - run.first = 0 := by omega
      rw [hn]
      exact Nat.dvd_zero _
  have hmod : (run.image + (n - run.first) - back.first) % back.stride = 0 := by
    rw [Nat.sub_add_comm hle]
    exact Nat.mod_eq_zero_of_dvd (Nat.dvd_add (Nat.dvd_of_mod_eq_zero hstart) hsteps)
  rw [image?_eq, around?_of_le hback (Nat.le_add_right _ _) (by omega), Option.bind_some, if_pos hmod,
    Option.some.injEq]
  omega

end CaseRun

/-! ## The tables -/

/-- The upper case of a code point. -/
def upperCodes (n : Nat) : List Nat :=
  match CaseRun.image? upperRuns n with
  | some m => [m]
  | none => (sequence? upperSequences n).getD [n]

theorem upper_eq (c : Char) : upper c = (upperCodes c.toNat).map Char.ofNat := by
  unfold upper upperCodes
  cases CaseRun.image? upperRuns c.toNat with
  | some n => rfl
  | none =>
    cases sequence? upperSequences c.toNat with
    | some ns => rfl
    | none => simp

theorem upperCodes_of_image? {n m : Nat} (h : CaseRun.image? upperRuns n = some m) : upperCodes n = upperCodes m := by
  simp [upperCodes, h, image?_image h, sequence?_image h]

/-- Whether all images of a run have the upper case of what they are the lower case of, letter by letter. -/
def CaseRun.comesBack (run : CaseRun) : Bool :=
  (List.range (run.last - run.first + 1)).all fun k =>
    !Nat.beq (k % run.stride) 0 || oneWayLetters.any (fun c => Nat.beq c.toNat (run.first + k)) ||
      upperCodes (run.image + k) == upperCodes (run.first + k)

/-- Most runs are undone by one run as a whole, and only the others are looked at letter by letter. -/
def CaseRun.returns (run : CaseRun) : Bool :=
  run.encodable && ((around? upperRuns run.image).any (·.undoes run) || run.comesBack)

set_option maxRecDepth 20000 in
theorem lowerRuns_return : (lowerRuns.all CaseRun.returns) = true := by
  decide +kernel

theorem upperCodes_image {run : CaseRun} (hrun : run ∈ lowerRuns) {c : Char} (hc : c ∉ oneWayLetters)
    (hfirst : run.first ≤ c.toNat) (hlast : c.toNat ≤ run.last) (hstride : (c.toNat - run.first) % run.stride = 0) :
    upperCodes (run.image + (c.toNat - run.first)) = upperCodes c.toNat := by
  have hreturns := List.all_eq_true.1 lowerRuns_return run hrun
  simp only [CaseRun.returns, Bool.and_eq_true, Bool.or_eq_true, Option.any_eq_true] at hreturns
  rcases hreturns.2 with ⟨back, hback, hundoes⟩ | hback
  · exact upperCodes_of_image? (CaseRun.image?_of_undoes hback hundoes hfirst hlast hstride)
  · simp only [CaseRun.comesBack, List.all_eq_true, List.mem_range] at hback
    have hback := hback (c.toNat - run.first) (by omega)
    have hletter : (oneWayLetters.any fun d => Nat.beq d.toNat c.toNat) = false := by
      refine List.any_eq_false.2 fun d hd hdc => hc ?_
      have hdc : d = c := Char.toNat_inj.1 (Nat.eq_of_beq_eq_true hdc)
      rwa [← hdc]
    rw [hstride, Nat.add_sub_cancel' hfirst, hletter] at hback
    simpa using hback

/-! ## One character -/

/-- The lower case of a character has the upper case of the character. -/
theorem flatMap_upper_lower {c : Char} (h : c ∉ oneWayLetters) : (lower c).flatMap upper = upper c := by
  unfold lower
  split
  · rename_i m hm
    obtain ⟨run, hrun, hfirst, hlast, hstride, rfl⟩ := CaseRun.of_image? hm
    have hreturns := List.all_eq_true.1 lowerRuns_return run hrun
    simp only [CaseRun.returns, CaseRun.encodable, Bool.and_eq_true, Bool.or_eq_true, Nat.blt_eq] at hreturns
    have hvalue := toNat_ofNat (n := run.image + (c.toNat - run.first)) (by omega)
    rw [List.flatMap_singleton, upper_eq, upper_eq c, hvalue, upperCodes_image hrun h hfirst hlast hstride]
  · split
    · rename_i ns hns
      have hmem := of_sequence? hns
      simp only [lowerSequences, List.mem_singleton, Prod.mk.injEq] at hmem
      obtain rfl : c = '\u0130' := Char.toNat_inj.1 hmem.1
      exact absurd (by decide) h
    · exact List.flatMap_singleton ..

/-- The lower case of a one-way letter leads to another letter. -/
theorem exists_upper_lower_ne {c : Char} (h : c ∈ oneWayLetters) :
    ∃ a b : Char, a ≠ b ∧ (∃ u, (lower c).flatMap upper = a :: u) ∧ ∃ v, upper c = b :: v := by
  simp only [oneWayLetters, List.mem_cons, List.not_mem_nil, or_false] at h
  rcases h with rfl | rfl | rfl | rfl | rfl | rfl
  · exact ⟨'I', '\u0130', by decide, ⟨['\u0307'], by decide +kernel⟩, [], by decide +kernel⟩
  · exact ⟨'\u0398', '\u03f4', by decide, ⟨[], by decide +kernel⟩, [], by decide +kernel⟩
  · exact ⟨'S', '\u1e9e', by decide, ⟨['S'], by decide +kernel⟩, [], by decide +kernel⟩
  · exact ⟨'\u03a9', '\u2126', by decide, ⟨[], by decide +kernel⟩, [], by decide +kernel⟩
  · exact ⟨'K', '\u212a', by decide, ⟨[], by decide +kernel⟩, [], by decide +kernel⟩
  · exact ⟨'\u00c5', '\u212b', by decide, ⟨[], by decide +kernel⟩, [], by decide +kernel⟩

/-! ## Words -/

/-- A sigma at the end of a word has the same upper case as any other. -/
theorem flatMap_upper_lowerBetween (before : List Char) (c : Char) (after : List Char) :
    (lowerBetween before c after).flatMap upper = (lower c).flatMap upper := by
  unfold lowerBetween
  split
  · rename_i hc
    subst hc
    split <;> decide +kernel
  · rfl

theorem flatMap_upper_lowerBehind (before cs : List Char) :
    (lowerBehind before cs).flatMap upper = cs.flatMap fun c => (lower c).flatMap upper := by
  induction cs generalizing before with
  | nil => rfl
  | cons c cs ih => rw [lowerBehind, List.flatMap_append, flatMap_upper_lowerBetween, ih, List.flatMap_cons]

/-- The lower case of a word has the upper case of the word exactly if none of the six letters is in it. -/
theorem flatMap_upper_lowerBehind_eq_iff (before cs : List Char) :
    (lowerBehind before cs).flatMap upper = cs.flatMap upper ↔ ∀ c ∈ cs, c ∉ oneWayLetters := by
  rw [flatMap_upper_lowerBehind]
  induction cs with
  | nil => simp
  | cons c cs ih =>
    rw [List.flatMap_cons, List.flatMap_cons, List.forall_mem_cons]
    by_cases hc : c ∈ oneWayLetters
    · -- The two upper cases differ at the letter, whatever stands behind it.
      obtain ⟨a, b, hne, ⟨u, hu⟩, v, hv⟩ := exists_upper_lower_ne hc
      rw [hu, hv]
      simp [hc, hne]
    · rw [flatMap_upper_lower hc, List.append_cancel_left_eq, ih]
      simp [hc]

end GibianeEditor.Unicode
