/-
What is found in an ordered map after insertions (`find?_foldl_insert`), and that its keys are those
under which something is found (`mem_keys_iff`). A history that comes back to a key keeps the key's place
(`keys_foldl_insert`) and leaves what it put there last (`find?_foldl_insert_last`).
-/
import Mathlib.Data.List.Basic
import Mathlib.Data.List.Induction
import Mathlib.Data.List.Nodup
import GibianeEditor.OrderedMap

namespace GibianeEditor.OrderedMap

variable {α β γ : Type} [DecidableEq α]

theorem nodup_keys_insert {m : OrderedMap α β} (h : m.keys.Nodup) (key : α) (value : β) :
    (m.insert key value).keys.Nodup := by
  rw [keys_insert]
  split
  · exact h
  · rename_i hkey
    exact List.nodup_append.2 ⟨h, by simp, by rintro a ha b hb rfl; simp_all⟩

theorem mem_entries_insert {m : OrderedMap α β} {key : α} {value : β} {e : α × β}
    (h : e ∈ (m.insert key value).entries) : e = (key, value) ∨ e ∈ m.entries := by
  obtain ⟨entries⟩ := m
  simp only [insert] at h
  induction entries with
  | nil => simpa [put] using h
  | cons f rest ih =>
    simp only [put] at h
    split at h
    · rcases List.mem_cons.1 h with h | h
      · exact .inl h
      · exact .inr (List.mem_cons_of_mem _ h)
    · rcases List.mem_cons.1 h with rfl | h
      · exact .inr (by simp)
      · rcases ih h with h | h
        · exact .inl h
        · exact .inr (List.mem_cons_of_mem _ h)

theorem find?_key_eq_none {key : γ → α} {items : List γ} {k : α} (h : k ∉ items.map key) :
    (items.find? fun x => key x = k) = none := by
  refine List.find?_eq_none.2 fun x hx => ?_
  simp only [decide_eq_true_eq]
  exact fun hk => h (List.mem_map.2 ⟨x, hx, hk⟩)

theorem find?_key_of_mem {key : γ → α} {items : List γ} (h : (items.map key).Nodup) {x : γ} (hx : x ∈ items) :
    (items.find? fun y => key y = key x) = some x := by
  cases hfind : items.find? fun y => decide (key y = key x) with
  | none => exact absurd (by simp) (List.find?_eq_none.1 hfind x hx)
  | some y =>
    have hkey : key y = key x := by simpa using List.find?_some hfind
    rw [List.inj_on_of_nodup_map h (List.mem_of_find?_eq_some hfind) hx hkey]

/-- Of items put in under different keys each is found under its own, and nothing else changes. -/
theorem find?_foldl_insert (key : γ → α) (value : γ → β) {items : List γ} (h : (items.map key).Nodup)
    (m : OrderedMap α β) (k : α) :
    (items.foldl (fun m x => m.insert (key x) (value x)) m).find? k =
      ((items.find? fun x => key x = k).map value).or (m.find? k) := by
  induction items generalizing m with
  | nil => rfl
  | cons x items ih =>
    obtain ⟨hx, hitems⟩ := List.nodup_cons.1 h
    rw [List.foldl_cons, ih hitems]
    by_cases hk : key x = k
    · have hnone : (items.find? fun y => key y = k) = none := find?_key_eq_none (by rwa [← hk])
      rw [hnone, List.find?_cons_of_pos (by simpa using hk), ← hk, find?_insert_self]
      rfl
    · rw [List.find?_cons_of_neg (by simpa using hk), find?_insert_other m (value x) (Ne.symm hk)]

theorem mem_keys_iff (m : OrderedMap α β) (key : α) : key ∈ m.keys ↔ (m.find? key).isSome := by
  simp [keys, find?, List.find?_isSome]

/-- Under different keys what is found is what is there. -/
theorem find?_eq_some_iff {m : OrderedMap α β} (h : m.keys.Nodup) (key : α) (value : β) :
    m.find? key = some value ↔ (key, value) ∈ m.entries := by
  constructor
  · intro hfind
    obtain ⟨⟨k, v⟩, he, rfl⟩ := Option.map_eq_some_iff.1 hfind
    obtain rfl : k = key := by simpa using List.find?_some he
    exact List.mem_of_find?_eq_some he
  · intro hmem
    obtain ⟨e, he⟩ := Option.isSome_iff_exists.1 ((m.mem_keys_iff key).1 (List.mem_map.2 ⟨_, hmem, rfl⟩))
    obtain ⟨⟨k, v⟩, hfound, rfl⟩ := Option.map_eq_some_iff.1 he
    obtain rfl : k = key := by simpa using List.find?_some hfound
    have hsame := List.inj_on_of_nodup_map h (List.mem_of_find?_eq_some hfound) hmem rfl
    rw [he, (Prod.mk.inj hsame).2]

/-! ## Slots -/

/-- What is found under a key is the value in the key's slot. -/
theorem find?_eq_getElem? (m : OrderedMap α β) (key : α) :
    m.find? key = (m.keys.idxOf? key).bind fun slot => m.values[slot]? := by
  obtain ⟨entries⟩ := m
  induction entries with
  | nil => rfl
  | cons e rest ih =>
    simp only [find?, keys, values] at ih ⊢
    rw [List.map_cons, List.map_cons, List.idxOf?_cons]
    by_cases he : e.1 = key
    · rw [List.find?_cons_of_pos (by simpa using he), if_pos (by simpa using he)]
      rfl
    · rw [List.find?_cons_of_neg (by simpa using he), if_neg (by simpa using he), ih, Option.bind_map]
      rfl

theorem idxOf?_concat (l : List α) (a b : α) :
    (l ++ [a]).idxOf? b = (l.idxOf? b).or (if a = b then some l.length else none) := by
  induction l with
  | nil => simp [List.idxOf?_cons]
  | cons c l ih =>
    rw [List.cons_append, List.idxOf?_cons, List.idxOf?_cons, ih]
    by_cases hc : c = b
    · simp [hc]
    · by_cases ha : a = b <;> cases l.idxOf? b <;> simp [hc, ha]

/-- A value goes into the slot of its key, or into a new one. -/
theorem values_insert (m : OrderedMap α β) (key : α) (value : β) :
    (m.insert key value).values =
      match m.keys.idxOf? key with
      | some slot => m.values.set slot value
      | none => m.values ++ [value] := by
  obtain ⟨entries⟩ := m
  induction entries with
  | nil => rfl
  | cons e rest ih =>
    simp only [insert, keys, values] at ih ⊢
    rw [List.map_cons, List.idxOf?_cons, put]
    by_cases he : e.1 = key
    · rw [if_pos he, if_pos (by simpa using he)]
      rfl
    · rw [if_neg he, if_neg (by simpa using he), List.map_cons, ih]
      cases (rest.map Prod.fst).idxOf? key <;> rfl

/-! ## Histories of insertions -/

theorem eraseDups_concat (l : List α) (a : α) :
    (l ++ [a]).eraseDups = if a ∈ l then l.eraseDups else l.eraseDups ++ [a] := by
  rw [List.eraseDups_append, List.removeAll]
  by_cases ha : a ∈ l
  · rw [if_pos ha, List.filter_cons_of_neg (by simpa using ha)]
    exact List.append_nil _
  · rw [if_neg ha, List.filter_cons_of_pos (by simpa using ha)]
    rfl

theorem eraseDups_of_nodup {l : List α} (h : l.Nodup) : l.eraseDups = l := by
  induction l using List.reverseRecOn with
  | nil => rfl
  | append_singleton l a ih =>
    obtain ⟨hl, _, hdisjoint⟩ := List.nodup_append.1 h
    have ha : a ∉ l := fun ha => hdisjoint a ha a (by simp) rfl
    rw [eraseDups_concat, if_neg ha, ih hl]

/-- The keys after a history are those of the map and of the history, each where it first came. -/
theorem keys_foldl_insert (key : γ → α) (value : γ → β) (items : List γ) {m : OrderedMap α β} (h : m.keys.Nodup) :
    (items.foldl (fun m x => m.insert (key x) (value x)) m).keys = (m.keys ++ items.map key).eraseDups := by
  induction items using List.reverseRecOn with
  | nil => rw [List.map_nil, List.append_nil, eraseDups_of_nodup h, List.foldl_nil]
  | append_singleton items x ih =>
    rw [List.foldl_append, List.foldl_cons, List.foldl_nil, keys_insert, ih, List.map_append, ← List.append_assoc,
      List.map_singleton, eraseDups_concat]
    simp only [List.mem_eraseDups]

/-- Under a key stands what the history put there last. -/
theorem find?_foldl_insert_last (key : γ → α) (value : γ → β) (items : List γ) (m : OrderedMap α β) (k : α) :
    (items.foldl (fun m x => m.insert (key x) (value x)) m).find? k =
      ((items.reverse.find? fun x => key x = k).map value).or (m.find? k) := by
  induction items using List.reverseRecOn with
  | nil => rfl
  | append_singleton items x ih =>
    rw [List.foldl_append, List.foldl_cons, List.foldl_nil, List.reverse_concat]
    by_cases hk : key x = k
    · rw [List.find?_cons_of_pos (by simpa using hk), ← hk, find?_insert_self]
      rfl
    · rw [List.find?_cons_of_neg (by simpa using hk), find?_insert_other _ _ (Ne.symm hk), ih]

/-- The values are what is found under the keys. -/
theorem map_some_values {m : OrderedMap α β} (h : m.keys.Nodup) : m.values.map some = m.keys.map m.find? := by
  rw [values, keys, List.map_map, List.map_map]
  refine List.map_congr_left fun e he => ?_
  exact ((find?_eq_some_iff h e.1 e.2).2 he).symm

end GibianeEditor.OrderedMap
