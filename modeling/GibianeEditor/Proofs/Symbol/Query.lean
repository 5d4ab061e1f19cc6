/-
What a table tells of the names a document declares. A word that spells one means its variable and
nothing else (`resolve_ofText`), and every question about the word is answered from that variable.
The variables of the table are those of the declarations, in some order (`perm_declaredVariables`).
-/
import GibianeEditor.Proofs.Symbol.Table
import GibianeEditor.Symbol.Query

namespace GibianeEditor.SymbolTable

open Source (Declaration scan)

/-! ## The symbols of a filed table -/

theorem Filed.map_name_symbols {table : SymbolTable} (h : table.Filed) :
    table.symbols.map Symbol.name = OrderedMap.keys table := by
  rw [symbols, OrderedMap.values, OrderedMap.keys, List.map_map]
  exact List.map_congr_left fun e he => h.named e he

theorem Filed.mem_symbols_iff {table : SymbolTable} (h : table.Filed) (s : Symbol) :
    s ∈ table.symbols ↔ OrderedMap.find? table s.name = some s := by
  rw [OrderedMap.find?_eq_some_iff h.nodup]
  constructor
  · intro hs
    obtain ⟨e, he, rfl⟩ := List.mem_map.1 hs
    rw [h.named e he]
    exact he
  · exact fun he => List.mem_map.2 ⟨_, he, rfl⟩

theorem filter_eq_toList_find? {α β : Type} [DecidableEq β] (f : α → β) {items : List α} (h : (items.map f).Nodup)
    (b : β) : (items.filter fun x => f x = b) = (items.find? fun x => f x = b).toList := by
  induction items with
  | nil => rfl
  | cons x items ih =>
    obtain ⟨hx, hitems⟩ := List.nodup_cons.1 h
    by_cases hb : f x = b
    · have hnone : (items.filter fun y => f y = b) = [] := by
        refine List.filter_eq_nil_iff.2 fun y hy hyb => hx ?_
        rw [hb, ← of_decide_eq_true hyb]
        exact List.mem_map_of_mem hy
      rw [List.filter_cons_of_pos (by simpa using hb), List.find?_cons_of_pos (by simpa using hb), hnone]
      rfl
    · rw [List.filter_cons_of_neg (by simpa using hb), List.find?_cons_of_neg (by simpa using hb), ih hitems]

/-- The symbols of a name are the one that the table holds under it, if there is one. -/
theorem Filed.filter_symbols {table : SymbolTable} (h : table.Filed) (name : Name) :
    (table.symbols.filter fun s => s.name = name) = (OrderedMap.find? table name).toList := by
  rw [filter_eq_toList_find? Symbol.name (by rw [h.map_name_symbols]; exact h.nodup)]
  congr 1
  cases hfind : table.symbols.find? fun s => decide (s.name = name) with
  | some s =>
    obtain rfl : s.name = name := by simpa using List.find?_some hfind
    exact ((h.mem_symbols_iff s).1 (List.mem_of_find?_eq_some hfind)).symm
  | none =>
    cases hfound : OrderedMap.find? table name with
    | none => rfl
    | some s =>
      have he := (OrderedMap.find?_eq_some_iff h.nodup name s).1 hfound
      have hs := List.find?_eq_none.1 hfind s (List.mem_map.2 ⟨_, he, rfl⟩)
      simp [h.named _ he] at hs

/-! ## Questions about a declared name -/

section Declared

variable {t : Text} {d : Declaration} (hd : d ∈ scan t) (path : String) {word : Text} (hword : Name.of word = d.name)
include hd hword

theorem resolve_ofText : (ofText t path).resolve word = ⟨.exact, [.variable (d.toVariable path)]⟩ := by
  have hfind : OrderedMap.find? (ofText t path) d.name = some (.variable (d.toVariable path)) := by
    rw [find?_ofText, find?_scan hd]
    rfl
  rw [resolve, hword, (filed_ofText t path).filter_symbols, hfind]
  rfl

theorem hover_ofText : (ofText t path).hover word = if d.description.isEmpty then none else some d.description := by
  rw [hover, resolve_ofText hd path hword]
  rfl

theorem definition_ofText : (ofText t path).definition word = [⟨d.span, path⟩] := by
  rw [definition, resolve_ofText hd path hword]
  rfl

theorem references_ofText (withDeclaration : Bool) :
    (ofText t path).references word withDeclaration = if withDeclaration then d.span :: d.uses else d.uses := by
  rw [references, variableOf_ofText hd path hword]
  rfl

theorem rename_ofText (newName : Text) :
    (ofText t path).rename word newName = some ((d.span :: d.uses).map fun span => ⟨span, newName⟩) := by
  rw [rename, variableOf_ofText hd path hword]
  rfl

theorem prepareRename_ofText : (ofText t path).prepareRename word = some d.name := by
  rw [prepareRename, variableOf_ofText hd path hword]
  rfl

end Declared

/-- The variable of a word is that of a declaration of the word's name. -/
theorem exists_of_variableOf_ofText {t : Text} {path : String} {word : Text} {v : Variable}
    (h : (ofText t path).variableOf word = some v) : ∃ d ∈ scan t, d.name = Name.of word ∧ v = d.toVariable path := by
  rw [variableOf_eq (filed_ofText t path), find?_ofText] at h
  cases hfind : (scan t).find? fun d => decide (d.name = Name.of word) with
  | some d =>
    rw [hfind] at h
    exact ⟨d, List.mem_of_find?_eq_some hfind, by simpa using List.find?_some hfind,
      by simpa [Symbol.asVariable] using h.symm⟩
  | none =>
    rw [hfind, Option.map_none, Option.none_or] at h
    obtain ⟨s, hs, hv⟩ := Option.bind_eq_some_iff.1 h
    obtain ⟨op, _, rfl⟩ := Option.map_eq_some_iff.1 hs
    simp [Symbol.asVariable] at hv

/-- A word of no declared name has no variable, whether or not an operator is called so. -/
theorem variableOf_ofText_eq_none {t : Text} {word : Text} (h : ∀ d ∈ scan t, Name.of word ≠ d.name) (path : String) :
    (ofText t path).variableOf word = none := by
  cases hvariable : (ofText t path).variableOf word with
  | none => rfl
  | some v =>
    obtain ⟨d, hd, hname, _⟩ := exists_of_variableOf_ofText hvariable
    exact absurd hname.symm (h d hd)

/-! ## The variables of a document -/

theorem mem_declaredVariables_ofText_iff {t : Text} {path : String} {v : Variable} :
    v ∈ (ofText t path).declaredVariables ↔ ∃ d ∈ scan t, v = d.toVariable path := by
  have hmem : v ∈ (ofText t path).declaredVariables ↔ Symbol.variable v ∈ (ofText t path).symbols := by
    rw [declaredVariables, List.mem_filterMap]
    constructor
    · rintro ⟨s, hs, hv⟩
      rcases s with w | op
      · obtain rfl : w = v := by simpa [Symbol.asVariable] using hv
        exact hs
      · simp [Symbol.asVariable] at hv
    · exact fun hs => ⟨_, hs, rfl⟩
  rw [hmem, (filed_ofText t path).mem_symbols_iff, find?_ofText]
  constructor
  · intro h
    cases hfind : (scan t).find? fun d => decide (d.name = (Symbol.variable v).name) with
    | some d =>
      rw [hfind] at h
      exact ⟨d, List.mem_of_find?_eq_some hfind, by simpa using h.symm⟩
    | none =>
      rw [hfind, Option.map_none, Option.none_or] at h
      obtain ⟨op, _, hop⟩ := Option.map_eq_some_iff.1 h
      cases hop
  · rintro ⟨d, hd, rfl⟩
    have hfind := find?_scan hd
    change (Option.map _ ((scan t).find? fun e => decide (e.name = d.name))).or _ = _
    rw [hfind]
    rfl

/-- The variables of a document's table are those that the document declares. -/
theorem perm_declaredVariables (t : Text) (path : String) :
    ((ofText t path).declaredVariables).Perm ((scan t).map fun d => d.toVariable path) := by
  have hfiled := filed_ofText t path
  have hsymbols : (ofText t path).symbols.Nodup := by
    have hnames := hfiled.nodup
    rw [← hfiled.map_name_symbols] at hnames
    exact hnames.of_map _
  have hvariables : (ofText t path).declaredVariables.Nodup := by
    refine hsymbols.filterMap fun s s' v hs hs' => ?_
    cases s <;> cases s' <;> simp_all [Symbol.asVariable]
  have hscan : ((scan t).map fun d => d.toVariable path).Nodup := by
    refine List.Nodup.of_map Variable.name ?_
    rw [List.map_map]
    exact Source.nodup_names_scan t
  refine (List.perm_ext_iff_of_nodup hvariables hscan).2 fun v => ?_
  rw [mem_declaredVariables_ofText_iff, List.mem_map]
  exact ⟨fun ⟨d, hd, hv⟩ => ⟨d, hd, hv.symm⟩, fun ⟨d, hd, hv⟩ => ⟨d, hd, hv.symm⟩⟩

/-- The highlighted places are the declarations and uses. -/
theorem perm_highlights (t : Text) (path : String) :
    ((ofText t path).highlights).Perm ((scan t).flatMap fun d => d.span :: d.uses) := by
  have h := (perm_declaredVariables t path).flatMap_right Variable.sites
  rw [List.flatMap_map] at h
  exact h

end GibianeEditor.SymbolTable
