/-
What a word means in upper and in lower case. Its upper case always spells its name; its lower case does
exactly if none of the six letters is in it that have the lower case of another letter
(`Name.of_lower_eq_iff`). So these words and no others mean the same in every table however they are
written (`resolution_ignores_case_iff`).
-/
import GibianeEditor.Proofs.Unicode.LowerCase
import GibianeEditor.Symbol.Slots

namespace GibianeEditor

open Unicode (oneWayLetters)

/-- A text in lower case. -/
def Text.lower (t : Text) : Text := Unicode.lowerBehind [] t

theorem Name.of_upper (word : Text) : of word.upper = of word := ext (Text.upper_upper word)

theorem Name.of_lower_eq_iff (word : Text) : of word.lower = of word ↔ ∀ c ∈ word, c ∉ oneWayLetters := by
  rw [of_eq_of_iff]
  exact Unicode.flatMap_upper_lowerBehind_eq_iff [] word

namespace SlotTable

/-- Whether all symbols are put in under their own names. -/
def OwnNamed (steps : List Step) : Prop := ∀ key s, .insert key s ∈ steps → Name.of key = s.name

/-- Words of the same name mean the same. -/
theorem resolve_eq_of_name {word other : Text} (h : Name.of word = Name.of other) (table : SlotTable) :
    table.resolve word = table.resolve other := by
  rw [resolve, resolve, SymbolTable.resolve, SymbolTable.resolve, h]

/-- Words of different names are told apart by a table that has a variable of one of them. -/
theorem exists_resolve_ne {word other : Text} (h : Name.of other ≠ Name.of word) :
    ∃ steps, OwnNamed steps ∧ (empty.run steps).resolve other ≠ (empty.run steps).resolve word := by
  let v : Symbol := .variable ⟨Name.of word, [], ⟨0, word.bytes⟩, "", []⟩
  have hsymbols : SymbolTable.symbols (empty.run [.insert word v]).ownNames = [v] := rfl
  have hword : (empty.run [.insert word v]).resolve word = ⟨.exact, [v]⟩ := by
    have hexact : [v].filter (fun s => s.name = Name.of word) = [v] :=
      List.filter_cons_of_pos (by simp [v, Symbol.name])
    rw [resolve, SymbolTable.resolve, hsymbols, hexact]
  have hother : ((empty.run [.insert word v]).resolve other).kind = .longer := by
    have hexact : [v].filter (fun s => s.name = Name.of other) = [] :=
      List.filter_cons_of_neg (by simp [v, Symbol.name, Ne.symm h])
    rw [resolve, SymbolTable.resolve, hsymbols, hexact]
  refine ⟨[.insert word v], fun key s hs => ?_, fun hsame => ?_⟩
  · obtain ⟨rfl, rfl⟩ : key = word ∧ s = v := by simpa using hs
    rfl
  · rw [hsame, hword] at hother
    cases hother

/-- **What a word means does not hang on case, but for six letters.** In upper case a word means in every
table what it means as it is written. In lower case it does, in every table whose symbols were put in under
their own names, exactly if none of the letters is in it that have the lower case of another letter. -/
theorem resolution_ignores_case_iff (word : Text) :
    (∀ table : SlotTable, table.resolve word.upper = table.resolve word) ∧
    ((∀ steps, OwnNamed steps → (empty.run steps).resolve word.lower = (empty.run steps).resolve word) ↔
      ∀ c ∈ word, c ∉ oneWayLetters) := by
  refine ⟨resolve_eq_of_name (Name.of_upper word), ?_⟩
  rw [← Name.of_lower_eq_iff]
  constructor
  · intro hsame
    refine Decidable.byContradiction fun hname => ?_
    obtain ⟨steps, hown, hne⟩ := exists_resolve_ne hname
    exact hne (hsame steps hown)
  · exact fun hname steps _ => resolve_eq_of_name hname _

/-- A street with a capital sharp s: its lower case is another word. -/
theorem resolve_lower_of_capital_sharp_s :
    let word : Text := "STRA\u1e9eE".toList
    let v : Symbol := .variable ⟨Name.of word, [], ⟨0, 8⟩, "/a", []⟩
    let table := empty.run [.insert word v]
    OwnNamed [.insert word v] ∧ word.lower = "stra\u00dfe".toList ∧ table.resolve word = ⟨.exact, [v]⟩ ∧
      table.resolve word.lower = ⟨.longer, []⟩ ∧ table.resolve word.lower ≠ table.resolve word := by
  intro word v table
  refine ⟨fun key s hs => ?_, by decide +kernel, by decide +kernel, by decide +kernel, by decide +kernel⟩
  obtain ⟨rfl, rfl⟩ : key = word ∧ s = v := by simpa using hs
  rfl

end SlotTable
end GibianeEditor
