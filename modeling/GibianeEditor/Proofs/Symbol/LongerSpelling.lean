/-
What longer spellings of built-in operators mean where a document declares nothing. A word shows the
operator it spells, else the first of the catalog whose name it begins with (`hover_of_scan_eq_nil`). If
an operator's name is the longest of those, then the first is the same for the word and for that name
(`firstBeginning_eq`). It is the operator itself but for three, which the catalog lists behind an operator
with a beginning of their names (`longer_spelling_shows_operator_iff`).
-/
import GibianeEditor.Proofs.Symbol.Candidates
import GibianeEditor.Proofs.Symbol.Document

namespace GibianeEditor

open Source (scan)

/-! ## The catalog -/

namespace Operator

/-- The first operator of the catalog whose name a word begins with. -/
def firstBeginning (word : Name) : Option Operator := catalog.find? fun op => op.name.begins word

/-- The operator that a word means where no name is declared: the one it spells, else the first whose name it
begins with. -/
def shown (word : Name) : Option Operator := (catalog.find? fun op => op.name = word).or (firstBeginning word)

/-- The operators that the catalog lists behind one with a beginning of their names: `SINO` and `SIGM`
stand behind `SI`, and `FINP` behind `FIN`. -/
def overshadowed : List Name := ["SINO", "FINP", "SIGM"].map fun s => Name.of s.toList

theorem eq_of_name_eq {op other : Operator} (hop : op ∈ catalog) (hother : other ∈ catalog)
    (h : op.name = other.name) : op = other :=
  List.inj_on_of_nodup_map SymbolTable.nodup_names_catalog hop hother h

theorem mem_catalog_of_shown {op : Operator} {word : Name} (h : shown word = some op) : op ∈ catalog := by
  rcases Option.or_eq_some_iff.1 h with hfind | ⟨_, hfind⟩
  · exact List.mem_of_find?_eq_some hfind
  · exact List.mem_of_find?_eq_some hfind

theorem shown_name {op : Operator} (hop : op ∈ catalog) : shown op.name = some op := by
  have hfind := OrderedMap.find?_key_of_mem SymbolTable.nodup_names_catalog hop
  rw [shown, hfind, Option.some_or]

theorem shown_eq_of_name {op : Operator} {word : Name} (hop : op ∈ catalog)
    (h : (shown word).map Operator.name = some op.name) : shown word = some op := by
  obtain ⟨other, hshown, hname⟩ := Option.map_eq_some_iff.1 h
  rw [hshown, eq_of_name_eq (mem_catalog_of_shown hshown) hop hname]

theorem description_ne_nil_of_mem_catalog : ∀ op ∈ catalog, op.description ≠ [] := by
  simp only [catalog, entry, List.forall_mem_cons, ne_eq, String.toList_eq_nil_iff]
  decide

/-- No two operators are described alike. -/
theorem nodup_descriptions_catalog : (catalog.map Operator.description).Nodup := by
  simp only [catalog, entry, List.map_cons, List.map_nil, List.nodup_cons, List.nodup_nil, List.mem_cons,
    List.not_mem_nil, String.toList_inj, String.reduceEq, or_self, not_false_eq_true, and_self]

theorem eq_of_description_eq {op other : Operator} (hop : op ∈ catalog) (hother : other ∈ catalog)
    (h : op.description = other.description) : op = other :=
  List.inj_on_of_nodup_map nodup_descriptions_catalog hop hother h

set_option maxRecDepth 20000 in
theorem firstBeginning_of_mem_catalog :
    (catalog.all fun op => decide
      ((firstBeginning op.name).map Operator.name = some op.name ↔ op.name ∉ overshadowed)) = true := by
  decide +kernel

/-- An operator comes before all others whose names its own begins with, unless it is overshadowed. -/
theorem firstBeginning_name_iff {op : Operator} (hop : op ∈ catalog) :
    firstBeginning op.name = some op ↔ op.name ∉ overshadowed := by
  rw [← of_decide_eq_true (List.all_eq_true.1 firstBeginning_of_mem_catalog op hop)]
  constructor
  · intro h
    rw [h, Option.map_some]
  · intro h
    obtain ⟨first, hfind, hname⟩ := Option.map_eq_some_iff.1 h
    rw [hfind, eq_of_name_eq (List.mem_of_find?_eq_some hfind) hop hname]

theorem exists_firstBeginning_name {op : Operator} (hop : op ∈ catalog) (h : op.name ∈ overshadowed) :
    ∃ first, firstBeginning op.name = some first ∧ first.description ≠ op.description := by
  have hself : op.name.begins op.name = true := Name.begins_iff.2 List.prefix_rfl
  have hsome : (firstBeginning op.name).isSome := List.find?_isSome.2 ⟨op, hop, hself⟩
  obtain ⟨first, hfirst⟩ := Option.isSome_iff_exists.1 hsome
  refine ⟨first, hfirst, fun hdescription => ?_⟩
  have heq := eq_of_description_eq (List.mem_of_find?_eq_some hfirst) hop hdescription
  exact (firstBeginning_name_iff hop).1 (heq ▸ hfirst) h

theorem longest_of_all {op : Operator} {name word : Name} (hname : op.name = name)
    (h : (catalog.all fun other => !other.name.begins word ||
      decide (other.name.letters.length ≤ name.letters.length)) = true) :
    ∀ other ∈ catalog, other.name.begins word = true → other.name.letters.length ≤ op.name.letters.length := by
  intro other hother hbegins
  have hother := List.all_eq_true.1 h other hother
  rw [hbegins, Bool.not_true, Bool.false_or] at hother
  rw [hname]
  exact of_decide_eq_true hother

section

variable {op : Operator} {word : Name} (hbegins : op.name.begins word = true)
  (hlongest : ∀ other ∈ catalog, other.name.begins word = true → other.name.letters.length ≤ op.name.letters.length)
include hbegins hlongest

/-- What a word begins with is what the longest name begins with. -/
theorem firstBeginning_eq : firstBeginning word = firstBeginning op.name := by
  have hsame : ∀ other ∈ catalog, other.name.begins word = other.name.begins op.name := by
    intro other hother
    rw [Bool.eq_iff_iff]
    constructor
    · exact fun h => Name.begins_of_length_le hbegins h (hlongest other hother h)
    · exact fun h => Name.begins_trans h hbegins
  rw [firstBeginning, firstBeginning, ← List.head?_filter, ← List.head?_filter, List.filter_congr hsame]

/-- A word that is longer than the longest name spells no operator. -/
theorem shown_of_ne (hne : word ≠ op.name) : shown word = firstBeginning op.name := by
  have hspelt : (catalog.find? fun other => decide (other.name = word)) = none := by
    refine List.find?_eq_none.2 fun other hother hname => hne ?_
    have hname := of_decide_eq_true hname
    have hself : other.name.begins word = true := Name.begins_iff.2 (hname ▸ List.prefix_rfl)
    refine (Name.eq_of_begins hbegins ?_).symm
    rw [← hname]
    exact hlongest other hother hself
  rw [shown, hspelt, Option.none_or, firstBeginning_eq hbegins hlongest]

end

end Operator

namespace SymbolTable

/-! ## Documents that declare nothing -/

theorem symbols_builtIn : builtIn.symbols = catalog.map .operator := by
  have hvalues := OrderedMap.map_some_values (m := builtIn) (by rw [keys_builtIn]; exact nodup_names_catalog)
  refine List.map_injective_iff.2 (fun _ _ => Option.some.inj) (hvalues.trans ?_)
  rw [keys_builtIn, List.map_map, List.map_map]
  refine List.map_congr_left fun op hop => ?_
  rw [Function.comp_apply, find?_builtIn, OrderedMap.find?_key_of_mem nodup_names_catalog hop]
  rfl

/-- The first symbol that a word means. -/
theorem head?_symbols_resolve (table : SymbolTable) (word : Text) :
    (table.resolve word).symbols.head? = (table.symbols.find? fun s => s.name = Name.of word).or
      (table.symbols.find? fun s => s.name.begins (Name.of word)) := by
  rw [← List.head?_filter, ← List.head?_filter, resolve]
  cases table.symbols.filter fun s => decide (s.name = Name.of word) <;> rfl

theorem hover_eq (table : SymbolTable) (word : Text) :
    table.hover word = ((table.resolve word).symbols.head?.map Symbol.description).filter (!·.isEmpty) := by
  rw [hover]
  cases (table.resolve word).symbols with
  | nil => rfl
  | cons s _ => cases h : s.description.isEmpty <;> simp [h, Option.filter]

/-- Where nothing is declared a word shows the description of the operator it means. -/
theorem hover_of_scan_eq_nil {t : Text} (h : scan t = []) (path : String) (word : Text) :
    (ofText t path).hover word = (Operator.shown (Name.of word)).map Operator.description := by
  have hsymbols : (ofText t path).symbols = catalog.map .operator := by
    rw [ofText, h, List.foldl_nil]
    exact symbols_builtIn
  have hhead : ((ofText t path).resolve word).symbols.head? = (Operator.shown (Name.of word)).map .operator := by
    rw [head?_symbols_resolve, hsymbols, List.find?_map, List.find?_map, ← Option.map_or]
    rfl
  rw [hover_eq, hhead]
  cases hshown : Operator.shown (Name.of word) with
  | none => rfl
  | some op =>
    have hdescription := Operator.description_ne_nil_of_mem_catalog op (Operator.mem_catalog_of_shown hshown)
    simp [Symbol.description, Option.filter, hdescription]

/-- **A longer spelling shows the operator, but for three.** In a document that declares nothing, a word
whose longest beginning among the operators' names is that of an operator shows what the operator's name
shows exactly if it is that name or the operator is not overshadowed. A word that is longer shows the first
operator whose name the operator's name begins with. -/
theorem longer_spelling_shows_operator_iff (index : SymbolIndex) (uri path : String) {t word : Text}
    (hnone : scan t = []) {op : Operator} (hop : op ∈ catalog) (hbegins : op.name.begins (Name.of word) = true)
    (hlongest : ∀ other ∈ catalog, other.name.begins (Name.of word) = true →
      other.name.letters.length ≤ op.name.letters.length) :
    let index := index.indexDocument uri path t
    index.ask uri (fun table => table.hover op.name.letters) = .ok (some op.description) ∧
    (index.ask uri (fun table => table.hover word) = .ok (some op.description) ↔
      Name.of word = op.name ∨ op.name ∉ Operator.overshadowed) ∧
    (Name.of word ≠ op.name → index.ask uri (fun table => table.hover word) =
      .ok ((Operator.firstBeginning op.name).map Operator.description)) := by
  have hlonger : Name.of word ≠ op.name →
      (ofText t path).hover word = (Operator.firstBeginning op.name).map Operator.description := by
    intro hne
    rw [hover_of_scan_eq_nil hnone, Operator.shown_of_ne hbegins hlongest hne]
  have hsame : ∀ word, Name.of word = op.name → (ofText t path).hover word = some op.description := by
    intro word hword
    rw [hover_of_scan_eq_nil hnone, hword, Operator.shown_name hop, Option.map_some]
  simp only [SymbolIndex.ask_indexDocument, Except.ok.injEq]
  refine ⟨hsame _ (Name.of_letters op.name), ?_, hlonger⟩
  by_cases hword : Name.of word = op.name
  · simp [hsame word hword, hword]
  · rw [hlonger hword]
    by_cases hshadow : op.name ∈ Operator.overshadowed
    · obtain ⟨first, hfirst, hne⟩ := Operator.exists_firstBeginning_name hop hshadow
      simp [hfirst, hne, hword, hshadow]
    · simp [(Operator.firstBeginning_name_iff hop).2 hshadow, hshadow]

/-- `OPTION` and `opti` in a document that uses a name it does not declare. -/
theorem hover_of_option :
    let t := "LIST X;".toList
    let index := SymbolIndex.empty.indexDocument "file:///a" "/a" t
    scan t = [] ∧ ∃ op ∈ catalog, op.name = Name.of "OPTI".toList ∧ op.name.begins (Name.of "Option".toList) = true ∧
      index.ask "file:///a" (fun table => table.hover "OPTI".toList) = .ok (some op.description) ∧
      index.ask "file:///a" (fun table => table.hover "Option".toList) = .ok (some op.description) := by
  intro t index
  have hnone : scan t = [] := by decide +kernel
  obtain ⟨op, hop, hopti⟩ : ∃ op ∈ catalog, op.name = Name.of "OPTI".toList := List.mem_map.1 (by decide +kernel)
  have hbegins : op.name.begins (Name.of "Option".toList) = true := by
    rw [hopti]
    decide +kernel
  obtain ⟨hname, hword, _⟩ := longer_spelling_shows_operator_iff .empty "file:///a" "/a" hnone hop hbegins
    (Operator.longest_of_all hopti (by decide +kernel))
  have hopen : op.name ∉ Operator.overshadowed := by
    rw [hopti]
    decide +kernel
  rw [hopti] at hname
  exact ⟨hnone, op, hop, hopti, hbegins, hname, hword.2 (.inr hopen)⟩

/-- `SINON` in an empty document shows `SI` and not `SINO`, the longest name that it begins with. -/
theorem hover_of_sinon :
    let word := "SINON".toList
    let index := SymbolIndex.empty.indexDocument "file:///a" "/a" []
    scan [] = [] ∧ ∃ op ∈ catalog, ∃ first ∈ catalog, op.name = Name.of "SINO".toList ∧
      first.name = Name.of "SI".toList ∧ op.name.begins (Name.of word) = true ∧
      (∀ other ∈ catalog, other.name.begins (Name.of word) = true →
        other.name.letters.length ≤ op.name.letters.length) ∧
      index.ask "file:///a" (fun table => table.hover op.name.letters) = .ok (some op.description) ∧
      index.ask "file:///a" (fun table => table.hover word) = .ok (some first.description) ∧
      first.description ≠ op.description := by
  intro word index
  have hnone : scan [] = [] := by decide +kernel
  obtain ⟨op, hop, hsino⟩ : ∃ op ∈ catalog, op.name = Name.of "SINO".toList := List.mem_map.1 (by decide +kernel)
  obtain ⟨first, hfirst, hsi⟩ : ∃ op ∈ catalog, op.name = Name.of "SI".toList := List.mem_map.1 (by decide +kernel)
  have hshown : Operator.shown (Name.of word) = some first := Operator.shown_eq_of_name hfirst (by
    rw [hsi]
    decide +kernel)
  have hbegins : op.name.begins (Name.of word) = true := by
    rw [hsino]
    decide +kernel
  have hne : first.name ≠ op.name := by
    rw [hsi, hsino]
    decide +kernel
  refine ⟨hnone, op, hop, first, hfirst, hsino, hsi, hbegins, Operator.longest_of_all hsino (by decide +kernel), ?_, ?_,
    fun h => hne (congrArg Operator.name (Operator.eq_of_description_eq hfirst hop h))⟩
  · rw [SymbolIndex.ask_indexDocument, hover_of_scan_eq_nil hnone, Name.of_letters, Operator.shown_name hop]
    rfl
  · rw [SymbolIndex.ask_indexDocument, hover_of_scan_eq_nil hnone, hshown]
    rfl

end SymbolTable
end GibianeEditor
