/-
What a table holds after its symbols were put in. The table of a document holds under a name what
the document declares by it, else the built-in operator of the name (`find?_ofText`). Its symbols
are filed under their own names (`filed_ofText`), so the variable of a word is what the table holds
under the word's name (`variableOf_eq`).
-/
import Mathlib.Data.List.Basic
import Mathlib.Data.List.Nodup
import GibianeEditor.Proofs.OrderedMap
import GibianeEditor.Proofs.Source.Occurrences
import GibianeEditor.Symbol.Resolution

namespace GibianeEditor

namespace SymbolTable

/-! ## Symbols under their names -/

/-- No key comes twice, and every symbol has its key for a name. -/
structure Filed (table : SymbolTable) : Prop where
  nodup : (OrderedMap.keys table).Nodup
  named : ∀ e ∈ table.entries, e.2.name = e.1

theorem filed_empty : SymbolTable.Filed OrderedMap.empty := ⟨List.nodup_nil, by simp [OrderedMap.empty]⟩

theorem Filed.insert {table : SymbolTable} (h : table.Filed) (s : Symbol) :
    SymbolTable.Filed (OrderedMap.insert table s.name s) := by
  refine ⟨OrderedMap.nodup_keys_insert h.nodup _ _, fun e he => ?_⟩
  rcases OrderedMap.mem_entries_insert he with rfl | he
  · rfl
  · exact h.named e he

theorem Filed.foldl {γ : Type} (symbol : γ → Symbol) {items : List γ} {table : SymbolTable} (h : table.Filed) :
    SymbolTable.Filed
      (items.foldl (fun table x => OrderedMap.insert table (symbol x).name (symbol x)) table) := by
  induction items generalizing table with
  | nil => exact h
  | cons x items ih => exact ih (h.insert (symbol x))

theorem filed_ofText (t : Text) (sourcePath : String) : (ofText t sourcePath).Filed := by
  have hbuiltIn : builtIn.Filed := filed_empty.foldl Symbol.operator
  exact hbuiltIn.foldl fun d : Source.Declaration => .variable (d.toVariable sourcePath)

/-- In a filed table the variable of a word is the one under the word's name. -/
theorem variableOf_eq {table : SymbolTable} (h : table.Filed) (word : Text) :
    table.variableOf word = (OrderedMap.find? table (Name.of word)).bind Symbol.asVariable := by
  obtain ⟨entries⟩ := table
  obtain ⟨hnodup, hnamed⟩ := h
  simp only [variableOf, declaredVariables, symbols, OrderedMap.values, OrderedMap.find?]
  simp only [OrderedMap.keys] at hnodup
  generalize Name.of word = name
  induction entries with
  | nil => rfl
  | cons e rest ih =>
    obtain ⟨key, s⟩ := e
    obtain ⟨hkey, hrest⟩ := List.nodup_cons.1 hnodup
    have ih := ih hrest fun f hf => hnamed f (List.mem_cons_of_mem _ hf)
    have hs : s.name = key := hnamed (key, s) (by simp)
    by_cases hk : key = name
    · -- No other entry has the key.
      have hnone : (rest.find? fun e => decide (e.1 = name)) = none := OrderedMap.find?_key_eq_none (by rwa [← hk])
      rw [hnone] at ih
      rw [List.map_cons, List.find?_cons_of_pos (by simpa using hk)]
      rcases s with v | op
      · have hv : v.name = name := hs.trans hk
        rw [List.filterMap_cons_some (f := Symbol.asVariable) (b := v) rfl, List.find?_cons_of_pos (by simpa using hv)]
        rfl
      · rw [List.filterMap_cons_none rfl, ih]
        rfl
    · rw [List.map_cons, List.find?_cons_of_neg (by simpa using hk)]
      rcases s with v | op
      · have hv : ¬v.name = name := fun hv => hk (hs.symm.trans hv)
        rw [List.filterMap_cons_some (f := Symbol.asVariable) (b := v) rfl, List.find?_cons_of_neg (by simpa using hv), ih]
      · rw [List.filterMap_cons_none rfl, ih]

/-! ## The table of a document -/

set_option maxRecDepth 20000 in
theorem nodup_names_catalog : (catalog.map Operator.name).Nodup := by
  decide +kernel

theorem find?_builtIn (name : Name) :
    OrderedMap.find? builtIn name = (catalog.find? fun op => op.name = name).map .operator := by
  have h := OrderedMap.find?_foldl_insert Operator.name Symbol.operator nodup_names_catalog .empty name
  rw [builtIn, seed, h, OrderedMap.find?_empty, Option.or_none]

/-- A name is a variable where the document declares it, else an operator if the catalog has it. -/
theorem find?_ofText (t : Text) (sourcePath : String) (name : Name) :
    OrderedMap.find? (ofText t sourcePath) name =
      (((Source.scan t).find? fun d => d.name = name).map fun d => .variable (d.toVariable sourcePath)).or
        ((catalog.find? fun op => op.name = name).map .operator) := by
  rw [ofText, OrderedMap.find?_foldl_insert Source.Declaration.name _ (Source.nodup_names_scan t), find?_builtIn]

theorem find?_scan {t : Text} {d : Source.Declaration} (hd : d ∈ Source.scan t) :
    ((Source.scan t).find? fun e => e.name = d.name) = some d :=
  OrderedMap.find?_key_of_mem (Source.nodup_names_scan t) hd

/-- The variable of a word that spells a declared name is that of the declaration. -/
theorem variableOf_ofText {t : Text} {d : Source.Declaration} (hd : d ∈ Source.scan t) (sourcePath : String)
    {word : Text} (hword : Name.of word = d.name) :
    (ofText t sourcePath).variableOf word = some (d.toVariable sourcePath) := by
  rw [variableOf_eq (filed_ofText t sourcePath), hword, find?_ofText, find?_scan hd]
  rfl

end SymbolTable
end GibianeEditor
