/-
A table with slots is an ordered map. After any steps the row holds the symbols of the map in order and
the slot of a key is the key's place (`Stores`, kept by each step), so a look-up through the slots finds
what the map does. What the map holds is told from the history of insertions alone: the keys where they
first came, and under each the symbol put there last (`run_is_ordered_map`).
-/
import GibianeEditor.Proofs.Symbol.Query
import GibianeEditor.Symbol.Slots

namespace GibianeEditor

open Source (scan)

/-! ## Tables under their symbols' own names -/

namespace SymbolTable

/-- What a word means is read off the symbols. -/
theorem resolve_congr {table other : SymbolTable} (h : table.symbols = other.symbols) (word : Text) :
    table.resolve word = other.resolve word := by
  rw [resolve, resolve, h]

theorem variableOf_congr {table other : SymbolTable} (h : table.symbols = other.symbols) (word : Text) :
    table.variableOf word = other.variableOf word := by
  rw [variableOf, variableOf, declaredVariables, declaredVariables, h]

section

variable {table : SymbolTable} (h : table.Filed) (word : Text)
include h

/-- In a filed table a word means exactly the symbol under it, if there is one. -/
theorem Filed.resolve_cases :
    (∃ s, table.lookup? word = some s ∧ table.resolve word = ⟨.exact, [s]⟩) ∨
      table.lookup? word = none ∧ (table.resolve word).kind = .longer := by
  have hexact := h.filter_symbols (Name.of word)
  cases hfind : OrderedMap.find? table (Name.of word) with
  | some s =>
    refine .inl ⟨s, hfind, ?_⟩
    rw [resolve, hexact, hfind]
    rfl
  | none =>
    refine .inr ⟨hfind, ?_⟩
    rw [resolve, hexact, hfind]
    rfl

theorem Filed.kind_resolve_iff : (table.resolve word).kind = .exact ↔ table.exists? word = true := by
  have hexists : table.exists? word = (table.lookup? word).isSome := rfl
  rw [hexists]
  rcases h.resolve_cases word with ⟨s, hfind, hresolve⟩ | ⟨hfind, hkind⟩
  · simp [hfind, hresolve]
  · simp [hfind, hkind]

theorem Filed.symbols_resolve (hkind : (table.resolve word).kind = .exact) :
    ∃ s, table.lookup? word = some s ∧ (table.resolve word).symbols = [s] := by
  rcases h.resolve_cases word with ⟨s, hfind, hresolve⟩ | ⟨_, hlonger⟩
  · exact ⟨s, hfind, by rw [hresolve]⟩
  · rw [hlonger] at hkind
    cases hkind

end

end SymbolTable

namespace SlotTable

/-! ## What the slots store -/

/-- The row holds the symbols of a map, and the slot of a key is the key's place. -/
structure Stores (table : SlotTable) (map : SymbolTable) : Prop where
  symbols_eq : table.symbols = map.symbols
  slot_eq : ∀ name, table.slots.find? name = (OrderedMap.keys map).idxOf? name

theorem stores_empty : empty.Stores OrderedMap.empty := ⟨rfl, fun _ => rfl⟩

theorem symbols_ownNames (table : SlotTable) : table.ownNames.symbols = table.symbols := by
  rw [SymbolTable.symbols, OrderedMap.values, ownNames, List.map_map]
  exact List.map_id _

section

variable {table : SlotTable} {map : SymbolTable} (h : table.Stores map)
include h

theorem Stores.lookup?_eq (word : Text) : table.lookup? word = map.lookup? word := by
  rw [lookup?, h.slot_eq, h.symbols_eq, SymbolTable.lookup?, OrderedMap.find?_eq_getElem?]
  rfl

theorem Stores.exists?_eq (word : Text) : table.exists? word = map.exists? word := by
  rw [exists?, OrderedMap.contains, h.slot_eq, SymbolTable.exists?, OrderedMap.contains, Bool.eq_iff_iff,
    List.isSome_idxOf?, OrderedMap.mem_keys_iff]

theorem Stores.symbols_ownNames : table.ownNames.symbols = map.symbols :=
  (SlotTable.symbols_ownNames table).trans h.symbols_eq

theorem Stores.resolve_eq (word : Text) : table.resolve word = map.resolve word :=
  SymbolTable.resolve_congr h.symbols_ownNames word

theorem Stores.variableOf_eq (word : Text) : table.variableOf word = map.variableOf word :=
  SymbolTable.variableOf_congr h.symbols_ownNames word

theorem Stores.length_symbols : table.symbols.length = (OrderedMap.keys map).length := by
  rw [h.symbols_eq, SymbolTable.symbols, OrderedMap.values, OrderedMap.keys, List.length_map, List.length_map]

theorem Stores.slot_lt {name : Name} {slot : Nat} (hslot : table.slots.find? name = some slot) :
    slot < table.symbols.length := by
  rw [h.slot_eq] at hslot
  obtain ⟨hlt, _⟩ := List.idxOf?_eq_some_iff.1 hslot
  rwa [h.length_symbols]

theorem Stores.insert (key : Text) (s : Symbol) :
    Stores (table.insert key s) (OrderedMap.insert map (Name.of key) s) := by
  have hvalues := OrderedMap.values_insert map (Name.of key) s
  have hkeys := OrderedMap.keys_insert map (Name.of key) s
  have hslot := h.slot_eq (Name.of key)
  cases hplace : (OrderedMap.keys map).idxOf? (Name.of key) with
  | some slot =>
    rw [hplace] at hvalues hslot
    have hmem : Name.of key ∈ OrderedMap.keys map := List.isSome_idxOf?.1 (by rw [hplace]; rfl)
    rw [if_pos hmem] at hkeys
    rw [SlotTable.insert, hslot]
    refine ⟨?_, fun name => ?_⟩
    · rw [SymbolTable.symbols, hvalues, h.symbols_eq]
      rfl
    · rw [hkeys]
      exact h.slot_eq name
  | none =>
    rw [hplace] at hvalues hslot
    have hmem : Name.of key ∉ OrderedMap.keys map := List.idxOf?_eq_none_iff.1 hplace
    rw [if_neg hmem] at hkeys
    rw [SlotTable.insert, hslot]
    refine ⟨?_, fun name => ?_⟩
    · rw [SymbolTable.symbols, hvalues, h.symbols_eq]
      rfl
    · -- The new key gets the slot behind all others, and every other key keeps its own.
      rw [hkeys, OrderedMap.idxOf?_concat, ← h.length_symbols]
      by_cases hname : Name.of key = name
      · rw [← hname, OrderedMap.find?_insert_self, hplace, if_pos rfl]
        rfl
      · rw [OrderedMap.find?_insert_other _ _ (Ne.symm hname), h.slot_eq, if_neg hname, Option.or_none]

end

/-! ## Histories -/

/-- What a step puts in, with the keys. -/
def Step.puts : Step → List (Text × Symbol)
  | .insert key s => [(key, s)]
  | .seed => catalog.map fun op => (op.name.letters, .operator op)

/-- The keys of a history, each where it first came. -/
def keysOf (history : List (Text × Symbol)) : List Name := (history.map fun e => Name.of e.1).eraseDups

/-- What a history put last under a key. -/
def lastOf (history : List (Text × Symbol)) (name : Name) : Option Symbol :=
  (history.reverse.find? fun e => Name.of e.1 = name).map Prod.snd

/-- The map that a history leaves behind. -/
def recorded (map : SymbolTable) (history : List (Text × Symbol)) : SymbolTable :=
  history.foldl (fun map e => OrderedMap.insert map (Name.of e.1) e.2) map

theorem recorded_append (map : SymbolTable) (history more : List (Text × Symbol)) :
    recorded map (history ++ more) = recorded (recorded map history) more := List.foldl_append

theorem run_builtIn (steps : List Step) : builtIn.run steps = empty.run (.seed :: steps) := by
  rw [run, run, List.foldl_cons, step, builtIn]

theorem step_eq (table : SlotTable) (s : Step) :
    table.step s = s.puts.foldl (fun table e => table.insert e.1 e.2) table := by
  cases s with
  | insert key s => rfl
  | seed =>
    rw [Step.puts, List.foldl_map]
    rfl

theorem Stores.inserts {table : SlotTable} {map : SymbolTable} (h : table.Stores map) (history : List (Text × Symbol)) :
    Stores (history.foldl (fun table e => table.insert e.1 e.2) table) (recorded map history) := by
  induction history generalizing table map with
  | nil => exact h
  | cons e history ih => exact ih (h.insert e.1 e.2)

theorem Stores.step {table : SlotTable} {map : SymbolTable} (h : table.Stores map) (s : Step) :
    Stores (table.step s) (recorded map s.puts) := by
  rw [step_eq]
  exact h.inserts s.puts

/-- Whatever is done to a table, it stores the map that the history leaves behind. -/
theorem Stores.run {table : SlotTable} {map : SymbolTable} (h : table.Stores map) (steps : List Step) :
    Stores (table.run steps) (recorded map (steps.flatMap Step.puts)) := by
  induction steps generalizing table map with
  | nil => exact h
  | cons s steps ih =>
    rw [List.flatMap_cons, recorded_append]
    exact ih (h.step s)

theorem stores_builtIn : builtIn.Stores SymbolTable.builtIn := by
  have h := stores_empty.step .seed
  simp only [recorded, Step.puts, List.foldl_map, Name.of_letters] at h
  exact h

/-- The table of a document stores the map of its names. -/
theorem stores_ofText (t : Text) (path : String) : (ofText t path).Stores (SymbolTable.ofText t path) := by
  have h := stores_builtIn.inserts ((scan t).map fun d => (d.name.letters, .variable (d.toVariable path)))
  simp only [recorded, List.foldl_map, Name.of_letters] at h
  exact h

section

variable (history : List (Text × Symbol))

theorem keys_recorded : OrderedMap.keys (recorded .empty history) = keysOf history :=
  OrderedMap.keys_foldl_insert (m := .empty) (fun e : Text × Symbol => Name.of e.1) Prod.snd history List.nodup_nil

theorem find?_recorded (name : Name) : OrderedMap.find? (recorded .empty history) name = lastOf history name := by
  rw [recorded, OrderedMap.find?_foldl_insert_last (fun e => Name.of e.1) Prod.snd, OrderedMap.find?_empty, Option.or_none]
  rfl

theorem nodup_keys_recorded {map : SymbolTable} (h : (OrderedMap.keys map).Nodup) :
    (OrderedMap.keys (recorded map history)).Nodup := by
  induction history generalizing map with
  | nil => exact h
  | cons e history ih => exact ih (OrderedMap.nodup_keys_insert h _ _)

variable {history}

/-- The catalog puts operators in under their own names. -/
theorem Step.name_of_mem_puts {step : Step} (h : ∀ key s, .insert key s = step → Name.of key = s.name)
    {e : Text × Symbol} (he : e ∈ step.puts) : Name.of e.1 = e.2.name := by
  cases step with
  | insert key s =>
    obtain rfl := List.mem_singleton.1 he
    exact h key s rfl
  | seed =>
    obtain ⟨op, _, rfl⟩ := List.mem_map.1 he
    exact Name.of_letters op.name

theorem filed_recorded (h : ∀ e ∈ history, Name.of e.1 = e.2.name) : (recorded .empty history).Filed := by
  have hown : recorded .empty history =
      history.foldl (fun map e => OrderedMap.insert map e.2.name e.2) OrderedMap.empty :=
    List.foldl_ext _ _ _ fun map e he => by rw [h e he]
  rw [hown]
  exact SymbolTable.filed_empty.foldl Prod.snd

end

/-- **A table is an ordered map, and its slots agree with its row.** After any steps on an empty table,
or on one that holds the catalog, which is a first step like others, the row holds for each key, in the
order in which the keys first came, the symbol put last under it. A look-up finds that symbol, and every
slot is one of the row. If each symbol was put in under its own name, a word means exactly the symbol that
a look-up finds, and its variable is that symbol if it is one. -/
theorem run_is_ordered_map (steps : List Step) :
    let table := empty.run steps
    let history := steps.flatMap Step.puts
    builtIn.run steps = empty.run (.seed :: steps) ∧
    table.symbols.map some = (keysOf history).map (lastOf history) ∧
    (∀ word, table.lookup? word = lastOf history (Name.of word)) ∧
    (∀ word, table.exists? word = true ↔ Name.of word ∈ keysOf history) ∧
    (∀ name slot, table.slots.find? name = some slot →
      slot < table.symbols.length ∧ (keysOf history)[slot]? = some name) ∧
    ((∀ key s, Step.insert key s ∈ steps → Name.of key = s.name) → ∀ word,
      ((table.resolve word).kind = .exact ↔ table.exists? word = true) ∧
      ((table.resolve word).kind = .exact →
        ∃ s, table.lookup? word = some s ∧ (table.resolve word).symbols = [s]) ∧
      table.variableOf word = (table.lookup? word).bind Symbol.asVariable) := by
  intro table history
  have hstores : table.Stores (recorded .empty history) := stores_empty.run steps
  have hkeys := keys_recorded history
  have hnodup : (OrderedMap.keys (recorded .empty history)).Nodup := nodup_keys_recorded history List.nodup_nil
  refine ⟨run_builtIn steps, ?_, fun word => ?_, fun word => ?_, fun name slot hslot => ?_, fun hown word => ?_⟩
  · rw [hstores.symbols_eq, SymbolTable.symbols, OrderedMap.map_some_values hnodup, hkeys]
    exact List.map_congr_left fun name _ => find?_recorded history name
  · rw [hstores.lookup?_eq, SymbolTable.lookup?, find?_recorded]
  · rw [hstores.exists?_eq, SymbolTable.exists?, OrderedMap.contains, ← OrderedMap.mem_keys_iff, hkeys]
  · refine ⟨hstores.slot_lt hslot, ?_⟩
    rw [hstores.slot_eq, hkeys] at hslot
    obtain ⟨hlt, hname, _⟩ := List.idxOf?_eq_some_iff.1 hslot
    rw [List.getElem?_eq_getElem hlt, hname]
  · have hnamed : ∀ e ∈ history, Name.of e.1 = e.2.name := by
      intro e he
      obtain ⟨step, hstep, he⟩ := List.mem_flatMap.1 he
      exact step.name_of_mem_puts (fun key s h => hown key s (h ▸ hstep)) he
    have hfiled := filed_recorded hnamed
    rw [hstores.resolve_eq, hstores.variableOf_eq, hstores.exists?_eq, hstores.lookup?_eq,
      SymbolTable.variableOf_eq hfiled]
    exact ⟨hfiled.kind_resolve_iff word, hfiled.symbols_resolve word, rfl⟩

/-- A variable of a name of two spellings, then the catalog, then an operator of the name. -/
theorem run_of_two_spellings :
    let v : Symbol := .variable ⟨Name.of "ß".toList, [], ⟨0, 2⟩, "/a", []⟩
    let op : Symbol := .operator ⟨Name.of "ss".toList, "again".toList⟩
    let steps : List Step := [.insert "ß".toList v, .seed, .insert "sS".toList op]
    let table := empty.run steps
    (∀ key s, Step.insert key s ∈ steps → Name.of key = s.name) ∧
      table.lookup? "ß".toList = some op ∧ (table.resolve "Ss".toList).symbols = [op] ∧
      table.variableOf "SS".toList = none ∧
      ∀ name slot, table.slots.find? name = some slot → slot < table.symbols.length := by
  intro v op steps table
  have hnamed : ∀ key s, Step.insert key s ∈ steps → Name.of key = s.name := by
    intro key s hs
    have hs : (key = "ß".toList ∧ s = v) ∨ key = "sS".toList ∧ s = op := by simpa [steps] using hs
    rcases hs with ⟨rfl, rfl⟩ | ⟨rfl, rfl⟩ <;> exact Name.ext (by decide +kernel)
  obtain ⟨_, _, hlookup, hexists, hslot, hown⟩ := run_is_ordered_map steps
  have hlast : ∀ word, Name.of word = Name.of "SS".toList → table.lookup? word = some op := by
    intro word hword
    rw [hlookup, hword]
    decide +kernel
  have hkind : (table.resolve "Ss".toList).kind = .exact :=
    ((hown hnamed _).1).2 ((hexists _).2 (by decide +kernel))
  obtain ⟨s, hs, hsymbols⟩ := (hown hnamed _).2.1 hkind
  refine ⟨hnamed, hlast _ (by decide +kernel), ?_, ?_, fun name slot h => (hslot name slot h).1⟩
  · rw [hlast _ (by decide +kernel), Option.some.injEq] at hs
    rw [hs]
    exact hsymbols
  · rw [(hown hnamed _).2.2, hlast _ rfl]
    rfl

end SlotTable
end GibianeEditor
