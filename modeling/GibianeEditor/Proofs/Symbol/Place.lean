/-
A table in which only the places of the variables are others. Nothing is asked of a place but where it
is, so the table tells the same of every word, with the other places (`resolve_moved` and what follows
it), and all places that it tells are places of its variables (`HasPlace`). The tables of two documents
that declare the same at different places are such tables (`ofText_moved`).
-/
import GibianeEditor.Proofs.Source.Relocation
import GibianeEditor.Symbol.Query

namespace GibianeEditor

/-! ## Maps with other values -/

namespace OrderedMap

variable {α β γ δ : Type} [DecidableEq α]

/-- The map with each value replaced. -/
def mapValues (f : β → δ) (m : OrderedMap α β) : OrderedMap α δ := ⟨m.entries.map fun e => (e.1, f e.2)⟩

theorem mapValues_insert (f : β → δ) (m : OrderedMap α β) (key : α) (value : β) :
    (m.insert key value).mapValues f = (m.mapValues f).insert key (f value) := by
  obtain ⟨entries⟩ := m
  simp only [mapValues, insert, mk.injEq]
  induction entries with
  | nil => rfl
  | cons e rest ih =>
    simp only [put, List.map_cons]
    split
    · rfl
    · rw [List.map_cons, ih]

theorem mapValues_foldl_insert (f : β → δ) (key : γ → α) (value : γ → β) (items : List γ) (m : OrderedMap α β) :
    (items.foldl (fun m x => m.insert (key x) (value x)) m).mapValues f =
      items.foldl (fun m x => m.insert (key x) (f (value x))) (m.mapValues f) := by
  induction items generalizing m with
  | nil => rfl
  | cons x items ih => rw [List.foldl_cons, List.foldl_cons, ih, mapValues_insert]

omit [DecidableEq α] in
theorem values_mapValues (f : β → δ) (m : OrderedMap α β) : (m.mapValues f).values = m.values.map f := by
  simp [values, mapValues]

end OrderedMap

variable (γ : Span → Span)

/-! ## Tables with other places -/

def Variable.moved (v : Variable) : Variable := { v with declaration := γ v.declaration, uses := v.uses.map γ }

def Symbol.moved : Symbol → Symbol
  | .variable v => .variable (v.moved γ)
  | .operator op => .operator op

@[simp] theorem Symbol.name_moved (s : Symbol) : (s.moved γ).name = s.name := by
  cases s <;> rfl

@[simp] theorem Symbol.description_moved (s : Symbol) : (s.moved γ).description = s.description := by
  cases s <;> rfl

@[simp] theorem Symbol.kind_moved (s : Symbol) : (s.moved γ).kind = s.kind := by
  cases s <;> rfl

theorem Symbol.asVariable_moved (s : Symbol) : (s.moved γ).asVariable = s.asVariable.map (Variable.moved γ) := by
  cases s <;> rfl

theorem Variable.sites_moved (v : Variable) : (v.moved γ).sites = v.sites.map γ := rfl

namespace SymbolTable

/-- The table with the places of its variables moved. -/
def moved (table : SymbolTable) : SymbolTable := OrderedMap.mapValues (Symbol.moved γ) table

theorem builtIn_moved : builtIn.moved γ = builtIn :=
  OrderedMap.mapValues_foldl_insert (Symbol.moved γ) Operator.name Symbol.operator catalog .empty

theorem ofText_moved {t u : Text} (h : Source.scan u = (Source.scan t).map (Source.Declaration.relocate id γ))
    (path : String) : ofText u path = (ofText t path).moved γ := by
  have hfold := OrderedMap.mapValues_foldl_insert (Symbol.moved γ) Source.Declaration.name
    (fun d => .variable (d.toVariable path)) (Source.scan t) builtIn
  have hbuiltIn := builtIn_moved γ
  rw [moved] at hbuiltIn
  rw [hbuiltIn] at hfold
  rw [ofText, h, List.foldl_map, moved, ofText, hfold]
  rfl

section

variable (table : SymbolTable) (word : Text)

theorem symbols_moved : (table.moved γ).symbols = table.symbols.map (Symbol.moved γ) :=
  OrderedMap.values_mapValues (Symbol.moved γ) table

theorem filterMap_asVariable_moved (symbols : List Symbol) :
    (symbols.map (Symbol.moved γ)).filterMap Symbol.asVariable =
      (symbols.filterMap Symbol.asVariable).map (Variable.moved γ) := by
  rw [List.filterMap_map, List.map_filterMap]
  congr 1
  funext s
  exact s.asVariable_moved γ

theorem declaredVariables_moved :
    (table.moved γ).declaredVariables = table.declaredVariables.map (Variable.moved γ) := by
  rw [declaredVariables, symbols_moved, filterMap_asVariable_moved, declaredVariables]

theorem filter_moved (p : Name → Bool) (symbols : List Symbol) :
    ((symbols.map (Symbol.moved γ)).filter fun s => p s.name) =
      (symbols.filter fun s => p s.name).map (Symbol.moved γ) := by
  rw [List.filter_map]
  congr 1
  refine List.filter_congr fun s _ => ?_
  rw [Function.comp_apply, Symbol.name_moved]

theorem resolve_moved :
    (table.moved γ).resolve word = ⟨(table.resolve word).kind, (table.resolve word).symbols.map (Symbol.moved γ)⟩ := by
  have hexact := filter_moved γ (fun name => decide (name = Name.of word)) table.symbols
  have hlonger := filter_moved γ (fun name => name.begins (Name.of word)) table.symbols
  simp only [resolve, symbols_moved, hexact, hlonger]
  cases table.symbols.filter fun s => decide (s.name = Name.of word) <;> rfl

theorem variableOf_moved : (table.moved γ).variableOf word = (table.variableOf word).map (Variable.moved γ) := by
  rw [variableOf, declaredVariables_moved, List.find?_map]
  rfl

theorem completion_moved : (table.moved γ).completion = table.completion := by
  rw [completion, symbols_moved, List.map_map, completion]
  refine List.map_congr_left fun s _ => ?_
  simp

theorem hover_moved : (table.moved γ).hover word = table.hover word := by
  rw [hover, resolve_moved, hover]
  cases (table.resolve word).symbols with
  | nil => rfl
  | cons s rest => simp

theorem definition_moved :
    (table.moved γ).definition word = (table.definition word).map fun target => ⟨γ target.span, target.sourcePath⟩ := by
  rw [definition, resolve_moved, filterMap_asVariable_moved, definition, List.map_map, List.map_map]
  rfl

theorem references_moved (withDeclaration : Bool) :
    (table.moved γ).references word withDeclaration = (table.references word withDeclaration).map γ := by
  rw [references, variableOf_moved, references]
  cases table.variableOf word with
  | none => rfl
  | some v => cases withDeclaration <;> rfl

theorem prepareRename_moved : (table.moved γ).prepareRename word = table.prepareRename word := by
  rw [prepareRename, variableOf_moved, Option.map_map]
  rfl

theorem rename_moved (newName : Text) :
    (table.moved γ).rename word newName =
      (table.rename word newName).map (List.map fun edit => ⟨γ edit.span, edit.newText⟩) := by
  rw [rename, variableOf_moved, rename, Option.map_map, Option.map_map]
  congr 1
  funext v
  simp [Variable.sites_moved]

theorem outline_moved :
    (table.moved γ).outline = table.outline.map fun entry => { entry with span := γ entry.span } := by
  rw [outline, declaredVariables_moved, outline, List.map_map, List.map_map]
  rfl

theorem highlights_moved : (table.moved γ).highlights = table.highlights.map γ := by
  rw [highlights, declaredVariables_moved, highlights, List.flatMap_map, List.map_flatMap]
  rfl

end

/-! ## Places that are told -/

/-- Whether a span is a place of a variable of the table. -/
def HasPlace (table : SymbolTable) (span : Span) : Prop := ∃ v ∈ table.declaredVariables, span ∈ v.sites

section

variable {table : SymbolTable} {word : Text}

theorem hasPlace_of_variableOf {v : Variable} (h : table.variableOf word = some v) {span : Span}
    (hspan : span ∈ v.sites) : table.HasPlace span :=
  ⟨v, List.mem_of_find?_eq_some h, hspan⟩

theorem mem_symbols_of_mem_resolve {s : Symbol} (h : s ∈ (table.resolve word).symbols) : s ∈ table.symbols := by
  unfold resolve at h
  dsimp only at h
  split at h
  · exact List.mem_of_mem_filter h
  · exact List.mem_of_mem_filter h

theorem hasPlace_of_mem_definition {target : DefinitionTarget} (h : target ∈ table.definition word) :
    table.HasPlace target.span := by
  obtain ⟨v, hv, rfl⟩ := List.mem_map.1 h
  obtain ⟨s, hs, hsv⟩ := List.mem_filterMap.1 hv
  exact ⟨v, List.mem_filterMap.2 ⟨s, mem_symbols_of_mem_resolve hs, hsv⟩, List.mem_cons_self⟩

theorem hasPlace_of_mem_references {withDeclaration : Bool} {span : Span}
    (h : span ∈ table.references word withDeclaration) : table.HasPlace span := by
  unfold references at h
  split at h
  · cases h
  · rename_i v hv
    cases withDeclaration with
    | true => exact hasPlace_of_variableOf hv h
    | false => exact hasPlace_of_variableOf hv (List.mem_cons_of_mem _ h)

theorem hasPlace_of_mem_rename {newName : Text} {edits : List TextEdit} (h : table.rename word newName = some edits)
    {edit : TextEdit} (hedit : edit ∈ edits) : table.HasPlace edit.span := by
  obtain ⟨v, hv, rfl⟩ := Option.map_eq_some_iff.1 h
  obtain ⟨span, hspan, rfl⟩ := List.mem_map.1 hedit
  exact hasPlace_of_variableOf hv hspan

theorem hasPlace_of_mem_outline {entry : OutlineEntry} (h : entry ∈ table.outline) : table.HasPlace entry.span := by
  obtain ⟨v, hv, rfl⟩ := List.mem_map.1 h
  exact ⟨v, hv, List.mem_cons_self⟩

end

end SymbolTable
end GibianeEditor
