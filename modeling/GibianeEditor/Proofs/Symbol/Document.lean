/-
What the index answers about a document. The document's table lists the names of the catalog, then those
that only the document declares, and a declared name stands for its variable in either part
(`table_lists_catalog_then_declared`). So everything that is asked about a word of a declared name is
answered from the one declaration, and a word that merely begins with the name has no places and is not
renamed (`queries_tell_of_one_declaration`).
-/
import GibianeEditor.Proofs.Symbol.Slots
import GibianeEditor.Symbol.Index

namespace GibianeEditor

open Source (Declaration scan)

namespace SymbolTable

/-! ## The symbols of a document in order -/

theorem keys_builtIn : OrderedMap.keys builtIn = catalog.map Operator.name := by
  have h := OrderedMap.keys_foldl_insert (m := .empty) Operator.name Symbol.operator catalog List.nodup_nil
  rw [builtIn, seed, h]
  exact OrderedMap.eraseDups_of_nodup nodup_names_catalog

/-- The names of a table: those of the catalog, then the declared ones that are not in the catalog. -/
theorem keys_ofText (t : Text) (path : String) :
    OrderedMap.keys (ofText t path) =
      catalog.map Operator.name ++ ((scan t).map Declaration.name).filter (· ∉ catalog.map Operator.name) := by
  have hcatalog := nodup_names_catalog
  have hfold := OrderedMap.keys_foldl_insert (m := builtIn) Declaration.name
    (fun d => .variable (d.toVariable path)) (scan t) (by rw [keys_builtIn]; exact hcatalog)
  have hnew : (((scan t).map Declaration.name).removeAll (catalog.map Operator.name)).Nodup :=
    (Source.nodup_names_scan t).filter _
  rw [ofText, hfold, keys_builtIn, List.eraseDups_append, OrderedMap.eraseDups_of_nodup hcatalog,
    OrderedMap.eraseDups_of_nodup hnew]
  congr 1
  refine List.filter_congr fun name _ => ?_
  rw [List.elem_eq_mem, decide_not]

section

variable {t : Text} {path : String} {s : Symbol} (hs : s ∈ (ofText t path).symbols)
include hs

/-- The variable of a declaration is what its name stands for. -/
theorem eq_variable_iff {d : Declaration} (hd : d ∈ scan t) : s = .variable (d.toVariable path) ↔ s.name = d.name := by
  constructor
  · rintro rfl
    rfl
  · intro hname
    have hfind := ((filed_ofText t path).mem_symbols_iff s).1 hs
    rw [hname, find?_ofText, find?_scan hd] at hfind
    simpa using hfind.symm

/-- An operator is what a name stands for that the document does not declare. -/
theorem eq_operator_iff : (∃ op ∈ catalog, s = .operator op) ↔ s.name ∉ (scan t).map Declaration.name := by
  constructor
  · rintro ⟨op, _, rfl⟩ hname
    obtain ⟨d, hd, hname⟩ := List.mem_map.1 hname
    cases (eq_variable_iff hs hd).2 hname.symm
  · intro hname
    have hfind := ((filed_ofText t path).mem_symbols_iff s).1 hs
    have hnone : ((scan t).find? fun d => decide (d.name = s.name)) = none := OrderedMap.find?_key_eq_none hname
    rw [find?_ofText, hnone, Option.map_none, Option.none_or] at hfind
    obtain ⟨op, hop, rfl⟩ := Option.map_eq_some_iff.1 hfind
    exact ⟨op, List.mem_of_find?_eq_some hop, rfl⟩

end

/-- **A table lists the catalog, then what else the document declares.** Each name is listed once. A
listed name that the document declares stands for the variable of the declaration, any other for the
operator, and a look-up finds the variable, through slots as well. Completion offers these symbols in this
order, and the overview of the document shows the variables among them. -/
theorem table_lists_catalog_then_declared (t : Text) (path : String) :
    let table := ofText t path
    let builtIns := catalog.map Operator.name
    let declared := (scan t).map Declaration.name
    (table.symbols.map Symbol.name).Nodup ∧
    table.symbols.map Symbol.name = builtIns ++ declared.filter (· ∉ builtIns) ∧
    (∀ s ∈ table.symbols,
      (∀ d ∈ scan t, s = .variable (d.toVariable path) ↔ s.name = d.name) ∧
      ((∃ op ∈ catalog, s = .operator op) ↔ s.name ∉ declared)) ∧
    (∀ d ∈ scan t, ∀ word, Name.of word = d.name → table.lookup? word = some (.variable (d.toVariable path))) ∧
    ((SlotTable.ofText t path).symbols = table.symbols ∧
      ∀ word, (SlotTable.ofText t path).lookup? word = table.lookup? word) ∧
    ∀ (index : SymbolIndex) (uri : String),
      (index.indexDocument uri path t).ask uri completion =
        .ok (table.symbols.map fun s => ⟨s.name, s.kind, s.description⟩) ∧
      (index.indexDocument uri path t).ask uri outline =
        .ok ((table.symbols.filterMap Symbol.asVariable).map fun v => ⟨v.name, .variable, v.declaration⟩) := by
  intro table builtIns declared
  have hfiled : table.Filed := filed_ofText t path
  have hstores := SlotTable.stores_ofText t path
  refine ⟨?_, ?_, fun s hs => ⟨fun d hd => eq_variable_iff hs hd, eq_operator_iff hs⟩,
    fun d hd word hword => ?_, ⟨hstores.symbols_eq, hstores.lookup?_eq⟩, fun index uri => ⟨?_, ?_⟩⟩
  · rw [hfiled.map_name_symbols]
    exact hfiled.nodup
  · rw [hfiled.map_name_symbols]
    exact keys_ofText t path
  · rw [lookup?, hword, find?_ofText, find?_scan hd]
    rfl
  · rw [index.ask_indexDocument, completion]
  · rw [index.ask_indexDocument, outline, declaredVariables]

/-- `FIN` stands where the catalog has it, and `A` behind the catalog. -/
theorem table_lists_shadowed_operator :
    let t := "FIN = 1; A = fin;".toList
    let d : Declaration := ⟨Name.of "FIN".toList, [], ⟨0, 3⟩, [⟨13, 16⟩]⟩
    let table := ofText t "/a"
    d ∈ scan t ∧ table.lookup? "Fin".toList = some (.variable (d.toVariable "/a")) ∧
      ∃ s ∈ table.symbols, s.name = d.name ∧ s = .variable (d.toVariable "/a") := by
  intro t d table
  have hd : d ∈ scan t := by decide +kernel
  obtain ⟨_, hnames, hsymbols, hlookup, _⟩ := table_lists_catalog_then_declared t "/a"
  have hlisted : d.name ∈ table.symbols.map Symbol.name := by
    rw [hnames]
    exact List.mem_append_left _ (by decide +kernel)
  obtain ⟨s, hs, hname⟩ := List.mem_map.1 hlisted
  exact ⟨hd, hlookup d hd _ (by decide +kernel), s, hs, hname, ((hsymbols s hs).1 d hd).2 hname⟩

/-! ## Questions about a word -/

/-- **All questions about a word tell of one declaration.** A word of a declared name is declared at one
place, its places are that one with the uses behind it, a rename rewrites just these in this order
whatever the new name, the name is offered for it, and the description is shown if there is one. A word of
no declared name has no places and is not renamed, whatever names it begins with. -/
theorem queries_tell_of_one_declaration (index : SymbolIndex) (uri path : String) (t word : Text) :
    let index := index.indexDocument uri path t
    (∀ d ∈ scan t, Name.of word = d.name →
      index.ask uri (fun table => table.definition word) = .ok [⟨d.span, path⟩] ∧
      index.ask uri (fun table => table.references word true) = .ok (d.span :: d.uses) ∧
      index.ask uri (fun table => table.references word false) = .ok d.uses ∧
      (∀ newName, index.ask uri (fun table => table.rename word newName) =
        .ok (some ((d.span :: d.uses).map fun span => ⟨span, newName⟩))) ∧
      index.ask uri (fun table => table.prepareRename word) = .ok (some d.name) ∧
      index.ask uri (fun table => table.hover word) =
        .ok (if d.description.isEmpty then none else some d.description)) ∧
    ((∀ d ∈ scan t, Name.of word ≠ d.name) →
      (∀ newName, index.ask uri (fun table => table.rename word newName) = .ok none) ∧
      index.ask uri (fun table => table.prepareRename word) = .ok none ∧
      ∀ withDeclaration, index.ask uri (fun table => table.references word withDeclaration) = .ok []) := by
  simp only [SymbolIndex.ask_indexDocument, Except.ok.injEq]
  refine ⟨fun d hd hword => ?_, fun hword => ?_⟩
  · exact ⟨definition_ofText hd path hword, references_ofText hd path hword true, references_ofText hd path hword false,
      fun newName => rename_ofText hd path hword newName, prepareRename_ofText hd path hword, hover_ofText hd path hword⟩
  · have hnone := variableOf_ofText_eq_none hword path
    refine ⟨fun newName => ?_, ?_, fun withDeclaration => ?_⟩
    · rw [rename, hnone]
      rfl
    · rw [prepareRename, hnone]
      rfl
    · rw [references, hnone]

/-- Another spelling of `MA`, and `MAX`, which begins with the name and is not declared. -/
theorem queries_of_declared_beginning :
    let t := "* n\nMA = 1; B = ma MAX;".toList
    let d : Declaration := ⟨Name.of "MA".toList, "n".toList, ⟨4, 6⟩, [⟨16, 18⟩]⟩
    let index := SymbolIndex.empty.indexDocument "file:///a" "/a" t
    d ∈ scan t ∧ index.ask "file:///a" (fun table => table.references "mA".toList true) = .ok [⟨4, 6⟩, ⟨16, 18⟩] ∧
      index.ask "file:///a" (fun table => table.hover "mA".toList) = .ok (some "n".toList) ∧
      index.ask "file:///a" (fun table => table.rename "MAX".toList "C".toList) = .ok none := by
  intro t d index
  have hd : d ∈ scan t := by decide +kernel
  obtain ⟨_, hreferences, _, _, _, hhover⟩ :=
    (queries_tell_of_one_declaration .empty "file:///a" "/a" t "mA".toList).1 d hd (by decide +kernel)
  obtain ⟨hrename, _⟩ :=
    (queries_tell_of_one_declaration .empty "file:///a" "/a" t "MAX".toList).2 (by decide +kernel)
  exact ⟨hd, hreferences, hhover, hrename "C".toList⟩

end SymbolTable
end GibianeEditor
