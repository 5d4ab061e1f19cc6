/-
A rename changes nothing but the name. The edits are those of the document cut into its lexemes
(`perm_editsFrom_pieces`), so they make the document with the name written anew, and this declares
what the old one did (`scan_substitute_rename`).
-/
import GibianeEditor.Proofs.Source.Renaming
import GibianeEditor.Proofs.Symbol.Table
import GibianeEditor.Symbol.Index

namespace GibianeEditor.Source

/-! ## The document in pieces -/

/-- A lexeme as a piece of the document, to be replaced if it is the old name. -/
def Lexeme.piece (old : Name) (new : Text) (l : Lexeme) : Piece :=
  ⟨l.text, if l.kind = .name ∧ Name.of l.text = old then some new else none⟩

variable {old : Name} {new : Text}

theorem before_map_piece (ls : List Lexeme) : Piece.before (ls.map (Lexeme.piece old new)) = glue ls :=
  List.flatMap_map ..

theorem after_map_piece (ls : List Lexeme) :
    Piece.after (ls.map (Lexeme.piece old new)) = glue (ls.map (Lexeme.renamed old new)) := by
  rw [Piece.after, glue, List.flatMap_map, List.flatMap_map]
  refine List.flatMap_congr fun l _ => ?_
  simp only [Lexeme.piece, Lexeme.renamed, Piece.new]
  split <;> rfl

theorem editsFrom_map_piece (offset : Nat) (ls : List Lexeme) :
    Piece.editsFrom offset (ls.map (Lexeme.piece old new)) =
      ((sitesFrom offset ls).filter fun s => s.name = old).map fun s => ⟨s.span, new⟩ := by
  induction ls generalizing offset with
  | nil => rfl
  | cons l ls ih =>
    simp only [List.map_cons, Piece.editsFrom, sitesFrom]
    by_cases hkind : l.kind = .name
    · by_cases hname : Name.of l.text = old <;> simp [Lexeme.piece, hkind, hname, ih]
    · simp [Lexeme.piece, hkind, ih]

/-- The pieces of a document that a rename replaces and keeps. -/
def pieces (old : Name) (new t : Text) : List Piece := (layout t).map (Lexeme.piece old new)

theorem before_pieces (t : Text) : Piece.before (pieces old new t) = t := by
  rw [pieces, before_map_piece, flatMap_text_layout]

theorem after_pieces (t : Text) : Piece.after (pieces old new t) = textRenamed old new t := after_map_piece _

theorem solid_pieces (t : Text) : Piece.Solid (pieces old new t) := by
  intro p hp hnew
  obtain ⟨l, hl, rfl⟩ := List.mem_map.1 hp
  by_cases hold : l.kind = .name ∧ Name.of l.text = old
  · obtain ⟨content, hl⟩ := exists_lexemes_of_mem_layout hl hold.1
    exact text_ne_nil_of_mem_lexemes hl
  · simp [Lexeme.piece, hold] at hnew

theorem editsFrom_pieces (t : Text) :
    Piece.editsFrom 0 (pieces old new t) = (named old t).map fun span => ⟨span, new⟩ := by
  rw [pieces, editsFrom_map_piece, named, sites_eq_sitesFrom, List.map_map]
  rfl

/-- The edits for the places of a variable are those of the pieces. -/
theorem perm_editsFrom_pieces {t : Text} {d : Declaration} (hd : d ∈ scan t) (path : String) (new : Text) :
    ((d.toVariable path).sites.map fun span => (⟨span, new⟩ : TextEdit)).Perm
      (Piece.editsFrom 0 (pieces d.name new t)) := by
  rw [editsFrom_pieces]
  exact (perm_named hd).map _

/-! ## The renamed document -/

section Edits

variable {t : Text} {edits : List TextEdit} (hedits : edits.Perm (Piece.editsFrom 0 (pieces old new t)))
include hedits

theorem substitute_eq_textRenamed : t.substitute edits = textRenamed old new t := by
  have h := Text.substitute_eq (solid_pieces t) hedits
  rwa [before_pieces, after_pieces] at h

theorem moves_shift : Moves (Text.shift edits) old new 0 0 (layout t) := by
  intro before after hlayout
  have hsplit : pieces old new t =
      before.map (Lexeme.piece old new) ++ after.map (Lexeme.piece old new) := by
    rw [pieces, hlayout, List.map_append]
  have hsolid : Piece.Solid (pieces old new t) := solid_pieces t
  rw [hsplit] at hedits hsolid
  have h := Text.shift_eq hsolid hedits
  rw [Nat.zero_add, Nat.zero_add]
  rwa [before_map_piece, after_map_piece] at h

/-- Edits that write a name anew leave a document that declares the same under the new name. -/
theorem scan_substitute (hnew : Replaces new old) (hold : isProcedureKeyword old = false)
    (hword : isProcedureKeyword (Name.of new) = false) (hfresh : ∀ s ∈ sites t, s.name ≠ Name.of new) :
    scan (t.substitute edits) = (scan t).map (Declaration.relocate (renamedName old new) (Span.shift edits)) := by
  rw [substitute_eq_textRenamed hedits]
  refine scan_relocate (lines_renamed hnew (moves_shift hedits)) (fun name => ?_) fun r hr s hs h => ?_
  · by_cases hname : name = old
    · simp [renamedName, hname, hold, hword]
    · simp [renamedName, hname]
  · -- The new name is none of the document's, so it stands for the old one only.
    by_cases hrname : r.name = old <;> by_cases hsname : s.name = old
    · rw [hrname, hsname]
    · simp only [renamedName, hrname, hsname, if_true, if_false] at h
      exact absurd h.symm (hfresh s hs)
    · simp only [renamedName, hrname, hsname, if_true, if_false] at h
      exact absurd h (hfresh r hr)
    · simpa only [renamedName, hrname, hsname, if_false] using h

end Edits

/-- **A rename preserves the program up to the name.** The edits for a word that spells a declared
name, all made at once, leave a document that declares the same in the same order, with the new name
for the old one and every span where the edits move it. -/
theorem scan_substitute_rename {t : Text} {d : Declaration} (hd : d ∈ scan t) {word newName : Text}
    (hword : Name.of word = d.name) (hnew : Replaces newName d.name)
    (hfresh : ∀ s ∈ sites t, s.name ≠ Name.of newName) (hold : isProcedureKeyword d.name = false)
    (hkeyword : isProcedureKeyword (Name.of newName) = false) (index : SymbolIndex) (uri path : String) :
    ∃ edits, (index.indexDocument uri path t).ask uri (fun table => table.rename word newName) = .ok (some edits) ∧
      scan (t.substitute edits) =
        (scan t).map (Declaration.relocate (renamedName d.name newName) (Span.shift edits)) := by
  refine ⟨(d.toVariable path).sites.map fun span => ⟨span, newName⟩, ?_, ?_⟩
  · simp [SymbolIndex.ask, SymbolIndex.table, SymbolIndex.indexDocument, SymbolIndex.replace, Except.map,
      SymbolTable.rename, SymbolTable.variableOf_ofText hd path hword]
  · exact scan_substitute (perm_editsFrom_pieces hd path newName) hnew hold hkeyword hfresh

/-- Behind the number of `2_A` the new name has to start with an underscore as well. -/
theorem scan_substitute_rename_behind_number :
    ∃ edits, (SymbolIndex.empty.indexDocument "file:///a" "/a" "_A=2_A;".toList).ask "file:///a"
        (fun table => table.rename "_a".toList "_bcd".toList) = .ok (some edits) ∧
      scan (Text.substitute edits "_A=2_A;".toList) =
        (scan "_A=2_A;".toList).map
          (Declaration.relocate (renamedName (Name.of "_A".toList) "_bcd".toList) (Span.shift edits)) := by
  let d : Declaration := ⟨Name.of "_A".toList, [], ⟨0, 2⟩, [⟨4, 6⟩]⟩
  have hd : d ∈ scan "_A=2_A;".toList := by decide +kernel
  have hidentifier : IsIdentifier "_bcd".toList :=
    ⟨'_', "bcd".toList, rfl, by decide +kernel, List.all_eq_true.1 (by decide +kernel)⟩
  exact scan_substitute_rename hd (by decide +kernel) ⟨hidentifier, fun _ => rfl⟩ (by decide +kernel)
    (by decide +kernel) (by decide +kernel) SymbolIndex.empty "file:///a" "/a"

end GibianeEditor.Source
