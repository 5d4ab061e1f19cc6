/-
The statements of a document: its tokens, whatever lines they stand on, cut at every `;`. A `;` ends a
statement wherever reading stands, so a document declares what its statements declare, each read by
itself (`map_site_declarings`).
-/
import Mathlib.Data.List.Basic
import GibianeEditor.Proofs.Source.Relocation

namespace GibianeEditor.Source

/-- The tokens of all lines that are no comments. -/
def tokens (t : Text) : List Token :=
  ((contents t).filter fun line => line.2.head? ≠ some '*').flatMap fun line => tokensFrom line.1 (lexemes line.2)

/-- The statements of a document: its tokens cut at every `;`. What follows the last one is a statement
too. -/
def statements (t : Text) : List (List Token) := (tokens t).splitOn .stop

/-- The names among tokens. -/
def namesOf (tokens : List Token) : List Site := tokens.filterMap Token.site?

/-! ## Tokens of lines -/

/-- The tokens of a line. -/
def Line.tokens : Line → List Token
  | .code tokens => tokens
  | _ => []

theorem tokensFrom_eq_nil {offset : Nat} {ls : List Lexeme} (h : ∀ l ∈ ls, l.kind = .blank) :
    tokensFrom offset ls = [] := by
  induction ls generalizing offset with
  | nil => rfl
  | cons l ls ih =>
    have hl : l.kind = .blank := h l List.mem_cons_self
    rw [tokensFrom, hl]
    exact ih fun m hm => h m (List.mem_cons_of_mem _ hm)

theorem tokens_read (offset : Nat) (content : Text) :
    (Line.read offset content).tokens =
      if content.head? = some '*' then [] else tokensFrom offset (lexemes content) := by
  unfold Line.read
  split
  · rfl
  · split
    · rename_i hblank
      rw [tokensFrom_eq_nil fun l => kind_eq_blank_of_all_isWhiteSpace hblank]
      rfl
    · rfl

theorem tokens_eq (t : Text) : tokens t = (lines t).flatMap Line.tokens := by
  rw [lines_eq_map_contents, tokens]
  induction contents t with
  | nil => rfl
  | cons line ls ih =>
    simp only [List.map_cons, List.flatMap_cons, tokens_read, List.filter_cons]
    by_cases hstar : line.2.head? = some '*'
    · simpa [hstar] using ih
    · simpa [hstar] using ih

theorem namesOf_append (xs ys : List Token) : namesOf (xs ++ ys) = namesOf xs ++ namesOf ys :=
  List.filterMap_append

theorem namesOf_tokens (t : Text) : namesOf (tokens t) = sites t := by
  rw [tokens_eq, namesOf, sites, List.filterMap_flatMap]
  refine List.flatMap_congr fun line _ => ?_
  cases line with
  | code tokens => rfl
  | comment | blank => rfl

/-! ## Cutting at stops -/

theorem stop_not_mem_of_mem_splitOn {ts stmt : List Token} (h : stmt ∈ ts.splitOn .stop) : .stop ∉ stmt := by
  induction ts generalizing stmt with
  | nil =>
    rw [List.splitOn_nil, List.mem_singleton] at h
    simp [h]
  | cons tok ts ih =>
    obtain ⟨first, rest, hsplit⟩ := List.exists_cons_of_ne_nil (List.splitOn_ne_nil Token.stop ts)
    rw [List.splitOn_cons_eq_if_modifyHead] at h
    by_cases htok : tok = .stop
    · rw [if_pos (by simpa using htok)] at h
      rcases List.mem_cons.1 h with rfl | h
      · simp
      · exact ih h
    · rw [if_neg (by simpa using htok), hsplit, List.modifyHead_cons] at h
      rw [hsplit] at ih
      rcases List.mem_cons.1 h with rfl | h
      · exact List.not_mem_cons_of_ne_of_not_mem (Ne.symm htok) (ih List.mem_cons_self)
      · exact ih (List.mem_cons_of_mem _ h)

theorem stop_not_mem_of_mem_statements {t : Text} {stmt : List Token} (h : stmt ∈ statements t) : .stop ∉ stmt :=
  stop_not_mem_of_mem_splitOn h

/-- Nothing is lost between statements but the stops. -/
theorem flatMap_splitOn_stop {α : Type} (f : List Token → List α) (happend : ∀ xs ys, f (xs ++ ys) = f xs ++ f ys)
    (hstop : f [.stop] = []) (hnil : f [] = []) (ts : List Token) : (ts.splitOn .stop).flatMap f = f ts := by
  induction ts with
  | nil => simp [hnil]
  | cons tok ts ih =>
    obtain ⟨first, rest, hsplit⟩ := List.exists_cons_of_ne_nil (List.splitOn_ne_nil Token.stop ts)
    have hcons : f (tok :: ts) = f [tok] ++ f ts := happend [tok] ts
    rw [List.splitOn_cons_eq_if_modifyHead, hcons, ← ih, hsplit]
    by_cases htok : tok = .stop
    · rw [if_pos (by simpa using htok), htok, hstop]
      simp [hnil]
    · rw [if_neg (by simpa using htok), List.modifyHead_cons]
      have hfirst : f (tok :: first) = f [tok] ++ f first := happend [tok] first
      simp [hfirst]

theorem flatMap_namesOf_statements (t : Text) : (statements t).flatMap namesOf = sites t := by
  rw [← namesOf_tokens t]
  exact flatMap_splitOn_stop namesOf namesOf_append rfl rfl (tokens t)

/-! ## Reading statement by statement -/

/-- A phase that knows no remarks. -/
def Phase.bare : Phase → Phase
  | .between _ => .between []
  | .header h => .header { h with description := [] }
  | .body => .body

def Declaring.bare (d : Declaring) : Declaring := { d with description := [] }

/-- What reading comes to without remarks. -/
def bareRead (r : Phase × List Declaring) : Phase × List Declaring := (r.1.bare, r.2.map Declaring.bare)

theorem Header.read_bare (h : Header) (tok : Token) :
    Header.read { h with description := [] } tok = bareRead (h.read tok) := by
  obtain ⟨description, names, indexed, awaits⟩ := h
  cases tok with
  | name site =>
    simp only [Header.read]
    split
    · rfl
    split
    · rfl
    split
    · rfl
    · rfl
  | assign => simp [Header.read, bareRead, Phase.bare, Declaring.bare]
  | dot => rfl
  | stop => rfl
  | other => rfl

theorem Phase.read_bare (phase : Phase) (tok : Token) : phase.bare.read tok = bareRead (phase.read tok) := by
  cases phase with
  | between remarks =>
    have h : (Header.opening []).read tok = bareRead ((Header.opening remarks).read tok) :=
      Header.read_bare (Header.opening remarks) tok
    cases tok with
    | stop => rfl
    | name | assign | dot | other => exact h
  | header h => exact Header.read_bare h tok
  | body => cases tok <;> rfl

theorem Phase.readAll_bare (phase : Phase) (ts : List Token) : phase.bare.readAll ts = bareRead (phase.readAll ts) := by
  induction ts generalizing phase with
  | nil => rfl
  | cons tok ts ih => simp only [Phase.readAll, Phase.read_bare, bareRead, ih, List.map_append]

theorem Phase.readAll_append (phase : Phase) (xs ys : List Token) :
    phase.readAll (xs ++ ys) =
      (((phase.readAll xs).1.readAll ys).1, (phase.readAll xs).2 ++ ((phase.readAll xs).1.readAll ys).2) := by
  induction xs generalizing phase with
  | nil => rfl
  | cons tok xs ih => simp only [List.cons_append, Phase.readAll, ih, List.append_assoc]

/-- Only the tokens of a line count, remarks apart. -/
theorem Phase.bareRead_readLine (phase : Phase) (line : Line) :
    bareRead (phase.readLine line) = phase.bare.readAll line.tokens := by
  cases line with
  | code tokens => exact (Phase.readAll_bare phase tokens).symm
  | comment | blank => cases phase <;> rfl

theorem map_bare_declarings (phase : Phase) (ls : List Line) :
    (declarings phase ls).map Declaring.bare = (phase.bare.readAll (ls.flatMap Line.tokens)).2 := by
  induction ls generalizing phase with
  | nil => rfl
  | cons line ls ih =>
    have hline := Phase.bareRead_readLine phase line
    simp only [declarings, List.map_append, List.flatMap_cons, Phase.readAll_append, ← hline, ih]
    rfl

/-- A stop ends a statement whatever came before it. -/
theorem Phase.read_stop (phase : Phase) : phase.read .stop = (.between [], []) := by
  cases phase <;> rfl

/-- The places where a statement declares names, in the order of reading. -/
def declaredBy (stmt : List Token) : List Site := ((Phase.between []).readAll stmt).2.map Declaring.site

theorem exists_splitOn_readAll (phase : Phase) (ts : List Token) :
    ∃ first rest, ts.splitOn .stop = first :: rest ∧
      (phase.readAll ts).2.map Declaring.site =
        (phase.readAll first).2.map Declaring.site ++ rest.flatMap declaredBy := by
  induction ts generalizing phase with
  | nil => exact ⟨[], [], rfl, by simp⟩
  | cons tok ts ih =>
    rw [List.splitOn_cons_eq_if_modifyHead]
    by_cases htok : tok = .stop
    · obtain ⟨first, rest, hsplit, hread⟩ := ih (.between [])
      refine ⟨[], ts.splitOn .stop, if_pos (by simpa using htok), ?_⟩
      rw [hsplit, htok]
      simp only [Phase.readAll, Phase.read_stop, List.nil_append, List.map_nil, List.flatMap_cons, hread]
      rfl
    · obtain ⟨first, rest, hsplit, hread⟩ := ih (phase.read tok).1
      refine ⟨tok :: first, rest, ?_, ?_⟩
      · rw [if_neg (by simpa using htok), hsplit, List.modifyHead_cons]
      · simp only [Phase.readAll, List.map_append, hread, List.append_assoc]

/-- What declares a name in a document is what does in its statements. -/
theorem map_site_declarings (t : Text) :
    (declarings (.between []) (lines t)).map Declaring.site = (statements t).flatMap declaredBy := by
  have hbare := congrArg (List.map Declaring.site) (map_bare_declarings (.between []) (lines t))
  rw [List.map_map] at hbare
  obtain ⟨first, rest, hsplit, hread⟩ := exists_splitOn_readAll (.between []) (tokens t)
  rw [tokens_eq] at hread
  rw [statements, hsplit, List.flatMap_cons]
  exact hbare.trans hread

end GibianeEditor.Source
