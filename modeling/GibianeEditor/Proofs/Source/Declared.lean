/-
What a statement declares. Where reading stands before the first `=` of a statement follows from the
tokens of it that are read (`HeaderAfter`): `HeaderAfter.read_token` for the next token, and by induction
`exists_headerAfter`. So what declares a name in a statement can be told from its tokens
(`mem_declaredBy_iff`), and these are the declared names of a document (`mem_names_scan_iff`).
-/
import Mathlib.Data.List.Induction
import GibianeEditor.Proofs.Source.Statements

namespace GibianeEditor.Source

/-- Whether a point stands behind a name, so that the names that follow are indices. -/
def Indexes (read : List Token) : Prop := ∃ before s after, read = before ++ .name s :: after ∧ .dot ∈ after

/-- Whether the next name is that of a procedure: there is one name so far, and it is `DEBPROC` or a
beginning of it that has four letters or more. -/
def OpensProcedure (read : List Token) : Prop :=
  ∃ s, namesOf read = [s] ∧ 4 ≤ s.name.letters.length ∧ s.name.letters <+: "DEBPROC".toList

/-- Whether a name stands in a statement where it is declared: before the first `=`, and either behind
what opens a procedure, or with an `=` to come and no point behind an earlier name. -/
def Declares (statement : List Token) (s : Site) : Prop :=
  ∃ before after, statement = before ++ .name s :: after ∧ .assign ∉ before ∧
    (OpensProcedure before ∨ .assign ∈ after ∧ ¬Indexes before)

/-! ## Names among the tokens that are read -/

/-- Whether a name is among tokens, with what is asked of the tokens before it. -/
def NamedAfter (P : List Token → Prop) (read : List Token) (s : Site) : Prop :=
  ∃ before after, read = before ++ .name s :: after ∧ P before

theorem append_singleton_eq_iff {read before after : List Token} {tok : Token} {s : Site} :
    read ++ [tok] = before ++ .name s :: after ↔
      (∃ rest, after = rest ++ [tok] ∧ read = before ++ .name s :: rest) ∨
        after = [] ∧ before = read ∧ tok = .name s := by
  rcases List.eq_nil_or_concat' after with rfl | ⟨rest, last, rfl⟩
  · constructor
    · intro h
      obtain ⟨hread, htok⟩ := List.append_inj' h rfl
      exact .inr ⟨rfl, hread.symm, by simpa using htok⟩
    · rintro (⟨rest, hrest, _⟩ | ⟨_, rfl, rfl⟩)
      · simp at hrest
      · rfl
  · have hassoc : before ++ .name s :: (rest ++ [last]) = (before ++ .name s :: rest) ++ [last] := by simp
    rw [hassoc]
    constructor
    · intro h
      obtain ⟨hread, htok⟩ := List.append_inj' h rfl
      obtain rfl : tok = last := by simpa using htok
      exact .inl ⟨rest, rfl, hread⟩
    · rintro (⟨rest', hrest, rfl⟩ | ⟨hnil, _⟩)
      · obtain ⟨rfl, hlast⟩ := List.append_inj' hrest rfl
        obtain rfl : last = tok := by simpa using hlast
        rfl
      · simp at hnil

theorem namedAfter_nil {P : List Token → Prop} (s : Site) : ¬NamedAfter P [] s := by
  rintro ⟨before, after, h, _⟩
  simp at h

theorem namedAfter_append_singleton {P : List Token → Prop} {read : List Token} {tok : Token} {s : Site} :
    NamedAfter P (read ++ [tok]) s ↔ NamedAfter P read s ∨ tok = .name s ∧ P read := by
  constructor
  · rintro ⟨before, after, h, hP⟩
    rcases append_singleton_eq_iff.1 h with ⟨rest, _, hread⟩ | ⟨_, rfl, htok⟩
    · exact .inl ⟨before, rest, hread, hP⟩
    · exact .inr ⟨htok, hP⟩
  · rintro (⟨before, after, rfl, hP⟩ | ⟨rfl, hP⟩)
    · exact ⟨before, after ++ [tok], by simp, hP⟩
    · exact ⟨read, [], rfl, hP⟩

theorem indexes_append_singleton {read : List Token} {tok : Token} :
    Indexes (read ++ [tok]) ↔ Indexes read ∨ tok = .dot ∧ namesOf read ≠ [] := by
  constructor
  · rintro ⟨before, s, after, h, hdot⟩
    rcases append_singleton_eq_iff.1 h with ⟨rest, rfl, rfl⟩ | ⟨rfl, _, _⟩
    · rcases List.mem_append.1 hdot with hdot | hdot
      · exact .inl ⟨before, s, rest, rfl, hdot⟩
      · refine .inr ⟨(List.mem_singleton.1 hdot).symm, ?_⟩
        simp [namesOf, Token.site?]
    · simp at hdot
  · rintro (⟨before, s, after, rfl, hdot⟩ | ⟨rfl, hnames⟩)
    · exact ⟨before, s, after ++ [tok], by simp, List.mem_append_left _ hdot⟩
    · obtain ⟨s, names, hs⟩ := List.exists_cons_of_ne_nil hnames
      obtain ⟨before, named, after, rfl, _, hsite, _⟩ := List.filterMap_eq_cons_iff.1 hs
      cases named with
      | name s => exact ⟨before, s, after ++ [.dot], by simp, by simp⟩
      | assign | dot | stop | other => cases hsite

theorem not_indexes_of_namesOf_eq_nil {read : List Token} (h : namesOf read = []) : ¬Indexes read := by
  rintro ⟨before, s, after, rfl, _⟩
  simp [namesOf, Token.site?] at h

/-- The spellings of `DEBPROC` are its beginnings of four letters or more. -/
theorem isProcedureKeyword_iff (name : Name) :
    isProcedureKeyword name = true ↔ 4 ≤ name.letters.length ∧ name.letters <+: "DEBPROC".toList := by
  rw [isProcedureKeyword, List.contains_iff_mem]
  constructor
  · intro h
    simp only [procedureKeywords, List.mem_cons, List.not_mem_nil, or_false] at h
    rcases h with h | h | h | h <;> rw [h] <;> decide
  · rintro ⟨hfour, hbegins⟩
    have hseven : name.letters.length ≤ 7 := hbegins.length_le
    rw [List.prefix_iff_eq_take.1 hbegins]
    obtain h | h | h | h : name.letters.length = 4 ∨ name.letters.length = 5 ∨ name.letters.length = 6 ∨
        name.letters.length = 7 := by omega
    all_goals rw [h]; decide

theorem opensProcedure_iff {read : List Token} :
    OpensProcedure read ↔ ∃ s, namesOf read = [s] ∧ isProcedureKeyword s.name = true := by
  simp only [OpensProcedure, isProcedureKeyword_iff]

/-! ## A statement up to its `=` -/

/-- What is known of a statement when tokens of it are read and no `=` is among them. -/
structure HeaderAfter (read : List Token) (h : Header) : Prop where
  indexed : h.indexed = true ↔ Indexes read
  awaits : h.awaitsProcedure = true ↔ OpensProcedure read
  /-- An `=` would declare the names without a point before them, except that of a procedure. -/
  mem_names : ∀ s, s ∈ h.names ↔ NamedAfter (fun before => ¬Indexes before ∧ ¬OpensProcedure before) read s
  sublist : h.names.Sublist (namesOf read)
  names_eq_nil : h.names = [] ↔ namesOf read = []
  /-- The name of a procedure stands behind the first name that an `=` would declare, and the others
  behind that. -/
  behind : ∀ k f rest, namesOf read = k :: f :: rest → isProcedureKeyword k.name = true →
    ∃ more, h.names = k :: more ∧ more.Sublist rest

theorem headerAfter_opening (remarks : List Text) : HeaderAfter [] (Header.opening remarks) where
  indexed := by simp [Header.opening, Indexes]
  awaits := by simp [Header.opening, OpensProcedure, namesOf]
  mem_names s := by simp [Header.opening, namedAfter_nil]
  sublist := .slnil
  names_eq_nil := by simp [Header.opening, namesOf]
  behind k f rest h := by simp [namesOf] at h

/-- The name of the procedure that names in a row open. -/
def procedureAmong : List Site → List Site
  | k :: f :: _ => if isProcedureKeyword k.name then [f] else []
  | _ => []

theorem namesOf_append_name (read : List Token) (s : Site) : namesOf (read ++ [.name s]) = namesOf read ++ [s] :=
  namesOf_append read [.name s]

theorem namesOf_append_mark (read : List Token) {tok : Token} (h : tok.site? = none) :
    namesOf (read ++ [tok]) = namesOf read := by
  rw [namesOf_append]
  simp [namesOf, h]

theorem append_singleton_eq_cons_cons_iff {names rest : List Site} {k f s : Site} :
    names ++ [s] = k :: f :: rest ↔
      names = [k] ∧ s = f ∧ rest = [] ∨ ∃ inner, names = k :: f :: inner ∧ rest = inner ++ [s] := by
  rcases names with _ | ⟨k', _ | ⟨f', inner⟩⟩
  · simp
  · simp [eq_comm]
  · simp [and_assoc, eq_comm]

/-- Only a name that is awaited is that of a procedure. -/
theorem procedureAmong_namesOf_append_name (read : List Token) (s : Site) :
    (OpensProcedure read → procedureAmong (namesOf read) = [] ∧ procedureAmong (namesOf read ++ [s]) = [s]) ∧
    (¬OpensProcedure read → procedureAmong (namesOf read ++ [s]) = procedureAmong (namesOf read)) := by
  rw [opensProcedure_iff]
  rcases namesOf read with _ | ⟨k, _ | ⟨f, rest⟩⟩
  · simp [procedureAmong]
  · simp [procedureAmong]
  · simp [procedureAmong]

section Step

variable {read : List Token} {h : Header}

/-- A name makes no other name an index. -/
theorem indexes_append_name {s : Site} : Indexes (read ++ [.name s]) ↔ Indexes read := by
  rw [indexes_append_singleton]
  simp

/-- Where no procedure's name is awaited, the first two names are those of before. -/
theorem exists_of_namesOf_append_name (hopens : ¬OpensProcedure read) {k f s : Site} {rest : List Site}
    (hnames : namesOf (read ++ [.name s]) = k :: f :: rest) (hkeyword : isProcedureKeyword k.name = true) :
    ∃ inner, namesOf read = k :: f :: inner ∧ rest = inner ++ [s] := by
  rw [namesOf_append_name, append_singleton_eq_cons_cons_iff] at hnames
  rcases hnames with ⟨hk, _, _⟩ | hinner
  · exact absurd (opensProcedure_iff.2 ⟨k, hk, hkeyword⟩) hopens
  · exact hinner

theorem HeaderAfter.read_procedure (hread : HeaderAfter read h) (hopens : OpensProcedure read) (s : Site) :
    HeaderAfter (read ++ [.name s]) { h with awaitsProcedure := false } := by
  obtain ⟨k, hk, hkeyword⟩ := opensProcedure_iff.1 hopens
  have hnames : h.names = [k] := by
    have hsublist := hread.sublist
    rw [hk] at hsublist
    rcases List.sublist_singleton.1 hsublist with hnil | hone
    · rw [hread.names_eq_nil, hk] at hnil
      cases hnil
    · exact hone
  constructor
  case indexed => rw [indexes_append_name, hread.indexed]
  case awaits =>
    rw [opensProcedure_iff, namesOf_append_name, hk]
    simp
  case mem_names =>
    intro r
    rw [namedAfter_append_singleton, hread.mem_names]
    simp [hopens]
  case sublist =>
    rw [namesOf_append_name]
    exact hread.sublist.trans (List.sublist_append_left _ _)
  case names_eq_nil =>
    rw [namesOf_append_name]
    simp [hnames]
  case behind =>
    intro k' f rest heq _
    rw [namesOf_append_name, append_singleton_eq_cons_cons_iff, hk] at heq
    rcases heq with ⟨heq, _, rfl⟩ | ⟨inner, heq, _⟩
    · exact ⟨[], hnames.trans heq, .slnil⟩
    · simp at heq

theorem HeaderAfter.read_keyword (hread : HeaderAfter read h) (hnone : namesOf read = []) {s : Site}
    (hkeyword : isProcedureKeyword s.name = true) :
    HeaderAfter (read ++ [.name s]) { h with names := [s], awaitsProcedure := true } := by
  have hindexes : ¬Indexes read := not_indexes_of_namesOf_eq_nil hnone
  have hopens : ¬OpensProcedure read := by
    rw [opensProcedure_iff, hnone]
    simp
  constructor
  case indexed => rw [indexes_append_name, hread.indexed]
  case awaits =>
    rw [opensProcedure_iff, namesOf_append_name, hnone]
    simp [hkeyword]
  case mem_names =>
    intro r
    rw [namedAfter_append_singleton, ← hread.mem_names, hread.names_eq_nil.2 hnone]
    simp [hindexes, hopens, eq_comm]
  case sublist =>
    rw [namesOf_append_name]
    exact List.sublist_append_right _ _
  case names_eq_nil =>
    rw [namesOf_append_name]
    simp
  case behind =>
    intro k f rest heq
    rw [namesOf_append_name, hnone] at heq
    simp at heq

theorem HeaderAfter.read_index (hread : HeaderAfter read h) (hopens : ¬OpensProcedure read) (hindexes : Indexes read)
    (s : Site) : HeaderAfter (read ++ [.name s]) h := by
  have hsome : namesOf read ≠ [] := fun hnone => not_indexes_of_namesOf_eq_nil hnone hindexes
  constructor
  case indexed => rw [indexes_append_name, hread.indexed]
  case awaits =>
    rw [hread.awaits, iff_false_left hopens, opensProcedure_iff, namesOf_append_name]
    rintro ⟨k, hk, _⟩
    exact hsome (by simpa using congrArg List.length hk)
  case mem_names =>
    intro r
    rw [namedAfter_append_singleton, hread.mem_names]
    simp [hindexes]
  case sublist =>
    rw [namesOf_append_name]
    exact hread.sublist.trans (List.sublist_append_left _ _)
  case names_eq_nil =>
    rw [namesOf_append_name, hread.names_eq_nil]
    simp [hsome]
  case behind =>
    intro k f rest heq hkeyword
    obtain ⟨inner, hinner, rfl⟩ := exists_of_namesOf_append_name hopens heq hkeyword
    obtain ⟨more, hmore, hsublist⟩ := hread.behind k f inner hinner hkeyword
    exact ⟨more, hmore, hsublist.trans (List.sublist_append_left _ _)⟩

theorem HeaderAfter.read_name (hread : HeaderAfter read h) (hopens : ¬OpensProcedure read) (hindexes : ¬Indexes read)
    {s : Site} (hplain : namesOf read = [] → isProcedureKeyword s.name = false) :
    HeaderAfter (read ++ [.name s]) { h with names := h.names ++ [s] } := by
  constructor
  case indexed => rw [indexes_append_name, hread.indexed]
  case awaits =>
    rw [hread.awaits, iff_false_left hopens, opensProcedure_iff, namesOf_append_name]
    rintro ⟨k, hk, hkeyword⟩
    obtain ⟨hnone, rfl⟩ : namesOf read = [] ∧ s = k := by simpa [List.append_eq_singleton_iff] using hk
    rw [hplain hnone] at hkeyword
    cases hkeyword
  case mem_names =>
    intro r
    rw [namedAfter_append_singleton, List.mem_append, hread.mem_names, List.mem_singleton]
    simp [hindexes, hopens, eq_comm]
  case sublist =>
    rw [namesOf_append_name]
    exact hread.sublist.append (List.Sublist.refl _)
  case names_eq_nil =>
    rw [namesOf_append_name]
    simp
  case behind =>
    intro k f rest heq hkeyword
    obtain ⟨inner, hinner, rfl⟩ := exists_of_namesOf_append_name hopens heq hkeyword
    obtain ⟨more, hmore, hsublist⟩ := hread.behind k f inner hinner hkeyword
    exact ⟨more ++ [s], by simp [hmore], hsublist.append (List.Sublist.refl _)⟩

/-- A token that is no name changes at most whether names are indices. -/
theorem HeaderAfter.read_mark (hread : HeaderAfter read h) {tok : Token} (hname : tok.site? = none) {indexed : Bool}
    (hindexed : indexed = true ↔ Indexes (read ++ [tok])) :
    HeaderAfter (read ++ [tok]) { h with indexed := indexed } := by
  have hnames := namesOf_append_mark read hname
  constructor
  case indexed => exact hindexed
  case awaits => rw [hread.awaits, OpensProcedure, OpensProcedure, hnames]
  case mem_names =>
    intro s
    have hne : tok ≠ .name s := by
      rintro rfl
      cases hname
    rw [namedAfter_append_singleton, hread.mem_names]
    simp [hne]
  case sublist =>
    rw [hnames]
    exact hread.sublist
  case names_eq_nil =>
    rw [hnames]
    exact hread.names_eq_nil
  case behind =>
    rw [hnames]
    exact hread.behind

/-- **Step.** Where reading stands before the `=` of a statement follows from the tokens of the
statement that are read, and the name of the procedure they open is declared at once. -/
theorem HeaderAfter.read_token (hread : HeaderAfter read h) {tok : Token} (hassign : tok ≠ .assign)
    (hstop : tok ≠ .stop) :
    ∃ next ds, h.read tok = (.header next, ds) ∧ HeaderAfter (read ++ [tok]) next ∧
      procedureAmong (namesOf (read ++ [tok])) = procedureAmong (namesOf read) ++ ds.map Declaring.site := by
  cases tok with
  | name s =>
    obtain ⟨hprocedure, hother⟩ := procedureAmong_namesOf_append_name read s
    rw [namesOf_append_name, Header.read]
    by_cases hopens : OpensProcedure read
    · obtain ⟨hnone, hone⟩ := hprocedure hopens
      rw [if_pos (hread.awaits.2 hopens)]
      exact ⟨_, _, rfl, hread.read_procedure hopens s, by simp [hnone, hone]⟩
    rw [if_neg fun hawaits => hopens (hread.awaits.1 hawaits), hother hopens]
    by_cases hkeyword : namesOf read = [] ∧ isProcedureKeyword s.name = true
    · rw [if_pos (by simpa [isProcedureKeyword, ← hread.names_eq_nil] using hkeyword)]
      exact ⟨_, _, rfl, hread.read_keyword hkeyword.1 hkeyword.2, by simp⟩
    rw [if_neg (by simpa [isProcedureKeyword, ← hread.names_eq_nil] using hkeyword)]
    by_cases hindexes : Indexes read
    · rw [if_pos (hread.indexed.2 hindexes)]
      exact ⟨_, _, rfl, hread.read_index hopens hindexes s, by simp⟩
    · rw [if_neg fun hindexed => hindexes (hread.indexed.1 hindexed)]
      exact ⟨_, _, rfl, hread.read_name hopens hindexes fun hnone => by simpa [hnone] using hkeyword, by simp⟩
  | assign => exact absurd rfl hassign
  | stop => exact absurd rfl hstop
  | dot =>
    have hnames : namesOf (read ++ [.dot]) = namesOf read := namesOf_append_mark read rfl
    refine ⟨_, _, rfl, hread.read_mark rfl ?_, by simp [hnames]⟩
    rw [indexes_append_singleton, Bool.or_eq_true, hread.indexed]
    simp [← hread.names_eq_nil]
  | other =>
    have hnames : namesOf (read ++ [.other]) = namesOf read := namesOf_append_mark read rfl
    refine ⟨h, [], rfl, hread.read_mark rfl ?_, by simp [hnames]⟩
    rw [indexes_append_singleton, hread.indexed]
    simp

end Step

/-- **Run.** The tokens of a statement before its `=` declare the name of a procedure, if they open
one, and nothing else. -/
theorem exists_headerAfter {read : List Token} (remarks : List Text) (hassign : .assign ∉ read) (hstop : .stop ∉ read) :
    ∃ h ds, (Phase.header (.opening remarks)).readAll read = (.header h, ds) ∧ HeaderAfter read h ∧
      ds.map Declaring.site = procedureAmong (namesOf read) := by
  induction read using List.reverseRecOn with
  | nil => exact ⟨_, [], rfl, headerAfter_opening remarks, rfl⟩
  | append_singleton read tok ih =>
    simp only [List.mem_append, List.mem_singleton, not_or] at hassign hstop
    obtain ⟨h, ds, hrun, hread, hds⟩ := ih hassign.1 hstop.1
    obtain ⟨next, more, htok, hnext, hmore⟩ := hread.read_token (Ne.symm hassign.2) (Ne.symm hstop.2)
    refine ⟨next, ds ++ more, ?_, hnext, ?_⟩
    · rw [Phase.readAll_append, hrun]
      simp only [Phase.readAll, Phase.read, htok, List.append_nil]
    · rw [hmore, List.map_append, hds]

/-! ## Whole statements -/

/-- The tokens before the first `=`. -/
def leftOf (stmt : List Token) : List Token := stmt.takeWhile (· ≠ .assign)

theorem assign_not_mem_leftOf (stmt : List Token) : .assign ∉ leftOf stmt := by
  intro h
  simpa using List.mem_takeWhile_imp h

theorem exists_eq_leftOf_append {stmt : List Token} (h : .assign ∈ stmt) :
    ∃ after, stmt = leftOf stmt ++ .assign :: after := by
  induction stmt with
  | nil => cases h
  | cons tok stmt ih =>
    by_cases htok : tok = .assign
    · exact ⟨stmt, by simp [leftOf, htok]⟩
    · obtain ⟨after, hafter⟩ := ih (by simpa [Ne.symm htok] using h)
      refine ⟨after, ?_⟩
      rw [leftOf, List.takeWhile_cons_of_pos (by simpa using htok)]
      exact congrArg (tok :: ·) hafter

theorem leftOf_eq_self {stmt : List Token} (h : .assign ∉ stmt) : leftOf stmt = stmt := by
  rw [leftOf, List.takeWhile_eq_self_iff]
  intro tok htok
  rw [decide_eq_true_iff]
  rintro rfl
  exact h htok

/-- Before the first `=` is what has no `=` before it. -/
theorem namedAfter_leftOf_iff {P : List Token → Prop} {stmt : List Token} {s : Site} :
    NamedAfter P (leftOf stmt) s ↔ ∃ before after, stmt = before ++ .name s :: after ∧ .assign ∉ before ∧ P before := by
  constructor
  · rintro ⟨before, rest, hleft, hP⟩
    refine ⟨before, rest ++ stmt.dropWhile (· ≠ .assign), ?_, ?_, hP⟩
    · calc stmt = leftOf stmt ++ stmt.dropWhile (· ≠ .assign) := List.takeWhile_append_dropWhile.symm
        _ = before ++ .name s :: (rest ++ stmt.dropWhile (· ≠ .assign)) := by simp [hleft]
    · intro hmem
      refine assign_not_mem_leftOf stmt ?_
      rw [hleft]
      exact List.mem_append_left _ hmem
  · rintro ⟨before, after, rfl, hbefore, hP⟩
    refine ⟨before, leftOf after, ?_, hP⟩
    have hall : ∀ tok ∈ before, decide (tok ≠ .assign) = true := by
      intro tok htok
      rw [decide_eq_true_iff]
      rintro rfl
      exact hbefore htok
    rw [leftOf, List.takeWhile_append_of_pos hall, List.takeWhile_cons_of_pos (by simp)]
    rfl

theorem mem_procedureAmong_iff (read : List Token) (s : Site) :
    s ∈ procedureAmong (namesOf read) ↔ NamedAfter OpensProcedure read s := by
  induction read using List.reverseRecOn with
  | nil => simp [namesOf, procedureAmong, namedAfter_nil]
  | append_singleton read tok ih =>
    rw [namedAfter_append_singleton, ← ih]
    cases tok with
    | name r =>
      obtain ⟨hprocedure, hother⟩ := procedureAmong_namesOf_append_name read r
      rw [namesOf_append_name]
      by_cases hopens : OpensProcedure read
      · obtain ⟨hnone, hone⟩ := hprocedure hopens
        simp [hnone, hone, hopens, eq_comm]
      · simp [hother hopens, hopens]
    | assign | dot | stop | other =>
      rw [namesOf_append_mark read rfl]
      simp

/-- Behind its `=` a statement declares nothing. -/
theorem Phase.readAll_body {ts : List Token} (hstop : .stop ∉ ts) : Phase.body.readAll ts = (.body, []) := by
  induction ts with
  | nil => rfl
  | cons tok ts ih =>
    obtain ⟨hne, hstop⟩ := not_or.1 (mt List.mem_cons.2 hstop)
    have htok : Phase.body.read tok = (.body, []) := by
      cases tok with
      | stop => exact absurd rfl hne
      | name | assign | dot | other => rfl
    rw [Phase.readAll, htok]
    simp only [ih hstop, List.append_nil]

/-- A statement is read from its first token on as one that is open already. -/
theorem declaredBy_eq_opening {stmt : List Token} (hstop : .stop ∉ stmt) :
    declaredBy stmt = ((Phase.header (.opening [])).readAll stmt).2.map Declaring.site := by
  cases stmt with
  | nil => rfl
  | cons tok stmt =>
    cases tok with
    | stop => simp at hstop
    | name | assign | dot | other => rfl

/-- A statement declares the name of a procedure, and then the names that its `=` declares. -/
theorem exists_declaredBy_eq {stmt : List Token} (hstop : .stop ∉ stmt) :
    ∃ h, HeaderAfter (leftOf stmt) h ∧
      declaredBy stmt = procedureAmong (namesOf (leftOf stmt)) ++ if .assign ∈ stmt then h.names else [] := by
  have hleft : .stop ∉ leftOf stmt := fun hmem => hstop (List.takeWhile_sublist _ |>.subset hmem)
  obtain ⟨h, ds, hrun, hread, hds⟩ := exists_headerAfter [] (assign_not_mem_leftOf stmt) hleft
  refine ⟨h, hread, ?_⟩
  rw [declaredBy_eq_opening hstop, ← hds]
  by_cases hassign : .assign ∈ stmt
  · obtain ⟨after, hafter⟩ := exists_eq_leftOf_append hassign
    have hbody : .stop ∉ after := by
      rw [hafter] at hstop
      exact fun hmem => hstop (by simp [hmem])
    have hread : (Phase.header (.opening [])).readAll (leftOf stmt ++ .assign :: after) =
        (.body, ds ++ h.names.map (⟨·, h.description⟩)) := by
      rw [Phase.readAll_append, hrun]
      simp [Phase.readAll, Phase.read, Header.read, Phase.readAll_body hbody]
    rw [← hafter] at hread
    rw [hread, if_pos hassign, List.map_append, List.map_map]
    congr 1
    exact List.map_id h.names
  · rw [leftOf_eq_self hassign] at hrun
    rw [hrun, if_neg hassign, List.append_nil]

theorem mem_declaredBy_iff {stmt : List Token} (hstop : .stop ∉ stmt) (s : Site) :
    s ∈ declaredBy stmt ↔ Declares stmt s := by
  obtain ⟨h, hread, heq⟩ := exists_declaredBy_eq hstop
  rw [heq, List.mem_append, mem_procedureAmong_iff, namedAfter_leftOf_iff]
  constructor
  · rintro (⟨before, after, hstmt, hassign, hopens⟩ | hs)
    · exact ⟨before, after, hstmt, hassign, .inl hopens⟩
    · split at hs
      · rename_i hmem
        obtain ⟨before, after, hstmt, hassign, hindexes, _⟩ := namedAfter_leftOf_iff.1 ((hread.mem_names s).1 hs)
        rw [hstmt] at hmem
        exact ⟨before, after, hstmt, hassign, .inr ⟨by simpa [hassign] using hmem, hindexes⟩⟩
      · cases hs
  · rintro ⟨before, after, hstmt, hassign, hdeclares⟩
    by_cases hopens : OpensProcedure before
    · exact .inl ⟨before, after, hstmt, hassign, hopens⟩
    · obtain ⟨hmem, hindexes⟩ := hdeclares.resolve_left hopens
      right
      rw [if_pos (by simp [hstmt, hmem]), hread.mem_names, namedAfter_leftOf_iff]
      exact ⟨before, after, hstmt, hassign, hindexes, hopens⟩

/-! ## Documents -/

theorem exists_mem_firstOfEach_iff (ds : List Declaring) (name : Name) :
    (∃ d ∈ firstOfEach ds, d.site.name = name) ↔ ∃ d ∈ ds, d.site.name = name := by
  induction ds with
  | nil => rfl
  | cons d ds ih =>
    constructor
    · rintro ⟨e, he, hname⟩
      exact ⟨e, (firstOfEach_sublist (d :: ds)).subset he, hname⟩
    · rintro ⟨e, he, hname⟩
      by_cases hd : d.site.name = name
      · exact ⟨d, List.mem_cons_self, hd⟩
      · rcases List.mem_cons.1 he with rfl | he
        · exact absurd hname hd
        · obtain ⟨f, hf, hfname⟩ := ih.2 ⟨e, he, hname⟩
          refine ⟨f, List.mem_cons_of_mem _ (List.mem_filter.2 ⟨hf, ?_⟩), hfname⟩
          rw [decide_eq_true_iff, hfname]
          exact Ne.symm hd

/-- **The declared names are exactly the assigned ones and the procedures.** A name is in the scan of a
document just when it is declared in one of its statements: before the first `=` and behind no point
that has a name before it, or right behind the `DEBPROC` that is the first name of the statement. -/
theorem mem_names_scan_iff (t : Text) (name : Name) :
    name ∈ (scan t).map Declaration.name ↔ ∃ stmt ∈ statements t, ∃ s, Declares stmt s ∧ s.name = name := by
  have hnames : name ∈ (scan t).map Declaration.name ↔
      ∃ d ∈ firstOfEach (declarings (.between []) (lines t)), d.site.name = name := by
    simp [scan]
  have hsites : (∃ d ∈ declarings (.between []) (lines t), d.site.name = name) ↔
      ∃ s ∈ (statements t).flatMap declaredBy, s.name = name := by
    rw [← map_site_declarings]
    simp
  rw [hnames, exists_mem_firstOfEach_iff, hsites]
  constructor
  · rintro ⟨s, hs, hname⟩
    obtain ⟨stmt, hstmt, hs⟩ := List.mem_flatMap.1 hs
    exact ⟨stmt, hstmt, s, (mem_declaredBy_iff (stop_not_mem_of_mem_statements hstmt) s).1 hs, hname⟩
  · rintro ⟨stmt, hstmt, s, hs, hname⟩
    have hmem := (mem_declaredBy_iff (stop_not_mem_of_mem_statements hstmt) s).2 hs
    exact ⟨s, List.mem_flatMap.2 ⟨stmt, hstmt, hmem⟩, hname⟩

end GibianeEditor.Source
