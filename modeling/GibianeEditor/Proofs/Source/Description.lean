/-
Where the description of a declared name comes from. Every token is read together with the remarks that
a statement would find which starts with it: those of the comment block above its line for the first
token of a line, and none for the others (`remarked`). Only at the start of a statement they count
(`declarings_eq`), so a name is described by what stands above the line where the statement starts that
declares it first (`description_comes_from_block_above`).
-/
import Mathlib.Data.List.DropRight
import GibianeEditor.Proofs.Source.Declared
import GibianeEditor.Proofs.Source.RawLine

namespace GibianeEditor

/-! ## White space at the end -/

theorem Unicode.trim_append {cs ds : List Char} (h : ∀ c ∈ ds, isWhiteSpace c = true) : trim (cs ++ ds) = trim cs := by
  have hds : ds.dropWhile isWhiteSpace = [] := List.dropWhile_eq_nil_iff.2 h
  rw [trim, trim, List.dropWhile_append]
  split
  · rename_i hcs
    rw [hds, List.isEmpty_iff.1 hcs]
  · rw [List.reverse_append, List.dropWhile_append_of_pos fun c hc => h c (List.mem_reverse.1 hc)]

namespace Source

/-! ## Comment blocks -/

/-- Whether a line is a comment. -/
def isComment (line : Text) : Bool := line.head? == some '*'

/-- What a comment says, without the stars it starts with and without white space around it. -/
def remark (line : Text) : Text := Unicode.trim (line.dropWhile (· == '*'))

/-- The comment block at the end of lines: those behind the last line that is no comment. -/
def commentBlock (above : List Text) : List Text := above.rtakeWhile isComment

/-- What the comments of the block at the end of lines say, if it is anything. -/
def remarksAbove (above : List Text) : List Text := ((commentBlock above).map remark).filter fun r => !r.isEmpty

/-- The description that lines give to a statement below them. -/
def describe (above : List Text) : Text := List.intercalate ['\n'] (remarksAbove above)

theorem isWhiteSpace_of_mem_rawEnding {line : Text} {c : Char} (hc : c ∈ rawEnding line) :
    Unicode.isWhiteSpace c = true := by
  rcases eq_of_mem_rawEnding hc with rfl | rfl <;> rfl

theorem head?_rawContent_eq_star_iff (line : Text) : (rawContent line).head? = some '*' ↔ isComment line = true := by
  have hline := rawContent_append_rawEnding line
  rw [isComment, beq_iff_eq]
  cases hcontent : rawContent line with
  | cons c content =>
    rw [hcontent] at hline
    rw [← hline]
    rfl
  | nil =>
    rw [hcontent, List.nil_append] at hline
    constructor
    · intro h
      cases h
    · intro h
      rw [← hline] at h
      rcases @eq_of_mem_rawEnding line '*' (List.mem_of_mem_head? h) with h | h <;> cases h

theorem trim_rawContent (line : Text) :
    Unicode.trim ((rawContent line).dropWhile (· == '*')) = remark line := by
  have hline := rawContent_append_rawEnding line
  have hending : (rawEnding line).dropWhile (· == '*') = rawEnding line := by
    rw [List.dropWhile_eq_self_iff]
    intro hlt
    rcases eq_of_mem_rawEnding (List.getElem_mem hlt) with h | h <;> rw [h] <;> decide
  have hdrop : line.dropWhile (· == '*') = (rawContent line).dropWhile (· == '*') ++ rawEnding line := by
    conv_lhs => rw [← hline]
    rw [List.dropWhile_append, hending]
    split
    · rename_i hnil
      rw [List.isEmpty_iff.1 hnil, List.nil_append]
    · rfl
  rw [remark, hdrop, Unicode.trim_append fun c => isWhiteSpace_of_mem_rawEnding]

theorem remarksAbove_of_comment (above : List Text) {line : Text} (h : isComment line = true) :
    remarksAbove (above ++ [line]) =
      if (remark line).isEmpty then remarksAbove above else remarksAbove above ++ [remark line] := by
  rw [remarksAbove, commentBlock, List.rtakeWhile_concat_pos _ _ _ h, List.map_append, List.filter_append]
  cases hempty : (remark line).isEmpty <;> simp [remarksAbove, commentBlock, hempty]

theorem remarksAbove_of_code (above : List Text) {line : Text} (h : isComment line = false) :
    remarksAbove (above ++ [line]) = [] := by
  rw [remarksAbove, commentBlock, List.rtakeWhile_concat_neg _ _ _ (by simp [h])]
  rfl

/-! ## Tokens of a line -/

theorem tokensFrom_ne_nil {offset : Nat} {ls : List Lexeme} {l : Lexeme} (hl : l ∈ ls) (hkind : l.kind ≠ .blank) :
    tokensFrom offset ls ≠ [] := by
  induction ls generalizing offset with
  | nil => cases hl
  | cons m ls ih =>
    rw [tokensFrom]
    split
    case h_1 hblank =>
      rcases List.mem_cons.1 hl with rfl | hl
      · exact absurd hblank hkind
      · exact ih hl
    all_goals simp

/-- A line that is not blank has a token. -/
theorem tokensFrom_lexemes_ne_nil {offset : Nat} {content : Text} (h : content.all Unicode.isWhiteSpace = false) :
    tokensFrom offset (lexemes content) ≠ [] := by
  fun_induction lexemes content generalizing offset with
  | case1 => simp at h
  | case2 c t ih =>
    by_cases hc : Unicode.isWhiteSpace c = true
    · have hkind : kindOf c = .blank := (kindOf_eq_blank_iff c).2 hc
      rw [hkind] at ih ⊢
      exact ih (by simpa [hc, extend] using h)
    · exact tokensFrom_ne_nil List.mem_cons_self (mt (kindOf_eq_blank_iff c).1 hc)

/-! ## Tokens with remarks -/

/-- The tokens of a line that stands below others. -/
def tokensBelow (above : List Text) (line : Text) : List Token :=
  (Line.read (Text.bytes above.flatten) (rawContent line)).tokens

/-- The tokens of a line, each with the remarks that a statement finds which starts with it. -/
def remarkedLine (remarks : List Text) : List Token → List (Token × List Text)
  | [] => []
  | tok :: toks => (tok, remarks) :: toks.map (·, [])

/-- The tokens of lines that stand below others, with their remarks. -/
def remarkedFrom : List Text → List Text → List (Token × List Text)
  | _, [] => []
  | above, line :: ls => remarkedLine (remarksAbove above) (tokensBelow above line) ++ remarkedFrom (above ++ [line]) ls

/-- The tokens of a document, with their remarks. -/
def remarked (t : Text) : List (Token × List Text) := remarkedFrom [] (rawLines t)

theorem map_fst_remarkedLine (remarks : List Text) (toks : List Token) :
    (remarkedLine remarks toks).map Prod.fst = toks := by
  cases toks with
  | nil => rfl
  | cons tok toks => simp [remarkedLine, Function.comp_def]

theorem bytes_flatten_concat (above : List Text) (line : Text) :
    Text.bytes (above ++ [line]).flatten = Text.bytes above.flatten + line.bytes := by
  simp

theorem map_fst_remarkedFrom (above ls : List Text) :
    (remarkedFrom above ls).map Prod.fst = (linesFrom (Text.bytes above.flatten) ls).flatMap Line.tokens := by
  induction ls generalizing above with
  | nil => rfl
  | cons line ls ih =>
    rw [remarkedFrom, List.map_append, map_fst_remarkedLine, ih, bytes_flatten_concat, linesFrom, List.flatMap_cons]
    rfl

theorem map_fst_remarked (t : Text) : (remarked t).map Prod.fst = tokens t := by
  rw [remarked, map_fst_remarkedFrom, tokens_eq]
  rfl

/-- Where a token with its remarks stands. -/
theorem exists_of_remarkedLine {remarks remarks' : List Text} {toks : List Token} {tok : Token}
    {before after : List (Token × List Text)} (h : remarkedLine remarks toks = before ++ (tok, remarks') :: after) :
    ∃ rest, toks = before.map Prod.fst ++ tok :: rest ∧ remarks' = if before.map Prod.fst = [] then remarks else [] := by
  have htoks := congrArg (List.map Prod.fst) h
  rw [map_fst_remarkedLine, List.map_append] at htoks
  refine ⟨after.map Prod.fst, htoks, ?_⟩
  cases toks with
  | nil => simp [remarkedLine] at h
  | cons first toks =>
    rw [remarkedLine] at h
    cases before with
    | nil =>
      obtain ⟨hfirst, _⟩ := List.cons.inj h
      simpa using (congrArg Prod.snd hfirst).symm
    | cons _ before =>
      obtain ⟨_, hrest⟩ := List.cons.inj h
      have hmem : (tok, remarks') ∈ toks.map (·, ([] : List Text)) := by
        rw [hrest]
        simp
      obtain ⟨_, _, heq⟩ := List.mem_map.1 hmem
      simpa using (congrArg Prod.snd heq).symm

theorem exists_of_remarkedFrom {above ls : List Text} {tok : Token} {remarks : List Text}
    {before after : List (Token × List Text)} (h : remarkedFrom above ls = before ++ (tok, remarks) :: after) :
    ∃ first line below ended rest, ls = first ++ line :: below ∧
      tokensBelow (above ++ first) line = ended ++ tok :: rest ∧
      before.map Prod.fst = (linesFrom (Text.bytes above.flatten) first).flatMap Line.tokens ++ ended ∧
      remarks = if ended = [] then remarksAbove (above ++ first) else [] := by
  induction ls generalizing above before with
  | nil => simp [remarkedFrom] at h
  | cons line ls ih =>
    -- The token stands on this line or below it.
    have hbelow : ∀ more, before = remarkedLine (remarksAbove above) (tokensBelow above line) ++ more →
        remarkedFrom (above ++ [line]) ls = more ++ (tok, remarks) :: after →
        ∃ first line' below ended rest, line :: ls = first ++ line' :: below ∧
          tokensBelow (above ++ first) line' = ended ++ tok :: rest ∧
          before.map Prod.fst = (linesFrom (Text.bytes above.flatten) first).flatMap Line.tokens ++ ended ∧
          remarks = if ended = [] then remarksAbove (above ++ first) else [] := by
      intro more hbefore hmore
      obtain ⟨first, line', below, ended, rest, rfl, htokens, hfirst, hremarks⟩ := ih hmore
      rw [List.append_assoc, List.singleton_append] at htokens hremarks
      refine ⟨line :: first, line', below, ended, rest, rfl, htokens, ?_, hremarks⟩
      rw [hbefore, List.map_append, map_fst_remarkedLine, hfirst, bytes_flatten_concat, linesFrom, List.flatMap_cons,
        List.append_assoc]
      rfl
    rw [remarkedFrom] at h
    rcases List.append_eq_append_iff.1 h with ⟨more, hbefore, hmore⟩ | ⟨more, hline, hmore⟩
    · exact hbelow more hbefore hmore
    · cases more with
      | nil => exact hbelow [] (by simpa using hline.symm) (by simpa using hmore.symm)
      | cons n more =>
        obtain ⟨rfl, _⟩ := List.cons.inj hmore
        obtain ⟨rest, htokens, hremarks⟩ := exists_of_remarkedLine hline
        exact ⟨[], line, ls, before.map Prod.fst, rest, rfl, by simpa using htokens, by simp [linesFrom],
          by simpa using hremarks⟩

/-! ## Reading tokens with remarks -/

/-- The phase with other remarks, where it knows any. -/
def Phase.withRemarks : Phase → List Text → Phase
  | .between _, remarks => .between remarks
  | phase, _ => phase

/-- What tokens with remarks declare. -/
def readRemarked : Phase → List (Token × List Text) → List Declaring
  | _, [] => []
  | phase, (tok, remarks) :: rest =>
    ((phase.withRemarks remarks).read tok).2 ++ readRemarked ((phase.withRemarks remarks).read tok).1 rest

/-- Reading a token with its remarks, it does not matter what remarks are known before. -/
theorem readRemarked_withRemarks (phase : Phase) (remarks : List Text) (ns : List (Token × List Text)) :
    readRemarked (phase.withRemarks remarks) ns = readRemarked phase ns := by
  cases ns with
  | nil => rfl
  | cons n ns => cases phase <;> rfl

/-- Behind a token there are no remarks. -/
theorem withRemarks_read (phase : Phase) (tok : Token) : (phase.read tok).1.withRemarks [] = (phase.read tok).1 := by
  have hheader : ∀ h : Header, (h.read tok).1.withRemarks [] = (h.read tok).1 := by
    intro h
    cases tok with
    | name site =>
      simp only [Header.read]
      split
      · rfl
      split
      · rfl
      split
      · rfl
      · rfl
    | assign | dot | stop | other => rfl
  cases phase with
  | between remarks =>
    cases tok with
    | stop => rfl
    | name | assign | dot | other => exact hheader _
  | header h => exact hheader h
  | body => cases tok <;> rfl

theorem withRemarks_readAll {phase : Phase} {toks : List Token} (h : toks ≠ []) :
    (phase.readAll toks).1.withRemarks [] = (phase.readAll toks).1 := by
  rcases List.eq_nil_or_concat' toks with rfl | ⟨toks, tok, rfl⟩
  · exact absurd rfl h
  · simp only [Phase.readAll_append, Phase.readAll, withRemarks_read]

theorem readRemarked_map {phase : Phase} (h : phase.withRemarks [] = phase) (toks : List Token)
    (rest : List (Token × List Text)) :
    readRemarked phase (toks.map (·, []) ++ rest) =
      (phase.readAll toks).2 ++ readRemarked (phase.readAll toks).1 rest := by
  induction toks generalizing phase with
  | nil => rfl
  | cons tok toks ih =>
    rw [List.map_cons, List.cons_append, readRemarked, h, ih (withRemarks_read phase tok), ← List.append_assoc]
    rfl

theorem readRemarked_remarkedLine {phase : Phase} {remarks : List Text} (h : phase.withRemarks remarks = phase)
    (toks : List Token) (rest : List (Token × List Text)) :
    readRemarked phase (remarkedLine remarks toks ++ rest) =
      (phase.readAll toks).2 ++ readRemarked (phase.readAll toks).1 rest := by
  cases toks with
  | nil => rfl
  | cons tok toks =>
    rw [remarkedLine, List.cons_append, readRemarked, h, readRemarked_map (withRemarks_read phase tok),
      ← List.append_assoc]
    rfl

/-- **Step.** Behind a line reading knows the remarks of the comment block that ends there, if it stands
between statements. -/
theorem withRemarks_readLine {phase : Phase} {above : List Text} (h : phase.withRemarks (remarksAbove above) = phase)
    (offset : Nat) (line : Text) :
    (phase.readLine (Line.read offset (rawContent line))).1.withRemarks (remarksAbove (above ++ [line])) =
      (phase.readLine (Line.read offset (rawContent line))).1 := by
  have hcomment := head?_rawContent_eq_star_iff line
  rw [Line.read]
  split
  · rename_i hstar
    rw [remarksAbove_of_comment above (hcomment.1 hstar), trim_rawContent]
    cases phase with
    | between remarks =>
      obtain rfl : remarksAbove above = remarks := by simpa [Phase.withRemarks] using h
      rfl
    | header | body => rfl
  · rename_i hstar
    rw [remarksAbove_of_code above (by simpa using mt hcomment.2 hstar)]
    split
    · cases phase <;> rfl
    · rename_i hblank
      exact withRemarks_readAll (tokensFrom_lexemes_ne_nil (by simpa using hblank))

/-- A line without tokens changes the remarks at most. -/
theorem exists_readLine_eq (phase : Phase) {line : Line} (h : line.tokens = []) :
    ∃ remarks, phase.readLine line = (phase.withRemarks remarks, []) := by
  cases phase with
  | between remarks =>
    cases line with
    | code toks =>
      obtain rfl : toks = [] := h
      exact ⟨remarks, rfl⟩
    | comment remark => exact ⟨_, rfl⟩
    | blank => exact ⟨[], rfl⟩
  | header | body =>
    cases line with
    | code toks =>
      obtain rfl : toks = [] := h
      exact ⟨[], rfl⟩
    | comment | blank => exact ⟨[], rfl⟩

theorem readRemarked_readLine {phase : Phase} {remarks : List Text} (h : phase.withRemarks remarks = phase)
    (line : Line) (rest : List (Token × List Text)) :
    readRemarked phase (remarkedLine remarks line.tokens ++ rest) =
      (phase.readLine line).2 ++ readRemarked (phase.readLine line).1 rest := by
  cases hline : line with
  | code toks => exact readRemarked_remarkedLine h toks rest
  | comment | blank =>
    obtain ⟨known, hknown⟩ := @exists_readLine_eq phase line (by rw [hline]; rfl)
    rw [← hline, hknown, readRemarked_withRemarks, hline]
    rfl

/-- **Run.** What lines declare is what their tokens declare, read with the remarks. -/
theorem declarings_linesFrom {phase : Phase} {above : List Text} (h : phase.withRemarks (remarksAbove above) = phase)
    (ls : List Text) :
    declarings phase (linesFrom (Text.bytes above.flatten) ls) = readRemarked phase (remarkedFrom above ls) := by
  induction ls generalizing phase above with
  | nil => rfl
  | cons line ls ih =>
    have hnext := ih (withRemarks_readLine h (Text.bytes above.flatten) line)
    rw [bytes_flatten_concat] at hnext
    rw [linesFrom, declarings, hnext, remarkedFrom, tokensBelow, readRemarked_readLine h]

/-! ## Statements with remarks -/

/-- The tokens of a document cut at every `;`, with their remarks. -/
def remarkedStatements (t : Text) : List (List (Token × List Text)) := (remarked t).splitOnP fun n => n.1 = .stop

/-- What a statement declares, described by the remarks of its first token. -/
def declaringsOf : List (Token × List Text) → List Declaring
  | [] => []
  | (tok, remarks) :: rest => (declaredBy (tok :: rest.map Prod.fst)).map (⟨·, List.intercalate ['\n'] remarks⟩)

/-- Whether reading stands in a statement that has a description. -/
def Phase.Within (description : Text) : Phase → Prop
  | .header h => h.description = description
  | .body => True
  | .between _ => False

theorem Phase.Within.withRemarks {description : Text} {phase : Phase} (h : phase.Within description)
    (remarks : List Text) : phase.withRemarks remarks = phase := by
  cases phase with
  | between => cases h
  | header | body => rfl

theorem Header.within_read {h : Header} {tok : Token} (hstop : tok ≠ .stop) :
    (h.read tok).1.Within h.description ∧ ∀ d ∈ (h.read tok).2, d.description = h.description := by
  cases tok with
  | name site =>
    simp only [Header.read]
    split
    · exact ⟨rfl, by simp⟩
    split
    · exact ⟨rfl, by simp⟩
    split
    · exact ⟨rfl, by simp⟩
    · exact ⟨rfl, by simp⟩
  | assign => exact ⟨trivial, by simp [Header.read]⟩
  | dot | other => exact ⟨rfl, by simp [Header.read]⟩
  | stop => exact absurd rfl hstop

theorem Phase.Within.read {description : Text} {phase : Phase} (h : phase.Within description) {tok : Token}
    (hstop : tok ≠ .stop) :
    (phase.read tok).1.Within description ∧ ∀ d ∈ (phase.read tok).2, d.description = description := by
  cases phase with
  | between => cases h
  | header header =>
    obtain rfl : header.description = description := h
    exact Header.within_read hstop
  | body =>
    cases tok with
    | stop => exact absurd rfl hstop
    | name | assign | dot | other => exact ⟨trivial, by simp [Phase.read]⟩

theorem Phase.Within.readRemarked {description : Text} {phase : Phase} (h : phase.Within description)
    {ns : List (Token × List Text)} (hstop : .stop ∉ ns.map Prod.fst) :
    Source.readRemarked phase ns = (phase.readAll (ns.map Prod.fst)).2 ∧
      ∀ d ∈ (phase.readAll (ns.map Prod.fst)).2, d.description = description := by
  induction ns generalizing phase with
  | nil => exact ⟨rfl, by simp [Phase.readAll]⟩
  | cons n ns ih =>
    rw [List.map_cons, List.mem_cons, not_or] at hstop
    obtain ⟨hwithin, hfirst⟩ := h.read (Ne.symm hstop.1)
    obtain ⟨hrest, hdescription⟩ := ih hwithin hstop.2
    rw [List.map_cons, Phase.readAll, Source.readRemarked, h.withRemarks, hrest]
    refine ⟨rfl, fun d hd => ?_⟩
    rcases List.mem_append.1 hd with hd | hd
    · exact hfirst d hd
    · exact hdescription d hd

theorem Phase.read_between (remarks : List Text) {tok : Token} (hstop : tok ≠ .stop) :
    (Phase.between remarks).read tok = (Header.opening remarks).read tok := by
  cases tok with
  | stop => exact absurd rfl hstop
  | name | assign | dot | other => rfl

/-- Which places declare names does not depend on the remarks. -/
theorem map_site_readAll_between (remarks : List Text) (toks : List Token) :
    ((Phase.between remarks).readAll toks).2.map Declaring.site = declaredBy toks := by
  have hbare := Phase.readAll_bare (.between remarks) toks
  rw [declaredBy, show Phase.between [] = (Phase.between remarks).bare from rfl, hbare, bareRead, List.map_map]
  rfl

/-- A statement declares its names with the remarks of its first token. -/
theorem readRemarked_between {ns : List (Token × List Text)} (hstop : .stop ∉ ns.map Prod.fst) :
    readRemarked (.between []) ns = declaringsOf ns := by
  cases ns with
  | nil => rfl
  | cons n ns =>
    obtain ⟨tok, remarks⟩ := n
    rw [List.map_cons, List.mem_cons, not_or] at hstop
    obtain ⟨htok, hns⟩ := hstop
    have hopening := Phase.read_between remarks (Ne.symm htok)
    obtain ⟨hwithin, hfirst⟩ := @Header.within_read (Header.opening remarks) tok (Ne.symm htok)
    obtain ⟨hread, hrest⟩ := hwithin.readRemarked hns
    have hrun : readRemarked (.between []) ((tok, remarks) :: ns) =
        ((Phase.between remarks).readAll (tok :: ns.map Prod.fst)).2 := by
      rw [readRemarked, Phase.withRemarks, hopening, hread, Phase.readAll, hopening]
    have hdescription : ∀ d ∈ ((Phase.between remarks).readAll (tok :: ns.map Prod.fst)).2,
        d.description = List.intercalate ['\n'] remarks := by
      intro d hd
      rw [Phase.readAll, hopening] at hd
      rcases List.mem_append.1 hd with hd | hd
      · exact hfirst d hd
      · exact hrest d hd
    rw [hrun, declaringsOf, ← map_site_readAll_between remarks, List.map_map]
    calc ((Phase.between remarks).readAll (tok :: ns.map Prod.fst)).2
        = ((Phase.between remarks).readAll (tok :: ns.map Prod.fst)).2.map id := (List.map_id _).symm
      _ = _ := List.map_congr_left fun d hd => by rw [← hdescription d hd]; rfl

theorem readRemarked_stop (phase : Phase) (remarks : List Text) (ns : List (Token × List Text)) :
    readRemarked phase ((.stop, remarks) :: ns) = readRemarked (.between []) ns := by
  rw [readRemarked, Phase.read_stop]
  rfl

theorem exists_splitOnP_readRemarked (phase : Phase) (ns : List (Token × List Text)) :
    ∃ first rest, (ns.splitOnP fun n => n.1 = .stop) = first :: rest ∧
      readRemarked phase ns = readRemarked phase first ++ rest.flatMap (readRemarked (.between [])) := by
  induction ns generalizing phase with
  | nil => exact ⟨[], [], rfl, by simp⟩
  | cons n ns ih =>
    obtain ⟨tok, remarks⟩ := n
    rw [List.splitOnP_cons_eq_if_modifyHead]
    by_cases hstop : tok = .stop
    · obtain ⟨first, rest, hsplit, hread⟩ := ih (.between [])
      refine ⟨[], _, if_pos (by simpa using hstop), ?_⟩
      rw [hsplit, hstop, readRemarked_stop, hread]
      rfl
    · obtain ⟨first, rest, hsplit, hread⟩ := ih ((phase.withRemarks remarks).read tok).1
      refine ⟨(tok, remarks) :: first, rest, ?_, ?_⟩
      · rw [if_neg (by simpa using hstop), hsplit, List.modifyHead_cons]
      · rw [readRemarked, hread, readRemarked, List.append_assoc]

theorem exists_splitOnP_eq_cons (ns : List (Token × List Text)) :
    ∃ first rest, (ns.splitOnP fun n => n.1 = .stop) = first :: rest :=
  List.exists_cons_of_ne_nil (List.splitOnP_ne_nil _ ns)

theorem map_fst_splitOnP (ns : List (Token × List Text)) :
    (ns.splitOnP fun n => n.1 = .stop).map (List.map Prod.fst) = (ns.map Prod.fst).splitOn .stop := by
  induction ns with
  | nil => rfl
  | cons n ns ih =>
    obtain ⟨first, rest, hsplit⟩ := exists_splitOnP_eq_cons ns
    rw [List.splitOnP_cons_eq_if_modifyHead, List.map_cons, List.splitOn_cons_eq_if_modifyHead, ← ih, hsplit]
    by_cases hstop : n.1 = .stop
    · simp [hstop]
    · simp [hstop]

theorem map_fst_remarkedStatements (t : Text) : (remarkedStatements t).map (List.map Prod.fst) = statements t := by
  rw [remarkedStatements, map_fst_splitOnP, map_fst_remarked, statements]

/-- What declares a name in a document is what does in its statements, each described by the remarks of
its first token. -/
theorem declarings_eq (t : Text) :
    declarings (.between []) (lines t) = (remarkedStatements t).flatMap declaringsOf := by
  have hrun := @declarings_linesFrom (.between []) [] rfl (rawLines t)
  obtain ⟨first, rest, hsplit, hread⟩ := exists_splitOnP_readRemarked (.between []) (remarked t)
  have hstatements : (remarkedStatements t).flatMap (readRemarked (.between [])) =
      (remarkedStatements t).flatMap declaringsOf := by
    refine List.flatMap_congr fun ns hns => readRemarked_between (stop_not_mem_of_mem_statements (t := t) ?_)
    rw [← map_fst_remarkedStatements]
    exact List.mem_map_of_mem hns
  rw [← hstatements, remarkedStatements, hsplit, List.flatMap_cons, ← hread]
  exact hrun

/-- What stands before a statement. -/
theorem exists_of_splitOnP {ns S : List (Token × List Text)} {earlier later : List (List (Token × List Text))}
    (h : (ns.splitOnP fun n => n.1 = .stop) = earlier ++ S :: later) :
    ∃ before after, ns = before ++ S ++ after ∧
      before.map Prod.fst = (earlier.map (List.map Prod.fst)).flatMap (· ++ [.stop]) := by
  induction ns generalizing earlier S with
  | nil =>
    cases earlier with
    | nil =>
      rw [List.splitOnP_nil, List.nil_append, List.cons.injEq] at h
      exact ⟨[], [], by simp [← h.1], rfl⟩
    | cons e earlier => simp [List.splitOnP_nil] at h
  | cons n ns ih =>
    obtain ⟨first, rest, hsplit⟩ := exists_splitOnP_eq_cons ns
    rw [List.splitOnP_cons_eq_if_modifyHead, hsplit] at h
    by_cases hstop : n.1 = .stop
    · rw [if_pos (by simpa using hstop)] at h
      cases earlier with
      | nil =>
        rw [List.nil_append, List.cons.injEq] at h
        exact ⟨[], n :: ns, by simp [← h.1], rfl⟩
      | cons e earlier =>
        rw [List.cons_append, List.cons.injEq] at h
        obtain ⟨rfl, hrest⟩ := h
        obtain ⟨before, after, rfl, hbefore⟩ := ih (hsplit.trans hrest)
        exact ⟨n :: before, after, rfl, by simp [hstop, hbefore]⟩
    · rw [if_neg (by simpa using hstop), List.modifyHead_cons] at h
      cases earlier with
      | nil =>
        rw [List.nil_append, List.cons.injEq] at h
        obtain ⟨rfl, rfl⟩ := h
        obtain ⟨before, after, rfl, hbefore⟩ := @ih first [] hsplit
        obtain rfl : before = [] := by simpa using hbefore
        exact ⟨[], after, rfl, rfl⟩
      | cons e earlier =>
        rw [List.cons_append, List.cons.injEq] at h
        obtain ⟨rfl, rfl⟩ := h
        obtain ⟨before, after, rfl, hbefore⟩ := @ih S (first :: earlier) hsplit
        exact ⟨n :: before, after, rfl, by simp [hbefore]⟩

/-! ## The description of a declaration -/

/-- Where a statement starts: behind the statements before it, on a line below others and behind the
tokens with which earlier statements end on the line. -/
structure StartsAt (t : Text) (earlier : List (List Token)) (stmt : List Token) (above : List Text) (line : Text)
    (ended : List Token) : Prop where
  statements : ∃ later, statements t = earlier ++ stmt :: later
  lines : ∃ below, rawLines t = above ++ line :: below
  first : ∃ tok more rest, stmt = tok :: more ∧ tokensBelow above line = ended ++ tok :: rest
  behind : earlier.flatMap (· ++ [.stop]) = (linesFrom 0 above).flatMap Line.tokens ++ ended

/-- The first of each name is found first. -/
theorem find?_of_mem_firstOfEach {ds : List Declaring} {d : Declaring} (h : d ∈ firstOfEach ds) :
    (ds.find? fun e => e.site.name = d.site.name) = some d := by
  induction ds with
  | nil => cases h
  | cons e ds ih =>
    rcases List.mem_cons.1 h with rfl | h
    · exact List.find?_cons_of_pos (by simp)
    · obtain ⟨hmem, hname⟩ := List.mem_filter.1 h
      rw [List.find?_cons_of_neg (by simpa using Ne.symm (of_decide_eq_true hname))]
      exact ih hmem

theorem exists_of_mem_declaringsOf {ns : List (Token × List Text)} {d : Declaring} (h : d ∈ declaringsOf ns) :
    ∃ tok remarks rest, ns = (tok, remarks) :: rest ∧ d.site ∈ declaredBy (ns.map Prod.fst) ∧
      d.description = List.intercalate ['\n'] remarks := by
  cases ns with
  | nil => cases h
  | cons n rest =>
    obtain ⟨s, hs, rfl⟩ := List.mem_map.1 h
    exact ⟨n.1, n.2, rest, rfl, hs, rfl⟩

theorem exists_mem_declaringsOf {ns : List (Token × List Text)} {s : Site} (h : s ∈ declaredBy (ns.map Prod.fst)) :
    ∃ e ∈ declaringsOf ns, e.site = s := by
  cases ns with
  | nil => cases h
  | cons n rest => exact ⟨_, List.mem_map_of_mem h, rfl⟩

/-- **Descriptions come from the comment block right above the statement and from nowhere else.** The
statement that declares a name first starts somewhere. If it starts with the first token of a line, the
name is described by the comments of the block right above that line; if an earlier statement ends on the
line, by nothing. -/
theorem description_comes_from_block_above {t : Text} {d : Declaration} (hd : d ∈ scan t) :
    ∃ earlier stmt above line ended, StartsAt t earlier stmt above line ended ∧
      (∃ s, Declares stmt s ∧ s.name = d.name) ∧
      (∀ before ∈ earlier, ∀ s, Declares before s → s.name ≠ d.name) ∧
      d.description = if ended = [] then describe above else [] := by
  obtain ⟨e, he, rfl⟩ := List.mem_map.1 hd
  have hfind := find?_of_mem_firstOfEach he
  rw [declarings_eq, List.find?_flatMap, List.findSome?_eq_some_iff] at hfind
  obtain ⟨earlier, stmt, later, hsplit, hstmt, hearlier⟩ := hfind
  have hstatements : statements t =
      earlier.map (List.map Prod.fst) ++ stmt.map Prod.fst :: later.map (List.map Prod.fst) := by
    rw [← map_fst_remarkedStatements, hsplit, List.map_append, List.map_cons]
  have hstops : ∀ s ∈ statements t, .stop ∉ s := fun s => stop_not_mem_of_mem_statements
  rw [hstatements] at hstops
  obtain ⟨tok, remarks, rest, rfl, hsite, hdescription⟩ := exists_of_mem_declaringsOf (List.mem_of_find?_eq_some hstmt)
  obtain ⟨before, after, hremarked, hbefore⟩ := exists_of_splitOnP hsplit
  rw [remarked, List.append_assoc] at hremarked
  obtain ⟨above, line, below, ended, more, hlines, htokens, hended, hremarks⟩ := exists_of_remarkedFrom hremarked
  refine ⟨earlier.map (List.map Prod.fst), tok :: rest.map Prod.fst, above, line, ended,
    ⟨⟨_, hstatements⟩, ⟨below, hlines⟩, ⟨tok, _, more, rfl, htokens⟩, hbefore.symm.trans hended⟩,
    ⟨e.site, (mem_declaredBy_iff (hstops _ (by simp)) _).1 hsite, rfl⟩, ?_, ?_⟩
  · intro stmt hmem s hs hname
    obtain ⟨ns, hns, rfl⟩ := List.mem_map.1 hmem
    obtain ⟨f, hf, rfl⟩ := exists_mem_declaringsOf ((mem_declaredBy_iff (hstops _ (List.mem_append_left _ hmem)) _).2 hs)
    have hnone := List.find?_eq_none.1 (hearlier ns hns) f hf
    simp [hname] at hnone
  · rw [hdescription, hremarks]
    split <;> rfl

/-- A block below a blank line and with an empty comment in it. The statement behind another on a line has
no description, also not the one inside it, and the one below it has its own. -/
theorem description_of_three_statements :
    let t : Text := "* a\n\n** b \n*\n* c\nA = 1; B\n* inside\n= 2;\n* d\n C = A;".toList
    scan t = [⟨.of "A".toList, "b\nc".toList, ⟨17, 18⟩, [⟨49, 50⟩]⟩, ⟨.of "B".toList, [], ⟨24, 25⟩, []⟩,
        ⟨.of "C".toList, "d".toList, ⟨45, 46⟩, []⟩] ∧
      ∃ earlier stmt above line, StartsAt t earlier stmt above line [] ∧ (∃ s, Declares stmt s ∧ s.name = .of "A".toList) ∧
        describe above = "b\nc".toList := by
  intro t
  have hscan : scan t = [⟨.of "A".toList, "b\nc".toList, ⟨17, 18⟩, [⟨49, 50⟩]⟩, ⟨.of "B".toList, [], ⟨24, 25⟩, []⟩,
      ⟨.of "C".toList, "d".toList, ⟨45, 46⟩, []⟩] := by
    decide +kernel
  refine ⟨hscan, ?_⟩
  have hmem : ⟨.of "A".toList, "b\nc".toList, ⟨17, 18⟩, [⟨49, 50⟩]⟩ ∈ scan t := by
    rw [hscan]
    exact List.mem_cons_self
  obtain ⟨earlier, stmt, above, line, ended, hstarts, hdeclares, _, hdescription⟩ :=
    description_comes_from_block_above hmem
  -- The description is not empty, so the statement starts its line.
  obtain rfl : ended = [] := by
    by_contra hended
    rw [if_neg hended] at hdescription
    cases hdescription
  exact ⟨earlier, stmt, above, line, hstarts, hdeclares, hdescription.symm⟩

end Source
end GibianeEditor
