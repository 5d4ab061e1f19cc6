/-
Text behind a document. Behind a line feed the lines of the document stay as they are, and those of the
text follow with their places further on (`lines_append_of_ended`). Reading goes on where it stands
(`declarings_append`), and a name is declared where it is declared first (`firstOfEach_append`). So nothing
that is declared is revised; and where the document ends behind a statement and without a comment, reading
starts afresh (`Concluded.readLines`), so the text adds what it declares by itself.
-/
import Mathlib.Data.List.DropRight
import GibianeEditor.Proofs.Source.Declared
import GibianeEditor.Proofs.Source.RawLine

namespace GibianeEditor

/-- A span so many bytes further on. -/
def Span.later (n : Nat) (span : Span) : Span := ⟨n + span.start, n + span.stop⟩

theorem Span.later_injective (n : Nat) : Function.Injective (Span.later n) := by
  intro a b h
  obtain ⟨start, stop⟩ := a
  obtain ⟨start', stop'⟩ := b
  simp only [later, mk.injEq] at h ⊢
  omega

namespace Source

/-! ## Lines of text behind a document -/

theorem rawLines_append_of_ended {t : Text} (hended : ∀ c ∈ t.getLast?, c = '\n') (u : Text) :
    rawLines (t ++ u) = rawLines t ++ rawLines u := by
  induction t with
  | nil => rfl
  | cons c t ih =>
    cases t with
    | nil =>
      obtain rfl : c = '\n' := hended c rfl
      simp [rawLines]
    | cons d t =>
      have ih := ih hended
      by_cases hc : c = '\n'
      · rw [hc, List.cons_append, rawLines, if_pos rfl, ih]
        simp [rawLines]
      · obtain ⟨line, ls, hlines⟩ : ∃ line ls, rawLines (d :: t) = line :: ls := by
          refine List.exists_cons_of_ne_nil fun hnil => ?_
          have hflat := flatten_rawLines (d :: t)
          rw [hnil] at hflat
          cases hflat
        rw [hlines] at ih
        exact (rawLines_cons hc ih).trans (by rw [rawLines_cons hc hlines]; rfl)

theorem linesFrom_append (offset : Nat) (xs ys : List Text) :
    linesFrom offset (xs ++ ys) = linesFrom offset xs ++ linesFrom (offset + Text.bytes xs.flatten) ys := by
  induction xs generalizing offset with
  | nil => rfl
  | cons line xs ih =>
    simp only [List.cons_append, linesFrom, ih, List.flatten_cons, Text.bytes, Text.extent_append, Nat.add_assoc]

theorem tokensFrom_later (n offset : Nat) (ls : List Lexeme) :
    tokensFrom (n + offset) ls = (tokensFrom offset ls).map (Token.relocate id (Span.later n)) := by
  induction ls generalizing offset with
  | nil => rfl
  | cons l ls ih =>
    have hrest := ih (offset + Text.bytes l.text)
    rw [← Nat.add_assoc] at hrest
    cases hk : l.kind with
    | name =>
      simp only [tokensFrom, hk, hrest, List.map_cons, Token.relocate, Site.relocate, Span.later, id, ← Nat.add_assoc]
    | blank | number | quoted | assign | dot | stop | mark =>
      simp only [tokensFrom, hk, hrest, List.map_cons, Token.relocate]

theorem read_later (n offset : Nat) (content : Text) :
    Line.read (n + offset) content = (Line.read offset content).relocate id (Span.later n) := by
  unfold Line.read
  split
  · rfl
  split
  · rfl
  · rw [tokensFrom_later]
    rfl

theorem linesFrom_later (n offset : Nat) (ls : List Text) :
    linesFrom (n + offset) ls = (linesFrom offset ls).map (Line.relocate id (Span.later n)) := by
  induction ls generalizing offset with
  | nil => rfl
  | cons line ls ih =>
    have hrest := ih (offset + line.bytes)
    rw [← Nat.add_assoc] at hrest
    simp only [linesFrom, read_later, hrest, List.map_cons]

section

variable {t : Text} (hended : ∀ c ∈ t.getLast?, c = '\n') (u : Text)
include hended

theorem lines_append_of_ended :
    lines (t ++ u) = lines t ++ (lines u).map (Line.relocate id (Span.later t.bytes)) := by
  have hlater := linesFrom_later t.bytes 0 (rawLines u)
  rw [lines, rawLines_append_of_ended hended, linesFrom_append, flatten_rawLines, Nat.zero_add]
  rw [Nat.add_zero] at hlater
  rw [hlater]
  rfl

theorem sites_append_of_ended :
    sites (t ++ u) = sites t ++ (sites u).map (Site.relocate id (Span.later t.bytes)) := by
  simp only [sites, lines_append_of_ended hended, List.flatMap_append, List.flatMap_map, sites_relocate,
    List.map_flatMap]

theorem named_append_of_ended (name : Name) :
    named name (t ++ u) = named name t ++ (named name u).map (Span.later t.bytes) := by
  simp only [named, sites_append_of_ended hended, List.filter_append, List.map_append, List.filter_map, List.map_map]
  rfl

end

/-! ## Reading on -/

/-- Where reading stands behind lines. -/
def Phase.readLines (phase : Phase) (ls : List Line) : Phase := ls.foldl (fun phase line => (phase.readLine line).1) phase

theorem declarings_append (phase : Phase) (xs ys : List Line) :
    declarings phase (xs ++ ys) = declarings phase xs ++ declarings (phase.readLines xs) ys := by
  induction xs generalizing phase with
  | nil => rfl
  | cons line xs ih =>
    rw [List.cons_append, declarings, declarings, ih, List.append_assoc]
    rfl

/-- What is declared first stays; of what follows, the names that are new. -/
theorem firstOfEach_append (ds es : List Declaring) :
    firstOfEach (ds ++ es) =
      firstOfEach ds ++ (firstOfEach es).filter fun e => e.site.name ∉ ds.map (·.site.name) := by
  induction ds with
  | nil => simp [firstOfEach]
  | cons d ds ih =>
    simp only [List.cons_append, firstOfEach, ih, List.filter_append, List.filter_filter]
    congr 2
    refine List.filter_congr fun e _ => ?_
    simp [not_or]

/-! ## Documents that end behind a statement -/

/-- The lines behind the last token of a document. -/
def closingLines (t : Text) : List Line := (lines t).rtakeWhile fun line => line.tokens.isEmpty

/-- Whether the last token of a document is a stop, and no comment follows it. -/
structure Concluded (t : Text) : Prop where
  stop : (tokens t).getLast? = some .stop
  silent : ∀ remark, .comment remark ∉ closingLines t

theorem Phase.readAll_stop (phase : Phase) {toks : List Token} (h : toks.getLast? = some .stop) :
    (phase.readAll toks).1 = .between [] := by
  obtain ⟨toks, rfl⟩ := List.getLast?_eq_some_iff.1 h
  rw [Phase.readAll_append]
  exact congrArg Prod.fst (Phase.read_stop _)

/-- Behind a stop reading stands before a statement, and lines without tokens that are no comments leave it
there. -/
theorem Phase.readLines_stop (phase : Phase) {ls : List Line} (hstop : (ls.flatMap Line.tokens).getLast? = some .stop)
    (hsilent : ∀ remark, .comment remark ∉ ls.rtakeWhile fun line => line.tokens.isEmpty) :
    phase.readLines ls = .between [] := by
  induction ls using List.reverseRecOn with
  | nil => cases hstop
  | append_singleton ls line ih =>
    have hlast : phase.readLines (ls ++ [line]) = ((phase.readLines ls).readLine line).1 := List.foldl_append
    rw [hlast]
    rw [List.flatMap_append, List.flatMap_singleton] at hstop
    cases htokens : line.tokens with
    | cons tok toks =>
      obtain ⟨rfl⟩ : line = .code (tok :: toks) := by
        cases line with
        | code => rw [← htokens]; rfl
        | comment | blank => cases htokens
      rw [htokens, List.getLast?_append_of_ne_nil _ (by simp)] at hstop
      exact Phase.readAll_stop _ hstop
    | nil =>
      rw [htokens, List.append_nil] at hstop
      rw [List.rtakeWhile_concat_pos _ _ _ (by simp [htokens])] at hsilent
      rw [ih hstop fun remark h => hsilent remark (List.mem_append_left _ h)]
      cases line with
      | comment remark => exact absurd (List.mem_append_right _ List.mem_cons_self) (hsilent remark)
      | blank => rfl
      | code toks =>
        obtain rfl : toks = [] := htokens
        rfl

theorem Concluded.readLines {t : Text} (h : Concluded t) (phase : Phase) : phase.readLines (lines t) = .between [] := by
  refine Phase.readLines_stop phase ?_ h.silent
  rw [← tokens_eq]
  exact h.stop

/-! ## Declarations of text behind a document -/

/-- What a declaring site comes to in a document. -/
def declarationIn (t : Text) (d : Declaring) : Declaration :=
  ⟨d.site.name, d.description, d.site.span, usesOf d.site (sites t)⟩

theorem scan_eq (t : Text) : scan t = (firstOfEach (declarings (.between []) (lines t))).map (declarationIn t) := rfl

/-- A declaration of a document with the uses that text behind the document adds to it. -/
def Declaration.continued (t u : Text) (d : Declaration) : Declaration :=
  { d with uses := d.uses ++ (named d.name u).map (Span.later t.bytes) }

/-- A declaration of a text in the document that the text stands behind. Where the document has the name it is
used before it is declared. -/
def Declaration.behind (t : Text) (d : Declaration) : Declaration :=
  ⟨d.name, d.description, d.span.later t.bytes, named d.name t ++ d.uses.map (Span.later t.bytes)⟩

theorem span_of_mem_named {t : Text} {name : Name} {span : Span} (h : span ∈ named name t) :
    span.start < span.stop ∧ span.stop ≤ t.bytes := by
  obtain ⟨s, hs, rfl⟩ := List.mem_map.1 h
  have hs := List.mem_of_mem_filter hs
  obtain ⟨word, hword, _⟩ := slice?_of_mem_sites hs
  obtain ⟨before, after, ht, hspan⟩ := Text.slice?_eq_some_iff.1 hword
  refine ⟨start_lt_stop_of_mem_sites hs, ?_⟩
  rw [hspan, ht]
  simp only [Text.bytes, Text.extent_append]
  omega

section

variable {t : Text} (hended : ∀ c ∈ t.getLast?, c = '\n') (u : Text)
include hended

theorem declarationIn_append {d : Declaring} (hd : d.site ∈ sites t) :
    declarationIn (t ++ u) d = (declarationIn t d).continued t u := by
  have hspan : d.site.span ∈ named d.site.name t := List.mem_map.2 ⟨d.site, List.mem_filter.2 ⟨hd, by simp⟩, rfl⟩
  have hplace := span_of_mem_named hspan
  have hlater : ((named d.site.name u).map (Span.later t.bytes)).filter (fun span => span ≠ d.site.span) =
      (named d.site.name u).map (Span.later t.bytes) := by
    refine List.filter_eq_self.2 fun span h => decide_eq_true fun heq => ?_
    obtain ⟨span, _, rfl⟩ := List.mem_map.1 h
    have hstart := congrArg Span.start heq
    simp only [Span.later] at hstart
    omega
  simp only [declarationIn, Declaration.continued, usesOf_eq, named_append_of_ended hended, List.filter_append, hlater]

theorem declarationIn_later (d : Declaring) :
    declarationIn (t ++ u) (d.relocate id (Span.later t.bytes)) = (declarationIn u d).behind t := by
  have hbefore : (named d.site.name t).filter (fun span => span ≠ d.site.span.later t.bytes) = named d.site.name t := by
    refine List.filter_eq_self.2 fun span h => decide_eq_true ?_
    rintro rfl
    have := span_of_mem_named h
    simp only [Span.later] at this
    omega
  have hlater : ((named d.site.name u).map (Span.later t.bytes)).filter (fun span => span ≠ d.site.span.later t.bytes) =
      ((named d.site.name u).filter fun span => span ≠ d.site.span).map (Span.later t.bytes) := by
    rw [List.filter_map]
    congr 1
    refine List.filter_congr fun span _ => ?_
    simp [(Span.later_injective t.bytes).eq_iff]
  simp only [declarationIn, Declaration.behind, Declaring.relocate, Site.relocate, usesOf_eq,
    named_append_of_ended hended, List.filter_append, hbefore, hlater, id]

/-- **Text behind a document never disturbs what is declared.** Behind a line feed, what the document declares
comes first, the same but for the uses that the text adds behind the others. If the document ends behind a
statement and without a comment, what follows is what the text declares by itself, without the names that the
document declares, and as much further on as the document is long. -/
theorem appended_text_disturbs_nothing :
    ∃ further, scan (t ++ u) = (scan t).map (Declaration.continued t u) ++ further ∧
      (Concluded t →
        further = ((scan u).filter fun d => d.name ∉ (scan t).map Declaration.name).map (Declaration.behind t)) := by
  have hnew := firstOfEach_append (declarings (.between []) (lines t))
    (declarings ((Phase.between []).readLines (lines t)) ((lines u).map (Line.relocate id (Span.later t.bytes))))
  rw [scan_eq (t ++ u), lines_append_of_ended hended, declarings_append, hnew, List.map_append]
  refine ⟨_, congrArg (· ++ _) ?_, fun hconcluded => ?_⟩
  · rw [scan_eq t, List.map_map]
    refine List.map_congr_left fun d hd => ?_
    exact declarationIn_append hended u (site_mem_of_mem_declarings ((firstOfEach_sublist _).subset hd))
  · have hafresh : declarings (.between []) ((lines u).map (Line.relocate id (Span.later t.bytes))) =
        (declarings (.between []) (lines u)).map (Declaring.relocate id (Span.later t.bytes)) :=
      declarings_relocate (fun _ => rfl) (.between []) (lines u)
    have hfirst : firstOfEach ((declarings (.between []) (lines u)).map (Declaring.relocate id (Span.later t.bytes))) =
        (firstOfEach (declarings (.between []) (lines u))).map (Declaring.relocate id (Span.later t.bytes)) :=
      firstOfEach_relocate _ fun _ _ _ _ h => h
    have hnames : ∀ name : Name, name ∈ (scan t).map Declaration.name ↔
        name ∈ (declarings (.between []) (lines t)).map (·.site.name) := by
      intro name
      rw [scan_eq, List.map_map, List.mem_map, List.mem_map]
      exact exists_mem_firstOfEach_iff _ name
    rw [hconcluded.readLines, hafresh, hfirst, scan_eq u, List.filter_map, List.filter_map, List.map_map, List.map_map]
    refine congrArg₂ List.map (funext (declarationIn_later hended u)) (List.filter_congr fun d _ => ?_)
    simp only [Function.comp_apply, hnames]
    rfl

end

/-- A document that uses a name which text behind it declares, with a blank line behind its last statement; the
text also assigns what the document declares. -/
theorem appended_text_declares_used_name :
    let t := "* a\nA = B;\n\n".toList
    let u := "A = 2;\n* b\nB = A;\n".toList
    (∀ c ∈ t.getLast?, c = '\n') ∧ Concluded t ∧
      ∃ further, scan (t ++ u) = (scan t).map (Declaration.continued t u) ++ further ∧
        further = [⟨.of "B".toList, "b".toList, ⟨23, 24⟩, [⟨8, 9⟩]⟩] := by
  intro t u
  have hended : ∀ c ∈ t.getLast?, c = '\n' := by simp [t]
  have hclosing : closingLines t = [.blank] := by decide +kernel
  have hconcluded : Concluded t := by
    refine ⟨by decide +kernel, fun remark h => ?_⟩
    rw [hclosing] at h
    cases List.mem_singleton.1 h
  obtain ⟨further, hscan, hfurther⟩ := appended_text_disturbs_nothing hended u
  refine ⟨hended, hconcluded, further, hscan, ?_⟩
  rw [hfurther hconcluded]
  decide +kernel

end Source
end GibianeEditor
