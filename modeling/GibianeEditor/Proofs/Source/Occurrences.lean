/-
The scanner records every occurrence of a declared name once. What declares a name is one of the
document's sites (`site_mem_of_mem_declarings`), the sites of a name are its declaration and its
uses (`perm_named`), and sites do not meet: so the spans of a declaration in document order are the
occurrences of its name (`scan_records_every_occurrence`).
-/
import Mathlib.Data.List.Nodup
import Mathlib.Data.List.Pairwise
import GibianeEditor.Proofs.Source.Layout
import GibianeEditor.Proofs.Text.Span
import GibianeEditor.Source.Declaration

namespace GibianeEditor.Source

/-! ## What declares a name -/

/-- The site of a name. -/
def Token.site? : Token → Option Site
  | .name site => some site
  | _ => none

theorem sites_code (tokens : List Token) : (Line.code tokens).sites = tokens.filterMap Token.site? := rfl

/-- The sites that an `=` would declare. -/
def Phase.pending : Phase → List Site
  | .header statement => statement.names
  | _ => []

variable {P : Site → Prop}

/-- A property of the names read so far that the next name has too is one of all that is pending or
declared then. -/
theorem Header.read_sites {header : Header} {token : Token} (hnames : ∀ s ∈ header.names, P s)
    (htoken : ∀ s, token.site? = some s → P s) :
    (∀ s ∈ (header.read token).1.pending, P s) ∧ ∀ d ∈ (header.read token).2, P d.site := by
  cases token with
  | name site =>
    have hsite := htoken site rfl
    simp only [Header.read]
    split
    · exact ⟨hnames, by simpa using hsite⟩
    split
    · exact ⟨by simpa [Phase.pending] using hsite, by simp⟩
    split
    · exact ⟨hnames, by simp⟩
    · refine ⟨fun s hs => ?_, by simp⟩
      rcases List.mem_append.1 hs with hs | hs
      · exact hnames s hs
      · rw [List.mem_singleton.1 hs]
        exact hsite
  | assign =>
    refine ⟨by simp [Header.read, Phase.pending], fun d hd => ?_⟩
    obtain ⟨s, hs, rfl⟩ := List.mem_map.1 hd
    exact hnames s hs
  | dot => exact ⟨hnames, by simp [Header.read]⟩
  | stop => exact ⟨by simp [Header.read, Phase.pending], by simp [Header.read]⟩
  | other => exact ⟨hnames, by simp [Header.read]⟩

theorem Phase.read_sites {phase : Phase} {token : Token} (hpending : ∀ s ∈ phase.pending, P s)
    (htoken : ∀ s, token.site? = some s → P s) :
    (∀ s ∈ (phase.read token).1.pending, P s) ∧ ∀ d ∈ (phase.read token).2, P d.site := by
  cases phase with
  | between remarks =>
    have hopening : ∀ s ∈ (Header.opening remarks).names, P s := by simp [Header.opening]
    have h := Header.read_sites hopening htoken
    cases token with
    | stop => exact ⟨by simp [Phase.read, Phase.pending], by simp [Phase.read]⟩
    | name | assign | dot | other => exact h
  | header statement => exact Header.read_sites hpending htoken
  | body => cases token <;> exact ⟨by simp [Phase.read, Phase.pending], by simp [Phase.read]⟩

theorem Phase.readAll_sites {phase : Phase} {tokens : List Token} (hpending : ∀ s ∈ phase.pending, P s)
    (htokens : ∀ s ∈ tokens.filterMap Token.site?, P s) :
    (∀ s ∈ (phase.readAll tokens).1.pending, P s) ∧ ∀ d ∈ (phase.readAll tokens).2, P d.site := by
  induction tokens generalizing phase with
  | nil => exact ⟨hpending, by simp [Phase.readAll]⟩
  | cons token tokens ih =>
    have htoken : ∀ s, token.site? = some s → P s := fun s hs =>
      htokens s (List.mem_filterMap.2 ⟨token, by simp, hs⟩)
    have hfirst := Phase.read_sites hpending htoken
    have hrest := ih hfirst.1 fun s hs => htokens s (by
      obtain ⟨tok, htok, hs⟩ := List.mem_filterMap.1 hs
      exact List.mem_filterMap.2 ⟨tok, by simp [htok], hs⟩)
    simp only [Phase.readAll, List.mem_append]
    exact ⟨hrest.1, fun d hd => hd.elim (hfirst.2 d) (hrest.2 d)⟩

theorem Phase.readLine_sites {phase : Phase} {line : Line} (hpending : ∀ s ∈ phase.pending, P s)
    (hline : ∀ s ∈ line.sites, P s) :
    (∀ s ∈ (phase.readLine line).1.pending, P s) ∧ ∀ d ∈ (phase.readLine line).2, P d.site := by
  cases line with
  | code tokens => exact Phase.readAll_sites hpending hline
  | comment | blank =>
    cases phase with
    | between remarks => exact ⟨by simp [Phase.readLine, Phase.pending], by simp [Phase.readLine]⟩
    | header | body => exact ⟨hpending, by simp [Phase.readLine]⟩

theorem declarings_sites {phase : Phase} {ls : List Line} (hpending : ∀ s ∈ phase.pending, P s)
    (hlines : ∀ s ∈ ls.flatMap Line.sites, P s) : ∀ d ∈ declarings phase ls, P d.site := by
  induction ls generalizing phase with
  | nil => simp [declarings]
  | cons line ls ih =>
    rw [List.flatMap_cons] at hlines
    have hfirst := Phase.readLine_sites hpending fun s hs => hlines s (List.mem_append_left _ hs)
    intro d hd
    rcases List.mem_append.1 hd with hd | hd
    · exact hfirst.2 d hd
    · exact ih hfirst.1 (fun s hs => hlines s (List.mem_append_right _ hs)) d hd

/-- What declares a name is a site of the document. -/
theorem site_mem_of_mem_declarings {t : Text} {d : Declaring} (hd : d ∈ declarings (.between []) (lines t)) :
    d.site ∈ sites t :=
  declarings_sites (P := (· ∈ sites t)) (by simp [Phase.pending]) (fun _ hs => hs) d hd

/-- A declaration comes from a site of the document. -/
theorem exists_site_of_mem_scan {t : Text} {d : Declaration} (hd : d ∈ scan t) :
    ∃ s ∈ sites t, d.name = s.name ∧ d.span = s.span ∧ d.uses = usesOf s (sites t) := by
  obtain ⟨e, he, rfl⟩ := List.mem_map.1 hd
  exact ⟨e.site, site_mem_of_mem_declarings ((firstOfEach_sublist _).subset he), rfl, rfl, rfl⟩

theorem nodup_names_scan (t : Text) : ((scan t).map Declaration.name).Nodup := by
  have h := nodup_names_firstOfEach (declarings (.between []) (lines t))
  simpa [scan, Function.comp_def] using h

/-! ## The sites of a name -/

/-- Where a name stands in the code of a document. -/
def named (name : Name) (t : Text) : List Span := ((sites t).filter fun s => s.name = name).map Site.span

theorem precedes_sites (t : Text) : ((sites t).map Site.span).Pairwise Span.Precedes := by
  rw [List.pairwise_map]
  exact (pairwise_sites t).imp_of_mem fun ha _ h => .of_stop_le (start_lt_stop_of_mem_sites ha) h

theorem precedes_named (name : Name) (t : Text) : (named name t).Pairwise Span.Precedes :=
  (precedes_sites t).sublist (List.filter_sublist.map _)

theorem nodup_named (name : Name) (t : Text) : (named name t).Nodup := (precedes_named name t).imp And.right

theorem apart_of_mem_sites {t : Text} {a b : Site} (ha : a ∈ sites t) (hb : b ∈ sites t) (hne : a ≠ b) :
    a.span.Apart b.span := by
  have hsymm : Std.Symm fun a b : Site => a.span.Apart b.span := ⟨fun _ _ => Or.symm⟩
  have h : (sites t).Pairwise fun a b => a.span.Apart b.span := (pairwise_sites t).imp .inl
  exact h.forall ha hb hne

theorem apart_named (name : Name) (t : Text) : (named name t).Pairwise Span.Apart := by
  have h : ((sites t).map Site.span).Pairwise Span.Apart := by
    rw [List.pairwise_map]
    exact (pairwise_sites t).imp .inl
  exact h.sublist (List.filter_sublist.map _)

theorem usesOf_eq (s : Site) (t : Text) : usesOf s (sites t) = (named s.name t).filter fun span => span ≠ s.span := by
  simp only [usesOf, named, List.filter_map, List.filter_filter]
  congr 1
  refine List.filter_congr fun r _ => ?_
  simp [Bool.and_comm]

/-- The declaration and the uses of a name are its sites. -/
theorem perm_named {t : Text} {d : Declaration} (hd : d ∈ scan t) : (d.span :: d.uses).Perm (named d.name t) := by
  obtain ⟨s, hs, hname, hspan, huses⟩ := exists_site_of_mem_scan hd
  have hmem : s.span ∈ named s.name t := List.mem_map.2 ⟨s, List.mem_filter.2 ⟨hs, by simp⟩, rfl⟩
  rw [hspan, huses, hname, usesOf_eq]
  refine List.Perm.trans ?_ (List.perm_cons_erase hmem).symm
  rw [(nodup_named s.name t).erase_eq_filter]
  exact List.Perm.of_eq (by simp [bne, beq_eq_decide])

theorem exists_site_of_mem_spans {t : Text} {d : Declaration} (hd : d ∈ scan t) {span : Span}
    (hspan : span ∈ d.span :: d.uses) : ∃ s ∈ sites t, s.name = d.name ∧ s.span = span := by
  obtain ⟨s, hs, rfl⟩ := List.mem_map.1 ((perm_named hd).subset hspan)
  obtain ⟨hs, hname⟩ := List.mem_filter.1 hs
  exact ⟨s, hs, by simpa using hname, rfl⟩

/-! ## The lines a site is read from -/

theorem exists_of_mem_contentsFrom {offset : Nat} {ls : List Text} {line : Nat × Text}
    (h : line ∈ contentsFrom offset ls) :
    ∃ before after : Text, ls.flatten = before ++ line.2 ++ after ∧ line.1 = offset + before.bytes := by
  induction ls generalizing offset with
  | nil => simp [contentsFrom] at h
  | cons l ls ih =>
    rcases List.mem_cons.1 h with rfl | h
    · exact ⟨[], rawEnding l ++ ls.flatten, by simp [← List.append_assoc], rfl⟩
    · obtain ⟨before, after, hflat, hoffset⟩ := ih h
      refine ⟨l ++ before, after, by simp [hflat], ?_⟩
      simp only [hoffset, Text.bytes, Text.extent_append, Nat.add_assoc]

/-- A line stands in the document at its offset. -/
theorem slice?_of_mem_contents {t : Text} {line : Nat × Text} (h : line ∈ contents t) :
    t.slice? ⟨line.1, line.1 + line.2.bytes⟩ = some line.2 := by
  obtain ⟨before, after, hflat, hoffset⟩ := exists_of_mem_contentsFrom h
  rw [flatten_rawLines] at hflat
  exact Text.slice?_eq_some_iff.2 ⟨before, after, hflat, by simp [hoffset]⟩

/-- The places of the names among the lexemes of all lines that are no comments. -/
def identifiers (t : Text) : List Span :=
  ((contents t).filter fun line => line.2.head? ≠ some '*').flatMap fun line =>
    ((tokensFrom line.1 (lexemes line.2)).filterMap Token.site?).map Site.span

theorem identifiers_eq (t : Text) : identifiers t = (sites t).map Site.span := by
  unfold identifiers sites
  rw [lines_eq_map_contents]
  induction contents t with
  | nil => rfl
  | cons line ls ih =>
    have hread := sites_read line.1 line.2
    have hcode := sites_code_tokensFrom line.1 (lexemes line.2)
    rw [sites_code] at hcode
    simp only [List.map_cons, List.flatMap_cons, List.map_append, hread, List.filter_cons]
    by_cases hstar : line.2.head? = some '*'
    · simpa [hstar, contentLayout, sitesFrom] using ih
    · simpa [hstar, contentLayout, hcode] using ih

/-- The identifiers whose text spells a name are its sites. -/
theorem filter_identifiers (name : Name) (t : Text) :
    ((identifiers t).filter fun span => (t.slice? span).map Text.upper = some name.letters) = named name t := by
  rw [identifiers_eq, named, List.filter_map]
  congr 1
  refine List.filter_congr fun s hs => ?_
  obtain ⟨word, hword, hname⟩ := slice?_of_mem_sites hs
  have hiff : word.upper = name.letters ↔ s.name = name := by
    rw [← hname]
    exact ⟨fun h => Name.ext h, fun h => congrArg Name.letters h⟩
  simp [hword, hiff]

/-- What a declaration owes its document: its spans in document order are the identifiers that spell
its name, and the uses are in this order without the declaration. -/
structure Declaration.Records (d : Declaration) (t : Text) : Prop where
  every : (d.span :: d.uses).mergeSort Span.before =
    (identifiers t).filter fun span => (t.slice? span).map Text.upper = some d.name.letters
  increasing : d.uses.Pairwise Span.Precedes
  declared : d.span ∉ d.uses
  spelled : ∀ span ∈ d.span :: d.uses, (t.slice? span).map Text.upper = some d.name.letters

theorem records_of_mem_scan {t : Text} {d : Declaration} (hd : d ∈ scan t) : d.Records t := by
  obtain ⟨s, hs, hname, hspan, huses⟩ := exists_site_of_mem_scan hd
  refine ⟨?_, ?_, ?_, fun span hmem => ?_⟩
  · rw [filter_identifiers]
    exact Span.mergeSort_eq (perm_named hd) (precedes_named d.name t)
  · rw [huses, usesOf_eq]
    exact (precedes_named _ t).sublist List.filter_sublist
  · rw [huses, usesOf_eq, hspan]
    simp
  · obtain ⟨r, hr, hrname, rfl⟩ := exists_site_of_mem_spans hd hmem
    obtain ⟨word, hword, hwname⟩ := slice?_of_mem_sites hr
    rw [hword, ← hrname, ← hwname]
    rfl

theorem apart_spans_scan (t : Text) : ((scan t).flatMap fun d => d.span :: d.uses).Pairwise Span.Apart := by
  rw [List.pairwise_flatMap]
  refine ⟨fun d hd => ?_, ?_⟩
  · exact ((perm_named hd).pairwise_iff (fun {_ _} => Or.symm)).2 (apart_named d.name t)
  · have hnames := List.pairwise_map.1 (nodup_names_scan t)
    refine hnames.imp_of_mem fun hd he hne x hx y hy => ?_
    obtain ⟨r, hr, hrname, rfl⟩ := exists_site_of_mem_spans hd hx
    obtain ⟨s, hs, hsname, rfl⟩ := exists_site_of_mem_spans he hy
    refine apart_of_mem_sites hr hs ?_
    rintro rfl
    exact hne (hrname.symm.trans hsname)

/-- **The scanner records every occurrence of a declared name exactly once.** A line is read at its
place in the text, and the place of a name cuts the line where the name stands; no two declarations
have one name; each holds the identifiers that spell its name; and no recorded spans meet. -/
theorem scan_records_every_occurrence (t : Text) :
    (∀ line ∈ contents t, t.slice? ⟨line.1, line.1 + line.2.bytes⟩ = some line.2 ∧
      ∀ s ∈ (Line.read line.1 line.2).sites, line.1 ≤ s.span.start ∧
        (line.2.slice? ⟨s.span.start - line.1, s.span.stop - line.1⟩).map Name.of = some s.name) ∧
    (identifiers t).Pairwise Span.Precedes ∧
    ((scan t).map Declaration.name).Nodup ∧
    (∀ d ∈ scan t, d.Records t) ∧
    ((scan t).flatMap fun d => d.span :: d.uses).Pairwise Span.Apart := by
  refine ⟨fun line hline => ⟨slice?_of_mem_contents hline, fun s hs => ?_⟩, ?_, nodup_names_scan t,
    fun d hd => records_of_mem_scan hd, apart_spans_scan t⟩
  · rw [sites_read] at hs
    obtain ⟨word, hword, hname⟩ := slice?_of_mem_sitesFrom hs
    rw [glue_contentLayout] at hword
    exact ⟨le_start_of_mem_sitesFrom hs, by rw [hword, ← hname]; rfl⟩
  · rw [identifiers_eq]
    exact precedes_sites t

end GibianeEditor.Source
