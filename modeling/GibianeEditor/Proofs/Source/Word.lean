/-
Sites as words of the document. Behind a name no letter, digit or underscore follows, in its line or
at its end (`name_ends`), so a site is the place of a word (`exists_wordAt_of_mem_sites`). What ends
right before a site belongs to the word of a cursor there but not to the name, and then the word
spells another name (`of_append_eq_of_iff`).
-/
import GibianeEditor.Proofs.Source.Occurrences
import GibianeEditor.Proofs.Source.RawLine
import GibianeEditor.Proofs.Text.Word

namespace GibianeEditor

namespace Unicode

theorem upperSequences_nonempty : (upperSequences.all fun e => !e.2.isEmpty) = true := by
  decide +kernel

theorem upper_ne_nil (c : Char) : upper c ≠ [] := by
  unfold upper
  split
  · simp
  · split
    · rename_i ns hns
      have h := List.all_eq_true.1 upperSequences_nonempty _ (of_sequence? hns)
      cases ns with
      | nil => simp at h
      | cons n ns => simp
    · simp

end Unicode

/-- A word with something in front of it spells another name. -/
theorem Name.of_append_eq_of_iff (before word : Text) : Name.of (before ++ word) = Name.of word ↔ before = [] := by
  rw [Name.of_eq_of_iff, Text.upper_append]
  constructor
  · intro h
    have hnil : Text.upper before = [] := by simpa using h
    cases before with
    | nil => rfl
    | cons c before => simp [Text.upper, Unicode.upper_ne_nil] at hnil
  · rintro rfl
    rfl

namespace Source

theorem Separated.of_append {ls ms : List Lexeme} (h : Separated (ls ++ ms)) : Separated ms := by
  induction ls with
  | nil => exact h
  | cons l ls ih => exact ih h.tail

/-- A name holds what may stand in a word, and what follows it in the line may not. -/
theorem Separated.name_ends {l : Lexeme} {ls : List Lexeme} (h : Separated (l :: ls)) (hk : l.kind = .name) :
    (∀ c ∈ l.text, isWordChar c = true) ∧ ∀ c ∈ (glue ls).head?, isWordChar c = false := by
  obtain ⟨⟨c, body, rfl, hext⟩, _⟩ := h
  change extend (kindOf c) (body ++ glue ls) = (body, glue ls) at hext
  change kindOf c = .name at hk
  rw [hk] at hext
  obtain ⟨hbody, hrest⟩ := takeWhile_dropWhile_eq_iff.1 hext
  refine ⟨fun d hd => ?_, hrest⟩
  rcases List.mem_cons.1 hd with rfl | hd
  · exact isWordChar_of_isNameStart ((kindOf_eq_name_iff d).1 hk)
  · exact hbody d hd

/-- What ends a line may not stand in a word. -/
theorem isWordChar_eq_false_of_mem_rawEnding {line : Text} {c : Char} (hc : c ∈ rawEnding line) :
    isWordChar c = false := by
  refine isWordChar_eq_false_of_isLineBreak ?_
  rcases eq_of_mem_rawEnding hc with rfl | rfl <;> decide

/-- A name in a line is one of the lexemes of its content. -/
theorem exists_lexemes_of_lineLayout {line : Text} {before after : List Lexeme} {l : Lexeme}
    (hsplit : lineLayout line = before ++ l :: after) (hk : l.kind = .name) :
    ∃ more, after = more ++ [⟨.blank, rawEnding line⟩] ∧ lexemes (rawContent line) = before ++ l :: more := by
  rcases List.eq_nil_or_concat' after with rfl | ⟨more, m, rfl⟩
  · obtain ⟨_, hlast⟩ := List.append_inj' hsplit rfl
    obtain rfl : (⟨.blank, rawEnding line⟩ : Lexeme) = l := by simpa using hlast
    cases hk
  · have hassoc : before ++ l :: (more ++ [m]) = (before ++ l :: more) ++ [m] := by simp
    rw [hassoc] at hsplit
    obtain ⟨hcontent, hlast⟩ := List.append_inj' hsplit rfl
    obtain rfl : (⟨.blank, rawEnding line⟩ : Lexeme) = m := by simpa using hlast
    refine ⟨more, rfl, ?_⟩
    unfold contentLayout at hcontent
    split at hcontent
    · -- A comment is one blank.
      have hmem : l ∈ [(⟨.blank, rawContent line⟩ : Lexeme)] := by rw [hcontent]; simp
      obtain rfl := List.mem_singleton.1 hmem
      cases hk
    · exact hcontent

theorem name_ends {ls : List Text} (hbroken : Broken ls) {before after : List Lexeme} {l : Lexeme}
    (hsplit : ls.flatMap lineLayout = before ++ l :: after) (hk : l.kind = .name) :
    (∀ c ∈ l.text, isWordChar c = true) ∧ ∀ c ∈ (glue after).head?, isWordChar c = false := by
  induction ls generalizing before with
  | nil => simp at hsplit
  | cons line ls ih =>
    obtain ⟨⟨body, hbody, hline⟩, hls⟩ := hbroken
    rw [List.flatMap_cons] at hsplit
    rcases List.append_eq_append_iff.1 hsplit with ⟨w, _, hrest⟩ | ⟨w, hfirst, hrest⟩
    · exact ih hls hrest
    · cases w with
      | nil => exact @ih hls [] hrest.symm
      | cons m w =>
        rw [List.cons_append] at hrest
        obtain ⟨rfl, rfl⟩ := List.cons.inj hrest
        obtain ⟨more, rfl, hlexemes⟩ := exists_lexemes_of_lineLayout hfirst hk
        have hseparated := separated_lexemes (rawContent line)
        rw [hlexemes] at hseparated
        obtain ⟨hchars, hends⟩ := hseparated.of_append.name_ends hk
        refine ⟨hchars, fun c hc => ?_⟩
        -- The next character is one of the line's content or one of its end, or there is none.
        simp only [glue_append, glue_cons, glue_nil, List.append_nil, List.append_assoc] at hc
        cases hmore : glue more with
        | cons d rest =>
          rw [hmore] at hc hends
          exact hends c (by simpa using hc)
        | nil =>
          rw [hmore, List.nil_append] at hc
          cases hending : rawEnding line with
          | cons d rest =>
            rw [hending] at hc
            obtain rfl : d = c := by simpa using hc
            exact @isWordChar_eq_false_of_mem_rawEnding line d (by simp [hending])
          | nil =>
            rcases hline with rfl | ⟨_, _, rfl⟩
            · simp [rawEnding_append_lineFeed] at hending
            · simp [hending] at hc

/-- A site is the place of a word that spells the site's name. -/
theorem exists_wordAt_of_mem_sites {t : Text} {s : Site} (hs : s ∈ sites t) :
    ∃ before word after, t.WordAt s.span before word after ∧ Name.of word = s.name := by
  rw [sites_eq_sitesFrom] at hs
  obtain ⟨before, l, after, hsplit, hk, rfl⟩ := exists_of_mem_sitesFrom hs
  have hl : l ∈ layout t := by rw [hsplit]; simp
  obtain ⟨content, hl⟩ := exists_lexemes_of_mem_layout hl hk
  obtain ⟨hchars, hends⟩ := name_ends (broken_rawLines t) hsplit hk
  refine ⟨glue before, l.text, glue after, ⟨?_, by simp, text_ne_nil_of_mem_lexemes hl, hchars, hends⟩, rfl⟩
  rw [← flatMap_text_layout t, hsplit]
  simp

theorem exists_wordAt_of_mem_spans {t : Text} {d : Declaration} (hd : d ∈ scan t) {span : Span}
    (hspan : span ∈ d.span :: d.uses) :
    ∃ before word after, t.WordAt span before word after ∧ Name.of word = d.name := by
  obtain ⟨s, hs, hname, rfl⟩ := exists_site_of_mem_spans hd hspan
  rw [← hname]
  exact exists_wordAt_of_mem_sites hs

/-- A word that spells a declared name is one of its recorded places if it is an identifier, and not in
a comment, a string or a number. -/
theorem mem_spans_iff {t before word after : Text} {span : Span} (hword : t.WordAt span before word after)
    {d : Declaration} (hd : d ∈ scan t) (hname : Name.of word = d.name) :
    span ∈ d.span :: d.uses ↔ span ∈ identifiers t := by
  rw [(perm_named hd).mem_iff, ← filter_identifiers, List.mem_filter, hword.slice?, ← hname]
  simp

end Source
end GibianeEditor
