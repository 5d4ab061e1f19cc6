/-
A printed table can be read back. The name of a variable has no blank and no line feed in it, for no upper
case of a letter, a digit or an underscore has one (`not_mem_letters_of_mark`), and a line feed of a description is
printed as a blank. So every variable has one line, and a reader that goes from left to right finds in it
what was printed, whatever the description looks like (`read?_listed`). The lines come in the order of the
table behind one with their number (`listing_reads_back`).
-/
import GibianeEditor.Proofs.Source.Word
import GibianeEditor.Proofs.Symbol.Query
import GibianeEditor.Symbol.Listing
import GibianeEditor.Text.Pieces

namespace GibianeEditor

/-! ## Characters of names -/

namespace Unicode

theorem upperRuns_bounded : (upperRuns.all fun run => Nat.ble 65 run.image) = true := by
  decide +kernel

theorem upperSequences_bounded : (upperSequences.all fun e => e.2.all (Nat.ble 65)) = true := by
  decide +kernel

/-- A character of an upper case is the character itself, or one behind the marks of ASCII. -/
theorem eq_or_le_of_mem_upper {c d : Char} (h : d ∈ upper c) : d = c ∨ 65 ≤ d.toNat := by
  have hfixed := upper_of_mem_upper h
  unfold upper at h
  split at h
  · rename_i n hn
    obtain rfl := List.mem_singleton.1 h
    obtain ⟨run, hrun, h1, h2, _, hm⟩ := CaseRun.of_image? hn
    have hbound := List.all_eq_true.1 upperRuns_bounded run hrun
    have hencodable := List.all_eq_true.1 upperRuns_apart run hrun
    simp only [Bool.and_eq_true, CaseRun.encodable, Bool.or_eq_true, Nat.blt_eq, Nat.ble_eq] at hbound hencodable
    have hval : (Char.ofNat n).toNat = n := toNat_ofNat (by omega)
    exact .inr (by omega)
  · split at h
    · rename_i ns hns
      obtain ⟨n, hn, rfl⟩ := List.mem_map.1 h
      have hbound := List.all_eq_true.1 (List.all_eq_true.1 upperSequences_bounded _ (of_sequence? hns)) n hn
      have hspared := List.all_eq_true.1 (List.all_eq_true.1 upperSequences_spared _ (of_sequence? hns)) n hn
      simp only [Bool.and_eq_true, Nat.blt_eq, Nat.ble_eq] at hbound hspared
      have hval : (Char.ofNat n).toNat = n := toNat_ofNat (by omega)
      exact .inr (by omega)
    · exact .inl (List.mem_singleton.1 h)

end Unicode

/-- What spells the name of a word has only characters of the word and letters behind the marks of ASCII. -/
theorem not_mem_upper_of_mark {mark : Char} (hmark : mark.toNat < 65) (hword : isWordChar mark = false) {word : Text}
    (h : ∀ c ∈ word, isWordChar c = true) : mark ∉ word.upper := by
  intro hmem
  obtain ⟨c, hc, hmem⟩ := List.mem_flatMap.1 hmem
  rcases Unicode.eq_or_le_of_mem_upper hmem with rfl | hle
  · rw [h mark hc] at hword
    cases hword
  · omega

theorem SymbolTable.not_mem_letters_of_mark {mark : Char} (hmark : mark.toNat < 65) (hword : isWordChar mark = false)
    {t : Text} {path : String} {v : Variable} (hv : v ∈ (ofText t path).declaredVariables) : mark ∉ v.name.letters := by
  obtain ⟨d, hd, rfl⟩ := mem_declaredVariables_ofText_iff.1 hv
  obtain ⟨before, word, after, hat, hname⟩ := Source.exists_wordAt_of_mem_spans hd List.mem_cons_self
  rw [show (d.toVariable path).name = Name.of word from hname.symm, Name.letters_of]
  exact not_mem_upper_of_mark hmark hword hat.chars

/-! ## Lines of a text -/

namespace Text

theorem pieces_append_mark {mark : Char} {t : Text} (h : mark ∉ t) (u : Text) :
    pieces mark (t ++ mark :: u) = t :: pieces mark u := by
  induction t with
  | nil => simp [pieces]
  | cons c t ih =>
    rw [List.mem_cons, not_or] at h
    rw [List.cons_append, pieces, if_neg (Ne.symm h.1), ih h.2]

theorem pieces_of_not_mem {mark : Char} {t : Text} (h : mark ∉ t) : pieces mark t = [t] := by
  induction t with
  | nil => rfl
  | cons c t ih =>
    rw [List.mem_cons, not_or] at h
    rw [pieces, if_neg (Ne.symm h.1), ih h.2]

/-- Pieces put together with a mark between them are cut at the marks again. -/
theorem pieces_intercalate {mark : Char} {first : Text} {rest : List Text} (h : ∀ piece ∈ first :: rest, mark ∉ piece) :
    pieces mark (List.intercalate [mark] (first :: rest)) = first :: rest := by
  induction rest generalizing first with
  | nil => rw [List.intercalate_singleton, pieces_of_not_mem (h first List.mem_cons_self)]
  | cons second rest ih =>
    obtain ⟨hfirst, hrest⟩ := List.forall_mem_cons.1 h
    rw [List.intercalate_cons_cons, List.append_assoc, List.singleton_append, pieces_append_mark hfirst, ih hrest]

theorem cutAt?_append {mark : Char} {t : Text} (h : mark ∉ t) (u : Text) : cutAt? mark (t ++ mark :: u) = some (t, u) := by
  induction t with
  | nil => simp [cutAt?]
  | cons c t ih =>
    rw [List.mem_cons, not_or] at h
    rw [List.cons_append, cutAt?, if_neg (Ne.symm h.1), ih h.2]
    rfl

theorem natural?_toDigits (n : Nat) : natural? (Nat.toDigits 10 n) = some n := by
  have hdigits : ∀ c ∈ Nat.toDigits 10 n, c.isDigit = true := fun c => Nat.isDigit_of_mem_toDigits (by decide) (by decide)
  have hvalue : valueOf (Nat.toDigits 10 n) = n := Nat.ofDigitChars_ten_toDigits
  obtain ⟨c, cs, hcs⟩ := List.exists_cons_of_ne_nil (@Nat.toDigits_ne_nil n 10)
  rw [hcs] at hdigits hvalue ⊢
  have hall : (c :: cs).all Char.isDigit = true := List.all_eq_true.2 hdigits
  -- A plus sign in front is no digit.
  unfold natural?
  split
  · rename_i h
    obtain ⟨rfl, -⟩ := List.cons.inj h
    exact absurd (hdigits '+' List.mem_cons_self) (by decide)
  · rw [if_neg (by simp [hall]), hvalue]

/-- The number at the beginning of a text, and what follows. -/
def number? (t : Text) : Option (Nat × Text) :=
  (natural? (t.takeWhile Char.isDigit)).map (·, t.dropWhile Char.isDigit)

theorem number?_toDigits_append (n : Nat) {rest : Text} (h : ∀ c ∈ rest.head?, c.isDigit = false) :
    number? (Nat.toDigits 10 n ++ rest) = some (n, rest) := by
  have hdigits : ∀ c ∈ Nat.toDigits 10 n, c.isDigit = true := fun c => Nat.isDigit_of_mem_toDigits (by decide) (by decide)
  obtain ⟨htake, hdrop⟩ := Prod.mk.inj (Source.takeWhile_dropWhile_eq_iff.2 ⟨hdigits, h⟩)
  rw [number?, htake, hdrop, natural?_toDigits]
  rfl

end Text

/-! ## Reading lines -/

/-- What the line of a variable tells. -/
structure ListedVariable where
  name : Text
  start : Nat
  stop : Nat
  uses : Nat
  description : Text
  deriving DecidableEq

/-- A description on one line. -/
def Text.onOneLine (t : Text) : Text := t.map fun c => if c = '\n' then ' ' else c

/-- What is told of a variable. -/
def Variable.toListed (v : Variable) : ListedVariable :=
  ⟨v.name.letters, v.declaration.start, v.declaration.stop, v.uses.length, v.description.onOneLine⟩

/-- Reads what a line has behind the number of uses: nothing, or a description behind its mark. -/
def ListedVariable.description? (rest : Text) : Option Text :=
  if rest.isEmpty then some [] else " # ".toList.isPrefixOf? rest

/-- Reads the line of a variable from left to right. -/
def ListedVariable.read? (line : Text) : Option ListedVariable := do
  let (name, rest) ← line.cutAt? ' '
  let (start, rest) ← Text.number? rest
  let rest ← "..".toList.isPrefixOf? rest
  let (stop, rest) ← Text.number? rest
  let rest ← " uses=".toList.isPrefixOf? rest
  let (uses, rest) ← Text.number? rest
  let description ← description? rest
  some ⟨name, start, stop, uses, description⟩

/-- The number of variables that the first line tells. -/
def listedCount? (header : Text) : Option Nat := ("variables: ".toList.isPrefixOf? header).bind Text.natural?

theorem isPrefixOf?_append (xs ys : Text) : xs.isPrefixOf? (xs ++ ys) = some ys :=
  List.isPrefixOf?_eq_some_iff_append_eq.2 rfl

/-- What the line of a variable has behind the number of uses. -/
def Variable.remark (v : Variable) : Text :=
  if v.description.isEmpty then [] else " # ".toList ++ v.description.onOneLine

theorem Variable.listed_eq (v : Variable) : v.listed =
    v.name.letters ++ ' ' :: (Nat.toDigits 10 v.declaration.start ++ ("..".toList ++
      (Nat.toDigits 10 v.declaration.stop ++ (" uses=".toList ++ (Nat.toDigits 10 v.uses.length ++ v.remark))))) := by
  simp only [listed, List.append_assoc, List.singleton_append]
  rfl

theorem Variable.isDigit_head?_remark (v : Variable) : ∀ c ∈ v.remark.head?, c.isDigit = false := by
  intro c hc
  unfold remark at hc
  split at hc
  · cases hc
  · obtain rfl : ' ' = c := by simpa using hc
    rfl

theorem ListedVariable.description?_remark (v : Variable) : description? v.remark = some v.description.onOneLine := by
  unfold Variable.remark
  split
  · rename_i hempty
    rw [List.isEmpty_iff.1 hempty]
    rfl
  · exact isPrefixOf?_append _ _

/-- A line is read as what was printed. -/
theorem ListedVariable.read?_listed {v : Variable} (h : ' ' ∉ v.name.letters) : read? v.listed = some v.toListed := by
  simp only [read?, v.listed_eq, Text.cutAt?_append h, isPrefixOf?_append,
    Text.number?_toDigits_append _ v.isDigit_head?_remark,
    Text.number?_toDigits_append _ (show ∀ c ∈ ("..".toList ++ _ : Text).head?, c.isDigit = false by simp),
    Text.number?_toDigits_append _ (show ∀ c ∈ (" uses=".toList ++ _ : Text).head?, c.isDigit = false by simp),
    description?_remark, Option.bind_eq_bind, Option.bind_some]
  rfl

/-- A description that looks like another line is read to its end. -/
example : ListedVariable.read? "A 31..32 uses=0 # uses=3 # B 0..1 uses=0".toList =
    some ⟨"A".toList, 31, 32, 0, "uses=3 # B 0..1 uses=0".toList⟩ := by decide +kernel

theorem listedCount?_toDigits (n : Nat) : listedCount? ("variables: ".toList ++ Nat.toDigits 10 n) = some n := by
  rw [listedCount?, isPrefixOf?_append, Option.bind_some, Text.natural?_toDigits]

theorem lineFeed_not_mem_toDigits (n : Nat) : '\n' ∉ Nat.toDigits 10 n := fun h =>
  absurd (Nat.isDigit_of_mem_toDigits (by decide) (by decide) h) (by decide)

theorem lineFeed_not_mem_onOneLine (t : Text) : '\n' ∉ t.onOneLine := by
  intro hmem
  obtain ⟨c, _, hc⟩ := List.mem_map.1 hmem
  split at hc
  · cases hc
  · exact absurd hc ‹_›

theorem lineFeed_not_mem_remark (v : Variable) : '\n' ∉ v.remark := by
  unfold Variable.remark
  split
  · exact List.not_mem_nil
  · simp [lineFeed_not_mem_onOneLine]

theorem lineFeed_not_mem_listed {v : Variable} (h : '\n' ∉ v.name.letters) : '\n' ∉ v.listed := by
  rw [v.listed_eq]
  simp [h, lineFeed_not_mem_toDigits, lineFeed_not_mem_remark]

namespace SymbolTable

/-- **The printed variables can be read back.** Cut at its line feeds, the listing of a document is a line that
tells how many lines follow, and then one line for each declared variable in the order of the table, from which
its name, its place, its number of uses and its description on one line are read. -/
theorem listing_reads_back (t : Text) (path : String) :
    ∃ header lines, (ofText t path).listing.pieces '\n' = header :: lines ∧ (∀ line ∈ header :: lines, '\n' ∉ line) ∧
      listedCount? header = some lines.length ∧
      lines.map ListedVariable.read? = (ofText t path).declaredVariables.map fun v => some v.toListed := by
  have hlines : ∀ line ∈ ("variables: ".toList ++ Nat.toDigits 10 (ofText t path).declaredVariables.length) ::
      (ofText t path).declaredVariables.map Variable.listed, '\n' ∉ line := by
    refine List.forall_mem_cons.2 ⟨?_, fun line hline => ?_⟩
    · rw [List.mem_append, not_or]
      exact ⟨by decide, lineFeed_not_mem_toDigits _⟩
    · obtain ⟨v, hv, rfl⟩ := List.mem_map.1 hline
      exact lineFeed_not_mem_listed (not_mem_letters_of_mark (by decide) (by decide +kernel) hv)
  refine ⟨_, _, Text.pieces_intercalate hlines, hlines, ?_, ?_⟩
  · rw [listedCount?_toDigits, List.length_map]
  · rw [List.map_map]
    refine List.map_congr_left fun v hv => ?_
    exact ListedVariable.read?_listed (not_mem_letters_of_mark (by decide) (by decide +kernel) hv)

end SymbolTable
end GibianeEditor
