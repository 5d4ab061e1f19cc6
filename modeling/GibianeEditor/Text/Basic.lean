/-
Text as a list of characters, and offsets into it. An offset counts what lies before it by a measure
of characters, bytes of UTF-8 or code units of UTF-16; one that points into a character counts as
that character's start. `upTo` and `past` cut a text at an offset and lose nothing
(`upTo_append_past`).
-/
namespace GibianeEditor

/-- What a document, a name or a comment holds: its characters in order. -/
abbrev Text := List Char

/-- A stretch of a document between two byte offsets, the second one not included. -/
structure Span where
  start : Nat
  stop : Nat
  deriving DecidableEq, Repr

/-- Document order: by start, then by end. -/
def Span.before (a b : Span) : Bool := a.start < b.start || (a.start == b.start && a.stop ≤ b.stop)

/-- How many code units of UTF-16 a character takes: two outside the basic plane. -/
def utf16Size (c : Char) : Nat := if c.toNat < 0x10000 then 1 else 2

namespace Text

/-- The sum of a measure over the characters. -/
def extent (measure : Char → Nat) : Text → Nat
  | [] => 0
  | c :: t => measure c + extent measure t

/-- The characters that end at or before the offset. -/
def upTo (measure : Char → Nat) : Nat → Text → Text
  | _, [] => []
  | n, c :: t => if measure c ≤ n then c :: upTo measure (n - measure c) t else []

/-- The characters that `upTo` leaves. -/
def past (measure : Char → Nat) : Nat → Text → Text
  | _, [] => []
  | n, c :: t => if measure c ≤ n then past measure (n - measure c) t else c :: t

/-- Length in bytes of UTF-8. -/
abbrev bytes (t : Text) : Nat := t.extent Char.utf8Size

/-- Length in code units of UTF-16. -/
abbrev units (t : Text) : Nat := t.extent utf16Size

/-- The text with the bytes of a span replaced. -/
def replace (t : Text) (span : Span) (inserted : Text) : Text :=
  t.upTo Char.utf8Size span.start ++ inserted ++ t.past Char.utf8Size span.stop

variable {measure : Char → Nat}

@[simp] theorem extent_nil : extent measure [] = 0 := rfl

@[simp] theorem extent_cons (c : Char) (t : Text) :
    extent measure (c :: t) = measure c + extent measure t := rfl

@[simp] theorem extent_append (t u : Text) :
    extent measure (t ++ u) = extent measure t + extent measure u := by
  induction t with
  | nil => simp
  | cons c t ih => simp [ih, Nat.add_assoc]

theorem extent_reverse (t : Text) : extent measure t.reverse = extent measure t := by
  induction t with
  | nil => rfl
  | cons c t ih => simp [ih, Nat.add_comm]

theorem upTo_append_past (n : Nat) (t : Text) : upTo measure n t ++ past measure n t = t := by
  induction t generalizing n with
  | nil => rfl
  | cons c t ih => by_cases h : measure c ≤ n <;> simp [upTo, past, h, ih]

theorem extent_upTo_le (n : Nat) (t : Text) : extent measure (upTo measure n t) ≤ n := by
  induction t generalizing n with
  | nil => simp [upTo]
  | cons c t ih =>
    by_cases h : measure c ≤ n
    · have := ih (n - measure c)
      simp only [upTo, h, if_true, extent_cons]
      omega
    · simp [upTo, h]

/-- An offset at the end of a beginning cuts right behind it. -/
theorem upTo_extent_append (t u : Text) (h : ∀ c ∈ u, 0 < measure c) :
    upTo measure (extent measure t) (t ++ u) = t := by
  induction t with
  | nil =>
    cases u with
    | nil => rfl
    | cons c u =>
      have hc := h c (by simp)
      have hc : ¬measure c ≤ 0 := by omega
      simp [upTo, hc]
  | cons c t ih => simp [upTo, ih]

theorem past_extent_append (t u : Text) (h : ∀ c ∈ u, 0 < measure c) :
    past measure (extent measure t) (t ++ u) = u := by
  have hcut : upTo measure (extent measure t) (t ++ u) ++ past measure (extent measure t) (t ++ u) = t ++ u :=
    upTo_append_past _ _
  rw [upTo_extent_append t u h] at hcut
  exact List.append_cancel_left hcut

end Text
end GibianeEditor
