/-
Edits as a client makes them on its own text, and the changes it tells. What a change does to the
same text elsewhere is the edit, for every inserted text, exactly when the edit's range is plain
(`apply_change_iff`).
-/
import GibianeEditor.Proofs.Text.Position
import GibianeEditor.Text.Change

namespace GibianeEditor

namespace Text

theorem bytes_take_add_bytes_drop (n : Nat) (t : Text) : Text.bytes (t.take n) + Text.bytes (t.drop n) = t.bytes := by
  rw [← extent_append, List.take_append_drop]

/-- The beginning up to an offset is a prefix. -/
theorem isPrefix_upTo (measure : Char → Nat) (n : Nat) (t : Text) : upTo measure n t <+: t :=
  ⟨past measure n t, upTo_append_past n t⟩

theorem bytes_le_of_isPrefix {u v : Text} (h : u <+: v) : u.bytes ≤ v.bytes := by
  obtain ⟨w, rfl⟩ := h
  simp [bytes]

theorem eq_of_isPrefix_of_bytes_le {u v : Text} (h : u <+: v) (hle : v.bytes ≤ u.bytes) : u = v := by
  obtain ⟨w, rfl⟩ := h
  rw [eq_nil_of_bytes_append_le hle, List.append_nil]

/-- Whatever character is put in, it shows where it was put in. -/
theorem eq_of_forall_insert {p q u v : Text} (hpre : p <+: u) (h : ∀ c, p ++ c :: q = u ++ c :: v) :
    p = u ∧ q = v := by
  obtain ⟨rest, rfl⟩ := hpre
  have hinsert : ∀ c, c :: q = rest ++ c :: v := fun c => by simpa using h c
  cases rest with
  | nil => exact ⟨(List.append_nil p).symm, (List.cons.inj (hinsert 'a')).2⟩
  | cons d rest =>
    have ha := (List.cons.inj (hinsert 'a')).1
    have hb := (List.cons.inj (hinsert 'b')).1
    exact absurd (ha.trans hb.symm) (by decide)

/-- A span that does not reach farther than two cuts does what they do exactly when it is between
them. -/
theorem replace_eq_iff {t : Text} {start stop : Nat} {span : Span} (hstart : span.start ≤ Text.bytes (t.take start))
    (hstop : span.stop ≤ Text.bytes (t.take stop)) :
    (∀ inserted, t.replace span inserted = t.take start ++ inserted ++ t.drop stop) ↔
      span.start = Text.bytes (t.take start) ∧ span.stop = Text.bytes (t.take stop) := by
  constructor
  · intro h
    have hbefore : Text.bytes (t.upTo Char.utf8Size span.start) ≤ span.start := extent_upTo_le span.start t
    have hupTo : Text.bytes (t.upTo Char.utf8Size span.stop) ≤ span.stop := extent_upTo_le span.stop t
    have hpre : t.upTo Char.utf8Size span.start <+: t.take start := by
      have hfirst := isPrefix_upTo Char.utf8Size span.start t
      have htake : t.take start <+: t := ⟨t.drop start, List.take_append_drop start t⟩
      rcases List.prefix_or_prefix_of_prefix hfirst htake with hp | hp
      · exact hp
      · exact (eq_of_isPrefix_of_bytes_le hp (Nat.le_trans hbefore hstart)) ▸ List.prefix_rfl
    obtain ⟨hfirst, hlast⟩ := eq_of_forall_insert hpre fun c => by simpa [replace] using h [c]
    have hwhole : Text.bytes (t.upTo Char.utf8Size span.stop) + Text.bytes (t.drop stop) = t.bytes := by
      rw [← hlast, ← extent_append, upTo_append_past]
    have hparts := bytes_take_add_bytes_drop stop t
    rw [hfirst] at hbefore
    exact ⟨by omega, by omega⟩
  · rintro ⟨hs, he⟩ inserted
    have hupTo := upTo_bytes_append (t.take start) (t.drop start)
    have hpast := past_bytes_append (t.take stop) (t.drop stop)
    rw [List.take_append_drop] at hupTo hpast
    rw [replace, hs, he, hupTo, hpast]

end Text

/-- An edit of a text: the characters from one place to another, both counted from the beginning of
the text, give way to others. -/
structure ClientEdit where
  start : Nat
  stop : Nat
  inserted : Text
  deriving DecidableEq

namespace ClientEdit

/-- The text with the edit made. -/
def apply (e : ClientEdit) (t : Text) : Text := t.take e.start ++ e.inserted ++ t.drop e.stop

/-- The position of a place. -/
def positionOf (t : Text) (place : Nat) : Position := Text.endPosition 0 (t.take place)

/-- The change that the client tells. -/
def change (e : ClientEdit) (t : Text) : Change := ⟨some ⟨positionOf t e.start, positionOf t e.stop⟩, e.inserted⟩

/-- Whether the range of an edit is one of the text that parts no line feed from its carriage return. -/
structure Fits (e : ClientEdit) (t : Text) : Prop where
  ordered : e.start ≤ e.stop
  inside : e.stop ≤ t.length
  start_whole : Text.cutsBreak (t.take e.start) (t.drop e.start) = false
  stop_whole : Text.cutsBreak (t.take e.stop) (t.drop e.stop) = false

/-- Whether a break that is no line feed or carriage return stands nowhere before the end of the
range, save right before it. -/
def Plain (e : ClientEdit) (t : Text) : Prop := Text.Plain (t.take e.stop)

instance (e : ClientEdit) (t : Text) : Decidable (e.Plain t) := inferInstanceAs (Decidable (Text.Plain (t.take e.stop)))

theorem offsetAt?_positionOf {t : Text} {place : Nat} (hwhole : Text.cutsBreak (t.take place) (t.drop place) = false) :
    ∃ o ≤ Text.bytes (t.take place), t.offsetAt? (positionOf t place) = some o ∧
      (o = Text.bytes (t.take place) ↔ Text.Plain (t.take place)) := by
  have h := Text.offsetAt?_endPosition hwhole
  rwa [List.take_append_drop] at h

/-- What a change does: the text has both ends of its range, and they are where the client has them
exactly when the edit is plain. -/
theorem exists_apply_change {t : Text} {start stop : Nat} (h : Fits ⟨start, stop, []⟩ t) :
    ∃ span : Span, span.start ≤ Text.bytes (t.take start) ∧ span.stop ≤ Text.bytes (t.take stop) ∧
      (∀ inserted, Change.apply? (change ⟨start, stop, inserted⟩ t) t = some (t.replace span inserted)) ∧
      (span.start = Text.bytes (t.take start) ∧ span.stop = Text.bytes (t.take stop) ↔ Text.Plain (t.take stop)) := by
  obtain ⟨s, hs, hsfound, hsplain⟩ := offsetAt?_positionOf h.start_whole
  obtain ⟨e, he, hefound, heplain⟩ := offsetAt?_positionOf h.stop_whole
  simp only at hs hsfound hsplain he hefound heplain
  have hpre : t.take start <+: t.take stop := List.take_prefix_take_left h.ordered
  have hle := Text.bytes_le_of_isPrefix hpre
  refine ⟨⟨s, max s e⟩, hs, by simp only; omega, fun inserted => ?_, ?_⟩
  · simp only [change, Change.apply?, hsfound, hefound]
  · constructor
    · rintro ⟨hstart, hstop⟩
      by_cases hreach : e = Text.bytes (t.take stop)
      · exact heplain.1 hreach
      · -- Only a range without characters ends where it starts.
        have hsame : t.take start = t.take stop :=
          Text.eq_of_isPrefix_of_bytes_le hpre (by simp only at hstart hstop; omega)
        rw [← hsame]
        exact hsplain.1 hstart
    · intro hplain
      have hstart := hsplain.2 (hplain.of_isPrefix hpre)
      have hstop := heplain.2 hplain
      exact ⟨hstart, by simp only; omega⟩

/-- A change is the client's edit for every inserted text exactly when its range is plain. -/
theorem apply_change_iff {t : Text} {start stop : Nat} (h : Fits ⟨start, stop, []⟩ t) :
    (∀ inserted, Change.apply? (change ⟨start, stop, inserted⟩ t) t = some (apply ⟨start, stop, inserted⟩ t)) ↔
      Text.Plain (t.take stop) := by
  obtain ⟨span, hstart, hstop, happly, hplain⟩ := exists_apply_change h
  simp only [happly, apply, Option.some.injEq]
  rw [Text.replace_eq_iff hstart hstop, hplain]

theorem apply_change {e : ClientEdit} {t : Text} (h : e.Fits t) (hplain : e.Plain t) :
    Change.apply? (e.change t) t = some (e.apply t) :=
  (apply_change_iff ⟨h.ordered, h.inside, h.start_whole, h.stop_whole⟩).2 hplain e.inserted

end ClientEdit
end GibianeEditor
