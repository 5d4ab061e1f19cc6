/-
A session and a client that edits one of its documents. The client tells every edit by the position
it has in the client's text at that time; the session then holds the client's text as long as the
edits are plain, and for an edit that is not there are texts to insert that set the two apart
(`notices_keep_text_iff_plain`).
-/
import GibianeEditor.Proofs.Text.ClientEdit
import GibianeEditor.Session.Basic

namespace GibianeEditor

open Protocol (Notice)

namespace ClientEdit

/-- The client's text after edits, one after the other. -/
def applyAll : Text → List ClientEdit → Text
  | t, [] => t
  | t, e :: rest => applyAll (e.apply t) rest

/-- The changes that the client tells, each about the text that the one before left. -/
def changes : Text → List ClientEdit → List Change
  | _, [] => []
  | t, e :: rest => e.change t :: changes (e.apply t) rest

/-- What the client sends: a notice for every list of edits. -/
def notices (uri : Uri) : Text → List (List ClientEdit) → List Notice
  | _, [] => []
  | t, edits :: rest => .changed uri (changes t edits) :: notices uri (applyAll t edits) rest

/-- Whether every edit fits the text that it finds and is plain there. -/
def AllPlain : Text → List ClientEdit → Prop
  | _, [] => True
  | t, e :: rest => (e.Fits t ∧ e.Plain t) ∧ AllPlain (e.apply t) rest

theorem applyAll_append (t : Text) (es fs : List ClientEdit) : applyAll t (es ++ fs) = applyAll (applyAll t es) fs := by
  induction es generalizing t with
  | nil => rfl
  | cons e es ih => exact ih (e.apply t)

theorem allPlain_append_iff {t : Text} {es fs : List ClientEdit} :
    AllPlain t (es ++ fs) ↔ AllPlain t es ∧ AllPlain (applyAll t es) fs := by
  induction es generalizing t with
  | nil => simp [AllPlain, applyAll]
  | cons e es ih => simp only [List.cons_append, AllPlain, applyAll, ih, and_assoc]

end ClientEdit

namespace Session

/-- The text of an open document. -/
def textOf (s : Session) (uri : Uri) : Option Text := (s.documents.find? uri.text).map Document.text

/-- The session after notices from the client. -/
def noteAll (s : Session) (notices : List Notice) : Session := notices.foldl (fun s notice => (s.note notice).1) s

theorem textOf_note_opened (s : Session) (uri : Uri) (t : Text) : (s.note (.opened uri t)).1.textOf uri = some t := by
  simp [note, store, textOf]

theorem textOf_note_changed {s : Session} {uri : Uri} {t : Text} (h : s.textOf uri = some t) (changes : List Change) :
    (s.note (.changed uri changes)).1.textOf uri = some (applyChanges uri t changes).1 := by
  obtain ⟨document, hdocument, rfl⟩ := Option.map_eq_some_iff.1 h
  simp [note, store, textOf, hdocument]

theorem applyChanges_changes (uri : Uri) {t : Text} {edits : List ClientEdit} (h : ClientEdit.AllPlain t edits) :
    (applyChanges uri t (ClientEdit.changes t edits)).1 = ClientEdit.applyAll t edits := by
  induction edits generalizing t with
  | nil => rfl
  | cons e edits ih =>
    simp only [ClientEdit.changes, applyChanges, ClientEdit.apply_change h.1.1 h.1.2]
    exact ih h.2

/-- One notice of plain edits leaves the session with the client's text, and a run of notices too. -/
theorem textOf_noteAll {s : Session} {uri : Uri} {t : Text} (h : s.textOf uri = some t)
    {batches : List (List ClientEdit)} (hplain : ClientEdit.AllPlain t batches.flatten) :
    (s.noteAll (ClientEdit.notices uri t batches)).textOf uri = some (ClientEdit.applyAll t batches.flatten) := by
  induction batches generalizing s t with
  | nil => exact h
  | cons edits batches ih =>
    rw [List.flatten_cons, ClientEdit.allPlain_append_iff] at hplain
    have hstep := textOf_note_changed h (ClientEdit.changes t edits)
    rw [applyChanges_changes uri hplain.1] at hstep
    rw [List.flatten_cons, ClientEdit.applyAll_append]
    exact ih hstep hplain.2

theorem take_notices (uri : Uri) (t : Text) (batches : List (List ClientEdit)) (n : Nat) :
    (ClientEdit.notices uri t batches).take n = ClientEdit.notices uri t (batches.take n) := by
  induction batches generalizing t n with
  | nil => simp [ClientEdit.notices]
  | cons edits batches ih =>
    cases n with
    | zero => rfl
    | succ n => simp [ClientEdit.notices, ih]

/-- **A session and a client hold the same text, as long as edits are plain.** After every notice of a
run of plain edits the session has the client's text. And plain is what an edit has to be: a range of
the common text is plain exactly when the session has the client's text behind the edit whatever is
put there. -/
theorem notices_keep_text_iff_plain {s : Session} {uri : Uri} {t : Text} (h : s.textOf uri = some t) :
    (∀ batches : List (List ClientEdit), ClientEdit.AllPlain t batches.flatten →
      ∀ n, (s.noteAll ((ClientEdit.notices uri t batches).take n)).textOf uri =
        some (ClientEdit.applyAll t (batches.take n).flatten)) ∧
    ∀ start stop, ClientEdit.Fits ⟨start, stop, []⟩ t →
      ((∀ inserted, (s.note (.changed uri [ClientEdit.change ⟨start, stop, inserted⟩ t])).1.textOf uri =
          some (ClientEdit.apply ⟨start, stop, inserted⟩ t)) ↔
        Text.Plain (t.take stop)) := by
  refine ⟨fun batches hplain n => ?_, fun start stop hfits => ?_⟩
  · rw [take_notices]
    rw [← List.take_append_drop n batches, List.flatten_append, ClientEdit.allPlain_append_iff] at hplain
    exact textOf_noteAll h hplain.1
  · rw [← ClientEdit.apply_change_iff hfits]
    refine forall_congr' fun inserted => ?_
    obtain ⟨span, _, _, happly, _⟩ := ClientEdit.exists_apply_change hfits
    rw [textOf_note_changed h]
    simp only [applyChanges, happly]

/-- A run over a line feed with its carriage return and a character of two code units. -/
theorem notices_keep_text_two_units :
    let uri : Uri := ⟨"file:///a", "/a"⟩
    let t := "a\r\n𝒳b".toList
    let s := (empty.note (.opened uri t)).1
    (s.noteAll (ClientEdit.notices uri t [[⟨4, 5, "c\r".toList⟩, ⟨0, 3, []⟩], [⟨3, 3, "d".toList⟩]])).textOf uri =
        some "𝒳c\rd".toList ∧
      ∀ inserted, (s.note (.changed uri [ClientEdit.change ⟨3, 4, inserted⟩ t])).1.textOf uri =
        some (ClientEdit.apply ⟨3, 4, inserted⟩ t) := by
  intro uri t s
  have h : s.textOf uri = some t := textOf_note_opened empty uri t
  have hplain : ClientEdit.AllPlain t [[⟨4, 5, "c\r".toList⟩, ⟨0, 3, []⟩], [⟨3, 3, "d".toList⟩]].flatten :=
    ⟨⟨⟨by decide, by decide, by decide, by decide⟩, by decide⟩,
      ⟨⟨by decide, by decide, by decide, by decide⟩, by decide⟩,
      ⟨⟨by decide, by decide, by decide, by decide⟩, by decide⟩, trivial⟩
  exact ⟨(notices_keep_text_iff_plain h).1 _ hplain 2,
    ((notices_keep_text_iff_plain h).2 3 4 ⟨by decide, by decide, by decide, by decide⟩).2 (by decide)⟩

/-- A vertical tab ends a line of the session and none of the client, so what the client puts behind
the end of the text comes right behind the tab. -/
theorem textOf_note_changed_behind_vertical_tab :
    let uri : Uri := ⟨"file:///a", "/a"⟩
    let t := "x\x0by".toList
    let e : ClientEdit := ⟨3, 3, "z".toList⟩
    e.Fits t ∧ e.apply t = "x\x0byz".toList ∧
      ((empty.note (.opened uri t)).1.note (.changed uri [e.change t])).1.textOf uri = some "x\x0bzy".toList := by
  intro uri t e
  refine ⟨⟨by decide, by decide, by decide, by decide⟩, by decide, ?_⟩
  rw [textOf_note_changed (textOf_note_opened empty uri t)]
  decide

end Session
end GibianeEditor
