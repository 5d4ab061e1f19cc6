/-
Which document a message is about. Its parameters name a URI, whether the rest of them can be read or
not (`namedUri?`); and what can be read as a notice or a question is about the URI that they name
(`namedBy_of_read_notice`, `namedBy_of_read_query`).
-/
import GibianeEditor.Protocol.Message
import GibianeEditor.Protocol.Notice
import GibianeEditor.Protocol.Query

namespace GibianeEditor

theorem Uri.text_of_parse? {text : String} {uri : Uri} (h : Uri.parse? text = some uri) : uri.text = text := by
  simp only [Uri.parse?, Option.bind_eq_bind, Option.bind_eq_some_iff] at h
  obtain ⟨rest, _, path, _, h⟩ := h
  split at h
  · rw [Option.some.injEq] at h
    rw [← h]
  · cases h

namespace Json

/-- The field that comes first in a record: the member of its name, or the first item of an array. -/
def firstField? (name : String) : Json → Option Json
  | .obj members => find? members name
  | .arr items => items.head?
  | _ => none

theorem find?_of_record? {j : Json} {name : String} {names : List String} {members : List (String × Json)}
    (h : j.record? (name :: names) = some members) : find? members name = j.firstField? name := by
  cases j with
  | obj _ => cases h; rfl
  | arr items =>
    simp only [record?, Option.ite_none_right_eq_some, Option.some.injEq] at h
    obtain ⟨hlength, rfl⟩ := h
    cases items with
    | nil => simp at hlength
    | cons item items => simp [find?, firstField?]
  | _ => cases h

theorem find?_of_members? {j : Json} {members : List (String × Json)} (h : j.members? = some members) (name : String) :
    find? members name = j.firstField? name := by
  cases j with
  | obj _ => cases h; rfl
  | _ => cases h

end Json

namespace Protocol

/-- The document that a notice is about. -/
def Notice.uri : Notice → Uri
  | .opened uri _ | .changed uri _ | .closed uri => uri

/-- The document that a question is about. -/
def Query.uri : Query → Uri
  | .hover place | .definition place | .references place _ | .prepareRename place | .rename place _
  | .completion place => place.uri
  | .documentSymbols uri | .semanticTokens uri => uri

/-- The URI of a document identifier, as it is written. -/
def documentUri? (j : Json) : Option String := (j.firstField? "uri").bind Json.str?

/-- The URI that parameters name, as it is written: that of their text document. -/
def namedUri? (params : Json) : Option String := (params.firstField? "textDocument").bind documentUri?

/-- Whether a URI is written in a document identifier. -/
def WrittenIn (j : Json) (uri : Uri) : Prop := documentUri? j = some uri.text ∧ Uri.parse? uri.text = some uri

/-- Whether a URI is the one that parameters name. -/
def NamedBy (params : Json) (uri : Uri) : Prop := namedUri? params = some uri.text ∧ Uri.parse? uri.text = some uri

theorem writtenIn_of_field? {j : Json} {members : List (String × Json)} {uri : Uri}
    (hmembers : Json.find? members "uri" = j.firstField? "uri") (h : Json.field? members "uri" readUri? = some uri) :
    WrittenIn j uri := by
  rw [Json.field?, hmembers, Option.bind_eq_some_iff] at h
  obtain ⟨value, hvalue, hread⟩ := h
  cases value with
  | str text =>
    have htext := Uri.text_of_parse? hread
    rw [← htext] at hread
    exact ⟨by simp [documentUri?, hvalue, Json.str?, htext], hread⟩
  | _ => cases hread

theorem namedBy_of_field? {α : Type} {params : Json} {members : List (String × Json)} {read : Json → Option α} {a : α}
    {uri : Uri} (hmembers : Json.find? members "textDocument" = params.firstField? "textDocument")
    (h : Json.field? members "textDocument" read = some a) (hread : ∀ j, read j = some a → WrittenIn j uri) :
    NamedBy params uri := by
  rw [Json.field?, hmembers, Option.bind_eq_some_iff] at h
  obtain ⟨document, hdocument, ha⟩ := h
  obtain ⟨hwritten, hparse⟩ := hread document ha
  exact ⟨by rw [namedUri?, hdocument, Option.bind_some, hwritten], hparse⟩

theorem writtenIn_of_readDocument? {j : Json} {uri : Uri} (h : readDocument? j = some uri) : WrittenIn j uri := by
  simp only [readDocument?, Option.bind_eq_bind, Option.bind_eq_some_iff] at h
  obtain ⟨members, hmembers, hfield⟩ := h
  exact writtenIn_of_field? (Json.find?_of_record? hmembers) hfield

theorem namedBy_of_readPlace? {params : Json} {members : List (String × Json)} {place : Place}
    (hmembers : Json.find? members "textDocument" = params.firstField? "textDocument")
    (h : readPlace? members = some place) : NamedBy params place.uri := by
  simp only [readPlace?, Option.bind_eq_bind, Option.bind_eq_some_iff, Option.some.injEq] at h
  obtain ⟨uri, hfield, position, _, rfl⟩ := h
  exact namedBy_of_field? hmembers hfield fun j => writtenIn_of_readDocument?

/-- A notice is about the URI that the parameters name. -/
theorem namedBy_of_read_notice {method : String} {params : Json} {notice : Notice}
    (h : Notice.read? method params = some notice) : NamedBy params notice.uri := by
  unfold Notice.read? at h
  split at h <;> simp only [Option.bind_eq_bind, Option.bind_eq_some_iff, Option.some.injEq, reduceCtorEq] at h
  · obtain ⟨members, hmembers, ⟨uri, text⟩, hfield, rfl⟩ := h
    refine namedBy_of_field? (Json.find?_of_record? hmembers) hfield fun j hj => ?_
    simp only [Notice.readItem?, Option.bind_eq_bind, Option.bind_eq_some_iff, Option.some.injEq] at hj
    obtain ⟨item, hitem, _, huri, _, _, _, _, _, _, hpair⟩ := hj
    obtain ⟨rfl, rfl⟩ := Prod.mk.inj hpair
    exact writtenIn_of_field? (Json.find?_of_record? hitem) huri
  · obtain ⟨members, hmembers, uri, hfield, changes, _, rfl⟩ := h
    refine namedBy_of_field? (Json.find?_of_record? hmembers) hfield fun j hj => ?_
    simp only [Notice.readVersioned?, Option.bind_eq_bind, Option.bind_eq_some_iff, Option.some.injEq] at hj
    obtain ⟨item, hitem, _, huri, _, _, rfl⟩ := hj
    exact writtenIn_of_field? (Json.find?_of_record? hitem) huri
  · obtain ⟨members, hmembers, uri, hfield, rfl⟩ := h
    exact namedBy_of_field? (Json.find?_of_record? hmembers) hfield fun j => writtenIn_of_readDocument?

/-- A question is about the URI that the parameters name. -/
theorem namedBy_of_read_query {method : String} {params : Json} {query : Query}
    (h : Query.read? method params = some query) : NamedBy params query.uri := by
  unfold Query.read? at h
  split at h <;> simp only [Option.bind_eq_bind, Option.bind_eq_some_iff, Option.some.injEq, reduceCtorEq] at h
  · obtain ⟨members, hmembers, _, _, place, hplace, rfl⟩ := h
    exact namedBy_of_readPlace? (Json.find?_of_members? hmembers _) hplace
  · obtain ⟨members, hmembers, _, _, _, _, place, hplace, rfl⟩ := h
    exact namedBy_of_readPlace? (Json.find?_of_members? hmembers _) hplace
  · obtain ⟨members, hmembers, _, _, _, _, _, _, place, hplace, rfl⟩ := h
    exact namedBy_of_readPlace? (Json.find?_of_members? hmembers _) hplace
  · -- Only this question may come as an array.
    obtain ⟨members, hmembers, place, hplace, rfl⟩ := h
    exact namedBy_of_readPlace? (Json.find?_of_record? hmembers) hplace
  · obtain ⟨members, hmembers, _, _, _, _, place, hplace, rfl⟩ := h
    exact namedBy_of_readPlace? (Json.find?_of_members? hmembers _) hplace
  · obtain ⟨members, hmembers, _, _, _, _, _, _, place, hplace, rfl⟩ := h
    exact namedBy_of_readPlace? (Json.find?_of_members? hmembers _) hplace
  · obtain ⟨members, hmembers, _, _, _, _, uri, hfield, rfl⟩ := h
    exact namedBy_of_field? (Json.find?_of_members? hmembers _) hfield fun j => writtenIn_of_readDocument?
  · obtain ⟨members, hmembers, _, _, _, _, uri, hfield, rfl⟩ := h
    exact namedBy_of_field? (Json.find?_of_members? hmembers _) hfield fun j => writtenIn_of_readDocument?

/-- Whether a message is a request or a notification whose parameters name a URI. -/
def Message.names (uri : String) : Message → Bool
  | .request r => namedUri? r.params = some uri
  | .notification n => namedUri? n.params = some uri
  | .response _ => false

end Protocol
end GibianeEditor
