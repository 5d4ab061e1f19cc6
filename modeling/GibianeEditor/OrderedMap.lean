/-
Finite maps that keep the order in which their keys were first inserted. A later insertion under a
key replaces the value and leaves the key where it is (`keys_insert`).
-/
namespace GibianeEditor

/-- Pairs of a key and its value, in order of first insertion. -/
structure OrderedMap (α β : Type) where
  entries : List (α × β)

namespace OrderedMap

variable {α β : Type} [DecidableEq α]

/-- The map without entries. -/
def empty : OrderedMap α β := ⟨[]⟩

/-- The pairs with the value of a key replaced, or with a new pair at the end. -/
def put (key : α) (value : β) : List (α × β) → List (α × β)
  | [] => [(key, value)]
  | e :: rest => if e.1 = key then (key, value) :: rest else e :: put key value rest

def insert (m : OrderedMap α β) (key : α) (value : β) : OrderedMap α β := ⟨put key value m.entries⟩

def erase (m : OrderedMap α β) (key : α) : OrderedMap α β := ⟨m.entries.filter fun e => e.1 ≠ key⟩

def find? (m : OrderedMap α β) (key : α) : Option β := (m.entries.find? fun e => e.1 = key).map Prod.snd

def contains (m : OrderedMap α β) (key : α) : Bool := (m.find? key).isSome

/-- The keys, in order of first insertion. -/
def keys (m : OrderedMap α β) : List α := m.entries.map Prod.fst

/-- The values, in the order of their keys. -/
def values (m : OrderedMap α β) : List β := m.entries.map Prod.snd

@[simp] theorem find?_empty (key : α) : (empty : OrderedMap α β).find? key = none := rfl

@[simp] theorem find?_insert_self (m : OrderedMap α β) (key : α) (value : β) :
    (m.insert key value).find? key = some value := by
  obtain ⟨entries⟩ := m
  induction entries with
  | nil => simp [insert, put, find?]
  | cons e rest ih =>
    by_cases he : e.1 = key
    · simp [insert, put, find?, he]
    · simpa [insert, put, find?, he] using ih

theorem find?_insert_other (m : OrderedMap α β) {key other : α} (value : β) (h : other ≠ key) :
    (m.insert key value).find? other = m.find? other := by
  obtain ⟨entries⟩ := m
  have hk : key ≠ other := fun he => h he.symm
  induction entries with
  | nil => simp [insert, put, find?, hk]
  | cons e rest ih =>
    by_cases he : e.1 = key
    · simp [insert, put, find?, he, hk]
    · by_cases ho : e.1 = other
      · simp [insert, put, find?, ho, h]
      · simpa [insert, put, find?, he, ho] using ih

theorem find?_erase_self (m : OrderedMap α β) (key : α) : (m.erase key).find? key = none := by
  simp [erase, find?, List.find?_eq_none]

theorem find?_erase_other (m : OrderedMap α β) {key other : α} (h : other ≠ key) :
    (m.erase key).find? other = m.find? other := by
  obtain ⟨entries⟩ := m
  have hk : key ≠ other := fun he => h he.symm
  induction entries with
  | nil => rfl
  | cons e rest ih =>
    by_cases he : e.1 = key
    · simpa [erase, find?, he, hk] using ih
    · by_cases ho : e.1 = other
      · simp [erase, find?, ho, h]
      · simpa [erase, find?, he, ho] using ih

/-- Insertion keeps the keys in place and puts a new one at the end. -/
theorem keys_insert (m : OrderedMap α β) (key : α) (value : β) :
    (m.insert key value).keys = if key ∈ m.keys then m.keys else m.keys ++ [key] := by
  obtain ⟨entries⟩ := m
  induction entries with
  | nil => simp [insert, put, keys]
  | cons e rest ih =>
    by_cases he : e.1 = key
    · simp [insert, put, keys, he]
    · have hk : ¬key = e.1 := fun h => he h.symm
      simp only [insert, put, keys, he, if_false, List.map_cons, List.mem_cons, hk, false_or] at ih ⊢
      split <;> simp_all

end OrderedMap
end GibianeEditor
