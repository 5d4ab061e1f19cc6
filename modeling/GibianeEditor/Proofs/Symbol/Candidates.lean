/-
What becomes of a word's candidates when the word is typed on. A word means the symbols of its name or, where
there is none, those whose names it begins with (`resolve_cases`). In both cases it begins with their names,
and so does every word that goes on from it, since what is typed behind a word comes behind its upper case. So
the candidates stay until the word spells a name again (`typing_on_keeps_candidates`).
-/
import GibianeEditor.Proofs.Symbol.Slots

namespace GibianeEditor

namespace Name

theorem begins_iff {name word : Name} : name.begins word = true ↔ name.letters <+: word.letters :=
  List.isPrefixOf_iff_prefix

theorem begins_trans {a b c : Name} (hab : a.begins b = true) (hbc : b.begins c = true) : a.begins c = true :=
  begins_iff.2 ((begins_iff.1 hab).trans (begins_iff.1 hbc))

/-- Of two beginnings of a word the longer one begins with the other. -/
theorem begins_of_length_le {name other word : Name} (hname : name.begins word = true)
    (hother : other.begins word = true) (hle : other.letters.length ≤ name.letters.length) :
    other.begins name = true :=
  begins_iff.2 (List.prefix_of_prefix_length_le (begins_iff.1 hother) (begins_iff.1 hname) hle)

theorem eq_of_begins {a b : Name} (hab : a.begins b = true) (hle : b.letters.length ≤ a.letters.length) : a = b :=
  ext ((begins_iff.1 hab).eq_of_length_le hle)

/-- What a word spells begins what any word spells that goes on from it. -/
theorem begins_of_append (word more : Text) : (of word).begins (of (word ++ more)) = true := by
  rw [begins_iff, letters_of, letters_of, Text.upper_append]
  exact List.prefix_append _ _

end Name

namespace SymbolTable

variable (table : SymbolTable) (word : Text)

/-- A word means the symbols of its name if there is one, else those whose names it begins with. -/
theorem resolve_cases :
    ((∃ s ∈ table.symbols, s.name = Name.of word) ∧
      table.resolve word = ⟨.exact, table.symbols.filter fun s => s.name = Name.of word⟩) ∨
    ((∀ s ∈ table.symbols, s.name ≠ Name.of word) ∧
      table.resolve word = ⟨.longer, table.symbols.filter fun s => s.name.begins (Name.of word)⟩) := by
  cases hexact : table.symbols.filter fun s => decide (s.name = Name.of word) with
  | nil =>
    refine .inr ⟨fun s hs => by simpa using List.filter_eq_nil_iff.1 hexact s hs, ?_⟩
    rw [resolve, hexact]
  | cons s exacts =>
    have hs := List.mem_filter.1 (hexact ▸ List.mem_cons_self : s ∈ table.symbols.filter fun s => s.name = Name.of word)
    refine .inl ⟨⟨s, hs.1, by simpa using hs.2⟩, ?_⟩
    rw [resolve, hexact]

theorem kind_resolve_eq_exact_iff :
    (table.resolve word).kind = .exact ↔ ∃ s ∈ table.symbols, s.name = Name.of word := by
  rcases table.resolve_cases word with ⟨hname, hresolve⟩ | ⟨hnone, hresolve⟩
  · simp [hresolve, hname]
  · simpa [hresolve] using hnone

theorem mem_symbols_resolve_of_name {s : Symbol} (hs : s ∈ table.symbols) (hname : s.name = Name.of word) :
    s ∈ (table.resolve word).symbols := by
  rcases table.resolve_cases word with ⟨_, hresolve⟩ | ⟨hnone, _⟩
  · rw [hresolve]
    exact List.mem_filter.2 ⟨hs, by simpa using hname⟩
  · exact absurd hname (hnone s hs)

/-- A word that is no name means every symbol whose name it begins with. -/
theorem symbols_resolve_of_ne_exact (hkind : (table.resolve word).kind ≠ .exact) :
    (table.resolve word).symbols = table.symbols.filter fun s => s.name.begins (Name.of word) := by
  rcases table.resolve_cases word with ⟨_, hresolve⟩ | ⟨_, hresolve⟩
  · rw [hresolve] at hkind
    exact absurd rfl hkind
  · rw [hresolve]

/-- Whatever a word means, it begins with the names of that. -/
theorem symbols_resolve_sublist :
    (table.resolve word).symbols.Sublist (table.symbols.filter fun s => s.name.begins (Name.of word)) := by
  rcases table.resolve_cases word with ⟨_, hresolve⟩ | ⟨_, hresolve⟩
  · rw [hresolve]
    refine List.monotone_filter_right _ fun s hs => ?_
    rw [of_decide_eq_true hs]
    exact Name.begins_iff.2 List.prefix_rfl
  · rw [hresolve]

theorem symbols_resolve_append_sublist (more : Text) (hkind : (table.resolve (word ++ more)).kind ≠ .exact) :
    (table.resolve word).symbols.Sublist (table.resolve (word ++ more)).symbols := by
  rw [table.symbols_resolve_of_ne_exact _ hkind]
  -- Both are read off the same row, the one for the longer word by a weaker test.
  refine (table.symbols_resolve_sublist word).trans (List.monotone_filter_right _ fun s hs => ?_)
  exact Name.begins_trans hs (Name.begins_of_append word more)

/-- Of two candidates of a word one has a name that begins the other's. -/
theorem begins_or_begins_of_mem_resolve {s other : Symbol} (hs : s ∈ (table.resolve word).symbols)
    (hother : other ∈ (table.resolve word).symbols) :
    s.name.letters <+: other.name.letters ∨ other.name.letters <+: s.name.letters := by
  have hbegins : ∀ s ∈ (table.resolve word).symbols, s.name.letters <+: (Name.of word).letters := fun s hs =>
    Name.begins_iff.1 (List.mem_filter.1 ((table.symbols_resolve_sublist word).subset hs)).2
  exact List.prefix_or_prefix_of_prefix (hbegins s hs) (hbegins other hother)

end SymbolTable

namespace SlotTable

/-- **Typing on loses no candidate until the word spells a name.** A word has an exact match if and only if it
spells the name of a symbol, and then that symbol is a candidate. Unless a longer word has one too, the
candidates of the word are among those of the longer word, in the same order, whether it spelled a name or
not. The names of all candidates of a word begin one another. -/
theorem typing_on_keeps_candidates (table : SlotTable) (word : Text) :
    ((table.resolve word).kind = .exact ↔ ∃ s ∈ table.symbols, s.name = Name.of word) ∧
    (∀ s ∈ table.symbols, s.name = Name.of word → s ∈ (table.resolve word).symbols) ∧
    (∀ more, (table.resolve (word ++ more)).kind ≠ .exact →
      (table.resolve word).symbols.Sublist (table.resolve (word ++ more)).symbols) ∧
    ∀ s ∈ (table.resolve word).symbols, ∀ other ∈ (table.resolve word).symbols,
      s.name.letters <+: other.name.letters ∨ other.name.letters <+: s.name.letters := by
  rw [← symbols_ownNames]
  exact ⟨table.ownNames.kind_resolve_eq_exact_iff word, fun s hs => table.ownNames.mem_symbols_resolve_of_name word hs,
    table.ownNames.symbols_resolve_append_sublist word,
    fun s hs other hother => table.ownNames.begins_or_begins_of_mem_resolve word hs hother⟩

/-- `straß` spells a name of six letters, which hides its beginnings. One letter on, all of them are
candidates, and one is a name that ends between the two letters that `ß` stands for. -/
theorem candidates_of_strass :
    let v : Symbol := .variable ⟨Name.of "strass".toList, [], ⟨0, 6⟩, "/a", []⟩
    let five : Symbol := .operator ⟨Name.of "stras".toList, []⟩
    let three : Symbol := .operator ⟨Name.of "str".toList, []⟩
    let table := empty.run [.insert "key".toList five, .insert "straß".toList v, .insert "STR".toList three]
    table.resolve "straß".toList = ⟨.exact, [v]⟩ ∧ table.resolve "straße".toList = ⟨.longer, [five, v, three]⟩ ∧
      List.Sublist [v] [five, v, three] ∧ five.name.letters <+: v.name.letters := by
  intro v five three table
  have hshort : table.resolve "straß".toList = ⟨.exact, [v]⟩ := by decide +kernel
  have hlong : table.resolve ("straß".toList ++ ['e']) = ⟨.longer, [five, v, three]⟩ := by decide +kernel
  obtain ⟨_, _, hkeeps, _⟩ := typing_on_keeps_candidates table "straß".toList
  obtain ⟨_, _, _, hbegins⟩ := typing_on_keeps_candidates table ("straß".toList ++ ['e'])
  have hsub := hkeeps ['e'] (by rw [hlong]; decide)
  rw [hlong] at hbegins hsub
  rw [hshort] at hsub
  exact ⟨hshort, hlong, hsub, (hbegins five (by simp) v (by simp)).resolve_right (by decide +kernel)⟩

end SlotTable
end GibianeEditor
