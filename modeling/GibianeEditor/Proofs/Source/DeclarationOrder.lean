/-
Declarations come in the order of reading, and reading differs from the document in one case: the
name of a procedure is declared when it is read, and `DEBP` itself only with the `=` behind it, if one
follows (`Inverts`). All declarations are in document order, each at the first place that declares its
name, just when each such statement comes too late for its two names (`inOrder_iff`).
-/
import GibianeEditor.Proofs.Source.Declared

namespace GibianeEditor.Source

/-- Whether a place in a document declares its name. -/
def DeclaredIn (t : Text) (s : Site) : Prop := ∃ stmt ∈ statements t, Declares stmt s

/-- Whether a statement declares the name of a procedure, `f`, and then the `DEBPROC` before it, `k`. -/
def Inverts (stmt : List Token) (k f : Site) : Prop :=
  .assign ∈ stmt ∧ isProcedureKeyword k.name = true ∧ [k, f] <+: namesOf (leftOf stmt)

def InvertsIn (t : Text) (k f : Site) : Prop := ∃ stmt ∈ statements t, Inverts stmt k f

/-- Declarations in document order. -/
structure InOrder (t : Text) : Prop where
  /-- A declaration is at the first place that declares its name. -/
  first : ∀ d ∈ scan t, ∃ s, DeclaredIn t s ∧ s.name = d.name ∧ s.span = d.span ∧
    ∀ r, DeclaredIn t r → r.name = d.name → s.span.start ≤ r.span.start
  /-- No use before the declaration declares the name. -/
  uses : ∀ d ∈ scan t, ∀ span ∈ d.uses, span.start < d.span.start → ∀ s, DeclaredIn t s → s.span ≠ span
  ascending : (scan t).Pairwise fun d e => d.span.start < e.span.start

/-- Order of sites. -/
def Site.Before (a b : Site) : Prop := a.span.start < b.span.start

theorem Site.Before.ne {a b : Site} (h : a.Before b) : a ≠ b := by
  rintro rfl
  exact Nat.lt_irrefl _ h

theorem before_sites (t : Text) : (sites t).Pairwise Site.Before := by
  refine (pairwise_sites t).imp_of_mem fun {a b} ha _ h => ?_
  have hstop := start_lt_stop_of_mem_sites ha
  unfold Site.Before
  omega

/-! ## One statement -/

theorem namesOf_leftOf_sublist (stmt : List Token) : (namesOf (leftOf stmt)).Sublist (namesOf stmt) :=
  (List.takeWhile_sublist _).filterMap _

/-- What declares a name stands in the statement. -/
theorem mem_namesOf_of_declares {stmt : List Token} {s : Site} (h : Declares stmt s) : s ∈ namesOf stmt := by
  obtain ⟨before, after, rfl, _⟩ := h
  simp [namesOf, Token.site?]

theorem Inverts.sublist {stmt : List Token} {k f : Site} (h : Inverts stmt k f) : [k, f].Sublist (namesOf stmt) :=
  h.2.2.sublist.trans (namesOf_leftOf_sublist stmt)

theorem declaredBy_of_inverts {stmt : List Token} {k f : Site} (hstop : .stop ∉ stmt) (h : Inverts stmt k f) :
    ∃ more, declaredBy stmt = f :: k :: more ∧ (k :: f :: more).Sublist (namesOf stmt) := by
  obtain ⟨hassign, hkeyword, rest, hrest⟩ := h
  obtain ⟨header, hread, heq⟩ := exists_declaredBy_eq hstop
  obtain ⟨more, hmore, hsublist⟩ := hread.behind k f rest hrest.symm hkeyword
  refine ⟨more, ?_, ?_⟩
  · rw [heq, if_pos hassign, hmore, ← hrest]
    simp [procedureAmong, hkeyword]
  · refine List.Sublist.trans ?_ (namesOf_leftOf_sublist stmt)
    rw [← hrest]
    exact (hsublist.cons_cons f).cons_cons k

theorem procedureAmong_sublist (names : List Site) : (procedureAmong names).Sublist names := by
  unfold procedureAmong
  split
  · split
    · exact (List.Sublist.cons_cons _ (List.nil_sublist _)).cons _
    · exact List.nil_sublist _
  · exact List.nil_sublist _

/-- Any other statement declares in its own order. -/
theorem declaredBy_sublist {stmt : List Token} (hstop : .stop ∉ stmt) (h : ∀ k f, ¬Inverts stmt k f) :
    (declaredBy stmt).Sublist (namesOf stmt) := by
  obtain ⟨header, hread, heq⟩ := exists_declaredBy_eq hstop
  refine List.Sublist.trans ?_ (namesOf_leftOf_sublist stmt)
  rw [heq]
  by_cases hassign : .assign ∈ stmt
  · have hnone : procedureAmong (namesOf (leftOf stmt)) = [] := by
      unfold procedureAmong
      split
      · rename_i k f rest hnames
        rw [if_neg fun hkeyword => h k f ⟨hassign, hkeyword, rest, hnames.symm⟩]
      · rfl
    rw [if_pos hassign, hnone, List.nil_append]
    exact hread.sublist
  · rw [if_neg hassign, List.append_nil]
    exact procedureAmong_sublist _

/-- Of two places that a statement declares in a row the first stands before the second, but for a
procedure and its `DEBPROC`. -/
theorem pairwise_declaredBy {stmt : List Token} (hstop : .stop ∉ stmt) (hnames : (namesOf stmt).Pairwise Site.Before) :
    (declaredBy stmt).Pairwise fun a b => ¬Inverts stmt a b ∧ (a.Before b ∨ Inverts stmt b a) := by
  by_cases h : ∃ k f, Inverts stmt k f
  · obtain ⟨k, f, h⟩ := h
    obtain ⟨more, heq, hsublist⟩ := declaredBy_of_inverts hstop h
    have honly : ∀ a b, Inverts stmt a b → a = k ∧ b = f := by
      intro a b hab
      obtain ⟨rest, hrest⟩ := h.2.2
      obtain ⟨rest', hrest'⟩ := hab.2.2
      rw [← hrest] at hrest'
      simp only [List.cons_append, List.nil_append, List.cons.injEq] at hrest'
      exact ⟨hrest'.1, hrest'.2.1⟩
    obtain ⟨hk, hf, hmore⟩ := by simpa only [List.pairwise_cons] using hnames.sublist hsublist
    have hkf : k.Before f := hk f List.mem_cons_self
    rw [heq, List.pairwise_cons, List.pairwise_cons]
    refine ⟨fun b hb => ?_, fun b hb => ?_, hmore.imp_of_mem fun {a b} ha _ hab => ?_⟩
    · refine ⟨fun hinv => hkf.ne (honly f b hinv).1.symm, ?_⟩
      rcases List.mem_cons.1 hb with rfl | hb
      · exact .inr h
      · exact .inl (hf b hb)
    · exact ⟨fun hinv => (hf b hb).ne (honly k b hinv).2.symm, .inl (hk b (List.mem_cons_of_mem _ hb))⟩
    · exact ⟨fun hinv => (hk a (List.mem_cons_of_mem _ ha)).ne (honly a b hinv).1.symm, .inl hab⟩
  · have hnone : ∀ k f, ¬Inverts stmt k f := fun k f hkf => h ⟨k, f, hkf⟩
    exact (hnames.sublist (declaredBy_sublist hstop hnone)).imp fun hab => ⟨hnone _ _, .inl hab⟩

/-! ## All statements -/

/-- All places that declare a name, in the order of reading. -/
def declaredSites (t : Text) : List Site := (statements t).flatMap declaredBy

theorem mem_declaredSites_iff {t : Text} {s : Site} : s ∈ declaredSites t ↔ DeclaredIn t s := by
  rw [declaredSites, List.mem_flatMap]
  constructor
  · rintro ⟨stmt, hstmt, hs⟩
    exact ⟨stmt, hstmt, (mem_declaredBy_iff (stop_not_mem_of_mem_statements hstmt) s).1 hs⟩
  · rintro ⟨stmt, hstmt, hs⟩
    exact ⟨stmt, hstmt, (mem_declaredBy_iff (stop_not_mem_of_mem_statements hstmt) s).2 hs⟩

theorem before_statements (t : Text) :
    (∀ stmt ∈ statements t, (namesOf stmt).Pairwise Site.Before) ∧
      (statements t).Pairwise fun first second => ∀ a ∈ namesOf first, ∀ b ∈ namesOf second, a.Before b := by
  have h := before_sites t
  rwa [← flatMap_namesOf_statements, List.pairwise_flatMap] at h

/-- A place is in one statement only. -/
theorem eq_of_mem_namesOf {t : Text} {first second : List Token} (hfirst : first ∈ statements t)
    (hsecond : second ∈ statements t) {s : Site} (hs : s ∈ namesOf first) (hs' : s ∈ namesOf second) :
    first = second := by
  have hsymm : Std.Symm fun x y => (namesOf x).Disjoint (namesOf y) := ⟨fun _ _ h => fun r hx hy => h hy hx⟩
  have hdisjoint : (statements t).Pairwise fun x y => (namesOf x).Disjoint (namesOf y) :=
    (before_statements t).2.imp fun h r hx hy => (h r hx r hy).ne rfl
  by_contra hne
  exact hdisjoint.forall hfirst hsecond hne hs hs'

theorem InvertsIn.unique {t : Text} {k f k' f' : Site} (h : InvertsIn t k f) (h' : InvertsIn t k' f')
    (hmeet : k ∈ [k', f'] ∨ f ∈ [k', f']) : k = k' ∧ f = f' := by
  obtain ⟨stmt, hstmt, hinv⟩ := h
  obtain ⟨stmt', hstmt', hinv'⟩ := h'
  have heq : stmt = stmt' := by
    rcases hmeet with hk | hf
    · exact eq_of_mem_namesOf hstmt hstmt' (hinv.sublist.subset (by simp)) (hinv'.sublist.subset hk)
    · exact eq_of_mem_namesOf hstmt hstmt' (hinv.sublist.subset (by simp)) (hinv'.sublist.subset hf)
  subst heq
  simpa using List.prefix_of_prefix_length_le hinv.2.2 hinv'.2.2 (by simp)

theorem InvertsIn.before {t : Text} {k f : Site} (h : InvertsIn t k f) : k.Before f := by
  obtain ⟨stmt, hstmt, hinv⟩ := h
  simpa using ((before_statements t).1 stmt hstmt).sublist hinv.sublist

/-- The two names of such a statement stand side by side. -/
theorem InvertsIn.cases_of_mem_sites {t : Text} {k f s : Site} (h : InvertsIn t k f) (hs : s ∈ sites t) :
    s.Before k ∨ s = k ∨ s = f ∨ f.Before s := by
  obtain ⟨stmt, hstmt, _, _, hfirst⟩ := h
  obtain ⟨earlier, later, hsplit⟩ := List.append_of_mem hstmt
  have hleft : namesOf (leftOf stmt) <+: namesOf stmt := (List.takeWhile_prefix _).filterMap _
  obtain ⟨rest, hrest⟩ := hfirst.trans hleft
  have hsites : sites t = earlier.flatMap namesOf ++ k :: f :: (rest ++ later.flatMap namesOf) := by
    rw [← flatMap_namesOf_statements, hsplit, List.flatMap_append, List.flatMap_cons, ← hrest]
    simp
  have hbefore := before_sites t
  rw [hsites, List.pairwise_append, List.pairwise_cons, List.pairwise_cons] at hbefore
  obtain ⟨_, ⟨_, hbehind, _⟩, hahead⟩ := hbefore
  rw [hsites, List.mem_append, List.mem_cons, List.mem_cons] at hs
  rcases hs with hs | rfl | rfl | hs
  · exact .inl (hahead s hs k List.mem_cons_self)
  · exact .inr (.inl rfl)
  · exact .inr (.inr (.inl rfl))
  · exact .inr (.inr (.inr (hbehind s hs)))

theorem InvertsIn.declared {t : Text} {k f : Site} (h : InvertsIn t k f) : DeclaredIn t k ∧ DeclaredIn t f := by
  obtain ⟨stmt, hstmt, hinv⟩ := h
  have hstop := stop_not_mem_of_mem_statements hstmt
  obtain ⟨more, heq, _⟩ := declaredBy_of_inverts hstop hinv
  exact ⟨⟨stmt, hstmt, (mem_declaredBy_iff hstop k).1 (by simp [heq])⟩,
    ⟨stmt, hstmt, (mem_declaredBy_iff hstop f).1 (by simp [heq])⟩⟩

theorem mem_namesOf_of_mem_declaredBy {t : Text} {stmt : List Token} (hstmt : stmt ∈ statements t) {s : Site}
    (hs : s ∈ declaredBy stmt) : s ∈ namesOf stmt :=
  mem_namesOf_of_declares ((mem_declaredBy_iff (stop_not_mem_of_mem_statements hstmt) s).1 hs)

theorem pairwise_declaredSites (t : Text) :
    (declaredSites t).Pairwise fun a b => ¬InvertsIn t a b ∧ (a.Before b ∨ InvertsIn t b a) := by
  obtain ⟨hwithin, hacross⟩ := before_statements t
  rw [declaredSites, List.pairwise_flatMap]
  constructor
  · intro stmt hstmt
    refine (pairwise_declaredBy (stop_not_mem_of_mem_statements hstmt) (hwithin stmt hstmt)).imp_of_mem ?_
    rintro a b ha - ⟨hnot, hbefore⟩
    refine ⟨?_, hbefore.imp_right fun hinv => ⟨stmt, hstmt, hinv⟩⟩
    rintro ⟨stmt', hstmt', hinv⟩
    have hmem : a ∈ namesOf stmt' := hinv.sublist.subset (by simp)
    rw [eq_of_mem_namesOf hstmt' hstmt hmem (mem_namesOf_of_mem_declaredBy hstmt ha)] at hinv
    exact hnot hinv
  · refine hacross.imp_of_mem ?_
    intro first second hfirst hsecond hbefore a ha b hb
    have ha := mem_namesOf_of_mem_declaredBy hfirst ha
    have hb := mem_namesOf_of_mem_declaredBy hsecond hb
    refine ⟨?_, .inl (hbefore a ha b hb)⟩
    rintro ⟨stmt, hstmt, hinv⟩
    have hone : stmt = first := eq_of_mem_namesOf hstmt hfirst (hinv.sublist.subset (by simp)) ha
    have hother : stmt = second := eq_of_mem_namesOf hstmt hsecond (hinv.sublist.subset (by simp)) hb
    have ha' : a ∈ namesOf second := hother ▸ hone ▸ ha
    exact (hbefore a ha a ha').ne rfl

/-! ## Declarations -/

/-- The places of the declarations. -/
def firstSites (t : Text) : List Site := (firstOfEach (declarings (.between []) (lines t))).map Declaring.site

theorem firstSites_sublist (t : Text) : (firstSites t).Sublist (declaredSites t) := by
  rw [declaredSites, ← map_site_declarings]
  exact (firstOfEach_sublist _).map _

theorem eq_or_of_mem_firstOfEach {R : Declaring → Declaring → Prop} {ds : List Declaring} (h : ds.Pairwise R)
    {d e : Declaring} (hd : d ∈ firstOfEach ds) (he : e ∈ ds) (hname : e.site.name = d.site.name) : e = d ∨ R d e := by
  induction ds with
  | nil => cases he
  | cons c ds ih =>
    rw [List.pairwise_cons] at h
    rcases List.mem_cons.1 hd with rfl | hd
    · rcases List.mem_cons.1 he with rfl | he
      · exact .inl rfl
      · exact .inr (h.1 e he)
    · obtain ⟨hd, hne⟩ := List.mem_filter.1 hd
      rcases List.mem_cons.1 he with rfl | he
      · simp [hname] at hne
      · exact ih h.2 hd he

theorem eq_or_of_mem_firstSites {t : Text} {s r : Site} (hs : s ∈ firstSites t) (hr : DeclaredIn t r)
    (hname : r.name = s.name) : r = s ∨ ¬InvertsIn t s r ∧ (s.Before r ∨ InvertsIn t r s) := by
  have hpairs := pairwise_declaredSites t
  rw [← mem_declaredSites_iff] at hr
  rw [declaredSites, ← map_site_declarings] at hr hpairs
  obtain ⟨d, hd, rfl⟩ := List.mem_map.1 hs
  obtain ⟨e, he, rfl⟩ := List.mem_map.1 hr
  rcases eq_or_of_mem_firstOfEach (List.pairwise_map.1 hpairs) hd he hname with rfl | h
  · exact .inl rfl
  · exact .inr h

/-- A place before a declaration of its name that declares it too is the `DEBPROC` of a statement that
gives this name to a procedure. -/
theorem invertsIn_of_before {t : Text} {s r : Site} (hs : s ∈ firstSites t) (hr : DeclaredIn t r)
    (hname : r.name = s.name) (hbefore : r.Before s) : InvertsIn t r s := by
  rcases eq_or_of_mem_firstSites hs hr hname with rfl | ⟨_, hafter | hinv⟩
  · exact absurd rfl hbefore.ne
  · unfold Site.Before at hbefore hafter
    omega
  · exact hinv

theorem exists_mem_firstSites {t : Text} {r : Site} (hr : DeclaredIn t r) : ∃ s ∈ firstSites t, s.name = r.name := by
  rw [← mem_declaredSites_iff, declaredSites, ← map_site_declarings] at hr
  obtain ⟨e, he, rfl⟩ := List.mem_map.1 hr
  obtain ⟨d, hd, hname⟩ := (exists_mem_firstOfEach_iff _ _).2 ⟨e, he, rfl⟩
  exact ⟨d.site, List.mem_map_of_mem hd, hname⟩

theorem map_span_scan (t : Text) :
    (scan t).map (fun d => (d.name, d.span)) = (firstSites t).map fun s => (s.name, s.span) := by
  simp [scan, firstSites]

theorem exists_firstSite_of_mem_scan {t : Text} {d : Declaration} (hd : d ∈ scan t) :
    ∃ s ∈ firstSites t, s.name = d.name ∧ s.span = d.span := by
  have hmem := List.mem_map_of_mem (f := fun d : Declaration => (d.name, d.span)) hd
  rw [map_span_scan] at hmem
  obtain ⟨s, hs, heq⟩ := List.mem_map.1 hmem
  exact ⟨s, hs, congrArg Prod.fst heq, congrArg Prod.snd heq⟩

theorem exists_mem_scan_of_firstSite {t : Text} {s : Site} (hs : s ∈ firstSites t) :
    ∃ d ∈ scan t, d.name = s.name ∧ d.span = s.span := by
  have hmem := List.mem_map_of_mem (f := fun s : Site => (s.name, s.span)) hs
  rw [← map_span_scan] at hmem
  obtain ⟨d, hd, heq⟩ := List.mem_map.1 hmem
  exact ⟨d, hd, congrArg Prod.fst heq, congrArg Prod.snd heq⟩

theorem ascending_iff (t : Text) :
    ((scan t).Pairwise fun d e => d.span.start < e.span.start) ↔ (firstSites t).Pairwise Site.Before := by
  have h := congrArg (List.Pairwise fun a b : Name × Span => a.2.start < b.2.start) (map_span_scan t)
  rw [List.pairwise_map, List.pairwise_map] at h
  exact Iff.of_eq h

/-- Whether a place declares one of two names before both. -/
def Forestalled (t : Text) (k f : Site) : Prop :=
  ∃ s, DeclaredIn t s ∧ (s.name = k.name ∨ s.name = f.name) ∧ s.Before k

theorem InvertsIn.not_forestalled {t : Text} {k f : Site} (h : InvertsIn t k f) (hf : f ∈ firstSites t)
    (hk : k ∈ firstSites t ∨ k.name = f.name) : ¬Forestalled t k f := by
  rintro ⟨s, hs, hname, hbefore⟩
  have hsf : s.Before f := Nat.lt_trans hbefore h.before
  have hfalse : s.name ≠ f.name := by
    intro hname
    obtain ⟨rfl, _⟩ := (invertsIn_of_before hf hs hname hsf).unique h (.inr (by simp))
    exact hbefore.ne rfl
  have hname := hname.resolve_right hfalse
  rcases hk with hk | hk
  · obtain ⟨_, rfl⟩ := (invertsIn_of_before hk hs hname hbefore).unique h (.inr (by simp))
    exact h.before.ne rfl
  · exact hfalse (hname.trans hk)

theorem not_invertsIn_of_ascending {t : Text} (h : (firstSites t).Pairwise Site.Before) {k f : Site}
    (hk : k ∈ firstSites t) (hf : f ∈ firstSites t) : ¬InvertsIn t k f := by
  intro hinv
  have hsymm : Std.Symm fun a b => ¬InvertsIn t a b ∧ ¬InvertsIn t b a := ⟨fun _ _ => And.symm⟩
  have hpairs : (firstSites t).Pairwise fun a b => ¬InvertsIn t a b ∧ ¬InvertsIn t b a := by
    refine (h.and ((pairwise_declaredSites t).sublist (firstSites_sublist t))).imp ?_
    rintro a b ⟨hbefore, hnot, _⟩
    exact ⟨hnot, fun hinv => Nat.lt_asymm hbefore hinv.before⟩
  exact (hpairs.forall hk hf hinv.before.ne).1 hinv

theorem DeclaredIn.mem_sites {t : Text} {s : Site} (h : DeclaredIn t s) : s ∈ sites t := by
  obtain ⟨stmt, hstmt, hs⟩ := h
  rw [← flatMap_namesOf_statements]
  exact List.mem_flatMap.2 ⟨stmt, hstmt, mem_namesOf_of_declares hs⟩

theorem declaredIn_of_mem_firstSites {t : Text} {s : Site} (h : s ∈ firstSites t) : DeclaredIn t s :=
  mem_declaredSites_iff.1 ((firstSites_sublist t).subset h)

theorem name_eq_of_span_eq {t : Text} {r s : Site} (hr : r ∈ sites t) (hs : s ∈ sites t) (h : r.span = s.span) :
    r.name = s.name := by
  by_contra hne
  have hapart := apart_of_mem_sites hr hs fun heq => hne (congrArg Site.name heq)
  have hsolid := start_lt_stop_of_mem_sites hs
  rw [h] at hapart
  unfold Span.Apart at hapart
  omega

theorem inOrder_iff_firstSites (t : Text) :
    InOrder t ↔
      (∀ s ∈ firstSites t, ∀ r, DeclaredIn t r → r.name = s.name → s.span.start ≤ r.span.start) ∧
        (firstSites t).Pairwise Site.Before := by
  constructor
  · intro h
    refine ⟨fun s hs r hr hname => ?_, (ascending_iff t).1 h.ascending⟩
    obtain ⟨d, hd, hdname, hdspan⟩ := exists_mem_scan_of_firstSite hs
    obtain ⟨s', _, _, hspan, hleast⟩ := h.first d hd
    rw [hspan, hdspan] at hleast
    exact hleast r hr (hname.trans hdname.symm)
  · rintro ⟨hfirst, hascending⟩
    refine ⟨fun d hd => ?_, fun d hd span hspan hbefore r hr heq => ?_, (ascending_iff t).2 hascending⟩
    · obtain ⟨s, hs, hname, hspan⟩ := exists_firstSite_of_mem_scan hd
      refine ⟨s, declaredIn_of_mem_firstSites hs, hname, hspan, fun r hr hrname => ?_⟩
      exact hfirst s hs r hr (hrname.trans hname.symm)
    · obtain ⟨s, hs, hname, hsspan⟩ := exists_firstSite_of_mem_scan hd
      obtain ⟨u, hu, huname, huspan⟩ := exists_site_of_mem_spans hd (List.mem_cons_of_mem _ hspan)
      have hrname := name_eq_of_span_eq hr.mem_sites hu (heq.trans huspan.symm)
      have hle := hfirst s hs r hr (hrname.trans (huname.trans hname.symm))
      rw [heq, hsspan] at hle
      omega

/-- **The declarations are in document order, each at the first place that declares its name, just when
every statement that declares a procedure before its own `DEBPROC` comes too late for their names.** -/
theorem inOrder_iff (t : Text) : InOrder t ↔ ∀ k f, InvertsIn t k f → Forestalled t k f := by
  rw [inOrder_iff_firstSites]
  constructor
  · rintro ⟨hfirst, hascending⟩ k f hinv
    by_contra hnone
    -- No declaration of the two names is before `k`, and none can be between `k` and `f`.
    have hcases : ∀ s ∈ firstSites t, s.name = k.name ∨ s.name = f.name → s = k ∨ s = f ∨ f.Before s := by
      intro s hs hname
      have hs := declaredIn_of_mem_firstSites hs
      exact (hinv.cases_of_mem_sites hs.mem_sites).resolve_left fun hbefore => hnone ⟨s, hs, hname, hbefore⟩
    have hbefore : k.Before f := hinv.before
    unfold Site.Before at hbefore hcases
    obtain ⟨hkdeclared, hfdeclared⟩ := hinv.declared
    have hk : k ∈ firstSites t := by
      obtain ⟨s, hs, hname⟩ := exists_mem_firstSites hkdeclared
      have hle := hfirst s hs k hkdeclared hname.symm
      rcases hcases s hs (.inl hname) with rfl | rfl | hlater
      · exact hs
      · omega
      · omega
    obtain ⟨s, hs, hname⟩ := exists_mem_firstSites hfdeclared
    have hle := hfirst s hs f hfdeclared hname.symm
    rcases hcases s hs (.inr hname) with rfl | rfl | hlater
    · rcases eq_or_of_mem_firstSites hs hfdeclared hname.symm with rfl | ⟨hnot, _⟩
      · omega
      · exact hnot hinv
    · exact not_invertsIn_of_ascending hascending hk hs hinv
    · omega
  · intro h
    constructor
    · intro s hs r hr hname
      by_contra hbefore
      have hinv := invertsIn_of_before hs hr hname (Nat.lt_of_not_le hbefore)
      exact hinv.not_forestalled hs (.inr hname) (h r s hinv)
    · refine ((pairwise_declaredSites t).sublist (firstSites_sublist t)).imp_of_mem ?_
      rintro a b ha hb ⟨_, hbefore | hinv⟩
      · exact hbefore
      · exact absurd (h b a hinv) (hinv.not_forestalled ha (.inl hb))

/-- A procedure of the name `DEBP`: the first place declares the name, and is a use of the second. And
one of another name: the `DEBP` before it is declared behind it. -/
theorem not_inOrder_of_procedure_with_assign :
    (scan "DEBP DEBP = 1;".toList = [⟨.of "DEBP".toList, [], ⟨5, 9⟩, [⟨0, 4⟩]⟩] ∧ ¬InOrder "DEBP DEBP = 1;".toList) ∧
    (scan "DEBP F = 1;".toList = [⟨.of "F".toList, [], ⟨5, 6⟩, []⟩, ⟨.of "DEBP".toList, [], ⟨0, 4⟩, []⟩] ∧
      ¬InOrder "DEBP F = 1;".toList) := by
  have hsame : scan "DEBP DEBP = 1;".toList = [⟨.of "DEBP".toList, [], ⟨5, 9⟩, [⟨0, 4⟩]⟩] := by decide +kernel
  have hother : scan "DEBP F = 1;".toList =
      [⟨.of "F".toList, [], ⟨5, 6⟩, []⟩, ⟨.of "DEBP".toList, [], ⟨0, 4⟩, []⟩] := by
    decide +kernel
  refine ⟨⟨hsame, fun h => ?_⟩, hother, fun h => ?_⟩
  · let first : Site := ⟨.of "DEBP".toList, ⟨0, 4⟩⟩
    let second : Site := ⟨.of "DEBP".toList, ⟨5, 9⟩⟩
    have hstatements : statements "DEBP DEBP = 1;".toList = [[.name first, .name second, .assign, .other], []] := by
      decide +kernel
    have hdeclared : DeclaredIn "DEBP DEBP = 1;".toList first := by
      refine ⟨[.name first, .name second, .assign, .other], ?_, [], _, rfl, by simp, .inr ⟨by simp, ?_⟩⟩
      · rw [hstatements]
        exact List.mem_cons_self
      · exact not_indexes_of_namesOf_eq_nil rfl
    have huses := h.uses
    rw [hsame] at huses
    exact huses _ List.mem_cons_self ⟨0, 4⟩ (by decide) (by decide) first hdeclared rfl
  · have hascending := h.ascending
    rw [hother] at hascending
    simp at hascending

end GibianeEditor.Source
