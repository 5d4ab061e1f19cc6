/-
Reading statements looks at names only to tell them apart and to find `DEBP`, and at places not at
all. So a document whose lines are those of another with other names and places declares the same,
with those names and places (`scan_relocate`).
-/
import GibianeEditor.Proofs.Source.Occurrences

namespace GibianeEditor.Source

variable (ρ : Name → Name) (γ : Span → Span)

/-! ## Other names and places -/

def Site.relocate (s : Site) : Site := ⟨ρ s.name, γ s.span⟩

def Token.relocate : Token → Token
  | .name site => .name (site.relocate ρ γ)
  | token => token

def Line.relocate : Line → Line
  | .code tokens => .code (tokens.map (Token.relocate ρ γ))
  | line => line

def Declaring.relocate (d : Declaring) : Declaring := { d with site := d.site.relocate ρ γ }

def Header.relocate (header : Header) : Header :=
  { header with names := header.names.map (Site.relocate ρ γ) }

def Phase.relocate : Phase → Phase
  | .header statement => .header (statement.relocate ρ γ)
  | phase => phase

def Declaration.relocate (d : Declaration) : Declaration :=
  ⟨ρ d.name, d.description, γ d.span, d.uses.map γ⟩

/-- A phase and what it declared. -/
def relocateRead (r : Phase × List Declaring) : Phase × List Declaring :=
  (r.1.relocate ρ γ, r.2.map (Declaring.relocate ρ γ))

theorem sites_relocate (line : Line) : (line.relocate ρ γ).sites = line.sites.map (Site.relocate ρ γ) := by
  cases line with
  | comment | blank => rfl
  | code tokens =>
    rw [Line.relocate, sites_code, sites_code, List.filterMap_map, List.map_filterMap]
    congr 1
    funext token
    cases token <;> rfl

/-! ## Reading -/

/-- Whether a name is a spelling of `DEBPROC`. -/
def isProcedureKeyword (name : Name) : Bool := procedureKeywords.contains name.letters

variable {ρ γ}

section Reading

variable (hkeyword : ∀ name, isProcedureKeyword (ρ name) = isProcedureKeyword name)
include hkeyword

theorem Header.read_relocate (header : Header) (token : Token) :
    (header.relocate ρ γ).read (token.relocate ρ γ) = relocateRead ρ γ (header.read token) := by
  obtain ⟨description, names, indexed, awaits⟩ := header
  cases token with
  | name site =>
    have hword := hkeyword site.name
    simp only [isProcedureKeyword] at hword
    simp only [Token.relocate, Header.relocate, Header.read, List.isEmpty_map, Site.relocate, hword]
    cases awaits with
    | true => rfl
    | false =>
      cases names.isEmpty && procedureKeywords.contains site.name.letters with
      | true => rfl
      | false =>
        cases indexed with
        | true => rfl
        | false => simp [relocateRead, Phase.relocate, Header.relocate, Site.relocate]
  | assign => simp [Token.relocate, Header.relocate, Header.read, relocateRead, Phase.relocate, Declaring.relocate]
  | dot => simp [Token.relocate, Header.relocate, Header.read, relocateRead, Phase.relocate]
  | stop => rfl
  | other => rfl

theorem Phase.read_relocate (phase : Phase) (token : Token) :
    (phase.relocate ρ γ).read (token.relocate ρ γ) = relocateRead ρ γ (phase.read token) := by
  cases phase with
  | between remarks =>
    have h : ((Header.opening remarks).relocate ρ γ).read (token.relocate ρ γ) =
        relocateRead ρ γ ((Header.opening remarks).read token) := Header.read_relocate hkeyword _ token
    cases token with
    | stop => rfl
    | name | assign | dot | other => exact h
  | header statement => exact Header.read_relocate hkeyword statement token
  | body => cases token <;> rfl

theorem Phase.readAll_relocate (phase : Phase) (tokens : List Token) :
    (phase.relocate ρ γ).readAll (tokens.map (Token.relocate ρ γ)) = relocateRead ρ γ (phase.readAll tokens) := by
  induction tokens generalizing phase with
  | nil => rfl
  | cons token tokens ih =>
    simp only [List.map_cons, Phase.readAll, Phase.read_relocate hkeyword, relocateRead, ih, List.map_append]

theorem Phase.readLine_relocate (phase : Phase) (line : Line) :
    (phase.relocate ρ γ).readLine (line.relocate ρ γ) = relocateRead ρ γ (phase.readLine line) := by
  cases line with
  | code tokens => exact Phase.readAll_relocate hkeyword phase tokens
  | comment | blank => cases phase <;> rfl

theorem declarings_relocate (phase : Phase) (ls : List Line) :
    declarings (phase.relocate ρ γ) (ls.map (Line.relocate ρ γ)) =
      (declarings phase ls).map (Declaring.relocate ρ γ) := by
  induction ls generalizing phase with
  | nil => rfl
  | cons line ls ih =>
    simp only [List.map_cons, declarings, Phase.readLine_relocate hkeyword, relocateRead, ih, List.map_append]

end Reading

/-! ## Telling names apart -/

theorem firstOfEach_relocate (γ : Span → Span) {ds : List Declaring}
    (hnames : ∀ d ∈ ds, ∀ e ∈ ds, ρ d.site.name = ρ e.site.name → d.site.name = e.site.name) :
    firstOfEach (ds.map (Declaring.relocate ρ γ)) = (firstOfEach ds).map (Declaring.relocate ρ γ) := by
  induction ds with
  | nil => rfl
  | cons d ds ih =>
    have hrest := ih fun a ha b hb => hnames a (List.mem_cons_of_mem _ ha) b (List.mem_cons_of_mem _ hb)
    simp only [List.map_cons, firstOfEach, hrest, List.filter_map]
    congr 2
    refine List.filter_congr fun e he => ?_
    have hiff : ρ e.site.name = ρ d.site.name ↔ e.site.name = d.site.name :=
      ⟨hnames e (List.mem_cons_of_mem _ ((firstOfEach_sublist ds).subset he)) d (by simp),
        fun h => congrArg ρ h⟩
    simp [Declaring.relocate, Site.relocate, hiff]

theorem usesOf_relocate {s : Site} {ss : List Site} (hnames : ∀ r ∈ ss, ρ r.name = ρ s.name → r.name = s.name)
    (hspans : ∀ r ∈ ss, γ r.span = γ s.span → r.span = s.span) :
    usesOf (s.relocate ρ γ) (ss.map (Site.relocate ρ γ)) = (usesOf s ss).map γ := by
  have hkept : ∀ r ∈ ss, (ρ r.name = ρ s.name ∧ γ r.span ≠ γ s.span ↔ r.name = s.name ∧ r.span ≠ s.span) := by
    intro r hr
    have hname : ρ r.name = ρ s.name ↔ r.name = s.name := ⟨hnames r hr, fun h => congrArg ρ h⟩
    have hspan : γ r.span = γ s.span ↔ r.span = s.span := ⟨hspans r hr, fun h => congrArg γ h⟩
    rw [hname, Ne, hspan]
  simp only [usesOf, List.filter_map, List.map_map]
  refine congrArg₂ List.map (funext fun _ => rfl) (List.filter_congr fun r hr => ?_)
  exact decide_eq_decide.2 (hkept r hr)

/-- **The declarations of a document with other names and places.** The names have to stay apart,
the places too, and no name may become or stop being a spelling of `DEBPROC`. -/
theorem scan_relocate {t u : Text} (hlines : lines u = (lines t).map (Line.relocate ρ γ))
    (hkeyword : ∀ name, isProcedureKeyword (ρ name) = isProcedureKeyword name)
    (hnames : ∀ r ∈ sites t, ∀ s ∈ sites t, ρ r.name = ρ s.name → r.name = s.name) :
    scan u = (scan t).map (Declaration.relocate ρ γ) := by
  have hsites : sites u = (sites t).map (Site.relocate ρ γ) := by
    simp only [sites, hlines, List.flatMap_map, sites_relocate, List.map_flatMap]
  -- Two sites of `u` have two spans, so `γ` keeps the spans of `t` apart.
  have hspans : ∀ r ∈ sites t, ∀ s ∈ sites t, γ r.span = γ s.span → r.span = s.span := by
    have hnodup : ((sites u).map Site.span).Nodup := (precedes_sites u).imp And.right
    rw [hsites, List.map_map] at hnodup
    exact fun r hr s hs h => congrArg Site.span (List.inj_on_of_nodup_map hnodup hr hs h)
  have hdeclarings : declarings (.between []) (lines u) =
      (declarings (.between []) (lines t)).map (Declaring.relocate ρ γ) := by
    rw [hlines]
    exact declarings_relocate hkeyword (.between []) (lines t)
  have hfirst : firstOfEach ((declarings (.between []) (lines t)).map (Declaring.relocate ρ γ)) =
      (firstOfEach (declarings (.between []) (lines t))).map (Declaring.relocate ρ γ) :=
    firstOfEach_relocate γ fun d hd e he =>
      hnames _ (site_mem_of_mem_declarings hd) _ (site_mem_of_mem_declarings he)
  have hscan : ∀ v, scan v = (firstOfEach (declarings (.between []) (lines v))).map fun d =>
      ⟨d.site.name, d.description, d.site.span, usesOf d.site (sites v)⟩ := fun _ => rfl
  rw [hscan u, hscan t, hdeclarings, hfirst, List.map_map, List.map_map]
  refine List.map_congr_left fun d hd => ?_
  have hd := site_mem_of_mem_declarings ((firstOfEach_sublist _).subset hd)
  have huses := usesOf_relocate (fun r hr => hnames r hr _ hd) (fun r hr => hspans r hr _ hd)
  simp only [Function.comp_apply, Declaring.relocate, Declaration.relocate, hsites, huses]
  rfl

end GibianeEditor.Source
