/-
The declared names of a document. The first site that declares a name is its declaration, and every
other place of the name in the code, before or behind, is a use.
-/
import GibianeEditor.Source.Statement

namespace GibianeEditor.Source

/-- A declared name with every place where it is written. -/
structure Declaration where
  name : Name
  description : Text
  span : Span
  uses : List Span
  deriving DecidableEq

/-- Of the declaring sites of each name the first. -/
def firstOfEach : List Declaring → List Declaring
  | [] => []
  | d :: rest => d :: (firstOfEach rest).filter fun e => e.site.name ≠ d.site.name

/-- The places of a name among sites, but for one. -/
def usesOf (declared : Site) (sites : List Site) : List Span :=
  (sites.filter fun s => s.name = declared.name ∧ s.span ≠ declared.span).map Site.span

/-- The declarations of a document, in the order in which they are read. -/
def scan (t : Text) : List Declaration :=
  let ls := lines t
  let sites := ls.flatMap Line.sites
  (firstOfEach (declarings (.between []) ls)).map fun d =>
    ⟨d.site.name, d.description, d.site.span, usesOf d.site sites⟩

theorem firstOfEach_sublist (ds : List Declaring) : (firstOfEach ds).Sublist ds := by
  induction ds with
  | nil => exact .slnil
  | cons d ds ih => exact ((List.filter_sublist.trans ih)).cons_cons d

/-- No name is declared twice. -/
theorem nodup_names_firstOfEach (ds : List Declaring) : ((firstOfEach ds).map (·.site.name)).Nodup := by
  induction ds with
  | nil => simp [firstOfEach]
  | cons d ds ih =>
    simp only [firstOfEach, List.map_cons, List.nodup_cons, List.mem_map, List.mem_filter, not_exists, not_and]
    refine ⟨fun e he h => by simp [h] at he, ?_⟩
    exact (List.filter_sublist.map _).nodup ih

end GibianeEditor.Source
