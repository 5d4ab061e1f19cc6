/-
The operators that are built into the language, with a line on each. The language looks at the first
four letters of an operator only, so the catalog names most of them by these.
-/
import GibianeEditor.Symbol.Basic

namespace GibianeEditor

/-- An operator from its name and its description. -/
def Operator.entry (name description : String) : Operator := ⟨Name.of name.toList, description.toList⟩

open Operator in
/-- The built-in operators, in the order in which a table starts with them. -/
def catalog : List Operator :=
  [
    -- control flow
    entry "SI" "SI cond; ... FINSI; Executes the block when the condition holds.",
    entry "SINO" "SINON; Starts the alternative branch of a SI block.",
    entry "FINSI" "FINSI; Closes a SI block.",
    entry "REPE" "REPE bloc n; ... FIN bloc; Repeats a block n times, or until QUIT.",
    entry "ITER" "ITER bloc; Skips to the next iteration of a loop.",
    entry "QUIT" "QUIT bloc; Leaves a loop.",
    entry "FIN" "FIN; Ends a loop block or the program.",
    entry "DEBP" "DEBP nom arg*type; Starts the definition of a procedure.",
    entry "FINP" "FINP res; Ends a procedure definition and returns its results.",
    entry "RESP" "RESP obj; Returns objects from a procedure.",
    -- meshing
    entry "OPTI" "OPTI DIME n ELEM type; Sets global options: dimension, element type, mode.",
    entry "DENS" "DENS d; Sets the default mesh density.",
    entry "POIN" "POIN obj n; Extracts the n-th point of an object.",
    entry "DROI" "DROI n p1 p2; Meshes the straight line between two points.",
    entry "CERC" "CERC n p1 c p2; Meshes a circular arc.",
    entry "SURF" "SURF cont; Meshes the surface enclosed by a contour.",
    entry "VOLU" "VOLU surf n; Builds a volume mesh by extrusion or rotation.",
    entry "TRAN" "TRAN n lign vec; Sweeps a mesh along a vector.",
    entry "ELEM" "ELEM mail type; Extracts elements from a mesh.",
    entry "CONT" "CONT mail; Extracts the boundary contour of a mesh.",
    entry "ET" "mail1 ET mail2; Merges two meshes.",
    -- modelling and solving
    entry "MODE" "MODE mail form comp; Associates a mesh with a formulation and model.",
    entry "MATE" "MATE mod YOUN e NU nu; Defines material properties for a model.",
    entry "RIGI" "RIGI mod mat; Assembles the stiffness matrix.",
    entry "BLOQ" "BLOQ comp mail; Builds blocked degrees of freedom.",
    entry "DEPI" "DEPI bloq val; Imposes values on blocked degrees of freedom.",
    entry "FORC" "FORC comp val mail; Builds a nodal force field.",
    entry "RESO" "RESO rig forc; Solves a linear system.",
    entry "SIGM" "SIGM mod mat dep; Computes stresses from displacements.",
    entry "PASAPAS" "PASAPAS tab; Runs the incremental nonlinear solver.",
    -- objects and output
    entry "TABL" "TABL; Creates an empty table.",
    entry "PROG" "PROG x1 x2 ...; Creates a list of reals.",
    entry "LECT" "LECT i1 i2 ...; Creates a list of integers.",
    entry "EXTR" "EXTR obj comp; Extracts a component or sub-object.",
    entry "EVOL" "EVOL coul MANU x y; Builds an evolution (curve) object.",
    entry "DESS" "DESS evol; Plots evolution objects.",
    entry "TRAC" "TRAC obj; Draws meshes and fields.",
    entry "LIST" "LIST obj; Prints the contents of an object.",
    entry "MESS" "MESS 'text' obj; Prints a message.",
    entry "SAUV" "SAUV 'file'; Saves the current objects.",
    entry "REST" "REST 'file'; Restores saved objects."
  ]

end GibianeEditor
