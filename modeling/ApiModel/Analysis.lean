import ApiModel.Draft.Declare
import ApiModel.Model.Inheritance

/-!
# Analysis

From declarations to a finished model: declare everything, settle the pending
references, refuse inheritance cycles, and only then parse the constraints,
which may refer to anything in the model.
-/

namespace ApiModel

inductive AnalysisError where
  | invalidName (cause : InvalidName)
  | circularInheritance (cycle : InheritanceCycle)
deriving DecidableEq, Repr

def AnalysisError.message : AnalysisError → String
  | invalidName cause => cause.message
  | circularInheritance cycle => cycle.message

/-! ## Constraints -/

/-- Reads the source of a constraint of a `Method`, or tells why it can't be read. -/
abbrev ConstraintParser := Model → Method → String → Except String Expr

/-- The model and the diagnostics while constraints are parsed. -/
structure ConstraintPass where
  model : Model
  diagnostics : List Diagnostic

/-- Parses the constraint at `r`. -/
def ConstraintPass.step (parser : ConstraintParser) (p : ConstraintPass) (r : ConstraintRef) :
    ConstraintPass :=
  match p.model.method? r.method, p.model.constraint? r with
  | some method, some constraint =>
    match parser p.model method constraint.source with
    | .ok e => { p with model := p.model.setExpression r e }
    | .error cause =>
      let report := Diagnostic.constraintParse constraint.concept.name method.name cause
      { p with diagnostics := p.diagnostics ++ [report] }
  | _, _ => p

/-- Parses the constraints of `queue` in order; without a `parser` they stay as they are. -/
def parseConstraints (parser : Option ConstraintParser) (queue : List ConstraintRef)
    (p : ConstraintPass) : ConstraintPass :=
  match parser with
  | none => p
  | some parser => queue.foldl (ConstraintPass.step parser) p

/-! ## The whole analysis -/

structure Analysis where
  model : Model
  diagnostics : List Diagnostic

/-- Completes the draft `d`: `Draft.fixup`, then the check for cycles, then `parseConstraints`. -/
def Draft.build (d : Draft) (parser : Option ConstraintParser) : Except AnalysisError Analysis :=
  let fixed := d.fixup
  match fixed.model.inheritanceCycle? with
  | some cycle => .error (.circularInheritance cycle)
  | none =>
    let parsed := parseConstraints parser fixed.constraints ⟨fixed.model, fixed.diagnostics⟩
    .ok ⟨parsed.model, parsed.diagnostics⟩

def analyzeWith (parser : Option ConstraintParser) (decls : List Declaration) :
    Except AnalysisError Analysis :=
  match Draft.declareAll {} decls with
  | (.error e, _) => .error (.invalidName e)
  | (.ok _, d) => d.build parser

def analyze (decls : List Declaration) : Except AnalysisError Analysis :=
  analyzeWith none decls

end ApiModel
