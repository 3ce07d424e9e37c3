import ApiModel.Name.Basic

/-!
# Diagnostics

Findings that don't stop a compilation: names that nothing declares, names
declared twice, members that can't be rendered. They are collected in the order
they are found.
-/

namespace ApiModel

inductive Severity where
  | warning
  | error
deriving DecidableEq, Repr

def Severity.label : Severity → String
  | .warning => "warning"
  | .error => "error"

inductive DiagnosticKind where
  | unresolvedType
  | unresolvedService
  | duplicateType
  | duplicateService
  | rootReplaced
  | constraintParse
  | unrenderableMember
  | unresolvedBase
deriving DecidableEq, Repr

namespace DiagnosticKind

/-- A warning leaves the output complete. -/
def severity : DiagnosticKind → Severity
  | .duplicateType | .duplicateService | .rootReplaced => .warning
  | .unresolvedType | .unresolvedService | .constraintParse
  | .unrenderableMember | .unresolvedBase => .error

def label : DiagnosticKind → String
  | .unresolvedType => "unresolved-type"
  | .unresolvedService => "unresolved-service"
  | .duplicateType => "duplicate-type"
  | .duplicateService => "duplicate-service"
  | .rootReplaced => "root-replaced"
  | .constraintParse => "constraint-parse"
  | .unrenderableMember => "unrenderable-member"
  | .unresolvedBase => "unresolved-base"

def all : List DiagnosticKind :=
  [.unresolvedType, .unresolvedService, .duplicateType, .duplicateService, .rootReplaced,
    .constraintParse, .unrenderableMember, .unresolvedBase]

def ofLabel? (label : String) : Option DiagnosticKind :=
  all.find? (·.label = label)

end DiagnosticKind

structure Diagnostic where
  severity : Severity
  kind : DiagnosticKind
  message : String
deriving DecidableEq, Repr

namespace Diagnostic

/-- A diagnostic with the severity of its `kind`. -/
def report (kind : DiagnosticKind) (message : String) : Diagnostic :=
  ⟨kind.severity, kind, message⟩

def display (d : Diagnostic) : String :=
  s!"{d.severity.label}[{d.kind.label}]: {d.message}"

/-! ## What can be found -/

def unresolvedType (name : Name) : Diagnostic :=
  report .unresolvedType s!"can't resolve type '{name.display}'"

def unresolvedService (name : Name) : Diagnostic :=
  report .unresolvedService s!"can't resolve service '{name.display}'"

def rootReplaced (previous next : Name) : Diagnostic :=
  report .rootReplaced s!"root service '{previous.display}' replaced with '{next.display}'"

def constraintParse (constraint method : Name) (cause : String) : Diagnostic :=
  report .constraintParse
    s!"can't parse constraint '{constraint.display}' of method '{method.display}': {cause}"

def unresolvedBase (base owner : Name) : Diagnostic :=
  report .unresolvedBase
    s!"base '{base.display}' of type '{owner.display}' isn't a struct, ignoring it"

/-- `kind` and `type` describe the type that has no place in the schema. -/
def unrenderableMember (member owner : Name) (kind : String) (type : Name) : Diagnostic :=
  report .unrenderableMember
    s!"member '{member.display}' of type '{owner.display}' has {kind} type '{type.display}', skipping it"

end Diagnostic

/-! ## Collections -/

def hasErrors (ds : List Diagnostic) : Bool :=
  ds.any (·.severity = .error)

def countKind (kind : DiagnosticKind) (ds : List Diagnostic) : Nat :=
  (ds.filter (·.kind = kind)).length

end ApiModel
