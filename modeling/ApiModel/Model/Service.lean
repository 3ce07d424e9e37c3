import ApiModel.Expr
import ApiModel.Model.Data

/-!
# Services

A service groups methods, and locators that lead to further services. A service
that is referred to and not declared is undefined: it has a name and nothing
else.
-/

namespace ApiModel

structure ServiceId where
  index : Nat
deriving DecidableEq, Repr, Inhabited

inductive Direction where
  | input
  | output
  | both
deriving DecidableEq, Repr, Inhabited

namespace Direction

def ofFlags (input output : Bool) : Option Direction :=
  match input, output with
  | true, true => some .both
  | true, false => some .input
  | false, true => some .output
  | false, false => none

def isIn : Direction → Bool
  | .input | .both => true
  | .output => false

def isOut : Direction → Bool
  | .output | .both => true
  | .input => false

end Direction

structure Parameter where
  concept : Concept
  type : TypeId
  direction : Direction

def Parameter.name (p : Parameter) : Name :=
  p.concept.name

/-- The position of a method: its `service`, and its place `index` among the methods there. -/
structure MethodRef where
  service : ServiceId
  index : Nat
deriving DecidableEq, Repr

/-- The position of a constraint: its `method`, and its place `index` among the constraints
there. -/
structure ConstraintRef where
  method : MethodRef
  index : Nat
deriving DecidableEq, Repr

/-- A condition on the parameters of a method. The `source` is kept as written; the `expression` is
known once it has been parsed. -/
structure Constraint where
  concept : Concept
  direction : Direction
  source : String
  method : MethodRef
  expression : Option Expr := none

structure Method where
  concept : Concept
  service : ServiceId
  parameters : List Parameter := []
  constraints : List Constraint := []

namespace Method

def name (m : Method) : Name :=
  m.concept.name

def parameter? (m : Method) (name : Name) : Option Parameter :=
  m.parameters.find? (·.name = name)

def inParameters (m : Method) : List Parameter :=
  m.parameters.filter (·.direction.isIn)

def outParameters (m : Method) : List Parameter :=
  m.parameters.filter (·.direction.isOut)

def addParameter (m : Method) (p : Parameter) : Method :=
  { m with parameters := m.parameters ++ [p] }

def addConstraint (m : Method) (c : Constraint) : Method :=
  { m with constraints := m.constraints ++ [c] }

end Method

structure Locator where
  concept : Concept
  service : ServiceId
  parameters : List Parameter := []

namespace Locator

def name (l : Locator) : Name :=
  l.concept.name

def addParameter (l : Locator) (p : Parameter) : Locator :=
  { l with parameters := l.parameters ++ [p] }

end Locator

structure DefinedService where
  concept : Concept
  module : Option ModuleId := none
  base : Option ServiceId := none
  methods : List Method := []
  locators : List Locator := []

namespace DefinedService

def name (s : DefinedService) : Name :=
  s.concept.name

def method? (s : DefinedService) (name : Name) : Option Method :=
  s.methods.find? (·.name = name)

def locator? (s : DefinedService) (name : Name) : Option Locator :=
  s.locators.find? (·.name = name)

def addMethod (s : DefinedService) (m : Method) : DefinedService :=
  { s with methods := s.methods ++ [m] }

def addLocator (s : DefinedService) (l : Locator) : DefinedService :=
  { s with locators := s.locators ++ [l] }

def modifyMethod (s : DefinedService) (index : Nat) (f : Method → Method) : DefinedService :=
  { s with methods := s.methods.modify index f }

def modifyLocator (s : DefinedService) (index : Nat) (f : Locator → Locator) : DefinedService :=
  { s with locators := s.locators.modify index f }

end DefinedService

inductive Service where
  | defined (s : DefinedService)
  | undefined (name : Name)

namespace Service

def name : Service → Name
  | defined s => s.name
  | undefined name => name

def defined? : Service → Option DefinedService
  | defined s => some s
  | undefined _ => none

def undefined? : Service → Option Name
  | defined _ => none
  | undefined name => some name

def mapDefined (f : DefinedService → DefinedService) : Service → Service
  | defined s => defined (f s)
  | undefined name => undefined name

end Service

end ApiModel
