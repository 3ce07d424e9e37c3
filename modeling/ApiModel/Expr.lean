import ApiModel.Name.Basic

/-!
# Constraint expressions

The tree a constraint's source is parsed to, and the text it is shown as.
Compound expressions inside others are put in parentheses, so that the text
tells the tree.
-/

namespace ApiModel

inductive Operator where
  | not
  | and
  | or
  | equal
  | notEqual
  | lessThan
  | lessOrEqual
  | greaterThan
  | greaterOrEqual
deriving DecidableEq, Repr

def Operator.symbol : Operator → String
  | .not => "!"
  | .and => "&&"
  | .or => "||"
  | .equal => "=="
  | .notEqual => "!="
  | .lessThan => "<"
  | .lessOrEqual => "<="
  | .greaterThan => ">"
  | .greaterOrEqual => ">="

inductive Expr where
  /-- A literal, kept as written. -/
  | literal (text : String)
  /-- A parameter of the method. -/
  | parameter (name : Name)
  /-- An attribute with nothing in front of it. -/
  | attribute (name : Name)
  /-- An attribute read from the value of `target`. -/
  | access (target : Expr) (name : Name)
  | unary (operator : Operator) (operand : Expr)
  | binary (operator : Operator) (left right : Expr)
deriving DecidableEq, Repr

namespace Expr

def wrap (isProtected : Bool) (text : String) : String :=
  if isProtected then "(" ++ text ++ ")" else text

/-- The text of an expression; a compound one stands in parentheses if `isProtected`. -/
def render (isProtected : Bool) : Expr → String
  | .literal text => text
  | .parameter name => name.display
  | .attribute name => name.display
  | .access target name => wrap isProtected (target.render true ++ "." ++ name.display)
  | .unary operator operand => wrap isProtected (operator.symbol ++ operand.render true)
  | .binary operator left right =>
    wrap isProtected
      (left.render true ++ " " ++ operator.symbol ++ " " ++ right.render true)

def display (e : Expr) : String :=
  e.render false

end Expr

end ApiModel
