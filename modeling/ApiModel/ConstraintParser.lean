import ApiModel.Analysis

/-!
# Parsers for constraints

How constraints are written isn't fixed; an analysis takes the parser as an
argument. `literal`, `dotted` and `reject` are sample parsers.
-/

namespace ApiModel.ConstraintParser

def hasDouble (c : Char) : List Char → Bool
  | a :: b :: cs => (a = c && b = c) || hasDouble c (b :: cs)
  | _ => false

/-- A sample parser: the trimmed source as a literal; two question marks in a row are refused. -/
def literal : ConstraintParser := fun _ method source =>
  if hasDouble '?' source.toList then .error s!"bad token in '{method.name.display}'"
  else .ok (.literal (Text.trim source))

/-- The expression that the first `name` of a dotted path stands for. -/
def pathStart (m : Model) (method : Method) (name : Name) : Except String Expr :=
  if (method.parameter? name).isSome then .ok (.parameter name)
  else if (m.findType? name).isSome then .ok (.attribute name)
  else .error s!"unknown name '{name.display}'"

/-- Names divided by dots: a parameter or a type, then attributes. -/
def path (m : Model) (method : Method) (source : List Char) : Except String Expr :=
  match (source.splitOn '.').map fun part => Name.ofCase (String.ofList part) with
  | [] => .error "empty path"
  | name :: names => do
    let start ← pathStart m method name
    return names.foldl Expr.access start

/-- Trimmed text, in characters. -/
def trimmed (cs : List Char) : List Char :=
  (Text.trim (String.ofList cs)).toList

/-- A dotted path behind any number of negations; `fuel` bounds their number. -/
def negatedPath (m : Model) (method : Method) : (fuel : Nat) → List Char → Except String Expr
  | 0, source => path m method (trimmed source)
  | fuel + 1, source =>
    match trimmed source with
    | '!' :: rest => (Expr.unary .not) <$> negatedPath m method fuel rest
    | cs => path m method cs

/-- A sample parser for paths as `vm.name` and `!Vm.name`, see `negatedPath`. -/
def dotted : ConstraintParser := fun m method source =>
  negatedPath m method source.length source.toList

/-- A sample parser that refuses every constraint, with its source as the cause. -/
def reject : ConstraintParser := fun _ _ source =>
  .error source

end ApiModel.ConstraintParser
