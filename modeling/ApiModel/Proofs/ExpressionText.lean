import ApiModel.Expr
import Mathlib.Data.List.TakeWhile

/-!
# Expressions read off their text

A compound expression inside another stands in parentheses, and nothing else
does. So an operand is either a word or begins with a parenthesis, and in both
cases its text tells where it ends: a word goes on as long as there are letters,
and a parenthesis up to the one that closes it. What follows the first operand
of an expression tells of which kind the expression is, and an operator ends
where a letter, a space or a parenthesis begins.

The text of an expression is only what is shown of it. A literal, a parameter and
an attribute may look the same, and so may the names of attributes whose words
are divided differently.
-/

namespace ApiModel

/-! ## What is shown -/

/-- An expression as it is shown. Nothing is left of what can't be seen: whether a `leaf` is a
literal, a parameter or an attribute, and how names are divided into words. -/
inductive ShownExpr where
  | leaf (text : String)
  | access (target : ShownExpr) (name : String)
  | unary (operator : Operator) (operand : ShownExpr)
  | binary (operator : Operator) (left right : ShownExpr)
deriving DecidableEq

def Expr.shown : Expr → ShownExpr
  | .literal text => .leaf text
  | .parameter name => .leaf name.display
  | .attribute name => .leaf name.display
  | .access target name => .access target.shown name.display
  | .unary operator operand => .unary operator operand.shown
  | .binary operator left right => .binary operator left.shown right.shown

namespace ShownExpr

/-- The literals and names. -/
def texts : ShownExpr → List String
  | leaf text => [text]
  | access target name => target.texts ++ [name]
  | unary _ operand => operand.texts
  | binary _ left right => left.texts ++ right.texts

def enclosed (isProtected : Bool) (cs : List Char) : List Char :=
  if isProtected then '(' :: cs ++ [')'] else cs

def chars (isProtected : Bool) : ShownExpr → List Char
  | leaf text => text.toList
  | access target name => enclosed isProtected (target.chars true ++ '.' :: name.toList)
  | unary operator operand =>
    enclosed isProtected (operator.symbol.toList ++ operand.chars true)
  | binary operator left right =>
    enclosed isProtected
      (left.chars true ++ ' ' :: operator.symbol.toList ++ ' ' :: right.chars true)

end ShownExpr

theorem Expr.toList_wrap (isProtected : Bool) (text : String) :
    (wrap isProtected text).toList = ShownExpr.enclosed isProtected text.toList := by
  cases isProtected <;> simp [wrap, ShownExpr.enclosed]

/-- The text depends on what is `shown` only. -/
theorem Expr.toList_render (isProtected : Bool) (e : Expr) :
    (e.render isProtected).toList = e.shown.chars isProtected := by
  induction e generalizing isProtected with
  | access target name ih => simp [render, shown, ShownExpr.chars, toList_wrap, ih]
  | unary operator operand ih => simp [render, shown, ShownExpr.chars, toList_wrap, ih]
  | binary operator left right ihl ihr =>
    simp [render, shown, ShownExpr.chars, toList_wrap, ihl, ihr]
  | _ => rfl

/-! ## Words and operators -/

/-- A letter, a digit or an underscore, as in a `leaf`. -/
def isWordChar (c : Char) : Bool :=
  c.isAlphanum || c = '_'

def isWord (text : String) : Bool :=
  text.toList ≠ [] && text.toList.all isWordChar

def isOperatorChar (c : Char) : Bool :=
  c ∈ ['!', '&', '|', '=', '<', '>']

theorem Operator.isOperatorChar_symbol (operator : Operator) :
    ∀ c ∈ operator.symbol.toList, isOperatorChar c := by
  have h : operator.symbol.toList.all isOperatorChar = true := by cases operator <;> decide
  exact List.all_eq_true.mp h

theorem Operator.symbol_injective : Function.Injective symbol := by
  intro a b h
  cases a <;> cases b <;> simp_all [symbol]

theorem Operator.symbol_ne_nil (operator : Operator) : operator.symbol.toList ≠ [] := by
  cases operator <;> decide

/-- Characters of the kind `p` are told apart from what follows them. -/
theorem run_cancel {p : Char → Bool} {w w' rest rest' : List Char} (hw : ∀ c ∈ w, p c)
    (hw' : ∀ c ∈ w', p c) (hrest : ∀ c ∈ rest.head?, p c = false)
    (hrest' : ∀ c ∈ rest'.head?, p c = false) (h : w ++ rest = w' ++ rest') :
    w = w' ∧ rest = rest' := by
  have hrun : ∀ {w rest : List Char}, (∀ c ∈ w, p c) → (∀ c ∈ rest.head?, p c = false) →
      (w ++ rest).takeWhile p = w := by
    intro w rest hw hrest
    rw [List.takeWhile_append_of_pos hw]
    cases rest with
    | nil => simp
    | cons c rest => simp [hrest c rfl]
  obtain rfl : w = w' := by rw [← hrun hw hrest, ← hrun hw' hrest', h]
  exact ⟨rfl, List.append_cancel_left h⟩

namespace ShownExpr

variable {e f : ShownExpr} {rest rest' : List Char}

/-! ## Parts of an expression -/

/-- All `texts`, literals and names, are words. -/
def Legible (e : ShownExpr) : Prop :=
  ∀ text ∈ e.texts, isWord text

theorem legible_access {target : ShownExpr} {name : String} :
    (access target name).Legible ↔ target.Legible ∧ isWord name := by
  simp [Legible, texts, or_imp, forall_and]

theorem legible_binary {operator : Operator} {left right : ShownExpr} :
    (binary operator left right).Legible ↔ left.Legible ∧ right.Legible := by
  simp [Legible, texts, or_imp, forall_and]

theorem isWordChar_of_mem {text : String} (h : isWord text) : ∀ c ∈ text.toList, isWordChar c :=
  List.all_eq_true.mp (Bool.and_eq_true_iff.mp h).2

theorem exists_cons_of_isWord {text : String} (h : isWord text) : ∃ c cs, text.toList = c :: cs :=
  List.exists_cons_of_ne_nil (of_decide_eq_true (Bool.and_eq_true_iff.mp h).1)

/-- The operand that the text begins with, if it begins with one; a `unary` expression doesn't. -/
def first? : ShownExpr → Option ShownExpr
  | leaf text => some (leaf text)
  | access target _ => some target
  | unary _ _ => none
  | binary _ left _ => some left

/-- What comes after the `first?` operand. -/
def further : ShownExpr → List Char
  | leaf _ => []
  | access _ name => '.' :: name.toList
  | unary operator operand => operator.symbol.toList ++ operand.chars true
  | binary operator _ right => ' ' :: operator.symbol.toList ++ ' ' :: right.chars true

theorem chars_false (e : ShownExpr) :
    e.chars false = e.first?.elim [] (chars true) ++ e.further := by
  cases e <;> simp [chars, enclosed, first?, further]

theorem isOperatorChar_of_isWordChar {c : Char} (h : isWordChar c) : isOperatorChar c = false := by
  by_contra hop
  simp only [isOperatorChar, Bool.not_eq_false, decide_eq_true_eq, List.mem_cons,
    List.not_mem_nil, or_false] at hop
  rcases hop with rfl | rfl | rfl | rfl | rfl | rfl <;> exact absurd h (by decide)

/-- An operand doesn't begin with an operator, see `isOperatorChar`. -/
theorem operand_eq_cons (he : e.Legible) :
    ∃ c cs, e.chars true = c :: cs ∧ isOperatorChar c = false := by
  cases e with
  | leaf text =>
    have hword : isWord text := he text (by simp [texts])
    obtain ⟨c, cs, htext⟩ := exists_cons_of_isWord hword
    have hc := isWordChar_of_mem hword c (by simp [htext])
    exact ⟨c, cs, htext, isOperatorChar_of_isWordChar hc⟩
  | _ => exact ⟨'(', _, rfl, by decide⟩

/-! ## Reading off operands -/

/-- What `rest` may follow an operand. -/
def Stops (rest : List Char) : Prop :=
  ∀ c ∈ rest.head?, isWordChar c = false

/-- What `rest` may follow a whole expression: nothing, or the parenthesis that closes it. -/
def Ends (rest : List Char) : Prop :=
  ∀ c ∈ rest.head?, c = ')'

theorem stops_cons {c : Char} (h : isWordChar c = false) : Stops (c :: rest) := by
  rintro _ ⟨⟩
  exact h

theorem Ends.stops (h : Ends rest) : Stops rest := by
  intro c hc
  rw [h c hc]
  decide

theorem Ends.ne_cons (h : Ends rest) {c : Char} {cs : List Char} (hc : c ≠ ')') :
    rest ≠ c :: cs := by
  rintro rfl
  exact hc (h c rfl)

theorem stops_further (e : ShownExpr) (hfirst : e.first? ≠ none) (h : Ends rest) :
    Stops (e.further ++ rest) := by
  cases e with
  | leaf => exact h.stops
  | access | binary => exact stops_cons (by decide)
  | unary => exact absurd rfl hfirst

/-- As an operand, the expression `e` is told apart from what follows it. -/
structure Readable (e : ShownExpr) : Prop where
  cancel : ∀ {f : ShownExpr} {rest rest' : List Char}, f.Legible → Stops rest → Stops rest' →
    e.chars true ++ rest = f.chars true ++ rest' → e = f ∧ rest = rest'

theorem word_ne_parenthesis {text : String} (h : isWord text) (cs cs' : List Char) :
    text.toList ++ cs ≠ '(' :: cs' := by
  intro heq
  obtain ⟨c, tail, htext⟩ := exists_cons_of_isWord h
  have hc := isWordChar_of_mem h c (by simp [htext])
  rw [htext] at heq
  obtain rfl := (List.cons.inj heq).1
  exact absurd hc (by decide)

/-- A compound operand, which isn't a `leaf`, stands in parentheses. -/
theorem chars_true (e : ShownExpr) :
    (∃ text, e = leaf text) ∨ e.chars true = '(' :: (e.chars false ++ [')']) := by
  cases e with
  | leaf text => exact .inl ⟨text, rfl⟩
  | _ => exact .inr rfl

theorem readable_leaf {text : String} (h : isWord text) : (leaf text).Readable := by
  refine ⟨fun {f rest rest'} hf hrest hrest' heq => ?_⟩
  rcases chars_true f with ⟨text', rfl⟩ | hparens
  · have hword : isWord text' := hf text' (by simp [texts])
    obtain ⟨htext, hrest⟩ :=
      run_cancel (isWordChar_of_mem h) (isWordChar_of_mem hword) hrest hrest' heq
    exact ⟨congrArg leaf (String.toList_inj.mp htext), hrest⟩
  · rw [hparens] at heq
    exact absurd heq (word_ne_parenthesis h _ _)

/-- The `symbol` of an operator is told apart from the operand, or the space, that follows it. -/
theorem operator_cancel {a b : Operator} (hrest : ∀ c ∈ rest.head?, isOperatorChar c = false)
    (hrest' : ∀ c ∈ rest'.head?, isOperatorChar c = false)
    (h : a.symbol.toList ++ rest = b.symbol.toList ++ rest') : a = b ∧ rest = rest' := by
  obtain ⟨hsymbol, hrest⟩ :=
    run_cancel a.isOperatorChar_symbol b.isOperatorChar_symbol hrest hrest' h
  exact ⟨Operator.symbol_injective (String.toList_inj.mp hsymbol), hrest⟩

/-- The operands whose texts an expression is made of. -/
def operands : ShownExpr → List ShownExpr
  | leaf text => [leaf text]
  | access target _ => [target]
  | unary _ operand => [operand]
  | binary _ left right => [left, right]

/-- What comes after the first operand, `further`, tells the rest of the expression. -/
theorem further_cancel {x : ShownExpr} (he : e.Legible) (hf : f.Legible)
    (hread : ∀ y ∈ e.operands, Readable y) (hfirst : e.first? = some x)
    (hfirst' : f.first? = some x) (hrest : Ends rest) (hrest' : Ends rest')
    (h : e.further ++ rest = f.further ++ rest') : e = f ∧ rest = rest' := by
  cases e with
  | leaf text =>
    obtain rfl := Option.some.inj hfirst
    cases f with
    | leaf text' => exact ⟨(Option.some.inj hfirst').symm, h⟩
    | access | binary => exact absurd h (hrest.ne_cons (by decide))
    | unary => cases hfirst'
  | access target name =>
    obtain rfl := Option.some.inj hfirst
    cases f with
    | leaf => exact absurd h.symm (hrest'.ne_cons (by decide))
    | access target' name' =>
      obtain rfl := Option.some.inj hfirst'
      obtain ⟨hname, hrest⟩ := run_cancel (isWordChar_of_mem (legible_access.mp he).2)
        (isWordChar_of_mem (legible_access.mp hf).2) hrest.stops hrest'.stops (List.cons.inj h).2
      rw [String.toList_inj.mp hname]
      exact ⟨rfl, hrest⟩
    | unary => cases hfirst'
    | binary => cases (List.cons.inj h).1
  | unary => cases hfirst
  | binary operator left right =>
    obtain rfl := Option.some.inj hfirst
    cases f with
    | leaf => exact absurd h.symm (hrest'.ne_cons (by decide))
    | access => cases (List.cons.inj h).1
    | unary => cases hfirst'
    | binary operator' left' right' =>
      obtain rfl := Option.some.inj hfirst'
      have hspace : ∀ {cs : List Char}, ∀ c ∈ (' ' :: cs).head?, isOperatorChar c = false := by
        rintro cs _ ⟨⟩
        decide
      simp only [further, List.cons_append, List.append_assoc] at h
      obtain ⟨rfl, hright⟩ := operator_cancel hspace hspace (List.cons.inj h).2
      obtain ⟨rfl, hrest⟩ := (hread right (by simp [operands])).cancel (legible_binary.mp hf).2
        hrest.stops hrest'.stops (List.cons.inj hright).2
      exact ⟨rfl, hrest⟩

/-- A `unary` expression is told by its operator and its operand. -/
theorem unary_cancel {a b : Operator} {x y : ShownExpr} (hx : x.Legible) (hy : y.Legible)
    (hread : Readable x) (hrest : Stops rest) (hrest' : Stops rest')
    (h : (unary a x).further ++ rest = (unary b y).further ++ rest') :
    unary a x = unary b y ∧ rest = rest' := by
  have hhead : ∀ {z : ShownExpr} {cs : List Char}, z.Legible →
      ∀ c ∈ (z.chars true ++ cs).head?, isOperatorChar c = false := by
    intro z cs hz d hd
    obtain ⟨c, tail, hc, hop⟩ := operand_eq_cons hz
    rw [hc] at hd
    obtain rfl := Option.some.inj hd
    exact hop
  rw [further, further, List.append_assoc, List.append_assoc] at h
  obtain ⟨rfl, hoperand⟩ := operator_cancel (hhead hx) (hhead hy) h
  obtain ⟨rfl, hrest⟩ := hread.cancel hy hrest hrest' hoperand
  exact ⟨rfl, hrest⟩

/-- No expression but a `unary` one begins with an operator. -/
theorem unary_ne {operator : Operator} {operand x : ShownExpr} (hx : x.Legible)
    (cs cs' : List Char) : (unary operator operand).further ++ cs ≠ x.chars true ++ cs' := by
  intro h
  obtain ⟨c, tail, hc, hop⟩ := operand_eq_cons hx
  obtain ⟨d, symbol, hd⟩ := List.exists_cons_of_ne_nil operator.symbol_ne_nil
  have hsymbol := operator.isOperatorChar_symbol d (by simp [hd])
  rw [further, hd, hc] at h
  obtain rfl := (List.cons.inj h).1
  exact absurd hsymbol (by simp [hop])

theorem first?_eq_none (h : e.first? = none) : ∃ operator operand, e = unary operator operand := by
  cases e with
  | unary operator operand => exact ⟨operator, operand, rfl⟩
  | _ => cases h

theorem Legible.first (he : e.Legible) {x : ShownExpr} (h : e.first? = some x) : x.Legible := by
  cases e with
  | leaf => exact Option.some.inj h ▸ he
  | access => exact Option.some.inj h ▸ (legible_access.mp he).1
  | unary => cases h
  | binary => exact Option.some.inj h ▸ (legible_binary.mp he).1

theorem first_mem_operands {x : ShownExpr} (h : e.first? = some x) : x ∈ e.operands := by
  cases e with
  | unary => cases h
  | _ => simp [operands, ← Option.some.inj h]

/-- A whole expression is told apart from what follows it, if its `operands` are. -/
theorem whole_cancel (he : e.Legible) (hf : f.Legible) (hread : ∀ y ∈ e.operands, Readable y)
    (hrest : Ends rest) (hrest' : Ends rest')
    (h : e.chars false ++ rest = f.chars false ++ rest') : e = f ∧ rest = rest' := by
  rw [chars_false, chars_false, List.append_assoc, List.append_assoc] at h
  rcases hx : e.first? with _ | x <;> rcases hy : f.first? with _ | y <;>
    simp only [hx, hy, Option.elim_none, Option.elim_some, List.nil_append] at h
  · obtain ⟨a, x, rfl⟩ := first?_eq_none hx
    obtain ⟨b, y, rfl⟩ := first?_eq_none hy
    exact unary_cancel he hf (hread x (by simp [operands])) hrest.stops hrest'.stops h
  · obtain ⟨a, x, rfl⟩ := first?_eq_none hx
    exact absurd h (unary_ne (hf.first hy) _ _)
  · obtain ⟨b, y, rfl⟩ := first?_eq_none hy
    exact absurd h.symm (unary_ne (he.first hx) _ _)
  · obtain ⟨rfl, hfurther⟩ := (hread x (first_mem_operands hx)).cancel (hf.first hy)
      (stops_further e (by simp [hx]) hrest) (stops_further f (by simp [hy]) hrest') h
    exact further_cancel he hf hread hx hy hrest hrest' hfurther

theorem readable_compound (he : e.Legible) (hread : ∀ y ∈ e.operands, Readable y)
    (hparens : e.chars true = '(' :: (e.chars false ++ [')'])) : e.Readable := by
  refine ⟨fun {f rest rest'} hf _ _ h => ?_⟩
  have hends : ∀ cs : List Char, Ends (')' :: cs) := fun _ _ hc => (Option.some.inj hc).symm
  rw [hparens] at h
  rcases chars_true f with ⟨text, rfl⟩ | hparens'
  · exact absurd h.symm (word_ne_parenthesis (hf text (by simp [texts])) _ _)
  · rw [hparens', List.cons_append, List.cons_append, List.append_assoc, List.append_assoc] at h
    obtain ⟨heq, hrest⟩ := whole_cancel he hf hread (hends rest) (hends rest') (List.cons.inj h).2
    exact ⟨heq, (List.cons.inj hrest).2⟩

/-- Every `Legible` operand is told apart from what follows it. -/
theorem readable (he : e.Legible) : e.Readable := by
  induction e with
  | leaf text => exact readable_leaf (he text (by simp [texts]))
  | access target name ih =>
    have htarget := (legible_access.mp he).1
    exact readable_compound he (by simpa [operands] using ih htarget) rfl
  | unary operator operand ih => exact readable_compound he (by simpa [operands] using ih he) rfl
  | binary operator left right ihl ihr =>
    obtain ⟨hleft, hright⟩ := legible_binary.mp he
    exact readable_compound he (by simpa [operands] using ⟨ihl hleft, ihr hright⟩) rfl

theorem Legible.operand (he : e.Legible) {x : ShownExpr} (hx : x ∈ e.operands) : x.Legible := by
  cases e with
  | leaf | unary => exact List.mem_singleton.mp hx ▸ he
  | access => exact List.mem_singleton.mp hx ▸ (legible_access.mp he).1
  | binary operator left right =>
    obtain ⟨hleft, hright⟩ := legible_binary.mp he
    simp only [operands, List.mem_cons, List.not_mem_nil, or_false] at hx
    rcases hx with rfl | rfl
    · exact hleft
    · exact hright

theorem chars_inj (he : e.Legible) (hf : f.Legible) (isProtected : Bool)
    (h : e.chars isProtected = f.chars isProtected) : e = f := by
  have hnil : Ends [] := fun c hc => by cases hc
  cases isProtected with
  | true => exact ((readable he).cancel hf hnil.stops hnil.stops (congrArg (· ++ []) h)).1
  | false =>
    have hread : ∀ y ∈ e.operands, Readable y := fun y hy => readable (he.operand hy)
    exact (whole_cancel he hf hread hnil hnil (congrArg (· ++ []) h)).1

end ShownExpr

/-- Expressions whose literals and names are words have the same text by `render` exactly if the
same tree is `shown` of them. -/
theorem Expr.render_eq_iff (isProtected : Bool) {e f : Expr}
    (he : ∀ text ∈ e.shown.texts, isWord text) (hf : ∀ text ∈ f.shown.texts, isWord text) :
    e.render isProtected = f.render isProtected ↔ e.shown = f.shown := by
  rw [← String.toList_inj, toList_render, toList_render]
  exact ⟨ShownExpr.chars_inj he hf isProtected, fun h => by rw [h]⟩

/-- A condition on the memory of a machine, which is below `limit`. -/
def memoryBelow (limit : Expr) : Expr :=
  .binary .lessOrEqual (.access (.access (.parameter ⟨["vm"]⟩) ⟨["memory"]⟩) ⟨["size"]⟩) limit

/-- A `literal` looks like a `parameter`, but what an operator applies to can be seen. -/
theorem Expr.render_eq_iff_memoryBelow :
    (memoryBelow (.literal "max_size")).render false =
      (memoryBelow (.parameter ⟨["max", "size"]⟩)).render false ∧
    (unary .not (memoryBelow (.literal "max_size"))).render false ≠
      (memoryBelow (.unary .not (.literal "max_size"))).render false := by
  have hliteral : ∀ text ∈ (memoryBelow (.literal "max_size")).shown.texts, isWord text :=
    List.all_eq_true.mp (by decide)
  have hparameter : ∀ text ∈ (memoryBelow (.parameter ⟨["max", "size"]⟩)).shown.texts,
      isWord text :=
    List.all_eq_true.mp (by decide)
  have houtside : ∀ text ∈ (unary .not (memoryBelow (.literal "max_size"))).shown.texts,
      isWord text := hliteral
  have hinside : ∀ text ∈ (memoryBelow (.unary .not (.literal "max_size"))).shown.texts,
      isWord text := hliteral
  constructor
  · exact (render_eq_iff false hliteral hparameter).mpr (by decide)
  · intro h
    exact absurd ((render_eq_iff false houtside hinside).mp h) (by decide)

end ApiModel
