/-!
# Expressions and statements

The syntax trees of fragments. The grammar knows more forms than templates may use: those are read, so that they can be
refused by name, as `Expr.foreign` and `Statement.foreign`.
-/

namespace NestedSite.Template

/-- A value written out. -/
inductive Literal where
  | none
  | bool (b : Bool)
  | int (n : Nat)
  | float (x : Float)
  | imaginary (x : Float)
  | text (s : String)
  | bytes (bs : List UInt8)
  | ellipsis
  deriving Repr, BEq, Inhabited

inductive UnaryOp where
  | plus | minus | not | invert
  deriving Repr, DecidableEq

inductive BinaryOp where
  | add | sub | mul | div | floorDiv | mod | pow
  | matMul | shiftLeft | shiftRight | bitOr | bitXor | bitAnd
  deriving Repr, DecidableEq

inductive CompareOp where
  | eq | ne | lt | le | gt | ge | in | notIn | is | isNot
  deriving Repr, DecidableEq

/-- How a replacement field turns its value into text before the format is applied. -/
inductive Conversion where
  | str | repr | ascii
  deriving Repr, DecidableEq

inductive Expr where
  | literal (value : Literal)
  | name (id : String)
  | attribute (base : Expr) (attr : String)
  | subscript (base index : Expr)
  | slice (lower upper step : Option Expr)
  /-- A call; an argument without a name unpacks a mapping. -/
  | call (function : Expr) (arguments : List Expr) (named : List (Option String × Expr))
  | binary (op : BinaryOp) (left right : Expr)
  | unary (op : UnaryOp) (operand : Expr)
  /-- A chain of `and`s, or of `or`s if `disjunction`. -/
  | boolean (disjunction : Bool) (operands : List Expr)
  | compare (first : Expr) (rest : List (CompareOp × Expr))
  | conditional (test body orElse : Expr)
  | list (items : List Expr)
  | tuple (items : List Expr)
  | set (items : List Expr)
  /-- A mapping; an entry without a key unpacks its value. -/
  | dict (entries : List (Option Expr × Expr))
  /-- A format string: literals and replacement fields. -/
  | joined (parts : List Expr)
  | formatted (value : Expr) (conversion : Option Conversion) (spec : Option Expr)
  | starred (value : Expr)
  /-- A form that templates do not have, with its name. -/
  | foreign (kind : String)
  deriving Inhabited

inductive Statement where
  | expression (value : Expr)
  | assign (targets : List Expr) (value : Expr)
  | augmented (target : Expr) (op : BinaryOp) (value : Expr)
  /-- The header of a loop. -/
  | loop (target iterable : Expr)
  /-- The header of a condition. -/
  | condition (test : Expr)
  /-- A form that templates do not have, with its name. -/
  | foreign (kind : String)
  deriving Inhabited

/-- The name of a statement's form. -/
def Statement.kind : Statement → String
  | expression _ => "Expr"
  | assign .. => "Assign"
  | augmented .. => "AugAssign"
  | loop .. => "For"
  | condition _ => "If"
  | foreign kind => kind

/-! ## Rules -/

/-- Whether there is a rule for a unary operator. -/
def UnaryOp.hasRule : UnaryOp → Bool
  | .invert => false
  | _ => true

/-- Whether there is a rule for a binary operator. -/
def BinaryOp.hasRule : BinaryOp → Bool
  | .add | .sub | .mul | .div | .floorDiv | .mod | .pow => true
  | _ => false

/-- What there is no rule for when a template is rendered. -/
inductive Gap where
  | element (kind : String)
  | statement (kind : String)
  /-- Something else than names is assigned. -/
  | target
  | unary (op : UnaryOp)
  | binary (op : BinaryOp)
  deriving Repr, DecidableEq

end NestedSite.Template
