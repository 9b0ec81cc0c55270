import Gait.Number.Elementary

/-!
# Operators and functions of motion expressions

`BinaryOp` and `Func` list what an expression may apply.  Each has its written form, and `apply`
gives its value on doubles.  Nothing else can be named in an expression, so evaluation stays inside
these tables.
-/

namespace Gait.Expr

/-- The operators between two operands. -/
inductive BinaryOp where
  | add | sub | mul | div | floorDiv | mod | pow
  deriving DecidableEq, Repr

namespace BinaryOp

/-- The written form of an operator. -/
def symbol : BinaryOp → String
  | add => "+"
  | sub => "-"
  | mul => "*"
  | div => "/"
  | floorDiv => "//"
  | mod => "%"
  | pow => "**"

/-- The operators of sums, which are also the signs. -/
def isSum : BinaryOp → Bool
  | add | sub => true
  | _ => false

/-- The operators of products. -/
def isProduct : BinaryOp → Bool
  | mul | div | floorDiv | mod => true
  | _ => false

/-- The value on two operands.  Division by zero follows IEEE 754; `//` rounds down and `%` takes
the sign of the divisor. -/
def apply : BinaryOp → Float → Float → Float
  | add, a, b => a + b
  | sub, a, b => a - b
  | mul, a, b => a * b
  | div, a, b => a / b
  | floorDiv, a, b => Number.floorDiv a b
  | mod, a, b => Number.floorMod a b
  | pow, a, b => a.pow b

end BinaryOp

/-- The functions that an expression may call. -/
inductive Func where
  | acos | asin | atan | atan2 | ceil | cos | cosh | degrees | exp | fabs | factorial | floor | fmod
  | hypot | log | log10 | log2 | pow | radians | sin | sinh | sqrt | tan | tanh | trunc
  deriving DecidableEq, Repr

/-- The numbers of arguments that a function may take. -/
inductive Arity where
  | one | two | oneOrTwo
  deriving DecidableEq, Repr

namespace Arity

/-- Whether a call with `n` arguments is admissible. -/
def accepts : Arity → Nat → Bool
  | one, n => n == 1
  | two, n => n == 2
  | oneOrTwo, n => n == 1 || n == 2

/-- The numbers of arguments, as messages word them. -/
def text : Arity → String
  | one => "1"
  | two => "2"
  | oneOrTwo => "1 or 2"

end Arity

namespace Func

/-- All functions, in alphabetical order. -/
def all : List Func :=
  [acos, asin, atan, atan2, ceil, cos, cosh, degrees, exp, fabs, factorial, floor, fmod,
    hypot, log, log10, log2, pow, radians, sin, sinh, sqrt, tan, tanh, trunc]

/-- The name that a function is called by. -/
def name : Func → String
  | acos => "acos"
  | asin => "asin"
  | atan => "atan"
  | atan2 => "atan2"
  | ceil => "ceil"
  | cos => "cos"
  | cosh => "cosh"
  | degrees => "degrees"
  | exp => "exp"
  | fabs => "fabs"
  | factorial => "factorial"
  | floor => "floor"
  | fmod => "fmod"
  | hypot => "hypot"
  | log => "log"
  | log10 => "log10"
  | log2 => "log2"
  | pow => "pow"
  | radians => "radians"
  | sin => "sin"
  | sinh => "sinh"
  | sqrt => "sqrt"
  | tan => "tan"
  | tanh => "tanh"
  | trunc => "trunc"

/-- The function of a name, if there is one. -/
def ofName? (s : String) : Option Func := all.find? fun f => f.name == s

/-- The numbers of arguments that a function takes. -/
def arity : Func → Arity
  | atan2 | fmod | hypot | pow => .two
  | log => .oneOrTwo
  | _ => .one

/-- The value of a function on a list of arguments: none where the function does not take that
many. -/
def value? : Func → List Float → Option Float
  | acos, [x] => some x.acos
  | asin, [x] => some x.asin
  | atan, [x] => some x.atan
  | atan2, [y, x] => some (y.atan2 x)
  | ceil, [x] => some x.ceil
  | cos, [x] => some x.cos
  | cosh, [x] => some x.cosh
  | degrees, [x] => some (Number.degrees x)
  | exp, [x] => some x.exp
  | fabs, [x] => some x.abs
  | factorial, [x] => some (Number.factorial x)
  | floor, [x] => some x.floor
  | fmod, [x, y] => some (Number.remainder x y)
  | hypot, [x, y] => some (Number.hypotenuse x y)
  | log, [x] => some x.log
  | log, [x, base] => some (x.log / base.log)
  | log10, [x] => some x.log10
  | log2, [x] => some x.log2
  | pow, [x, y] => some (x.pow y)
  | radians, [x] => some (Number.radians x)
  | sin, [x] => some x.sin
  | sinh, [x] => some x.sinh
  | sqrt, [x] => some x.sqrt
  | tan, [x] => some x.tan
  | tanh, [x] => some x.tanh
  | trunc, [x] => some (Number.truncated x)
  | _, _ => none

/-- The value of a function on a list of arguments; not a number where the function does not take
that many. -/
def apply (f : Func) (args : List Float) : Float := (f.value? args).getD Number.notANumber

theorem ofName?_name (f : Func) : ofName? f.name = some f := by
  cases f <;> rfl

end Func

/-- The value of a named constant. -/
def constant? : String → Option Float
  | "pi" => some Number.pi
  | "e" => some Number.e
  | "tau" => some Number.tau
  | "inf" => some Number.infinity
  | "nan" => some Number.notANumber
  | _ => none

end Gait.Expr
