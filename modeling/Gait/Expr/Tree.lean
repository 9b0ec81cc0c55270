import Gait.Expr.Operator

/-!
# Expression trees

The meaning of an expression: a tree over numbers, the time `t`, negation, binary operators and
calls with one or two arguments.  `Tree.eval` is its value at a time.
-/

namespace Gait.Expr

/-- The structure of an expression, without its parentheses. -/
inductive Tree where
  | number (value : Float)
  | time
  | neg (x : Tree)
  | binary (o : BinaryOp) (x y : Tree)
  | call₁ (f : Func) (x : Tree)
  | call₂ (f : Func) (x y : Tree)
  deriving Repr

namespace Tree

/-- The call of a function on a list of arguments, if it takes that many. -/
def call? (f : Func) : List Tree → Option Tree
  | [x] => if f.arity.accepts 1 then some (call₁ f x) else none
  | [x, y] => if f.arity.accepts 2 then some (call₂ f x y) else none
  | _ => none

/-- The value at time `t`. -/
def eval (t : Float) : Tree → Float
  | number value => value
  | time => t
  | neg x => -x.eval t
  | binary o x y => o.apply (x.eval t) (y.eval t)
  | call₁ f x => f.apply [x.eval t]
  | call₂ f x y => f.apply [x.eval t, y.eval t]

end Tree

end Gait.Expr
