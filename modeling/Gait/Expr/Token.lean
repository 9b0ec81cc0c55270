import Gait.Expr.Operator
import Gait.Number.Shortest

/-!
# Tokens and the errors of expressions

A `Token` is what the grammar of expressions is built from.  `CompileError` lists why a text is not
an expression; `CompileError.message` words each cause once.
-/

namespace Gait.Expr

/-- The smallest units of an expression. -/
inductive Token where
  | number (value : Float)
  | word (name : String)
  | op (o : BinaryOp)
  | openParen
  | closeParen
  | comma
  deriving Repr

/-- A token as messages show it. -/
def Token.text : Token → String
  | number value => (Binary.ofFloat value).positional
  | word name => name
  | op o => o.symbol
  | openParen => "("
  | closeParen => ")"
  | comma => ","

/-- The deepest nesting of groups, argument lists, signed operands and exponents. -/
def maxDepth : Nat := 256

/-- The largest number of tokens in an expression. -/
def maxTokens : Nat := 4096

/-- The reasons why a text is not an expression. -/
inductive CompileError where
  /-- A character that starts no token, with its place in UTF-8 bytes. -/
  | unexpectedChar (c : Char) (offset : Nat)
  | invalidNumber (text : String)
  | unknownName (name : String)
  | arity (f : Func) (given : Nat)
  | unexpectedToken (t : Token)
  | unexpectedEnd
  | empty
  | tooDeep
  | tooLong
  deriving Repr

/-- A reason in words. -/
def CompileError.message : CompileError → String
  | unexpectedChar c offset => s!"unexpected character '{c}' at offset {offset}"
  | invalidNumber text => s!"invalid number '{text}'"
  | unknownName name => s!"unknown name '{name}'"
  | arity f given => s!"{f.name} expects {f.arity.text} argument(s), got {given}"
  | unexpectedToken t => s!"unexpected token '{t.text}'"
  | unexpectedEnd => "unexpected end of expression"
  | empty => "empty expression"
  | tooDeep => s!"expression nested deeper than {maxDepth} levels"
  | tooLong => s!"expression longer than {maxTokens} tokens"

end Gait.Expr
