import Gait.Expr.Lexeme
import Gait.Expr.Parser
import Gait.Text.Blank

/-!
# Motion expressions

An `Expr` is a text together with the tree it denotes.  `Expr.compile` is the only way from a text
to an expression: it trims the text, divides it into tokens and parses them.
-/

namespace Gait

/-- A compiled expression over the time `t`. -/
structure Expr where
  /-- The text without the blanks around it. -/
  source : String
  root : Expr.Tree

namespace Expr

/-- The tokens of a text, of which there must be at least one and at most `maxTokens`. -/
def tokens (source : List Char) : Except CompileError (List Token) := do
  let lexemes ← Lexeme.scan 0 source
  if lexemes.isEmpty then .error .empty
  else if maxTokens < lexemes.length then .error .tooLong
  else return lexemes.map Lexeme.token

/-- Compile a text, ignoring the blanks around it. -/
def compile (text : String) : Except CompileError Expr := do
  let source := Text.trim text.toList
  let root ← parse (← tokens source)
  return ⟨String.ofList source, root⟩

/-- The value at time `t`. -/
def eval (x : Expr) (t : Float) : Float := x.root.eval t

end Expr

end Gait
