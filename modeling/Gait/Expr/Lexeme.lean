import Gait.Expr.Token
import Gait.Number.Reading

/-!
# Lexemes

A `Lexeme` is a token with its written text.  `Lexeme.scan` divides a text into lexemes by longest
match, skipping spaces and tabs between them; it stops at the first character that starts no
lexeme and at the first number that is not well formed.
-/

namespace Gait.Expr

/-- A token together with the characters it was written with. -/
inductive Lexeme where
  | number (text : List Char) (value : Float)
  | word (text : List Char)
  | op (o : BinaryOp)
  | openParen
  | closeParen
  | comma
  deriving Repr

namespace Lexeme

/-- The characters that a lexeme was written with. -/
def text : Lexeme → List Char
  | number text _ => text
  | word text => text
  | op o => o.symbol.toList
  | openParen => ['(']
  | closeParen => [')']
  | comma => [',']

/-- The token of a lexeme. -/
def token : Lexeme → Token
  | number _ value => .number value
  | word text => .word (String.ofList text)
  | op o => .op o
  | openParen => .openParen
  | closeParen => .closeParen
  | comma => .comma

/-- The characters that may stand between lexemes. -/
def isGap (c : Char) : Bool := c == ' ' || c == '\t'

/-- The characters of a number before its exponent. -/
def isMantissa (c : Char) : Bool := c.isDigit || c == '.'

/-- The characters that a word may start with. -/
def startsWord (c : Char) : Bool := c.isAlpha || c == '_'

/-- The characters that a word may go on with; the point belongs to names such as `math.sin`. -/
def continuesWord (c : Char) : Bool := c.isAlphanum || c == '_' || c == '.'

/-- An exponent at the head of a text: its mark, an optional sign and at least one digit.  Without a
digit nothing belongs to the number. -/
def exponentText : List Char → List Char
  | [] => []
  | mark :: cs =>
    if mark == 'e' || mark == 'E' then
      let sign := match cs with
        | '+' :: _ => ['+']
        | '-' :: _ => ['-']
        | _ => []
      let digits := (cs.drop sign.length).takeWhile Char.isDigit
      if digits.isEmpty then [] else mark :: (sign ++ digits)
    else []

/-- The longest number at the head of a text, well formed or not. -/
def numberText (cs : List Char) : List Char :=
  cs.takeWhile isMantissa ++ exponentText (cs.dropWhile isMantissa)

/-- The lexeme at the head of a text: `none` if no lexeme starts with its first character. -/
def first? (c : Char) (cs : List Char) : Option (Except CompileError Lexeme) :=
  if isMantissa c then
    let written := numberText (c :: cs)
    match Number.read? written with
    | some value => some (.ok (.number written value))
    | none => some (.error (.invalidNumber (String.ofList written)))
  else if startsWord c then some (.ok (.word (c :: cs.takeWhile continuesWord)))
  else
    match c, cs with
    | '+', _ => some (.ok (.op .add))
    | '-', _ => some (.ok (.op .sub))
    | '*', '*' :: _ => some (.ok (.op .pow))
    | '*', _ => some (.ok (.op .mul))
    | '/', '/' :: _ => some (.ok (.op .floorDiv))
    | '/', _ => some (.ok (.op .div))
    | '%', _ => some (.ok (.op .mod))
    | '(', _ => some (.ok .openParen)
    | ')', _ => some (.ok .closeParen)
    | ',', _ => some (.ok .comma)
    | _, _ => none

/-- The bytes that a text takes in UTF-8. -/
def utf8Length (cs : List Char) : Nat := (String.ofList cs).utf8ByteSize

/-- Divide a text, which starts at byte `offset`, into lexemes. -/
def scan (offset : Nat) : List Char → Except CompileError (List Lexeme)
  | [] => .ok []
  | c :: cs =>
    if isGap c then scan (offset + c.utf8Size) cs
    else
      match first? c cs with
      | none => .error (.unexpectedChar c offset)
      | some (.error e) => .error e
      | some (.ok l) => do
        -- The lexeme's first character is `c`, the others are dropped here.
        let rest ← scan (offset + utf8Length l.text) (cs.drop (l.text.length - 1))
        return l :: rest
termination_by cs => cs.length
decreasing_by all_goals simp only [List.length_cons, List.length_drop]; omega

end Lexeme

end Gait.Expr
