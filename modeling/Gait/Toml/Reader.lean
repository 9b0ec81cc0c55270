import Gait.Text.Numeral

/-!
# Readers

A reader takes characters from the head of a text and gives a value, or fails.  The readers here are
those of TOML's lexical elements: blanks, comments, line ends, strings and keys.
-/

namespace Gait.Toml

/-- A function that reads a value from the head of a text. -/
abbrev Reader (α : Type) : Type := StateT (List Char) Option α

/-- The next character, which stays. -/
def peek? : Reader (Option Char) := do return (← get).head?

/-- Whether the text goes on with some characters, which are then taken. -/
def accept (cs : List Char) : Reader Bool := do
  let text ← get
  if cs.isPrefixOf text then
    set (text.drop cs.length)
    return true
  else return false

/-- Take some characters, which must be next. -/
def expect (cs : List Char) : Reader Unit := do
  if ← accept cs then return else failure

/-- Take the next character. -/
def next : Reader Char := do
  match ← get with
  | c :: cs => set cs; return c
  | [] => failure

/-- Take the longest run of characters of a class. -/
def takeRun (p : Char → Bool) : Reader (List Char) := do
  let text ← get
  set (text.dropWhile p)
  return text.takeWhile p

/-- Take the longest run of characters of a class, which must not be empty. -/
def takeSome (p : Char → Bool) : Reader (List Char) := do
  let run ← takeRun p
  if run.isEmpty then failure else return run

/-- Run a reader with a bound on its iterations that the text cannot exceed. -/
def bounded {α : Type} (read : Nat → Reader α) : Reader α := do
  read ((← get).length + 1)

/-- The blanks inside a line. -/
def isBlank (c : Char) : Bool := c == ' ' || c == '\t'

/-- The characters of comments and strings that stand for themselves. -/
def isPlain (c : Char) : Bool := c == '\t' || (0x20 ≤ c.toNat && c.toNat != 0x7F)

/-- Skip the blanks that come next. -/
def skipBlanks : Reader Unit := discard (takeRun isBlank)

/-- Whether the text goes on with a line end, which is then taken. -/
def acceptNewline : Reader Bool := do
  if ← accept ['\n'] then return true else accept ['\r', '\n']

/-- Skip a comment up to the line end, if there is one. -/
def skipComment : Reader Unit := do
  if (← peek?) = some '#' then discard (takeRun isPlain)

/-- The rest of a line: blanks, a comment, and the line end or the end of the text. -/
def endLine : Reader Unit := do
  skipBlanks
  skipComment
  unless (← acceptNewline) || (← get).isEmpty do failure

/-- Skip blank lines and comments. -/
def skipLines : (fuel : Nat) → Reader Unit
  | 0 => return
  | fuel + 1 => do
    skipBlanks
    skipComment
    if ← acceptNewline then skipLines fuel

/-! ## Strings -/

/-- The value of a hexadecimal digit in either case. -/
def hexValue? (c : Char) : Option Nat :=
  if c.isDigit then some (Text.digitValue c)
  else if 'a' ≤ c && c ≤ 'f' then some (c.toNat - 'a'.toNat + 10)
  else if 'A' ≤ c && c ≤ 'F' then some (c.toNat - 'A'.toNat + 10)
  else none

/-- A character given by a number of hexadecimal digits. -/
def codePoint (digits : Nat) : Reader Char := do
  let text ← get
  let some values := (text.take digits).mapM hexValue? | failure
  let n := values.foldl (fun n v => 16 * n + v) 0
  if values.length = digits ∧ n.isValidChar then
    set (text.drop digits)
    return Char.ofNat n
  else failure

/-- The character of an escape after its backslash. -/
def escape : Reader Char := do
  match ← next with
  | 'b' => return '\x08'
  | 'f' => return '\x0c'
  | 'n' => return '\n'
  | 'r' => return '\r'
  | 't' => return '\t'
  | '"' => return '"'
  | '\\' => return '\\'
  | 'u' => codePoint 4
  | 'U' => codePoint 8
  | _ => failure

/-- The rest of a string on one line after its opening quote; in some strings a backslash
escapes. -/
def lineString (quote : Char) (escapes : Bool) : (fuel : Nat) → Reader (List Char)
  | 0 => failure
  | fuel + 1 => do
    let c ← next
    if c = quote then return []
    else if escapes && c == '\\' then
      let escaped ← escape
      return escaped :: (← lineString quote escapes fuel)
    else if isPlain c then return c :: (← lineString quote escapes fuel)
    else failure

/-- A backslash before a line end takes all blanks and line ends after it away. -/
def joinLines : Reader Bool := do
  let text ← get
  skipBlanks
  if ← acceptNewline then
    bounded skipSpace
    return true
  else
    set text
    return false
where
  /-- Skip blanks and line ends. -/
  skipSpace : (fuel : Nat) → Reader Unit
    | 0 => return
    | fuel + 1 => do
      skipBlanks
      if ← acceptNewline then skipSpace fuel

/-- The rest of a string over several lines.  Three quotes close it; up to two more before them
belong to it. -/
def textString (quote : Char) (escapes : Bool) : (fuel : Nat) → Reader (List Char)
  | 0 => failure
  | fuel + 1 => do
    let quotes := min ((← get).takeWhile (· == quote)).length 5
    if 3 ≤ quotes then
      expect (List.replicate quotes quote)
      return List.replicate (quotes - 3) quote
    else if ← acceptNewline then return '\n' :: (← textString quote escapes fuel)
    else
      let c ← next
      if escapes && c == '\\' then
        if ← joinLines then textString quote escapes fuel
        else
          let escaped ← escape
          return escaped :: (← textString quote escapes fuel)
      else if isPlain c then return c :: (← textString quote escapes fuel)
      else failure

/-- A string in quotes of one kind, or in three of them, which drop a line end right after them. -/
def quotedString (quote : Char) (escapes : Bool) : Reader String := do
  let cs ←
    if ← accept [quote, quote, quote] then do
      discard acceptNewline
      bounded (textString quote escapes)
    else do
      expect [quote]
      bounded (lineString quote escapes)
  return String.ofList cs

/-! ## Keys -/

/-- The characters of keys without quotes. -/
def isBare (c : Char) : Bool := c.isAlphanum || c == '_' || c == '-'

/-- One key of a path, with or without quotes. -/
def simpleKey : Reader String := do
  if ← accept ['"'] then return String.ofList (← bounded (lineString '"' true))
  else if ← accept ['\''] then return String.ofList (← bounded (lineString '\'' false))
  else return String.ofList (← takeSome isBare)

/-- The number of levels that keys and values may not reach. -/
def levelLimit : Nat := 80

/-- Keys with dots between them. -/
def dottedKeys : (fuel : Nat) → Reader (List String)
  | 0 => failure
  | fuel + 1 => do
    skipBlanks
    let key ← simpleKey
    skipBlanks
    if ← accept ['.'] then return key :: (← dottedKeys fuel)
    else return [key]

/-- A path of keys, not too long. -/
def keyPath : Reader (List String) := do
  let path ← bounded dottedKeys
  if path.length < levelLimit then return path else failure

end Gait.Toml
