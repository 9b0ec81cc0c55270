/-!
# JSON lines

Machine readable output is one JSON object on a line, with its keys in ascending order and no
blanks.
-/

namespace Gait.Json

/-- The values that output has in its fields. -/
inductive Value where
  | text (s : String)
  | number (i : Int)
  | flag (b : Bool)
  | texts (xs : List String)
  | numbers (xs : List Int)
  deriving DecidableEq, Repr

/-- A character as it is written between quotes: quotes, backslashes and control characters are
escaped. -/
def escapeChar : Char → List Char
  | '"' => ['\\', '"']
  | '\\' => ['\\', '\\']
  | '\x08' => ['\\', 'b']
  | '\x0c' => ['\\', 'f']
  | '\n' => ['\\', 'n']
  | '\r' => ['\\', 'r']
  | '\t' => ['\\', 't']
  | c =>
    if c.toNat < 0x20 then
      ['\\', 'u', '0', '0', Nat.digitChar (c.toNat / 16), Nat.digitChar (c.toNat % 16)]
    else [c]

/-- A text between quotes. -/
def quote (s : String) : String := "\"" ++ String.ofList (s.toList.flatMap escapeChar) ++ "\""

/-- Written items between brackets. -/
def array (items : List String) : String := "[" ++ ",".intercalate items ++ "]"

/-- A value as it is written. -/
def Value.written : Value → String
  | text s => quote s
  | number i => toString i
  | flag b => if b then "true" else "false"
  | texts xs => array (xs.map quote)
  | numbers xs => array (xs.map toString)

/-- The fields between braces, in ascending order of their keys. -/
def object (fields : List (String × Value)) : String :=
  let sorted := fields.mergeSort fun a b => decide (a.1 ≤ b.1)
  "\x7b" ++ ",".intercalate (sorted.map fun f => quote f.1 ++ ":" ++ f.2.written) ++ "\x7d"

end Gait.Json
