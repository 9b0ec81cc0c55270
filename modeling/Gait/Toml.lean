import Gait.Toml.Scalar

/-!
# TOML documents

A document is lines of three kinds besides blank ones: `key = value`, a header `[path]` that opens a
table, and a header `[[path]]` that opens one more table of a list.  `Toml.read?` gives the entries
of the whole document, or nothing if any line breaks a rule.
-/

namespace Gait.Toml

/-- The items of a list after its opening bracket; one comma may stand after the last.  The fuel
is above the length of the text throughout, so it also bounds the line ends between items. -/
def arrayItems (item : Reader Value) : (fuel : Nat) → Reader (List Value)
  | 0 => failure
  | fuel + 1 => do
    skipLines (fuel + 1)
    if ← accept [']'] then return []
    let v ← item
    skipLines (fuel + 1)
    if ← accept [','] then return v :: (← arrayItems item fuel)
    expect [']']
    return [v]

/-- A path of keys, an equals sign and a value. -/
def pair (item : Reader Value) : Reader (List String × Value) := do
  let path ← keyPath
  expect ['=']
  skipBlanks
  return (path, ← item)

/-- One or more pairs on a line up to the closing brace. -/
def inlinePairs (item : Reader Value) : (fuel : Nat) → Reader (List (List String × Value))
  | 0 => failure
  | fuel + 1 => do
    let p ← pair item
    skipBlanks
    if ← accept [','] then return p :: (← inlinePairs item fuel)
    expect ['\x7d']
    return [p]

/-- The rest of an inline table after its opening brace. -/
def inlineTable (item : Reader Value) : Reader Value := do
  skipBlanks
  let pairs ← if ← accept ['\x7d'] then return .table .inline [] else bounded (inlinePairs item)
  let some entries := pairs.foldlM (fun entries p => addPair p.1 p.2 .inline entries) ([] : Entries)
    | failure
  return .table .inline entries

/-- A value whose items are read by `deeper`, which is absent at the deepest level. -/
def valueWith (deeper : Option (Reader Value)) : Reader Value := do
  match ← peek? with
  | some '"' => return .string (← quotedString '"' true)
  | some '\'' => return .string (← quotedString '\'' false)
  | some '[' =>
    let some item := deeper | failure
    expect ['[']
    return .array (← bounded (arrayItems item))
  | some '\x7b' =>
    let some item := deeper | failure
    expect ['\x7b']
    inlineTable item
  | some 't' => expect "true".toList; return .boolean true
  | some 'f' => expect "false".toList; return .boolean false
  | _ =>
    let text ← get
    if startsDate text || startsTime text then datetime else number

/-- A value in which `levels` lists and inline tables may be nested. -/
def value : (levels : Nat) → Reader Value
  | 0 => valueWith none
  | levels + 1 => valueWith (some (value levels))

/-- What has been read of a document: its entries and the path of the header in force. -/
structure Document where
  root : Entries := []
  header : List String := []

/-- Read a header line, which opens a table. -/
def readHeader (d : Document) : Reader Document := do
  let double ← accept ['[', '[']
  unless double do expect ['[']
  let path ← keyPath
  expect (if double then [']', ']'] else [']'])
  endLine
  let some root := (if double then openNext path d.root else openTable path d.root) | failure
  return ⟨root, path⟩

/-- Read a line with a pair, which goes to the table of the header in force. -/
def readPair (d : Document) : Reader Document := do
  let (path, v) ← pair (value (levelLimit - 1))
  endLine
  let some root := extend .implied (addPair path v) d.header .header d.root | failure
  return { d with root }

/-- Read lines up to the end of the text. -/
def readLines (d : Document) : (fuel : Nat) → Reader Document
  | 0 => failure
  | fuel + 1 => do
    skipBlanks
    match ← peek? with
    | none => return d
    | some '#' | some '\n' | some '\r' => endLine; readLines d fuel
    | some '[' => readLines (← readHeader d) fuel
    | some _ => readLines (← readPair d) fuel

/-- The entries of a document.  A byte order mark in front of it is skipped. -/
def read? (text : String) : Option Entries := do
  let document : Reader Document := do
    discard (accept ['\uFEFF'])
    bounded (readLines {})
  let (d, _) ← document.run text.toList
  return d.root

end Gait.Toml
