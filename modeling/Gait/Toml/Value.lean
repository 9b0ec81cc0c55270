/-!
# TOML values

The values of a TOML document and the rules by which its lines extend tables.  A table remembers how
it came about, because that decides who may extend it: `extend` follows a path of keys to a table
and refuses to enter one that is closed.
-/

namespace Gait.Toml

/-- How a table came about. -/
inductive Origin where
  /-- Written between braces; nothing is added to it later. -/
  | inline
  /-- On the way to a table with a header of its own. -/
  | implied
  /-- On the way to a dotted key. -/
  | dotted
  /-- By a header of its own. -/
  | header
  deriving DecidableEq, Repr

/-- The values of keys. -/
inductive Value where
  | string (s : String)
  | integer (i : Int)
  | float (x : Float)
  | boolean (b : Bool)
  | datetime (text : String)
  | array (items : List Value)
  | table (origin : Origin) (entries : List (String × Value))
  /-- The tables with one header in double brackets. -/
  | tables (items : List Value)
  deriving Repr

/-- The keys of a table with their values. -/
abbrev Entries : Type := List (String × Value)

/-- Put a value under a key, in place of the one that was there. -/
def Entries.put (entries : Entries) (key : String) (v : Value) : Entries :=
  entries.filter (·.1 != key) ++ [(key, v)]

/-- Follow a path of keys and change the table at its end; tables that are missing on the way come
about as `created`.  Dotted keys enter no table that has a header of its own. -/
def extend (created : Origin) (change : Origin → Entries → Option Entries) :
    List String → Origin → Entries → Option Entries
  | [], origin, entries => change origin entries
  | key :: path, _, entries =>
    match entries.lookup key with
    | none => do
      let inner ← extend created change path created []
      return entries.put key (.table created inner)
    | some (.table origin inner) =>
      if origin = .inline ∨ (created = .dotted ∧ origin = .header) then none
      else do
        let inner ← extend created change path origin inner
        return entries.put key (.table origin inner)
    | some (.tables items) =>
      match items.getLast? with
      | some (.table origin inner) => do
        let inner ← extend created change path origin inner
        return entries.put key (.tables (items.dropLast ++ [.table origin inner]))
      | _ => none
    | some _ => none

/-- Add a value under a dotted path.  The table it goes to must be one of dotted keys exactly if
the path leads into another table, and must not have the key yet. -/
def addPair (path : List String) (v : Value) (origin : Origin) (entries : Entries) :
    Option Entries := do
  let key ← path.getLast?
  let way := path.dropLast
  let place (origin : Origin) (entries : Entries) : Option Entries :=
    if decide (origin = .dotted) == way.isEmpty || (entries.lookup key).isSome then none
    else some (entries.put key v)
  extend .dotted place way origin entries

/-- Open the table of a header.  A table that was only implied so far is taken over. -/
def openTable (path : List String) (root : Entries) : Option Entries := do
  let key ← path.getLast?
  let place (_ : Origin) (entries : Entries) : Option Entries :=
    match entries.lookup key with
    | none => some (entries.put key (.table .header []))
    | some (.table .implied inner) => some (entries.put key (.table .header inner))
    | some _ => none
  extend .implied place path.dropLast .header root

/-- Open another table of a header in double brackets. -/
def openNext (path : List String) (root : Entries) : Option Entries := do
  let key ← path.getLast?
  let place (_ : Origin) (entries : Entries) : Option Entries :=
    match entries.lookup key with
    | none => some (entries.put key (.tables [.table .header []]))
    | some (.tables items) => some (entries.put key (.tables (items ++ [.table .header []])))
    | some _ => none
  extend .implied place path.dropLast .header root

end Gait.Toml
