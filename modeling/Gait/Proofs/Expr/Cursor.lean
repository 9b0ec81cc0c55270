import Gait.Proofs.Expr.Earliest

/-!
# Parsing with a cursor

The parsers of `Gait.Expr.Parser` take a list of tokens and give back what is left of it.  Here the
same parsing goes with a cursor over all tokens: a `Reading` moves the cursor, counts the nestings
that it is in, and leaves both behind when it fails.  `Reading.nested` is where the counter is
raised, checked and lowered again.  A reading keeps every cursor it came to, so that what holds at
each moment of it can be said.

Nothing bounds a reading by itself.  Recursion is bounded by `levels` and loops by the number of
tokens; a reading that needs more than it is given does not end, which is `none`.
-/

namespace Gait.Expr

/-- Where a parser stands: the number of tokens behind it and of nestings around it. -/
structure Cursor where
  pos : Nat
  depth : Nat

namespace Cursor

/-- The cursor one token further. -/
def advanced (c : Cursor) : Cursor := { c with pos := c.pos + 1 }

/-- The cursor one level deeper. -/
def entered (c : Cursor) : Cursor := { c with depth := c.depth + 1 }

/-- The cursor back on the level above. -/
def left (c : Cursor) : Cursor := { c with depth := c.depth - 1 }

end Cursor

/-- How a reading ended, and the cursors that it came to, in their order. -/
structure Course (α : Type) where
  result : Except CompileError α
  stop : Cursor
  passed : List Cursor

/-- Parsing from a cursor, if it ends. -/
def Reading (α : Type) : Type := Cursor → Option (Course α)

namespace Reading

variable {α β : Type}

/-- Give a value and stay. -/
def return_ (a : α) : Reading α := fun c => some ⟨.ok a, c, []⟩

/-- Go on where a reading stopped, unless it failed. -/
def andThen (p : Reading α) (f : α → Reading β) : Reading β := fun c =>
  (p c).bind fun r =>
    match r.result with
    | .error e => some ⟨.error e, r.stop, r.passed⟩
    | .ok a => (f a r.stop).map fun s => ⟨s.result, s.stop, r.passed ++ s.passed⟩

instance : Monad Reading where
  pure := return_
  bind := andThen

/-- Give an error and stay. -/
def fail (e : CompileError) : Reading α := fun c => some ⟨.error e, c, []⟩

/-- Give no result at all. -/
def unending : Reading α := fun _ => none

/-- What a name stands for where it is not called. -/
def nameValue (name : String) : Reading Tree :=
  match named? (bareName name) with
  | some x => return x
  | none => fail (.unknownName name)

/-- Move one token further. -/
def advance : Reading Unit := fun c => some ⟨.ok (), c.advanced, [c.advanced]⟩

/-- Read one nesting deeper. -/
def nested (use : Reading α) : Reading α := fun c =>
  if maxDepth ≤ c.depth then some ⟨.error .tooDeep, c, []⟩
  else
    (use c.entered).map fun r => ⟨r.result, r.stop.left, c.entered :: (r.passed ++ [r.stop.left])⟩

section Tokens

variable (tokens : List Token)

/-- The token at the cursor, which stays there. -/
def peek : Reading (Option Token) := fun c => some ⟨.ok tokens[c.pos]?, c, []⟩

/-- The token at the cursor, which then moves past it. -/
def next : Reading (Option Token) := do
  match ← peek tokens with
  | some t =>
    advance
    return some t
  | none => return none

/-- Read an operator if it is one of these. -/
def eatOp (inClass : BinaryOp → Bool) : Reading (Option BinaryOp) := do
  match ← peek tokens with
  | some (.op o) =>
    if inClass o then
      advance
      return some o
    else return none
  | _ => return none

/-- Move past a closing parenthesis, which must be next. -/
def expectClose : Reading Unit := do
  match ← next tokens with
  | some .closeParen => return ()
  | some t => fail (.unexpectedToken t)
  | none => fail .unexpectedEnd

/-- More operators of the class and their right operands. -/
def moreOperands (inClass : BinaryOp → Bool) (operand : Reading Tree) :
    (rounds : Nat) → Tree → Reading Tree
  | 0, _ => unending
  | rounds + 1, x => do
    match ← eatOp tokens inClass with
    | some o =>
      let y ← operand
      moreOperands inClass operand rounds (.binary o x y)
    | none => return x

/-- Operands with operators of one class between them. -/
def operands (inClass : BinaryOp → Bool) (operand : Reading Tree) : Reading Tree := do
  let x ← operand
  moreOperands tokens inClass operand (tokens.length + 1) x

/-- Operands with the operators of products between them. -/
def term (unary : Reading Tree) : Reading Tree := operands tokens BinaryOp.isProduct unary

/-- Products with the operators of sums between them. -/
def additive (unary : Reading Tree) : Reading Tree :=
  operands tokens BinaryOp.isSum (term tokens unary)

/-- The arguments behind those read so far, of which there is at least one. -/
def moreArguments (unary : Reading Tree) : (rounds : Nat) → List Tree → Reading (List Tree)
  | 0, _ => unending
  | rounds + 1, args => do
    let x ← additive tokens unary
    match ← next tokens with
    | some .comma => moreArguments unary rounds (args ++ [x])
    | some .closeParen => return args ++ [x]
    | some t => fail (.unexpectedToken t)
    | none => fail .unexpectedEnd

/-- The arguments of a call and its closing parenthesis. -/
def callArgs (unary : Reading Tree) : Reading (List Tree) := do
  match ← peek tokens with
  | some .closeParen =>
    advance
    return []
  | _ => moreArguments tokens unary (tokens.length + 1) []

/-- A number, a name, a call, or a sum in parentheses. -/
def primary (unary : Reading Tree) : Reading Tree := do
  match ← next tokens with
  | some (.number value) => return .number value
  | some .openParen =>
    let x ← nested (additive tokens unary)
    expectClose tokens
    return x
  | some (.word name) =>
    match ← peek tokens with
    | some .openParen =>
      advance
      match Func.ofName? (bareName name) with
      | none => fail (.unknownName name)
      | some f =>
        let args ← nested (callArgs tokens unary)
        match Tree.call? f args with
        | some x => return x
        | none => fail (.arity f args.length)
    | _ => nameValue name
  | some t => fail (.unexpectedToken t)
  | none => fail .unexpectedEnd

/-- A primary with at most one exponent. -/
def power (unary : Reading Tree) : Reading Tree := do
  let x ← primary tokens unary
  match ← eatOp tokens isPower with
  | some _ =>
    let y ← nested unary
    return .binary .pow x y
  | none => return x

/-- A signed operand, where signed operands are read in one another at most `levels` times. -/
def unary : (levels : Nat) → Reading Tree
  | 0 => unending
  | levels + 1 => do
    match ← eatOp tokens BinaryOp.isSum with
    | some .sub =>
      let x ← nested (unary levels)
      return .neg x
    | some _ => nested (unary levels)
    | none => power tokens (unary levels)

/-- All tokens, from the first. -/
def whole (levels : Nat) : Reading Tree := do
  let x ← additive tokens (unary tokens levels)
  match ← next tokens with
  | some t => fail (.unexpectedToken t)
  | none => return x

end Tokens

end Reading

end Gait.Expr
