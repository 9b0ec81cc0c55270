import Gait.Expr.Token
import Gait.Expr.Tree

/-!
# Parsing expressions

The grammar, from the loosest binding to the tightest:

* a sum is products with `+` and `-` between them, associating to the left;
* a product is signed operands with `*`, `/`, `//`, `%` between them, associating to the left;
* a signed operand is a sign and a signed operand, or a power;
* a power is a primary, optionally `**` and a signed operand, so that powers associate to the right;
* a primary is a number, a name, a call, or a sum in parentheses.

Every way back into the grammar, namely a group, an argument list, the operand of a sign and an
exponent, is one nesting level deeper.  A parser is therefore built from the parser of signed
operands one level down (`deeper`), which is absent at the deepest level, and `signed` recurses on
the number of levels left.  Every parser leaves fewer tokens than it got, which bounds the loops
over operators and arguments.
-/

namespace Gait.Expr

/-- A value read from the head of `ts` and the tokens after it. -/
structure Parsed (α : Type) (ts : List Token) where
  value : α
  rest : List Token
  shorter : rest.length < ts.length

/-- A function that reads a value from the head of a list of tokens. -/
abbrev Parser (α : Type) : Type := (ts : List Token) → Except CompileError (Parsed α ts)

/-- The same reading, seen from a longer list of tokens. -/
def Parsed.widen {α β : Type} {ts us : List Token} (p : Parsed α ts) (value : β)
    (h : ts.length ≤ us.length) : Parsed β us :=
  ⟨value, p.rest, Nat.lt_of_lt_of_le p.shorter h⟩

/-- A reading after which tokens may remain as they were. -/
structure Continued (ts : List Token) where
  value : Tree
  rest : List Token
  notLonger : rest.length ≤ ts.length

/-- Continue the left operand `x` with operators of one class and their right operands. -/
def continueChain (inClass : BinaryOp → Bool) (operand : Parser Tree) (x : Tree) :
    (ts : List Token) → Except CompileError (Continued ts)
  | .op o :: ts =>
    if inClass o then do
      let y ← operand ts
      let chain ← continueChain inClass operand (.binary o x y.value) y.rest
      return ⟨chain.value, chain.rest, by
        have := y.shorter; have := chain.notLonger; simp only [List.length_cons]; omega⟩
    else return ⟨x, .op o :: ts, Nat.le_refl _⟩
  | ts => return ⟨x, ts, Nat.le_refl _⟩
termination_by ts => ts.length
decreasing_by have := y.shorter; simp only [List.length_cons]; omega

/-- Operands with operators of one class between them, associating to the left. -/
def chain (inClass : BinaryOp → Bool) (operand : Parser Tree) : Parser Tree := fun ts => do
  let x ← operand ts
  let all ← continueChain inClass operand x.value x.rest
  return ⟨all.value, all.rest, Nat.lt_of_le_of_lt all.notLonger x.shorter⟩

/-- Products with `+` and `-` between them. -/
def sum (operand : Parser Tree) : Parser Tree :=
  chain BinaryOp.isSum (chain BinaryOp.isProduct operand)

/-- One or more sums with commas between them, up to the closing parenthesis. -/
def someArguments (operand : Parser Tree) (ts : List Token) :
    Except CompileError (Parsed (List Tree) ts) := do
  let x ← sum operand ts
  match h : x.rest with
  | .comma :: us =>
    let more ← someArguments operand us
    return ⟨x.value :: more.value, more.rest, by
      have := x.shorter; have := more.shorter; simp only [h, List.length_cons] at *; omega⟩
  | .closeParen :: us =>
    return ⟨[x.value], us, by have := x.shorter; simp only [h, List.length_cons] at *; omega⟩
  | t :: _ => .error (.unexpectedToken t)
  | [] => .error .unexpectedEnd
termination_by ts.length
decreasing_by have := x.shorter; simp only [h, List.length_cons] at *; omega

/-- The arguments of a call after its opening parenthesis, possibly none. -/
def arguments (operand : Parser Tree) : Parser (List Tree)
  | .closeParen :: ts => return ⟨[], ts, Nat.lt_succ_self _⟩
  | ts => someArguments operand ts

/-- A sum and the parenthesis that closes its group. -/
def group (operand : Parser Tree) : Parser Tree := fun ts => do
  let x ← sum operand ts
  match h : x.rest with
  | .closeParen :: us =>
    return ⟨x.value, us, by have := x.shorter; simp only [h, List.length_cons] at *; omega⟩
  | t :: _ => .error (.unexpectedToken t)
  | [] => .error .unexpectedEnd

/-- Read with the parser of the next nesting level, if there is one. -/
def nested {α : Type} (deeper : Option (Parser Tree)) (use : Parser Tree → Parser α) : Parser α :=
  match deeper with
  | none => fun _ => .error .tooDeep
  | some operand => use operand

/-- A name without one leading `math.`. -/
def bareName (name : String) : String :=
  if "math.".toList.isPrefixOf name.toList then String.ofList (name.toList.drop 5) else name

/-- What a name denotes without arguments: the time or a constant. -/
def named? (name : String) : Option Tree :=
  if name = "t" then some .time else (constant? name).map .number

/-- A number, a name, a call, or a sum in parentheses. -/
def primary (deeper : Option (Parser Tree)) : Parser Tree
  | .number value :: ts => return ⟨.number value, ts, Nat.lt_succ_self _⟩
  | .openParen :: ts => do
    let x ← nested deeper group ts
    return x.widen x.value (Nat.le_succ _)
  | .word name :: .openParen :: ts =>
    match Func.ofName? (bareName name) with
    | none => .error (.unknownName name)
    | some f => do
      let args ← nested deeper arguments ts
      match Tree.call? f args.value with
      | some x => return args.widen x (by simp only [List.length_cons]; omega)
      | none => .error (.arity f args.value.length)
  | .word name :: ts =>
    match named? (bareName name) with
    | some x => return ⟨x, ts, Nat.lt_succ_self _⟩
    | none => .error (.unknownName name)
  | t :: _ => .error (.unexpectedToken t)
  | [] => .error .unexpectedEnd

/-- A primary, optionally raised to a power whose exponent may carry its own sign. -/
def power (deeper : Option (Parser Tree)) : Parser Tree := fun ts => do
  let x ← primary deeper ts
  match h : x.rest with
  | .op .pow :: us =>
    let y ← nested deeper id us
    return y.widen (.binary .pow x.value y.value) (by
      have := x.shorter; simp only [h, List.length_cons] at *; omega)
  | _ => return x

/-- A power, or a sign and a signed operand; the plus sign leaves no trace in the tree. -/
def signedOrPower (deeper : Option (Parser Tree)) : Parser Tree
  | .op .sub :: ts => do
    let x ← nested deeper id ts
    return x.widen (.neg x.value) (Nat.le_succ _)
  | .op .add :: ts => do
    let x ← nested deeper id ts
    return x.widen x.value (Nat.le_succ _)
  | ts => power deeper ts

/-- A signed operand in which `levels` nestings may still be opened. -/
def signed : (levels : Nat) → Parser Tree
  | 0 => signedOrPower none
  | levels + 1 => signedOrPower (some (signed levels))

/-- The tree of a list of tokens, all of which must belong to it. -/
def parse (ts : List Token) : Except CompileError Tree := do
  let x ← sum (signed maxDepth) ts
  match x.rest with
  | [] => return x.value
  | t :: _ => .error (.unexpectedToken t)

end Gait.Expr
