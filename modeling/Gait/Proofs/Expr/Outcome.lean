import Gait.Proofs.Expr.Grammar

/-!
# Outcomes of parsers

A parser returns its value together with a proof that it got shorter, which stands in the way of
equations between readings of different lists.  `Parser.outcome` keeps the value, the tokens left
and the error only.  Each parser has one equation here that gives its outcome from the outcomes of
its parts; nothing else opens the parsers.
-/

namespace Gait.Expr

variable {α : Type}

/-- What a parser gives: a value and the tokens left, or an error. -/
def Parser.outcome (p : Parser α) (ts : List Token) : Except CompileError (α × List Token) :=
  (p ts).map fun r => (r.value, r.rest)

/-- What continuing an operand gives. -/
def continueOutcome (inClass : BinaryOp → Bool) (operand : Parser Tree) (x : Tree)
    (ts : List Token) : Except CompileError (Tree × List Token) :=
  (continueChain inClass operand x ts).map fun r => (r.value, r.rest)

/-- The operator at the head of a list of tokens. -/
def headOp? : List Token → Option BinaryOp
  | .op o :: _ => some o
  | _ => none

/-! ## Chains of operators -/

section Chain

variable (inClass : BinaryOp → Bool) (operand : Parser Tree)

theorem continueOutcome_op {o : BinaryOp} (member : inClass o = true) (x : Tree)
    (ts : List Token) :
    continueOutcome inClass operand x (.op o :: ts) =
      (operand.outcome ts).bind fun (y, us) =>
        continueOutcome inClass operand (.binary o x y) us := by
  rw [continueOutcome, continueChain, if_pos member, Parser.outcome]
  cases operand ts with
  | error e => rfl
  | ok y =>
      show Except.map _ (Except.bind (continueChain inClass operand _ y.rest) _) =
        continueOutcome inClass operand _ y.rest
      rw [continueOutcome]
      cases continueChain inClass operand (.binary o x y.value) y.rest <;> rfl

/-- An operand stands as it is where no operator of the class follows. -/
theorem continueOutcome_stop {ts : List Token} (stop : ∀ o, headOp? ts = some o → inClass o = false)
    (x : Tree) : continueOutcome inClass operand x ts = .ok (x, ts) := by
  unfold continueOutcome
  rcases ts with - | ⟨t, ts⟩
  · rw [continueChain]
    · rfl
    · rintro _ _ ⟨⟩
  · cases t with
    | op o =>
        rw [continueChain, if_neg (by simp [stop o rfl])]
        rfl
    | _ =>
        rw [continueChain]
        · rfl
        · rintro _ _ ⟨⟩

theorem outcome_chain (ts : List Token) :
    (chain inClass operand).outcome ts =
      (operand.outcome ts).bind fun (x, us) => continueOutcome inClass operand x us := by
  unfold Parser.outcome chain
  cases operand ts with
  | error e => rfl
  | ok x =>
      show Except.map _ (Except.bind (continueChain inClass operand x.value x.rest) _) =
        continueOutcome inClass operand x.value x.rest
      rw [continueOutcome]
      cases continueChain inClass operand x.value x.rest <;> rfl

end Chain

/-! ## Groups and arguments -/

section Parentheses

variable (operand : Parser Tree)

theorem outcome_group (ts : List Token) :
    (group operand).outcome ts =
      ((sum operand).outcome ts).bind fun
        | (x, .closeParen :: us) => .ok (x, us)
        | (_, t :: _) => .error (.unexpectedToken t)
        | (_, []) => .error .unexpectedEnd := by
  unfold Parser.outcome group
  cases sum operand ts with
  | error e => rfl
  | ok x =>
      rcases x with ⟨x, rest, shorter⟩
      rcases rest with - | ⟨t, us⟩
      · rfl
      · cases t <;> rfl

theorem outcome_someArguments (ts : List Token) :
    Parser.outcome (someArguments operand) ts =
      ((sum operand).outcome ts).bind fun
        | (x, .comma :: us) =>
          (Parser.outcome (someArguments operand) us).map fun (xs, vs) => (x :: xs, vs)
        | (x, .closeParen :: us) => .ok ([x], us)
        | (_, t :: _) => .error (.unexpectedToken t)
        | (_, []) => .error .unexpectedEnd := by
  unfold Parser.outcome
  rw [someArguments]
  cases sum operand ts with
  | error e => rfl
  | ok x =>
      rcases x with ⟨x, rest, shorter⟩
      rcases rest with - | ⟨t, us⟩
      · rfl
      · cases t with
        | comma =>
            show Except.map _ (Except.bind (someArguments operand us) _) =
              Except.map _ (Except.map _ (someArguments operand us))
            cases someArguments operand us <;> rfl
        | _ => rfl

theorem outcome_arguments_some {ts : List Token} (open_ : ts.head? ≠ some .closeParen) :
    (arguments operand).outcome ts = Parser.outcome (someArguments operand) ts := by
  unfold Parser.outcome
  rcases ts with - | ⟨t, ts⟩
  · rfl
  · cases t with
    | closeParen => exact absurd rfl open_
    | _ => rfl

end Parentheses

/-! ## Nesting levels -/

/-- The parser of signed operands one level down. -/
def deeper : (levels : Nat) → Option (Parser Tree)
  | 0 => none
  | levels + 1 => some (signed levels)

theorem signed_eq (levels : Nat) : signed levels = signedOrPower (deeper levels) := by
  cases levels <;> rfl

/-! ## Primaries, powers and signs -/

section Primary

variable (deeper : Option (Parser Tree))

theorem outcome_primary_group (ts : List Token) :
    (primary deeper).outcome (.openParen :: ts) = (nested deeper group).outcome ts := by
  unfold Parser.outcome
  show Except.map _ (Except.bind (nested deeper group ts) _) = Except.map _ (nested deeper group ts)
  cases nested deeper group ts <;> rfl

theorem outcome_primary_call (name : String) (ts : List Token) :
    (primary deeper).outcome (.word name :: .openParen :: ts) =
      match Func.ofName? (bareName name) with
      | none => .error (.unknownName name)
      | some f =>
        ((nested deeper arguments).outcome ts).bind fun (xs, us) =>
          match Tree.call? f xs with
          | some x => .ok (x, us)
          | none => .error (.arity f xs.length) := by
  unfold Parser.outcome
  rw [primary]
  cases Func.ofName? (bareName name) with
  | none => rfl
  | some f =>
      dsimp only
      cases nested deeper arguments ts with
      | error e => rfl
      | ok args =>
          show Except.map _ (match Tree.call? f args.value with | some _ => _ | none => _) =
            (match Tree.call? f args.value with | some _ => _ | none => _)
          cases Tree.call? f args.value <;> rfl

theorem outcome_primary_name (name : String) {ts : List Token}
    (notCalled : ts.head? ≠ some .openParen) :
    (primary deeper).outcome (.word name :: ts) =
      match named? (bareName name) with
      | some x => .ok (x, ts)
      | none => .error (.unknownName name) := by
  unfold Parser.outcome
  rw [primary]
  · cases named? (bareName name) <;> rfl
  · rintro us rfl
    exact notCalled rfl

theorem outcome_power (ts : List Token) :
    (power deeper).outcome ts =
      ((primary deeper).outcome ts).bind fun
        | (x, .op .pow :: us) =>
          ((nested deeper id).outcome us).map fun (y, vs) => (.binary .pow x y, vs)
        | (x, us) => .ok (x, us) := by
  unfold Parser.outcome power
  cases primary deeper ts with
  | error e => rfl
  | ok x =>
      rcases x with ⟨x, rest, shorter⟩
      rcases rest with - | ⟨t, us⟩
      · rfl
      · cases t with
        | op o =>
            cases o with
            | pow =>
                show Except.map _ (Except.bind (nested deeper id us) _) =
                  Except.map _ (Except.map _ (nested deeper id us))
                cases nested deeper id us <;> rfl
            | _ => rfl
        | _ => rfl

theorem outcome_signed_minus (ts : List Token) :
    (signedOrPower deeper).outcome (.op .sub :: ts) =
      ((nested deeper id).outcome ts).map fun (x, us) => (.neg x, us) := by
  unfold Parser.outcome
  show Except.map _ (Except.bind (nested deeper id ts) _) = Except.map _ (Except.map _ _)
  cases nested deeper id ts <;> rfl

theorem outcome_signed_plus (ts : List Token) :
    (signedOrPower deeper).outcome (.op .add :: ts) = (nested deeper id).outcome ts := by
  unfold Parser.outcome
  show Except.map _ (Except.bind (nested deeper id ts) _) = Except.map _ _
  cases nested deeper id ts <;> rfl

theorem outcome_signed_power {ts : List Token}
    (unsigned : ∀ o, headOp? ts = some o → o.isSum = false) :
    (signedOrPower deeper).outcome ts = (power deeper).outcome ts := by
  unfold Parser.outcome
  rw [signedOrPower]
  · rintro us rfl
    cases unsigned .sub rfl
  · rintro us rfl
    cases unsigned .add rfl

end Primary

/-! ## Whole texts -/

theorem parse_eq (ts : List Token) :
    parse ts =
      ((sum (signed maxDepth)).outcome ts).bind fun
        | (x, []) => .ok x
        | (_, t :: _) => .error (.unexpectedToken t) := by
  unfold Parser.outcome parse
  cases sum (signed maxDepth) ts with
  | error e => rfl
  | ok x =>
      rcases x with ⟨x, rest, shorter⟩
      cases rest <;> rfl

end Gait.Expr
