import Gait.Proofs.Expr.Cursor

/-!
# Parsing is bounded

A reading is `Orderly` if it is back at its nesting when it stops, never went to an earlier token or
past the last, and was at no moment in more than `maxDepth` nestings.  `Performs` says that readings
at some depth end, are orderly and do what a parser does.  Each reading performs the parser that
corresponds to it, by induction on the levels; readings of loops by induction on their rounds, since
every round consumes a token.

The tree of a phrase has no more nodes than the phrase has tokens.
-/

namespace Gait.Expr

variable {α β : Type} {tokens : List Token} {c c' : Cursor}

/-! ## Orderly readings -/

/-- From `c`, the cursors `passed` lead to `stop`. -/
structure Orderly (tokens : List Token) (c stop : Cursor) (passed : List Cursor) : Prop where
  ends : passed.getLast?.getD c = stop
  restored : stop.depth = c.depth
  forwards : c.pos ≤ stop.pos
  inside : stop.pos ≤ tokens.length
  ascending : passed.Pairwise (·.pos ≤ ·.pos)
  between : ∀ d ∈ passed, c.pos ≤ d.pos ∧ d.pos ≤ stop.pos
  shallow : ∀ d ∈ passed, d.depth ≤ maxDepth

namespace Orderly

variable {stop : Cursor} {passed later : List Cursor}

theorem stay (inside : c.pos ≤ tokens.length) : Orderly tokens c c [] :=
  ⟨rfl, rfl, Nat.le_refl _, inside, .nil, nofun, nofun⟩

theorem advanced (inside : c.pos < tokens.length) (shallow : c.depth ≤ maxDepth) :
    Orderly tokens c c.advanced [c.advanced] := by
  refine ⟨rfl, rfl, Nat.le_succ _, inside, List.pairwise_singleton _ _, ?_, ?_⟩
  · exact List.forall_mem_singleton.2 ⟨Nat.le_succ _, Nat.le_refl _⟩
  · exact List.forall_mem_singleton.2 shallow

theorem trans (first : Orderly tokens c c' passed) (second : Orderly tokens c' stop later) :
    Orderly tokens c stop (passed ++ later) := by
  refine ⟨?_, second.restored.trans first.restored, first.forwards.trans second.forwards,
    second.inside, ?_, ?_, ?_⟩
  · rw [List.getLast?_append, Option.getD_or, first.ends, second.ends]
  · refine List.pairwise_append.2 ⟨first.ascending, second.ascending, fun d early e late => ?_⟩
    exact (first.between d early).2.trans (second.between e late).1
  · rw [List.forall_mem_append]
    refine ⟨fun d early => ?_, fun d late => ?_⟩
    · obtain ⟨after, before⟩ := first.between d early
      exact ⟨after, before.trans second.forwards⟩
    · obtain ⟨after, before⟩ := second.between d late
      exact ⟨first.forwards.trans after, before⟩
  · rw [List.forall_mem_append]
    exact ⟨first.shallow, second.shallow⟩

/-- A nested reading goes one nesting down and comes back. -/
theorem nested (deep : c.depth < maxDepth) (inner : Orderly tokens c.entered stop passed) :
    Orderly tokens c stop.left (c.entered :: (passed ++ [stop.left])) := by
  have restored : stop.left.depth = c.depth := by
    rw [Cursor.left, inner.restored]
    exact Nat.add_sub_cancel c.depth 1
  have between : ∀ d ∈ passed, c.pos ≤ d.pos ∧ d.pos ≤ stop.pos := inner.between
  refine ⟨?_, restored, inner.forwards, inner.inside, ?_, ?_, ?_⟩
  · rw [← List.cons_append, List.getLast?_concat]
    rfl
  · refine List.pairwise_cons.2 ⟨?_, List.pairwise_append.2 ⟨inner.ascending,
      List.pairwise_singleton _ _, fun d early => List.forall_mem_singleton.2 (between d early).2⟩⟩
    rw [List.forall_mem_append]
    exact ⟨fun d early => (between d early).1, List.forall_mem_singleton.2 inner.forwards⟩
  · refine List.forall_mem_cons.2 ⟨⟨Nat.le_refl _, inner.forwards⟩, ?_⟩
    rw [List.forall_mem_append]
    exact ⟨between, List.forall_mem_singleton.2 ⟨inner.forwards, Nat.le_refl _⟩⟩
  · refine List.forall_mem_cons.2 ⟨deep, ?_⟩
    rw [List.forall_mem_append]
    refine ⟨inner.shallow, List.forall_mem_singleton.2 ?_⟩
    rw [restored]
    exact deep.le

end Orderly

/-! ## What readings meet -/

theorem Reading.bind_of_ok {p : Reading α} {f : α → Reading β} {a : α} {passed : List Cursor}
    (known : p c = some ⟨.ok a, c', passed⟩) :
    (p >>= f) c = (f a c').map fun s => ⟨s.result, s.stop, passed ++ s.passed⟩ := by
  show Option.bind (p c) _ = _
  rw [known]
  rfl

/-- The cursor is at these tokens, in no more nestings than are allowed. -/
structure Ahead (tokens : List Token) (c : Cursor) (ts : List Token) : Prop where
  inside : c.pos ≤ tokens.length
  shallow : c.depth ≤ maxDepth
  rest : tokens.drop c.pos = ts

namespace Ahead

variable {t : Token} {ts : List Token} {passed : List Cursor}

theorem head (ahead : Ahead tokens c ts) : tokens[c.pos]? = ts.head? := by
  rw [← ahead.rest, List.head?_drop]

theorem advanced (ahead : Ahead tokens c (t :: ts)) : Ahead tokens c.advanced ts := by
  have more : c.pos < tokens.length := (List.getElem?_eq_some_iff.1 ahead.head).1
  refine ⟨more, ahead.shallow, ?_⟩
  show tokens.drop (c.pos + 1) = ts
  rw [← List.tail_drop, ahead.rest, List.tail_cons]

theorem orderly (ahead : Ahead tokens c (t :: ts)) : Orderly tokens c c.advanced [c.advanced] :=
  .advanced ahead.advanced.inside ahead.shallow

theorem of_orderly (shallow : c.depth ≤ maxDepth) (orderly : Orderly tokens c c' passed) :
    Ahead tokens c' (tokens.drop c'.pos) :=
  ⟨orderly.inside, orderly.restored.trans_le shallow, rfl⟩

end Ahead

/-- The reading ends in order, with this value and the tokens left behind it, or with this error. -/
def Meets (tokens : List Token) (p : Reading α) (c : Cursor)
    (out : Except CompileError (α × List Token)) : Prop :=
  ∃ r, p c = some r ∧ Orderly tokens c r.stop r.passed ∧
    r.result.map (fun a => (a, tokens.drop r.stop.pos)) = out

namespace Meets

variable {p : Reading α} {f : α → Reading β} {out : Except CompileError (α × List Token)}
  {out' : Except CompileError (β × List Token)} {ts : List Token}

theorem return_ (ahead : Ahead tokens c ts) (a : α) : Meets tokens (return a) c (.ok (a, ts)) := by
  refine ⟨_, rfl, .stay ahead.inside, ?_⟩
  rw [← ahead.rest]
  rfl

theorem fail (ahead : Ahead tokens c ts) (e : CompileError) :
    Meets (α := α) tokens (.fail e) c (.error e) :=
  ⟨_, rfl, .stay ahead.inside, rfl⟩

/-- A step whose outcome is known. -/
theorem step {a : α} {passed : List Cursor} (known : p c = some ⟨.ok a, c', passed⟩)
    (orderly : Orderly tokens c c' passed) (rest : Meets tokens (f a) c' out') :
    Meets tokens (p >>= f) c out' := by
  obtain ⟨r, run, orderly', rfl⟩ := rest
  refine ⟨⟨r.result, r.stop, passed ++ r.passed⟩, ?_, orderly.trans orderly', rfl⟩
  rw [Reading.bind_of_ok known, run]
  rfl

theorem bind {g : α × List Token → Except CompileError (β × List Token)}
    (shallow : c.depth ≤ maxDepth) (first : Meets tokens p c out)
    (rest : ∀ a us c', c'.depth = c.depth → c.pos ≤ c'.pos → Ahead tokens c' us →
      out = .ok (a, us) → Meets tokens (f a) c' (g (a, us))) :
    Meets tokens (p >>= f) c (out.bind g) := by
  obtain ⟨⟨result, stop, passed⟩, run, orderly, rfl⟩ := first
  cases result with
  | error e =>
      refine ⟨⟨.error e, stop, passed⟩, ?_, orderly, rfl⟩
      show Option.bind (p c) _ = _
      rw [run]
      rfl
  | ok a =>
      exact step run orderly (rest a _ stop orderly.restored orderly.forwards
        (.of_orderly shallow orderly) rfl)

end Meets

/-- What is left to do with a value. -/
theorem Meets.map {p : Reading α} {out : Except CompileError (α × List Token)} (g : α → β)
    (shallow : c.depth ≤ maxDepth) (meets : Meets tokens p c out) :
    Meets tokens (p >>= fun a => return g a) c (out.map fun (a, us) => (g a, us)) := by
  have bound : out.map (fun (a, us) => (g a, us)) = out.bind fun (a, us) => .ok (g a, us) := by
    cases out <;> rfl
  rw [bound]
  exact Meets.bind shallow meets fun a us c' _ _ ahead _ => .return_ ahead (g a)

theorem map_bind {ε γ : Type} (r : Except ε α) (f : α → Except ε β) (g : β → γ) :
    (r.bind f).map g = r.bind fun a => (f a).map g := by
  cases r <;> rfl

/-- Arguments in front of others, which have one more in front. -/
theorem map_append_cons {ε : Type} (xs : List α) (x : α) (r : Except ε (List α × List Token)) :
    (r.map fun (ys, us) => (x :: ys, us)).map (fun (ys, us) => (xs ++ ys, us)) =
      r.map fun (ys, us) => (xs ++ [x] ++ ys, us) := by
  cases r with
  | error e => rfl
  | ok r => simp [Except.map]

/-! ## Tokens -/

section Steps

variable {t : Token} {ts : List Token} {out : Except CompileError (α × List Token)}

theorem peek_eq (ahead : Ahead tokens c ts) :
    Reading.peek tokens c = some ⟨.ok ts.head?, c, []⟩ := by
  rw [Reading.peek, ahead.head]

theorem peek_meets {f : Option Token → Reading α} (ahead : Ahead tokens c ts)
    (rest : Meets tokens (f ts.head?) c out) : Meets tokens (Reading.peek tokens >>= f) c out :=
  .step (peek_eq ahead) (.stay ahead.inside) rest

theorem next_cons_meets {f : Option Token → Reading α} (ahead : Ahead tokens c (t :: ts))
    (rest : Meets tokens (f (some t)) c.advanced out) :
    Meets tokens (Reading.next tokens >>= f) c out :=
  .step (Reading.bind_of_ok (peek_eq ahead)) ahead.orderly rest

theorem next_nil_meets {f : Option Token → Reading α} (ahead : Ahead tokens c [])
    (rest : Meets tokens (f none) c out) : Meets tokens (Reading.next tokens >>= f) c out :=
  .step (Reading.bind_of_ok (peek_eq ahead)) (.stay ahead.inside) rest

/-- Whether a closing parenthesis is at the head of a list of tokens. -/
def closing : List Token → Except CompileError (Unit × List Token)
  | .closeParen :: us => .ok ((), us)
  | t :: _ => .error (.unexpectedToken t)
  | [] => .error .unexpectedEnd

theorem expectClose_meets (ahead : Ahead tokens c ts) :
    Meets tokens (Reading.expectClose tokens) c (closing ts) := by
  rcases ts with - | ⟨t, ts⟩
  · exact next_nil_meets ahead (.fail ahead _)
  · refine next_cons_meets ahead ?_
    cases t with
    | closeParen => exact .return_ ahead.advanced ()
    | _ => exact .fail ahead.advanced _

theorem outcome_nested_group (deeper : Option (Parser Tree)) (ts : List Token) :
    (nested deeper group).outcome ts =
      ((nested deeper sum).outcome ts).bind fun (x, us) =>
        (closing us).map fun (_, vs) => (x, vs) := by
  cases deeper with
  | none => rfl
  | some operand =>
      show (group operand).outcome ts = ((sum operand).outcome ts).bind _
      rw [outcome_group]
      cases (sum operand).outcome ts with
      | error e => rfl
      | ok r =>
          rcases r with ⟨x, - | ⟨t, us⟩⟩
          · rfl
          · cases t <;> rfl

variable {inClass : BinaryOp → Bool} {f : Option BinaryOp → Reading α}

theorem eatOp_op_meets {o : BinaryOp} (member : inClass o = true)
    (ahead : Ahead tokens c (.op o :: ts)) (rest : Meets tokens (f (some o)) c.advanced out) :
    Meets tokens (Reading.eatOp tokens inClass >>= f) c out := by
  refine .step ((Reading.bind_of_ok (peek_eq ahead)).trans ?_) ahead.orderly rest
  dsimp only [List.head?]
  rw [if_pos member]
  rfl

theorem eatOp_stop_meets (stop : NoneAhead inClass ts) (ahead : Ahead tokens c ts)
    (rest : Meets tokens (f none) c out) :
    Meets tokens (Reading.eatOp tokens inClass >>= f) c out := by
  refine .step ((Reading.bind_of_ok (peek_eq ahead)).trans ?_) (.stay ahead.inside) rest
  rcases ts with - | ⟨t, ts⟩
  · rfl
  · cases t with
    | op o =>
        have other : ¬inClass o = true := Bool.eq_false_iff.1 (stop o rfl)
        dsimp only [List.head?]
        rw [if_neg other]
        rfl
    | _ => rfl

end Steps

/-! ## Loops -/

/-- At this depth the reading does what the parser does. -/
def Performs (tokens : List Token) (depth : Nat) (p : Reading α) (q : Parser α) : Prop :=
  ∀ ⦃c ts⦄, c.depth = depth → Ahead tokens c ts → Meets tokens p c (q.outcome ts)

section Loops

variable {depth : Nat} {inClass : BinaryOp → Bool} {unary : Reading Tree} {operand : Parser Tree}
  {ts : List Token}

theorem moreOperands_meets (performs : Performs tokens depth unary operand) {rounds : Nat}
    (x : Tree) (at_ : c.depth = depth) (ahead : Ahead tokens c ts)
    (enough : tokens.length - c.pos < rounds) :
    Meets tokens (Reading.moreOperands tokens inClass unary rounds x) c
      (continueOutcome inClass operand x ts) := by
  -- Every round consumes its operator, so there are fewer rounds than tokens.
  induction rounds generalizing c ts x with
  | zero => cases enough
  | succ rounds ih =>
      rcases noneAhead_or inClass ts with stop | ⟨o, ts, rfl, member⟩
      · rw [continueOutcome_stop _ _ stop]
        exact eatOp_stop_meets stop ahead (.return_ ahead x)
      · rw [continueOutcome_op _ _ member]
        refine eatOp_op_meets member ahead ?_
        refine Meets.bind ahead.shallow (performs at_ ahead.advanced) ?_
        intro y us c' same forwards ahead' _
        have inside := ahead.advanced.inside
        refine ih _ (same.trans at_) ahead' ?_
        change c.pos + 1 ≤ c'.pos at forwards
        change c.pos + 1 ≤ tokens.length at inside
        omega

theorem operands_performs (performs : Performs tokens depth unary operand) :
    Performs tokens depth (Reading.operands tokens inClass unary) (chain inClass operand) := by
  intro c ts at_ ahead
  rw [outcome_chain]
  refine Meets.bind ahead.shallow (performs at_ ahead) fun x us c' same _ ahead' _ => ?_
  exact moreOperands_meets performs x (same.trans at_) ahead' (by omega)

theorem additive_performs (performs : Performs tokens depth unary operand) :
    Performs tokens depth (Reading.additive tokens unary) (sum operand) :=
  operands_performs (operands_performs performs)

theorem moreArguments_meets (performs : Performs tokens depth unary operand) {rounds : Nat}
    (args : List Tree) (at_ : c.depth = depth) (ahead : Ahead tokens c ts)
    (enough : tokens.length - c.pos < rounds) :
    Meets tokens (Reading.moreArguments tokens unary rounds args) c
      ((Parser.outcome (someArguments operand) ts).map fun (xs, us) => (args ++ xs, us)) := by
  induction rounds generalizing c ts args with
  | zero => cases enough
  | succ rounds ih =>
      rw [outcome_someArguments, map_bind]
      refine Meets.bind ahead.shallow (additive_performs performs at_ ahead) ?_
      intro x us c' same forwards ahead' _
      rcases us with - | ⟨t, us⟩
      · exact next_nil_meets ahead' (.fail ahead' _)
      · refine next_cons_meets ahead' ?_
        have onwards := ahead'.advanced
        cases t with
        | comma =>
            have inside : c'.pos + 1 ≤ tokens.length := onwards.inside
            have fewer : tokens.length - (c'.pos + 1) < rounds := by omega
            have more : Meets tokens (Reading.moreArguments tokens unary rounds (args ++ [x]))
                c'.advanced _ := ih _ (same.trans at_) onwards fewer
            rw [← map_append_cons] at more
            exact more
        | closeParen => exact .return_ onwards _
        | _ => exact .fail onwards _

theorem callArgs_performs (performs : Performs tokens depth unary operand) :
    Performs tokens depth (Reading.callArgs tokens unary) (arguments operand) := by
  intro c ts at_ ahead
  refine peek_meets ahead ?_
  have some_ (open_ : ts.head? ≠ some .closeParen) :
      Meets tokens (Reading.moreArguments tokens unary (tokens.length + 1) []) c
        ((arguments operand).outcome ts) := by
    have enough : tokens.length - c.pos < tokens.length + 1 := by omega
    have more := moreArguments_meets performs [] at_ ahead enough
    rw [outcome_arguments_some _ open_]
    convert more using 1
    cases Parser.outcome (someArguments operand) ts <;> rfl
  rcases ts with - | ⟨t, ts⟩
  · exact some_ nofun
  · cases t with
    | closeParen => exact .step rfl ahead.orderly (.return_ ahead.advanced [])
    | _ => exact some_ nofun

end Loops

/-! ## Nestings -/

section Nestings

variable {depth levels : Nat} {p : Reading Tree} {ts : List Token}

/-- One level down, if there is one, the reading of signed operands does what the parser does. -/
def PerformsBelow (tokens : List Token) (depth levels : Nat) (p : Reading Tree) : Prop :=
  ∀ n, levels = n + 1 → Performs tokens (depth + 1) p (signed n)

theorem nameValue_meets (deeper : Option (Parser Tree)) (ahead : Ahead tokens c ts) (name : String)
    (notCalled : ts.head? ≠ some .openParen) :
    Meets tokens (Reading.nameValue name) c ((primary deeper).outcome (.word name :: ts)) := by
  rw [outcome_primary_name _ _ notCalled, Reading.nameValue]
  cases named? (bareName name) with
  | some x => exact .return_ ahead x
  | none => exact .fail ahead _

theorem nested_performs {use : Reading α} {q : Parser Tree → Parser α}
    (all : depth + levels = maxDepth)
    (below : ∀ n, levels = n + 1 → Performs tokens (depth + 1) use (q (signed n))) :
    Performs tokens depth (Reading.nested use) (nested (deeper levels) q) := by
  intro c ts at_ ahead
  cases levels with
  | zero =>
      refine ⟨⟨.error .tooDeep, c, []⟩, if_pos ?_, .stay ahead.inside, rfl⟩
      rw [at_, ← all]
      exact Nat.le_refl _
  | succ n =>
      have deep : c.depth < maxDepth := by omega
      have ahead' : Ahead tokens c.entered ts := ⟨ahead.inside, deep, ahead.rest⟩
      obtain ⟨r, run, orderly, out⟩ := below n rfl (congrArg (· + 1) at_) ahead'
      refine ⟨⟨r.result, r.stop.left, c.entered :: (r.passed ++ [r.stop.left])⟩, ?_,
        orderly.nested deep, out⟩
      rw [Reading.nested, if_neg (Nat.not_le.2 deep), run]
      rfl

section Below

variable (all : depth + levels = maxDepth) (below : PerformsBelow tokens depth levels p)

include all below

theorem primary_performs :
    Performs tokens depth (Reading.primary tokens p) (primary (deeper levels)) := by
  intro c ts at_ ahead
  rcases ts with - | ⟨t, ts⟩
  · exact next_nil_meets ahead (.fail ahead _)
  · refine next_cons_meets ahead ?_
    have ahead' := ahead.advanced
    cases t with
    | number value => exact .return_ ahead' _
    | openParen =>
        have group : Performs tokens depth (Reading.nested (Reading.additive tokens p))
            (nested (deeper levels) sum) :=
          nested_performs all fun n eq => additive_performs (below n eq)
        rw [outcome_primary_group, outcome_nested_group]
        refine Meets.bind ahead.shallow (group (c := c.advanced) at_ ahead') ?_
        intro x us c' _ _ behind _
        exact (expectClose_meets behind).map (fun _ => x) behind.shallow
    | word name =>
        refine peek_meets ahead' ?_
        by_cases called : ts.head? = some .openParen
        · obtain ⟨us, rfl⟩ := List.head?_eq_some_iff.1 called
          have args : Performs tokens depth (Reading.nested (Reading.callArgs tokens p))
              (nested (deeper levels) arguments) :=
            nested_performs all fun n eq => callArgs_performs (below n eq)
          rw [outcome_primary_call]
          refine .step rfl ahead'.orderly ?_
          have inner := ahead'.advanced
          cases Func.ofName? (bareName name) with
          | none => exact .fail inner _
          | some f =>
              refine Meets.bind ahead.shallow (args (c := c.advanced.advanced) at_ inner) ?_
              intro xs us c' _ _ behind _
              dsimp only
              cases Tree.call? f xs with
              | some x => exact .return_ behind x
              | none => exact .fail behind _
        · have value := nameValue_meets (deeper levels) ahead' name called
          rcases ts with - | ⟨t, ts⟩
          · exact value
          · cases t with
            | openParen => exact absurd rfl called
            | _ => exact value
    | _ => exact .fail ahead' _

theorem power_performs :
    Performs tokens depth (Reading.power tokens p) (power (deeper levels)) := by
  intro c ts at_ ahead
  rw [outcome_power]
  refine Meets.bind ahead.shallow (primary_performs all below at_ ahead) ?_
  intro x us c' same _ ahead' _
  rcases noneAhead_or isPower us with stop | ⟨o, us, rfl, raised⟩
  · refine eatOp_stop_meets stop ahead' ?_
    dsimp only
    split
    · next eq =>
      cases eq
      cases stop .pow rfl
    · next eq =>
      cases eq
      exact .return_ ahead' _
  · obtain rfl : o = .pow := beq_iff_eq.1 raised
    have exponent : Performs tokens depth (Reading.nested p) (nested (deeper levels) id) :=
      nested_performs all below
    refine eatOp_op_meets raised ahead' ?_
    have inner := exponent (c := c'.advanced) (same.trans at_) ahead'.advanced
    exact inner.map (Tree.binary .pow x) ahead'.shallow

end Below

/-- Every depth leaves as many levels as are missing to the deepest. -/
theorem unary_performs {fuel : Nat} (all : depth + levels = maxDepth) (enough : levels < fuel) :
    Performs tokens depth (Reading.unary tokens fuel) (signed levels) := by
  -- The fuel is one more than the levels that are left, and both get fewer with each nesting.
  induction fuel generalizing depth levels with
  | zero => cases enough
  | succ fuel ih =>
      have below : PerformsBelow tokens depth levels (Reading.unary tokens fuel) := by
        rintro n rfl
        exact ih (by omega) (by omega)
      intro c ts at_ ahead
      rw [signed_eq]
      rcases noneAhead_or BinaryOp.isSum ts with unsigned | ⟨o, us, rfl, member⟩
      · rw [outcome_signed_power _ unsigned]
        exact eatOp_stop_meets unsigned ahead (power_performs all below at_ ahead)
      · have operand : Performs tokens depth (Reading.nested (Reading.unary tokens fuel))
            (nested (deeper levels) id) := nested_performs all below
        have inner := operand (c := c.advanced) at_ ahead.advanced
        refine eatOp_op_meets member ahead ?_
        cases o with
        | add =>
            rw [outcome_signed_plus]
            exact inner
        | sub =>
            rw [outcome_signed_minus]
            exact inner.map Tree.neg ahead.shallow
        | _ => cases member

end Nestings

/-- The whole reading does what parsing does, with one level more than there may be nestings. -/
theorem whole_meets (tokens : List Token) :
    Meets tokens (Reading.whole tokens (maxDepth + 1)) ⟨0, 0⟩
      ((parse tokens).map fun x => (x, [])) := by
  have unary : Performs tokens 0 (Reading.unary tokens (maxDepth + 1)) (signed maxDepth) :=
    unary_performs (Nat.zero_add maxDepth) (Nat.lt_succ_self maxDepth)
  have ahead : Ahead tokens ⟨0, 0⟩ tokens := ⟨Nat.zero_le _, Nat.zero_le _, rfl⟩
  rw [parse_eq, map_bind]
  refine Meets.bind ahead.shallow (additive_performs unary rfl ahead) ?_
  intro x us c' _ _ ahead' _
  rcases us with - | ⟨t, us⟩
  · exact next_nil_meets ahead' (.return_ ahead' x)
  · exact next_cons_meets ahead' (.fail ahead'.advanced _)

/-! ## Trees -/

namespace Tree

/-- The number of nodes of a tree. -/
def nodes : Tree → Nat
  | number _ | time => 1
  | neg x | call₁ _ x => x.nodes + 1
  | binary _ x y | call₂ _ x y => x.nodes + y.nodes + 1

/-- How many nodes lie under one another. -/
def height : Tree → Nat
  | number _ | time => 1
  | neg x | call₁ _ x => x.height + 1
  | binary _ x y | call₂ _ x y => max x.height y.height + 1

theorem height_le_nodes (x : Tree) : x.height ≤ x.nodes := by
  induction x with
  | number | time => exact Nat.le_refl 1
  | neg x ih | call₁ f x ih => exact Nat.succ_le_succ ih
  | binary o x y ihx ihy | call₂ f x y ihx ihy =>
      rw [height, nodes]
      omega

end Tree

/-- Each node has a token of its own. -/
theorem Derives.nodes_le {phrase : Phrase} {ts : List Token} {x : Tree} {d : Nat}
    (derives : Derives phrase ts x d) : x.nodes ≤ ts.length := by
  induction derives with
  | number => exact Nat.le_refl 1
  | name _ denotes =>
      cases denotes <;> exact Nat.le_refl 1
  | group _ ih =>
      simp only [List.cons_append, List.length_cons, List.length_append]
      omega
  | @call f name args x _ _ call ih =>
      simp only [List.cons_append, List.length_cons, List.length_append]
      generalize trees : args.map (·.tree) = xs at call
      cases call with
      | one =>
          obtain ⟨a, rfl, rfl⟩ := List.map_eq_singleton_iff.1 trees
          have first := ih a List.mem_cons_self
          rw [Argument.joined_singleton, Tree.nodes]
          omega
      | two =>
          obtain ⟨a, args, rfl, rfl, more⟩ := List.map_eq_cons_iff.1 trees
          obtain ⟨b, rfl, rfl⟩ := List.map_eq_singleton_iff.1 more
          have first := ih a List.mem_cons_self
          have second := ih b (List.mem_cons_of_mem a List.mem_cons_self)
          rw [Argument.joined_cons_cons, Argument.joined_singleton, Tree.nodes, List.length_append,
            List.length_cons]
          omega
  | base _ ih | unsigned _ ih | factor _ ih | term _ ih => exact ih
  | plus _ ih => exact ih.trans (Nat.le_succ _)
  | minus _ ih => exact Nat.succ_le_succ ih
  | raised _ _ ihLeft ihRight | multiplied _ _ _ ihLeft ihRight | added _ _ _ ihLeft ihRight =>
      rw [Tree.nodes, List.length_append, List.length_cons]
      omega

/-! ## Bounds -/

/-- The reading ends in order, and consumes a token if it succeeds. -/
def Bounded (tokens : List Token) (c : Cursor) (p : Reading α) : Prop :=
  ∃ r, p c = some r ∧ Orderly tokens c r.stop r.passed ∧
    ∀ a, r.result = .ok a → c.pos < r.stop.pos

theorem Performs.bounded {p : Reading α} {q : Parser α} (performs : Performs tokens c.depth p q)
    (inside : c.pos ≤ tokens.length) (shallow : c.depth ≤ maxDepth) : Bounded tokens c p := by
  obtain ⟨r, run, orderly, out⟩ := performs rfl ⟨inside, shallow, rfl⟩
  refine ⟨r, run, orderly, fun a succeeds => ?_⟩
  have reads : Reads q (tokens.drop c.pos) a (tokens.drop r.stop.pos) := by
    rw [Reads, ← out, succeeds]
    rfl
  have shorter := reads.shorter
  rw [List.length_drop, List.length_drop] at shorter
  omega

/-- **Parsing and its trees are bounded.**  From any cursor in the tokens each reading ends, with as
many levels as are missing to the deepest nesting: it comes back to its nesting on success and on
failure, is never in more than 256 nestings, never goes back or past the end, and consumes a token
if it succeeds.  The reading of all tokens does what `parse` does.  A compiled tree has no more
nodes than the text has tokens, so at most 4096 of them lie under one another. -/
theorem recursion_is_bounded :
    (∀ (tokens : List Token) (c : Cursor) (levels : Nat), c.pos ≤ tokens.length → c.depth ≤ 256 →
      256 ≤ c.depth + levels →
        Bounded tokens c (Reading.additive tokens (Reading.unary tokens (levels + 1))) ∧
        Bounded tokens c (Reading.term tokens (Reading.unary tokens (levels + 1))) ∧
        Bounded tokens c (Reading.unary tokens (levels + 1)) ∧
        Bounded tokens c (Reading.power tokens (Reading.unary tokens levels)) ∧
        Bounded tokens c (Reading.primary tokens (Reading.unary tokens levels)) ∧
        Bounded tokens c (Reading.callArgs tokens (Reading.unary tokens (levels + 1)))) ∧
    (∀ tokens : List Token, ∃ r, Reading.whole tokens 257 ⟨0, 0⟩ = some r ∧
      r.result = parse tokens ∧ Orderly tokens ⟨0, 0⟩ r.stop r.passed) ∧
    ∀ (text : String) (e : Expr), compile text = .ok e →
      ∃ ts, Expr.tokens (Text.trim text.toList) = .ok ts ∧ e.root.nodes ≤ ts.length ∧
        e.root.nodes ≤ 4096 ∧ e.root.height ≤ 4096 := by
  refine ⟨fun tokens c levels inside shallow enough => ?_, fun tokens => ?_,
    fun text e compiled => ?_⟩
  · obtain ⟨n, all⟩ : ∃ n, c.depth + n = maxDepth := Nat.le.dest shallow
    have unary : Performs tokens c.depth (Reading.unary tokens (levels + 1)) (signed n) :=
      unary_performs all (by change _ = 256 at all; omega)
    have below : PerformsBelow tokens c.depth n (Reading.unary tokens levels) := by
      rintro m rfl
      exact unary_performs (by omega) (by change _ = 256 at all; omega)
    refine ⟨?_, ?_, ?_, ?_, ?_, ?_⟩
    · exact (additive_performs unary).bounded inside shallow
    · exact (operands_performs unary).bounded inside shallow
    · exact unary.bounded inside shallow
    · exact (power_performs all below).bounded inside shallow
    · exact (primary_performs all below).bounded inside shallow
    · exact (callArgs_performs unary).bounded inside shallow
  · obtain ⟨r, run, orderly, out⟩ := whole_meets tokens
    refine ⟨r, run, ?_, orderly⟩
    cases result : r.result with
    | error e =>
        rw [result] at out
        exact (map_eq_error_iff.1 out.symm).symm
    | ok x =>
        rw [result] at out
        obtain ⟨y, parsed, eq⟩ := map_eq_ok_iff.1 out.symm
        rw [parsed, (Prod.mk.inj eq).1]
  · obtain ⟨ts, tokenized, parsed⟩ := compile_ok_iff.1 ⟨e, compiled, rfl⟩
    obtain ⟨lexemes, -, -, few, rfl⟩ := tokens_eq_ok_iff.1 tokenized
    obtain ⟨d, -, derives⟩ := parse_eq_ok_iff.1 parsed
    have nodes := derives.nodes_le
    have bound : e.root.nodes ≤ 4096 := by
      rw [List.length_map] at nodes
      exact nodes.trans few
    exact ⟨_, tokenized, nodes, bound, e.root.height_le_nodes.trans bound⟩

/-- Reading the sum `(t)` behind `t *` ends, also in the deepest nesting but one, and so does the tree
of `-t`. -/
theorem bounded_readings_of_time :
    let tokens : List Token := [.word "t", .op .mul, .openParen, .word "t", .closeParen]
    Bounded tokens ⟨2, 255⟩ (Reading.additive tokens (Reading.unary tokens 2)) ∧
    ∃ e, compile "-t" = .ok e ∧ e.root.height ≤ 4096 := by
  intro tokens
  constructor
  · exact (recursion_is_bounded.1 tokens ⟨2, 255⟩ 1 (by decide) (by decide) (by decide)).1
  · have tokenized : Expr.tokens (Text.trim "-t".toList) = .ok [.op .sub, .word "t"] := by cbv
    have derives : Derives .sum [.op .sub, .word "t"] (.neg .time) 1 :=
      .term (.factor (.minus (.unsigned (.base (.name .plain .time)))))
    obtain ⟨e, compiled, -⟩ :=
      compile_ok_iff.2 ⟨_, tokenized, parse_eq_ok_iff.2 ⟨1, by decide, derives⟩⟩
    obtain ⟨_, -, -, -, height⟩ := recursion_is_bounded.2.2 _ _ compiled
    exact ⟨e, compiled, height⟩

end Gait.Expr
