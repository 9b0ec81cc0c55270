import Gait.Proofs.Expr.Exactness
import Gait.Proofs.Expr.Shapes

/-!
# Errors at the earliest token

A parser that stops at a token, or at the end of its tokens, has read all tokens before as the
beginning of a phrase.  `Stops` says this together with the place where it stops: the token cannot
be read there, or the phrase is not complete there.  Each parser stops so because the parsers of its
parts do, with what they have read before; the induction is on the levels, as in the proof that what
is read is derived.

The main statement follows since expressions are read from left to right: no expression begins with
the tokens up to the one that is reported, and some expression begins with those before it.
-/

namespace Gait.Expr

variable {α : Type}

/-! ## Operators that are not left behind -/

/-- None of these operators is at the head. -/
def NoneAhead (ops : BinaryOp → Bool) (ts : List Token) : Prop :=
  ∀ o, headOp? ts = some o → ops o = false

theorem noneAhead_or (inClass : BinaryOp → Bool) (ts : List Token) :
    NoneAhead inClass ts ∨ ∃ o us, ts = .op o :: us ∧ inClass o = true := by
  rcases ts with - | ⟨t, ts⟩
  · exact .inl nofun
  · cases t with
    | op o =>
        cases member : inClass o with
        | true => exact .inr ⟨o, ts, rfl, member⟩
        | false =>
            refine .inl fun o' head => ?_
            cases head
            exact member
    | _ => exact .inl nofun

/-- What the parser leaves does not go on with one of these operators. -/
def Parser.Exhausts (p : Parser α) (ops : BinaryOp → Bool) : Prop :=
  ∀ ⦃ts x rest⦄, Reads p ts x rest → NoneAhead ops rest

section Exhausts

variable {operand : Parser Tree} {ops inClass : BinaryOp → Bool} {levels : Nat}

theorem continues_exhausts (exhausts : operand.Exhausts ops) {x y : Tree} {ts rest : List Token}
    (first : NoneAhead ops ts) (continues : Continues inClass operand x ts y rest) :
    NoneAhead (fun o => ops o || inClass o) rest := by
  induction length : ts.length using Nat.strongRecOn generalizing ts x with
  | _ n ih =>
      rcases noneAhead_or inClass ts with stop | ⟨o, ts, rfl, member⟩
      · obtain ⟨-, rfl⟩ := (continues_stop_iff stop).1 continues
        exact fun o head => Bool.or_eq_false_iff.2 ⟨first o head, stop o head⟩
      · obtain ⟨z, mid, reads, more⟩ := (continues_op_iff member).1 continues
        have shorter := reads.shorter
        rw [List.length_cons] at length
        exact ih mid.length (by omega) (exhausts reads) more rfl

theorem chain_exhausts (exhausts : operand.Exhausts ops) :
    (chain inClass operand).Exhausts fun o => ops o || inClass o := by
  intro ts z rest reads
  obtain ⟨x, mid, first, continues⟩ := reads_chain_iff.1 reads
  exact continues_exhausts exhausts (exhausts first) continues

/-- The operator before an exponent. -/
def isPower (o : BinaryOp) : Bool := o == .pow

/-- A signed operand one level down. -/
theorem nested_signed_exhausts (below : ∀ n < levels, (signed n).Exhausts isPower) :
    (nested (deeper levels) id).Exhausts isPower := by
  intro ts x rest reads
  obtain ⟨n, rfl, reads⟩ := reads_nested reads
  exact below n (Nat.lt_succ_self n) reads

theorem power_exhausts (below : ∀ n < levels, (signed n).Exhausts isPower) :
    (power (deeper levels)).Exhausts isPower := by
  intro ts z rest reads
  rw [Reads, outcome_power] at reads
  obtain ⟨⟨x, mid⟩, -, after⟩ := bind_eq_ok_iff.1 reads
  rcases noneAhead_or isPower mid with stop | ⟨o, us, rfl, raised⟩
  · dsimp only at after
    split at after
    · next eq =>
      cases eq
      cases stop .pow rfl
    · next eq =>
      cases eq
      cases after
      exact stop
  · obtain rfl : o = .pow := beq_iff_eq.1 raised
    obtain ⟨⟨y, vs⟩, exponent, eq⟩ := map_eq_ok_iff.1 after
    cases eq
    exact nested_signed_exhausts below exponent

theorem signed_exhausts (levels : Nat) : (signed levels).Exhausts isPower := by
  induction levels using Nat.strongRecOn with
  | _ levels below =>
      intro ts x rest reads
      rw [signed_eq] at reads
      rcases noneAhead_or BinaryOp.isSum ts with unsigned | ⟨o, us, rfl, member⟩
      · rw [Reads, outcome_signed_power _ unsigned] at reads
        exact power_exhausts below reads
      · cases o with
        | add =>
            rw [Reads, outcome_signed_plus] at reads
            exact nested_signed_exhausts below reads
        | sub =>
            rw [Reads, outcome_signed_minus] at reads
            obtain ⟨⟨y, vs⟩, operand, eq⟩ := map_eq_ok_iff.1 reads
            cases eq
            exact nested_signed_exhausts below operand
        | _ => cases member

/-- No operator follows a sum. -/
theorem sum_exhausts {ts rest : List Token} {x : Tree}
    (reads : Reads (sum (signed levels)) ts x rest) : headOp? rest = none := by
  have products : (chain BinaryOp.isProduct (signed levels)).Exhausts _ :=
    chain_exhausts (signed_exhausts levels)
  have stop := chain_exhausts products reads
  cases head : headOp? rest with
  | none => rfl
  | some o =>
      have left := stop o head
      cases o <;> cases left

end Exhausts

/-! ## Where parsers stop -/

/-- The errors about a token out of place, or about one that is missing. -/
def CompileError.isSyntax : CompileError → Bool
  | .unexpectedToken _ | .unexpectedEnd => true
  | _ => false

/-- Reading from a place stops with an error.  A token that is reported cannot be read at the place
behind those before it, which begin a phrase of the language; where the tokens end, they begin one
and may not end there.  Other errors are not about the order of tokens. -/
inductive Stops (language : List Token → Prop) (place : Place) (ts : List Token) :
    CompileError → Prop
  | token {front behind : List Token} {t : Token} {here : Place}
    (split : ts = front ++ t :: behind) (read : place.readAll front = some here)
    (unread : here.read t = none) (begins : ∃ us, language (front ++ us)) :
    Stops language place ts (.unexpectedToken t)
  | ending {here : Place} (read : place.readAll ts = some here) (open_ : here ≠ .finish)
    (begins : ∃ us, language (ts ++ us)) : Stops language place ts .unexpectedEnd
  | other {e : CompileError} (order : e.isSyntax = false) : Stops language place ts e

section Stops

variable {language whole : List Token → Prop} {place mid : Place} {t : Token}
  {ts front : List Token} {e : CompileError}

/-- The first token is out of place. -/
theorem Stops.head (unread : place.read t = none) (begins : ∃ us, language us) :
    Stops language place (t :: ts) (.unexpectedToken t) :=
  .token (List.nil_append _).symm rfl unread begins

/-- A part stops where the whole does, if it is read first what stands before the part. -/
theorem Stops.behind (stops : Stops language mid ts e) (read : place.readAll front = some mid)
    (embed : ∀ us, language us → whole (front ++ us)) : Stops whole place (front ++ ts) e := by
  have begins {us : List Token} (part : ∃ vs, language (us ++ vs)) :
      ∃ vs, whole (front ++ us ++ vs) := by
    obtain ⟨vs, part⟩ := part
    refine ⟨vs, ?_⟩
    rw [List.append_assoc]
    exact embed _ part
  cases stops with
  | @token inner behind t here split read' unread part =>
      refine .token (by rw [split, List.append_assoc]) ?_ unread (begins part)
      rw [Place.readAll_append_of read, read']
  | ending read' open_ part =>
      refine .ending ?_ open_ (begins part)
      rw [Place.readAll_append_of read, read']
  | other order => exact .other order

theorem Stops.behind_token (stops : Stops language mid ts e) (read : place.read t = some mid)
    (embed : ∀ us, language us → whole (t :: us)) : Stops whole place (t :: ts) e := by
  have read' : place.readAll [t] = some mid := Place.readAll_cons mid read
  exact stops.behind read' embed

/-- A part at the beginning of the whole. -/
theorem Stops.within (stops : Stops language place ts e)
    (embed : ∀ us, language us → ∃ vs, whole (us ++ vs)) : Stops whole place ts e := by
  have begins {us : List Token} (part : ∃ vs, language (us ++ vs)) : ∃ vs, whole (us ++ vs) := by
    obtain ⟨vs, part⟩ := part
    obtain ⟨ws, completed⟩ := embed _ part
    refine ⟨vs ++ ws, ?_⟩
    rwa [← List.append_assoc]
  cases stops with
  | token split read unread part => exact .token split read unread (begins part)
  | ending read open_ part => exact .ending read open_ (begins part)
  | other order => exact .other order

/-- A part that may be the whole. -/
theorem Stops.mono (stops : Stops language place ts e) (lift : ∀ us, language us → whole us) :
    Stops whole place ts e := by
  refine stops.within fun us part => ⟨[], ?_⟩
  rw [List.append_nil]
  exact lift us part

end Stops

/-- The parser stops in this way, whatever is open around it. -/
def Parser.StopsWithin (p : Parser α) (language : List Token → Prop)
    (place : List Enclosure → Place) : Prop :=
  ∀ ⦃ts e⦄, p.outcome ts = .error e → ∀ enclosing, Stops language (place enclosing) ts e

theorem bind_eq_error_iff {ε β : Type} {r : Except ε α} {f : α → Except ε β} {e : ε} :
    r.bind f = .error e ↔ r = .error e ∨ ∃ a, r = .ok a ∧ f a = .error e := by
  cases r with
  | error e' => simp [Except.bind]
  | ok a => simp [Except.bind]

theorem map_eq_error_iff {ε β : Type} {r : Except ε α} {f : α → β} {e : ε} :
    r.map f = .error e ↔ r = .error e := by
  cases r with
  | error e' => simp [Except.map]
  | ok a => simp [Except.map]

section Phrases

variable {levels : Nat}

/-- What a parser of a phrase reads is an operand, and has the shape of the phrase. -/
theorem Parser.Sound.shape {p : Parser Tree} {phrase : Phrase} (sound : p.Sound phrase levels)
    {ts rest : List Token} {x : Tree} (reads : Reads p ts x rest) :
    ∃ us, ts = us ++ rest ∧ Shape phrase us levels := by
  obtain ⟨us, d, eq, derives, within⟩ := sound reads
  exact ⟨us, eq, derives.shape within⟩

variable {operand : Parser Tree} {inClass : BinaryOp → Bool} {inner outer : Phrase}

theorem continue_stops (sound : operand.Sound inner levels)
    (stops : operand.StopsWithin (Shape inner · levels) (⟨.operand, ·⟩))
    (extend : ∀ {ts us o}, Shape outer ts levels → inClass o = true → Shape inner us levels →
      Shape outer (ts ++ .op o :: us) levels)
    {pre ts : List Token} {x : Tree} {e : CompileError} (left : Shape outer pre levels)
    (fails : continueOutcome inClass operand x ts = .error e) (enclosing : List Enclosure) :
    Stops (fun us => Shape outer (pre ++ us) levels) ⟨.operator, enclosing⟩ ts e := by
  -- What was read so far is the left operand, so it grows while the tokens get fewer.
  induction length : ts.length using Nat.strongRecOn generalizing pre ts x with
  | _ n ih =>
      rcases noneAhead_or inClass ts with stop | ⟨o, ts, rfl, member⟩
      · rw [continueOutcome_stop _ _ stop] at fails
        cases fails
      · rw [continueOutcome_op _ _ member] at fails
        rcases bind_eq_error_iff.1 fails with here | ⟨⟨y, mid⟩, reads, later⟩
        · exact (stops here enclosing).behind_token rfl fun us right => extend left member right
        · obtain ⟨us, rfl, right⟩ := sound.shape reads
          have shorter := Reads.shorter reads
          rw [List.length_cons] at length
          have read : Place.readAll ⟨.operator, enclosing⟩ (.op o :: us) =
              some ⟨.operator, enclosing⟩ := right.isOperand enclosing
          refine (ih mid.length (by omega) (extend left member right) later rfl).behind read
            fun vs further => ?_
          rwa [← List.append_assoc]

theorem chain_stops (sound : operand.Sound inner levels)
    (stops : operand.StopsWithin (Shape inner · levels) (⟨.operand, ·⟩))
    (lift : ∀ {ts}, Shape inner ts levels → Shape outer ts levels)
    (extend : ∀ {ts us o}, Shape outer ts levels → inClass o = true → Shape inner us levels →
      Shape outer (ts ++ .op o :: us) levels) :
    (chain inClass operand).StopsWithin (Shape outer · levels) (⟨.operand, ·⟩) := by
  intro ts e fails enclosing
  rw [outcome_chain] at fails
  rcases bind_eq_error_iff.1 fails with here | ⟨⟨x, mid⟩, reads, later⟩
  · exact (stops here enclosing).mono fun us shape => lift shape
  · obtain ⟨us, rfl, shape⟩ := sound.shape reads
    exact (continue_stops sound stops extend (lift shape) later enclosing).behind
      (shape.isOperand enclosing) fun vs whole => whole

theorem sum_stops (sound : operand.Sound .signed levels)
    (stops : operand.StopsWithin (Shape .signed · levels) (⟨.operand, ·⟩)) :
    (sum operand).StopsWithin (Shape .sum · levels) (⟨.operand, ·⟩) :=
  chain_stops (chain_sound sound .factor .multiplied)
    (chain_stops sound stops .factor .multiplied) .term .added

end Phrases

/-! ## Parentheses -/

/-- A sum with the parenthesis that closes its group. -/
def GroupRest (levels : Nat) (ts : List Token) : Prop :=
  ∃ us, ts = us ++ [.closeParen] ∧ Shape .sum us levels

/-- One or more arguments with the parenthesis that closes their list. -/
def ArgumentsRest (levels : Nat) (ts : List Token) : Prop :=
  ∃ us args, ts = [.comma].intercalate (us :: args) ++ [.closeParen] ∧
    ∀ vs ∈ us :: args, Shape .sum vs levels

theorem ArgumentsRest.last {levels : Nat} {us : List Token} (shape : Shape .sum us levels) :
    ArgumentsRest levels (us ++ [.closeParen]) := by
  refine ⟨us, [], ?_, List.forall_mem_singleton.2 shape⟩
  rw [List.intercalate_singleton]

theorem ArgumentsRest.cons {levels : Nat} {us ts : List Token} (shape : Shape .sum us levels)
    (rest : ArgumentsRest levels ts) : ArgumentsRest levels (us ++ .comma :: ts) := by
  obtain ⟨vs, args, rfl, shapes⟩ := rest
  refine ⟨us, vs :: args, ?_, List.forall_mem_cons.2 ⟨shape, shapes⟩⟩
  rw [List.intercalate_cons_cons, List.append_assoc, List.append_assoc, List.singleton_append]

section Parentheses

variable {levels : Nat}

theorem sum_reads_shape {ts rest : List Token} {x : Tree}
    (reads : Reads (sum (signed levels)) ts x rest) :
    ∃ us, ts = us ++ rest ∧ Shape .sum us levels ∧ headOp? rest = none := by
  obtain ⟨us, split, shape⟩ := (sum_sound (signed_sound levels)).shape reads
  exact ⟨us, split, shape, sum_exhausts reads⟩

variable (stops : (signed levels).StopsWithin (Shape .signed · levels) (⟨.operand, ·⟩))

include stops

theorem group_stops :
    (group (signed levels)).StopsWithin (GroupRest levels) (⟨.operand, .group :: ·⟩) := by
  intro ts e fails enclosing
  rw [outcome_group] at fails
  rcases bind_eq_error_iff.1 fails with here | ⟨⟨x, rest⟩, reads, later⟩
  · exact (sum_stops (signed_sound levels) stops here (.group :: enclosing)).within
      fun us shape => ⟨[.closeParen], us, rfl, shape⟩
  · obtain ⟨us, rfl, shape, ended⟩ := sum_reads_shape reads
    have read := shape.isOperand (.group :: enclosing)
    have closed : ∃ vs, GroupRest levels (us ++ vs) := ⟨[.closeParen], us, rfl, shape⟩
    rcases rest with - | ⟨t, rest⟩
    · cases later
      rw [List.append_nil]
      exact .ending read nofun closed
    · cases t with
      | op => cases ended
      | closeParen => cases later
      | _ =>
          cases later
          exact .token rfl read rfl closed

theorem someArguments_stops :
    Parser.StopsWithin (someArguments (signed levels)) (ArgumentsRest levels)
      (⟨.operand, .call :: ·⟩) := by
  intro ts e fails enclosing
  induction length : ts.length using Nat.strongRecOn generalizing ts with
  | _ n ih =>
      rw [outcome_someArguments] at fails
      rcases bind_eq_error_iff.1 fails with here | ⟨⟨x, rest⟩, reads, later⟩
      · exact (sum_stops (signed_sound levels) stops here (.call :: enclosing)).within
          fun us shape => ⟨[.closeParen], .last shape⟩
      · obtain ⟨us, rfl, shape, ended⟩ := sum_reads_shape reads
        have read := shape.isOperand (.call :: enclosing)
        have closed : ∃ vs, ArgumentsRest levels (us ++ vs) := ⟨_, .last shape⟩
        rcases rest with - | ⟨t, rest⟩
        · cases later
          rw [List.append_nil]
          exact .ending read nofun closed
        · cases t with
          | op => cases ended
          | closeParen => cases later
          | comma =>
              have more := map_eq_error_iff.1 later
              have shorter : rest.length < n := by
                rw [← length, List.length_append, List.length_cons]
                omega
              have read' : Place.readAll ⟨.operand, .call :: enclosing⟩ (us ++ [.comma]) =
                  some ⟨.operand, .call :: enclosing⟩ := Place.readAll_append_of read _
              rw [List.append_cons]
              refine (ih _ shorter more rfl).behind read' fun vs further => ?_
              rw [← List.append_cons]
              exact further.cons shape
          | _ =>
              cases later
              exact .token rfl read rfl closed

theorem arguments_stops :
    (arguments (signed levels)).StopsWithin (ArgumentsRest levels) (⟨.argument, .call :: ·⟩) := by
  intro ts e fails enclosing
  by_cases closed : ts.head? = some .closeParen
  · obtain ⟨us, rfl⟩ := List.head?_eq_some_iff.1 closed
    cases fails
  · rw [outcome_arguments_some _ closed] at fails
    -- Behind the parenthesis a list may end; it did not, so the next token is that of an operand.
    have first {us vs : List Token} {t : Token} (eq : ts = t :: us) :
        Place.readAll ⟨.argument, .call :: enclosing⟩ (t :: vs) =
          Place.readAll ⟨.operand, .call :: enclosing⟩ (t :: vs) := by
      rw [Place.readAll, Place.readAll, Place.read_argument]
      rintro rfl
      exact closed (congrArg List.head? eq)
    cases someArguments_stops stops fails enclosing with
    | @token front behind t here split read unread begins =>
        rcases front with - | ⟨u, front⟩
        · cases read
          refine .token split rfl ?_ begins
          rwa [Place.read_argument]
          rintro rfl
          exact closed (congrArg List.head? split)
        · exact .token split ((first split).trans read) unread begins
    | ending read open_ begins =>
        rcases ts with - | ⟨t, ts⟩
        · refine .ending rfl (fun finish => ?_) begins
          cases finish
        · exact .ending ((first rfl).trans read) open_ begins
    | other order => exact .other order

end Parentheses

/-! ## Levels -/

section Levels

variable {levels : Nat}

/-- Signed operands stop so at each level below. -/
def StopsBelow (levels : Nat) : Prop :=
  ∀ n < levels, (signed n).StopsWithin (Shape .signed · n) (⟨.operand, ·⟩)

/-- A nested reading fails since no level is left, or as the parser one level down does. -/
theorem nested_fails {use : Parser Tree → Parser α} {ts : List Token} {e : CompileError}
    (fails : (nested (deeper levels) use).outcome ts = .error e) :
    e = .tooDeep ∨ ∃ below, levels = below + 1 ∧ (use (signed below)).outcome ts = .error e := by
  cases levels with
  | zero =>
      cases fails
      exact .inl rfl
  | succ below => exact .inr ⟨below, rfl, fails⟩

theorem soundBelow (levels : Nat) : SoundBelow levels := by
  cases levels with
  | zero => exact trivial
  | succ below => exact signed_sound below

variable (below : StopsBelow levels)

include below

/-- A signed operand one level down, where a phrase goes on with it. -/
theorem nested_signed_stops {whole : List Token → Prop} {place : Place} {front ts : List Token}
    {enclosing : List Enclosure} {e : CompileError}
    (fails : (nested (deeper levels) id).outcome ts = .error e)
    (read : place.readAll front = some ⟨.operand, enclosing⟩)
    (embed : ∀ n us, levels = n + 1 → Shape .signed us n → whole (front ++ us)) :
    Stops whole place (front ++ ts) e := by
  rcases nested_fails fails with rfl | ⟨n, rfl, fails⟩
  · exact .other rfl
  · exact (below n (Nat.lt_succ_self n) fails enclosing).behind read
      fun us shape => embed n us rfl shape

theorem primary_stops {ts : List Token} {e : CompileError} (unsigned : NoneAhead BinaryOp.isSum ts)
    (fails : (primary (deeper levels)).outcome ts = .error e) (enclosing : List Enclosure) :
    Stops (Shape .primary · levels) ⟨.operand, enclosing⟩ ts e := by
  have begins : ∃ us, Shape .primary us levels := ⟨[.number 0], .number 0⟩
  rcases ts with - | ⟨t, ts⟩
  · cases fails
    exact .ending rfl nofun begins
  · cases t with
    | number => cases fails
    | openParen =>
        rw [outcome_primary_group] at fails
        rcases nested_fails fails with rfl | ⟨n, rfl, fails⟩
        · exact .other rfl
        · refine (group_stops (below n (Nat.lt_succ_self n)) fails enclosing).behind_token rfl ?_
          rintro vs ⟨us, rfl, shape⟩
          exact .group shape
    | word name =>
        by_cases called : ts.head? = some .openParen
        · obtain ⟨us, rfl⟩ := List.head?_eq_some_iff.1 called
          rw [outcome_primary_call] at fails
          split at fails
          · cases fails
            exact .other rfl
          · next f found =>
            have written := Func.name_of_ofName? found ▸ written_bareName name
            rcases bind_eq_error_iff.1 fails with fails | ⟨⟨xs, rest⟩, -, fails⟩
            · rcases nested_fails fails with rfl | ⟨n, rfl, fails⟩
              · exact .other rfl
              · have read : Place.readAll ⟨.operand, enclosing⟩ [.word name, .openParen] =
                    some ⟨.argument, .call :: enclosing⟩ :=
                  Place.readAll_cons _ (Place.read_function written)
                refine (arguments_stops (below n (Nat.lt_succ_self n)) fails enclosing).behind
                  read ?_
                rintro vs ⟨us, args, rfl, shapes⟩
                exact .call written shapes
            · dsimp only at fails
              split at fails <;> cases fails
              exact .other rfl
        · rw [outcome_primary_name _ _ called] at fails
          split at fails <;> cases fails
          exact .other rfl
    | op o =>
        cases fails
        exact .head (if_neg (Bool.eq_false_iff.1 (unsigned o rfl))) begins
    | closeParen | comma =>
        cases fails
        exact .head rfl begins

theorem power_stops {ts : List Token} {e : CompileError} (unsigned : NoneAhead BinaryOp.isSum ts)
    (fails : (power (deeper levels)).outcome ts = .error e) (enclosing : List Enclosure) :
    Stops (Shape .power · levels) ⟨.operand, enclosing⟩ ts e := by
  rw [outcome_power] at fails
  rcases bind_eq_error_iff.1 fails with here | ⟨⟨x, mid⟩, reads, later⟩
  · exact (primary_stops below unsigned here enclosing).mono fun us shape => .base shape
  · obtain ⟨us, rfl, base⟩ := (primary_sound (soundBelow levels)).shape reads
    dsimp only at later
    split at later
    · next eq =>
      cases eq
      have read : Place.readAll ⟨.operand, enclosing⟩ (us ++ [.op .pow]) =
          some ⟨.operand, enclosing⟩ := Place.readAll_append_of (base.isOperand enclosing) _
      rw [List.append_cons]
      refine nested_signed_stops below (map_eq_error_iff.1 later) read ?_
      rintro n vs rfl exponent
      rw [← List.append_cons]
      exact .raised base exponent
    · cases later

theorem signedOrPower_stops :
    (signedOrPower (deeper levels)).StopsWithin (Shape .signed · levels) (⟨.operand, ·⟩) := by
  intro ts e fails enclosing
  rcases noneAhead_or BinaryOp.isSum ts with unsigned | ⟨o, us, rfl, member⟩
  · rw [outcome_signed_power _ unsigned] at fails
    exact (power_stops below unsigned fails enclosing).mono fun us shape => .unsigned shape
  · have fails : (nested (deeper levels) id).outcome us = .error e := by
      cases o with
      | add => rwa [outcome_signed_plus] at fails
      | sub =>
          rw [outcome_signed_minus] at fails
          exact map_eq_error_iff.1 fails
      | _ => cases member
    have read : Place.readAll ⟨.operand, enclosing⟩ [.op o] = some ⟨.operand, enclosing⟩ :=
      Place.readAll_cons _ (Place.read_sign member)
    refine nested_signed_stops below fails read ?_
    rintro n vs rfl shape
    exact .sign member shape

end Levels

theorem signed_stops (levels : Nat) :
    (signed levels).StopsWithin (Shape .signed · levels) (⟨.operand, ·⟩) := by
  induction levels using Nat.strongRecOn with
  | _ levels below =>
      rw [signed_eq]
      exact signedOrPower_stops below

/-- Parsing stops as its parts do, and where an operand is not followed by an operator. -/
theorem parse_stops {ts : List Token} {e : CompileError} (fails : parse ts = .error e) :
    Stops (Shape .sum · maxDepth) .start ts e := by
  rw [parse_eq] at fails
  rcases bind_eq_error_iff.1 fails with here | ⟨⟨x, rest⟩, reads, left⟩
  · exact sum_stops (signed_sound maxDepth) (signed_stops maxDepth) here []
  · obtain ⟨us, rfl, shape, ended⟩ := sum_reads_shape reads
    rcases rest with - | ⟨t, rest⟩
    · cases left
    · cases left
      refine .token rfl (shape.isOperand []) ?_ ⟨[], by rwa [List.append_nil]⟩
      cases t with
      | op => cases ended
      | _ => rfl

/-! ## Errors -/

/-- Some expression begins with these tokens. -/
def Begins (ts : List Token) : Prop := ∃ us, Shape .sum (ts ++ us) maxDepth

theorem Begins.of_append {ts us : List Token} (begins : Begins (ts ++ us)) : Begins ts := by
  obtain ⟨vs, shape⟩ := begins
  exact ⟨us ++ vs, by rwa [← List.append_assoc]⟩

/-- Beginnings of what begins an expression begin one. -/
theorem Begins.take {ts : List Token} {j k : Nat} (begins : Begins (ts.take k)) (le : j ≤ k) :
    Begins (ts.take j) := by
  obtain ⟨n, rfl⟩ := Nat.exists_eq_add_of_le le
  rw [List.take_add] at begins
  exact begins.of_append

/-- What cannot be read begins nothing of any depth. -/
theorem not_shape_of_unread {front us : List Token} {t : Token} {here : Place} {levels : Nat}
    (read : Place.start.readAll front = some here) (unread : here.read t = none) :
    ¬Shape .sum (front ++ t :: us) levels := by
  intro shape
  have whole : Place.start.readAll (front ++ t :: us) = some .finish := shape.isOperand []
  rw [Place.readAll_append_of read, Place.readAll, unread] at whole
  cases whole

theorem Lexeme.first?_error {c : Char} {cs : List Char} {e : CompileError}
    (fails : first? c cs = some (.error e)) : e.isSyntax = false := by
  unfold first? at fails
  split at fails
  · dsimp only at fails
    split at fails <;> cases fails
    rfl
  · split at fails
    · cases fails
    · split at fails <;> cases fails

theorem Lexeme.scan_error {offset : Nat} {cs : List Char} {e : CompileError}
    (fails : scan offset cs = .error e) : e.isSyntax = false := by
  fun_induction scan offset cs with
  | case1 => cases fails
  | case2 offset c cs gap ih => exact ih fails
  | case3 offset c cs gap none_ =>
      cases fails
      rfl
  | case4 offset c cs gap e' found =>
      cases fails
      exact first?_error found
  | case5 offset c cs gap l found ih =>
      rcases bind_eq_error_iff.1 fails with later | ⟨rest, -, done⟩
      · exact ih later
      · cases done

/-- Only parsing reports tokens that are out of place, or missing. -/
theorem parse_of_compile {text : String} {e : CompileError} (fails : compile text = .error e)
    (syntax_ : e.isSyntax = true) :
    ∃ ts, tokens (Text.trim text.toList) = .ok ts ∧ parse ts = .error e := by
  rcases bind_eq_error_iff.1 fails with scanning | ⟨ts, scanned, parsing⟩
  · have order : e.isSyntax = false := by
      rcases bind_eq_error_iff.1 scanning with scanning | ⟨lexemes, -, counting⟩
      · exact Lexeme.scan_error scanning
      · split at counting
        · cases counting
          rfl
        · split at counting <;> cases counting
          rfl
    exact absurd syntax_ (Bool.eq_false_iff.1 order)
  · rcases bind_eq_error_iff.1 parsing with parsing | ⟨x, -, done⟩
    · exact ⟨ts, scanned, parsing⟩
    · cases done

/-- **Tokens out of place are reported as early as they can be.**  The token that is reported is the
first after which no expression goes on, of whatever depth, while some expression begins with the
tokens before it.  Where an end is reported, some longer expression begins with all tokens, and they
are none. -/
theorem reported_token_is_earliest :
    (∀ (ts : List Token) (t : Token), parse ts = .error (.unexpectedToken t) →
      ∃ k, ts[k]? = some t ∧ IsLeast {j | ¬Begins (ts.take (j + 1))} k ∧ Begins (ts.take k) ∧
        ∀ us levels, ¬Shape .sum (ts.take (k + 1) ++ us) levels) ∧
    (∀ ts : List Token, parse ts = .error .unexpectedEnd →
      (∃ us, us ≠ [] ∧ Shape .sum (ts ++ us) maxDepth) ∧ ∀ levels, ¬Shape .sum ts levels) ∧
    ∀ (text : String) (e : CompileError), compile text = .error e → e.isSyntax = true →
      ∃ ts, tokens (Text.trim text.toList) = .ok ts ∧ parse ts = .error e := by
  refine ⟨fun ts t fails => ?_, fun ts fails => ?_, fun text e => parse_of_compile⟩
  · cases parse_stops fails with
    | @token front behind t here split read unread begins =>
        subst split
        have upTo : (front ++ t :: behind).take (front.length + 1) = front ++ [t] := by
          rw [List.append_cons, List.take_left' (by simp)]
        have before : (front ++ t :: behind).take front.length = front := List.take_left
        have none_ (us : List Token) (levels : Nat) :
            ¬Shape .sum ((front ++ t :: behind).take (front.length + 1) ++ us) levels := by
          rw [upTo, ← List.append_cons]
          exact not_shape_of_unread read unread
        have begins : Begins ((front ++ t :: behind).take front.length) := by rwa [before]
        refine ⟨front.length, by simp, ⟨?_, fun j later => ?_⟩, begins, none_⟩
        · rintro ⟨us, shape⟩
          exact none_ us maxDepth shape
        · by_contra earlier
          exact later (begins.take (Nat.lt_of_not_le earlier))
    | other order => cases order
  · cases parse_stops fails with
    | ending read open_ begins =>
        have none_ (levels : Nat) : ¬Shape .sum ts levels := by
          intro shape
          have whole := shape.isOperand []
          exact open_ (Option.some.inj (read.symm.trans whole))
        obtain ⟨us, shape⟩ := begins
        refine ⟨⟨us, ?_, shape⟩, none_⟩
        rintro rfl
        rw [List.append_nil] at shape
        exact none_ _ shape
    | other order => cases order

/-- The tokens of `t**(-`, where an operand is missing. -/
def operandMissing : List Token := [.word "t", .op .pow, .openParen, .op .sub]

/-- A comma behind `t**(-` is the first token that is out of place. -/
theorem comma_is_earliest :
    (∃ k, (operandMissing ++ [Token.comma])[k]? = some .comma ∧
      IsLeast {j | ¬Begins ((operandMissing ++ [Token.comma]).take (j + 1))} k) ∧
    (∃ us, us ≠ [] ∧ Shape .sum (operandMissing ++ us) maxDepth) ∧
    ∃ ts, tokens (Text.trim "t**(-,".toList) = .ok ts ∧
      parse ts = .error (.unexpectedToken .comma) := by
  refine ⟨?_, ?_, ?_⟩
  · obtain ⟨k, reported, least, -⟩ :=
      reported_token_is_earliest.1 (operandMissing ++ [Token.comma]) .comma rfl
    exact ⟨k, reported, least⟩
  · exact (reported_token_is_earliest.2.1 operandMissing rfl).1
  · have scanned : tokens (Text.trim "t**(-,".toList) = .ok (operandMissing ++ [Token.comma]) := by
      cbv
    have fails : compile "t**(-," = .error (.unexpectedToken .comma) := by
      show Except.bind (tokens _) _ = _
      rw [scanned]
      rfl
    exact reported_token_is_earliest.2.2 _ _ fails rfl

end Gait.Expr
