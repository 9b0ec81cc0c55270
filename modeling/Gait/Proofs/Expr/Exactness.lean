import Gait.Expr
import Gait.Proofs.Expr.Outcome
import Mathlib

/-!
# Parsers read exactly the grammar

`Reads p ts x rest` says that a parser succeeds.  `Parser.Sound` collects that whatever a parser
reads is a phrase within its levels; it is proved from the parsers of the parts upwards and then by
induction on the levels.  `Derives.completes` is the converse, by induction on the derivation: for
the phrases that associate to the left it has to speak of what follows, since a parser of chains
goes on from the left operand.

`compile_iff_derives` combines both with the limits on tokens and levels.
-/

namespace Gait.Expr

variable {α : Type}

/-- The parser reads `x` from the head of `ts` and leaves `rest`. -/
def Reads (p : Parser α) (ts : List Token) (x : α) (rest : List Token) : Prop :=
  p.outcome ts = .ok (x, rest)

/-- From the operand `x`, the operators and operands at the head of `ts` lead to `y` and leave
`rest`. -/
def Continues (inClass : BinaryOp → Bool) (operand : Parser Tree) (x : Tree) (ts : List Token)
    (y : Tree) (rest : List Token) : Prop :=
  continueOutcome inClass operand x ts = .ok (y, rest)

theorem bind_eq_ok_iff {ε β : Type} {r : Except ε α} {f : α → Except ε β} {b : β} :
    r.bind f = .ok b ↔ ∃ a, r = .ok a ∧ f a = .ok b := by
  cases r with
  | error e => simp [Except.bind]
  | ok a => simp [Except.bind]

theorem map_eq_ok_iff {ε β : Type} {r : Except ε α} {f : α → β} {b : β} :
    r.map f = .ok b ↔ ∃ a, r = .ok a ∧ f a = b := by
  cases r with
  | error e => simp [Except.map]
  | ok a => simp [Except.map]

/-! ## When parsers read -/

theorem Reads.shorter {p : Parser α} {ts rest : List Token} {x : α} (reads : Reads p ts x rest) :
    rest.length < ts.length := by
  obtain ⟨r, -, eq⟩ := map_eq_ok_iff.1 reads
  cases eq
  exact r.shorter

section Parts

variable {inClass : BinaryOp → Bool} {operand : Parser Tree}

theorem continues_op_iff {o : BinaryOp} (member : inClass o = true) {x z : Tree}
    {ts rest : List Token} :
    Continues inClass operand x (.op o :: ts) z rest ↔
      ∃ y us, Reads operand ts y us ∧ Continues inClass operand (.binary o x y) us z rest := by
  rw [Continues, continueOutcome_op _ _ member, bind_eq_ok_iff]
  constructor
  · rintro ⟨⟨y, us⟩, reads, continues⟩
    exact ⟨y, us, reads, continues⟩
  · rintro ⟨y, us, reads, continues⟩
    exact ⟨(y, us), reads, continues⟩

theorem continues_stop_iff {x y : Tree} {ts rest : List Token}
    (stop : ∀ o, headOp? ts = some o → inClass o = false) :
    Continues inClass operand x ts y rest ↔ x = y ∧ ts = rest := by
  rw [Continues, continueOutcome_stop _ _ stop, Except.ok.injEq, Prod.mk.injEq]

theorem reads_chain_iff {ts rest : List Token} {z : Tree} :
    Reads (chain inClass operand) ts z rest ↔
      ∃ x us, Reads operand ts x us ∧ Continues inClass operand x us z rest := by
  rw [Reads, outcome_chain, bind_eq_ok_iff]
  constructor
  · rintro ⟨⟨x, us⟩, reads, continues⟩
    exact ⟨x, us, reads, continues⟩
  · rintro ⟨x, us, reads, continues⟩
    exact ⟨(x, us), reads, continues⟩

theorem reads_group_iff {ts rest : List Token} {x : Tree} :
    Reads (group operand) ts x rest ↔ Reads (sum operand) ts x (.closeParen :: rest) := by
  rw [Reads, outcome_group, bind_eq_ok_iff]
  constructor
  · rintro ⟨⟨y, us⟩, reads, closed⟩
    split at closed <;> cases closed
    next eq =>
      cases eq
      exact reads
  · intro reads
    exact ⟨_, reads, rfl⟩

theorem reads_someArguments_iff {ts rest : List Token} {xs : List Tree} :
    Reads (someArguments operand) ts xs rest ↔
      (∃ x ys us, Reads (sum operand) ts x (.comma :: us) ∧
        Reads (someArguments operand) us ys rest ∧ xs = x :: ys) ∨
      ∃ x, Reads (sum operand) ts x (.closeParen :: rest) ∧ xs = [x] := by
  rw [Reads, outcome_someArguments, bind_eq_ok_iff]
  constructor
  · rintro ⟨⟨x, us⟩, reads, after⟩
    dsimp only at after
    split at after
    · next eq =>
      cases eq
      obtain ⟨⟨ys, vs⟩, more, eq⟩ := map_eq_ok_iff.1 after
      cases eq
      exact Or.inl ⟨x, ys, _, reads, more, rfl⟩
    · next eq =>
      cases eq
      cases after
      exact Or.inr ⟨x, reads, rfl⟩
    · cases after
    · cases after
  · rintro (⟨x, ys, us, reads, more, rfl⟩ | ⟨x, reads, rfl⟩)
    · exact ⟨_, reads, map_eq_ok_iff.2 ⟨_, more, rfl⟩⟩
    · exact ⟨_, reads, rfl⟩

end Parts

/-! ## What is read is derived -/

/-- Whatever the parser reads is a phrase that stays within the levels. -/
def Parser.Sound (p : Parser Tree) (phrase : Phrase) (levels : Nat) : Prop :=
  ∀ ⦃ts : List Token⦄ ⦃x : Tree⦄ ⦃rest : List Token⦄, Reads p ts x rest →
    ∃ us d, ts = us ++ rest ∧ Derives phrase us x d ∧ d ≤ levels

section Soundness

variable {operand : Parser Tree} {levels : Nat}

/-- The operands read one by one extend a phrase that associates to the left. -/
theorem continues_sound {inClass : BinaryOp → Bool} {inner outer : Phrase}
    (sound : operand.Sound inner levels)
    (extend : ∀ {ts us o x y d e}, Derives outer ts x d → inClass o = true →
      Derives inner us y e → Derives outer (ts ++ .op o :: us) (.binary o x y) (max d e))
    {pre ts rest : List Token} {x z : Tree} {d : Nat} (left : Derives outer pre x d)
    (within : d ≤ levels) (continues : Continues inClass operand x ts z rest) :
    ∃ us e, ts = us ++ rest ∧ Derives outer (pre ++ us) z e ∧ e ≤ levels := by
  induction length : ts.length using Nat.strongRecOn generalizing pre ts x d with
  | _ n ih =>
      have stopped : (∀ o, headOp? ts = some o → inClass o = false) →
          ∃ us e, ts = us ++ rest ∧ Derives outer (pre ++ us) z e ∧ e ≤ levels := by
        intro stop
        obtain ⟨rfl, rfl⟩ := (continues_stop_iff stop).1 continues
        exact ⟨[], d, rfl, by rwa [List.append_nil], within⟩
      rcases ts with - | ⟨t, ts⟩
      · exact stopped nofun
      · cases t with
        | op o =>
            cases member : inClass o with
            | false =>
                refine stopped fun o' head => ?_
                cases head
                exact member
            | true =>
                obtain ⟨y, mid, reads, more⟩ := (continues_op_iff member).1 continues
                obtain ⟨us, e, rfl, right, withinRight⟩ := sound reads
                have shorter : mid.length < n := by
                  have := reads.shorter
                  simp only [List.length_cons] at length
                  omega
                obtain ⟨vs, e', rfl, whole, withinWhole⟩ :=
                  ih _ shorter (extend left member right) (Nat.max_le.2 ⟨within, withinRight⟩)
                    more rfl
                refine ⟨.op o :: us ++ vs, e', by simp, ?_, withinWhole⟩
                simpa using whole
        | _ => exact stopped nofun

theorem chain_sound {inClass : BinaryOp → Bool} {inner outer : Phrase}
    (sound : operand.Sound inner levels)
    (lift : ∀ {ts x d}, Derives inner ts x d → Derives outer ts x d)
    (extend : ∀ {ts us o x y d e}, Derives outer ts x d → inClass o = true →
      Derives inner us y e → Derives outer (ts ++ .op o :: us) (.binary o x y) (max d e)) :
    (chain inClass operand).Sound outer levels := by
  intro ts z rest reads
  obtain ⟨x, mid, first, continues⟩ := reads_chain_iff.1 reads
  obtain ⟨us, d, rfl, left, within⟩ := sound first
  obtain ⟨vs, e, rfl, whole, withinWhole⟩ :=
    continues_sound sound extend (lift left) within continues
  exact ⟨us ++ vs, e, by simp, whole, withinWhole⟩

theorem sum_sound (sound : operand.Sound .signed levels) : (sum operand).Sound .sum levels :=
  chain_sound (chain_sound sound .factor .multiplied) .term .added

theorem group_sound (sound : operand.Sound .signed levels) {ts rest : List Token} {x : Tree}
    (reads : Reads (group operand) ts x rest) :
    ∃ us d, ts = us ++ .closeParen :: rest ∧ Derives .sum us x d ∧ d ≤ levels :=
  sum_sound sound (reads_group_iff.1 reads)

/-- Arguments read one by one are sums with commas between them. -/
theorem someArguments_sound (sound : operand.Sound .signed levels) {ts rest : List Token}
    {xs : List Tree} (reads : Reads (someArguments operand) ts xs rest) :
    ∃ args : List Argument, args ≠ [] ∧ ts = Argument.joined args ++ .closeParen :: rest ∧
      xs = args.map (·.tree) ∧ (∀ a ∈ args, Derives .sum a.tokens a.tree a.depth) ∧
      Argument.deepest args ≤ levels := by
  induction length : ts.length using Nat.strongRecOn generalizing ts xs with
  | _ n ih =>
      rcases reads_someArguments_iff.1 reads with
        ⟨x, ys, mid, first, more, rfl⟩ | ⟨x, last, rfl⟩
      · obtain ⟨us, d, rfl, derives, within⟩ := sum_sound sound first
        have shorter : mid.length < n := by
          have := first.shorter
          simp only [List.length_cons, List.length_append] at this length
          omega
        obtain ⟨args, nonempty, rfl, rfl, all, withinArgs⟩ := ih _ shorter more rfl
        obtain ⟨a, args, rfl⟩ := List.exists_cons_of_ne_nil nonempty
        refine ⟨⟨us, x, d⟩ :: a :: args, by simp, ?_, rfl, ?_, ?_⟩
        · simp
        · exact List.forall_mem_cons.2 ⟨derives, all⟩
        · exact Nat.max_le.2 ⟨within, withinArgs⟩
      · obtain ⟨us, d, rfl, derives, within⟩ := sum_sound sound last
        refine ⟨[⟨us, x, d⟩], by simp, ?_, rfl, ?_, ?_⟩
        · simp
        · exact List.forall_mem_singleton.2 derives
        · exact Nat.max_le.2 ⟨within, Nat.zero_le _⟩

/-- Arguments up to the closing parenthesis, possibly none. -/
theorem arguments_sound (sound : operand.Sound .signed levels) {ts rest : List Token}
    {xs : List Tree} (reads : Reads (arguments operand) ts xs rest) :
    ∃ args : List Argument, ts = Argument.joined args ++ .closeParen :: rest ∧
      xs = args.map (·.tree) ∧ (∀ a ∈ args, Derives .sum a.tokens a.tree a.depth) ∧
      Argument.deepest args ≤ levels := by
  by_cases closed : ts.head? = some .closeParen
  · obtain ⟨us, rfl⟩ := List.head?_eq_some_iff.1 closed
    cases reads
    exact ⟨[], rfl, rfl, nofun, Nat.zero_le _⟩
  · rw [Reads, outcome_arguments_some _ closed] at reads
    obtain ⟨args, -, found⟩ := someArguments_sound sound reads
    exact ⟨args, found⟩

end Soundness

section Levels

variable {levels : Nat}

/-- What holds of the parser one level down, if there is one. -/
def SoundBelow : (levels : Nat) → Prop
  | 0 => True
  | levels + 1 => (signed levels).Sound .signed levels

/-- A nested reading opens one of the levels. -/
theorem reads_nested {use : Parser Tree → Parser α} {ts rest : List Token} {x : α}
    (reads : Reads (nested (deeper levels) use) ts x rest) :
    ∃ below, levels = below + 1 ∧ Reads (use (signed below)) ts x rest := by
  cases levels with
  | zero => cases reads
  | succ below => exact ⟨below, rfl, reads⟩

theorem nested_signed_sound (sound : SoundBelow levels) {ts rest : List Token} {x : Tree}
    (reads : Reads (nested (deeper levels) id) ts x rest) :
    ∃ us d, ts = us ++ rest ∧ Derives .signed us x d ∧ d + 1 ≤ levels := by
  obtain ⟨below, rfl, reads⟩ := reads_nested reads
  obtain ⟨us, d, eq, derives, within⟩ := sound reads
  exact ⟨us, d, eq, derives, Nat.succ_le_succ within⟩

theorem primary_sound (sound : SoundBelow levels) :
    (primary (deeper levels)).Sound .primary levels := by
  intro ts x rest reads
  rcases ts with - | ⟨t, ts⟩
  · cases reads
  · cases t with
    | number value =>
        cases reads
        exact ⟨[.number value], 0, rfl, .number value, Nat.zero_le _⟩
    | openParen =>
        rw [Reads, outcome_primary_group] at reads
        obtain ⟨below, rfl, reads⟩ := reads_nested reads
        obtain ⟨us, d, rfl, derives, within⟩ := group_sound sound reads
        exact ⟨_, d + 1, by simp, .group derives, Nat.succ_le_succ within⟩
    | word name =>
        by_cases called : ts.head? = some .openParen
        · obtain ⟨us, rfl⟩ := List.head?_eq_some_iff.1 called
          rw [Reads, outcome_primary_call] at reads
          split at reads
          · cases reads
          · next f found =>
            obtain ⟨⟨xs, vs⟩, args, tree⟩ := bind_eq_ok_iff.1 reads
            obtain ⟨below, rfl, args⟩ := reads_nested args
            obtain ⟨given, rfl, rfl, all, within⟩ := arguments_sound sound args
            dsimp only at tree
            split at tree
            · next call =>
              cases tree
              have written := Func.name_of_ofName? found ▸ written_bareName name
              exact ⟨_, _, by simp, .call written all (Tree.call?_eq_some_iff.1 call),
                Nat.succ_le_succ within⟩
            · cases tree
        · rw [Reads, outcome_primary_name _ _ called] at reads
          split at reads <;> cases reads
          next denoted =>
          exact ⟨[.word name], 0, rfl,
            .name (written_bareName name) (named?_eq_some_iff.1 denoted), Nat.zero_le _⟩
    | _ => cases reads

theorem power_sound (sound : SoundBelow levels) :
    (power (deeper levels)).Sound .power levels := by
  intro ts z rest reads
  rw [Reads, outcome_power] at reads
  obtain ⟨⟨x, mid⟩, first, after⟩ := bind_eq_ok_iff.1 reads
  obtain ⟨us, d, rfl, left, within⟩ := primary_sound sound first
  dsimp only at after
  split at after
  · next eq =>
    cases eq
    obtain ⟨⟨y, vs⟩, exponent, eq⟩ := map_eq_ok_iff.1 after
    cases eq
    obtain ⟨ws, e, rfl, right, withinRight⟩ := nested_signed_sound sound exponent
    exact ⟨us ++ .op .pow :: ws, _, by simp, .raised left right, Nat.max_le.2 ⟨within, withinRight⟩⟩
  · next eq =>
    cases eq
    cases after
    exact ⟨us, d, rfl, .base left, within⟩

theorem signedOrPower_sound (sound : SoundBelow levels) :
    (signedOrPower (deeper levels)).Sound .signed levels := by
  intro ts z rest reads
  have unsigned : (∀ o, headOp? ts = some o → o.isSum = false) →
      ∃ us d, ts = us ++ rest ∧ Derives .signed us z d ∧ d ≤ levels := by
    intro notSign
    rw [Reads, outcome_signed_power _ notSign] at reads
    obtain ⟨us, d, eq, derives, within⟩ := power_sound sound reads
    exact ⟨us, d, eq, .unsigned derives, within⟩
  rcases ts with - | ⟨t, ts⟩
  · exact unsigned nofun
  · cases t with
    | op o =>
        cases o with
        | sub =>
            rw [Reads, outcome_signed_minus] at reads
            obtain ⟨⟨x, us⟩, operand, eq⟩ := map_eq_ok_iff.1 reads
            cases eq
            obtain ⟨vs, d, rfl, derives, within⟩ := nested_signed_sound sound operand
            exact ⟨.op .sub :: vs, d + 1, rfl, .minus derives, within⟩
        | add =>
            rw [Reads, outcome_signed_plus] at reads
            obtain ⟨vs, d, rfl, derives, within⟩ := nested_signed_sound sound reads
            exact ⟨.op .add :: vs, d + 1, rfl, .plus derives, within⟩
        | _ => exact unsigned fun _ head => by cases head; rfl
    | _ => exact unsigned nofun

/-- Every level reads only phrases of the grammar. -/
theorem signed_sound (levels : Nat) : (signed levels).Sound .signed levels := by
  induction levels with
  | zero => exact @signedOrPower_sound 0 trivial
  | succ levels ih => exact @signedOrPower_sound (levels + 1) ih

end Levels

/-! ## What is derived is read -/

/-- A text after a phrase that neither calls it nor raises it. -/
def Follows (rest : List Token) : Prop :=
  rest.head? ≠ some .openParen ∧ headOp? rest ≠ some .pow

/-- The phrase is read with as many levels as it needs, in front of whatever may follow it.  A
phrase that associates to the left is the left operand of what follows. -/
def Completes (phrase : Phrase) (ts : List Token) (x : Tree) (d : Nat) : Prop :=
  ∀ ⦃levels : Nat⦄, d ≤ levels → ∀ ⦃rest : List Token⦄,
    match phrase with
    | .primary => rest.head? ≠ some .openParen → Reads (primary (deeper levels)) (ts ++ rest) x rest
    | .power => Follows rest → Reads (power (deeper levels)) (ts ++ rest) x rest
    | .signed => Follows rest → Reads (signed levels) (ts ++ rest) x rest
    | .product => Follows rest → ∀ ⦃z us⦄,
        Continues BinaryOp.isProduct (signed levels) x rest z us →
          Reads (chain BinaryOp.isProduct (signed levels)) (ts ++ rest) z us
    | .sum => Follows rest → (∀ o, headOp? rest = some o → o.isProduct = false) → ∀ ⦃z us⦄,
        Continues BinaryOp.isSum (chain BinaryOp.isProduct (signed levels)) x rest z us →
          Reads (sum (signed levels)) (ts ++ rest) z us

/-- A sum in front of a token that ends it. -/
theorem Completes.sum_reads {ts rest : List Token} {x : Tree} {d levels : Nat}
    (completes : Completes .sum ts x d) (within : d ≤ levels)
    (notCalled : rest.head? ≠ some .openParen) (ended : headOp? rest = none) :
    Reads (sum (signed levels)) (ts ++ rest) x rest := by
  refine completes within ⟨notCalled, by simp [ended]⟩ (by simp [ended]) ?_
  exact (continues_stop_iff (by simp [ended])).2 ⟨rfl, rfl⟩

/-- Arguments that are read one by one are read together. -/
theorem someArguments_reads {levels : Nat} {rest : List Token} {args : List Argument}
    (nonempty : args ≠ []) (completes : ∀ a ∈ args, Completes .sum a.tokens a.tree a.depth)
    (within : Argument.deepest args ≤ levels) :
    Reads (someArguments (signed levels)) (Argument.joined args ++ .closeParen :: rest)
      (args.map (·.tree)) rest := by
  induction args with
  | nil => exact absurd rfl nonempty
  | cons a args ih =>
      obtain ⟨withinFirst, withinRest⟩ := Nat.max_le.1 within
      obtain ⟨first, others⟩ := List.forall_mem_cons.1 completes
      rcases args with - | ⟨b, args⟩
      · have last : Reads (sum (signed levels)) (a.tokens ++ .closeParen :: rest) a.tree
            (.closeParen :: rest) := first.sum_reads withinFirst (by simp) rfl
        rw [Argument.joined_singleton]
        exact reads_someArguments_iff.2 (Or.inr ⟨a.tree, last, rfl⟩)
      · have more := ih (List.cons_ne_nil b args) others withinRest
        have head : Reads (sum (signed levels))
            (a.tokens ++ .comma :: (Argument.joined (b :: args) ++ .closeParen :: rest)) a.tree
            (.comma :: (Argument.joined (b :: args) ++ .closeParen :: rest)) :=
          first.sum_reads withinFirst (by simp) rfl
        rw [Argument.joined_cons_cons, List.append_assoc]
        exact reads_someArguments_iff.2 (Or.inl ⟨a.tree, _, _, head, more, rfl⟩)

theorem arguments_reads {levels : Nat} {rest : List Token} {args : List Argument}
    (nonempty : args ≠ []) (derives : ∀ a ∈ args, Derives .sum a.tokens a.tree a.depth)
    (completes : ∀ a ∈ args, Completes .sum a.tokens a.tree a.depth)
    (within : Argument.deepest args ≤ levels) :
    Reads (arguments (signed levels)) (Argument.joined args ++ .closeParen :: rest)
      (args.map (·.tree)) rest := by
  have notClosed : (Argument.joined args ++ .closeParen :: rest).head? ≠ some .closeParen := by
    obtain ⟨a, args, rfl⟩ := List.exists_cons_of_ne_nil nonempty
    obtain ⟨t, us, tokens, starts⟩ := (derives a List.mem_cons_self).head
    have head : (Argument.joined (a :: args)).head? = some t := by
      cases args <;> simp [tokens]
    rw [List.head?_append, head]
    rintro ⟨⟩
    cases starts
  rw [Reads, outcome_arguments_some _ notClosed]
  exact someArguments_reads nonempty completes within

/-- A reading one level down is a nested reading. -/
theorem nested_signed_reads {ts rest : List Token} {x : Tree} {d levels : Nat}
    (completes : Completes .signed ts x d) (within : d + 1 ≤ levels) (follows : Follows rest) :
    Reads (nested (deeper levels) id) (ts ++ rest) x rest := by
  cases levels with
  | zero => cases within
  | succ below => exact completes (Nat.le_of_succ_le_succ within) follows

/-- What starts with an operator that is not `**` neither calls nor raises what it follows. -/
theorem follows_op {o : BinaryOp} (ne : o ≠ .pow) (ts : List Token) : Follows (.op o :: ts) :=
  ⟨nofun, fun head => ne (Option.some.inj head)⟩

/-- A derived phrase is read, by induction on its derivation. -/
theorem Derives.completes {phrase : Phrase} {ts : List Token} {x : Tree} {d : Nat}
    (derives : Derives phrase ts x d) : Completes phrase ts x d := by
  induction derives with
  | number value => exact fun _ _ _ _ => rfl
  | name written denotes =>
      intro levels _ rest notCalled
      show Parser.outcome _ (.word _ :: rest) = _
      rw [outcome_primary_name _ _ notCalled, written.bareName_eq denotes.plain,
        named?_eq_some_iff.2 denotes]
  | @group ts x d _ ih =>
      intro levels within rest _
      cases levels with
      | zero => cases within
      | succ below =>
          have inner : Reads (sum (signed below)) (ts ++ .closeParen :: rest) x
              (.closeParen :: rest) :=
            ih.sum_reads (Nat.le_of_succ_le_succ within) (by simp) rfl
          have tokens : .openParen :: ts ++ [.closeParen] ++ rest =
              Token.openParen :: (ts ++ .closeParen :: rest) := by simp
          rw [tokens, Reads, outcome_primary_group]
          exact reads_group_iff.2 inner
  | @call f name args x written all call ih =>
      intro levels within rest _
      cases levels with
      | zero => cases within
      | succ below =>
          have nonempty : args ≠ [] := by
            rintro rfl
            cases call
          have inner : Reads (arguments (signed below))
              (Argument.joined args ++ .closeParen :: rest) (args.map (·.tree)) rest :=
            arguments_reads nonempty all ih (Nat.le_of_succ_le_succ within)
          have tokens : .word name :: .openParen :: Argument.joined args ++ [.closeParen] ++ rest =
              Token.word name :: .openParen :: (Argument.joined args ++ .closeParen :: rest) := by
            simp
          rw [tokens, Reads, outcome_primary_call, written.bareName_eq f.name_plain,
            Func.ofName?_name]
          exact bind_eq_ok_iff.2 ⟨_, inner, by simp [Tree.call?_eq_some_iff.2 call]⟩
  | @base ts x d _ ih =>
      intro levels within rest follows
      show Parser.outcome _ _ = _
      rw [outcome_power]
      refine bind_eq_ok_iff.2 ⟨_, ih within follows.1, ?_⟩
      dsimp only
      split
      · next eq =>
        cases eq
        exact absurd rfl follows.2
      · next eq =>
        cases eq
        rfl
  | @raised ts us x y d e _ _ ihBase ihExponent =>
      intro levels within rest follows
      obtain ⟨withinBase, withinExponent⟩ := Nat.max_le.1 within
      have base : Reads (primary (deeper levels)) (ts ++ .op .pow :: (us ++ rest)) x
          (.op .pow :: (us ++ rest)) := ihBase withinBase nofun
      have exponent := nested_signed_reads ihExponent withinExponent follows
      show Parser.outcome _ _ = _
      rw [List.append_assoc, List.cons_append, outcome_power]
      exact bind_eq_ok_iff.2 ⟨_, base, map_eq_ok_iff.2 ⟨_, exponent, rfl⟩⟩
  | @unsigned ts x d derives ih =>
      intro levels within rest follows
      show Parser.outcome _ _ = _
      obtain ⟨t, us, rfl, starts⟩ := derives.head
      have notSign : ∀ o, headOp? (t :: us ++ rest) = some o → o.isSum = false := by
        rintro o head
        cases t with
        | op => cases starts
        | _ => cases head
      rw [signed_eq, outcome_signed_power _ notSign]
      exact ih within follows
  | plus _ ih =>
      intro levels within rest follows
      show Parser.outcome _ _ = _
      rw [signed_eq, List.cons_append, outcome_signed_plus]
      exact nested_signed_reads ih within follows
  | minus _ ih =>
      intro levels within rest follows
      show Parser.outcome _ _ = _
      rw [signed_eq, List.cons_append, outcome_signed_minus]
      exact map_eq_ok_iff.2 ⟨_, nested_signed_reads ih within follows, rfl⟩
  | factor _ ih =>
      intro levels within rest follows z us continues
      exact reads_chain_iff.2 ⟨_, rest, ih within follows, continues⟩
  | @multiplied ts us o x y d e _ member _ ihLeft ihRight =>
      intro levels within rest follows z vs continues
      obtain ⟨withinLeft, withinRight⟩ := Nat.max_le.1 within
      have ne : o ≠ .pow := by rintro rfl; cases member
      rw [List.append_assoc, List.cons_append]
      refine ihLeft withinLeft (follows_op ne _) ((continues_op_iff member).2 ?_)
      exact ⟨y, rest, ihRight withinRight follows, continues⟩
  | term _ ih =>
      intro levels within rest follows notProduct z us continues
      refine reads_chain_iff.2 ⟨_, rest, ih within follows ?_, continues⟩
      exact (continues_stop_iff notProduct).2 ⟨rfl, rfl⟩
  | @added ts us o x y d e _ member _ ihLeft ihRight =>
      intro levels within rest follows notProduct z vs continues
      obtain ⟨withinLeft, withinRight⟩ := Nat.max_le.1 within
      have ne : o ≠ .pow := by rintro rfl; cases member
      have notProductOp : o.isProduct = false := by cases o <;> first | rfl | cases member
      have right : Reads (chain BinaryOp.isProduct (signed levels)) (us ++ rest) y rest :=
        ihRight withinRight follows ((continues_stop_iff notProduct).2 ⟨rfl, rfl⟩)
      rw [List.append_assoc, List.cons_append]
      refine ihLeft withinLeft (follows_op ne _) ?_ ((continues_op_iff member).2 ?_)
      · rintro _ ⟨⟩
        exact notProductOp
      · exact ⟨y, rest, right, continues⟩

/-! ## Whole lists of tokens -/

/-- A list of tokens is parsed as the sum that it is, if that is not nested too deeply. -/
theorem parse_eq_ok_iff {ts : List Token} {x : Tree} :
    parse ts = .ok x ↔ ∃ d ≤ maxDepth, Derives .sum ts x d := by
  rw [parse_eq, bind_eq_ok_iff]
  constructor
  · rintro ⟨⟨y, rest⟩, reads, whole⟩
    obtain ⟨us, d, rfl, derives, within⟩ := sum_sound (signed_sound maxDepth) reads
    split at whole <;> cases whole
    next eq =>
    cases eq
    exact ⟨d, within, by rwa [List.append_nil]⟩
  · rintro ⟨d, within, derives⟩
    have reads : Reads (sum (signed maxDepth)) (ts ++ []) x [] :=
      derives.completes.sum_reads within nofun rfl
    rw [List.append_nil] at reads
    exact ⟨_, reads, rfl⟩

/-- The grammar is unambiguous. -/
theorem Derives.unique {ts : List Token} {x y : Tree} {d e : Nat} (left : Derives .sum ts x d)
    (right : Derives .sum ts y e) : x = y := by
  have reads : Reads (sum (signed (max d e))) (ts ++ []) x [] :=
    left.completes.sum_reads (Nat.le_max_left d e) nofun rfl
  have reads' : Reads (sum (signed (max d e))) (ts ++ []) y [] :=
    right.completes.sum_reads (Nat.le_max_right d e) nofun rfl
  exact (Prod.mk.inj (Except.ok.inj (reads.symm.trans reads'))).1

/-! ## Texts -/

theorem tokens_eq_ok_iff {source : List Char} {ts : List Token} :
    tokens source = .ok ts ↔
      ∃ lexemes, Lexeme.scan 0 source = .ok lexemes ∧ 1 ≤ lexemes.length ∧
        lexemes.length ≤ maxTokens ∧ ts = lexemes.map Lexeme.token := by
  show Except.bind _ _ = _ ↔ _
  rw [bind_eq_ok_iff]
  refine exists_congr fun lexemes => and_congr_right fun _ => ?_
  rcases lexemes with - | ⟨l, ls⟩
  · simp
  · show (if maxTokens < (l :: ls).length then Except.error CompileError.tooLong
      else Except.ok _) = _ ↔ _
    have some : 1 ≤ (l :: ls).length := Nat.succ_le_succ (Nat.zero_le _)
    split
    · next long => exact ⟨nofun, fun ⟨_, few, _⟩ => absurd long (Nat.not_lt.2 few)⟩
    · next short =>
      exact ⟨fun eq => ⟨some, Nat.not_lt.1 short, (Except.ok.inj eq).symm⟩,
        fun ⟨_, _, eq⟩ => congrArg Except.ok eq.symm⟩

theorem compile_ok_iff {text : String} {x : Tree} :
    (∃ e, compile text = .ok e ∧ e.root = x) ↔
      ∃ ts, tokens (Text.trim text.toList) = .ok ts ∧ parse ts = .ok x := by
  show (∃ e : Expr, Except.bind _ (fun _ => Except.bind _ _) = .ok e ∧ e.root = x) ↔ _
  simp only [bind_eq_ok_iff]
  constructor
  · rintro ⟨_, ⟨ts, tokenized, root, parsed, made⟩, rfl⟩
    cases made
    exact ⟨ts, tokenized, parsed⟩
  · rintro ⟨ts, tokenized, parsed⟩
    exact ⟨_, ⟨ts, tokenized, x, parsed, rfl⟩, rfl⟩

/-- **A text compiles to a tree exactly when its tokens are a sum of the grammar that stands for
the tree**, there are neither too few nor too many of them, and none is nested too deeply.  No list
of tokens stands for two trees. -/
theorem compile_iff_derives :
    (∀ (text : String) (x : Tree),
      (∃ e, compile text = .ok e ∧ e.root = x) ↔
        ∃ lexemes, Lexeme.scan 0 (Text.trim text.toList) = .ok lexemes ∧
          1 ≤ lexemes.length ∧ lexemes.length ≤ 4096 ∧
          ∃ depth ≤ 256, Derives .sum (lexemes.map Lexeme.token) x depth) ∧
    ∀ (ts : List Token) (x y : Tree) (d e : Nat),
      Derives .sum ts x d → Derives .sum ts y e → x = y := by
  refine ⟨fun text x => ?_, fun _ _ _ _ _ left right => left.unique right⟩
  rw [compile_ok_iff]
  constructor
  · rintro ⟨ts, tokenized, parsed⟩
    obtain ⟨lexemes, scanned, some, few, rfl⟩ := tokens_eq_ok_iff.1 tokenized
    exact ⟨lexemes, scanned, some, few, parse_eq_ok_iff.1 parsed⟩
  · rintro ⟨lexemes, scanned, some, few, derived⟩
    exact ⟨_, tokens_eq_ok_iff.2 ⟨lexemes, scanned, some, few, rfl⟩, parse_eq_ok_iff.2 derived⟩

/-- A signed power whose base is a call and whose exponent has a sign of its own. -/
theorem compile_signed_power_of_call :
    ∃ e, compile "-math.pow(t,t)**-t" = .ok e ∧
      e.root = .neg (.binary .pow (.call₂ .pow .time .time) (.neg .time)) := by
  have scanned : Lexeme.scan 0 (Text.trim "-math.pow(t,t)**-t".toList) =
      .ok [.op .sub, .word "math.pow".toList, .openParen, .word ['t'], .comma, .word ['t'],
        .closeParen, .op .pow, .op .sub, .word ['t']] := by
    cbv
  have time : Derives .primary [.word "t"] .time 0 := .name .plain .time
  have args : ∀ a ∈ [Argument.mk [.word "t"] .time 0, ⟨[.word "t"], .time, 0⟩],
      Derives .sum a.tokens a.tree a.depth := by
    simpa using Derives.term (.factor (.unsigned (.base time)))
  have call : Derives .primary _ (.call₂ .pow .time .time) 1 :=
    .call (.qualified : Written Func.pow.name "math.pow") args (.two rfl)
  have whole := Derives.term (.factor (.minus (.unsigned (.raised call
    (.minus (.unsigned (.base time)))))))
  exact (compile_iff_derives.1 _ _).2 ⟨_, scanned, by decide, by decide, _, by decide, whole⟩

end Gait.Expr
