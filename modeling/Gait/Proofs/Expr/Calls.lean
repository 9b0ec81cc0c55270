import Gait.Proofs.Expr.Exactness

/-!
# Names and calls of compiled expressions

A compiled text names nothing but the time, the constants and the functions of the tables, and it
calls the functions and nothing else; `Derives.spells` reads this off the grammar, together with the
arguments written in each call.

`Node` is an expression tree whose calls have any number of arguments, and `Node.value?` its
evaluation with two slots for the arguments, which gives nothing where a function has no value on as
many arguments as it is passed.  `compile_calls_within_arity` says that this never happens to the
tree of a compiled text, that the slots hold all arguments, and that the value is that of the
expression.
-/

namespace Gait.Expr

/-! ## Functions -/

/-- A function has a value on just as many arguments as it takes. -/
theorem Func.value?_isSome_iff {f : Func} {args : List Float} :
    (f.value? args).isSome = true ↔ f.arity.accepts args.length = true := by
  rcases args with - | ⟨x, - | ⟨y, - | ⟨z, args⟩⟩⟩ <;> cases f <;>
    simp [value?, arity, Arity.accepts]

/-! ## Argument lists -/

/-- A tree whose calls have any number of arguments. -/
inductive Node where
  | number (value : Float)
  | time
  | neg (x : Node)
  | binary (o : BinaryOp) (x y : Node)
  | call (f : Func) (args : List Node)

/-- What a function is passed: two slots are filled from the front, and of these as many are passed
as there are arguments. -/
def passed (values : List Float) : List Float :=
  ((values ++ [0, 0]).take 2).take (min values.length 2)

/-- Two slots hold all of at most two arguments. -/
theorem passed_eq_self_iff {values : List Float} : passed values = values ↔ values.length ≤ 2 := by
  constructor
  · intro all
    rw [← all, passed, List.take_take]
    exact (List.length_take_le _ _).trans (by omega)
  · intro few
    rw [passed, Nat.min_eq_left few, List.take_take, Nat.min_eq_left few, List.take_left]

namespace Node

mutual

/-- All calls of a tree, each with its arguments. -/
def calls : Node → List (Func × List Node)
  | number _ | time => []
  | neg x => x.calls
  | binary _ x y => x.calls ++ y.calls
  | call f args => (f, args) :: callsOfAll args

/-- The calls in a list of nodes, in their order. -/
def callsOfAll : List Node → List (Func × List Node)
  | [] => []
  | x :: xs => x.calls ++ callsOfAll xs

end

mutual

/-- The value at time `t`: none if a function is passed a number of arguments it does not take. -/
def value? (t : Float) : Node → Option Float
  | number value => some value
  | time => some t
  | neg x => do return -(← x.value? t)
  | binary o x y => do return o.apply (← x.value? t) (← y.value? t)
  | call f args => do f.value? (passed (← values? t args))

/-- The values of a list of nodes, if all of them have one. -/
def values? (t : Float) : List Node → Option (List Float)
  | [] => some []
  | x :: xs => do return (← x.value? t) :: (← values? t xs)

end

variable {f : Func} {args : List Node}

theorem callsOfAll_eq (xs : List Node) : callsOfAll xs = xs.flatMap calls := by
  induction xs with
  | nil => rfl
  | cons x xs ih => rw [callsOfAll, ih, List.flatMap_cons]

@[simp] theorem calls_call : (call f args).calls = (f, args) :: args.flatMap calls := by
  rw [calls, callsOfAll_eq]

/-- Every call has as many arguments as its function takes. -/
def Fits (x : Node) : Prop := ∀ f args, (f, args) ∈ x.calls → f.arity.accepts args.length = true

theorem fits_binary_iff {o : BinaryOp} {x y : Node} : (binary o x y).Fits ↔ x.Fits ∧ y.Fits := by
  simp only [Fits, calls, List.mem_append, or_imp, forall_and]

theorem fits_call_iff : (call f args).Fits ↔
    f.arity.accepts args.length = true ∧ ∀ x ∈ args, x.Fits := by
  simp only [Fits, calls_call, List.mem_cons, List.mem_flatMap, Prod.mk.injEq]
  grind

end Node

/-- The same tree, with the arguments of each call in a list. -/
def Tree.node : Tree → Node
  | number value => .number value
  | time => .time
  | neg x => .neg x.node
  | binary o x y => .binary o x.node y.node
  | call₁ f x => .call f [x.node]
  | call₂ f x y => .call f [x.node, y.node]

theorem IsCall.node {f : Func} {args : List Tree} {x : Tree} (call : IsCall f args x) :
    x.node = .call f (args.map Tree.node) := by
  cases call with
  | one | two => rfl

theorem IsCall.accepts {f : Func} {args : List Tree} {x : Tree} (call : IsCall f args x) :
    f.arity.accepts args.length = true := by
  cases call with
  | one accepted | two accepted => exact accepted

/-! ## Words -/

/-- What a word may be, with the tokens `behind` it, where the whole text stands for `x`: a value
that is not called, or a function with its arguments in parentheses. -/
inductive Names (x : Node) (name : String) (behind : List Token) : Prop
  | value {bare : String} {y : Tree} (written : Written bare name) (denotes : Denotes bare y)
    (uncalled : behind.head? ≠ some .openParen)
  | call {f : Func} {args : List Argument} {after : List Token} (written : Written f.name name)
    (parts : behind = .openParen :: (Argument.joined args ++ .closeParen :: after))
    (derived : ∀ a ∈ args, Derives .sum a.tokens a.tree a.depth)
    (inside : (f, args.map (·.tree.node)) ∈ x.calls)

/-- Every word of a text is such a name. -/
def Spells (x : Node) (ts : List Token) : Prop :=
  ∀ front name behind, ts = front ++ .word name :: behind → Names x name behind

section Words

variable {x y : Node} {ts us : List Token} {t : Token}

theorem Spells.mono (spells : Spells x ts) (more : x.calls ⊆ y.calls) : Spells y ts := by
  intro front name behind split
  cases spells front name behind split with
  | value written denotes uncalled => exact .value written denotes uncalled
  | call written parts derived inside => exact .call written parts derived (more inside)

theorem Spells.nil : Spells x [] := by
  intro front name behind split
  simp at split

theorem Spells.cons (spells : Spells x ts) (first : ∀ name, t = .word name → Names x name ts) :
    Spells x (t :: ts) := by
  intro front name behind split
  rcases front with - | ⟨u, front⟩
  · obtain ⟨rfl, rfl⟩ := List.cons.inj split
    exact first name rfl
  · exact spells front name behind (List.cons.inj split).2

/-- Words keep their meaning in front of anything but an opening parenthesis. -/
theorem Spells.append (left : Spells x ts) (right : Spells x us)
    (between : us.head? ≠ some .openParen) : Spells x (ts ++ us) := by
  intro front name behind split
  rcases List.append_eq_append_iff.1 split with ⟨further, rfl, same⟩ | ⟨further, rfl, same⟩
  · exact right further name behind same
  · rcases further with - | ⟨t, further⟩
    · exact right [] name behind same.symm
    · rw [List.cons_append, List.cons.injEq] at same
      obtain ⟨rfl, rfl⟩ := same
      cases left front name further rfl with
      | value written denotes uncalled =>
          refine .value written denotes ?_
          rcases further with - | ⟨t, further⟩
          · exact between
          · exact uncalled
      | @call f args after written parts derived inside =>
          have further' : further ++ us =
              .openParen :: (Argument.joined args ++ .closeParen :: (after ++ us)) := by
            rw [parts, List.cons_append, List.append_assoc, List.cons_append]
          exact .call written further' derived inside

theorem spells_joined {args : List Argument} (each : ∀ a ∈ args, Spells x a.tokens) :
    Spells x (Argument.joined args) := by
  induction args with
  | nil => exact .nil
  | cons a args ih =>
      obtain ⟨first, later⟩ := List.forall_mem_cons.1 each
      rcases args with - | ⟨b, args⟩
      · rwa [Argument.joined_singleton]
      · rw [Argument.joined_cons_cons]
        exact first.append ((ih later).cons nofun) nofun

/-- Words of operands keep their meaning. -/
theorem Spells.binary {o : BinaryOp} (left : Spells x ts) (right : Spells y us) :
    Spells (.binary o x y) (ts ++ .op o :: us) := by
  have left' : Spells (.binary o x y) ts := left.mono (List.subset_append_left _ _)
  have right' : Spells (.binary o x y) us := right.mono (List.subset_append_right _ _)
  exact left'.append (right'.cons nofun) nofun

end Words

/-! ## Phrases -/

/-- Every word of a phrase names something, and the calls of its tree are those written in it. -/
theorem Derives.spells {phrase : Phrase} {ts : List Token} {x : Tree} {d : Nat}
    (derives : Derives phrase ts x d) : Spells x.node ts := by
  induction derives with
  | number value => exact .cons .nil nofun
  | name written denotes =>
      refine .cons .nil fun name same => ?_
      cases same
      exact .value written denotes nofun
  | group _ ih => exact .cons (.append ih (.cons .nil nofun) nofun) nofun
  | @call f name args x written derived call ih =>
      have root : x.node = .call f (args.map (·.tree.node)) := by
        rw [call.node, List.map_map]
        rfl
      have each : ∀ a ∈ args, Spells x.node a.tokens := by
        intro a member
        refine (ih a member).mono ?_
        rw [root, Node.calls_call]
        refine List.subset_cons_of_subset _ fun call inside => ?_
        exact List.mem_flatMap.2 ⟨_, List.mem_map_of_mem member, inside⟩
      refine .cons (.cons (.append (spells_joined each) (.cons .nil nofun) nofun) nofun) ?_
      intro name' same
      cases same
      refine .call written rfl derived ?_
      rw [root, Node.calls_call]
      exact List.mem_cons_self
  | base _ ih | unsigned _ ih | factor _ ih | term _ ih => exact ih
  | plus _ ih => exact .cons ih nofun
  | minus _ ih => exact .cons (ih.mono (List.Subset.refl _)) nofun
  | raised _ _ ihx ihy | multiplied _ _ _ ihx ihy | added _ _ _ ihx ihy =>
      exact ihx.binary ihy

/-- Every call of the tree of a phrase has as many arguments as its function takes. -/
theorem Derives.fits {phrase : Phrase} {ts : List Token} {x : Tree} {d : Nat}
    (derives : Derives phrase ts x d) : x.node.Fits := by
  induction derives with
  | number => exact nofun
  | name _ denotes => cases denotes <;> exact nofun
  | @call f name args x _ _ call ih =>
      rw [call.node, Node.fits_call_iff, List.length_map]
      refine ⟨call.accepts, List.forall_mem_map.2 (List.forall_mem_map.2 ih)⟩
  | group _ ih | base _ ih | unsigned _ ih | factor _ ih | term _ ih | plus _ ih | minus _ ih =>
      exact ih
  | raised _ _ ihx ihy | multiplied _ _ _ ihx ihy | added _ _ _ ihx ihy =>
      exact Node.fits_binary_iff.2 ⟨ihx, ihy⟩

/-! ## Values -/

theorem Arity.le_two_of_accepts {a : Arity} {n : Nat} (accepted : a.accepts n = true) : n ≤ 2 := by
  cases a <;> simp [accepts] at accepted <;> omega

/-- A function has a value on arguments it takes, and no argument is left out. -/
theorem Func.value?_passed {f : Func} {values : List Float}
    (accepted : f.arity.accepts values.length = true) :
    f.value? (passed values) = some (f.apply values) := by
  obtain ⟨value, taken⟩ := Option.isSome_iff_exists.1 (Func.value?_isSome_iff.2 accepted)
  rw [passed_eq_self_iff.2 (Arity.le_two_of_accepts accepted), Func.apply, taken,
    Option.getD_some]

/-- A tree whose calls fit has its value. -/
theorem Tree.value?_node {x : Tree} (fits : x.node.Fits) (t : Float) :
    x.node.value? t = some (x.eval t) := by
  induction x with
  | number | time => rfl
  | neg x ih =>
      rw [node, Node.value?, ih fits]
      rfl
  | binary o x y ihx ihy =>
      obtain ⟨left, right⟩ := Node.fits_binary_iff.1 fits
      rw [node, Node.value?, ihx left, ihy right]
      rfl
  | call₁ f x ih =>
      obtain ⟨accepted, inside⟩ := Node.fits_call_iff.1 fits
      have value := ih (inside _ List.mem_cons_self)
      have values : Node.values? t [x.node] = some [x.eval t] := by
        rw [Node.values?, value]
        rfl
      rw [node, Node.value?, values]
      exact Func.value?_passed accepted
  | call₂ f x y ihx ihy =>
      obtain ⟨accepted, inside⟩ := Node.fits_call_iff.1 fits
      obtain ⟨left, inside⟩ := List.forall_mem_cons.1 inside
      have right := inside _ List.mem_cons_self
      have values : Node.values? t [x.node, y.node] = some [x.eval t, y.eval t] := by
        rw [Node.values?, ihx left, Node.values?, ihy right]
        rfl
      rw [node, Node.value?, values]
      exact Func.value?_passed accepted

/-! ## Compiled texts -/

/-- The tokens of a compiled text are a sum that stands for its tree. -/
theorem derives_of_compile {text : String} {e : Expr} (compiled : compile text = .ok e) :
    ∃ lexemes d, Lexeme.scan 0 (Text.trim text.toList) = .ok lexemes ∧
      Derives .sum (lexemes.map Lexeme.token) e.root d := by
  obtain ⟨ts, tokenized, parsed⟩ := compile_ok_iff.1 ⟨e, compiled, rfl⟩
  obtain ⟨lexemes, scanned, -, -, rfl⟩ := tokens_eq_ok_iff.1 tokenized
  obtain ⟨d, -, derives⟩ := parse_eq_ok_iff.1 parsed
  exact ⟨lexemes, d, scanned, derives⟩

/-- The names of values. -/
theorem Denotes.mem {bare : String} {x : Tree} (denotes : Denotes bare x) :
    bare ∈ ["t", "pi", "e", "tau", "inf", "nan"] := by
  cases denotes <;> decide

/-- Every name in a compiled text is, without one leading `math.`, a value that is not called or a
function that is, and the call of the function has all the arguments written there.  Every call has
as many arguments as its function takes.  So at every time the two slots hold all arguments, and
every function has a value on them. -/
theorem compile_calls_within_arity {text : String} {e : Expr} (compiled : compile text = .ok e) :
    ∃ lexemes, Lexeme.scan 0 (Text.trim text.toList) = .ok lexemes ∧
      (∀ front name behind,
        lexemes.map Lexeme.token = front ++ .word name :: behind →
          (bareName name ∈ ["t", "pi", "e", "tau", "inf", "nan"] ∧
              behind.head? ≠ some .openParen) ∨
            ∃ f args after, bareName name = Func.name f ∧
              behind = .openParen :: (Argument.joined args ++ .closeParen :: after) ∧
              (∀ a ∈ args, Derives .sum a.tokens a.tree a.depth) ∧
              (f, args.map (·.tree.node)) ∈ e.root.node.calls) ∧
      (∀ f args, (f, args) ∈ e.root.node.calls →
        f.arity.accepts args.length = true ∧
          ∀ values : List Float, values.length = args.length → passed values = values) ∧
      ∀ t, e.root.node.value? t = some (e.eval t) := by
  obtain ⟨lexemes, d, scanned, derives⟩ := derives_of_compile compiled
  refine ⟨lexemes, scanned, fun front name behind split => ?_, fun f args inside => ?_,
    Tree.value?_node derives.fits⟩
  · cases derives.spells front name behind split with
    | value written denotes uncalled =>
        refine .inl ⟨?_, uncalled⟩
        rw [written.bareName_eq denotes.plain]
        exact denotes.mem
    | @call f args after written parts derived inside =>
        exact .inr ⟨f, args, after, written.bareName_eq f.name_plain, parts, derived, inside⟩
  · have accepted := derives.fits f args inside
    refine ⟨accepted, fun values same => passed_eq_self_iff.2 ?_⟩
    rw [same]
    exact Arity.le_two_of_accepts accepted

/-- A call with two arguments, which are both passed, behind a prefix that is taken off. -/
theorem compile_call_of_log : ∃ e, compile "math.log(t,e)" = .ok e ∧
    (∀ f args, (f, args) ∈ e.root.node.calls →
      f.arity.accepts args.length = true ∧
        ∀ values : List Float, values.length = args.length → passed values = values) ∧
    ∀ t, e.root.node.value? t = some (e.eval t) := by
  have scanned : Lexeme.scan 0 (Text.trim "math.log(t,e)".toList) =
      .ok [.word "math.log".toList, .openParen, .word ['t'], .comma, .word ['e'],
        .closeParen] := by
    cbv
  have value {bare : String} {x : Tree} (denotes : Denotes bare x) :
      Derives .sum [.word bare] x 0 :=
    .term (.factor (.unsigned (.base (.name .plain denotes))))
  have args : ∀ a ∈ [Argument.mk [.word "t"] .time 0, ⟨[.word "e"], .number Number.e, 0⟩],
      Derives .sum a.tokens a.tree a.depth := by
    simpa using ⟨value .time, value .e⟩
  have call : Derives .primary _ (.call₂ .log .time (.number Number.e)) 1 :=
    .call (.qualified : Written Func.log.name "math.log") args (.two rfl)
  have parsed := parse_eq_ok_iff.2 ⟨1, by decide, .term (.factor (.unsigned (.base call)))⟩
  obtain ⟨e, compiled, -⟩ := compile_ok_iff.2
    ⟨_, tokens_eq_ok_iff.2 ⟨_, scanned, by decide, by decide, rfl⟩, parsed⟩
  obtain ⟨-, -, -, within, all⟩ := compile_calls_within_arity compiled
  exact ⟨e, compiled, within, all⟩

end Gait.Expr
