import Gait.Expr.Parser

/-!
# The grammar of expressions

`Derives phrase ts x depth` says that the tokens `ts` are a phrase of the grammar which stands for
the tree `x`.  Operators that associate to the left have left recursive rules, so the shape of the
tree is read off the rule and not off an algorithm.  `depth` is the largest number of nestings that
a token of the phrase lies under: each group, each argument list, each operand of a sign and each
exponent is one nesting.

Names are given by relations of their own, `Written` and `Denotes`, and calls by `IsCall`; the
lemmas at the end say that the tables and look-ups of the parser agree with them.
-/

namespace Gait.Expr

/-- The phrases, from the loosest binding to the tightest. -/
inductive Phrase where
  | sum | product | signed | power | primary
  deriving DecidableEq

/-- A bare name as it may be written: alone, or after one `math.`. -/
inductive Written (bare : String) : String → Prop
  | plain : Written bare bare
  | qualified : Written bare ("math." ++ bare)

/-- What a bare name stands for where it is not called. -/
inductive Denotes : String → Tree → Prop
  | time : Denotes "t" .time
  | pi : Denotes "pi" (.number Number.pi)
  | e : Denotes "e" (.number Number.e)
  | tau : Denotes "tau" (.number Number.tau)
  | inf : Denotes "inf" (.number Number.infinity)
  | nan : Denotes "nan" (.number Number.notANumber)

/-- The tree of a call, on as many arguments as the function takes. -/
inductive IsCall (f : Func) : List Tree → Tree → Prop
  | one {x : Tree} : f.arity.accepts 1 = true → IsCall f [x] (.call₁ f x)
  | two {x y : Tree} : f.arity.accepts 2 = true → IsCall f [x, y] (.call₂ f x y)

/-- One argument of a call: its tokens, its tree, and its depth. -/
structure Argument where
  tokens : List Token
  tree : Tree
  depth : Nat

namespace Argument

/-- The tokens of arguments with commas between them. -/
def joined (args : List Argument) : List Token := [.comma].intercalate (args.map (·.tokens))

/-- The largest depth of the arguments. -/
def deepest (args : List Argument) : Nat := (args.map (·.depth)).foldr max 0

@[simp] theorem joined_singleton (a : Argument) : joined [a] = a.tokens := by
  simp [joined, List.intercalate]

@[simp] theorem joined_cons_cons (a b : Argument) (args : List Argument) :
    joined (a :: b :: args) = a.tokens ++ .comma :: joined (b :: args) := by
  simp [joined, List.intercalate]

end Argument

/-- The rules of the grammar. -/
inductive Derives : Phrase → List Token → Tree → Nat → Prop
  | number (value : Float) : Derives .primary [.number value] (.number value) 0
  | name {bare name : String} {x : Tree} :
      Written bare name → Denotes bare x → Derives .primary [.word name] x 0
  | group {ts : List Token} {x : Tree} {d : Nat} :
      Derives .sum ts x d → Derives .primary (.openParen :: ts ++ [.closeParen]) x (d + 1)
  | call {f : Func} {name : String} {args : List Argument} {x : Tree} :
      Written f.name name →
      (∀ a ∈ args, Derives .sum a.tokens a.tree a.depth) →
      IsCall f (args.map (·.tree)) x →
      Derives .primary (.word name :: .openParen :: Argument.joined args ++ [.closeParen]) x
        (Argument.deepest args + 1)
  | base {ts : List Token} {x : Tree} {d : Nat} :
      Derives .primary ts x d → Derives .power ts x d
  | raised {ts us : List Token} {x y : Tree} {d e : Nat} :
      Derives .primary ts x d → Derives .signed us y e →
      Derives .power (ts ++ .op .pow :: us) (.binary .pow x y) (max d (e + 1))
  | unsigned {ts : List Token} {x : Tree} {d : Nat} :
      Derives .power ts x d → Derives .signed ts x d
  | plus {ts : List Token} {x : Tree} {d : Nat} :
      Derives .signed ts x d → Derives .signed (.op .add :: ts) x (d + 1)
  | minus {ts : List Token} {x : Tree} {d : Nat} :
      Derives .signed ts x d → Derives .signed (.op .sub :: ts) (.neg x) (d + 1)
  | factor {ts : List Token} {x : Tree} {d : Nat} :
      Derives .signed ts x d → Derives .product ts x d
  | multiplied {ts us : List Token} {o : BinaryOp} {x y : Tree} {d e : Nat} :
      Derives .product ts x d → o.isProduct = true → Derives .signed us y e →
      Derives .product (ts ++ .op o :: us) (.binary o x y) (max d e)
  | term {ts : List Token} {x : Tree} {d : Nat} :
      Derives .product ts x d → Derives .sum ts x d
  | added {ts us : List Token} {o : BinaryOp} {x y : Tree} {d e : Nat} :
      Derives .sum ts x d → o.isSum = true → Derives .product us y e →
      Derives .sum (ts ++ .op o :: us) (.binary o x y) (max d e)

/-! ## Names -/

theorem bareName_qualified (bare : String) : bareName ("math." ++ bare) = bare := by
  have qualified : ("math." ++ bare).toList = "math.".toList ++ bare.toList :=
    String.toList_append
  unfold bareName
  rw [qualified, if_pos (List.isPrefixOf_iff_prefix.2 (List.prefix_append _ _))]
  exact String.ofList_toList

theorem bareName_plain {name : String} (plain : "math.".toList.isPrefixOf name.toList = false) :
    bareName name = name := by
  unfold bareName
  exact if_neg (Bool.eq_false_iff.1 plain)

/-- A name is a written form of what remains without its prefix. -/
theorem written_bareName (name : String) : Written (bareName name) name := by
  cases qualified : "math.".toList.isPrefixOf name.toList with
  | false =>
      rw [bareName_plain qualified]
      exact .plain
  | true =>
      obtain ⟨rest, eq⟩ := List.isPrefixOf_iff_prefix.1 qualified
      have split : name = "math." ++ String.ofList rest := by
        apply String.toList_injective
        rw [String.toList_append, @String.toList_ofList rest, eq]
      rw [split, bareName_qualified]
      exact .qualified

/-- The prefix comes off any written form of a name that has none itself. -/
theorem Written.bareName_eq {bare name : String} (written : Written bare name)
    (plain : "math.".toList.isPrefixOf bare.toList = false) : bareName name = bare := by
  cases written with
  | plain => exact bareName_plain plain
  | qualified => exact bareName_qualified bare

theorem Denotes.plain {bare : String} {x : Tree} (denotes : Denotes bare x) :
    "math.".toList.isPrefixOf bare.toList = false := by
  cases denotes <;> rfl

theorem Func.name_plain (f : Func) : "math.".toList.isPrefixOf f.name.toList = false := by
  cases f <;> rfl

theorem named?_eq_some_iff {bare : String} {x : Tree} : named? bare = some x ↔ Denotes bare x := by
  constructor
  · intro h
    unfold named? constant? at h
    split at h
    · next time =>
      cases h
      rw [time]
      exact .time
    · split at h <;> cases h
      · exact .pi
      · exact .e
      · exact .tau
      · exact .inf
      · exact .nan
  · intro denotes
    cases denotes <;> rfl

theorem Func.name_of_ofName? {name : String} {f : Func} (found : Func.ofName? name = some f) :
    f.name = name := by
  simpa using List.find?_some found

/-! ## Calls -/

theorem Tree.call?_eq_some_iff {f : Func} {args : List Tree} {x : Tree} :
    Tree.call? f args = some x ↔ IsCall f args x := by
  constructor
  · intro h
    unfold Tree.call? at h
    split at h
    · split at h
      · next accepted =>
        cases h
        exact .one accepted
      · cases h
    · split at h
      · next accepted =>
        cases h
        exact .two accepted
      · cases h
    · cases h
  · intro call
    cases call with
    | one accepted => simp [Tree.call?, accepted]
    | two accepted => simp [Tree.call?, accepted]

/-! ## First tokens -/

/-- Whether a token can be the first of a phrase. -/
def Token.starts (phrase : Phrase) : Token → Bool
  | .number _ | .word _ | .openParen => true
  | .op o =>
    match phrase with
    | .primary | .power => false
    | .signed | .product | .sum => o.isSum
  | .closeParen | .comma => false

theorem Token.starts_of_power {t : Token} (starts : t.starts .power = true) (phrase : Phrase) :
    t.starts phrase = true := by
  cases t with
  | number | word | openParen => rfl
  | op | closeParen | comma => cases starts

theorem Derives.head {phrase : Phrase} {ts : List Token} {x : Tree} {d : Nat}
    (derives : Derives phrase ts x d) : ∃ t us, ts = t :: us ∧ t.starts phrase = true := by
  induction derives with
  | number | name | group | call | plus | minus => exact ⟨_, _, rfl, rfl⟩
  | base _ ih | factor _ ih | term _ ih => exact ih
  | unsigned _ ih =>
      obtain ⟨t, us, eq, starts⟩ := ih
      exact ⟨t, us, eq, Token.starts_of_power starts _⟩
  | raised _ _ ih _ | multiplied _ _ _ ih _ | added _ _ _ ih _ =>
      obtain ⟨t, us, rfl, starts⟩ := ih
      exact ⟨t, _, rfl, starts⟩

end Gait.Expr
