import Gait.Proofs.Expr.Exactness

/-!
# Writing expression trees

`Tree.written` writes a tree as a phrase of the grammar, with parentheses only where an operand binds
more loosely than its place admits, and `Tree.nesting` is the depth that this takes.  By
`Tree.derives_written` the tokens are a phrase for just this tree, so that reading them gives the
tree back; `Derives.parentheses_le` says that no phrase for the tree has fewer parentheses.
-/

namespace Gait.Expr

/-! ## Places -/

namespace Phrase

/-- How loosely a phrase binds. -/
def looseness : Phrase → Nat
  | primary => 0
  | power => 1
  | signed => 2
  | product => 3
  | sum => 4

/-- The next looser phrase. -/
def next : Phrase → Phrase
  | primary => power
  | power => signed
  | signed => product
  | product | sum => sum

theorem looseness_le (phrase : Phrase) : phrase.looseness ≤ sum.looseness := by
  cases phrase <;> decide

theorem looseness_next {phrase : Phrase} (below : phrase ≠ sum) :
    phrase.next.looseness = phrase.looseness + 1 := by
  cases phrase with
  | sum => exact absurd rfl below
  | _ => rfl

theorem eq_of_looseness {place phrase : Phrase} (same : place.looseness = phrase.looseness) :
    place = phrase := by
  cases place <;> cases phrase <;> first | rfl | cases same

end Phrase

namespace BinaryOp

/-- The phrase that an operator makes. -/
def phrase : BinaryOp → Phrase
  | pow => .power
  | mul | div | floorDiv | mod => .product
  | add | sub => .sum

/-- The phrases that may stand left of an operator. -/
def leftPhrase : BinaryOp → Phrase
  | pow => .primary
  | mul | div | floorDiv | mod => .product
  | add | sub => .sum

/-- The phrases that may stand right of an operator. -/
def rightPhrase : BinaryOp → Phrase
  | pow | mul | div | floorDiv | mod => .signed
  | add | sub => .product

/-- How much deeper the right operand is nested. -/
def descent : BinaryOp → Nat
  | pow => 1
  | _ => 0

end BinaryOp

/-- A phrase at a place for another one, in parentheses if it binds too loosely. -/
def enclose (place phrase : Phrase) (ts : List Token) : List Token :=
  if phrase.looseness ≤ place.looseness then ts else .openParen :: ts ++ [.closeParen]

/-- The depth of a phrase at a place for another one. -/
def encloseDepth (place phrase : Phrase) (depth : Nat) : Nat :=
  if phrase.looseness ≤ place.looseness then depth else depth + 1

/-! ## Trees -/

namespace Tree

/-- Every call has as many arguments as its function takes. -/
def Admissible : Tree → Prop
  | number _ | time => True
  | neg x => x.Admissible
  | binary _ x y => x.Admissible ∧ y.Admissible
  | call₁ f x => f.arity.accepts 1 = true ∧ x.Admissible
  | call₂ f x y => f.arity.accepts 2 = true ∧ x.Admissible ∧ y.Admissible

/-- The tokens of a tree at a place, with the fewest parentheses. -/
def written : Tree → Phrase → List Token
  | number value, _ => [.number value]
  | time, _ => [.word "t"]
  | neg x, place => enclose place .signed (.op .sub :: x.written .signed)
  | binary o x y, place =>
    enclose place o.phrase (x.written o.leftPhrase ++ .op o :: y.written o.rightPhrase)
  | call₁ f x, _ => .word f.name :: .openParen :: x.written .sum ++ [.closeParen]
  | call₂ f x y, _ =>
    .word f.name :: .openParen :: (x.written .sum ++ .comma :: y.written .sum) ++ [.closeParen]

/-- The largest number of nestings that a token of the written tree lies under. -/
def nesting : Tree → Phrase → Nat
  | number _, _ | time, _ => 0
  | neg x, place => encloseDepth place .signed (x.nesting .signed + 1)
  | binary o x y, place =>
    encloseDepth place o.phrase
      (max (x.nesting o.leftPhrase) (y.nesting o.rightPhrase + o.descent))
  | call₁ _ x, _ => x.nesting .sum + 1
  | call₂ _ x y, _ => max (x.nesting .sum) (y.nesting .sum) + 1

end Tree

/-! ## Written trees are phrases -/

section Derives

variable {ts us : List Token} {x y : Tree} {d e : Nat}

theorem Derives.next {phrase : Phrase} (derives : Derives phrase ts x d) :
    Derives phrase.next ts x d := by
  cases phrase with
  | primary => exact .base derives
  | power => exact .unsigned derives
  | signed => exact .factor derives
  | product => exact .term derives
  | sum => exact derives

/-- A phrase is one of every looser kind. -/
theorem Derives.loosen {phrase place : Phrase} (derives : Derives phrase ts x d)
    (looser : phrase.looseness ≤ place.looseness) : Derives place ts x d := by
  obtain ⟨k, more⟩ := Nat.exists_eq_add_of_le looser
  induction k generalizing phrase with
  | zero =>
      rw [Phrase.eq_of_looseness more]
      exact derives
  | succ k ih =>
      have below : phrase ≠ .sum := by
        rintro rfl
        have bound := place.looseness_le
        omega
      have next := Phrase.looseness_next below
      exact ih derives.next (by omega) (by omega)

theorem Derives.enclosed {phrase : Phrase} (derives : Derives phrase ts x d) (place : Phrase) :
    Derives place (enclose place phrase ts) x (encloseDepth place phrase d) := by
  unfold enclose encloseDepth
  split
  · next looser => exact derives.loosen looser
  · have whole : Derives .sum ts x d := derives.loosen phrase.looseness_le
    exact (Derives.group whole).loosen (Nat.zero_le _)

theorem Derives.applied (o : BinaryOp) (left : Derives o.leftPhrase ts x d)
    (right : Derives o.rightPhrase us y e) :
    Derives o.phrase (ts ++ .op o :: us) (.binary o x y) (max d (e + o.descent)) := by
  cases o with
  | pow => exact .raised left right
  | mul | div | floorDiv | mod => exact .multiplied left rfl right
  | add | sub => exact .added left rfl right

theorem Tree.derives_written (admissible : x.Admissible) (place : Phrase) :
    Derives place (x.written place) x (x.nesting place) := by
  induction x generalizing place with
  | number value => exact (Derives.number value).loosen (Nat.zero_le _)
  | time => exact (Derives.name .plain .time).loosen (Nat.zero_le _)
  | neg x ih => exact (Derives.minus (ih admissible .signed)).enclosed place
  | binary o x y left right =>
      exact (Derives.applied o (left admissible.1 _) (right admissible.2 _)).enclosed place
  | call₁ f x ih =>
      have arg : ∀ a ∈ [Argument.mk (x.written .sum) x (x.nesting .sum)],
          Derives .sum a.tokens a.tree a.depth := by
        simpa using ih admissible.2 .sum
      have call := Derives.call (.plain : Written f.name f.name) arg (.one admissible.1)
      have whole : Derives place _ _ _ := call.loosen (Nat.zero_le _)
      simpa [Argument.deepest, written, nesting] using whole
  | call₂ f x y first second =>
      have args : ∀ a ∈ [Argument.mk (x.written .sum) x (x.nesting .sum),
          ⟨y.written .sum, y, y.nesting .sum⟩], Derives .sum a.tokens a.tree a.depth := by
        simpa using ⟨first admissible.2.1 .sum, second admissible.2.2 .sum⟩
      have call := Derives.call (.plain : Written f.name f.name) args (.two admissible.1)
      have whole : Derives place _ _ _ := call.loosen (Nat.zero_le _)
      simpa [Argument.deepest, written, nesting] using whole

end Derives

/-! ## No phrase has fewer parentheses -/

/-- Whether a token is an opening parenthesis. -/
def Token.opens : Token → Bool
  | .openParen => true
  | _ => false

/-- The number of pairs of parentheses. -/
def parentheses (ts : List Token) : Nat := ts.countP Token.opens

@[simp] theorem parentheses_append (ts us : List Token) :
    parentheses (ts ++ us) = parentheses ts + parentheses us :=
  List.countP_append

@[simp] theorem parentheses_cons (t : Token) (ts : List Token) :
    parentheses (t :: ts) = parentheses ts + if t.opens then 1 else 0 :=
  List.countP_cons

@[simp] theorem parentheses_nil : parentheses [] = 0 := rfl

theorem parentheses_enclose (place phrase : Phrase) (ts : List Token) :
    parentheses (enclose place phrase ts) =
      parentheses ts + if phrase.looseness ≤ place.looseness then 0 else 1 := by
  unfold enclose
  split <;> simp [Token.opens]

/-- A place for looser phrases takes no more parentheses. -/
theorem Tree.parentheses_written_anti (x : Tree) {place looser : Phrase}
    (loose : place.looseness ≤ looser.looseness) :
    parentheses (x.written looser) ≤ parentheses (x.written place) := by
  cases x with
  | number | time | call₁ | call₂ => exact Nat.le_refl _
  | neg | binary =>
      unfold written
      rw [parentheses_enclose, parentheses_enclose]
      split <;> split <;> omega

/-- One pair of parentheses makes up for any place. -/
theorem Tree.parentheses_written_le (x : Tree) (place other : Phrase) :
    parentheses (x.written place) ≤ parentheses (x.written other) + 1 := by
  cases x with
  | number | time | call₁ | call₂ => exact Nat.le_succ _
  | neg | binary =>
      unfold written
      rw [parentheses_enclose, parentheses_enclose]
      split <;> omega

theorem Tree.parentheses_written_binary (o : BinaryOp) (x y : Tree) :
    parentheses ((binary o x y).written o.phrase) =
      parentheses (x.written o.leftPhrase) + parentheses (y.written o.rightPhrase) := by
  rw [written, parentheses_enclose, if_pos (Nat.le_refl _)]
  simp [Token.opens]

theorem Tree.parentheses_written_binary_le (o : BinaryOp) {x y : Tree} {ts us : List Token}
    (left : parentheses (x.written o.leftPhrase) ≤ parentheses ts)
    (right : parentheses (y.written o.rightPhrase) ≤ parentheses us) :
    parentheses ((binary o x y).written o.phrase) ≤ parentheses (ts ++ .op o :: us) := by
  rw [parentheses_written_binary, parentheses_append, parentheses_cons]
  exact Nat.add_le_add left right

/-- A phrase has at least the parentheses that its tree is written with. -/
theorem Derives.parentheses_le {phrase : Phrase} {ts : List Token} {x : Tree} {d : Nat}
    (derives : Derives phrase ts x d) : parentheses (x.written phrase) ≤ parentheses ts := by
  induction derives with
  | number value => exact Nat.le_refl _
  | name written denotes => cases denotes <;> exact Nat.zero_le _
  | @group ts x d _ ih =>
      have whole : parentheses (.openParen :: ts ++ [.closeParen]) = parentheses ts + 1 := by
        simp [Token.opens]
      rw [whole]
      exact Nat.le_trans (x.parentheses_written_le .primary .sum) (Nat.succ_le_succ ih)
  | @call f name args x _ _ call ih =>
      generalize trees : args.map (·.tree) = xs at call
      cases call with
      | one =>
          obtain ⟨a, rfl, rfl⟩ := List.map_eq_singleton_iff.1 trees
          have arg := ih a (by simp)
          simpa [Tree.written, Token.opens] using arg
      | two =>
          obtain ⟨a, args, rfl, rfl, more⟩ := List.map_eq_cons_iff.1 trees
          obtain ⟨b, rfl, rfl⟩ := List.map_eq_singleton_iff.1 more
          have first := ih a (by simp)
          have second := ih b (by simp)
          simp [Tree.written, Token.opens]
          omega
  | @base ts x d _ ih | @unsigned ts x d _ ih | @factor ts x d _ ih | @term ts x d _ ih =>
      exact Nat.le_trans (x.parentheses_written_anti (by decide)) ih
  | raised _ _ left right => exact Tree.parentheses_written_binary_le .pow left right
  | plus _ ih => exact ih
  | minus _ ih => exact ih
  | @multiplied ts us o x y d e _ product _ left right =>
      cases o with
      | mul | div | floorDiv | mod => exact Tree.parentheses_written_binary_le _ left right
      | _ => cases product
  | @added ts us o x y d e _ sum _ left right =>
      cases o with
      | add | sub => exact Tree.parentheses_written_binary_le _ left right
      | _ => cases sum

/-! ## Reading what was written -/

/-- Writing a tree and reading it gives the tree back.  A tree whose calls are admissible is written
as a sum of the grammar, and parsing takes all tokens of it and gives just the tree, if nothing is
nested more than 256 deep; so every text with these tokens compiles to the tree, if there are no
more than 4096.  No other way to write the tree has fewer parentheses. -/
theorem parse_written :
    (∀ x : Tree, x.Admissible →
      Derives .sum (x.written .sum) x (x.nesting .sum) ∧
      (x.nesting .sum ≤ 256 →
        parse (x.written .sum) = .ok x ∧
        ∀ (text : String) (lexemes : List Lexeme),
          Lexeme.scan 0 (Text.trim text.toList) = .ok lexemes →
          lexemes.map Lexeme.token = x.written .sum → (x.written .sum).length ≤ 4096 →
            ∃ e, compile text = .ok e ∧ e.root = x)) ∧
    ∀ (ts : List Token) (x : Tree) (d : Nat), Derives .sum ts x d →
      parentheses (x.written .sum) ≤ parentheses ts := by
  refine ⟨fun x admissible => ⟨x.derives_written admissible .sum, fun within => ?_⟩,
    fun _ _ _ derives => derives.parentheses_le⟩
  have derives := x.derives_written admissible .sum
  have parsed : parse (x.written .sum) = .ok x := parse_eq_ok_iff.2 ⟨_, within, derives⟩
  refine ⟨parsed, fun text lexemes scanned same few => ?_⟩
  have some : 1 ≤ (x.written .sum).length := by
    obtain ⟨t, us, eq, -⟩ := derives.head
    rw [eq]
    exact Nat.succ_le_succ (Nat.zero_le _)
  have length : lexemes.length = (x.written .sum).length := by
    rw [← same, List.length_map]
  have tokenized := tokens_eq_ok_iff.2
    ⟨lexemes, scanned, by omega, Nat.le_trans (Nat.le_of_eq length) few, same.symm⟩
  exact compile_ok_iff.2 ⟨_, tokenized, parsed⟩

/-- Signs, powers and differences that need parentheses at some places and none at others. -/
theorem parse_written_power_of_difference :
    let base : Tree := .neg .time
    let exponent : Tree := .neg (.binary .mul .time .time)
    let difference : Tree := .binary .sub .time (.binary .sub .time (.neg .time))
    let x : Tree := .binary .mod (.neg (.binary .pow base exponent)) (.call₂ .pow .time difference)
    let ts : List Token :=
      [.op .sub, .openParen, .op .sub, .word "t", .closeParen, .op .pow, .op .sub, .openParen,
        .word "t", .op .mul, .word "t", .closeParen, .op .mod, .word "pow", .openParen, .word "t",
        .comma, .word "t", .op .sub, .openParen, .word "t", .op .sub, .op .sub, .word "t",
        .closeParen, .closeParen]
    x.Admissible ∧ x.nesting .sum ≤ 256 ∧ x.written .sum = ts ∧ parse ts = .ok x ∧
      (∃ e, compile "-(-t)**-(t*t) % pow(t, t-(t - -t))" = .ok e ∧ e.root = x) ∧
      Derives .sum ts x 4 ∧ Derives .sum (.openParen :: ts ++ [.closeParen]) x 5 ∧
      parentheses (x.written .sum) ≤ parentheses (.openParen :: ts ++ [.closeParen]) := by
  intro base exponent difference x ts
  have admissible : x.Admissible := by simp [x, base, exponent, difference, Tree.Admissible]; decide
  have within : x.nesting .sum ≤ 256 := by decide
  have written : x.written .sum = ts := rfl
  have scanned : Lexeme.scan 0 (Text.trim "-(-t)**-(t*t) % pow(t, t-(t - -t))".toList) =
      .ok [.op .sub, .openParen, .op .sub, .word ['t'], .closeParen, .op .pow, .op .sub, .openParen,
        .word ['t'], .op .mul, .word ['t'], .closeParen, .op .mod, .word ['p', 'o', 'w'], .openParen,
        .word ['t'], .comma, .word ['t'], .op .sub, .openParen, .word ['t'], .op .sub, .op .sub,
        .word ['t'], .closeParen, .closeParen] := by
    cbv
  obtain ⟨derives, reads⟩ := parse_written.1 x admissible
  obtain ⟨parsed, compiles⟩ := reads within
  have compiled := compiles _ _ scanned rfl (by decide)
  have grouped : Derives .sum _ _ _ := (Derives.group derives).loosen (Nat.zero_le _)
  have fewest := parse_written.2 _ x 5 grouped
  exact ⟨admissible, within, written, parsed, compiled, derives, grouped, fewest⟩

end Gait.Expr
