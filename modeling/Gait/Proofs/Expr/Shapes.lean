import Gait.Proofs.Expr.Grammar

/-!
# The shape of expressions

`Shape phrase ts levels` says that the tokens `ts` are a phrase of the grammar with at most `levels`
nestings, if it does not count how many arguments a function takes.

Whether tokens go together can be told from left to right.  A `Place` is what has to come next and
which parentheses are open; `Place.read` is the place behind one more token, if it may come there.
`Shape.readAll` says that an expression can be read to its end in this way, so tokens that cannot be
read begin no expression.
-/

namespace Gait.Expr

/-- The rules of the grammar, without the numbers of arguments. -/
inductive Shape : Phrase → List Token → Nat → Prop
  | number (value : Float) {levels : Nat} : Shape .primary [.number value] levels
  | name {bare name : String} {x : Tree} {levels : Nat} :
      Written bare name → Denotes bare x → Shape .primary [.word name] levels
  | group {ts : List Token} {levels : Nat} :
      Shape .sum ts levels → Shape .primary (.openParen :: (ts ++ [.closeParen])) (levels + 1)
  | call {f : Func} {name : String} {args : List (List Token)} {levels : Nat} :
      Written f.name name → (∀ ts ∈ args, Shape .sum ts levels) →
      Shape .primary (.word name :: .openParen :: ([.comma].intercalate args ++ [.closeParen]))
        (levels + 1)
  | base {ts : List Token} {levels : Nat} : Shape .primary ts levels → Shape .power ts levels
  | raised {ts us : List Token} {levels : Nat} :
      Shape .primary ts (levels + 1) → Shape .signed us levels →
      Shape .power (ts ++ .op .pow :: us) (levels + 1)
  | unsigned {ts : List Token} {levels : Nat} : Shape .power ts levels → Shape .signed ts levels
  | sign {o : BinaryOp} {ts : List Token} {levels : Nat} :
      o.isSum = true → Shape .signed ts levels → Shape .signed (.op o :: ts) (levels + 1)
  | factor {ts : List Token} {levels : Nat} : Shape .signed ts levels → Shape .product ts levels
  | multiplied {ts us : List Token} {o : BinaryOp} {levels : Nat} :
      Shape .product ts levels → o.isProduct = true → Shape .signed us levels →
      Shape .product (ts ++ .op o :: us) levels
  | term {ts : List Token} {levels : Nat} : Shape .product ts levels → Shape .sum ts levels
  | added {ts us : List Token} {o : BinaryOp} {levels : Nat} :
      Shape .sum ts levels → o.isSum = true → Shape .product us levels →
      Shape .sum (ts ++ .op o :: us) levels

theorem Argument.depth_le_deepest {args : List Argument} {a : Argument} (member : a ∈ args) :
    a.depth ≤ deepest args := by
  induction args with
  | nil => cases member
  | cons b args ih =>
      rcases List.mem_cons.1 member with rfl | later
      · exact Nat.le_max_left _ _
      · exact Nat.le_trans (ih later) (Nat.le_max_right _ _)

/-- What is derived has its shape. -/
theorem Derives.shape {phrase : Phrase} {ts : List Token} {x : Tree} {d levels : Nat}
    (derives : Derives phrase ts x d) (within : d ≤ levels) : Shape phrase ts levels := by
  induction derives generalizing levels with
  | number value => exact .number value
  | name written denotes => exact .name written denotes
  | group _ ih =>
      cases levels with
      | zero => cases within
      | succ below => exact .group (ih (Nat.le_of_succ_le_succ within))
  | @call f name args x written _ _ ih =>
      cases levels with
      | zero => cases within
      | succ below =>
          refine .call written (List.forall_mem_map.2 fun a member => ih a member ?_)
          exact Nat.le_trans (Argument.depth_le_deepest member) (Nat.le_of_succ_le_succ within)
  | base _ ih => exact .base (ih within)
  | raised _ _ ihBase ihExponent =>
      obtain ⟨withinBase, withinExponent⟩ := Nat.max_le.1 within
      cases levels with
      | zero => cases withinExponent
      | succ below =>
          exact .raised (ihBase withinBase) (ihExponent (Nat.le_of_succ_le_succ withinExponent))
  | unsigned _ ih => exact .unsigned (ih within)
  | plus _ ih | minus _ ih =>
      cases levels with
      | zero => cases within
      | succ below => exact .sign rfl (ih (Nat.le_of_succ_le_succ within))
  | factor _ ih => exact .factor (ih within)
  | multiplied _ member _ ihLeft ihRight =>
      obtain ⟨withinLeft, withinRight⟩ := Nat.max_le.1 within
      exact .multiplied (ihLeft withinLeft) member (ihRight withinRight)
  | term _ ih => exact .term (ih within)
  | added _ member _ ihLeft ihRight =>
      obtain ⟨withinLeft, withinRight⟩ := Nat.max_le.1 within
      exact .added (ihLeft withinLeft) member (ihRight withinRight)

/-! ## Places -/

/-- What has to come next. -/
inductive Next where
  | operand
  /-- An operand, or the end of a list of arguments that has none. -/
  | argument
  /-- The parenthesis behind the name of a function. -/
  | parenthesis
  | operator
  deriving DecidableEq

/-- What an open parenthesis belongs to. -/
inductive Enclosure where
  | group | call
  deriving DecidableEq

/-- A place between two tokens. -/
structure Place where
  next : Next
  /-- The open parentheses, the last one first. -/
  enclosing : List Enclosure
  deriving DecidableEq

namespace Place

/-- The place behind the first token of an operand. -/
def readOperand (enclosing : List Enclosure) : Token → Option Place
  | .number _ => some ⟨.operator, enclosing⟩
  | .word name =>
    if (Func.ofName? (bareName name)).isSome then some ⟨.parenthesis, enclosing⟩
    else if (named? (bareName name)).isSome then some ⟨.operator, enclosing⟩
    else none
  | .op o => if o.isSum then some ⟨.operand, enclosing⟩ else none
  | .openParen => some ⟨.operand, .group :: enclosing⟩
  | .closeParen | .comma => none

/-- The place behind a token, if the token may come here. -/
def read : Place → Token → Option Place
  | ⟨.operand, enclosing⟩, t => readOperand enclosing t
  | ⟨.argument, .call :: enclosing⟩, .closeParen => some ⟨.operator, enclosing⟩
  | ⟨.argument, enclosing⟩, t => readOperand enclosing t
  | ⟨.parenthesis, enclosing⟩, .openParen => some ⟨.argument, .call :: enclosing⟩
  | ⟨.operator, enclosing⟩, .op _ => some ⟨.operand, enclosing⟩
  | ⟨.operator, _ :: enclosing⟩, .closeParen => some ⟨.operator, enclosing⟩
  | ⟨.operator, .call :: enclosing⟩, .comma => some ⟨.operand, .call :: enclosing⟩
  | _, _ => none

/-- The place after a list of tokens, if each may stand where it does. -/
def readAll (place : Place) : List Token → Option Place
  | [] => some place
  | t :: ts => (place.read t).bind (·.readAll ts)

/-- Where an expression begins. -/
def start : Place := ⟨.operand, []⟩

/-- Where an expression may end. -/
def finish : Place := ⟨.operator, []⟩

variable {place here : Place} {t : Token} {ts us : List Token} {enclosing : List Enclosure}

theorem readAll_cons (here : Place) (read : place.read t = some here) :
    place.readAll (t :: ts) = here.readAll ts := by
  rw [readAll, read, Option.bind_some]

theorem readAll_append (place : Place) (ts us : List Token) :
    place.readAll (ts ++ us) = (place.readAll ts).bind (·.readAll us) := by
  induction ts generalizing place with
  | nil => rfl
  | cons t ts ih =>
      rw [List.cons_append, readAll, readAll]
      cases place.read t with
      | none => rfl
      | some there => exact ih there

theorem readAll_append_of (read : place.readAll ts = some here) (us : List Token) :
    place.readAll (ts ++ us) = here.readAll us := by
  rw [readAll_append, read, Option.bind_some]

theorem read_function {f : Func} {name : String} (written : Written f.name name) :
    read ⟨.operand, enclosing⟩ (.word name) = some ⟨.parenthesis, enclosing⟩ := by
  rw [read, readOperand, written.bareName_eq f.name_plain, Func.ofName?_name]
  rfl

theorem read_value {bare name : String} {x : Tree} (written : Written bare name)
    (denotes : Denotes bare x) :
    read ⟨.operand, enclosing⟩ (.word name) = some ⟨.operator, enclosing⟩ := by
  rw [read, readOperand, written.bareName_eq denotes.plain, named?_eq_some_iff.2 denotes]
  cases denotes <;> rfl

theorem read_sign {o : BinaryOp} (member : o.isSum = true) :
    read ⟨.operand, enclosing⟩ (.op o) = some ⟨.operand, enclosing⟩ := if_pos member

/-- The first argument of a call is read as any operand. -/
theorem read_argument (open_ : t ≠ .closeParen) :
    read ⟨.argument, .call :: enclosing⟩ t = read ⟨.operand, .call :: enclosing⟩ t := by
  cases t with
  | closeParen => exact absurd rfl open_
  | _ => rfl

end Place

/-! ## Expressions are read -/

/-- A phrase begins with a token that is no closing parenthesis. -/
theorem Shape.head {phrase : Phrase} {ts : List Token} {levels : Nat}
    (shape : Shape phrase ts levels) : ∃ t us, ts = t :: us ∧ t ≠ .closeParen := by
  induction shape with
  | number | name | group | call | sign => exact ⟨_, _, rfl, nofun⟩
  | base _ ih | unsigned _ ih | factor _ ih | term _ ih => exact ih
  | raised _ _ ih | multiplied _ _ _ ih | added _ _ _ ih =>
      obtain ⟨t, us, rfl, open_⟩ := ih
      exact ⟨t, _, rfl, open_⟩

/-- What is read as an operand, whatever is open around it. -/
def IsOperand (ts : List Token) : Prop :=
  ∀ enclosing, Place.readAll ⟨.operand, enclosing⟩ ts = some ⟨.operator, enclosing⟩

/-- Arguments are read up to the end of their list. -/
theorem readAll_arguments {args : List (List Token)} (some_ : args ≠ [])
    (operands : ∀ ts ∈ args, IsOperand ts) (enclosing : List Enclosure) :
    Place.readAll ⟨.operand, .call :: enclosing⟩ ([.comma].intercalate args ++ [.closeParen]) =
      some ⟨.operator, enclosing⟩ := by
  induction args with
  | nil => exact absurd rfl some_
  | cons ts args ih =>
      obtain ⟨first, later⟩ := List.forall_mem_cons.1 operands
      rcases args with - | ⟨us, args⟩
      · rw [List.intercalate_singleton, Place.readAll_append_of (first _)]
        rfl
      · rw [List.intercalate_cons_cons, List.append_assoc, List.append_assoc,
          Place.readAll_append_of (first _), List.singleton_append,
          Place.readAll_cons ⟨.operand, .call :: enclosing⟩ rfl]
        exact ih (List.cons_ne_nil us args) later

/-- Every phrase is read as an operand. -/
theorem Shape.isOperand {phrase : Phrase} {ts : List Token} {levels : Nat}
    (shape : Shape phrase ts levels) : IsOperand ts := by
  induction shape with
  | number value => exact fun _ => rfl
  | name written denotes => exact fun _ => Place.readAll_cons _ (Place.read_value written denotes)
  | group _ ih =>
      intro enclosing
      rw [Place.readAll_cons ⟨.operand, .group :: enclosing⟩ rfl,
        Place.readAll_append_of (ih _)]
      rfl
  | @call f name args levels written shapes ih =>
      intro enclosing
      rw [Place.readAll_cons _ (Place.read_function written),
        Place.readAll_cons ⟨.argument, .call :: enclosing⟩ rfl]
      rcases args with - | ⟨ts, args⟩
      · rfl
      · have read := readAll_arguments (List.cons_ne_nil ts args) ih enclosing
        obtain ⟨t, us, rfl, open_⟩ := (shapes ts List.mem_cons_self).head
        obtain ⟨vs, joined⟩ : ∃ vs, [.comma].intercalate ((t :: us) :: args) = t :: vs := by
          cases args with
          | nil => exact ⟨us, List.intercalate_singleton⟩
          | cons => exact ⟨_, List.intercalate_cons_cons⟩
        rw [joined, List.cons_append, Place.readAll] at read
        rw [joined, List.cons_append, Place.readAll, Place.read_argument open_, read]
  | base _ ih | unsigned _ ih | factor _ ih | term _ ih => exact ih
  | raised _ _ ihLeft ihRight | multiplied _ _ _ ihLeft ihRight | added _ _ _ ihLeft ihRight =>
      intro enclosing
      rw [Place.readAll_append_of (ihLeft enclosing),
        Place.readAll_cons ⟨.operand, enclosing⟩ rfl]
      exact ihRight enclosing
  | sign member _ ih =>
      intro enclosing
      rw [Place.readAll_cons _ (Place.read_sign member)]
      exact ih enclosing

end Gait.Expr
