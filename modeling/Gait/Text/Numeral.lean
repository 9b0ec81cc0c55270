/-!
# Numerals

Runs of ASCII digits and the whole numbers they denote.  `natural?` reads a text that is all digits,
`integer?` admits one sign in front.  Bounds are the business of the caller.
-/

namespace Gait.Text

/-- The number that one digit stands for. -/
def digitValue (d : Char) : Nat := d.toNat - '0'.toNat

/-- The number that a run of digits denotes, the empty run denoting zero. -/
def decimalValue (ds : List Char) : Nat :=
  ds.foldl (fun n d => 10 * n + digitValue d) 0

/-- Whether a text is one or more digits and nothing else. -/
def isNumeral (cs : List Char) : Bool :=
  !cs.isEmpty && cs.all Char.isDigit

/-- The number written by a text of one or more digits. -/
def natural? (cs : List Char) : Option Nat :=
  if isNumeral cs then some (decimalValue cs) else none

/-- The number written by digits with at most one plus sign in front. -/
def unsigned? : List Char → Option Nat
  | '+' :: cs => natural? cs
  | cs => natural? cs

/-- The number written by digits with at most one sign in front. -/
def integer? : List Char → Option Int
  | '-' :: cs => (natural? cs).map fun n => -(n : Int)
  | cs => (unsigned? cs).map fun n => (n : Int)

@[simp] theorem decimalValue_nil : decimalValue [] = 0 := rfl

theorem natural?_eq_some {cs : List Char} {n : Nat} :
    natural? cs = some n ↔ isNumeral cs = true ∧ decimalValue cs = n := by
  simp [natural?]

/-! ## Printed numbers -/

theorem decimalValue_toDigits (n : Nat) : decimalValue (Nat.toDigits 10 n) = n := by
  have denoted : Nat.ofDigitChars 10 (Nat.toDigits 10 n) 0 = n := Nat.ofDigitChars_ten_toDigits
  rwa [Nat.ofDigitChars_eq_foldl] at denoted

theorem isNumeral_toDigits (n : Nat) : isNumeral (Nat.toDigits 10 n) = true := by
  have digits : (Nat.toDigits 10 n).all Char.isDigit = true :=
    List.all_eq_true.2 fun d => Nat.isDigit_of_mem_toDigits (by decide) (by decide)
  simp [isNumeral, digits]

/-- A printed number is read back. -/
theorem natural?_toDigits (n : Nat) : natural? (Nat.toDigits 10 n) = some n :=
  natural?_eq_some.2 ⟨isNumeral_toDigits n, decimalValue_toDigits n⟩

theorem integer?_toDigits (n : Nat) : integer? (Nat.toDigits 10 n) = some (n : Int) := by
  obtain ⟨d, ds, cons⟩ := List.exists_cons_of_ne_nil (Nat.toDigits_ne_nil (n := n) (b := 10))
  have digit : d.isDigit = true := by
    refine Nat.isDigit_of_mem_toDigits (b := 10) (n := n) (by decide) (by decide) ?_
    rw [cons]
    exact List.mem_cons_self
  have noMinus : d ≠ '-' := by rintro rfl; cases digit
  have noPlus : d ≠ '+' := by rintro rfl; cases digit
  have read := natural?_toDigits n
  rw [cons] at read ⊢
  simp [integer?, unsigned?, noMinus, noPlus, read]

/-- A printed number is read back with its sign. -/
theorem integer?_toString (i : Int) : integer? (toString i).toList = some i := by
  change integer? i.repr.toList = some i
  rw [Int.repr_eq_if]
  split
  · next natural => rw [Nat.toList_repr, integer?_toDigits, Int.toNat_of_nonneg natural]
  · next negative =>
    have magnitude : ((-i).toNat : Int) = -i := Int.toNat_of_nonneg (by omega)
    rw [String.toList_append, Nat.toList_repr]
    simp [integer?, natural?_toDigits, magnitude]

end Gait.Text
