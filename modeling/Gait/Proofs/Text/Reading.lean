import Gait.Frame
import Gait.Toml.Reader
import Mathlib.Data.List.Basic

/-!
# Reading printed texts back

A printed text is known by what can be read off it.  The readers here take whole numbers, bytes in
hexadecimal and separated items from the head of a text and know nothing of how these are printed.
Each comes with the statement that it gets back what was printed, whatever stands behind it that
cannot belong to it.
-/

namespace Gait.Text

variable {α : Type}

/-! ## Numbers -/

/-- The characters of whole numbers and of their signs. -/
def isNumeric (c : Char) : Bool := c.isDigit || c == '-'

/-- A whole number from the head of a text. -/
def readNumber? (cs : List Char) : Option (Int × List Char) :=
  (integer? (cs.takeWhile isNumeric)).map fun i => (i, cs.dropWhile isNumeric)

theorem isNumeric_of_mem_toDigits {n : Nat} {c : Char} (member : c ∈ Nat.toDigits 10 n) :
    isNumeric c = true := by
  have digit := Nat.isDigit_of_mem_toDigits (by decide) (by decide) member
  rw [isNumeric, digit, Bool.true_or]

theorem isNumeric_of_mem_toString {i : Int} {c : Char} (member : c ∈ (toString i).toList) :
    isNumeric c = true := by
  change c ∈ i.repr.toList at member
  rw [Int.repr_eq_if] at member
  split at member
  · rw [Nat.toList_repr] at member
    exact isNumeric_of_mem_toDigits member
  · rw [String.toList_append, Nat.toList_repr] at member
    rcases List.mem_append.1 member with sign | digit
    · rw [List.mem_singleton.1 sign]
      rfl
    · exact isNumeric_of_mem_toDigits digit

theorem exists_cons_of_toString (i : Int) :
    ∃ c cs, (toString i).toList = c :: cs ∧ isNumeric c = true := by
  have some : (toString i).toList ≠ [] := by
    intro empty
    have read := integer?_toString i
    rw [empty] at read
    cases read
  obtain ⟨c, cs, cons⟩ := List.exists_cons_of_ne_nil some
  exact ⟨c, cs, cons, isNumeric_of_mem_toString (cons ▸ List.mem_cons_self)⟩

/-- Characters of which the first is no part of a number. -/
def isMark (cs : List Char) : Bool := cs.head?.any fun c => !isNumeric c

theorem exists_cons_of_isMark {mark : List Char} (marks : isMark mark = true) :
    ∃ c cs, mark = c :: cs ∧ isNumeric c = false := by
  cases mark with
  | nil => cases marks
  | cons c cs => exact ⟨c, cs, rfl, by simpa [isMark] using marks⟩

/-- A number begins with no mark. -/
theorem dropPrefix?_toString (i : Int) (cs : List Char) {mark : List Char}
    (marks : isMark mark = true) : ((toString i).toList ++ cs).dropPrefix? mark = none := by
  obtain ⟨d, ds, rfl, noNumber⟩ := exists_cons_of_isMark marks
  obtain ⟨c, front, cons, numeric⟩ := exists_cons_of_toString i
  have other : c ≠ d := by
    rintro rfl
    exact Bool.false_ne_true (noNumber.symm.trans numeric)
  rw [cons, List.cons_append, List.dropPrefix?, if_neg (mt beq_iff_eq.1 other)]

/-- A number is read back in front of anything that is no part of a number. -/
theorem readNumber?_toString (i : Int) {rest : List Char}
    (ends : ∀ c ∈ rest.head?, isNumeric c = false) :
    readNumber? ((toString i).toList ++ rest) = some (i, rest) := by
  have run : rest.takeWhile isNumeric = [] ∧ rest.dropWhile isNumeric = rest := by
    cases rest with
    | nil => exact ⟨rfl, rfl⟩
    | cons c cs => simp [ends c rfl]
  have numeric : ∀ c ∈ (toString i).toList, isNumeric c = true :=
    fun _ => isNumeric_of_mem_toString
  rw [readNumber?, List.takeWhile_append_of_pos numeric, List.dropWhile_append_of_pos numeric,
    run.1, run.2, List.append_nil, integer?_toString]
  rfl

theorem readNumber?_before (i : Int) {mark : List Char} (marks : isMark mark = true)
    (cs : List Char) :
    readNumber? ((toString i).toList ++ (mark ++ cs)) = some (i, mark ++ cs) := by
  obtain ⟨d, ds, rfl, noNumber⟩ := exists_cons_of_isMark marks
  refine readNumber?_toString i ?_
  rintro _ ⟨⟩
  exact noNumber

/-! ## Bytes -/

/-- A byte from two hexadecimal digits at the head of a text. -/
def readByte? : List Char → Option (UInt8 × List Char)
  | high :: low :: cs => do
    let high ← Toml.hexValue? high
    let low ← Toml.hexValue? low
    return ((16 * high + low).toUInt8, cs)
  | _ => none

theorem hexValue?_digitChar : ∀ n < 16, Toml.hexValue? (Nat.digitChar n) = some n := by decide

/-- A byte is printed as two hexadecimal digits, which are read back. -/
theorem readByte?_byteText (b : UInt8) (rest : List Char) :
    readByte? ((Frame.byteText b).toList ++ rest) = some (b, rest) := by
  have size := b.toNat_lt
  have high : b.toNat / 16 < 16 := by omega
  have low : b.toNat % 16 < 16 := by omega
  have whole : (16 * (b.toNat / 16) + b.toNat % 16).toUInt8 = b := by
    rw [Nat.div_add_mod]
    exact UInt8.ofNat_toNat
  rw [Frame.byteText, String.toList_ofList, List.cons_append, List.cons_append, List.nil_append,
    readByte?, hexValue?_digitChar _ high, hexValue?_digitChar _ low]
  exact congrArg (fun b => some (b, rest)) whole

/-! ## Items -/

/-- Items with a separator between any two of them, up to a closing mark. -/
def readItems? (item : List Char → Option (α × List Char)) (separator close : List Char) :
    (fuel : Nat) → List Char → Option (List α × List Char)
  | 0, _ => none
  | fuel + 1, cs => do
    let (x, cs) ← item cs
    match cs.dropPrefix? close with
    | some cs => return ([x], cs)
    | none =>
      let (xs, cs) ← readItems? item separator close fuel (← cs.dropPrefix? separator)
      return (x :: xs, cs)

/-- Items as before, or none, up to a closing mark. -/
def readList? (item : List Char → Option (α × List Char)) (separator close cs : List Char) :
    Option (List α × List Char) :=
  match cs.dropPrefix? close with
  | some cs => some ([], cs)
  | none => readItems? item separator close (cs.length + 1) cs

section Items

/-- An item is read back in front of a separator and in front of the closing mark. -/
def ReadsBack (item : List Char → Option (α × List Char)) (written : α → List Char)
    (separator close : List Char) (x : α) : Prop :=
  ∀ cs, separator <+: cs ∨ close <+: cs → item (written x ++ cs) = some (x, cs)

variable {item : List Char → Option (α × List Char)} {written : α → List Char}
  {separator close : List Char} {xs : List α}

theorem dropPrefix?_append (front rest : List Char) :
    (front ++ rest).dropPrefix? front = some rest :=
  List.dropPrefix?_append_of_beq rest (BEq.rfl)

theorem readsBack_number (separates : isMark separator = true) (closes : isMark close = true)
    (i : Int) : ReadsBack readNumber? (fun i => (toString i).toList) separator close i := by
  rintro _ (⟨cs, rfl⟩ | ⟨cs, rfl⟩)
  · exact readNumber?_before i separates cs
  · exact readNumber?_before i closes cs

theorem exists_intercalate_cons (separator l : List Char) (ls : List (List Char)) :
    ∃ behind, separator.intercalate (l :: ls) = l ++ behind := by
  cases ls with
  | nil => exact ⟨[], by rw [List.intercalate_singleton, List.append_nil]⟩
  | cons m ms => exact ⟨_, by rw [List.intercalate_cons_cons, List.append_assoc]⟩

theorem readItems?_intercalate (nonempty : xs ≠ [])
    (apart : ∀ cs, (separator ++ cs).dropPrefix? close = none)
    (reads : ∀ x ∈ xs, ReadsBack item written separator close x)
    {fuel : Nat} (enough : xs.length ≤ fuel) (rest : List Char) :
    readItems? item separator close fuel
      (separator.intercalate (xs.map written) ++ (close ++ rest)) = some (xs, rest) := by
  induction xs generalizing fuel with
  | nil => exact (nonempty rfl).elim
  | cons x xs ih =>
      obtain ⟨fuel, rfl⟩ :=
        Nat.exists_eq_add_one.2 (Nat.lt_of_lt_of_le (Nat.zero_lt_succ _) enough)
      have read := reads x List.mem_cons_self
      cases xs with
      | nil =>
          rw [List.map_singleton, List.intercalate_singleton, readItems?,
            read _ (.inr (List.prefix_append _ _))]
          simp [dropPrefix?_append]
      | cons y ys =>
          have later := ih (by simp) (fun z member => reads z (List.mem_cons_of_mem x member))
            (Nat.le_of_succ_le_succ enough)
          rw [List.map_cons] at later
          rw [List.map_cons, List.map_cons, List.intercalate_cons_cons, List.append_assoc,
            List.append_assoc, readItems?, read _ (.inl (List.prefix_append _ _))]
          simp [apart, dropPrefix?_append, later]

theorem length_le_intercalate (separates : separator ≠ []) (ls : List (List Char)) :
    ls.length ≤ (separator.intercalate ls).length + 1 := by
  induction ls with
  | nil => exact Nat.zero_le _
  | cons l ls ih =>
      have one := List.length_pos_iff.2 separates
      cases ls with
      | nil => simp
      | cons m ms =>
          rw [List.intercalate_cons_cons]
          simp only [List.length_cons, List.length_append] at ih ⊢
          omega

/-- A list of items is read back if each item is, in front of a separator and in front of the
closing mark. -/
theorem readList?_intercalate (separates : separator ≠ [])
    (apart : ∀ cs, (separator ++ cs).dropPrefix? close = none)
    (begins : ∀ x ∈ xs, ∀ cs, (written x ++ cs).dropPrefix? close = none)
    (reads : ∀ x ∈ xs, ReadsBack item written separator close x)
    (rest : List Char) :
    readList? item separator close
      (separator.intercalate (xs.map written) ++ (close ++ rest)) = some (xs, rest) := by
  cases xs with
  | nil =>
      rw [List.map_nil, List.intercalate_nil, List.nil_append, readList?, dropPrefix?_append]
  | cons x xs =>
      have opened : (separator.intercalate ((x :: xs).map written) ++ (close ++ rest)).dropPrefix?
          close = none := by
        obtain ⟨behind, first⟩ := exists_intercalate_cons separator (written x) (xs.map written)
        rw [List.map_cons, first, List.append_assoc]
        exact begins x List.mem_cons_self _
      rw [readList?, opened]
      refine readItems?_intercalate (List.cons_ne_nil x xs) apart reads ?_ rest
      have bound := length_le_intercalate separates ((x :: xs).map written)
      rw [List.length_map] at bound
      rw [List.length_append]
      omega

/-- A list of numbers is read back. -/
theorem readList?_numbers (separates : isMark separator = true) (closes : isMark close = true)
    (apart : ∀ cs, (separator ++ cs).dropPrefix? close = none) (is : List Int)
    (rest : List Char) :
    readList? readNumber? separator close
      (separator.intercalate (is.map fun i => (toString i).toList) ++ (close ++ rest)) =
        some (is, rest) := by
  have some : separator ≠ [] := by
    rintro rfl
    cases separates
  exact readList?_intercalate some apart (fun i _ cs => dropPrefix?_toString i cs closes)
    (fun i _ => readsBack_number separates closes i) rest

end Items

end Gait.Text
