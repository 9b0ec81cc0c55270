import Gait.Proofs.Walker.Answers
import Gait.Proofs.Wire.CutShort
import Mathlib

/-!
# Exact truncation

Sixty-four bits are read by IEEE 754: `Pattern.value` is the exact number that a finite pattern
stands for, said by its fields and apart from the significands and exponents of `Binary`.  A number
is truncated by `towardZero`, which leaves out what is behind the point.

The main statement says what `Setpoint.truncate` makes of every pattern, and what this comes to for
a servo with a motion function: the byte it is driven to is the exact value of the function without
what is behind the point, and it is driven to none if that value is not between -1 and 256.
-/

namespace Gait

/-! ## Doubles by their bits -/

namespace Pattern

/-- The sign of a double, in its highest bit. -/
def negative (bits : UInt64) : Bool := decide (2 ^ 63 ≤ bits.toNat)

/-- The eleven bits below the sign. -/
def exponentField (bits : UInt64) : Nat := bits.toNat / 2 ^ 52 % 2 ^ 11

/-- The lowest fifty-two bits. -/
def fraction (bits : UInt64) : Nat := bits.toNat % 2 ^ 52

/-- The bit patterns of finite doubles. -/
def IsFinite (bits : UInt64) : Prop := exponentField bits ≠ 2047

/-- The bit patterns of the two infinities. -/
def IsInfinite (bits : UInt64) : Prop := exponentField bits = 2047 ∧ fraction bits = 0

/-- The bit patterns of what is not a number. -/
def IsNotANumber (bits : UInt64) : Prop := exponentField bits = 2047 ∧ fraction bits ≠ 0

instance (bits : UInt64) : Decidable (IsFinite bits) := inferInstanceAs (Decidable (_ ≠ _))

instance (bits : UInt64) : Decidable (IsInfinite bits) := inferInstanceAs (Decidable (_ ∧ _))

instance (bits : UInt64) : Decidable (IsNotANumber bits) := inferInstanceAs (Decidable (_ ∧ _))

/-- The size of a finite number.  The digit before the point is one, and zero for the numbers with
the least exponent field. -/
def magnitude (bits : UInt64) : ℚ :=
  if exponentField bits = 0 then fraction bits / 2 ^ 52 * 2 ^ (-1022 : ℤ)
  else (1 + fraction bits / 2 ^ 52) * 2 ^ ((exponentField bits : ℤ) - 1023)

/-- The exact number that a finite pattern stands for. -/
def value (bits : UInt64) : ℚ := if negative bits then -magnitude bits else magnitude bits

theorem magnitude_nonneg (bits : UInt64) : 0 ≤ magnitude bits := by
  unfold magnitude
  split <;> positivity

end Pattern

/-- A number without what is behind the point. -/
def towardZero (x : ℚ) : ℤ := if x < 0 then ⌈x⌉ else ⌊x⌋

section TowardZero

variable {x : ℚ}

theorem towardZero_of_nonneg (nonneg : 0 ≤ x) : towardZero x = ⌊x⌋ := if_neg (not_lt.2 nonneg)

theorem towardZero_neg (nonneg : 0 ≤ x) : towardZero (-x) = -⌊x⌋ := by
  unfold towardZero
  split
  · exact Int.ceil_neg
  · next nonneg' =>
    have zero : x = 0 := le_antisymm (by simpa using nonneg') nonneg
    rw [zero, neg_zero, Int.floor_zero, neg_zero]

theorem towardZero_mono : Monotone towardZero := by
  intro x y le
  unfold towardZero
  split_ifs with below below' below'
  · exact Int.ceil_mono le
  · have negative : ⌈x⌉ ≤ 0 := Int.ceil_le.2 (by simpa using below.le)
    exact negative.trans (Int.floor_nonneg.2 (not_lt.1 below'))
  · exact absurd (le.trans_lt below') below
  · exact Int.floor_mono le

/-- Numbers whose whole part is a byte. -/
theorem lt_of_towardZero {b : UInt8} (whole : towardZero x = b.toNat) : -1 < x ∧ x < 256 := by
  have bounded : b.toNat < 256 := b.toNat_lt
  unfold towardZero at whole
  split at whole
  · next below =>
    refine ⟨?_, below.trans (by norm_num)⟩
    have least : (-1 : ℤ) < ⌈x⌉ := by omega
    exact_mod_cast Int.lt_ceil.1 least
  · next nonneg =>
    refine ⟨lt_of_lt_of_le (by norm_num) (not_lt.1 nonneg), ?_⟩
    have most : ⌊x⌋ < (256 : ℤ) := by omega
    exact_mod_cast Int.floor_lt.1 most

end TowardZero

/-! ## Patterns taken apart -/

namespace Pattern

open Float.Model Float.Model.UnpackedFloat

variable {bits : UInt64}

theorem toNat_unpackExponent (bits : UInt64) :
    (@unpackExponent Format.binary64 bits.toBitVec).toNat = exponentField bits := by
  rw [unpackExponent_def, BitVec.extractLsb'_toNat, Nat.shiftRight_eq_div_pow]
  rfl

theorem toNat_unpackMantissa (bits : UInt64) :
    (@unpackMantissa Format.binary64 bits.toBitVec).toNat = fraction bits := by
  rw [unpackMantissa_def, BitVec.extractLsb'_toNat]
  rfl

/-- A double keeps its pattern, except that all patterns of what is not a number become one. -/
theorem toBits_ofBits (bits : UInt64) :
    (Float.ofBits bits).toBits = if IsNotANumber bits then 0x7ff8000000000000 else bits := by
  have same : @isNaNBits Format.binary64 bits.toBitVec = true ↔ IsNotANumber bits := by
    rw [isNaNBits, decide_eq_true_iff, ← BitVec.toNat_inj, Ne, ← BitVec.toNat_inj,
      toNat_unpackExponent, toNat_unpackMantissa]
    rfl
  change UInt64.ofBitVec (pack Format.binary64 (unpack Format.binary64 bits.toBitVec)) = _
  rw [pack_unpack]
  simp only [same]
  split <;> rfl

theorem testBit_top (bits : UInt64) : bits.toNat.testBit 63 = negative bits := by
  have bounded := bits.toNat_lt
  rw [Nat.testBit_eq_decide_div_mod_eq, negative, decide_eq_decide]
  omega

theorem ofFloat_of_notANumber (not : IsNotANumber bits) :
    Binary.ofFloat (.ofBits bits) = .nan := by
  rw [Binary.ofFloat, toBits_ofBits, if_pos not]
  decide

theorem ofFloat_ofBits (number : ¬IsNotANumber bits) :
    Binary.ofFloat (.ofBits bits) =
      if exponentField bits = 2047 then
        if fraction bits = 0 then .infinite (negative bits) else .nan
      else if exponentField bits = 0 then
        .finite (negative bits) (fraction bits) Binary.leastExponent
      else
        .finite (negative bits) (Binary.unit + fraction bits)
          (Binary.leastExponent + (exponentField bits - 1 : Nat)) := by
  rw [Binary.ofFloat, toBits_ofBits, if_neg number, ← testBit_top]
  rfl

/-- Significand and exponent of a finite number. -/
theorem ofFloat_of_isFinite (finite : IsFinite bits) :
    ∃ significand exponent,
      Binary.ofFloat (.ofBits bits) = .finite (negative bits) significand exponent ∧
        magnitude bits = significand * 2 ^ exponent := by
  rw [ofFloat_ofBits fun not => finite not.1, if_neg finite]
  by_cases least : exponentField bits = 0
  · rw [if_pos least, magnitude, if_pos least, Binary.leastExponent]
    refine ⟨_, _, rfl, ?_⟩
    have split : (2 : ℚ) ^ (-1074 : ℤ) = (2 ^ 52)⁻¹ * 2 ^ (-1022 : ℤ) := by
      rw [← zpow_natCast, ← zpow_neg, ← zpow_add₀ two_ne_zero]
      norm_num
    rw [split]
    ring
  · rw [if_neg least, magnitude, if_neg least, Binary.leastExponent]
    refine ⟨_, _, rfl, ?_⟩
    have exponent : (-1074 + ((exponentField bits - 1 : ℕ) : ℤ)) =
        -52 + ((exponentField bits : ℤ) - 1023) := by
      omega
    have significand : ((Binary.unit + fraction bits : ℕ) : ℚ) =
        2 ^ 52 * (1 + fraction bits / 2 ^ 52) := by
      rw [Binary.unit]
      push_cast
      ring
    rw [exponent, zpow_add₀ two_ne_zero, significand]
    ring

end Pattern

/-! ## Truncation -/

/-- What is before the point of a significand with its exponent. -/
theorem Binary.wholePart_eq_floor (significand : ℕ) (exponent : ℤ) :
    (wholePart significand exponent : ℤ) = ⌊(significand : ℚ) * 2 ^ exponent⌋ := by
  unfold wholePart
  split
  · next nonneg =>
    obtain ⟨n, rfl⟩ := Int.eq_ofNat_of_zero_le nonneg
    rw [Int.toNat_natCast, Nat.shiftLeft_eq, zpow_natCast]
    exact_mod_cast (Int.floor_natCast (R := ℚ) (significand * 2 ^ n)).symm
  · next negative =>
    obtain ⟨n, rfl⟩ := Int.exists_eq_neg_ofNat (not_le.1 negative).le
    have quotient := Rat.floor_intCast_div_natCast significand (2 ^ n)
    push_cast at quotient
    rw [neg_neg, Int.toNat_natCast, Nat.shiftRight_eq_div_pow, zpow_neg, zpow_natCast,
      ← div_eq_mul_inv, quotient]
    push_cast
    rfl

namespace Setpoint

variable {bits : UInt64}

theorem truncate_of_notANumber (not : Pattern.IsNotANumber bits) :
    truncate (.ofBits bits) = 0 := by
  rw [truncate, Pattern.ofFloat_of_notANumber not]
  rfl

/-- An infinity stops at the end of the range on its side. -/
theorem toInt_truncate_of_isInfinite (infinite : Pattern.IsInfinite bits) :
    (truncate (.ofBits bits)).toInt = if Pattern.negative bits then least else greatest := by
  rw [toInt_truncate, Pattern.ofFloat_ofBits fun not => not.2 infinite.2, if_pos infinite.1,
    if_pos infinite.2]
  cases Pattern.negative bits <;> rfl

/-- A finite number is cut exactly, and stops at the ends of the range. -/
theorem toInt_truncate_of_isFinite (finite : Pattern.IsFinite bits) :
    (truncate (.ofBits bits)).toInt =
      max least (min greatest (towardZero (Pattern.value bits))) := by
  obtain ⟨significand, exponent, decoded, size⟩ := Pattern.ofFloat_of_isFinite finite
  have nonneg := Pattern.magnitude_nonneg bits
  rw [toInt_truncate, decoded, Pattern.value]
  cases Pattern.negative bits with
  | false =>
      rw [if_neg Bool.false_ne_true, towardZero_of_nonneg nonneg, size,
        ← Binary.wholePart_eq_floor]
      rfl
  | true =>
      rw [if_pos rfl, towardZero_neg nonneg, size, ← Binary.wholePart_eq_floor]
      rfl

/-- A setpoint is a byte just if the number is one without what is behind the point. -/
theorem toInt_truncate_eq_byte_iff (finite : Pattern.IsFinite bits) (b : UInt8) :
    (truncate (.ofBits bits)).toInt = b.toNat ↔
      -1 < Pattern.value bits ∧ Pattern.value bits < 256 ∧
        towardZero (Pattern.value bits) = b.toNat := by
  have bounded : b.toNat < 256 := b.toNat_lt
  rw [toInt_truncate_of_isFinite finite, least, greatest]
  constructor
  · intro byte
    have whole : towardZero (Pattern.value bits) = b.toNat := by omega
    obtain ⟨above, below⟩ := lt_of_towardZero whole
    exact ⟨above, below, whole⟩
  · rintro ⟨-, -, whole⟩
    omega

end Setpoint

/-! ## Driven servos -/

namespace Transmitter

open Link (Logged Record Unfailing)

variable {L : Type} [Link L]

/-- A servo is driven to a byte: its command is sent, and a receiver makes of what was written just
that this servo shall have this position. -/
def Drives (t : Transmitter (Logged L)) (slot : Nat) (raw : Setpoint) (b : UInt8) : Prop :=
  let sent := t.run (command (slot / servosPerBoard + 1 : Nat) (slot % servosPerBoard : Nat) 0
    raw.toInt)
  sent.1 = .ok () ∧ ∃ writes, sent.2.link.writes = t.link.writes ++ writes ∧
    decode (accepted writes) =
      [⟨(slot / servosPerBoard + 1 : Nat), (slot % servosPerBoard : Nat), 0, b.toNat⟩]

/-- Over a link that refuses nothing a servo is driven to its setpoint just if that is a byte. -/
theorem drives_iff {t : Transmitter (Logged L)} (unfailing : Unfailing t.link.link) {slot : Nat}
    (inside : slot < servoCount) {raw : Setpoint} {b : UInt8} :
    t.Drives slot raw b ↔ raw.toInt = b.toNat := by
  have bounded : b.toNat < 256 := b.toNat_lt
  obtain ⟨writes, log, leaves⟩ := t.sendCommand_leaves (.forSlot slot raw)
  have read := leaves.received {}
  constructor
  · rintro ⟨ok, writes', log', driven⟩
    obtain rfl : writes = writes' := List.append_cancel_left (log.symm.trans log')
    have ok' : (t.run (sendCommand (.forSlot slot raw))).1 = .ok () := ok
    rw [ok'] at leaves
    cases leaves with
    | whole fits =>
        have same := List.cons.inj (read.symm.trans driven)
        exact congrArg Command.value same.1
  · intro byte
    have fits : (Command.forSlot slot raw).Fits := by
      rw [Command.fits_forSlot_iff inside, Setpoint.Fits]
      omega
    obtain ⟨t', sent, -⟩ := run_sendCommand_gains (r := Record.logged) unfailing fits
    rw [sent] at leaves
    cases leaves with
    | whole _ =>
        refine ⟨congrArg Prod.fst sent, _, log, ?_⟩
        rw [← byte]
        exact read

end Transmitter

namespace Setpoint

open Link (Logged Unfailing)

/-- Of what is not finite, only an infinity does not become zero. -/
theorem truncate_of_not_isFinite (endless : ¬Pattern.IsFinite bits) :
    (truncate (.ofBits bits)).toInt = 0 ↔ ¬Pattern.IsInfinite bits := by
  have field : Pattern.exponentField bits = 2047 := not_not.1 endless
  by_cases zero : Pattern.fraction bits = 0
  · rw [toInt_truncate_of_isInfinite ⟨field, zero⟩]
    have stopped : (if Pattern.negative bits then least else greatest) ≠ 0 := by
      cases Pattern.negative bits <;> decide
    exact iff_of_false stopped (not_not.2 ⟨field, zero⟩)
  · rw [truncate_of_notANumber ⟨field, zero⟩]
    exact iff_of_true rfl fun both => zero both.2

/-- What becomes of the sixty-four bits of a double.  If it is finite it is rounded toward zero,
exactly, and stops at the ends of the range, and it becomes zero otherwise, just if it is no
infinity; an infinity stops at its end of the range.  So a greater one of two finite numbers never
gives a lesser setpoint.  And take the function that is the first one of a servo's track to cover
the time elapsed since the servo's anchor: if its value there is finite, the servo is driven to a
byte just if the exact value is between -1 and 256 and is this byte without what is behind the
point. -/
theorem truncate_toward_zero (bits : UInt64) :
    ((truncate (.ofBits bits)).toInt =
        (if Pattern.IsFinite bits then
          max (-2 ^ 31) (min (2 ^ 31 - 1) (towardZero (Pattern.value bits)))
        else 0) ↔ ¬Pattern.IsInfinite bits) ∧
    (Pattern.IsInfinite bits →
      (truncate (.ofBits bits)).toInt = if Pattern.negative bits then -2 ^ 31 else 2 ^ 31 - 1) ∧
    (∀ bits', Pattern.IsFinite bits → Pattern.IsFinite bits' →
      Pattern.value bits ≤ Pattern.value bits' →
        truncate (.ofBits bits) ≤ truncate (.ofBits bits')) ∧
    ∀ {L : Type} [Link L] (t : Transmitter (Logged L)), Unfailing t.link.link →
      ∀ (run : Run) (p : Program) (again : Bool) (now : Int) (step : Step),
        (run.nextComputed p again now).1 = some step →
          ∀ servo : Fin servoCount,
            let time := elapsed now ((run.nextComputed p again now).2.anchors.get servo)
            ∃ f : MotionFunction, (p.tracks.get servo).FirstAt time f ∧
            let value := (f.value time).toBits
            (Pattern.IsFinite value → ∀ b : UInt8,
              t.Drives servo (step.positions.get servo) b ↔
                -1 < Pattern.value value ∧ Pattern.value value < 256 ∧
                  towardZero (Pattern.value value) = b.toNat) := by
  refine ⟨?_, toInt_truncate_of_isInfinite, fun bits' finite finite' le => ?_,
    fun t unfailing run p again now step next servo => ?_⟩
  · by_cases finite : Pattern.IsFinite bits
    · rw [if_pos finite]
      exact iff_of_true (toInt_truncate_of_isFinite finite) fun infinite => finite infinite.1
    · rw [if_neg finite]
      exact truncate_of_not_isFinite finite
  · have whole := towardZero_mono le
    rw [Int32.le_iff_toInt_le, toInt_truncate_of_isFinite finite,
      toInt_truncate_of_isFinite finite']
    exact max_le_max_left _ (min_le_min_left _ whole)
  · have answers := run.nextComputed_answers p again now
    rw [next] at answers
    obtain ⟨-, poses⟩ := answers
    obtain ⟨f, first, posed⟩ := poses.positions servo
    refine ⟨f, first, fun finite b => ?_⟩
    rw [Transmitter.drives_iff unfailing servo.isLt, posed, ← toInt_truncate_eq_byte_iff finite,
      Float.ofBits_toBits]
    rfl

/-- A pattern of what is not a number, an infinity, -0.75 and 255.5, the last one in a motion
function. -/
theorem truncate_toward_zero_at_edges :
    let f : MotionFunction := ⟨⟨"255.5", .number (.ofBits 0x406ff00000000000)⟩, 0, 10, by decide⟩
    let wave : Program := { tracks := Vector.replicate servoCount [f] }
    let run : Run := ⟨"wave", .main, 0, Vector.replicate servoCount 0⟩
    let t : Transmitter (Logged Link.Null) := ⟨⟨{}, []⟩, .blank⟩
    (truncate (.ofBits 0xfff0000000000001)).toInt = 0 ∧
      (truncate (.ofBits 0xfff0000000000000)).toInt = -2 ^ 31 ∧
      (truncate (.ofBits 0xbfe8000000000000)).toInt = 0 ∧
      truncate (.ofBits 0xbfe8000000000000) ≤ truncate (.ofBits 0x406ff00000000000) ∧
      ∃ step, (run.nextComputed wave false 5).1 = some step ∧
        ∀ servo : Fin servoCount, t.Drives servo (step.positions.get servo) 255 := by
  intro f wave run t
  have low : Pattern.value 0xbfe8000000000000 = -(3 / 4) := by
    have field : Pattern.exponentField 0xbfe8000000000000 = 1022 := by decide
    have fraction : Pattern.fraction 0xbfe8000000000000 = 2 ^ 51 := by decide
    have negative : Pattern.negative 0xbfe8000000000000 = true := by decide
    rw [Pattern.value, Pattern.magnitude, field, fraction, negative]
    norm_num
  have high : Pattern.value 0x406ff00000000000 = 511 / 2 := by
    have field : Pattern.exponentField 0x406ff00000000000 = 1030 := by decide
    have fraction : Pattern.fraction 0x406ff00000000000 = 255 * 2 ^ 44 := by decide
    have negative : Pattern.negative 0x406ff00000000000 = false := by decide
    rw [Pattern.value, Pattern.magnitude, field, fraction, negative]
    norm_num
  obtain ⟨cut, -, monotone, driven⟩ := truncate_toward_zero 0xbfe8000000000000
  have unfailing : Unfailing t.link.link := Link.unfailing_of_write (fun _ _ => rfl) _
  obtain ⟨step, next⟩ : ∃ step, (run.nextComputed wave false 5).1 = some step :=
    Option.isSome_iff_exists.1 (by decide +kernel)
  refine ⟨(truncate_toward_zero _).1.2 (by decide), (truncate_toward_zero _).2.1 (by decide), ?_,
    monotone _ (by decide) (by decide) ?_, step, next, fun servo => ?_⟩
  · rw [cut.2 (by decide), if_pos (by decide), low]
    norm_num [towardZero]
  · rw [low, high]
    norm_num
  · obtain ⟨g, ⟨before, after, split, -, -⟩, bytes⟩ :=
      driven t unfailing run wave false 5 step next servo
    have track : wave.tracks.get servo = [f] := Vector.getElem_replicate servo.isLt
    have member : g ∈ [f] := by
      rw [← track, split]
      exact List.mem_append_right _ List.mem_cons_self
    obtain rfl : g = f := List.mem_singleton.1 member
    have bits (time : Int) : (f.value time).toBits = 0x406ff00000000000 :=
      (Pattern.toBits_ofBits _).trans (if_neg (by decide))
    rw [bits] at bytes
    refine (bytes (by decide) 255).2 ⟨?_, ?_, ?_⟩
    · rw [high]
      norm_num
    · rw [high]
      norm_num
    · have byte : (255 : UInt8).toNat = 255 := rfl
      rw [high, byte, towardZero_of_nonneg (by norm_num), Int.floor_eq_iff]
      norm_num

/-- An infinity is not finite, and becomes the end of the range. -/
theorem infinity_is_not_truncated_to_zero :
    ¬∀ bits, ¬Pattern.IsFinite bits → truncate (.ofBits bits) = 0 := by
  intro zero
  have here : truncate (.ofBits 0x7ff0000000000000) = 0 := zero _ (by decide)
  have stopped := @toInt_truncate_of_isInfinite 0x7ff0000000000000 (by decide)
  rw [here] at stopped
  exact absurd stopped (by decide)

end Setpoint

end Gait
