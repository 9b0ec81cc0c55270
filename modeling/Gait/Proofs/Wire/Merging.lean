import Gait.Proofs.Wire.Attempts
import Mathlib.Algebra.Group.Nat.Defs

/-!
# Merging numbers into a frame

The fields of a frame are filled one number at a time, and a number is merged with what its field
holds already.  `Transmitter.putAll` carries out any list of such settings after each other, whether
or not some are refused.  What it makes of a frame is a union of bits (`frame_putAll`), so neither
the order of the settings nor a repetition counts; since the fields lie apart, the frame is the one
of the command that has the union of its accepted numbers in each field (`frame_putAll_start`), and
`Command.frame_spec` reads the fields back.
-/

namespace Gait

/-! ## Unions of bits -/

/-- The bits that are set in some of the bytes. -/
def orAll (bytes : List UInt8) : UInt8 := bytes.foldr (· ||| ·) 0

section Union

variable {bytes bytes' : List UInt8} {a b : UInt8}

@[simp] theorem orAll_nil : orAll [] = 0 := rfl

@[simp] theorem orAll_cons (b : UInt8) (bytes : List UInt8) :
    orAll (b :: bytes) = b ||| orAll bytes := rfl

/-- A union is absorbed by whatever absorbs its parts. -/
theorem orAll_or_of_forall (absorbs : ∀ b ∈ bytes, b ||| a = a) : orAll bytes ||| a = a := by
  induction bytes with
  | nil => rw [orAll_nil, UInt8.zero_or]
  | cons b bytes ih =>
      obtain ⟨first, later⟩ := List.forall_mem_cons.1 absorbs
      rw [orAll_cons, UInt8.or_assoc, ih later, first]

theorem or_orAll_of_mem (member : b ∈ bytes) : b ||| orAll bytes = orAll bytes := by
  induction member with
  | head bytes => rw [orAll_cons, ← UInt8.or_assoc, UInt8.or_self]
  | @tail c bytes _ ih =>
      rw [orAll_cons, ← UInt8.or_assoc, UInt8.or_comm (a := b), UInt8.or_assoc, ih]

/-- Neither the order of the bytes nor their number counts. -/
theorem orAll_congr (same : ∀ b, b ∈ bytes ↔ b ∈ bytes') : orAll bytes = orAll bytes' := by
  have left : orAll bytes ||| orAll bytes' = orAll bytes' :=
    orAll_or_of_forall fun b member => or_orAll_of_mem ((same b).1 member)
  have right : orAll bytes' ||| orAll bytes = orAll bytes :=
    orAll_or_of_forall fun b member => or_orAll_of_mem ((same b).2 member)
  rw [← left, UInt8.or_comm, right]

/-- What moves bits moves the bits of a union. -/
theorem orAll_map {g : UInt8 → UInt8} (zero : g 0 = 0)
    (union : ∀ a b, g (a ||| b) = g a ||| g b) (bytes : List UInt8) :
    orAll (bytes.map g) = g (orAll bytes) := by
  induction bytes with
  | nil => exact zero.symm
  | cons b bytes ih => rw [List.map_cons, orAll_cons, ih, orAll_cons, union]

theorem or_and_mask (a b mask : UInt8) : (a ||| b) &&& mask = a &&& mask ||| b &&& mask := by
  apply UInt8.toNat_inj.1
  simp only [UInt8.toNat_and, UInt8.toNat_or, Nat.and_or_distrib_right]

theorem toNat_orAll_lt {n : Nat} (bounded : ∀ b ∈ bytes, b.toNat < 2 ^ n) :
    (orAll bytes).toNat < 2 ^ n := by
  induction bytes with
  | nil => exact Nat.two_pow_pos n
  | cons b bytes ih =>
      obtain ⟨first, later⟩ := List.forall_mem_cons.1 bounded
      rw [orAll_cons, UInt8.toNat_or]
      exact Nat.or_lt_two_pow first (ih later)

end Union

/-! ## Settings -/

/-- A number that is to be put into a field. -/
structure Setting where
  field : Field
  number : Int
  deriving DecidableEq, Repr

namespace Setting

/-- The number is in the domain of the field. -/
def Fits (s : Setting) : Prop := 0 ≤ s.number ∧ s.number ≤ s.field.largest

instance (s : Setting) : Decidable s.Fits := inferInstanceAs (Decidable (_ ∧ _))

/-- The number of a setting as a byte. -/
def bits (s : Setting) : UInt8 := s.number.toNat.toUInt8

/-- What putting the number is answered by. -/
def answer (s : Setting) : Except SendError Unit :=
  if s.Fits then .ok () else .error (.range ⟨s.field, s.number⟩)

/-- The bits that the number has in the first byte of a frame. -/
def inFirst (s : Setting) : UInt8 :=
  match s.field with
  | .pic => s.bits <<< 5
  | .servo => s.bits <<< 3
  | .mode => s.bits <<< 1
  | .value => s.bits >>> 7

/-- The bits that the number has in the second byte of a frame. -/
def inSecond (s : Setting) : UInt8 :=
  match s.field with
  | .value => s.bits &&& 0x7f
  | _ => 0

end Setting

/-- The numbers that a field accepts, in their order. -/
def admitted (settings : List Setting) (field : Field) : List UInt8 :=
  (settings.filter fun s => s.field = field ∧ s.Fits).map Setting.bits

/-- The number in a field of a frame, as the boards read it. -/
def Frame.read (f : Frame) (field : Field) : Int :=
  let command := Command.ofBytes f.first f.second
  match field with
  | .pic => command.pic
  | .servo => command.servo
  | .mode => command.mode
  | .value => command.value

theorem Frame.merge_eq (f : Frame) (s : Setting) :
    f.merge s.bits s.field = ⟨f.first ||| s.inFirst, f.second ||| s.inSecond⟩ := by
  rcases s with ⟨field, number⟩
  cases field with
  | value => rfl
  | pic | servo | mode => simp only [Frame.merge, Setting.inFirst, Setting.inSecond, UInt8.or_zero]

namespace Transmitter

variable {L : Type}

/-- Put numbers into fields after each other, whatever becomes of each. -/
def putAll (t : Transmitter L) : List Setting → List (Except SendError Unit) × Transmitter L
  | [] => ([], t)
  | s :: settings =>
    let (result, t) := t.run (put s.field s.number)
    let (results, t) := t.putAll settings
    (result :: results, t)

/-- A number that fits is merged, and one that does not leaves everything as it was. -/
theorem run_put_setting (t : Transmitter L) (s : Setting) :
    t.run (put s.field s.number) =
      (s.answer, if s.Fits then { t with frame := t.frame.merge s.bits s.field } else t) := by
  rw [run_put, Setting.answer]
  by_cases fits : s.Fits
  · rw [if_pos fits, if_pos fits]
    exact if_pos fits
  · rw [if_neg fits, if_neg fits]
    exact if_neg fits

theorem putAll_cons (t : Transmitter L) (s : Setting) (settings : List Setting) :
    t.putAll (s :: settings) =
      (s.answer :: ((t.run (put s.field s.number)).2.putAll settings).1,
        ((t.run (put s.field s.number)).2.putAll settings).2) := by
  rw [putAll, run_put_setting]

/-- The settings that fit are merged into the frame, and nothing else is changed. -/
theorem frame_putAll (t : Transmitter L) (settings : List Setting) :
    t.putAll settings =
      (settings.map Setting.answer,
        { t with frame :=
          ⟨t.frame.first ||| orAll ((settings.filter (·.Fits)).map Setting.inFirst),
            t.frame.second ||| orAll ((settings.filter (·.Fits)).map Setting.inSecond)⟩ }) := by
  induction settings generalizing t with
  | nil => simp [putAll]
  | cons s settings ih =>
      rw [putAll_cons, run_put_setting, ih]
      by_cases fits : s.Fits
      · simp only [fits, if_true, decide_true, List.filter_cons_of_pos, List.map_cons, orAll_cons,
          Frame.merge_eq, UInt8.or_assoc]
      · simp only [fits, if_false, decide_false, Bool.false_eq_true, not_false_eq_true,
          List.filter_cons_of_neg, List.map_cons]

end Transmitter

/-! ## Frames after a reset -/

/-- The command that has in each field the union of the accepted numbers. -/
def Command.union (settings : List Setting) : Command where
  pic := (orAll (admitted settings .pic)).toNat
  servo := (orAll (admitted settings .servo)).toNat
  mode := (orAll (admitted settings .mode)).toNat
  value := (orAll (admitted settings .value)).toNat

section Reset

variable {settings settings' : List Setting} {field : Field}

theorem toNat_bits {s : Setting} (fits : s.Fits) : (s.bits.toNat : Int) = s.number := by
  obtain ⟨low, high⟩ := fits
  have largest : s.field.largest ≤ 255 := by cases s.field <;> decide
  rw [Setting.bits, UInt8.toNat_ofNat']
  omega

theorem toNat_orAll_admitted_le (settings : List Setting) (field : Field) :
    (orAll (admitted settings field)).toNat ≤ field.largest := by
  obtain ⟨n, largest⟩ : ∃ n, field.largest + 1 = 2 ^ n := by
    cases field with
    | value => exact ⟨8, rfl⟩
    | pic | servo | mode => exact ⟨2, rfl⟩
  have bounded : ∀ b ∈ admitted settings field, b.toNat < 2 ^ n := by
    intro b member
    obtain ⟨s, chosen, rfl⟩ := List.mem_map.1 member
    obtain ⟨rfl, fits⟩ := of_decide_eq_true (List.mem_filter.1 chosen).2
    have number := toNat_bits fits
    have high := fits.2
    omega
  have union := toNat_orAll_lt bounded
  omega

theorem Command.union_fits (settings : List Setting) : (Command.union settings).Fits := by
  have fits (field : Field) : (0 : Int) ≤ (orAll (admitted settings field)).toNat ∧
      ((orAll (admitted settings field)).toNat : Int) ≤ field.largest :=
    ⟨Int.natCast_nonneg _, Int.ofNat_le.2 (toNat_orAll_admitted_le settings field)⟩
  exact ⟨fits .pic, fits .servo, fits .mode, fits .value⟩

/-- Only the settings of a field count for it. -/
theorem admitted_congr
    (same : settings'.filter (·.field = field) = settings.filter (·.field = field)) :
    admitted settings' field = admitted settings field := by
  have split (settings : List Setting) : admitted settings field =
      ((settings.filter (·.field = field)).filter (·.Fits)).map Setting.bits := by
    rw [List.filter_filter, admitted]
    simp only [Bool.decide_and, Bool.and_comm]
  rw [split, split, same]

/-- What the settings add to the first byte, field by field. -/
theorem orAll_inFirst (settings : List Setting) :
    orAll ((settings.filter (·.Fits)).map Setting.inFirst) =
      orAll ((admitted settings .pic).map fun bits => bits <<< (5 : UInt8)) |||
        orAll ((admitted settings .servo).map fun bits => bits <<< (3 : UInt8)) |||
        orAll ((admitted settings .mode).map fun bits => bits <<< (1 : UInt8)) |||
        orAll ((admitted settings .value).map fun bits => bits >>> (7 : UInt8)) := by
  induction settings with
  | nil => rfl
  | cons s settings ih =>
      rcases s with ⟨field, number⟩
      unfold admitted at ih ⊢
      by_cases fits : (⟨field, number⟩ : Setting).Fits
      · cases field <;> simp [fits, ih, Setting.inFirst] <;> ac_rfl
      · simp [fits, ih]

theorem orAll_inSecond (settings : List Setting) :
    orAll ((settings.filter (·.Fits)).map Setting.inSecond) =
      orAll ((admitted settings .value).map fun bits => bits &&& 0x7f) := by
  induction settings with
  | nil => rfl
  | cons s settings ih =>
      rcases s with ⟨field, number⟩
      unfold admitted at ih ⊢
      by_cases fits : (⟨field, number⟩ : Setting).Fits
      · cases field <;> simp [fits, ih, Setting.inSecond]
      · simp [fits, ih]

/-- The unions of what the settings add make the frame of the command of the unions. -/
theorem Command.frame_union (settings : List Setting) :
    (Command.union settings).frame =
      ⟨(0x80 : UInt8) ||| orAll ((admitted settings .pic).map fun bits => bits <<< (5 : UInt8)) |||
          orAll ((admitted settings .servo).map fun bits => bits <<< (3 : UInt8)) |||
          orAll ((admitted settings .mode).map fun bits => bits <<< (1 : UInt8)) |||
          orAll ((admitted settings .value).map fun bits => bits >>> (7 : UInt8)),
        orAll ((admitted settings .value).map fun bits => bits &&& 0x7f)⟩ := by
  have byte (b : UInt8) : (b.toNat : Int).toNat.toUInt8 = b := by simp
  have left (n : UInt8) (zero : (0 : UInt8) <<< n = 0) (bytes : List UInt8) :
      orAll (bytes.map fun bits => bits <<< n) = orAll bytes <<< n :=
    orAll_map (g := (· <<< n)) zero (fun _ _ => UInt8.shiftLeft_or) bytes
  have right (bytes : List UInt8) :
      orAll (bytes.map fun bits => bits >>> (7 : UInt8)) = orAll bytes >>> 7 :=
    orAll_map (g := (· >>> 7)) (by decide) (fun _ _ => UInt8.shiftRight_or) bytes
  have masked (bytes : List UInt8) :
      orAll (bytes.map fun bits => bits &&& 0x7f) = orAll bytes &&& 0x7f :=
    orAll_map (g := (· &&& 0x7f)) (by decide) (fun a b => or_and_mask a b 0x7f) bytes
  rw [left 5 (by decide), left 3 (by decide), left 1 (by decide), right, masked]
  simp only [Command.frame, Command.union, Frame.start, Frame.merge, byte, UInt8.zero_or]

end Reset

namespace Transmitter

variable {L : Type}

/-- After a reset, settings make the frame of the command of their unions. -/
theorem putAll_reset (t : Transmitter L) (settings : List Setting) :
    (t.run reset).2.putAll settings =
      (settings.map Setting.answer, { t with frame := (Command.union settings).frame }) := by
  rw [run_reset, frame_putAll, orAll_inFirst, orAll_inSecond, Command.frame_union]
  simp only [Frame.start, UInt8.zero_or, UInt8.or_assoc]

end Transmitter

/-- A byte opens a frame just if its top bit is set. -/
theorem opensFrame_eq_testBit (byte : UInt8) : opensFrame byte = byte.toNat.testBit 7 := by
  have bounded := byte.toNat_lt
  rw [opensFrame, Nat.testBit_eq_decide_div_mod_eq, decide_eq_decide, UInt8.le_iff_toNat_le]
  change 128 ≤ byte.toNat ↔ _
  omega

/-- Only which settings fit and occur counts. -/
theorem Command.union_congr {settings settings' : List Setting}
    (same : ∀ s, s.Fits → (s ∈ settings' ↔ s ∈ settings)) :
    Command.union settings' = Command.union settings := by
  have field (field : Field) :
      orAll (admitted settings' field) = orAll (admitted settings field) := by
    refine orAll_congr fun b => ?_
    simp only [admitted, List.mem_map, List.mem_filter, decide_eq_true_eq]
    refine exists_congr fun s => and_congr_left fun _ => ?_
    exact and_congr_left fun ⟨_, fits⟩ => same s fits
  simp only [Command.union, field]

/-- The fields of a frame hold what the settings of each brought. -/
theorem Command.read_frame_union (settings : List Setting) (field : Field) :
    (Command.union settings).frame.read field = (orAll (admitted settings field)).toNat := by
  obtain ⟨-, -, read⟩ := Command.frame_spec (Command.union_fits settings)
  cases field with
  | pic => exact congrArg Command.pic read
  | servo => exact congrArg Command.servo read
  | mode => exact congrArg Command.mode read
  | value => exact congrArg Command.value read

/-- How settings fill a frame.  After a reset, let numbers be put into the fields of a frame, in any
order and however often.

A number is refused just if it is outside the domain of its field, and then nothing is changed.  The
frame has the opening bit and the bits of the accepted numbers, each moved to the place of its
field.  So the frame is the same for any settings with the same accepted ones among them: neither
their order nor repetitions count.  The top bit of the first byte stays set and the top bit of the
second clear, and a field holds the union of the numbers it accepted, whatever was put into the
others. -/
theorem Transmitter.frame_of_settings {L : Type} (t : Transmitter L) (settings : List Setting) :
    let fresh := (t.run reset).2
    let frame (settings : List Setting) := (fresh.putAll settings).2.frame
    let bits (field : Field) := admitted settings field
    (∀ (t : Transmitter L) (s : Setting),
      ((t.run (put s.field s.number)).1 = .ok () ↔ s.Fits) ∧
        (¬s.Fits → t.run (put s.field s.number) = (.error (.range ⟨s.field, s.number⟩), t))) ∧
      fresh.putAll settings = (settings.map Setting.answer, { t with frame := frame settings }) ∧
      frame settings =
        ⟨(0x80 : UInt8) ||| orAll ((bits .pic).map fun b => b <<< (5 : UInt8)) |||
            orAll ((bits .servo).map fun b => b <<< (3 : UInt8)) |||
            orAll ((bits .mode).map fun b => b <<< (1 : UInt8)) |||
            orAll ((bits .value).map fun b => b >>> (7 : UInt8)),
          orAll ((bits .value).map fun b => b &&& 0x7f)⟩ ∧
      (∀ settings', (∀ s, s.Fits → (s ∈ settings' ↔ s ∈ settings)) →
        frame settings' = frame settings) ∧
      (frame settings).first.toNat.testBit 7 = true ∧
      (frame settings).second.toNat.testBit 7 = false ∧
      ∀ field, (frame settings).read field = (orAll (bits field)).toNat ∧
        ∀ settings', settings'.filter (·.field = field) = settings.filter (·.field = field) →
          (frame settings').read field = (frame settings).read field := by
  intro fresh frame bits
  have filled (settings : List Setting) : frame settings = (Command.union settings).frame := by
    rw [show frame settings = (fresh.putAll settings).2.frame from rfl, putAll_reset]
  obtain ⟨opens, closes, -⟩ := Command.frame_spec (Command.union_fits settings)
  refine ⟨fun t s => ?_, ?_, ?_, fun settings' same => ?_, ?_, ?_, fun field =>
    ⟨?_, fun settings' own => ?_⟩⟩
  · rw [run_put_setting, Setting.answer]
    by_cases fits : s.Fits
    · simp [fits]
    · simp [fits]
  · rw [filled, putAll_reset]
  · rw [filled, Command.frame_union]
  · rw [filled, filled, Command.union_congr same]
  · rw [filled, ← opensFrame_eq_testBit, opens]
  · rw [filled, ← opensFrame_eq_testBit, closes]
  · rw [filled, Command.read_frame_union]
  · rw [filled, filled, Command.read_frame_union, Command.read_frame_union, admitted_congr own]

theorem Transmitter.frame_of_repeated_settings :
    let settings : List Setting :=
      [⟨.pic, 1⟩, ⟨.servo, 9⟩, ⟨.value, 255⟩, ⟨.pic, 2⟩, ⟨.mode, -1⟩, ⟨.value, 0x7fffffffffffffff⟩]
    let shuffled : List Setting := [⟨.value, 255⟩, ⟨.pic, 2⟩, ⟨.servo, 4⟩, ⟨.pic, 1⟩, ⟨.value, 255⟩]
    let fresh := (({ link := () } : Transmitter Unit).run reset).2
    (fresh.putAll settings).1 =
        [.ok (), .error (.range ⟨.servo, 9⟩), .ok (), .ok (), .error (.range ⟨.mode, -1⟩),
          .error (.range ⟨.value, 0x7fffffffffffffff⟩)] ∧
      (fresh.putAll settings).2.frame = ⟨0xe1, 0x7f⟩ ∧
      (∀ s : Setting, s.Fits → (s ∈ shuffled ↔ s ∈ settings)) ∧
      (fresh.putAll shuffled).2.frame = (fresh.putAll settings).2.frame ∧
      (fresh.putAll shuffled).2.frame.read .pic = 3 := by
  intro settings shuffled fresh
  have same : ∀ s : Setting, s.Fits → (s ∈ shuffled ↔ s ∈ settings) := by
    rintro ⟨field, number⟩ fits
    have bounds : 0 ≤ number ∧ number ≤ field.largest := fits
    cases field <;> simp [settings, shuffled, Field.largest] at bounds ⊢ <;> omega
  obtain ⟨-, made, -, alike, -, -, read⟩ :=
    frame_of_settings ({ link := () } : Transmitter Unit) settings
  have pic : (fresh.putAll settings).2.frame.read .pic = 3 := (read .pic).1
  have equal : (fresh.putAll shuffled).2.frame = (fresh.putAll settings).2.frame :=
    alike shuffled same
  exact ⟨congrArg Prod.fst made, by decide, same, equal, equal ▸ pic⟩

end Gait
