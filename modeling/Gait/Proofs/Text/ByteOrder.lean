import Mathlib.Data.List.Lex
import Mathlib.Data.String.Basic
import Mathlib.Tactic.SplitIfs

/-!
# The order of texts by their bytes

Texts are compared character by character.  `lt_iff_bytes_lt` says that this is the order of the
bytes that encode them, since a smaller character has the smaller encoding, and none is the
beginning of another one's.
-/

namespace Gait.Text

/-- The bytes of a text in UTF-8. -/
def bytes (s : String) : List UInt8 := s.toUTF8.data.toList

theorem bytes_eq (s : String) : bytes s = s.toList.flatMap String.utf8EncodeChar := by
  rw [bytes, String.toUTF8_eq_toByteArray, ← String.utf8Encode_toList]
  simp [List.utf8Encode]

section Encoding

variable {a b : Nat}

theorem ofNat_lt_ofNat_iff (ha : a < 256) (hb : b < 256) :
    UInt8.ofNat a < UInt8.ofNat b ↔ a < b := by
  rw [UInt8.lt_iff_toNat_lt, UInt8.toNat_ofNat_of_lt' ha, UInt8.toNat_ofNat_of_lt' hb]

theorem ofNat_eq_ofNat_iff (ha : a < 256) (hb : b < 256) :
    UInt8.ofNat a = UInt8.ofNat b ↔ a = b := by
  rw [← UInt8.toNat_inj, UInt8.toNat_ofNat_of_lt' ha, UInt8.toNat_ofNat_of_lt' hb]

end Encoding

/-- The encodings of two characters differ in their order, whatever follows them. -/
theorem encoded_lt {c d : Char} (lt : c < d) (behind behind' : List UInt8) :
    String.utf8EncodeChar c ++ behind < String.utf8EncodeChar d ++ behind' := by
  have codes : c.val.toNat < d.val.toNat := UInt32.lt_iff_toNat_lt.1 lt
  have bounded : d.val.toNat < 0x110000 := by
    have valid := d.valid
    unfold UInt32.isValidChar Nat.isValidChar at valid
    omega
  unfold String.utf8EncodeChar
  generalize c.val.toNat = m at codes
  generalize d.val.toNat = n at codes bounded
  dsimp only
  -- The bytes hold digits to the base 64, behind a first one that tells how many there are.
  have two (k : Nat) : k / 4096 = k / 64 / 64 := (Nat.div_div_eq_div_mul k 64 64).symm
  have three (k : Nat) : k / 262144 = k / 64 / 64 / 64 := by rw [← two, Nat.div_div_eq_div_mul]
  rw [two, two, three, three]
  split_ifs <;>
    simp (disch := omega) only [List.cons_append, List.nil_append, List.cons_lt_cons_iff,
      ofNat_lt_ofNat_iff, ofNat_eq_ofNat_iff] <;>
    omega

theorem encoded_ne_nil (c : Char) : String.utf8EncodeChar c ≠ [] := by
  unfold String.utf8EncodeChar
  dsimp only
  split_ifs <;> nofun

theorem flatMap_encoded_lt {cs ds : List Char} (lt : cs < ds) :
    cs.flatMap String.utf8EncodeChar < ds.flatMap String.utf8EncodeChar := by
  induction lt with
  | nil =>
      obtain ⟨first, later, encoded⟩ := List.exists_cons_of_ne_nil (encoded_ne_nil _)
      rw [List.flatMap_nil, List.flatMap_cons, encoded]
      exact List.nil_lt_cons first _
  | cons _ ih =>
      rw [List.flatMap_cons, List.flatMap_cons]
      exact List.append_left_lt ih
  | rel lt => exact encoded_lt lt _ _

/-- Texts stand in the order of their bytes. -/
theorem lt_iff_bytes_lt (s t : String) : s < t ↔ bytes s < bytes t := by
  have mono {s t : String} (lt : s < t) : bytes s < bytes t := by
    rw [bytes_eq, bytes_eq]
    exact flatMap_encoded_lt (String.lt_iff_toList_lt.1 lt)
  refine ⟨mono, fun lt => ?_⟩
  rcases lt_trichotomy s t with before | rfl | behind
  · exact before
  · exact (List.lt_irrefl _ lt).elim
  · exact (List.lt_asymm lt (mono behind)).elim

end Gait.Text
