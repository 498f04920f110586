/-
  Armv8Encode.Lib.Words — machine words, fields of a word, little-endian bytes.

  A register-sized value is a `BitVec`; a *field* of a word is the run of
  `len` bits that starts at bit `lo`.  The file collects what the codecs
  need about fields: how reading a field and writing it back compose, how
  disjoint fields are told apart, and that four little-endian bytes
  determine a 32-bit word.

  Nothing here mentions an instruction set.
-/
import Mathlib.Data.Nat.Bitwise
import Mathlib.Data.BitVec

namespace Armv8Encode

/-! ## §1. Word types. -/

/-- One byte of a byte string. -/
abbrev Byte := BitVec 8

/-- A raw 32-bit instruction word. -/
abbrev Word := BitVec 32

/-- A 64-bit address, size or offset; arithmetic on it wraps. -/
abbrev U64 := BitVec 64

namespace Lib

/-! ## §2. Fields. -/

/-- The `len` bits of `w` from bit `lo` on, as a word of the same width. -/
def field {n : Nat} (w : BitVec n) (lo len : Nat) : BitVec n :=
  (w >>> lo) &&& BitVec.ofNat n (2 ^ len - 1)

/-- The word whose set bits are exactly the `len` bits from bit `lo` on. -/
def fieldMask (n lo len : Nat) : BitVec n :=
  BitVec.ofNat n (2 ^ len - 1) <<< lo

theorem getLsbD_ones {n len i : Nat} (hlen : len ≤ n) :
    (BitVec.ofNat n (2 ^ len - 1)).getLsbD i = decide (i < len) := by
  rw [BitVec.getLsbD_ofNat, Nat.testBit_two_pow_sub_one]
  by_cases hi : i < len
  · simp [hi, lt_of_lt_of_le hi hlen]
  · simp [hi]

theorem getLsbD_field {n : Nat} (w : BitVec n) {lo len i : Nat} (hlen : len ≤ n) :
    (field w lo len).getLsbD i = (decide (i < len) && w.getLsbD (lo + i)) := by
  simp only [field, BitVec.getLsbD_and, BitVec.getLsbD_ushiftRight, getLsbD_ones hlen]
  exact Bool.and_comm _ _

theorem getLsbD_fieldMask {n lo len i : Nat} (hlen : len ≤ n) :
    (fieldMask n lo len).getLsbD i
      = (decide (i < n) && decide (lo ≤ i) && decide (i < lo + len)) := by
  simp only [fieldMask, BitVec.getLsbD_shiftLeft, getLsbD_ones hlen]
  by_cases h1 : i < n <;> by_cases h2 : lo ≤ i <;> by_cases h3 : i < lo + len <;>
    simp [h1, h2, h3] <;> omega

/-- Reading a field and shifting it back masks the word to that field. -/
theorem field_shiftLeft {n : Nat} (w : BitVec n) {lo len : Nat} (hlen : len ≤ n) :
    field w lo len <<< lo = w &&& fieldMask n lo len := by
  apply BitVec.eq_of_getLsbD_eq
  intro i hi
  simp only [BitVec.getLsbD_shiftLeft, BitVec.getLsbD_and, getLsbD_field w hlen,
    getLsbD_fieldMask hlen]
  by_cases h2 : lo ≤ i
  · have e : lo + (i - lo) = i := by omega
    by_cases h3 : i < lo + len
    · have h4 : i - lo < len := by omega
      have h5 : ¬ i < lo := by omega
      simp [hi, h2, h3, h4, h5, e]
    · have h4 : ¬ i - lo < len := by omega
      simp [h3, h4]
  · have h5 : i < lo := by omega
    simp [h2, h5]

/-- A field, as a word of its own width. -/
theorem field_eq_setWidth {n : Nat} (w : BitVec n) {lo len : Nat} (hlen : len ≤ n) :
    field w lo len = (w.extractLsb' lo len).setWidth n := by
  apply BitVec.eq_of_getLsbD_eq
  intro i hi
  rw [getLsbD_field w hlen, BitVec.getLsbD_setWidth, BitVec.getLsbD_extractLsb']
  simp [hi]

theorem toNat_field {n : Nat} (w : BitVec n) {lo len : Nat} (hlen : len ≤ n) :
    (field w lo len).toNat = (w.extractLsb' lo len).toNat := by
  rw [field_eq_setWidth w hlen, BitVec.toNat_setWidth]
  exact Nat.mod_eq_of_lt (lt_of_lt_of_le (BitVec.isLt _) (Nat.pow_le_pow_right (by omega) hlen))

/-- A value shifted to a field reads back from there. -/
theorem extractLsb'_shiftLeft_same {n : Nat} (x : BitVec n) {lo len : Nat} (h : lo + len ≤ n) :
    (x <<< lo).extractLsb' lo len = x.setWidth len := by
  apply BitVec.eq_of_getLsbD_eq
  intro i hi
  have h1 : lo + i < n := by omega
  have h2 : ¬ lo + i < lo := by omega
  simp only [BitVec.getLsbD_extractLsb', BitVec.getLsbD_shiftLeft, BitVec.getLsbD_setWidth, hi, h1,
    h2, decide_true, decide_false, Bool.not_false, Bool.true_and, Nat.add_sub_cancel_left]

/-- A value shifted to a field leaves every other field zero. -/
theorem extractLsb'_shiftLeft_disjoint {n : Nat} {x : BitVec n} {width lo lo' len : Nat}
    (hx : x.toNat < 2 ^ width) (h : lo + width ≤ lo' ∨ lo' + len ≤ lo) :
    (x <<< lo).extractLsb' lo' len = 0#(len) := by
  apply BitVec.eq_of_getLsbD_eq
  intro i hi
  simp only [BitVec.getLsbD_extractLsb', BitVec.getLsbD_shiftLeft, BitVec.getLsbD_zero]
  by_cases hlow : lo' + i < lo
  · simp [hlow]
  · have hzero : x.getLsbD (lo' + i - lo) = false := by
      refine Nat.testBit_lt_two_pow (lt_of_lt_of_le hx (Nat.pow_le_pow_right (by omega) ?_))
      omega
    simp [hzero]

/-- Masking to the low bits keeps the value modulo their number. -/
theorem setWidth_and_ones {n : Nat} (x : BitVec n) {len : Nat} (hlen : len ≤ n) :
    (x &&& BitVec.ofNat n (2 ^ len - 1)).setWidth len = x.setWidth len := by
  apply BitVec.eq_of_getLsbD_eq
  intro i hi
  simp [getLsbD_ones hlen, hi]

theorem toNat_and_ones_lt {n : Nat} (x : BitVec n) {len : Nat} (hlen : len ≤ n) :
    (x &&& BitVec.ofNat n (2 ^ len - 1)).toNat < 2 ^ len := by
  have hle : 2 ^ len ≤ 2 ^ n := Nat.pow_le_pow_right (by omega) hlen
  have hpos : 0 < 2 ^ len := Nat.two_pow_pos len
  rw [BitVec.toNat_and, BitVec.toNat_ofNat, Nat.mod_eq_of_lt (by omega)]
  exact lt_of_le_of_lt Nat.and_le_right (by omega)

theorem setWidth_ofInt {n len : Nat} (v : Int) (hlen : len ≤ n) :
    (BitVec.ofInt n v).setWidth len = BitVec.ofInt len v := by
  apply BitVec.eq_of_toNat_eq
  rw [BitVec.toNat_setWidth, BitVec.toNat_ofInt, BitVec.toNat_ofInt]
  have hdvd : ((2 ^ len : Nat) : Int) ∣ ((2 ^ n : Nat) : Int) :=
    Int.natCast_dvd_natCast.mpr (pow_dvd_pow 2 hlen)
  have hn : (0 : Int) < ((2 ^ n : Nat) : Int) := by exact_mod_cast Nat.two_pow_pos n
  have hl : (0 : Int) < ((2 ^ len : Nat) : Int) := by exact_mod_cast Nat.two_pow_pos len
  have h1 := Int.emod_nonneg v hn.ne'
  have h2 := Int.emod_nonneg v hl.ne'
  have h3 := Int.emod_emod_of_dvd v hdvd
  apply Int.natCast_inj.mp
  rw [Int.natCast_mod, Int.toNat_of_nonneg h1, Int.toNat_of_nonneg h2, h3]

/-- Shifting up and back down with the sign extends the sign of the low bits. -/
theorem sshiftRight_shiftLeft {n k : Nat} (x : BitVec n) (hpos : 0 < k) (hle : k ≤ n) :
    (x <<< (n - k)).sshiftRight (n - k) = (x.setWidth k).signExtend n := by
  have hmsb : (x.setWidth k).msb = x.getLsbD (k - 1) := by
    rw [BitVec.msb_eq_getLsbD_last, BitVec.getLsbD_setWidth]
    simp [show k - 1 < k by omega]
  have htop : (x <<< (n - k)).msb = x.getLsbD (k - 1) := by
    rw [BitVec.msb_eq_getLsbD_last, BitVec.getLsbD_shiftLeft]
    have hsub : n - 1 - (n - k) = k - 1 := by omega
    simp [show n - 1 < n by omega, show ¬ n - 1 < n - k by omega, hsub]
  apply BitVec.eq_of_getLsbD_eq
  intro i hi
  rw [BitVec.getLsbD_sshiftRight, BitVec.getLsbD_signExtend, hmsb, htop, BitVec.getLsbD_setWidth,
    BitVec.getLsbD_shiftLeft, decide_eq_true hi]
  by_cases hlow : i < k
  · have hadd : n - k + i - (n - k) = i := by omega
    simp [hlow, show ¬ n ≤ i by omega, show n - k + i < n by omega, hadd]
  · simp [hlow, show ¬ n ≤ i by omega, show ¬ n - k + i < n by omega]

/-- A sign extension in two steps. -/
theorem signExtend_signExtend {k m n : Nat} (x : BitVec k) (hkm : k ≤ m) (hmn : m ≤ n) :
    (x.signExtend m).signExtend n = x.signExtend n := by
  apply BitVec.eq_of_toInt_eq
  rw [BitVec.toInt_signExtend_of_le hmn, BitVec.toInt_signExtend_of_le hkm,
    BitVec.toInt_signExtend_of_le (hkm.trans hmn)]

/-! ## §3. Little-endian bytes. -/

/-- Rust's `u32::to_le_bytes`. -/
def toLeBytes (w : Word) : List Byte :=
  [w.extractLsb' 0 8, w.extractLsb' 8 8, w.extractLsb' 16 8, w.extractLsb' 24 8]

/-- Rust's `u32::from_le_bytes` on four bytes. -/
def fromLeBytes (b0 b1 b2 b3 : Byte) : Word :=
  b3 ++ b2 ++ b1 ++ b0

/-- Read the little-endian word at the head of a byte string, if four bytes are there. -/
def leWord? : List Byte → Option Word
  | b0 :: b1 :: b2 :: b3 :: _ => some (fromLeBytes b0 b1 b2 b3)
  | _ => none

@[simp] theorem toLeBytes_length (w : Word) : (toLeBytes w).length = 4 := rfl

theorem fromLeBytes_toLeBytes (w : Word) :
    fromLeBytes (w.extractLsb' 0 8) (w.extractLsb' 8 8) (w.extractLsb' 16 8)
      (w.extractLsb' 24 8) = w := by
  apply BitVec.eq_of_getLsbD_eq
  intro i hi
  simp only [fromLeBytes, BitVec.getLsbD_append, BitVec.getLsbD_extractLsb']
  have hi' : i < 8 ∨ (8 ≤ i ∧ i < 16) ∨ (16 ≤ i ∧ i < 24) ∨ (24 ≤ i ∧ i < 32) := by omega
  rcases hi' with h | ⟨h, h'⟩ | ⟨h, h'⟩ | ⟨h, h'⟩
  · simp [h]
  · have e : 8 + (i - 8) = i := by omega
    have h1 : i - 8 < 8 := by omega
    have h2 : ¬ i < 8 := by omega
    simp [h1, h2, e]
  · have e : 16 + (i - 8 - 8) = i := by omega
    have h1 : ¬ i - 8 < 8 := by omega
    have h2 : ¬ i < 8 := by omega
    have h3 : i - 8 - 8 < 8 := by omega
    simp [h1, h2, h3, e]
  · have e : 24 + (i - 8 - 8 - 8) = i := by omega
    have h1 : ¬ i - 8 < 8 := by omega
    have h2 : ¬ i < 8 := by omega
    have h3 : ¬ i - 8 - 8 < 8 := by omega
    have h4 : i - 8 - 8 - 8 < 8 := by omega
    simp [h1, h2, h3, h4, e]

/-- A word read back from its own little-endian bytes, whatever follows them. -/
@[simp] theorem leWord?_toLeBytes_append (w : Word) (rest : List Byte) :
    leWord? (toLeBytes w ++ rest) = some w := by
  simp [toLeBytes, leWord?, fromLeBytes_toLeBytes]

/-- Four bytes are the little-endian bytes of the word they spell. -/
theorem toLeBytes_fromLeBytes (b0 b1 b2 b3 : Byte) :
    toLeBytes (fromLeBytes b0 b1 b2 b3) = [b0, b1, b2, b3] := by
  have h0 : (fromLeBytes b0 b1 b2 b3).extractLsb' 0 8 = b0 := by
    apply BitVec.eq_of_getLsbD_eq
    intro i hi
    simp only [fromLeBytes, BitVec.getLsbD_extractLsb', BitVec.getLsbD_append]
    simp [hi]
  have h1 : (fromLeBytes b0 b1 b2 b3).extractLsb' 8 8 = b1 := by
    apply BitVec.eq_of_getLsbD_eq
    intro i hi
    have e : 8 + i - 8 = i := by omega
    simp only [fromLeBytes, BitVec.getLsbD_extractLsb', BitVec.getLsbD_append]
    simp [hi, e]
  have h2 : (fromLeBytes b0 b1 b2 b3).extractLsb' 16 8 = b2 := by
    apply BitVec.eq_of_getLsbD_eq
    intro i hi
    have e : 16 + i - 8 - 8 = i := by omega
    have n1 : ¬ 16 + i < 8 := by omega
    have n2 : ¬ 16 + i - 8 < 8 := by omega
    simp only [fromLeBytes, BitVec.getLsbD_extractLsb', BitVec.getLsbD_append]
    simp [hi, e, n1, n2]
  have h3 : (fromLeBytes b0 b1 b2 b3).extractLsb' 24 8 = b3 := by
    apply BitVec.eq_of_getLsbD_eq
    intro i hi
    have e : 24 + i - 8 - 8 - 8 = i := by omega
    have n1 : ¬ 24 + i < 8 := by omega
    have n2 : ¬ 24 + i - 8 < 8 := by omega
    have n3 : ¬ 24 + i - 8 - 8 < 8 := by omega
    simp only [fromLeBytes, BitVec.getLsbD_extractLsb', BitVec.getLsbD_append]
    simp [hi, e, n1, n2, n3]
  rw [toLeBytes, h0, h1, h2, h3]

end Lib

end Armv8Encode
