/-
  Armv8Encode.Lib.Bytes — numbers and patches in a list of bytes.

  A number of `count` bytes stands least byte first.  A patch overwrites a
  range and leaves the length; what a range holds after a patch is the patch
  itself, or what it held before if the two do not meet.
-/
import Armv8Encode.Lib.Words
import Mathlib.Data.Nat.Basic
import Mathlib.Tactic.Ring

namespace Armv8Encode.Lib

/-! ## §1. Little-endian numbers. -/

/-- The low `count` bytes of a value, least first. -/
def leBytes (count value : Nat) : List Byte :=
  (List.range count).map fun i => BitVec.ofNat 8 (value / 256 ^ i)

/-- The value of little-endian bytes. -/
def leValue (bytes : List Byte) : Nat :=
  bytes.foldr (fun b rest => b.toNat + 256 * rest) 0

@[simp] theorem leBytes_length (count value : Nat) : (leBytes count value).length = count := by
  simp [leBytes]

theorem leBytes_succ (count value : Nat) :
    leBytes (count + 1) value = BitVec.ofNat 8 value :: leBytes count (value / 256) := by
  unfold leBytes
  rw [List.range_succ_eq_map, List.map_cons, List.map_map, Nat.pow_zero, Nat.div_one]
  congr 1
  apply List.map_congr_left
  intro i _
  rw [Function.comp_apply, Nat.pow_succ', Nat.div_div_eq_div_mul]

@[simp] theorem leValue_cons (b : Byte) (bytes : List Byte) :
    leValue (b :: bytes) = b.toNat + 256 * leValue bytes := rfl

theorem leValue_lt (bytes : List Byte) : leValue bytes < 256 ^ bytes.length := by
  induction bytes with
  | nil => exact Nat.one_pos
  | cons b bytes ih =>
    have hb := b.isLt
    rw [leValue_cons, List.length_cons, Nat.pow_succ]
    omega

theorem leValue_leBytes (count value : Nat) : leValue (leBytes count value) = value % 256 ^ count := by
  induction count generalizing value with
  | zero => exact (Nat.mod_one value).symm
  | succ count ih =>
    have hsplit : value % 256 ^ (count + 1) = value % 256 + 256 * (value / 256 % 256 ^ count) := by
      rw [Nat.pow_succ', Nat.mod_mul]
    rw [leBytes_succ, leValue_cons, ih, BitVec.toNat_ofNat, hsplit]

theorem leBytes_leValue (bytes : List Byte) : leBytes bytes.length (leValue bytes) = bytes := by
  induction bytes with
  | nil => rfl
  | cons b bytes ih =>
    have hb := b.isLt
    rw [List.length_cons, leBytes_succ, leValue_cons]
    congr 1
    · apply BitVec.eq_of_toNat_eq
      rw [BitVec.toNat_ofNat]
      omega
    · rw [Nat.add_mul_div_left _ _ (by decide), Nat.div_eq_of_lt hb, Nat.zero_add, ih]

/-! ## §2. Ranges. -/

/-- The `count` bytes from an offset on, or what there is of them. -/
def slice (bytes : List Byte) (offset count : Nat) : List Byte := (bytes.drop offset).take count

theorem slice_length {bytes : List Byte} {offset count : Nat}
    (h : offset + count ≤ bytes.length) : (slice bytes offset count).length = count := by
  unfold slice
  rw [List.length_take, List.length_drop]
  omega

/-- The number at an offset, if its bytes are all there. -/
def readLe (count : Nat) (bytes : List Byte) (offset : Nat) : Option Nat :=
  if offset + count ≤ bytes.length then some (leValue (slice bytes offset count)) else none

/-- What is left of a number that stands between other bytes. -/
theorem readLe_between_mod (count value : Nat) (before after : List Byte) :
    readLe count (before ++ leBytes count value ++ after) before.length
      = some (value % 256 ^ count) := by
  have hslice : slice (before ++ leBytes count value ++ after) before.length count
      = leBytes count value := by
    unfold slice
    rw [List.append_assoc, List.drop_left, List.take_left' (leBytes_length _ _)]
  rw [readLe, if_pos (by simp), hslice, leValue_leBytes]

/-- The number that stands between other bytes. -/
theorem readLe_between {count value : Nat} (before after : List Byte) (h : value < 256 ^ count) :
    readLe count (before ++ leBytes count value ++ after) before.length = some value := by
  rw [readLe_between_mod, Nat.mod_eq_of_lt h]

/-- An element of an array of numbers that stands between other bytes. -/
theorem readLe_array {count i value : Nat} (before after : List Byte) {values : List Nat}
    (hvalues : ∀ v ∈ values, v < 256 ^ count) (hi : values[i]? = some value) :
    readLe count (before ++ values.flatMap (leBytes count) ++ after) (before.length + count * i)
      = some value := by
  obtain ⟨hlt, hget⟩ := List.getElem?_eq_some_iff.mp hi
  have hsplit : values = values.take i ++ value :: values.drop (i + 1) := by
    rw [← hget, ← List.drop_eq_getElem_cons hlt, List.take_append_drop]
  have hlength : (before ++ (values.take i).flatMap (leBytes count)).length
      = before.length + count * i := by
    rw [List.length_append, List.length_flatMap]
    simp [List.map_const', Nat.min_eq_left hlt.le, Nat.mul_comm]
  have hread := readLe_between (before ++ (values.take i).flatMap (leBytes count))
    ((values.drop (i + 1)).flatMap (leBytes count) ++ after)
    (hvalues value (List.mem_of_getElem? hi))
  rw [hlength] at hread
  rw [← hread]
  conv_lhs => rw [hsplit]
  simp [List.flatMap_append]
/-- Behind other bytes. -/
theorem readLe_append_left {count offset : Nat} (before bytes : List Byte) :
    readLe count (before ++ bytes) (before.length + offset) = readLe count bytes offset := by
  unfold readLe slice
  rw [List.length_append, List.drop_append, List.drop_eq_nil_of_le (Nat.le_add_right _ _),
    List.nil_append, Nat.add_sub_cancel_left]
  by_cases h : offset + count ≤ bytes.length
  · rw [if_pos h, if_pos (by omega)]
  · rw [if_neg h, if_neg (by omega)]

/-- Other bytes behind. -/
theorem readLe_append {count offset value : Nat} {bytes : List Byte}
    (h : readLe count bytes offset = some value) (more : List Byte) :
    readLe count (bytes ++ more) offset = some value := by
  unfold readLe slice at h ⊢
  obtain ⟨hle, h⟩ := Option.ite_none_right_eq_some.mp h
  rw [List.length_append, if_pos (by omega), ← h, List.drop_append_of_le_length (by omega),
    List.take_append_of_le_length (by rw [List.length_drop]; omega)]

/-! ## §3. Patches. -/

/-- The bytes with a range overwritten. -/
def patch (bytes : List Byte) (offset : Nat) (content : List Byte) : List Byte :=
  bytes.take offset ++ content ++ bytes.drop (offset + content.length)

theorem length_patch {bytes content : List Byte} {offset : Nat}
    (h : offset + content.length ≤ bytes.length) :
    (patch bytes offset content).length = bytes.length := by
  unfold patch
  rw [List.length_append, List.length_append, List.length_take, List.length_drop]
  omega

theorem slice_patch_self {bytes content : List Byte} {offset : Nat}
    (h : offset + content.length ≤ bytes.length) :
    slice (patch bytes offset content) offset content.length = content := by
  have htake : (bytes.take offset).length = offset := by
    rw [List.length_take]
    omega
  unfold slice patch
  rw [List.append_assoc, List.drop_left' htake, List.take_left]

/-- A range that the patch does not meet. -/
theorem slice_patch_of_apart {bytes content : List Byte} {offset at' count : Nat}
    (h : offset + content.length ≤ bytes.length)
    (hapart : at' + count ≤ offset ∨ offset + content.length ≤ at') :
    slice (patch bytes offset content) at' count = slice bytes at' count := by
  have htake : (bytes.take offset).length = offset := by
    rw [List.length_take]
    omega
  apply List.ext_getElem?
  intro i
  unfold slice
  rw [List.getElem?_take, List.getElem?_take]
  by_cases hi : i < count
  · rw [if_pos hi, if_pos hi, List.getElem?_drop, List.getElem?_drop]
    unfold patch
    obtain hbefore | hafter := hapart
    · rw [List.append_assoc, List.getElem?_append_left (by omega), List.getElem?_take,
        if_pos (by omega)]
    · rw [List.getElem?_append_right (by rw [List.length_append]; omega), List.length_append,
        htake, List.getElem?_drop]
      congr 1
      omega
  · rw [if_neg hi, if_neg hi]

theorem readLe_patch_self {bytes : List Byte} {offset count value : Nat}
    (h : offset + count ≤ bytes.length) :
    readLe count (patch bytes offset (leBytes count value)) offset = some (value % 256 ^ count) := by
  have hlen : (leBytes count value).length = count := leBytes_length count value
  unfold readLe
  rw [length_patch (by rw [hlen]; exact h), if_pos h]
  have hself : slice (patch bytes offset (leBytes count value)) offset
      (leBytes count value).length = leBytes count value :=
    slice_patch_self (by rw [hlen]; exact h)
  rw [hlen] at hself
  rw [hself, leValue_leBytes]

theorem readLe_patch_of_apart {bytes content : List Byte} {offset at' count : Nat}
    (h : offset + content.length ≤ bytes.length)
    (hapart : at' + count ≤ offset ∨ offset + content.length ≤ at') :
    readLe count (patch bytes offset content) at' = readLe count bytes at' := by
  unfold readLe
  rw [length_patch h, slice_patch_of_apart h hapart]

theorem readLe_isSome {bytes : List Byte} {offset count value : Nat}
    (h : readLe count bytes offset = some value) :
    offset + count ≤ bytes.length ∧ value < 256 ^ count := by
  unfold readLe at h
  obtain ⟨hlen, h⟩ := Option.ite_none_right_eq_some.mp h
  refine ⟨hlen, ?_⟩
  have hlt := leValue_lt (slice bytes offset count)
  rw [slice_length hlen] at hlt
  rwa [← Option.some.inj h]

/-- Patches in turn; none if one does not fit. -/
def patchAll (bytes : List Byte) : List (Nat × List Byte) → Option (List Byte)
  | [] => some bytes
  | p :: rest =>
    if bytes.length < p.1 + p.2.length then none else patchAll (patch bytes p.1 p.2) rest

/-- Two ranges of `count` bytes that do not meet. -/
def Apart (count a b : Nat) : Prop := a + count ≤ b ∨ b + count ≤ a

theorem readLe_patchAll_of_apart {count : Nat} {patches : List (Nat × List Byte)}
    {bytes out : List Byte} {offset : Nat} (h : patchAll bytes patches = some out)
    (hlen : ∀ p ∈ patches, p.2.length = count) (hapart : ∀ p ∈ patches, Apart count p.1 offset) :
    readLe count out offset = readLe count bytes offset := by
  induction patches generalizing bytes with
  | nil =>
    cases h
    rfl
  | cons p rest ih =>
    unfold patchAll at h
    split at h
    · cases h
    · next hfit =>
      have hp := hlen p List.mem_cons_self
      have hhead := hapart p List.mem_cons_self
      rw [ih h (fun q hq => hlen q (List.mem_cons_of_mem _ hq))
        fun q hq => hapart q (List.mem_cons_of_mem _ hq)]
      exact readLe_patch_of_apart (by omega) (by rw [hp]; exact hhead.symm)

/-- Patches that are apart from each other all stand in the end. -/
theorem readLe_patchAll {count : Nat} {patches : List (Nat × List Byte)} {bytes out : List Byte}
    (h : patchAll bytes patches = some out) (hlen : ∀ p ∈ patches, p.2.length = count)
    (hapart : ∀ p ∈ patches, ∀ q ∈ patches, p = q ∨ Apart count p.1 q.1)
    {p : Nat × List Byte} (hp : p ∈ patches) : readLe count out p.1 = some (leValue p.2) := by
  induction patches generalizing bytes with
  | nil => cases hp
  | cons q rest ih =>
    unfold patchAll at h
    split at h
    · cases h
    · next hfit =>
      have hlen' : ∀ p ∈ rest, p.2.length = count := fun p hp => hlen p (List.mem_cons_of_mem _ hp)
      by_cases hmem : p ∈ rest
      · exact ih h hlen' (fun p hp q hq => hapart p (List.mem_cons_of_mem _ hp) q
          (List.mem_cons_of_mem _ hq)) hmem
      · -- No later patch is the same one, so none meets it.
        obtain rfl : p = q := (List.mem_cons.mp hp).resolve_right hmem
        have hcount := hlen p List.mem_cons_self
        have hlater : ∀ r ∈ rest, Apart count r.1 p.1 := by
          intro r hr
          obtain rfl | hr' := hapart r (List.mem_cons_of_mem _ hr) p List.mem_cons_self
          · exact absurd hr hmem
          · exact hr'
        rw [readLe_patchAll_of_apart h hlen' hlater]
        unfold readLe
        rw [length_patch (by omega), if_pos (by omega), ← hcount, slice_patch_self (by omega)]

end Armv8Encode.Lib
