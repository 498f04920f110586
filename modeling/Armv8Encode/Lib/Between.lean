/-
  Armv8Encode.Lib.Between — bytes written out part by part.

  When a list of bytes is given as its parts, a slice or a patch at the length
  of what stands before a part is that part.  Trailing zeros tell two lists
  apart without their parts: the last byte that is not zero stands at the same
  distance from the end.
-/
import Armv8Encode.Lib.Bytes

namespace Armv8Encode.Lib

/-! ## §1. Parts. -/

theorem slice_between (before part after : List Byte) :
    slice (before ++ part ++ after) before.length part.length = part := by
  unfold slice
  rw [List.append_assoc, List.drop_left, List.take_left]

theorem patch_between (before after : List Byte) {old content : List Byte}
    (h : old.length = content.length) :
    patch (before ++ old ++ after) before.length content = before ++ content ++ after := by
  unfold patch
  rw [List.append_assoc before old after, List.take_left, ← List.drop_drop, List.drop_left,
    List.drop_left' h]

/-- Two patches, one behind the other. -/
theorem patch_patch {bytes a b : List Byte} {offset : Nat}
    (h : offset + a.length + b.length ≤ bytes.length) :
    patch (patch bytes offset a) (offset + a.length) b = patch bytes offset (a ++ b) := by
  have hfront : (bytes.take offset ++ a).length = offset + a.length := by
    rw [List.length_append, List.length_take]
    omega
  unfold patch
  rw [List.take_left' hfront, List.drop_append, hfront,
    List.drop_eq_nil_of_le (by omega), List.nil_append, List.drop_drop, List.length_append,
    List.append_assoc (bytes.take offset)]
  congr 2
  omega

theorem drop_patch {bytes content : List Byte} {offset n : Nat} (hn : offset + content.length ≤ n)
    (h : offset + content.length ≤ bytes.length) :
    (patch bytes offset content).drop n = bytes.drop n := by
  have hfront : (bytes.take offset ++ content).length = offset + content.length := by
    rw [List.length_append, List.length_take]
    omega
  unfold patch
  rw [List.drop_append, hfront, List.drop_eq_nil_of_le (by omega), List.nil_append, List.drop_drop]
  congr 1
  omega

theorem leValue_eq_zero {bytes : List Byte} (h : ∀ b ∈ bytes, b = 0) : leValue bytes = 0 := by
  induction bytes with
  | nil => rfl
  | cons b bytes ih =>
    rw [leValue_cons, h b List.mem_cons_self, ih fun x hx => h x (List.mem_cons_of_mem _ hx)]
    rfl

theorem leBytes_mod (count value : Nat) : leBytes count (value % 256 ^ count) = leBytes count value := by
  have h := leBytes_leValue (leBytes count value)
  rwa [leBytes_length, leValue_leBytes] at h

/-- The number at an offset, as its bytes. -/
theorem slice_of_readLe {count offset value : Nat} {bytes : List Byte}
    (h : readLe count bytes offset = some value) : slice bytes offset count = leBytes count value := by
  unfold readLe at h
  obtain ⟨hle, hvalue⟩ := Option.ite_none_right_eq_some.mp h
  have hback := leBytes_leValue (slice bytes offset count)
  rw [slice_length hle] at hback
  rw [← hback, Option.some.inj hvalue]

theorem readLe_lt {count offset value : Nat} {bytes : List Byte}
    (h : readLe count bytes offset = some value) : value < 256 ^ count := by
  unfold readLe at h
  obtain ⟨hle, hvalue⟩ := Option.ite_none_right_eq_some.mp h
  have hlt := leValue_lt (slice bytes offset count)
  rw [slice_length hle] at hlt
  rwa [Option.some.inj hvalue] at hlt

/-! ## §2. The last byte that is not zero. -/

/-- A byte at a distance from the end. -/
def fromEnd (bytes : List Byte) (i : Nat) : Option Byte := bytes.reverse[i]?

theorem fromEnd_append_right {a b : List Byte} {i : Nat} (h : i < b.length) :
    fromEnd (a ++ b) i = fromEnd b i := by
  unfold fromEnd
  rw [List.reverse_append, List.getElem?_append_left (by rwa [List.length_reverse])]

theorem fromEnd_append_left {a b : List Byte} {i : Nat} (h : b.length ≤ i) :
    fromEnd (a ++ b) i = fromEnd a (i - b.length) := by
  unfold fromEnd
  rw [List.reverse_append, List.getElem?_append_right (by rwa [List.length_reverse]),
    List.length_reverse]

theorem fromEnd_replicate {n i : Nat} (h : i < n) :
    fromEnd (List.replicate n (0 : Byte)) i = some 0 := by
  unfold fromEnd
  rw [List.reverse_replicate, List.getElem?_replicate, if_pos h]

/-- A list with a byte that is not zero has one at some distance from its end. -/
theorem exists_fromEnd {bytes : List Byte} {x : Byte} (hx : x ∈ bytes) :
    ∃ i < bytes.length, fromEnd bytes i = some x := by
  obtain ⟨i, hi⟩ := List.mem_iff_getElem?.mp (List.mem_reverse.mpr hx)
  have hlt := (List.getElem?_eq_some_iff.mp hi).1
  rw [List.length_reverse] at hlt
  exact ⟨i, hlt, hi⟩

/-- Lists with one end have the same bytes there. -/
theorem fromEnd_eq_of_drop {a b : List Byte} {n i : Nat} (h : a.drop n = b.drop n)
    (ha : n + i < a.length) (hlen : a.length = b.length) : fromEnd a i = fromEnd b i := by
  have hin : i < (a.drop n).length := by
    rw [List.length_drop]
    omega
  rw [← List.take_append_drop n a, ← List.take_append_drop n b, fromEnd_append_right hin, h,
    fromEnd_append_right (by rwa [← h])]

/-- Zeros behind `b` are not `c` in front of it: near the end the two differ,
no farther from it than a byte of `b` (of `c`, if `b` is empty) that is not
zero. -/
theorem fromEnd_ne_of_shift (a a' : List Byte) {b c : List Byte} {near : Nat} (hc : 0 < c.length)
    (hnear : near < (c ++ b).length) (hnonzero : ∃ x, fromEnd (c ++ b) near = some x ∧ x ≠ 0)
    (hcut : b = [] ∨ near < b.length) :
    ∃ i ≤ near, fromEnd (a ++ c ++ b) i ≠ fromEnd (a' ++ b ++ List.replicate c.length 0) i := by
  have hex : ∃ i, ∃ x, fromEnd (c ++ b) i = some x ∧ x ≠ 0 := ⟨near, hnonzero⟩
  classical
  obtain ⟨x, hx, hne⟩ := Nat.find_spec hex
  have hleast : ∀ j < Nat.find hex, fromEnd (c ++ b) j = some 0 := by
    intro j hj
    have hin : j < (c ++ b).length := by
      have := Nat.find_min' hex hnonzero
      omega
    have hsome : ∃ y, fromEnd (c ++ b) j = some y :=
      ⟨_, List.getElem?_eq_getElem (by rwa [List.length_reverse])⟩
    obtain ⟨y, hy⟩ := hsome
    have hzero : y = 0 := by
      by_contra hy0
      exact Nat.find_min hex hj ⟨y, hy, hy0⟩
    rw [hy, hzero]
  have hle : Nat.find hex ≤ near := Nat.find_min' hex hnonzero
  refine ⟨Nat.find hex, hle, ?_⟩
  rw [List.append_assoc a c b, fromEnd_append_right (by omega), hx]
  by_cases hzeros : Nat.find hex < c.length
  · rw [fromEnd_append_right (by rwa [List.length_replicate]), fromEnd_replicate hzeros]
    intro h
    exact hne (Option.some.inj h)
  · -- the moved part itself: the byte there stands behind the last non-zero one
    have hb : Nat.find hex - c.length < b.length := by
      rcases hcut with rfl | hlt
      · rw [List.append_nil] at hnear
        omega
      · omega
    have hmoved := hleast (Nat.find hex - c.length) (by omega)
    rw [fromEnd_append_right hb] at hmoved
    rw [fromEnd_append_left (by rw [List.length_replicate]; omega), List.length_replicate,
      fromEnd_append_right hb, hmoved]
    intro h
    exact hne (Option.some.inj h)

end Armv8Encode.Lib
