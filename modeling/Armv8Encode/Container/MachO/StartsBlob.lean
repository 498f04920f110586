/-
  Armv8Encode.Container.MachO.StartsBlob — the page starts of a new blob, read back.

  The starts of a segment say how many pages it has, in 16 bits, and where the
  chain of each begins.  They stand behind the table of the segments, which has
  their offsets, and a segment without starts has the offset zero.

  `readsAs_startsPayload`: the starts of one segment, wherever they stand.
  `readStartsInImage_blobBytes`: the starts of all.
-/
import Armv8Encode.Container.MachO.ChainedBlob
import Armv8Encode.Container.MachO.ChainedSlots

namespace Armv8Encode.MachO

open Lib

/-! ## §1. One segment. -/

/-- Bytes that are read as these starts, wherever they stand. -/
def ReadsAs (payload : List Byte) (starts : SegmentStarts) : Prop :=
  ∀ before after, readStarts (before ++ (payload ++ after)) before.length = some starts

/-- What the bytes of the starts hold. -/
def startsFields (format : PointerFormat) (pageSize fileoff size pageCount : Nat)
    (pageStarts : List Nat) : List Byte :=
  leBytes 4 size ++ leBytes 2 pageSize ++ leBytes 2 format.toRaw ++ leBytes 8 fileoff ++ leBytes 4 0
    ++ leBytes 2 pageCount ++ pageStarts.flatMap (leBytes 2)

theorem PointerFormat.fromRaw_toRaw (format : PointerFormat) :
    PointerFormat.fromRaw format.toRaw = some format := by
  cases format <;> rfl

theorem PointerFormat.toRaw_lt (format : PointerFormat) : format.toRaw < 256 ^ 2 := by
  cases format <;> decide

theorem readsAs_startsFields {format : PointerFormat} {pageSize pageCount : Nat}
    {pageStarts : List Nat} (fileoff size : Nat) (hsize : pageSize < 2 ^ 16)
    (hcount : pageCount % 2 ^ 16 ≤ pageStarts.length) (hstarts : ∀ s ∈ pageStarts, s < 2 ^ 16) :
    ReadsAs (startsFields format pageSize fileoff size pageCount pageStarts)
      ⟨BitVec.ofNat 16 pageSize, format,
        (pageStarts.take (pageCount % 2 ^ 16)).map (BitVec.ofNat 16)⟩ := by
  intro before after
  obtain ⟨blob, hblob⟩ : ∃ blob, blob = before
    ++ (startsFields format pageSize fileoff size pageCount pageStarts ++ after) := ⟨_, rfl⟩
  unfold startsFields at hblob
  have hpageSize : readLe 2 blob (before.length + 4) = some pageSize := by
    have h := @readLe_between 2 pageSize (before ++ leBytes 4 size)
      (leBytes 2 format.toRaw ++ leBytes 8 fileoff ++ leBytes 4 0 ++ leBytes 2 pageCount
        ++ pageStarts.flatMap (leBytes 2) ++ after) hsize
    rw [List.length_append, leBytes_length] at h
    rw [hblob, ← h]
    simp only [List.append_assoc]
  have hformat : readLe 2 blob (before.length + 6) = some format.toRaw := by
    have h := @readLe_between 2 _ (before ++ (leBytes 4 size ++ leBytes 2 pageSize))
      (leBytes 8 fileoff ++ leBytes 4 0 ++ leBytes 2 pageCount
        ++ pageStarts.flatMap (leBytes 2) ++ after) format.toRaw_lt
    rw [List.length_append, List.length_append, leBytes_length, leBytes_length] at h
    rw [hblob, ← h]
    simp only [List.append_assoc]
  have hpageCount : readLe 2 blob (before.length + 20) = some (pageCount % 2 ^ 16) := by
    have h := readLe_between_mod 2 pageCount (before ++ (leBytes 4 size ++ leBytes 2 pageSize
      ++ leBytes 2 format.toRaw ++ leBytes 8 fileoff ++ leBytes 4 0))
      (pageStarts.flatMap (leBytes 2) ++ after)
    simp only [List.length_append, leBytes_length] at h
    show readLe 2 blob (before.length + (4 + 2 + 2 + 8 + 4)) = some (pageCount % 256 ^ 2)
    rw [hblob, ← h]
    simp only [List.append_assoc]
  have hpage : ∀ (i s : Nat), (pageStarts.take (pageCount % 2 ^ 16))[i]? = some s →
      readLe 2 blob (before.length + 22 + 2 * i) = some s := by
    intro i s hs
    have hin : pageStarts[i]? = some s := by
      rw [List.getElem?_take] at hs
      exact (Option.ite_none_right_eq_some.mp hs).2
    have h := @readLe_array 2 i s (before ++ (leBytes 4 size ++ leBytes 2 pageSize
      ++ leBytes 2 format.toRaw ++ leBytes 8 fileoff ++ leBytes 4 0 ++ leBytes 2 pageCount))
      after _ hstarts hin
    simp only [List.length_append, leBytes_length] at h
    show readLe 2 blob (before.length + (4 + 2 + 2 + 8 + 4 + 2) + 2 * i) = some s
    rw [hblob, ← h]
    simp only [List.append_assoc]
  have hlength : (pageStarts.take (pageCount % 2 ^ 16)).length = pageCount % 2 ^ 16 := by
    rw [List.length_take, Nat.min_eq_left hcount]
  have hpages := mapM_range_eq_some hpage
  rw [hlength] at hpages
  show readStarts (before ++ (_ ++ after)) before.length = _
  unfold readStarts
  unfold startsFields
  rw [← hblob, hpageSize, hformat, hpageCount]
  simp only [Option.bind_eq_bind, Option.bind_some, PointerFormat.fromRaw_toRaw, hpages]

/-- **The starts of a segment are read as they were built.** -/
theorem readsAs_startsPayload {format : PointerFormat} {sf : SegmentFixups} {seg : MachOSegment}
    {payload : List Byte} (hsize : sf.pageSize < 2 ^ 16)
    (h : startsPayload format sf seg = some payload) :
    ∃ starts, buildStartsInSegment format sf seg = some starts ∧ ReadsAs payload starts := by
  obtain ⟨pageStarts, hpageStarts⟩ : ∃ pageStarts,
    pageStarts = (List.range (sf.pageCount seg)).map fun page => (sf.pageStart seg page).toNat :=
    ⟨_, rfl⟩
  have hcovered : (pageStarts.take (sf.pageCount seg % 2 ^ 16)).map (BitVec.ofNat 16)
      = (List.range (sf.pageCount seg % 2 ^ 16)).map (sf.pageStart seg) := by
    rw [hpageStarts, ← List.map_take, List.take_range, Nat.min_eq_left (Nat.mod_le _ _),
      List.map_map]
    refine List.map_congr_left fun page _ => ?_
    show BitVec.ofNat 16 (sf.pageStart seg page).toNat = _
    rw [BitVec.ofNat_toNat, BitVec.setWidth_eq]
  have hread := fun size => @readsAs_startsFields format sf.pageSize (sf.pageCount seg) pageStarts
    seg.fileoff size hsize
    (by
      rw [hpageStarts, List.length_map, List.length_range]
      exact Nat.mod_le _ _)
    (by
      intro s hs
      rw [hpageStarts] at hs
      obtain ⟨page, _, rfl⟩ := List.mem_map.mp hs
      exact BitVec.isLt _)
  rw [hcovered] at hread
  unfold startsPayload at h
  dsimp only at h
  unfold buildStartsInSegment
  by_cases hnone : sf.fixups = []
  · -- Without slots there are no pages.
    have hslots : sf.slots = [] := by
      unfold SegmentFixups.slots
      rw [hnone]
      rfl
    have hpages : sf.pages seg = [] := by
      unfold SegmentFixups.pages
      rw [hslots]
      rfl
    have hcount : sf.pageCount seg = 0 := by
      unfold SegmentFixups.pageCount
      rw [hnone]
      rfl
    have hempty : pageStarts = [] := by
      rw [hpageStarts, hcount]
      rfl
    rw [if_pos hnone] at h
    cases h
    refine ⟨_, if_pos (by rw [hpages]; rfl), ?_⟩
    have hfields := hread 22
    unfold startsFields at hfields
    rw [hempty, hcount] at hfields
    rw [hcount]
    simpa using hfields
  · rw [if_neg hnone] at h
    obtain ⟨_, h⟩ := Option.ite_none_left_eq_some.mp h
    obtain ⟨hsteps, h⟩ := Option.ite_none_right_eq_some.mp h
    cases h
    refine ⟨_, if_pos hsteps, ?_⟩
    have hfields := hread (22 + 2 * sf.pageCount seg)
    unfold startsFields at hfields
    rw [hpageStarts, List.flatMap_map] at hfields
    exact hfields

/-! ## §2. All segments. -/

/-- A payload at its offset; a segment without one has the offset zero. -/
def PlacedAt (cursor : Nat) (bytes : List Byte) (offset : Nat) : Option (List Byte) → Prop
  | none => offset = 0
  | some payload => ∃ before after, bytes = before ++ (payload ++ after)
    ∧ offset + 32 = cursor + before.length

theorem placePayloads_placed {cursor i : Nat} {payloads : List (Option (List Byte))}
    {payload : Option (List Byte)} (hcursor : 32 ≤ cursor) (hi : payloads[i]? = some payload) :
    ∃ offset, (placePayloads cursor payloads).1[i]? = some offset
      ∧ PlacedAt cursor (placePayloads cursor payloads).2 offset payload := by
  induction payloads generalizing cursor i with
  | nil => cases hi
  | cons first payloads ih =>
    cases first with
    | none =>
      cases i with
      | zero =>
        cases hi
        exact ⟨0, rfl, rfl⟩
      | succ i => exact ih hcursor hi
    | some first =>
      obtain ⟨next, hnext⟩ : ∃ next, next = (cursor + first.length + 3) / 4 * 4 := ⟨_, rfl⟩
      cases i with
      | zero =>
        cases hi
        refine ⟨cursor - 32, rfl, [], _, List.append_assoc _ _ _, ?_⟩
        rw [List.length_nil]
        omega
      | succ i =>
        obtain ⟨offset, hoffset, hplaced⟩ := @ih next i (by omega) hi
        refine ⟨offset, ?_, ?_⟩
        · rw [hnext] at hoffset
          exact hoffset
        · cases payload with
          | none => exact hplaced
          | some payload =>
            obtain ⟨before, after, hbytes, hstands⟩ := hplaced
            refine ⟨first ++ List.replicate (next - (cursor + first.length)) 0 ++ before, after,
              ?_, ?_⟩
            · show first ++ List.replicate ((cursor + first.length + 3) / 4 * 4
                - (cursor + first.length)) 0
                  ++ (placePayloads ((cursor + first.length + 3) / 4 * 4) payloads).2 = _
              rw [← hnext, hbytes]
              simp only [List.append_assoc]
            · simp only [List.length_append, List.length_replicate]
              omega

/-- **The starts of a new blob below 4 GiB** are those of its payloads. -/
theorem readStartsInImage_blobBytes {payloads : List (Option (List Byte))}
    {starts : List (Option SegmentStarts)} {imports : ImportsBlob}
    (hstarts : List.Forall₂ (Option.Rel ReadsAs) payloads starts)
    (hsmall : (blobBytes payloads imports).length < 2 ^ 32) :
    readStartsInImage (blobBytes payloads imports) 32 = some starts := by
  obtain ⟨offsets, bytes, hplace⟩ : ∃ offsets bytes,
    placePayloads (36 + 4 * payloads.length) payloads = (offsets, bytes) := ⟨_, _, rfl⟩
  obtain ⟨header, tail, hheader, hblob⟩ : ∃ header tail : List Byte, header.length = 32
      ∧ blobBytes payloads imports
        = header ++ (leBytes 4 payloads.length ++ (offsets.flatMap (leBytes 4) ++ (bytes ++ tail))) := by
    unfold blobBytes startsBytes
    rw [hplace]
    simp only [List.append_assoc]
    exact ⟨_, _, length_headerBytes _, rfl⟩
  obtain ⟨blob, hblobEq⟩ : ∃ blob, blob = blobBytes payloads imports := ⟨_, rfl⟩
  rw [← hblobEq] at hblob hsmall ⊢
  have hoffsetsLength : offsets.length = payloads.length := by
    have h := placePayloads_fst_length (36 + 4 * payloads.length) payloads
    rwa [hplace] at h
  have htable : (offsets.flatMap (leBytes 4)).length = 4 * payloads.length := by
    rw [List.length_flatMap]
    simp [hoffsetsLength, Nat.mul_comm]
  have hlength : blob.length = 36 + 4 * payloads.length + (bytes.length + tail.length) := by
    rw [hblob]
    simp only [List.length_append, leBytes_length, hheader, htable]
    omega
  have hplaced : ∀ (i : Nat) payload, payloads[i]? = some payload →
      ∃ offset, offsets[i]? = some offset
        ∧ PlacedAt (36 + 4 * payloads.length) bytes offset payload := by
    intro i payload hi
    have h := @placePayloads_placed (36 + 4 * payloads.length) i payloads payload (by omega) hi
    rwa [hplace] at h
  have hfit : ∀ offset ∈ offsets, offset < 256 ^ 4 := by
    intro offset hoffset
    obtain ⟨i, hi⟩ := List.mem_iff_getElem?.mp hoffset
    have hlt : i < payloads.length := by
      rw [← hoffsetsLength]
      exact (List.getElem?_eq_some_iff.mp hi).1
    obtain ⟨offset', hoffset', hat⟩ := hplaced i _ (List.getElem?_eq_getElem hlt)
    rw [hi] at hoffset'
    cases hoffset'
    cases hpayload : payloads[i] with
    | none =>
      rw [hpayload] at hat
      have : offset = 0 := hat
      omega
    | some payload =>
      rw [hpayload] at hat
      obtain ⟨before, after, hbytes, hstands⟩ := hat
      have hbefore : before.length ≤ bytes.length := by
        rw [hbytes, List.length_append]
        exact Nat.le_add_right _ _
      omega
  have hcount : readLe 4 blob 32 = some payloads.length := by
    have h := @readLe_between 4 payloads.length header
      (offsets.flatMap (leBytes 4) ++ (bytes ++ tail)) (by omega)
    rw [hheader] at h
    rw [hblob, ← h]
    simp only [List.append_assoc]
  unfold readStartsInImage
  rw [hcount, Option.bind_eq_bind, Option.bind_some, hstarts.length_eq]
  refine mapM_range_eq_some fun i start hstart => ?_
  obtain ⟨payload, hpayload, hrel⟩ := exists_getElem?_of_forall₂ hstarts.flip hstart
  obtain ⟨offset, hoffset, hat⟩ := hplaced i payload hpayload
  have hread : readLe 4 blob (32 + 4 + 4 * i) = some offset := by
    have h := @readLe_array 4 i offset (header ++ leBytes 4 payloads.length) (bytes ++ tail) _
      hfit hoffset
    rw [List.length_append, leBytes_length, hheader] at h
    rw [hblob, ← h]
    simp only [List.append_assoc]
  rw [hread, Option.bind_eq_bind, Option.bind_some]
  cases hrel with
  | none =>
    have hzero : offset = 0 := hat
    rw [if_pos hzero]
  | some hreads =>
    obtain ⟨before, after, hbytes, hstands⟩ := hat
    rw [if_neg (by omega)]
    have h := hreads (header ++ (leBytes 4 payloads.length ++ (offsets.flatMap (leBytes 4) ++ before)))
      (after ++ tail)
    simp only [List.length_append, leBytes_length, hheader, htable] at h
    have hplace : 32 + offset = 32 + (4 + (4 * payloads.length + before.length)) := by omega
    rw [hplace, hblob, hbytes]
    simp only [List.append_assoc] at h ⊢
    rw [h]
    rfl

end Armv8Encode.MachO
