/-
  Armv8Encode.Isa.Armv7.UneditedRewrite — rewriting final Thumb or ARM text
  without edits.

  Every instruction is copied at its own address, by the size its mnemonic
  implies.  In ARM mode that is always four bytes.  In Thumb a mnemonic with a
  32-bit row implies four bytes, so that a 16-bit instruction of it is copied
  with the two bytes that follow it, and the output is longer than the
  section.  Only at the very end of the section, where two bytes are missing,
  is such an instruction encoded.
-/
import Armv8Encode.Isa.Armv7.SweepSpec

namespace Armv8Encode.Armv7

open Lib

/-! ## §1. The rewrite. -/

namespace Thumb

/-- Sweep a text section, lift it, lay it out at its address and emit it. -/
def rewriteUnedited (c : Container) (s : Section) :
    Except (PipelineError DisassembleError EncodeError) EmitOutput :=
  thumb.rewrite info (disassembleBytes s.address s.bytes) s.address (some c)

theorem plain : thumb.Plain info := ⟨fun _ _ _ _ => rfl, rfl⟩

theorem thumb_decode (address : U64) (bytes : List Byte) : thumb.decode address bytes = none := rfl

/-- The size the mnemonic implies is the instruction's own. -/
def HasImpliedSize (d : DecodedInstruction) : Prop :=
  instructionSourceSize d.mnemonic = BitVec.ofNat 64 (sizeBytes d.width)

instance (d : DecodedInstruction) : Decidable (HasImpliedSize d) :=
  inferInstanceAs (Decidable (_ = _))

/-- The last instruction of the section needs no relocation, and its mnemonic
encodes its operands, at the addresses that lift bound them to, to its own bytes. -/
structure EncodedBack (c : Container) (s : Section) (ds : List DecodedInstruction)
    (d : DecodedInstruction) : Prop where
  last : d.address + BitVec.ofNat 64 (sizeBytes d.width)
    = s.address + BitVec.ofNat 64 s.bytes.length
  unrelocated : (sweptContext info ds s.address (some c)).relocationOf (E := EncodeError)
    (thumb.liftOf info ds (some c) d) = .ok none
  encoded : ∃ operands, lowerOperands (E := EncodeError) thumb
      (sweptContext info ds s.address (some c)).blockAddresses (some c)
      (thumb.liftOf info ds (some c) d).operands = .ok operands ∧
    encodeBytes d.mnemonic operands d.address = .ok d.source

end Thumb

namespace Arm

/-- Sweep a text section, lift it, lay it out at its address and emit it. -/
def rewriteUnedited (c : Container) (s : Section) :
    Except (PipelineError DisassembleError EncodeError) EmitOutput :=
  arm.rewrite info (disassembleBytes s.address s.bytes) s.address (some c)

theorem plain : arm.Plain info := ⟨fun _ _ _ _ => rfl, rfl⟩

end Arm

/-! ## §2. Sizes. -/

namespace Thumb

theorem instructionSourceSize_nop : instructionSourceSize .nop = 4 := by decide

theorem instructionSourceSize_bounds (mnemonic : ThumbMnemonic) :
    2 ≤ (instructionSourceSize mnemonic).toNat ∧ (instructionSourceSize mnemonic).toNat ≤ 4 := by
  unfold instructionSourceSize
  split <;> decide

/-- A mnemonic never implies less than the instruction's own size. -/
theorem sizeBytes_le_instructionSourceSize {address : U64} {word : Word} {width : ThumbWidth}
    {d : DecodedInstruction} (h : decodeOne address word width = .ok d) :
    sizeBytes d.width ≤ (instructionSourceSize d.mnemonic).toNat := by
  have htwo := (instructionSourceSize_bounds d.mnemonic).1
  cases hwidth : d.width with
  | halfword => exact htwo
  | word =>
    have hfour : instructionSourceSize d.mnemonic = 4 := by
      unfold decodeOne at h
      split at h
      · next row hrow =>
        cases h
        have hmatch := List.find?_some hrow
        simp only [Bool.and_eq_true, beq_iff_eq] at hmatch
        refine if_pos (List.any_eq_true.mpr ⟨row, List.mem_of_find?_eq_some hrow, ?_⟩)
        rw [hmatch.1, show width = .word from hwidth]
        simp
      · split at h
        · cases h
        · split at h
          · cases h
            exact instructionSourceSize_nop
          · cases h
    rw [hfour]
    decide

theorem hasImpliedSize_iff {d : DecodedInstruction} :
    HasImpliedSize d ↔ (instructionSourceSize d.mnemonic).toNat = sizeBytes d.width := by
  unfold HasImpliedSize
  constructor
  · intro h
    rw [h]
    cases d.width <;> rfl
  · intro h
    apply BitVec.eq_of_toNat_eq
    rw [h]
    cases d.width <;> rfl

theorem two_le_sizeBytes (width : ThumbWidth) : 2 ≤ sizeBytes width := by
  cases width <;> decide

/-- An encoded instruction has at least two bytes. -/
theorem length_encodeBytes {mnemonic : ThumbMnemonic} {operands : List DecodedOperand}
    {address : U64} {bytes : List Byte} (h : encodeBytes mnemonic operands address = .ok bytes) :
    2 ≤ bytes.length := by
  obtain ⟨⟨word, width⟩, -, h⟩ := bind_eq_ok.mp h
  cases h
  rw [length_wordOf]
  exact two_le_sizeBytes width

end Thumb

/-! ## §3. Thumb: what is emitted is at least as long. -/

namespace Thumb

variable {c : Container} {s : Section} {all : List DecodedInstruction}

/-- What the instructions of the section are emitted against. -/
abbrev context (c : Container) (s : Section) (all : List DecodedInstruction) : EmitContext :=
  sweptContext info all s.address (some c)

abbrev op (c : Container) (all : List DecodedInstruction) (d : DecodedInstruction) :
    RewriteOp ThumbMnemonic Register DecodedOperand MacroKind :=
  thumb.opOf info all (some c) d

/-- An instruction of a sweep, `done` bytes into the section. -/
structure StandsAt (s : Section) (done : List Byte) (d : DecodedInstruction)
    (rest : List DecodedInstruction) : Prop where
  decoded : decodeOne d.address d.word d.width = .ok d
  address : d.address = s.address + BitVec.ofNat 64 done.length
  bytes : s.bytes = done ++ (d.source ++ rest.flatMap DecodedInstruction.source)

namespace StandsAt

variable {done : List Byte} {d : DecodedInstruction} {rest : List DecodedInstruction}

theorem drop_eq (h : StandsAt s done d rest) :
    s.bytes.drop done.length = d.source ++ rest.flatMap DecodedInstruction.source := by
  rw [h.bytes, List.drop_left]

theorem lt_length (h : StandsAt s done d rest) : done.length < s.bytes.length := by
  have hpos := two_le_sizeBytes d.width
  rw [h.bytes, List.length_append, List.length_append, length_source]
  omega

/-- An instruction that is followed by another one is copied. -/
theorem fits_of_cons {d' : DecodedInstruction} {rest' : List DecodedInstruction}
    (h : StandsAt s done d (d' :: rest')) :
    (instructionSourceSize d.mnemonic).toNat ≤ (s.bytes.drop done.length).length := by
  have hpos := two_le_sizeBytes d.width
  have hpos' := two_le_sizeBytes d'.width
  rw [h.drop_eq, List.flatMap_cons, List.length_append, List.length_append, length_source,
    length_source]
  have hfour := (instructionSourceSize_bounds d.mnemonic).2
  omega

theorem start (hbytes : s.bytes = done ++ (d :: rest).flatMap DecodedInstruction.source)
    (hruns : thumb.RunsFrom (s.address + BitVec.ofNat 64 done.length) (d :: rest))
    (hdecoded : ∀ d' ∈ d :: rest, decodeOne d'.address d'.word d'.width = .ok d') :
    StandsAt s done d rest :=
  ⟨hdecoded d List.mem_cons_self, hruns.1, by rw [hbytes, List.flatMap_cons]⟩

theorem next_bytes (h : StandsAt s done d rest) :
    s.bytes = (done ++ d.source) ++ rest.flatMap DecodedInstruction.source := by
  rw [h.bytes, List.append_assoc]

theorem next_runs (hruns : thumb.RunsFrom (s.address + BitVec.ofNat 64 done.length) (d :: rest)) :
    thumb.RunsFrom (s.address + BitVec.ofNat 64 (done ++ d.source).length) rest := by
  rw [List.length_append, BitVec.ofNat_add, ← BitVec.add_assoc, length_source]
  exact hruns.2

/-- An instruction is the last one exactly when it ends where the section ends. -/
theorem last_iff (hs : FinalText c s) (h : StandsAt s done d rest) :
    d.address + BitVec.ofNat 64 (sizeBytes d.width) = s.address + BitVec.ofNat 64 s.bytes.length
      ↔ rest.flatMap DecodedInstruction.source = [] := by
  have hlength : s.bytes.length = done.length + (sizeBytes d.width
      + (rest.flatMap DecodedInstruction.source).length) := by
    rw [h.bytes, List.length_append, List.length_append, length_source]
  have hpos := two_le_sizeBytes d.width
  have hwrap := hs.first.no_wrap hs.member (k := s.bytes.length - 1) (by omega)
  rw [h.address, BitVec.add_assoc, ← BitVec.ofNat_add, ← List.length_eq_zero_iff]
  constructor
  · intro heq
    have hmod := congrArg BitVec.toNat ((BitVec.add_right_inj _).mp heq)
    rw [BitVec.toNat_ofNat, BitVec.toNat_ofNat] at hmod
    omega
  · intro hnil
    rw [hlength, hnil, Nat.add_zero]

/-- What is too short to copy is the section's last halfword. -/
theorem last_of_short (h : StandsAt s done d rest)
    (hshort : (s.bytes.drop done.length).length < (instructionSourceSize d.mnemonic).toNat) :
    rest = [] := by
  cases rest with
  | nil => rfl
  | cons d' rest' => exact absurd h.fits_of_cons (Nat.not_le.mpr hshort)

theorem source_length_of_short (h : StandsAt s done d rest)
    (hshort : (s.bytes.drop done.length).length < (instructionSourceSize d.mnemonic).toNat) :
    d.source.length = 2 := by
  have hfour := (instructionSourceSize_bounds d.mnemonic).2
  rw [h.drop_eq, List.length_append, length_source] at hshort
  rw [length_source]
  cases hw : d.width with
  | halfword => rfl
  | word =>
    rw [hw, show sizeBytes .word = 4 from rfl] at hshort
    omega

end StandsAt

variable (all) in
/-- Copied: the bytes from the instruction on, as many as its mnemonic implies. -/
theorem emitOp_copied (hs : FinalText c s) {done : List Byte} {d : DecodedInstruction}
    {rest : List DecodedInstruction} (hat : StandsAt s done d rest)
    (hsettles : thumb.SettlesInPlace c d)
    (hfits : (instructionSourceSize d.mnemonic).toNat ≤ (s.bytes.drop done.length).length)
    (out : EmitOutput) :
    emitOp thumb (op c all d) (thumb.ownLayout d) (context c s all) out
      = .ok { out with bytes := out.bytes
                ++ (s.bytes.drop done.length).take (instructionSourceSize d.mnemonic).toNat } := by
  obtain ⟨reloc, hreloc⟩ : ∃ reloc, (context c s all).relocationOf (E := EncodeError)
      (thumb.liftOf info all (some c) d) = .ok reloc :=
    relocationOf_lifted hsettles rfl
  exact emitInstruction_copied thumb_decode hs rfl hreloc hat.address hat.lt_length rfl hfits _ _ out

/-- A placeholder leaves a relocation and at least two bytes. -/
theorem emitWithRelocation_grows {i : RewriteInstruction ThumbMnemonic DecodedOperand}
    {here : U64} {symbol : SymbolId} {kind : PcRelKind} {out out' : EmitOutput}
    (h : emitWithRelocation thumb i here symbol kind out = .ok out') :
    out.bytes.length + 2 ≤ out'.bytes.length ∧ out'.relocations ≠ out.relocations := by
  unfold emitWithRelocation at h
  split at h
  · cases h
  · split at h
    · cases h
    · next bytes hbytes =>
      cases h
      have hlength : 2 ≤ bytes.length := length_encodeBytes hbytes
      refine ⟨by simpa using hlength, ?_⟩
      simp

/-- What is emitted for an instruction the section ends too early to copy. -/
theorem emitOp_short (hs : FinalText c s) {done : List Byte} {d : DecodedInstruction}
    {rest : List DecodedInstruction} (hat : StandsAt s done d rest)
    (hshort : (s.bytes.drop done.length).length < (instructionSourceSize d.mnemonic).toNat)
    {out out' : EmitOutput}
    (h : emitOp thumb (op c all d) (thumb.ownLayout d) (context c s all) out = .ok out') :
    (out.bytes.length + 2 ≤ out'.bytes.length ∧ out'.relocations ≠ out.relocations) ∨
      ∃ bytes, (context c s all).relocationOf (E := EncodeError) (thumb.liftOf info all (some c) d)
          = .ok none ∧
        emitEncoded thumb (thumb.liftOf info all (some c) d) (thumb.ownLayout d) (context c s all)
          = .ok bytes ∧
        out' = { out with bytes := out.bytes ++ bytes } := by
  have hnot : verbatimBytes thumb (thumb.liftOf info all (some c) d) d.address
      (context c s all).blockAddresses (some c) = none :=
    verbatimBytes_short thumb_decode hs hat.address hat.lt_length rfl hshort
  cases emitInstruction_iff.mp h with
  | verbatim reloc raw hreloc hkeeps hcopied houtput =>
    exact absurd (hnot.symm.trans hcopied) (by simp)
  | placeholder symbol kind hreloc hkeeps hplaceholder =>
    exact .inl (emitWithRelocation_grows hplaceholder)
  | encoded bytes hreloc _ hencoded houtput => exact .inr ⟨bytes, hreloc, hencoded, houtput⟩

/-- An instruction encoded where it stands. -/
theorem emitEncoded_own {d : DecodedInstruction} {bytes : List Byte} :
    emitEncoded thumb (thumb.liftOf info all (some c) d) (thumb.ownLayout d) (context c s all)
        = .ok bytes ↔
      ∃ operands, lowerOperands (E := EncodeError) thumb (context c s all).blockAddresses (some c)
          (thumb.liftOf info all (some c) d).operands = .ok operands ∧
        encodeBytes d.mnemonic operands d.address = .ok bytes := by
  unfold emitEncoded
  simp only [Isa.ownLayout]
  constructor
  · intro h
    obtain ⟨operands, hoperands, h⟩ := bind_eq_ok.mp h
    refine ⟨operands, hoperands, ?_⟩
    split at h
    · cases h
    · next hbytes =>
      cases h
      exact hbytes
  · rintro ⟨operands, hoperands, hbytes⟩
    refine bind_eq_ok.mpr ⟨operands, hoperands, ?_⟩
    have hencode : thumb.encode (thumb.liftOf info all (some c) d).mnemonic operands
        (thumb.decodedAddress d) = .ok bytes := hbytes
    rw [hencode]

/-- Emission never shrinks what it emits. -/
theorem emitOps_grows (hs : FinalText c s) {done : List Byte} {ds : List DecodedInstruction}
    (hbytes : s.bytes = done ++ ds.flatMap DecodedInstruction.source)
    (hruns : thumb.RunsFrom (s.address + BitVec.ofNat 64 done.length) ds)
    (hdecoded : ∀ d ∈ ds, decodeOne d.address d.word d.width = .ok d)
    (hsettles : ∀ d ∈ ds, thumb.SettlesInPlace c d) {out out' : EmitOutput}
    (h : emitOps thumb (context c s all) (ds.map (op c all)) (ds.map thumb.ownLayout) out
      = .ok out') :
    out.bytes.length + (ds.flatMap DecodedInstruction.source).length ≤ out'.bytes.length := by
  induction ds generalizing done out with
  | nil =>
    cases h
    simp
  | cons d rest ih =>
    have hat := StandsAt.start hbytes hruns hdecoded
    have hsize := sizeBytes_le_instructionSourceSize hat.decoded
    rw [List.map_cons, List.map_cons] at h
    obtain ⟨mid, hmid, htail⟩ := bind_eq_ok.mp h
    have hrest := ih hat.next_bytes (StandsAt.next_runs hruns)
      (fun d' hd' => hdecoded d' (List.mem_cons_of_mem _ hd'))
      (fun d' hd' => hsettles d' (List.mem_cons_of_mem _ hd')) htail
    have hgrown : out.bytes.length + d.source.length ≤ mid.bytes.length := by
      by_cases hfits : (instructionSourceSize d.mnemonic).toNat
          ≤ (s.bytes.drop done.length).length
      · rw [emitOp_copied _ hs hat (hsettles d List.mem_cons_self) hfits] at hmid
        cases hmid
        rw [List.length_append, List.length_take, length_source]
        omega
      · rw [Nat.not_le] at hfits
        have htwo := hat.source_length_of_short hfits
        rcases emitOp_short hs hat hfits hmid with ⟨hlength, -⟩ | ⟨bytes, -, hencoded, rfl⟩
        · omega
        · obtain ⟨operands, -, hencode⟩ := emitEncoded_own.mp hencoded
          have := length_encodeBytes hencode
          rw [List.length_append]
          omega
    rw [List.flatMap_cons, List.length_append]
    omega

/-- **Emission gives the source back** exactly when every instruction is as
wide as its mnemonic implies, or is the last one and encoded back. -/
theorem emitOps_exact_iff (hs : FinalText c s) {done : List Byte} {ds : List DecodedInstruction}
    (hbytes : s.bytes = done ++ ds.flatMap DecodedInstruction.source)
    (hruns : thumb.RunsFrom (s.address + BitVec.ofNat 64 done.length) ds)
    (hdecoded : ∀ d ∈ ds, decodeOne d.address d.word d.width = .ok d)
    (hsettles : ∀ d ∈ ds, thumb.SettlesInPlace c d) (out : EmitOutput) :
    emitOps thumb (context c s all) (ds.map (op c all)) (ds.map thumb.ownLayout) out
        = .ok { out with bytes := out.bytes ++ ds.flatMap DecodedInstruction.source } ↔
      ∀ d ∈ ds, HasImpliedSize d ∨ EncodedBack c s all d := by
  induction ds generalizing done out with
  | nil => simp [emitOps]
  | cons d rest ih =>
    have hat := StandsAt.start hbytes hruns hdecoded
    have hsize := sizeBytes_le_instructionSourceSize hat.decoded
    have hdecoded' := fun d' hd' => hdecoded d' (List.mem_cons_of_mem _ hd')
    have hsettles' := fun d' hd' => hsettles d' (List.mem_cons_of_mem _ hd')
    have hrest := ih hat.next_bytes (StandsAt.next_runs hruns) hdecoded' hsettles'
      { out with bytes := out.bytes ++ d.source }
    rw [List.forall_mem_cons, List.map_cons, List.map_cons, List.flatMap_cons,
      ← List.append_assoc]
    by_cases hfits : (instructionSourceSize d.mnemonic).toNat ≤ (s.bytes.drop done.length).length
    · have hop := emitOp_copied all hs hat (hsettles d List.mem_cons_self) hfits out
      rw [emitOps_cons hop]
      by_cases himplied : HasImpliedSize d
      · -- the copy is the instruction itself
        have hcopy : (s.bytes.drop done.length).take (instructionSourceSize d.mnemonic).toNat
            = d.source := by
          rw [hasImpliedSize_iff.mp himplied, hat.drop_eq, ← length_source, List.take_left]
        rw [hcopy, hrest]
        exact ⟨fun h => ⟨.inl himplied, h⟩, fun h => h.2⟩
      · have hlonger : sizeBytes d.width < (instructionSourceSize d.mnemonic).toNat :=
          lt_of_le_of_ne hsize fun h => himplied (hasImpliedSize_iff.mpr h.symm)
        constructor
        · -- too long already, and the rest does not shrink
          intro h
          have hgrows := emitOps_grows hs hat.next_bytes (StandsAt.next_runs hruns) hdecoded'
            hsettles' h
          simp only [List.length_append, List.length_take, length_source] at hgrows
          omega
        · rintro ⟨himplied' | hback, -⟩
          · exact absurd himplied' himplied
          · -- the last instruction would not have fitted
            have hnil := (hat.last_iff hs).mp hback.last
            rw [hat.drop_eq, hnil, List.append_nil, length_source] at hfits
            omega
    · rw [Nat.not_le] at hfits
      have hlast := hat.last_of_short hfits
      subst hlast
      constructor
      · intro h
        obtain ⟨mid, hmid, htail⟩ := bind_eq_ok.mp h
        cases htail
        refine ⟨.inr ?_, by simp⟩
        rcases emitOp_short hs hat hfits hmid with ⟨-, hrelocations⟩ | ⟨bytes, hreloc, hencoded, hout⟩
        · simp at hrelocations
        · have hsame : d.source = bytes := by simpa using hout
          subst hsame
          exact ⟨(hat.last_iff hs).mpr rfl, hreloc, emitEncoded_own.mp hencoded⟩
      · rintro ⟨himplied | hback, -⟩
        · rw [hat.drop_eq, hasImpliedSize_iff.mp himplied, List.length_append, length_source]
            at hfits
          omega
        · have hnot : verbatimBytes thumb (thumb.liftOf info all (some c) d) d.address
              (context c s all).blockAddresses (some c) = none :=
            verbatimBytes_short thumb_decode hs hat.address hat.lt_length rfl hfits
          have hop : emitOp thumb (op c all d) (thumb.ownLayout d) (context c s all) out
              = .ok { out with bytes := out.bytes ++ d.source } :=
            emitInstruction_iff.mpr (.encoded _ hback.unrelocated hnot
              (emitEncoded_own.mpr hback.encoded) rfl)
          rw [emitOps_cons hop]
          simp [emitOps]

end Thumb

/-! ## §4. The rewrite of a section. -/

/-- **Rewriting final text without edits**: in Thumb it is the identity exactly
when every instruction is as wide as its mnemonic implies, the last one apart
if it is encoded back; in ARM mode it always is. -/
theorem rewriteUnedited_identity_iff (c : Container)
    (hkind : c.kind = .sharedObject ∨ c.kind = .executable) (s : Section) (hs : s ∈ c.sections)
    (htext : s.kind = .text) (hfirst : FirstCovering c s) :
    (∀ ds, Thumb.disassembleBytes s.address s.bytes = .ok ds →
      (∀ d ∈ ds, thumb.SettlesInPlace c d) →
        (Thumb.rewriteUnedited c s = .ok ⟨s.bytes, []⟩ ↔
          ∀ d ∈ ds, Thumb.HasImpliedSize d ∨ Thumb.EncodedBack c s ds d)) ∧
    ∀ ds, Arm.disassembleBytes s.address s.bytes = .ok ds →
      (∀ d ∈ ds, arm.SettlesInPlace c d) → Arm.rewriteUnedited c s = .ok ⟨s.bytes, []⟩ := by
  have hfinal : FinalText c s := by
    refine ⟨hs, htext, hfirst, ?_⟩
    rcases hkind with h | h <;> rw [h] <;> decide
  constructor
  · intro ds hswept hsettles
    obtain ⟨hruns, hbytes, hdecoded⟩ := Thumb.disassembleBytes_spec hswept
    have hdone : s.bytes = [] ++ ds.flatMap Thumb.DecodedInstruction.source := hbytes.symm
    have hexact : emitOps thumb (Thumb.context c s ds) (ds.map (Thumb.op c ds))
        (ds.map thumb.ownLayout) .empty
          = .ok ⟨[] ++ ds.flatMap Thumb.DecodedInstruction.source, []⟩ ↔
        ∀ d ∈ ds, Thumb.HasImpliedSize d ∨ Thumb.EncodedBack c s ds d :=
      Thumb.emitOps_exact_iff hfinal hdone (by simpa using hruns) hdecoded hsettles .empty
    rw [← hdone] at hexact
    rw [Thumb.rewriteUnedited, hswept, rewrite_inPlace Thumb.plain hruns hsettles]
    exact hexact
  · intro ds hswept hsettles
    obtain ⟨hruns, hbytes, -⟩ := Arm.disassembleBytes_spec hswept
    have hdone : s.bytes = [] ++ ds.flatMap Arm.DecodedInstruction.source := hbytes.symm
    have hcopies : emitOps arm (sweptContext Arm.info ds s.address (some c))
        (ds.map (arm.opOf Arm.info ds (some c))) (ds.map arm.ownLayout) .empty
          = .ok ⟨[] ++ ds.flatMap Arm.DecodedInstruction.source, []⟩ :=
      emitOps_copies (fun _ _ => rfl) hfinal rfl hdone (by simpa using hruns) hsettles
        (fun d _ => ⟨rfl, Nat.zero_lt_succ 3, rfl⟩) .empty
    rw [← hdone] at hcopies
    rw [Arm.rewriteUnedited, hswept, rewrite_inPlace Arm.plain hruns hsettles]
    exact hcopies

/-! ## §5. A move that takes its neighbour along. -/

/-- `mov r0, r4` and `bx lr`. -/
def moveReturn : Section := ⟨⟨0⟩, 0x1000, 4, [0x20, 0x46, 0x70, 0x47], .text⟩

/-- `push`, `bl` to the next instruction and `bx lr`. -/
def callReturn : Section := ⟨⟨0⟩, 0x1000, 8, [0x10, 0xb5, 0x00, 0xf0, 0x00, 0xf8, 0x70, 0x47], .text⟩

theorem noSymbols_ids : ([] : List Symbol).map Symbol.id
    = (List.range ([] : List Symbol).length).map SymbolId.mk := rfl

/-- A linked image whose one section is the given text. -/
def textImage (s : Section) (hs : s.id = ⟨0⟩) : Container where
  format := .elf
  architecture := .arm
  kind := .executable
  sections := [s]
  symbols := []
  relocations := []
  elfImage := none
  machoImage := none
  sectionIds := by simp [hs]
  symbolIds := noSymbols_ids
  relocationSections := by simp

/-- A section that is alone in its image is found first. -/
theorem firstCovering_textImage {s : Section} (hs : s.id = ⟨0⟩)
    (h : ∀ k < s.bytes.length, 0 < s.size ∧ s.address ≤ s.address + BitVec.ofNat 64 k ∧
      s.address + BitVec.ofNat 64 k < s.address + s.size) :
    FirstCovering (textImage s hs) s := by
  intro k hk
  have hcovers : (decide (0 < s.size) && decide (s.address ≤ s.address + BitVec.ofNat 64 k)
      && decide (s.address + BitVec.ofNat 64 k < s.address + s.size)) = true := by
    simpa [and_assoc] using h k hk
  show (([s].find? fun t => decide (0 < t.size)
    && decide (t.address ≤ s.address + BitVec.ofNat 64 k)
    && decide (s.address + BitVec.ofNat 64 k < t.address + t.size)).map Section.id) = some s.id
  rw [List.find?_cons, hcovers]
  rfl

/-- A call between two halfwords comes back as it was. -/
theorem callReturn_identity :
    Thumb.rewriteUnedited (textImage callReturn rfl) callReturn = .ok ⟨callReturn.bytes, []⟩ := by
  have hchecked : (Thumb.disassembleBytes callReturn.address callReturn.bytes).toOption.any
      (fun ds => ds.all fun d =>
        thumb.reachesDecoded d && decide (Thumb.HasImpliedSize d)) = true := by
    decide +kernel
  cases hswept : Thumb.disassembleBytes callReturn.address callReturn.bytes with
  | error e =>
    rw [hswept] at hchecked
    cases hchecked
  | ok ds =>
    rw [hswept] at hchecked
    have hall : ∀ d ∈ ds, thumb.reachesDecoded d = true ∧ Thumb.HasImpliedSize d := by
      intro d hd
      have := List.all_eq_true.mp hchecked d hd
      simpa using this
    have hiff := (rewriteUnedited_identity_iff (textImage callReturn rfl) (.inr rfl) callReturn
      (List.mem_singleton_self _) rfl (firstCovering_textImage rfl (by decide))).1 ds hswept
        fun d hd => settlesInPlace_of_bare rfl (hall d hd).1
    exact hiff.mpr fun d hd => .inl (hall d hd).2

/-- The move shares its mnemonic with 32-bit rows: it is copied together with
the return, which then follows once more. -/
theorem moveReturn_longer :
    FirstCovering (textImage moveReturn rfl) moveReturn ∧
      (Thumb.disassembleBytes moveReturn.address moveReturn.bytes).isOk = true ∧
      Thumb.rewriteUnedited (textImage moveReturn rfl) moveReturn
        = .ok ⟨[0x20, 0x46, 0x70, 0x47, 0x70, 0x47], []⟩ ∧
      moveReturn.bytes ≠ [0x20, 0x46, 0x70, 0x47, 0x70, 0x47] := by
  refine ⟨firstCovering_textImage rfl (by decide), ?_, ?_, by decide⟩
  · decide
  · decide +kernel

end Armv8Encode.Armv7
