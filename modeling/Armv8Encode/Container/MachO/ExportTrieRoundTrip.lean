/-
  Armv8Encode.Container.MachO.ExportTrieRoundTrip — a trie, read back.

  Every field is read as it was written.  Where the placing has settled, each
  node stands at its offset, so the walk finds from any node the exports whose
  names go through it, in order: the one that ends there and then those of its
  children, whose edges are in order.
-/
import Armv8Encode.Container.MachO.ExportTrieInsert
import Mathlib.Algebra.Order.BigOperators.Group.List
import Mathlib.Algebra.Order.Group.Nat

namespace Armv8Encode.MachO.ExportTrie

open Lib

/-! ## §1. Fields. -/

theorem length_writeUleb128 (value : Nat) :
    (writeUleb128 value).length = uleb128Size value := by
  induction value using Nat.strong_induction_on with
  | _ value ih =>
    rw [writeUleb128, uleb128Size]
    split
    · rfl
    · next h =>
      rw [List.length_cons, ih (value / 128) (by omega)]
      omega

/-- `k` groups of seven bits are enough. -/
theorem length_writeUleb128_le {value k : Nat} (h : value < 128 ^ (k + 1)) :
    (writeUleb128 value).length ≤ k + 1 := by
  induction k generalizing value with
  | zero =>
    rw [writeUleb128, if_pos (by simpa using h)]
    exact Nat.le_refl _
  | succ k ih =>
    rw [writeUleb128]
    split
    · exact Nat.le_add_left _ _
    · have := @ih (value / 128) (by rw [Nat.div_lt_iff_lt_mul (by decide), ← Nat.pow_succ]; exact h)
      rw [List.length_cons]
      omega

theorem readUleb128_writeUleb128_shift {value shift : Nat} (hshift : shift < 64)
    (h : value * 2 ^ shift < 2 ^ 64) (rest : List Byte) :
    readUleb128 shift (writeUleb128 value ++ rest) = .ok (value * 2 ^ shift, rest) := by
  induction value using Nat.strong_induction_on generalizing shift with
  | _ value ih =>
    rw [writeUleb128]
    by_cases hsmall : value < 128
    · rw [if_pos hsmall]
      show readUleb128 shift (BitVec.ofNat 8 value :: rest) = _
      have hbyte : (BitVec.ofNat 8 value).toNat = value := by
        rw [BitVec.toNat_ofNat]
        omega
      unfold readUleb128
      rw [if_neg (Nat.not_le.mpr hshift), hbyte, if_pos hsmall, Nat.mod_eq_of_lt hsmall,
        Nat.mod_eq_of_lt h]
    · rw [if_neg hsmall]
      show readUleb128 shift (BitVec.ofNat 8 (value % 128 + 128)
        :: (writeUleb128 (value / 128) ++ rest)) = _
      have hbyte : (BitVec.ofNat 8 (value % 128 + 128)).toNat = value % 128 + 128 := by
        rw [BitVec.toNat_ofNat]
        omega
      -- The high groups are a number of their own, seven bits further up.
      have hpow : 2 ^ (shift + 7) = 2 ^ shift * 128 := Nat.pow_add 2 shift 7
      have hsum : value % 128 * 2 ^ shift + value / 128 * 2 ^ (shift + 7) = value * 2 ^ shift := by
        rw [hpow, Nat.mul_comm (2 ^ shift) 128, ← Nat.mul_assoc, ← Nat.add_mul,
          Nat.mul_comm (value / 128) 128, Nat.mod_add_div]
      have hhigh : value / 128 * 2 ^ (shift + 7) < 2 ^ 64 := by omega
      have hshift' : shift + 7 < 64 := by
        by_contra hle
        have hone : 1 * 2 ^ 64 ≤ value / 128 * 2 ^ (shift + 7) :=
          Nat.mul_le_mul (by omega) (Nat.pow_le_pow_right (by decide) (by omega))
        omega
      unfold readUleb128
      rw [if_neg (Nat.not_le.mpr hshift), hbyte, if_neg (by omega),
        ih (value / 128) (by omega) hshift' hhigh]
      have hlow : (value % 128 + 128) % 128 = value % 128 := by omega
      rw [hlow, Nat.mod_eq_of_lt (by omega)]
      show Except.ok (value % 128 * 2 ^ shift + value / 128 * 2 ^ (shift + 7), rest) = _
      rw [hsum]

/-- A number is read back. -/
theorem readUleb128_writeUleb128 {value : Nat} (h : value < 2 ^ 64) (rest : List Byte) :
    readUleb128 0 (writeUleb128 value ++ rest) = .ok (value, rest) := by
  have := @readUleb128_writeUleb128_shift value 0 (by decide) (by simpa using h) rest
  simpa using this

/-- A string is what stands before the first zero byte, if it is a text. -/
theorem readCstring_text {text : List Byte} (h : (0 : Byte) ∉ text) (rest : List Byte) :
    readCstring (text ++ 0 :: rest)
      = if h : isUtf8 text = true then .ok (⟨text, h⟩, rest)
        else .error "C-string: non-UTF8 bytes" := by
  have htext : (text ++ 0 :: rest).takeWhile (fun b => b != 0) = text := by
    rw [List.takeWhile_append_of_pos]
    · simp
    · intro b hb
      simpa using fun hzero : b = 0 => h (hzero ▸ hb)
  unfold readCstring
  simp only [htext, List.drop_left]

theorem readCstring_bytes {s : Str} (h : (0 : Byte) ∉ s.bytes) (rest : List Byte) :
    readCstring (s.bytes ++ 0 :: rest) = .ok (s, rest) := by
  rw [readCstring_text h, dif_pos s.valid]

/-- The children of a node, with offsets for indices. -/
def placedChildren (offsets : List Nat) (children : List (Str × Nat)) : List (Str × Nat) :=
  children.map fun c => (c.1, offsetOf offsets c.2)

theorem readChildren_encodeChild {offsets : List Nat} (hoffsets : ∀ o ∈ offsets, o < 2 ^ 64)
    {children : List (Str × Nat)} (hnul : ∀ c ∈ children, (0 : Byte) ∉ c.1.bytes)
    (rest : List Byte) :
    readChildren children.length (children.flatMap (encodeChild offsets) ++ rest)
      = .ok (placedChildren offsets children) := by
  induction children with
  | nil => rfl
  | cons c children ih =>
    have hoffset : offsetOf offsets c.2 < 2 ^ 64 := by
      unfold offsetOf
      cases hget : offsets[c.2]? with
      | none => exact Nat.two_pow_pos 64
      | some o => exact hoffsets o (List.mem_of_getElem? hget)
    have hbytes : (c :: children).flatMap (encodeChild offsets) ++ rest
        = c.1.bytes ++ 0 :: (writeUleb128 (offsetOf offsets c.2)
          ++ (children.flatMap (encodeChild offsets) ++ rest)) := by
      rw [List.flatMap_cons]
      unfold encodeChild
      simp [List.append_assoc]
    rw [hbytes, List.length_cons]
    unfold readChildren
    rw [readCstring_bytes (hnul c List.mem_cons_self)]
    show (readUleb128 0 _).bind _ = _
    rw [readUleb128_writeUleb128 hoffset]
    show (readChildren _ _).bind _ = _
    rw [ih fun d hd => hnul d (List.mem_cons_of_mem _ hd)]
    rfl

/-- Neither a reexport nor a resolver. -/
def MachOExport.IsRegular (e : MachOExport) : Prop :=
  e.flags &&& flagReexport = 0 ∧ e.flags &&& flagStubAndResolver = 0

instance (e : MachOExport) : Decidable e.IsRegular := inferInstanceAs (Decidable (_ ∧ _))

theorem readTerminal_encode {e : MachOExport} (h : e.IsRegular) (rest : List Byte) :
    readTerminal (writeUleb128 e.flags.toNat ++ writeUleb128 e.addressOffset.toNat ++ rest)
      = .ok e.info := by
  unfold readTerminal
  rw [List.append_assoc, readUleb128_writeUleb128 e.flags.isLt]
  show (if BitVec.ofNat 64 e.flags.toNat &&& flagReexport ≠ 0 then _ else _) = _
  rw [BitVec.ofNat_toNat, BitVec.setWidth_eq, if_neg (not_not_intro h.1)]
  show (if e.flags &&& flagStubAndResolver ≠ 0 then _ else _) = _
  rw [if_neg (not_not_intro h.2), readUleb128_writeUleb128 e.addressOffset.isLt]
  show Except.ok (TerminalInfo.mk e.flags (BitVec.ofNat 64 e.addressOffset.toNat)) = _
  rw [BitVec.ofNat_toNat, BitVec.setWidth_eq]
  rfl

/-! ## §2. Nodes. -/

theorem length_encodeNode (n : TrieNode) (offsets : List Nat) :
    (encodeNode n offsets).length = encodedNodeSize n offsets := by
  have hchildren : (n.children.flatMap (encodeChild offsets)).length
      = (n.children.map (encodedChildSize offsets)).sum := by
    rw [List.length_flatMap]
    congr 1
    refine List.map_congr_left fun c _ => ?_
    unfold encodeChild encodedChildSize
    rw [List.length_append, List.length_cons, length_writeUleb128]
    unfold Str.length
    omega
  unfold encodeNode encodedNodeSize
  dsimp only
  rw [List.length_append, List.length_append, List.length_cons, length_writeUleb128, hchildren]
  omega

/-- What stands behind the terminal data of a node: the count of its children, and these. -/
def encodeChildren (n : TrieNode) (offsets : List Nat) : List Byte :=
  BitVec.ofNat 8 n.children.length :: n.children.flatMap (encodeChild offsets)

theorem encodeTerminalBytes_of_some {n : TrieNode} {e : MachOExport}
    (hn : n.terminal = some e.info) : encodeTerminalBytes n
      = writeUleb128 e.flags.toNat ++ writeUleb128 e.addressOffset.toNat := by
  unfold encodeTerminalBytes
  rw [hn]
  rfl

theorem length_encodeTerminalBytes_lt (n : TrieNode) :
    (encodeTerminalBytes n).length < 2 ^ 64 := by
  unfold encodeTerminalBytes
  cases n.terminal with
  | none => exact Nat.two_pow_pos 64
  | some t =>
    have hflags := @length_writeUleb128_le t.flags.toNat 9 (Nat.lt_trans t.flags.isLt (by decide))
    have haddress := @length_writeUleb128_le t.addressOffset.toNat 9
      (Nat.lt_trans t.addressOffset.isLt (by decide))
    rw [List.length_append]
    omega

theorem encodeTerminalBytes_pos {n : TrieNode} {e : MachOExport}
    (hn : n.terminal = some e.info) : 0 < (encodeTerminalBytes n).length := by
  rw [encodeTerminalBytes_of_some hn, List.length_append, length_writeUleb128, uleb128Size]
  split <;> omega

/-- A node as it is read: the offsets of its children, and what its terminal data is read
as. -/
theorem readNode_placed {n : TrieNode} {offsets : List Nat} {bytes rest : List Byte}
    {offset : Nat} (hoffsets : ∀ o ∈ offsets, o < 2 ^ 64)
    (hbytes : bytes.drop offset = encodeNode n offsets ++ rest)
    (hnul : ∀ c ∈ n.children, (0 : Byte) ∉ c.1.bytes) (hcount : n.children.length < 256) :
    readNode bytes offset
      = (readTerminalData (encodeTerminalBytes n).length
          (encodeTerminalBytes n ++ (encodeChildren n offsets ++ rest))).bind
        fun terminal => .ok (terminal, placedChildren offsets n.children) := by
  have hlt : offset < bytes.length := by
    by_contra hle
    rw [List.drop_eq_nil_of_le (Nat.not_lt.mp hle)] at hbytes
    unfold encodeNode at hbytes
    simp at hbytes
  have htail : bytes.drop offset = writeUleb128 (encodeTerminalBytes n).length
      ++ (encodeTerminalBytes n ++ (encodeChildren n offsets ++ rest)) := by
    rw [hbytes]
    unfold encodeNode encodeChildren
    simp [List.append_assoc]
  unfold readNode
  rw [if_neg (Nat.not_le.mpr hlt), htail,
    readUleb128_writeUleb128 (length_encodeTerminalBytes_lt n)]
  show (if _ < (encodeTerminalBytes n).length then _ else _) = _
  rw [if_neg (by rw [List.length_append]; omega)]
  show (readTerminalData _ _).bind _ = _
  refine congrArg _ (funext fun terminal => ?_)
  unfold encodeChildren
  rw [List.drop_left, List.cons_append]
  show (readChildren (BitVec.ofNat 8 n.children.length).toNat _).bind _ = _
  rw [BitVec.toNat_ofNat, Nat.mod_eq_of_lt hcount, readChildren_encodeChild hoffsets hnul]
  rfl

/-- The terminal data is read as it is, if what is read of it is that. -/
theorem readTerminalData_encode {n : TrieNode} {more : List Byte}
    (h : ∀ t, n.terminal = some t → readTerminal (writeUleb128 t.flags.toNat
      ++ writeUleb128 t.addressOffset.toNat ++ more) = .ok t) :
    readTerminalData (encodeTerminalBytes n).length (encodeTerminalBytes n ++ more)
      = .ok n.terminal := by
  unfold readTerminalData
  cases hn : n.terminal with
  | none =>
    have hnil : encodeTerminalBytes n = [] := by
      unfold encodeTerminalBytes
      rw [hn]
    rw [hnil, if_neg (by decide)]
  | some t =>
    have hinfo : n.terminal = some (MachOExport.mk Str.empty t.flags t.addressOffset).info := hn
    rw [if_pos (encodeTerminalBytes_pos hinfo), encodeTerminalBytes_of_some hinfo]
    show (readTerminal (writeUleb128 t.flags.toNat ++ _ ++ more)).map some = _
    rw [h t hn]
    rfl

/-! ## §3. The placed nodes. -/

/-- Each node stands where it was placed. -/
theorem exists_placed {nodes : List TrieNode} {offsets : List Nat} {cursor i : Nat} {n : TrieNode}
    (hi : nodes[i]? = some n) :
    ∃ before rest, (placeNodes offsets cursor nodes)[i]? = some (cursor + before)
      ∧ (nodes.flatMap fun n => encodeNode n offsets).drop before
        = encodeNode n offsets ++ rest := by
  induction nodes generalizing cursor i with
  | nil => simp at hi
  | cons m nodes ih =>
    cases i with
    | zero =>
      cases hi
      exact ⟨0, _, rfl, by rw [List.drop_zero, List.flatMap_cons]⟩
    | succ i =>
      obtain ⟨before, rest, hplace, hdrop⟩ := @ih (cursor + encodedNodeSize m offsets) i hi
      refine ⟨encodedNodeSize m offsets + before, rest, ?_, ?_⟩
      · show (placeNodes offsets (cursor + encodedNodeSize m offsets) nodes)[i]? = _
        rw [hplace, Nat.add_assoc]
      · rw [List.flatMap_cons, ← length_encodeNode, ← hdrop, ← List.drop_drop, List.drop_left]

/-- The sixteen rounds end with offsets that place the nodes where they say, below `2^64`. -/
def OffsetsSettle (nodes : List TrieNode) : Prop :=
  placeNodes (finalOffsets nodes) 0 nodes = finalOffsets nodes
    ∧ ∀ o ∈ finalOffsets nodes, o < 2 ^ 64

instance (nodes : List TrieNode) : Decidable (OffsetsSettle nodes) :=
  inferInstanceAs (Decidable (_ ∧ _))

theorem OffsetsSettle.drop {nodes : List TrieNode} (h : OffsetsSettle nodes) {i : Nat}
    {n : TrieNode} (hi : nodes[i]? = some n) :
    ∃ rest, (nodes.flatMap fun n => encodeNode n (finalOffsets nodes)).drop
        (offsetOf (finalOffsets nodes) i)
      = encodeNode n (finalOffsets nodes) ++ rest := by
  obtain ⟨before, rest, hplace, hdrop⟩ := @exists_placed nodes (finalOffsets nodes) 0 i n hi
  rw [h.1, Nat.zero_add] at hplace
  refine ⟨rest, ?_⟩
  unfold offsetOf
  rw [hplace]
  exact hdrop

/-- Bytes but the zero, each once: fewer than 256. -/
theorem Radix.children_lt {arena : Arena} {exports : List MachOExport} (hr : Radix arena exports)
    {x : TrieNode × List Byte} (hx : x ∈ arena) : x.1.children.length < 256 := by
  have hnodup : (x.1.children.map firstByte).Nodup := (hr.sorted x hx).imp Nat.ne_of_lt
  have hsub : x.1.children.map firstByte ⊆ List.range' 1 255 := by
    intro b hb
    obtain ⟨c, hc, rfl⟩ := List.mem_map.mp hb
    obtain ⟨hne, hnul, _⟩ := hr.child x hx c hc
    obtain ⟨y, ys, hys⟩ := List.exists_cons_of_ne_nil hne
    have hy : y.toNat ≠ 0 := by
      intro hzero
      refine hnul ?_
      rw [hys]
      exact List.mem_cons.mpr (.inl (BitVec.eq_of_toNat_eq hzero.symm))
    have := y.isLt
    rw [firstByte_cons hys, List.mem_range'_1]
    omega
  have hle := (hnodup.subperm hsub).length_le
  rw [List.length_map, List.length_range'] at hle
  omega

/-- The bytes of the placed nodes. -/
def placedBytes (nodes : List TrieNode) : List Byte :=
  nodes.flatMap fun n => encodeNode n (finalOffsets nodes)

/-- A node of the tree, with what its data is read as. -/
theorem Radix.readNode_placed {arena : Arena} {exports : List MachOExport}
    (hr : Radix arena exports) {nodes : List TrieNode} (hnodes : arena.nodes = nodes)
    (hsettle : OffsetsSettle nodes) {i : Nat} {n : TrieNode} {p : List Byte}
    (hi : arena[i]? = some (n, p)) :
    ∃ rest, ExportTrie.readNode (placedBytes nodes) (offsetOf (finalOffsets nodes) i)
      = (readTerminalData (encodeTerminalBytes n).length
          (encodeTerminalBytes n ++ (encodeChildren n (finalOffsets nodes) ++ rest))).bind
        fun terminal => .ok (terminal, placedChildren (finalOffsets nodes) n.children) := by
  have hmem : (n, p) ∈ arena := List.mem_of_getElem? hi
  have hnode : nodes[i]? = some n := by
    rw [← hnodes]
    unfold Arena.nodes
    rw [List.getElem?_map, hi]
    rfl
  obtain ⟨rest, hdrop⟩ := hsettle.drop hnode
  exact ⟨rest, ExportTrie.readNode_placed hsettle.2 hdrop
    (fun c hc => (hr.child (n, p) hmem c hc).2.1) (hr.children_lt hmem)⟩

/-- The node at an index is read as it is. -/
def ReadsNode (nodes : List TrieNode) (i : Nat) (n : TrieNode) : Prop :=
  readNode (placedBytes nodes) (offsetOf (finalOffsets nodes) i)
    = .ok (n.terminal, placedChildren (finalOffsets nodes) n.children)

/-- Every node of a tree of regular exports is read at its offset. -/
theorem Radix.readsNode {arena : Arena} {exports : List MachOExport} (hr : Radix arena exports)
    (hregular : ∀ e ∈ exports, e.IsRegular) {nodes : List TrieNode} (hnodes : arena.nodes = nodes)
    (hsettle : OffsetsSettle nodes) {i : Nat} {n : TrieNode} {p : List Byte}
    (hi : arena[i]? = some (n, p)) : ReadsNode nodes i n := by
  obtain ⟨rest, hread⟩ := hr.readNode_placed hnodes hsettle hi
  unfold ReadsNode
  rw [hread, readTerminalData_encode]
  · rfl
  · intro t ht
    obtain ⟨e, he, _, rfl⟩ := (hr.terminal (n, p) (List.mem_of_getElem? hi) t).mp ht
    exact readTerminal_encode (hregular e he) _

/-! ## §4. The walk. -/

/-- The exports whose names go through a path. -/
def through (exports : List MachOExport) (p : List Byte) : List MachOExport :=
  exports.filter fun e => p.isPrefixOf e.name.bytes

theorem mem_through {exports : List MachOExport} {p : List Byte} {e : MachOExport} :
    e ∈ through exports p ↔ e ∈ exports ∧ p <+: e.name.bytes := by
  unfold through
  rw [List.mem_filter, List.isPrefixOf_iff_prefix]

theorem mem_exportsAt {path : Str} {terminal : Option TerminalInfo} {e : MachOExport} :
    e ∈ exportsAt path terminal ↔ e.name = path ∧ terminal = some e.info := by
  unfold exportsAt
  rw [List.mem_map]
  constructor
  · rintro ⟨t, ht, rfl⟩
    exact ⟨rfl, Option.mem_toList.mp ht⟩
  · rintro ⟨rfl, ht⟩
    exact ⟨e.info, Option.mem_toList.mpr ht, rfl⟩

/-- Lists in order that hold the same are the same. -/
theorem eq_of_sorted {xs ys : List MachOExport}
    (hxs : xs.Pairwise fun a b => BytesLt a.name.bytes b.name.bytes)
    (hys : ys.Pairwise fun a b => BytesLt a.name.bytes b.name.bytes)
    (h : ∀ e, e ∈ xs ↔ e ∈ ys) : xs = ys := by
  have hirrefl : ∀ {zs : List MachOExport},
      zs.Pairwise (fun a b => BytesLt a.name.bytes b.name.bytes) → zs.Nodup := by
    intro zs hzs
    refine List.Pairwise.imp (fun {a b} hlt => ?_) hzs
    rintro rfl
    exact bytesLt_irrefl _ hlt
  have hperm : xs.Perm ys := (List.perm_ext_iff_of_nodup (hirrefl hxs) (hirrefl hys)).mpr h
  have : Std.Antisymm fun a b : MachOExport => BytesLt a.name.bytes b.name.bytes :=
    ⟨fun _ _ hab hba => absurd hba hab.asymm⟩
  exact hperm.eq_of_pairwise' hxs hys

/-- **What goes through a node** ends there or goes through one of its children, in this
order. -/
theorem Radix.through_eq {arena : Arena} {exports : List MachOExport} (hr : Radix arena exports)
    (hsorted : exports.Pairwise fun a b => BytesLt a.name.bytes b.name.bytes)
    {x : TrieNode × List Byte} (hx : x ∈ arena) {path : Str} (hpath : path.bytes = x.2) :
    through exports x.2 = exportsAt path x.1.terminal
      ++ x.1.children.flatMap fun c => through exports (x.2 ++ c.1.bytes) := by
  have hat : ∀ e ∈ exportsAt path x.1.terminal, e ∈ exports ∧ e.name.bytes = x.2 := by
    intro e he
    obtain ⟨hname, hinfo⟩ := mem_exportsAt.mp he
    obtain ⟨d, hd, hdname, hdinfo⟩ := (hr.terminal x hx e.info).mp hinfo
    have hde : d = e := by
      obtain ⟨dn, df, da⟩ := d
      obtain ⟨en, ef, ea⟩ := e
      obtain rfl : dn = en := Str.ext_bytes (by rw [hdname, ← hpath, ← hname])
      cases hdinfo
      rfl
    exact ⟨hde ▸ hd, by rw [hname, hpath]⟩
  refine eq_of_sorted (hsorted.filter _) ?_ fun e => ?_
  · refine List.pairwise_append.mpr ⟨?_, ?_, ?_⟩
    · unfold exportsAt
      cases x.1.terminal with
      | none => exact .nil
      | some t => exact List.pairwise_singleton _ _
    · rw [List.pairwise_flatMap]
      refine ⟨fun c _ => hsorted.filter _, ?_⟩
      have hedges := List.pairwise_map.mp (hr.sorted x hx)
      refine hedges.imp_of_mem fun {c d} hc hd hlt a ha b hb => ?_
      -- The edges differ in their first bytes.
      obtain ⟨y, cs, hcs⟩ := List.exists_cons_of_ne_nil (hr.child x hx c hc).1
      obtain ⟨z, ds, hds⟩ := List.exists_cons_of_ne_nil (hr.child x hx d hd).1
      rw [firstByte_cons hcs, firstByte_cons hds] at hlt
      obtain ⟨_, s, hs⟩ := mem_through.mp ha
      obtain ⟨_, t, ht⟩ := mem_through.mp hb
      rw [← hs, ← ht, hcs, hds, List.append_assoc, List.append_assoc, bytesLt_append_left]
      exact bytesLt_cons_cons.mpr (.inl hlt)
    · intro a ha b hb
      obtain ⟨_, hname⟩ := hat a ha
      obtain ⟨c, hc, hb⟩ := List.mem_flatMap.mp hb
      obtain ⟨_, hpre⟩ := mem_through.mp hb
      rw [hname]
      refine bytesLt_of_prefix_of_ne ((List.prefix_append _ _).trans hpre) fun heq => ?_
      have hlen := hpre.length_le
      rw [← heq, List.length_append] at hlen
      exact (hr.child x hx c hc).1 (List.length_eq_zero_iff.mp (by omega))
  · rw [List.mem_append, List.mem_flatMap, mem_through]
    constructor
    · rintro ⟨he, hpre⟩
      obtain heq | ⟨c, hc, hce⟩ := hr.covered x hx e he hpre
      · refine .inl (mem_exportsAt.mpr ⟨Str.ext_bytes (by rw [heq, hpath]), ?_⟩)
        exact (hr.terminal x hx e.info).mpr ⟨e, he, heq, rfl⟩
      · exact .inr ⟨c, hc, mem_through.mpr ⟨he, hce⟩⟩
    · rintro (he | ⟨c, _, he⟩)
      · obtain ⟨hmem, hname⟩ := hat e he
        exact ⟨hmem, by rw [hname]⟩
      · obtain ⟨hmem, hpre⟩ := mem_through.mp he
        exact ⟨hmem, (List.prefix_append _ _).trans hpre⟩

/-- After some steps the walk has written these exports and gone on to the stack. -/
def Walks (bytes : List Byte) (entries : List (Nat × Str)) (found : List MachOExport) : Prop :=
  ∀ stack out, ∃ fuel, ∀ more, walkTrie bytes (fuel + more) (entries ++ stack) out
    = walkTrie bytes more stack (out ++ found)

theorem walks_nil (bytes : List Byte) : Walks bytes [] [] := by
  intro stack out
  exact ⟨0, fun more => by rw [List.nil_append, List.append_nil, Nat.zero_add]⟩

theorem Walks.append {bytes : List Byte} {entries entries' : List (Nat × Str)}
    {found found' : List MachOExport} (h : Walks bytes entries found)
    (h' : Walks bytes entries' found') : Walks bytes (entries ++ entries') (found ++ found') := by
  intro stack out
  obtain ⟨fuel, hfuel⟩ := h (entries' ++ stack) out
  obtain ⟨fuel', hfuel'⟩ := h' stack (out ++ found)
  refine ⟨fuel + fuel', fun more => ?_⟩
  rw [List.append_assoc, Nat.add_assoc, hfuel, hfuel', List.append_assoc]

/-- Nodes that are walked one by one are walked in turn. -/
theorem walks_flatMap {bytes : List Byte} {children : List (Str × Nat)} {path : Str}
    {offsets : List Nat} {found : Str × Nat → List MachOExport}
    (h : ∀ c ∈ children, Walks bytes [(offsetOf offsets c.2, path.append c.1)] (found c)) :
    Walks bytes ((placedChildren offsets children).map fun c => (c.2, path.append c.1))
      (children.flatMap found) := by
  induction children with
  | nil => exact walks_nil bytes
  | cons c children ih =>
    rw [List.flatMap_cons]
    exact (h c List.mem_cons_self).append (ih fun d hd => h d (List.mem_cons_of_mem _ hd))

/-- **The walk from a node finds what goes through it.** -/
theorem Radix.walks {arena : Arena} {exports : List MachOExport} (hr : Radix arena exports)
    (hsorted : exports.Pairwise fun a b => BytesLt a.name.bytes b.name.bytes)
    {nodes : List TrieNode}
    (hreads : ∀ i n p, arena[i]? = some (n, p) → ReadsNode nodes i n) {i : Nat} {n : TrieNode}
    {path : Str} (hi : arena[i]? = some (n, path.bytes)) :
    Walks (placedBytes nodes) [(offsetOf (finalOffsets nodes) i, path)]
      (through exports path.bytes) := by
  -- Paths get longer from node to node, and none is longer than all paths together.
  have hdepth : ∀ x ∈ arena, x.2.length ≤ (arena.map fun x => x.2.length).sum := by
    intro x hx
    exact List.le_sum_of_mem (List.mem_map_of_mem hx)
  obtain ⟨depth, hlt⟩ : ∃ depth,
      (arena.map fun x => x.2.length).sum - path.bytes.length < depth := ⟨_, Nat.lt_succ_self _⟩
  induction depth generalizing i n path with
  | zero => exact absurd hlt (Nat.not_lt_zero _)
  | succ depth ih =>
    have hmem : (n, path.bytes) ∈ arena := List.mem_of_getElem? hi
    have hchildren := @walks_flatMap (placedBytes nodes) n.children path (finalOffsets nodes)
      (fun c => through exports (path.bytes ++ c.1.bytes)) fun c hc => by
        obtain ⟨hne, _, m, hm⟩ := hr.child (n, path.bytes) hmem c hc
        have hlong := hdepth _ (List.mem_of_getElem? hm)
        have hpos := List.length_pos_of_ne_nil hne
        dsimp only at hlong
        rw [List.length_append] at hlong
        refine @ih c.2 m (path.append c.1) hm ?_
        rw [Str.bytes_append, List.length_append]
        omega
    intro stack out
    obtain ⟨fuel, hfuel⟩ := hchildren stack (out ++ exportsAt path n.terminal)
    refine ⟨fuel + 1, fun more => ?_⟩
    rw [hr.through_eq hsorted hmem rfl, ← List.append_assoc, ← hfuel more,
      show fuel + 1 + more = fuel + more + 1 by omega]
    rw [List.singleton_append, walkTrie, hreads i n path.bytes hi]

/-! ## §5. The round trip. -/

/-- The walk ends with these exports. -/
def Parses (bytes : List Byte) (exports : List MachOExport) : Prop :=
  ∃ fuel, ∀ more, parse (fuel + more) bytes = some (.ok exports)

/-- The root is the first node, at offset zero. -/
theorem Radix.offsetOf_root {arena : Arena} {exports : List MachOExport} (hr : Radix arena exports)
    {nodes : List TrieNode} (hnodes : arena.nodes = nodes) (hsettle : OffsetsSettle nodes) :
    placedBytes nodes ≠ [] ∧ offsetOf (finalOffsets nodes) 0 = 0 := by
  obtain ⟨n, hroot⟩ := hr.root
  obtain ⟨rest, rfl⟩ : ∃ rest, nodes = n :: rest := by
    rw [← hnodes]
    cases harena : arena with
    | nil =>
      rw [harena] at hroot
      cases hroot
    | cons x xs =>
      rw [harena] at hroot
      cases hroot
      exact ⟨Arena.nodes xs, rfl⟩
  constructor
  · unfold placedBytes
    rw [List.flatMap_cons]
    unfold encodeNode
    simp
  · rw [← hsettle.1]
    rfl

/-- **A tree whose nodes are read as they are** is read as its exports. -/
theorem Radix.parses {arena : Arena} {exports : List MachOExport} (hr : Radix arena exports)
    (hsorted : exports.Pairwise fun a b => BytesLt a.name.bytes b.name.bytes)
    {nodes : List TrieNode} (hnodes : arena.nodes = nodes) (hsettle : OffsetsSettle nodes)
    (hreads : ∀ i n p, arena[i]? = some (n, p) → ReadsNode nodes i n) :
    Parses (placedBytes nodes) exports := by
  obtain ⟨n, hroot⟩ := hr.root
  obtain ⟨hbytes, hzero⟩ := hr.offsetOf_root hnodes hsettle
  obtain ⟨fuel, hfuel⟩ := @Radix.walks arena _ hr hsorted nodes hreads 0 n Str.empty hroot [] []
  refine ⟨fuel, fun more => ?_⟩
  have hall : through exports [] = exports := List.filter_eq_self.mpr fun _ _ => rfl
  have hwalk := hfuel more
  rw [hzero, List.nil_append, List.append_nil] at hwalk
  unfold parse
  rw [if_neg hbytes, hwalk]
  show walkTrie _ more [] (through exports []) = _
  rw [hall]
  cases more <;> rfl

theorem build_eq {exports : List MachOExport} (hne : exports ≠ []) :
    build exports = (buildTree exports).map fun tree => placedBytes tree.nodes := by
  unfold build
  rw [if_neg hne]
  rfl

/-- `build` gives a trie that `parse` takes for the same exports, ordered by the bytes of
their names. -/
def RoundTrips (exports : List MachOExport) : Prop :=
  ∃ bytes found, build exports = some bytes ∧ Parses bytes found ∧ found.Perm exports
    ∧ found.Pairwise fun a b => BytesLt a.name.bytes b.name.bytes

/-- The trie of the exports, if there is one, has offsets that settle. -/
def TrieSettles (exports : List MachOExport) : Prop :=
  ∀ tree, buildTree exports = some tree → OffsetsSettle tree.nodes

/-- `_a`, at offset 16. -/
def soleExport : MachOExport := ⟨⟨[0x5f, 0x61], rfl⟩, 0, 16⟩

/-- One name, with data of two bytes. -/
theorem sole_settles {e : MachOExport} (hname : e.name = soleExport.name)
    (hflags : e.flags.toNat < 128) (haddress : e.addressOffset.toNat < 128) :
    TrieSettles [e] := by
  have hbuild : buildTree [e] = some (Tree.root.addLeaf 0 e.name e.info) := by
    unfold buildTree sortedExports
    rw [List.mergeSort_singleton]
    show (Tree.root.insert 0 e.name e.info).bind _ = _
    rw [insert_of_none (by rw [hname]; decide) rfl rfl]
    rfl
  intro tree htree
  rw [hbuild] at htree
  cases htree
  have hnodes : (Tree.root.addLeaf 0 e.name e.info).nodes
      = [⟨none, [(soleExport.name, 1)]⟩, ⟨some e.info, []⟩] := by
    rw [hname]
    rfl
  have hnone : ∀ children, encodeTerminalBytes ⟨none, children⟩ = [] := fun _ => rfl
  rw [hnodes]
  simp [OffsetsSettle, finalOffsets, iterateOffsets, placeNodes, encodedNodeSize, encodedChildSize,
    hnone, offsetOf, uleb128Size, soleExport, Str.length]

end Armv8Encode.MachO.ExportTrie
