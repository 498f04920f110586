/-
  Armv8Encode.Container.MachO.ExportTrieInsert — what the arena of an export trie holds.

  Each node of the arena has a path, the bytes of the edges that lead to it.
  Insertions come in the order of the names, so a new name is behind all that
  are there: it can only go along the last edges, and no node lies on its way
  but those it passes.  An insertion panics exactly if the name and an earlier
  one part inside a character.
-/
import Armv8Encode.Container.MachO.ExportTrie
import Mathlib.Data.List.Pairwise

namespace Armv8Encode.MachO.ExportTrie

open Lib

/-! ## §1. Common prefixes. -/

@[simp] theorem commonPrefixLen_nil_left (b : List Byte) : commonPrefixLen [] b = 0 := rfl

@[simp] theorem commonPrefixLen_nil_right (a : List Byte) : commonPrefixLen a [] = 0 := by
  cases a <;> rfl

theorem commonPrefixLen_cons (x y : Byte) (a b : List Byte) :
    commonPrefixLen (x :: a) (y :: b) = if x = y then commonPrefixLen a b + 1 else 0 := by
  unfold commonPrefixLen
  rw [List.zip_cons_cons, List.takeWhile_cons]
  by_cases h : x = y
  · rw [if_pos h, if_pos (beq_iff_eq.mpr h), List.length_cons]
  · rw [if_neg h, if_neg (by simpa using h), List.length_nil]

theorem commonPrefixLen_append (p a b : List Byte) :
    commonPrefixLen (p ++ a) (p ++ b) = p.length + commonPrefixLen a b := by
  induction p with
  | nil => simp
  | cons x p ih =>
    rw [List.cons_append, List.cons_append, commonPrefixLen_cons, if_pos rfl, ih, List.length_cons]
    omega

/-- Two lists as what they share and where they part. -/
theorem exists_parting (a b : List Byte) :
    ∃ c a' b', a = c ++ a' ∧ b = c ++ b' ∧ c.length = commonPrefixLen a b
      ∧ commonPrefixLen a' b' = 0 := by
  induction a generalizing b with
  | nil => exact ⟨[], [], b, rfl, rfl, rfl, rfl⟩
  | cons x a ih =>
    cases b with
    | nil => exact ⟨[], x :: a, [], rfl, rfl, rfl, rfl⟩
    | cons y b =>
      rw [commonPrefixLen_cons]
      by_cases h : x = y
      · obtain ⟨c, a', b', ha, hb, hlen, hpart⟩ := ih b
        rw [if_pos h, ← hlen]
        exact ⟨x :: c, a', b', by rw [ha]; rfl, by rw [hb, h]; rfl, rfl, hpart⟩
      · refine ⟨[], x :: a, y :: b, rfl, rfl, ?_, ?_⟩
        · rw [if_neg h]
          rfl
        · rw [commonPrefixLen_cons, if_neg h]

theorem commonPrefixLen_le (a b : List Byte) :
    commonPrefixLen a b ≤ a.length ∧ commonPrefixLen a b ≤ b.length := by
  obtain ⟨c, a', b', ha, hb, hlen, _⟩ := exists_parting a b
  rw [← hlen]
  constructor
  · rw [ha, List.length_append]
    omega
  · rw [hb, List.length_append]
    omega

theorem take_commonPrefixLen (a b : List Byte) :
    a.take (commonPrefixLen a b) = b.take (commonPrefixLen a b) := by
  obtain ⟨c, a', b', ha, hb, hlen, _⟩ := exists_parting a b
  rw [← hlen, ha, hb, List.take_left, List.take_left]

/-- What parts a list from another parts every continuation of it. -/
theorem commonPrefixLen_of_lt {a b : List Byte} (h : commonPrefixLen a b < a.length)
    (more : List Byte) : commonPrefixLen (a ++ more) b = commonPrefixLen a b := by
  induction a generalizing b with
  | nil => cases h
  | cons x a ih =>
    cases b with
    | nil => rw [commonPrefixLen_nil_right, commonPrefixLen_nil_right]
    | cons y b =>
      rw [List.cons_append, commonPrefixLen_cons, commonPrefixLen_cons]
      rw [commonPrefixLen_cons] at h
      by_cases hxy : x = y
      · rw [if_pos hxy, List.length_cons] at h
        rw [if_pos hxy, if_pos hxy, ih (by omega)]
      · rw [if_neg hxy, if_neg hxy]

/-- Lists that begin alike share a byte. -/
theorem commonPrefixLen_ne_zero {a b : List Byte} :
    commonPrefixLen a b ≠ 0 ↔ ∃ x a' b', a = x :: a' ∧ b = x :: b' := by
  cases a with
  | nil => simp
  | cons x a =>
    cases b with
    | nil => simp
    | cons y b =>
      rw [commonPrefixLen_cons]
      by_cases h : x = y
      · subst h
        rw [if_pos rfl]
        exact ⟨fun _ => ⟨x, a, b, rfl, rfl⟩, fun _ => Nat.succ_ne_zero _⟩
      · rw [if_neg h]
        simp [Ne.symm h]

/-- Two non-empty prefixes of one list share a byte. -/
theorem commonPrefixLen_ne_zero_of_isPrefixOf {a b l : List Byte} (ha : a <+: l) (hb : b <+: l)
    (hane : a ≠ []) (hbne : b ≠ []) : commonPrefixLen a b ≠ 0 := by
  obtain ⟨x, a, rfl⟩ := List.exists_cons_of_ne_nil hane
  obtain ⟨y, b, rfl⟩ := List.exists_cons_of_ne_nil hbne
  obtain ⟨s, rfl⟩ := ha
  obtain ⟨t, ht⟩ := hb
  rw [List.cons_append, List.cons_append] at ht
  rw [commonPrefixLen_ne_zero]
  exact ⟨x, a, b, rfl, by rw [(List.cons.inj ht).1]⟩

/-! ## §2. Nodes with their paths. -/

/-- The arena, each node with the bytes that lead to it. -/
abbrev Arena := List (TrieNode × List Byte)

def Arena.nodes (arena : Arena) : List TrieNode := arena.map Prod.fst

/-- Change the node `i` and put another one behind all. -/
def Arena.grow (arena : Arena) (i : Nat) (f : TrieNode → TrieNode) (y : TrieNode × List Byte) :
    Arena :=
  arena.modify i (fun x => (f x.1, x.2)) ++ [y]

/-- Change the node `i`. -/
def Arena.change (arena : Arena) (i : Nat) (f : TrieNode → TrieNode) : Arena :=
  arena.modify i fun x => (f x.1, x.2)

/-- First byte of an edge. -/
def firstByte (c : Str × Nat) : Nat := (c.1.bytes.head?.map BitVec.toNat).getD 0

/-- What an arena holds after the exports were inserted. -/
structure Radix (arena : Arena) (exports : List MachOExport) : Prop where
  root : ∃ n, arena[0]? = some (n, [])
  distinct : (arena.map Prod.snd).Nodup
  text : ∀ x ∈ arena, isUtf8 x.2 = true
  /-- Edges lead on. -/
  child : ∀ x ∈ arena, ∀ c ∈ x.1.children, c.1.bytes ≠ [] ∧ (0 : Byte) ∉ c.1.bytes
    ∧ ∃ n, arena[c.2]? = some (n, x.2 ++ c.1.bytes)
  sorted : ∀ x ∈ arena, (x.1.children.map firstByte).Pairwise (· < ·)
  terminal : ∀ x ∈ arena, ∀ t, x.1.terminal = some t
    ↔ ∃ e ∈ exports, e.name.bytes = x.2 ∧ e.info = t
  /-- What goes through a node ends there or goes on along an edge. -/
  covered : ∀ x ∈ arena, ∀ e ∈ exports, x.2 <+: e.name.bytes →
    e.name.bytes = x.2 ∨ ∃ c ∈ x.1.children, x.2 ++ c.1.bytes <+: e.name.bytes
  /-- No node lies inside an edge. -/
  within : ∀ x ∈ arena, ∀ y ∈ arena, x.2 <+: y.2 →
    y.2 = x.2 ∨ ∃ c ∈ x.1.children, x.2 ++ c.1.bytes <+: y.2
  inhabited : ∀ x ∈ arena, x.2 = [] ∨ ∃ e ∈ exports, x.2 <+: e.name.bytes
  fresh : exports = [] → arena = [(TrieNode.empty, [])]

theorem radix_root : Radix [(TrieNode.empty, [])] [] := by
  refine ⟨⟨_, rfl⟩, List.nodup_singleton _, ?_, ?_, ?_, ?_, ?_, ?_, ?_, fun _ => rfl⟩ <;>
    simp [TrieNode.empty, isUtf8, utf8Run]

section Grow

variable {arena : Arena} {i : Nat} {n : TrieNode} {p : List Byte} {f : TrieNode → TrieNode}
  {y : TrieNode × List Byte}

theorem getElem?_change (j : Nat) :
    (arena.change i f)[j]? = arena[j]?.map fun x => (if i = j then f x.1 else x.1, x.2) := by
  unfold Arena.change
  rw [List.getElem?_modify]
  cases arena[j]? with
  | none => rfl
  | some x => by_cases hij : i = j <;> simp [hij]

theorem nodes_change : (arena.change i f).nodes = arena.nodes.modify i f := by
  unfold Arena.nodes
  refine List.ext_getElem? fun j => ?_
  rw [List.getElem?_map, getElem?_change, List.getElem?_modify, List.getElem?_map]
  cases arena[j]? with
  | none => rfl
  | some x => by_cases hij : i = j <;> simp [hij]

theorem paths_change : (arena.change i f).map Prod.snd = arena.map Prod.snd := by
  refine List.ext_getElem? fun j => ?_
  rw [List.getElem?_map, getElem?_change, List.getElem?_map]
  cases arena[j]? with
  | none => rfl
  | some x => rfl

/-- Indices keep their paths. -/
theorem exists_change {j : Nat} {m : TrieNode} {q : List Byte} (h : arena[j]? = some (m, q)) :
    ∃ m', (arena.change i f)[j]? = some (m', q) := by
  rw [getElem?_change, h]
  exact ⟨_, rfl⟩

/-- What is in the changed arena: the changed node, and those of other paths. -/
theorem mem_change (hdistinct : (arena.map Prod.snd).Nodup) (h : arena[i]? = some (n, p))
    {x : TrieNode × List Byte} (hx : x ∈ arena.change i f) :
    x = (f n, p) ∨ x ∈ arena ∧ x.2 ≠ p := by
  obtain ⟨j, hj⟩ := List.mem_iff_getElem?.mp hx
  rw [getElem?_change] at hj
  obtain ⟨z, hz, rfl⟩ := Option.map_eq_some_iff.mp hj
  by_cases hij : i = j
  · subst hij
    rw [h] at hz
    cases hz
    exact .inl (by rw [if_pos rfl])
  · rw [if_neg hij]
    refine .inr ⟨List.mem_of_getElem? hz, fun hp => hij ?_⟩
    have hi' : (arena.map Prod.snd)[i]? = some p := by
      rw [List.getElem?_map, h]
      rfl
    have hj' : (arena.map Prod.snd)[j]? = some p := by
      rw [List.getElem?_map, hz]
      exact congrArg some hp
    obtain ⟨hlt, _⟩ := List.getElem?_eq_some_iff.mp hi'
    exact (List.getElem?_inj hlt hdistinct).mp (hi'.trans hj'.symm)

theorem grow_eq : arena.grow i f y = arena.change i f ++ [y] := rfl

theorem nodes_grow (h : arena[i]? = some (n, p)) :
    (arena.grow i f y).nodes = (arena.nodes ++ [y.1]).modify i f := by
  obtain ⟨hlt, _⟩ := List.getElem?_eq_some_iff.mp h
  have hlen : i < arena.nodes.length := by
    unfold Arena.nodes
    rwa [List.length_map]
  show (arena.change i f ++ [y]).map Prod.fst = _
  rw [List.map_append]
  show (arena.change i f).nodes ++ [y.1] = _
  rw [nodes_change]
  refine List.ext_getElem? fun j => ?_
  rw [List.getElem?_modify, List.getElem?_append, List.getElem?_append, List.length_modify]
  by_cases hj : j < arena.nodes.length
  · rw [if_pos hj, if_pos hj, List.getElem?_modify]
  · rw [if_neg hj, if_neg hj]
    simp [show i ≠ j by omega]

theorem paths_grow : (arena.grow i f y).map Prod.snd = arena.map Prod.snd ++ [y.2] := by
  rw [grow_eq, List.map_append, paths_change]
  rfl

theorem exists_grow {j : Nat} {m : TrieNode} {q : List Byte} (h : arena[j]? = some (m, q)) :
    ∃ m', (arena.grow i f y)[j]? = some (m', q) := by
  obtain ⟨m', hm'⟩ := @exists_change arena i f j m q h
  obtain ⟨hlt, _⟩ := List.getElem?_eq_some_iff.mp hm'
  exact ⟨m', by rw [grow_eq, List.getElem?_append_left hlt, hm']⟩

theorem grow_last : (arena.grow i f y)[arena.length]? = some y := by
  unfold Arena.grow
  rw [List.getElem?_append_right (by rw [List.length_modify]), List.length_modify, Nat.sub_self]
  rfl

/-- What is in the grown arena: the new node, the changed one, and those of other paths. -/
theorem mem_grow (hdistinct : (arena.map Prod.snd).Nodup) (h : arena[i]? = some (n, p))
    {x : TrieNode × List Byte} (hx : x ∈ arena.grow i f y) :
    x = y ∨ x = (f n, p) ∨ x ∈ arena ∧ x.2 ≠ p := by
  rw [grow_eq] at hx
  obtain hx | hx := List.mem_append.mp hx
  · exact .inr (mem_change hdistinct h hx)
  · exact .inl (List.mem_singleton.mp hx)

end Grow

/-! ## §3. A name behind all others. -/

theorem firstByte_cons {c : Str × Nat} {x : Byte} {bytes : List Byte} (h : c.1.bytes = x :: bytes) :
    firstByte c = x.toNat := by
  unfold firstByte
  rw [h]
  rfl

section Insert

variable {arena : Arena} {exports : List MachOExport} {i : Nat} {n : TrieNode} {p : List Byte}

/-- Edges of a node that share a byte are one. -/
theorem Radix.edge_unique (hr : Radix arena exports) {x : TrieNode × List Byte} (hx : x ∈ arena)
    {c d : Str × Nat} (hc : c ∈ x.1.children) (hd : d ∈ x.1.children)
    (h : commonPrefixLen c.1.bytes d.1.bytes ≠ 0) : c = d := by
  obtain ⟨b, s, t, hs, ht⟩ := commonPrefixLen_ne_zero.mp h
  have hnodup : (x.1.children.map firstByte).Nodup := (hr.sorted x hx).imp Nat.ne_of_lt
  exact List.inj_on_of_nodup_map hnodup hc hd (by rw [firstByte_cons hs, firstByte_cons ht])

/-- Nodes on the way to `q` go on towards it, if none comes after `p`. -/
theorem Radix.goesOn (hr : Radix arena exports) (hp : (n, p) ∈ arena) {q : List Byte}
    (hpq : p <+: q) (hlast : ∀ x ∈ arena, p <+: x.2 → x.2 <+: q → x.2 = p)
    {x : TrieNode × List Byte} (hx : x ∈ arena) (hne : x.2 ≠ p) (hxq : x.2 <+: q) :
    ∃ c ∈ x.1.children, x.2 ++ c.1.bytes <+: q := by
  obtain hxp | hpx := List.prefix_or_prefix_of_prefix hxq hpq
  · obtain heq | ⟨c, hc, hcp⟩ := hr.within x hx (n, p) hp hxp
    · exact absurd heq.symm hne
    · exact ⟨c, hc, hcp.trans hpq⟩
  · exact absurd (hlast x hx hpx hxq) hne

variable {e : MachOExport} {name : Str}

/-- A name that comes behind all begins none of them, and no path. -/
theorem Radix.not_prefix_path (hr : Radix arena exports) (hne : e.name.bytes ≠ [])
    (hless : ∀ x ∈ exports, BytesLt x.name.bytes e.name.bytes) {x : TrieNode × List Byte}
    (hx : x ∈ arena) : ¬ e.name.bytes <+: x.2 := by
  intro hpre
  obtain hnil | ⟨d, hd, hxd⟩ := hr.inhabited x hx
  · rw [hnil, List.prefix_nil] at hpre
    exact hne hpre
  · exact not_bytesLt_of_isPrefixOf (hpre.trans hxd) (hless d hd)

/-- **A leaf for a name that shares no byte with an edge.** -/
theorem Radix.addLeaf (hr : Radix arena exports) (hi : arena[i]? = some (n, p))
    (hn : e.name.bytes = p ++ name.bytes) (hname : name.bytes ≠ [])
    (hnul : (0 : Byte) ∉ e.name.bytes)
    (hless : ∀ x ∈ exports, BytesLt x.name.bytes e.name.bytes)
    (hnone : ∀ c ∈ n.children, commonPrefixLen c.1.bytes name.bytes = 0) :
    Radix (arena.grow i (fun n => { n with children := n.children ++ [(name, arena.length)] })
      (⟨some e.info, []⟩, e.name.bytes)) (exports ++ [e]) := by
  have hmem : (n, p) ∈ arena := List.mem_of_getElem? hi
  have hpe : p <+: e.name.bytes := by
    rw [hn]
    exact List.prefix_append p _
  have hene : e.name.bytes ≠ [] := by
    rw [hn]
    exact List.append_ne_nil_of_right_ne_nil p hname
  have hahead : ∀ x ∈ arena, ¬ e.name.bytes <+: x.2 := fun x hx => hr.not_prefix_path hene hless hx
  have hbehind : ∀ d ∈ exports, ¬ e.name.bytes <+: d.name.bytes :=
    fun d hd hpre => not_bytesLt_of_isPrefixOf hpre (hless d hd)
  -- An edge of the node would share a byte with the name.
  have hlast : ∀ x ∈ arena, p <+: x.2 → x.2 <+: e.name.bytes → x.2 = p := by
    intro x hx hpx hxe
    obtain heq | ⟨c, hc, hcx⟩ := hr.within (n, p) hmem x hx hpx
    · exact heq
    · have hce := hcx.trans hxe
      rw [hn, List.prefix_append_right_inj] at hce
      exact absurd (hnone c hc)
        (commonPrefixLen_ne_zero_of_isPrefixOf hce List.prefix_rfl (hr.child (n, p) hmem c hc).1 hname)
  have hgoesOn := fun {x} hx hne hxe => @Radix.goesOn _ _ _ _ hr hmem _ hpe hlast x hx hne hxe
  have hcases := fun {x} hx => @mem_grow arena i n p
    (fun n => { n with children := n.children ++ [(name, arena.length)] })
    (⟨some e.info, []⟩, e.name.bytes) hr.distinct hi x hx
  refine ⟨?_, ?_, ?_, ?_, ?_, ?_, ?_, ?_, ?_, ?_⟩
  · obtain ⟨r, hroot⟩ := hr.root
    exact exists_grow hroot
  · rw [paths_grow]
    refine hr.distinct.append (List.nodup_singleton _) ?_
    intro q hq hq'
    obtain ⟨x, hx, rfl⟩ := List.mem_map.mp hq
    exact hahead x hx (by rw [List.mem_singleton.mp hq'])
  · intro x hx
    obtain rfl | rfl | ⟨hx', _⟩ := hcases hx
    · exact e.name.valid
    · exact hr.text (n, p) hmem
    · exact hr.text x hx'
  · intro x hx c hc
    obtain rfl | rfl | ⟨hx', _⟩ := hcases hx
    · cases hc
    · obtain hc | hc := List.mem_append.mp hc
      · obtain ⟨hcne, hcnul, m, hm⟩ := hr.child (n, p) hmem c hc
        exact ⟨hcne, hcnul, exists_grow hm⟩
      · obtain rfl := List.mem_singleton.mp hc
        refine ⟨hname, fun hzero => hnul ?_, ⟨some e.info, []⟩, ?_⟩
        · rw [hn]
          exact List.mem_append_right p hzero
        · rw [grow_last, hn]
    · obtain ⟨hcne, hcnul, m, hm⟩ := hr.child x hx' c hc
      exact ⟨hcne, hcnul, exists_grow hm⟩
  · intro x hx
    obtain rfl | rfl | ⟨hx', _⟩ := hcases hx
    · exact .nil
    · rw [List.map_append, List.pairwise_append]
      refine ⟨hr.sorted (n, p) hmem, List.pairwise_singleton _ _, ?_⟩
      intro a ha b hb
      obtain ⟨c, hc, rfl⟩ := List.mem_map.mp ha
      obtain rfl := List.mem_singleton.mp hb
      -- An export goes through the edge, and it comes before the new name.
      obtain ⟨hcne, _, m, hm⟩ := hr.child (n, p) hmem c hc
      obtain ⟨x, cs, hcs⟩ := List.exists_cons_of_ne_nil hcne
      obtain ⟨y, ns, hns⟩ := List.exists_cons_of_ne_nil hname
      have hxy : x ≠ y := by
        rintro rfl
        exact commonPrefixLen_ne_zero.mpr ⟨x, cs, ns, hcs, hns⟩ (hnone c hc)
      obtain hnil | ⟨d, hd, t, ht⟩ := hr.inhabited _ (List.mem_of_getElem? hm)
      · rw [List.append_eq_nil_iff] at hnil
        exact absurd hnil.2 hcne
      · have hlt := hless d hd
        rw [← ht, hn, hcs, hns, List.append_assoc, List.cons_append] at hlt
        rw [firstByte_cons hcs, firstByte_cons (c := (name, arena.length)) hns]
        exact lt_of_bytesLt hlt hxy
    · exact hr.sorted x hx'
  · intro x hx t
    have hold : x.2 ≠ e.name.bytes → ((∃ d ∈ exports ++ [e], d.name.bytes = x.2 ∧ d.info = t)
        ↔ ∃ d ∈ exports, d.name.bytes = x.2 ∧ d.info = t) := by
      intro hne
      constructor
      · rintro ⟨d, hd, hname, hinfo⟩
        obtain hd | hd := List.mem_append.mp hd
        · exact ⟨d, hd, hname, hinfo⟩
        · obtain rfl := List.mem_singleton.mp hd
          exact absurd hname.symm hne
      · rintro ⟨d, hd, hd'⟩
        exact ⟨d, List.mem_append_left _ hd, hd'⟩
    obtain rfl | rfl | ⟨hx', _⟩ := hcases hx
    · constructor
      · intro ht
        cases ht
        exact ⟨e, List.mem_append_right _ (List.mem_singleton_self e), rfl, rfl⟩
      · rintro ⟨d, hd, hname, rfl⟩
        obtain hd | hd := List.mem_append.mp hd
        · exact absurd (by rw [hname]) (hbehind d hd)
        · rw [List.mem_singleton.mp hd]
    · rw [hold (fun heq => hahead (n, p) hmem (by rw [heq]))]
      exact hr.terminal (n, p) hmem t
    · rw [hold (fun heq => hahead x hx' (by rw [heq]))]
      exact hr.terminal x hx' t
  · intro x hx d hd hxd
    obtain rfl | rfl | ⟨hx', hxp⟩ := hcases hx
    · obtain hd | hd := List.mem_append.mp hd
      · exact absurd hxd (hbehind d hd)
      · exact .inl (by rw [List.mem_singleton.mp hd])
    · obtain hd | hd := List.mem_append.mp hd
      · obtain heq | ⟨c, hc, hcd⟩ := hr.covered (n, p) hmem d hd hxd
        · exact .inl heq
        · exact .inr ⟨c, List.mem_append_left _ hc, hcd⟩
      · obtain rfl := List.mem_singleton.mp hd
        exact .inr ⟨_, List.mem_append_right _ (List.mem_singleton_self _), by rw [hn]⟩
    · obtain hd | hd := List.mem_append.mp hd
      · exact hr.covered x hx' d hd hxd
      · obtain rfl := List.mem_singleton.mp hd
        exact .inr (hgoesOn hx' hxp hxd)
  · intro x hx y hy hxy
    obtain rfl | rfl | ⟨hx', hxp⟩ := hcases hx
    · obtain rfl | rfl | ⟨hy', _⟩ := hcases hy
      · exact .inl rfl
      · exact absurd hxy (hahead (n, p) hmem)
      · exact absurd hxy (hahead y hy')
    · obtain rfl | rfl | ⟨hy', _⟩ := hcases hy
      · exact .inr ⟨_, List.mem_append_right _ (List.mem_singleton_self _), by rw [hn]⟩
      · exact .inl rfl
      · obtain heq | ⟨c, hc, hcd⟩ := hr.within (n, p) hmem y hy' hxy
        · exact .inl heq
        · exact .inr ⟨c, List.mem_append_left _ hc, hcd⟩
    · obtain rfl | rfl | ⟨hy', _⟩ := hcases hy
      · exact .inr (hgoesOn hx' hxp hxy)
      · exact hr.within x hx' (n, p) hmem hxy
      · exact hr.within x hx' y hy' hxy
  · intro x hx
    have hmono : (x.2 = [] ∨ ∃ d ∈ exports, x.2 <+: d.name.bytes) →
        x.2 = [] ∨ ∃ d ∈ exports ++ [e], x.2 <+: d.name.bytes := by
      rintro (hnil | ⟨d, hd, hxd⟩)
      · exact .inl hnil
      · exact .inr ⟨d, List.mem_append_left _ hd, hxd⟩
    obtain rfl | rfl | ⟨hx', _⟩ := hcases hx
    · exact .inr ⟨e, List.mem_append_right _ (List.mem_singleton_self e), List.prefix_rfl⟩
    · exact hmono (hr.inhabited (n, p) hmem)
    · exact hmono (hr.inhabited x hx')
  · intro hnil
    exact absurd (List.append_eq_nil_iff.mp hnil).2 (List.cons_ne_nil e [])

theorem mem_set_of_ne {cs : List (Str × Nat)} {ci : Nat} {c d a : Str × Nat}
    (hc : cs[ci]? = some c) (hd : d ∈ cs) (hne : d ≠ c) : d ∈ cs.set ci a := by
  obtain ⟨j, hj⟩ := List.mem_iff_getElem?.mp hd
  refine List.mem_iff_getElem?.mpr ⟨j, ?_⟩
  rw [List.getElem?_set, if_neg, hj]
  rintro rfl
  rw [hc] at hj
  exact hne (Option.some.inj hj).symm

/-- **A node in an edge.** -/
theorem Radix.split (hr : Radix arena exports) (hi : arena[i]? = some (n, p)) {ci child : Nat}
    {edge head tail : Str} (hc : n.children[ci]? = some (edge, child))
    (hedge : edge.bytes = head.bytes ++ tail.bytes) (hhead : head.bytes ≠ [])
    (htail : tail.bytes ≠ []) :
    Radix (arena.grow i (fun n => { n with children := n.children.set ci (head, arena.length) })
      (⟨none, [(tail, child)]⟩, p ++ head.bytes)) exports := by
  have hmem : (n, p) ∈ arena := List.mem_of_getElem? hi
  have hcm : (edge, child) ∈ n.children := List.mem_of_getElem? hc
  obtain ⟨hcne, hcnul, m, hm⟩ := hr.child (n, p) hmem _ hcm
  obtain ⟨hci, _⟩ := List.getElem?_eq_some_iff.mp hc
  have hpq : p <+: p ++ head.bytes := List.prefix_append p _
  have hbeyond : ¬ p ++ head.bytes <+: p := by
    intro h
    have hlen := h.length_le
    rw [List.length_append] at hlen
    exact hhead (List.length_eq_zero_iff.mp (by omega))
  -- What begins with the head goes along the edge.
  have hsame : ∀ d ∈ n.children, ∀ l, p ++ d.1.bytes <+: l → p ++ head.bytes <+: l →
      d = (edge, child) := by
    rintro d hd l hdl ⟨s, rfl⟩
    rw [List.append_assoc, List.prefix_append_right_inj] at hdl
    refine hr.edge_unique hmem hd hcm ?_
    obtain ⟨x, hs, hhs⟩ := List.exists_cons_of_ne_nil hhead
    obtain ⟨y, ds, hds⟩ := List.exists_cons_of_ne_nil (hr.child (n, p) hmem d hd).1
    have hxy := commonPrefixLen_ne_zero_of_isPrefixOf hdl (List.prefix_append head.bytes s)
      (hr.child (n, p) hmem d hd).1 hhead
    rw [commonPrefixLen_ne_zero] at hxy ⊢
    obtain ⟨z, d', h', hd', hh'⟩ := hxy
    exact ⟨z, d', h' ++ tail.bytes, hd', by rw [hedge, hh']; rfl⟩
  have hshort : ¬ p ++ edge.bytes <+: p ++ head.bytes := by
    rw [List.prefix_append_right_inj, hedge]
    intro h
    have hlen := h.length_le
    rw [List.length_append] at hlen
    exact htail (List.length_eq_zero_iff.mp (by omega))
  have hlast : ∀ x ∈ arena, p <+: x.2 → x.2 <+: p ++ head.bytes → x.2 = p := by
    intro x hx hpx hxq
    obtain heq | ⟨d, hd, hdx⟩ := hr.within (n, p) hmem x hx hpx
    · exact heq
    · have hdq := hdx.trans hxq
      cases hsame d hd _ hdq List.prefix_rfl
      exact absurd hdq hshort
  have hnotin : ∀ x ∈ arena, x.2 ≠ p ++ head.bytes := by
    intro x hx heq
    have hp := hlast x hx (by rw [heq]; exact hpq) (by rw [heq])
    exact hbeyond (by rw [← heq, hp])
  have hcases := fun {x} hx => @mem_grow arena i n p
    (fun n => { n with children := n.children.set ci (head, arena.length) })
    (⟨none, [(tail, child)]⟩, p ++ head.bytes) hr.distinct hi x hx
  -- An edge of the node, or what it has become.
  have hnext : ∀ l, (∃ d ∈ n.children, p ++ d.1.bytes <+: l) →
      ∃ d ∈ n.children.set ci (head, arena.length), p ++ d.1.bytes <+: l := by
    rintro l ⟨d, hd, hdl⟩
    by_cases heq : d = (edge, child)
    · refine ⟨_, List.mem_set hci _, List.IsPrefix.trans ?_ hdl⟩
      rw [heq, hedge, ← List.append_assoc]
      exact List.prefix_append _ _
    · exact ⟨d, mem_set_of_ne hc hd heq, hdl⟩
  have hthrough : ∀ l, p ++ head.bytes <+: l → (∃ d ∈ n.children, p ++ d.1.bytes <+: l) →
      ∃ d ∈ [(tail, child)], p ++ head.bytes ++ d.1.bytes <+: l := by
    rintro l hql ⟨d, hd, hdl⟩
    cases hsame d hd l hdl hql
    rw [hedge, ← List.append_assoc] at hdl
    exact ⟨_, List.mem_singleton_self _, hdl⟩
  refine ⟨?_, ?_, ?_, ?_, ?_, ?_, ?_, ?_, ?_, ?_⟩
  · obtain ⟨r, hroot⟩ := hr.root
    exact exists_grow hroot
  · rw [paths_grow]
    refine hr.distinct.append (List.nodup_singleton _) ?_
    intro q hq hq'
    obtain ⟨x, hx, rfl⟩ := List.mem_map.mp hq
    exact hnotin x hx (List.mem_singleton.mp hq')
  · intro x hx
    obtain rfl | rfl | ⟨hx', _⟩ := hcases hx
    · show isUtf8 (p ++ head.bytes) = true
      rw [isUtf8_append_left (hr.text (n, p) hmem)]
      exact head.valid
    · exact hr.text (n, p) hmem
    · exact hr.text x hx'
  · intro x hx d hd
    obtain rfl | rfl | ⟨hx', _⟩ := hcases hx
    · obtain rfl := List.mem_singleton.mp hd
      refine ⟨htail, fun hzero => hcnul ?_, ?_⟩
      · rw [hedge]
        exact List.mem_append_right _ hzero
      · obtain ⟨m', hm'⟩ := exists_grow hm
        rw [hedge, ← List.append_assoc] at hm'
        exact ⟨m', hm'⟩
    · obtain hd | rfl := List.mem_or_eq_of_mem_set hd
      · obtain ⟨hdne, hdnul, m', hm'⟩ := hr.child (n, p) hmem d hd
        exact ⟨hdne, hdnul, exists_grow hm'⟩
      · refine ⟨hhead, fun hzero => hcnul ?_, _, grow_last⟩
        rw [hedge]
        exact List.mem_append_left _ hzero
    · obtain ⟨hdne, hdnul, m', hm'⟩ := hr.child x hx' d hd
      exact ⟨hdne, hdnul, exists_grow hm'⟩
  · intro x hx
    obtain rfl | rfl | ⟨hx', _⟩ := hcases hx
    · exact List.pairwise_singleton _ _
    · -- The head begins as the edge did.
      have hfirst : firstByte (head, arena.length) = firstByte (edge, child) := by
        obtain ⟨y, hs, hhs⟩ := List.exists_cons_of_ne_nil hhead
        rw [@firstByte_cons (head, arena.length) _ _ hhs,
          @firstByte_cons (edge, child) y (hs ++ tail.bytes) (by rw [hedge, hhs]; rfl)]
      have hmap : (n.children.set ci (head, arena.length)).map firstByte
          = n.children.map firstByte := by
        refine List.ext_getElem? fun j => ?_
        rw [List.map_set, List.getElem?_set, hfirst]
        split
        · next heq =>
          subst heq
          rw [List.length_map, if_pos hci, List.getElem?_map, hc]
          rfl
        · rfl
      show ((n.children.set ci (head, arena.length)).map firstByte).Pairwise _
      rw [hmap]
      exact hr.sorted (n, p) hmem
    · exact hr.sorted x hx'
  · intro x hx t
    obtain rfl | rfl | ⟨hx', _⟩ := hcases hx
    · constructor
      · intro ht
        cases ht
      rintro ⟨d, hd, hname, -⟩
      dsimp only at hname
      -- An export that ends inside the edge would not go along it.
      obtain heq | ⟨c, hcn, hcd⟩ := hr.covered (n, p) hmem d hd (by rw [hname]; exact hpq)
      · exact absurd (by rw [← hname, heq]) hbeyond
      · rw [hname] at hcd
        cases hsame c hcn _ hcd List.prefix_rfl
        exact absurd hcd hshort
    · exact hr.terminal (n, p) hmem t
    · exact hr.terminal x hx' t
  · intro x hx d hd hxd
    obtain rfl | rfl | ⟨hx', _⟩ := hcases hx
    · obtain heq | hcover := hr.covered (n, p) hmem d hd (hpq.trans hxd)
      · rw [heq] at hxd
        exact absurd hxd hbeyond
      · exact .inr (hthrough _ hxd hcover)
    · obtain heq | hcover := hr.covered (n, p) hmem d hd hxd
      · exact .inl heq
      · exact .inr (hnext _ hcover)
    · exact hr.covered x hx' d hd hxd
  · intro x hx y hy hxy
    obtain rfl | rfl | ⟨hx', hxp⟩ := hcases hx
    · obtain rfl | rfl | ⟨hy', _⟩ := hcases hy
      · exact .inl rfl
      · exact absurd hxy hbeyond
      · obtain heq | hcover := hr.within (n, p) hmem y hy' (hpq.trans hxy)
        · rw [heq] at hxy
          exact absurd hxy hbeyond
        · exact .inr (hthrough _ hxy hcover)
    · obtain rfl | rfl | ⟨hy', _⟩ := hcases hy
      · exact .inr ⟨_, List.mem_set hci _, List.prefix_rfl⟩
      · exact .inl rfl
      · obtain heq | hcover := hr.within (n, p) hmem y hy' hxy
        · exact .inl heq
        · exact .inr (hnext _ hcover)
    · obtain rfl | rfl | ⟨hy', _⟩ := hcases hy
      · exact .inr (hr.goesOn hmem hpq hlast hx' hxp hxy)
      · exact hr.within x hx' (n, p) hmem hxy
      · exact hr.within x hx' y hy' hxy
  · intro x hx
    obtain rfl | rfl | ⟨hx', _⟩ := hcases hx
    · obtain hnil | ⟨d, hd, hxd⟩ := hr.inhabited _ (List.mem_of_getElem? hm)
      · exact absurd (List.append_eq_nil_iff.mp hnil).2 hcne
      · refine .inr ⟨d, hd, List.IsPrefix.trans ?_ hxd⟩
        rw [hedge, ← List.append_assoc]
        exact List.prefix_append _ _
    · exact hr.inhabited (n, p) hmem
    · exact hr.inhabited x hx'
  · intro hnil
    have hroot := hr.fresh hnil
    rw [hroot] at hmem
    cases List.mem_singleton.mp hmem
    cases hcm

/-! ## §4. Insertion. -/

/-- The names part inside a character. -/
def PartsInside (a b : Str) : Prop := a.isCharBoundary (commonPrefixLen b.bytes a.bytes) = false

instance (a b : Str) : Decidable (PartsInside a b) := inferInstanceAs (Decidable (_ = _))

theorem radix_emptyName (he : e.name.bytes = []) : Radix [(⟨some e.info, []⟩, [])] [e] := by
  refine ⟨⟨_, rfl⟩, List.nodup_singleton _, ?_, ?_, ?_, ?_, ?_, ?_, ?_, ?_⟩ <;>
    simp [isUtf8, utf8Run, he]

theorem matchingChild_getElem? {children : List (Str × Nat)} {c : Str × Nat} {ci : Nat}
    (h : matchingChild children name = some (c, ci)) : children[ci]? = some c := by
  have hmem := List.mem_of_find?_eq_some h
  exact List.mem_zipIdx_iff_getElem?.mp hmem

theorem commonPrefixLen_eq_zero_of_matchingChild {children : List (Str × Nat)}
    (h : matchingChild children name = none) {c : Str × Nat} (hc : c ∈ children) :
    commonPrefixLen c.1.bytes name.bytes = 0 := by
  obtain ⟨j, hj⟩ := List.mem_iff_getElem?.mp hc
  have hmem : (c, j) ∈ children.zipIdx := List.mem_zipIdx_iff_getElem?.mpr hj
  have hnot := List.find?_eq_none.mp h _ hmem
  simpa using hnot

/-- Boundaries of what follows a text are boundaries of the whole. -/
theorem isCharBoundary_suffix {s t : Str} (hs : s.bytes = p ++ t.bytes) (hp : isUtf8 p = true)
    {k : Nat} (hk : k ≤ t.length) : s.isCharBoundary (p.length + k) = t.isCharBoundary k := by
  have hlen : p.length + k ≤ s.length := by
    unfold Str.length at hk ⊢
    rw [hs, List.length_append]
    omega
  rw [Bool.eq_iff_iff, Str.isCharBoundary_iff hlen, Str.isCharBoundary_iff hk, hs,
    List.take_length_add_append, isUtf8_append_left hp]

/-- Where an export and the new name part, below a node that both pass. -/
theorem commonPrefixLen_below {d : MachOExport} {rest : List Byte}
    (hd : d.name.bytes = p ++ rest) (hn : e.name.bytes = p ++ name.bytes) :
    commonPrefixLen d.name.bytes e.name.bytes = p.length + commonPrefixLen rest name.bytes := by
  rw [hd, hn, commonPrefixLen_append]

theorem commonPrefixLen_edge {d : MachOExport} {edge : List Byte}
    (hd : p ++ edge <+: d.name.bytes) (hn : e.name.bytes = p ++ name.bytes)
    (hlt : commonPrefixLen edge name.bytes < edge.length) :
    commonPrefixLen d.name.bytes e.name.bytes
      = p.length + commonPrefixLen edge name.bytes := by
  obtain ⟨more, hmore⟩ := hd
  rw [List.append_assoc] at hmore
  rw [commonPrefixLen_below hmore.symm hn, commonPrefixLen_of_lt hlt]

theorem insert_of_empty (tree : Tree) (i : Nat) (info : TerminalInfo) (h : name.length = 0) :
    tree.insert i name info = some (tree.setTerminal i info) := by
  rw [Tree.insert, dif_pos h]

theorem insert_of_none {tree : Tree} {info : TerminalInfo} (hname : name.length ≠ 0)
    (hnode : tree.nodes[i]? = some n) (hmatch : matchingChild n.children name = none) :
    tree.insert i name info = some (tree.addLeaf i name info) := by
  rw [Tree.insert, dif_neg hname, hnode]
  dsimp only
  split
  · rfl
  · next hsome =>
    rw [hmatch] at hsome
    cases hsome

theorem insert_of_match {tree : Tree} {info : TerminalInfo} {edge : Str} {child ci : Nat}
    (hname : name.length ≠ 0) (hnode : tree.nodes[i]? = some n)
    (hmatch : matchingChild n.children name = some ((edge, child), ci)) :
    tree.insert i name info
      = (name.startingAt (commonPrefixLen edge.bytes name.bytes)).bind fun rest =>
        if commonPrefixLen edge.bytes name.bytes = edge.length then tree.insert child rest info
        else (edge.upTo (commonPrefixLen edge.bytes name.bytes)).bind fun head =>
          (edge.startingAt (commonPrefixLen edge.bytes name.bytes)).bind fun tail =>
            (tree.split i ci head tail child).insert tree.nodes.length rest info := by
  rw [Tree.insert, dif_neg hname, hnode]
  dsimp only
  split
  · next hnone =>
    rw [hmatch] at hnone
    cases hnone
  · next edge' child' ci' hsome =>
    rw [hmatch] at hsome
    cases hsome
    split
    · next hrest =>
      rw [hrest]
      rfl
    · next rest hrest =>
      rw [hrest, Option.bind_some]
      refine if_congr Iff.rfl rfl ?_
      cases edge.upTo (commonPrefixLen edge.bytes name.bytes) with
      | none => rfl
      | some head =>
        cases edge.startingAt (commonPrefixLen edge.bytes name.bytes) with
        | none => rfl
        | some tail => rfl

/-- **An insertion that cuts no character** keeps what the arena holds and adds the
export. -/
theorem Radix.insert {tree : Tree} (hr : Radix arena exports) (hnodes : arena.nodes = tree.nodes)
    (hi : arena[i]? = some (n, p)) (hn : e.name.bytes = p ++ name.bytes)
    (hnul : (0 : Byte) ∉ e.name.bytes)
    (hless : ∀ x ∈ exports, BytesLt x.name.bytes e.name.bytes)
    (hparts : ∀ x ∈ exports, p <+: x.name.bytes → ¬ PartsInside e.name x.name) :
    ∃ tree' arena', tree.insert i name e.info = some tree' ∧ Arena.nodes arena' = tree'.nodes
      ∧ Radix arena' (exports ++ [e]) := by
  obtain ⟨bound, hbound⟩ : ∃ bound, name.length < bound := ⟨_, Nat.lt_succ_self _⟩
  induction bound generalizing tree arena i n p name with
  | zero => exact absurd hbound (Nat.not_lt_zero _)
  | succ bound ih =>
    have hmem : (n, p) ∈ arena := List.mem_of_getElem? hi
    have hnode : tree.nodes[i]? = some n := by
      rw [← hnodes]
      unfold Arena.nodes
      rw [List.getElem?_map, hi]
      rfl
    by_cases hname : name.length = 0
    · -- Nothing is left of the name: it is the empty one, and the first.
      rw [insert_of_empty tree i e.info hname]
      have hnil : name.bytes = [] := List.length_eq_zero_iff.mp hname
      rw [hnil, List.append_nil] at hn
      have hp : p = [] := by
        obtain hp | ⟨d, hd, hpd⟩ := hr.inhabited (n, p) hmem
        · exact hp
        · exact absurd (hless d hd) (not_bytesLt_of_isPrefixOf (by rw [hn]; exact hpd))
      have hexports : exports = [] := by
        refine List.eq_nil_iff_forall_not_mem.mpr fun d hd => ?_
        have hlt := hless d hd
        rw [hn, hp] at hlt
        exact not_bytesLt_nil _ hlt
      subst hexports
      have harena := hr.fresh rfl
      subst harena
      obtain rfl : i = 0 := by
        obtain ⟨hlt, _⟩ := List.getElem?_eq_some_iff.mp hi
        simpa using hlt
      refine ⟨_, [(⟨some e.info, []⟩, [])], rfl, ?_, radix_emptyName (by rw [hn, hp])⟩
      unfold Tree.setTerminal Tree.modify
      rw [← hnodes]
      rfl
    · have hne : name.bytes ≠ [] := fun h => hname (List.length_eq_zero_iff.mpr h)
      cases hmatch : matchingChild n.children name with
      | none =>
        -- No edge shares a byte with the name.
        rw [insert_of_none hname hnode hmatch]
        refine ⟨_, _, rfl, ?_, hr.addLeaf hi hn hne hnul hless fun c hc =>
          commonPrefixLen_eq_zero_of_matchingChild hmatch hc⟩
        rw [nodes_grow hi, hnodes]
        unfold Tree.addLeaf Tree.modify
        rw [← hnodes]
        unfold Arena.nodes
        rw [List.length_map]
      | some found =>
        obtain ⟨⟨edge, child⟩, ci⟩ := found
        have hc : n.children[ci]? = some (edge, child) := matchingChild_getElem? hmatch
        obtain ⟨hcne, _, m, hm⟩ := hr.child (n, p) hmem _ (List.mem_of_getElem? hc)
        have hcommon : commonPrefixLen edge.bytes name.bytes ≠ 0 :=
          commonPrefixLen_ne_zero_of_matchingChild hmatch
        obtain ⟨hkedge, hkname⟩ := commonPrefixLen_le edge.bytes name.bytes
        have htake := take_commonPrefixLen edge.bytes name.bytes
        rw [insert_of_match hname hnode hmatch]
        obtain ⟨k, hk⟩ : ∃ k, k = commonPrefixLen edge.bytes name.bytes := ⟨_, rfl⟩
        rw [← hk] at hcommon hkedge hkname htake ⊢
        -- The cut is the end of the edge, or where an export and the name part.
        have hcut : name.isCharBoundary k = true := by
          by_cases hfull : k = edge.length
          · rw [Str.isCharBoundary_iff hkname, ← htake, hfull, Str.length, List.take_length]
            exact edge.valid
          · obtain hnil | ⟨d, hd, hpd⟩ := hr.inhabited _ (List.mem_of_getElem? hm)
            · exact absurd (List.append_eq_nil_iff.mp hnil).2 hcne
            · have hpart := hparts d hd ((List.prefix_append p _).trans hpd)
              have hlt : commonPrefixLen edge.bytes name.bytes < edge.bytes.length := by
                rw [← hk]
                exact Nat.lt_of_le_of_ne hkedge hfull
              unfold PartsInside at hpart
              rw [commonPrefixLen_edge hpd hn hlt, ← hk,
                isCharBoundary_suffix hn (hr.text (n, p) hmem) hkname] at hpart
              simpa using hpart
        obtain ⟨rest, hrest, hrestBytes⟩ := Str.exists_startingAt hkname hcut
        have hlength : rest.length < bound := by
          have hdrop : rest.length = name.bytes.length - k := by
            unfold Str.length
            rw [hrestBytes, List.length_drop]
          have : name.length = name.bytes.length := rfl
          omega
        have hname' : name.bytes = edge.bytes.take k ++ rest.bytes := by
          rw [htake, hrestBytes, List.take_append_drop]
        rw [hrest, Option.bind_some]
        by_cases hfull : k = edge.length
        · -- The whole edge is passed.
          rw [if_pos hfull]
          rw [hfull, Str.length, List.take_length] at hname'
          refine ih hr hnodes hm (by rw [hn, hname', List.append_assoc]) ?_ hlength
          exact fun d hd hpd => hparts d hd ((List.prefix_append p _).trans hpd)
        · -- The edge is split, and the rest goes below the new node.
          rw [if_neg hfull]
          have hcutEdge : edge.isCharBoundary k = true := by
            rw [Str.isCharBoundary_congr hkedge hkname htake]
            exact hcut
          obtain ⟨head, hhead, hheadBytes⟩ := Str.exists_upTo hkedge hcutEdge
          obtain ⟨tail, htail, htailBytes⟩ := Str.exists_startingAt hkedge hcutEdge
          rw [hhead, htail, Option.bind_some, Option.bind_some]
          have hheadLength : head.bytes.length = k := by
            rw [hheadBytes, List.length_take]
            exact Nat.min_eq_left hkedge
          have htailLength : tail.bytes.length = edge.length - k := by
            rw [htailBytes, List.length_drop]
            rfl
          have hedgeLength : edge.length = edge.bytes.length := rfl
          have hedge : edge.bytes = head.bytes ++ tail.bytes := by
            rw [hheadBytes, htailBytes, List.take_append_drop]
          have hsplit := hr.split hi hc hedge
            (fun hnil => hcommon (by rw [← hheadLength, hnil]; rfl))
            (fun hnil => hfull (by rw [hnil, List.length_nil] at htailLength; omega))
          have hlast := @grow_last arena i
            (fun n => { n with children := n.children.set ci (head, arena.length) })
            (⟨none, [(tail, child)]⟩, p ++ head.bytes)
          have hlen : arena.length = tree.nodes.length := by
            rw [← hnodes]
            exact (List.length_map _).symm
          rw [hlen] at hlast hsplit
          refine ih hsplit ?_ hlast ?_ ?_ hlength
          · rw [nodes_grow hi, hnodes]
            rfl
          · rw [hn, hname', hheadBytes, List.append_assoc]
          · exact fun d hd hpd => hparts d hd ((List.prefix_append p _).trans hpd)

/-- An export that parts from the name at a node does so between characters. -/
theorem Radix.not_partsInside_at (hr : Radix arena exports) (hmem : (n, p) ∈ arena)
    (hn : e.name.bytes = p ++ name.bytes) {d : MachOExport} {rest : List Byte}
    (hd : d.name.bytes = p ++ rest) (hpart : commonPrefixLen rest name.bytes = 0) :
    ¬ PartsInside e.name d.name := by
  unfold PartsInside
  rw [commonPrefixLen_below hd hn, hpart,
    isCharBoundary_suffix hn (hr.text (n, p) hmem) (Nat.zero_le _), Str.isCharBoundary_zero]
  decide

/-- An edge that shares a byte with a name is the one that is found for it. -/
theorem Radix.exists_matchingChild (hr : Radix arena exports) (hmem : (n, p) ∈ arena)
    {c : Str × Nat} (hc : c ∈ n.children) (hcommon : commonPrefixLen c.1.bytes name.bytes ≠ 0) :
    ∃ ci, matchingChild n.children name = some (c, ci) := by
  cases hmatch : matchingChild n.children name with
  | none => exact absurd (commonPrefixLen_eq_zero_of_matchingChild hmatch hc) hcommon
  | some found =>
    obtain ⟨d, ci⟩ := found
    obtain ⟨x, cs, ns, hcs, hns⟩ := commonPrefixLen_ne_zero.mp hcommon
    obtain ⟨y, ds, ns', hds, hns'⟩ :=
      commonPrefixLen_ne_zero.mp (commonPrefixLen_ne_zero_of_matchingChild hmatch)
    obtain rfl : d = c := by
      refine hr.edge_unique hmem (List.mem_of_getElem? (matchingChild_getElem? hmatch)) hc ?_
      rw [hns] at hns'
      obtain rfl := (List.cons.inj hns').1
      exact commonPrefixLen_ne_zero.mpr ⟨x, ds, cs, hds, hcs⟩
    exact ⟨ci, rfl⟩

/-- **An insertion that would cut a character panics.** -/
theorem Radix.insert_panics {tree : Tree} (hr : Radix arena exports)
    (hnodes : arena.nodes = tree.nodes) (hi : arena[i]? = some (n, p))
    (hn : e.name.bytes = p ++ name.bytes) {d : MachOExport} (hd : d ∈ exports)
    (hpd : p <+: d.name.bytes) (hparts : PartsInside e.name d.name) :
    tree.insert i name e.info = none := by
  obtain ⟨bound, hbound⟩ : ∃ bound, name.length < bound := ⟨_, Nat.lt_succ_self _⟩
  induction bound generalizing i n p name with
  | zero => exact absurd hbound (Nat.not_lt_zero _)
  | succ bound ih =>
    have hmem : (n, p) ∈ arena := List.mem_of_getElem? hi
    have hnode : tree.nodes[i]? = some n := by
      rw [← hnodes]
      unfold Arena.nodes
      rw [List.getElem?_map, hi]
      rfl
    obtain ⟨more, hmore⟩ := hpd
    -- They part behind the node, so both go on along one edge.
    have hgoes : commonPrefixLen more name.bytes ≠ 0 := fun hzero =>
      hr.not_partsInside_at hmem hn hmore.symm hzero hparts
    have hname : name.length ≠ 0 := by
      intro hzero
      rw [List.length_eq_zero_iff.mp hzero, commonPrefixLen_nil_right] at hgoes
      exact hgoes rfl
    obtain ⟨c, hc, hcd⟩ : ∃ c ∈ n.children, p ++ c.1.bytes <+: d.name.bytes := by
      obtain heq | hcover := hr.covered (n, p) hmem d hd ⟨more, hmore⟩
      · rw [← hmore] at heq
        rw [List.append_right_eq_self.mp heq, commonPrefixLen_nil_left] at hgoes
        exact absurd rfl hgoes
      · exact hcover
    have hcmore : c.1.bytes <+: more := by
      rw [← hmore, List.prefix_append_right_inj] at hcd
      exact hcd
    have hcne := (hr.child (n, p) hmem c hc).1
    obtain ⟨x, cs, hcs⟩ := List.exists_cons_of_ne_nil hcne
    have hfirst : ∃ ns, name.bytes = x :: ns := by
      obtain ⟨y, ms, ns, hms, hns⟩ := commonPrefixLen_ne_zero.mp hgoes
      obtain ⟨t, ht⟩ := hcmore
      rw [hcs, hms, List.cons_append] at ht
      exact ⟨ns, by rw [hns, (List.cons.inj ht).1]⟩
    obtain ⟨ns, hns⟩ := hfirst
    have hcname : commonPrefixLen c.1.bytes name.bytes ≠ 0 :=
      commonPrefixLen_ne_zero.mpr ⟨x, cs, ns, hcs, hns⟩
    -- The edge that is found is the export's.
    obtain ⟨ci, hmatch⟩ := hr.exists_matchingChild hmem hc hcname
    obtain ⟨edge, child⟩ := c
    obtain ⟨_, _, m, hm⟩ := hr.child (n, p) hmem _ hc
    obtain ⟨hkedge, hkname⟩ := commonPrefixLen_le edge.bytes name.bytes
    rw [insert_of_match hname hnode hmatch]
    by_cases hfull : commonPrefixLen edge.bytes name.bytes = edge.length
    · -- The whole edge is passed, and the two part below it.
      cases hrest : name.startingAt (commonPrefixLen edge.bytes name.bytes) with
      | none => rfl
      | some rest =>
        obtain ⟨_, _, hbytes⟩ := Str.startingAt_eq_some_iff.mp hrest
        have hname' : name.bytes = edge.bytes ++ rest.bytes := by
          have htake := take_commonPrefixLen edge.bytes name.bytes
          rw [hfull, Str.length, List.take_length] at htake
          rw [hbytes, hfull, Str.length]
          conv_lhs => rw [← List.take_append_drop edge.bytes.length name.bytes, ← htake]
        have hlength : rest.length < bound := by
          have hdrop : rest.length = name.bytes.length - commonPrefixLen edge.bytes name.bytes := by
            unfold Str.length
            rw [hbytes, List.length_drop]
          have : name.length = name.bytes.length := rfl
          have hcommon : commonPrefixLen edge.bytes name.bytes ≠ 0 := hcname
          omega
        rw [Option.bind_some, if_pos hfull]
        exact ih hm (by rw [hn, hname', List.append_assoc]) hcd hlength
    · -- They part in the edge, where the name cannot be cut.
      have hlt : commonPrefixLen edge.bytes name.bytes < edge.bytes.length :=
        Nat.lt_of_le_of_ne hkedge hfull
      unfold PartsInside at hparts
      rw [commonPrefixLen_edge hcd hn hlt,
        isCharBoundary_suffix hn (hr.text (n, p) hmem) hkname] at hparts
      rw [Str.startingAt_eq_none hparts]
      rfl

/-- **A name that is there** ends at its node. -/
theorem Radix.insert_present {tree : Tree} (hr : Radix arena exports)
    (hnodes : arena.nodes = tree.nodes) (hi : arena[i]? = some (n, p)) {d : MachOExport}
    (hd : d ∈ exports) (hn : d.name.bytes = p ++ name.bytes) (info : TerminalInfo) :
    ∃ j m, arena[j]? = some (m, d.name.bytes)
      ∧ tree.insert i name info = some (tree.setTerminal j info) := by
  obtain ⟨bound, hbound⟩ : ∃ bound, name.length < bound := ⟨_, Nat.lt_succ_self _⟩
  induction bound generalizing i n p name with
  | zero => exact absurd hbound (Nat.not_lt_zero _)
  | succ bound ih =>
    have hmem : (n, p) ∈ arena := List.mem_of_getElem? hi
    have hnode : tree.nodes[i]? = some n := by
      rw [← hnodes]
      unfold Arena.nodes
      rw [List.getElem?_map, hi]
      rfl
    by_cases hname : name.length = 0
    · rw [List.length_eq_zero_iff.mp hname, List.append_nil] at hn
      exact ⟨i, n, by rw [hn, hi], insert_of_empty tree i info hname⟩
    · obtain heq | ⟨c, hc, hcd⟩ := hr.covered (n, p) hmem d hd ⟨_, hn.symm⟩
      · rw [hn] at heq
        exact absurd (congrArg List.length (List.append_right_eq_self.mp heq)) hname
      · -- The name goes along the whole edge.
        rw [hn, List.prefix_append_right_inj] at hcd
        obtain ⟨more, hmore⟩ := hcd
        obtain ⟨hcne, _, m, hm⟩ := hr.child (n, p) hmem c hc
        have hcommon : commonPrefixLen c.1.bytes name.bytes = c.1.length := by
          have happend := commonPrefixLen_append c.1.bytes [] more
          rwa [List.append_nil, hmore] at happend
        have hpos := List.length_pos_of_ne_nil hcne
        have hlen : c.1.length ≤ name.length := by
          unfold Str.length
          rw [← hmore, List.length_append]
          exact Nat.le_add_right _ _
        have hcut : name.isCharBoundary c.1.length = true := by
          rw [Str.isCharBoundary_iff hlen, Str.length, ← hmore, List.take_left]
          exact c.1.valid
        obtain ⟨rest, hrest, hrestBytes⟩ := Str.exists_startingAt hlen hcut
        rw [Str.length, ← hmore, List.drop_left] at hrestBytes
        obtain ⟨ci, hmatch⟩ := hr.exists_matchingChild hmem hc (by
          rw [hcommon]
          exact Nat.ne_of_gt hpos)
        obtain ⟨edge, child⟩ := c
        rw [insert_of_match hname hnode hmatch, hcommon, hrest, Option.bind_some, if_pos rfl]
        refine ih hm (by rw [hn, ← hmore, hrestBytes, List.append_assoc]) ?_
        have : name.length = edge.bytes.length + rest.bytes.length := by
          rw [hrestBytes, ← List.length_append, hmore]
          rfl
        have hedge : 0 < edge.bytes.length := hpos
        show rest.bytes.length < bound
        omega

/-- The exports with `e` for the one of its name. -/
def override (exports : List MachOExport) (e : MachOExport) : List MachOExport :=
  exports.filter (fun d => decide (d.name ≠ e.name)) ++ [e]

theorem mem_override {d : MachOExport} :
    d ∈ override exports e ↔ d = e ∨ d ∈ exports ∧ d.name ≠ e.name := by
  unfold override
  rw [List.mem_append, List.mem_filter, decide_eq_true_eq, List.mem_singleton, or_comm]

/-- No name is lost. -/
theorem exists_override {d : MachOExport} (hd : d ∈ exports) :
    ∃ d' ∈ override exports e, d'.name = d.name := by
  by_cases hname : d.name = e.name
  · exact ⟨e, mem_override.mpr (.inl rfl), hname.symm⟩
  · exact ⟨d, mem_override.mpr (.inr ⟨hd, hname⟩), rfl⟩

theorem override_of_new (hnew : ∀ d ∈ exports, d.name ≠ e.name) :
    override exports e = exports ++ [e] := by
  unfold override
  rw [List.filter_eq_self.mpr fun d hd => decide_eq_true (hnew d hd)]

/-- **The data of a name that is there is replaced.** -/
theorem Radix.replace (hr : Radix arena exports) (hi : arena[i]? = some (n, e.name.bytes))
    {d : MachOExport} (hd : d ∈ exports) (hde : d.name = e.name) :
    Radix (arena.change i fun n => { n with terminal := some e.info }) (override exports e) := by
  have hmem : (n, e.name.bytes) ∈ arena := List.mem_of_getElem? hi
  have hcases := fun {x} hx => @mem_change arena i n e.name.bytes
    (fun n => { n with terminal := some e.info }) hr.distinct hi x hx
  -- The names are those from before.
  have hback : ∀ a ∈ override exports e, ∃ b ∈ exports, b.name = a.name := by
    intro a ha
    obtain rfl | ⟨ha, _⟩ := mem_override.mp ha
    · exact ⟨d, hd, hde⟩
    · exact ⟨a, ha, rfl⟩
  refine ⟨?_, ?_, ?_, ?_, ?_, ?_, ?_, ?_, ?_, ?_⟩
  · obtain ⟨r, hroot⟩ := hr.root
    exact exists_change hroot
  · rw [paths_change]
    exact hr.distinct
  · intro x hx
    obtain rfl | ⟨hx', _⟩ := hcases hx
    · exact e.name.valid
    · exact hr.text x hx'
  · intro x hx c hc
    obtain rfl | ⟨hx', _⟩ := hcases hx
    · obtain ⟨hcne, hcnul, m, hm⟩ := hr.child _ hmem c hc
      exact ⟨hcne, hcnul, exists_change hm⟩
    · obtain ⟨hcne, hcnul, m, hm⟩ := hr.child x hx' c hc
      exact ⟨hcne, hcnul, exists_change hm⟩
  · intro x hx
    obtain rfl | ⟨hx', _⟩ := hcases hx
    · exact hr.sorted (n, e.name.bytes) hmem
    · exact hr.sorted x hx'
  · intro x hx t
    obtain rfl | ⟨hx', hne⟩ := hcases hx
    · constructor
      · intro ht
        cases ht
        exact ⟨e, mem_override.mpr (.inl rfl), rfl, rfl⟩
      · rintro ⟨a, ha, hname, rfl⟩
        obtain rfl | ⟨_, hother⟩ := mem_override.mp ha
        · rfl
        · exact absurd (Str.ext_bytes hname) hother
    · rw [hr.terminal x hx' t]
      constructor
      · rintro ⟨a, ha, hname, hinfo⟩
        exact ⟨a, mem_override.mpr (.inr ⟨ha, fun h => hne (by rw [← hname, h])⟩), hname, hinfo⟩
      · rintro ⟨a, ha, hname, hinfo⟩
        obtain rfl | ⟨ha, _⟩ := mem_override.mp ha
        · exact absurd hname.symm hne
        · exact ⟨a, ha, hname, hinfo⟩
  · intro x hx a ha hxa
    obtain ⟨b, hb, hba⟩ := hback a ha
    rw [← hba] at hxa ⊢
    obtain rfl | ⟨hx', _⟩ := hcases hx
    · exact hr.covered _ hmem b hb hxa
    · exact hr.covered x hx' b hb hxa
  · intro x hx y hy hxy
    have hold : ∀ z ∈ arena.change i fun n => { n with terminal := some e.info },
        ∃ w ∈ arena, w.2 = z.2 ∧ w.1.children = z.1.children := by
      intro z hz
      obtain rfl | ⟨hz', _⟩ := hcases hz
      · exact ⟨_, hmem, rfl, rfl⟩
      · exact ⟨z, hz', rfl, rfl⟩
    obtain ⟨v, hv, hvx, hvc⟩ := hold x hx
    obtain ⟨w, hw, hwy, _⟩ := hold y hy
    rw [← hvx, ← hwy] at hxy
    rw [← hvx, ← hvc, ← hwy]
    exact hr.within v hv w hw hxy
  · intro x hx
    have hmono : (x.2 = [] ∨ ∃ a ∈ exports, x.2 <+: a.name.bytes) →
        x.2 = [] ∨ ∃ a ∈ override exports e, x.2 <+: a.name.bytes := by
      rintro (hnil | ⟨a, ha, hxa⟩)
      · exact .inl hnil
      · obtain ⟨b, hb, hba⟩ := exists_override ha
        exact .inr ⟨b, hb, by rw [hba]; exact hxa⟩
    obtain rfl | ⟨hx', _⟩ := hcases hx
    · exact hmono (hr.inhabited (n, e.name.bytes) hmem)
    · exact hmono (hr.inhabited x hx')
  · intro hnil
    exact absurd (List.append_eq_nil_iff.mp hnil).2 (List.cons_ne_nil e [])

end Insert

/-! ## §5. The whole tree. -/

theorem commonPrefixLen_comm (a b : List Byte) : commonPrefixLen a b = commonPrefixLen b a := by
  induction a generalizing b with
  | nil => rw [commonPrefixLen_nil_left, commonPrefixLen_nil_right]
  | cons x a ih =>
    cases b with
    | nil => rw [commonPrefixLen_nil_left, commonPrefixLen_nil_right]
    | cons y b =>
      rw [commonPrefixLen_cons, commonPrefixLen_cons, ih b]
      exact if_congr eq_comm rfl rfl

theorem PartsInside.symm {a b : Str} (h : PartsInside a b) : PartsInside b a := by
  obtain ⟨hb, ha⟩ := commonPrefixLen_le b.bytes a.bytes
  unfold PartsInside at h ⊢
  rw [commonPrefixLen_comm]
  rw [← h]
  exact Str.isCharBoundary_congr hb ha (take_commonPrefixLen b.bytes a.bytes)

theorem not_partsInside_self (a : Str) : ¬ PartsInside a a := by
  unfold PartsInside
  have hself : commonPrefixLen a.bytes a.bytes = a.length := by
    have := commonPrefixLen_append a.bytes [] []
    rwa [List.append_nil] at this
  rw [hself, Str.isCharBoundary_length]
  decide

/-- No two names part inside a character. -/
def PartsNowhere (exports : List MachOExport) : Prop :=
  ∀ a ∈ exports, ∀ b ∈ exports, ¬ PartsInside a.name b.name

theorem not_partsNowhere_iff {exports : List MachOExport} :
    ¬ PartsNowhere exports ↔ ∃ a ∈ exports, ∃ b ∈ exports, PartsInside a.name b.name := by
  unfold PartsNowhere
  push Not
  rfl

/-- It is a matter of the names. -/
theorem PartsNowhere.of_names {xs ys : List MachOExport} (hys : PartsNowhere ys)
    (h : ∀ a ∈ xs, ∃ b ∈ ys, b.name = a.name) : PartsNowhere xs := by
  intro a ha b hb hparts
  obtain ⟨a', ha', haname⟩ := h a ha
  obtain ⟨b', hb', hbname⟩ := h b hb
  rw [← haname, ← hbname] at hparts
  exact hys a' ha' b' hb' hparts

/-- The names in strict order. -/
abbrev NamesAscend (exports : List MachOExport) : Prop :=
  exports.Pairwise fun a b => BytesLt a.name.bytes b.name.bytes

/-- One of the names, or behind all. -/
theorem bytesLt_of_ne_of_not {a b : MachOExport} (hne : a.name ≠ b.name)
    (hnot : ¬ BytesLt b.name.bytes a.name.bytes) : BytesLt a.name.bytes b.name.bytes := by
  obtain hlt | heq | hlt := bytesLt_trichotomous a.name.bytes b.name.bytes
  · exact hlt
  · exact absurd (Str.ext_bytes heq) hne
  · exact absurd hlt hnot

theorem namesAscend_override {exports : List MachOExport} {e : MachOExport}
    (hsorted : NamesAscend exports)
    (hbehind : ∀ d ∈ exports, ¬ BytesLt e.name.bytes d.name.bytes) :
    NamesAscend (override exports e) := by
  refine List.pairwise_append.mpr ⟨hsorted.filter _, List.pairwise_singleton _ _, ?_⟩
  intro d hd e' he'
  obtain rfl := List.mem_singleton.mp he'
  obtain ⟨hd, hne⟩ := List.mem_filter.mp hd
  exact bytesLt_of_ne_of_not (of_decide_eq_true hne) (hbehind d hd)

/-- Every export with the data that came last for its name. -/
def lastOfEach (exports : List MachOExport) : List MachOExport := exports.foldl override []

theorem mem_foldl_override {todo done : List MachOExport} {e : MachOExport}
    (h : e ∈ todo.foldl override done) : e ∈ done ∨ e ∈ todo := by
  induction todo generalizing done with
  | nil => exact .inl h
  | cons x todo ih =>
    obtain h | h := ih h
    · obtain rfl | ⟨h, _⟩ := mem_override.mp h
      · exact .inr List.mem_cons_self
      · exact .inl h
    · exact .inr (List.mem_cons_of_mem _ h)

theorem exists_foldl_override {todo done : List MachOExport} {e : MachOExport}
    (h : e ∈ done ∨ e ∈ todo) : ∃ d ∈ todo.foldl override done, d.name = e.name := by
  induction todo generalizing done e with
  | nil => exact ⟨e, h.resolve_right List.not_mem_nil, rfl⟩
  | cons x todo ih =>
    rw [List.foldl_cons]
    obtain h | h := h
    · obtain ⟨d, hd, hname⟩ := @exists_override done x e h
      obtain ⟨c, hc, hcname⟩ := ih (.inl hd)
      exact ⟨c, hc, hcname.trans hname⟩
    · obtain rfl | h := List.mem_cons.mp h
      · exact ih (.inl (mem_override.mpr (.inl rfl)))
      · exact ih (.inr h)

theorem foldl_override_of_distinct {todo done : List MachOExport}
    (h : (done ++ todo).Pairwise fun a b => a.name ≠ b.name) :
    todo.foldl override done = done ++ todo := by
  induction todo generalizing done with
  | nil => rw [List.foldl_nil, List.append_nil]
  | cons e todo ih =>
    have hnew : ∀ d ∈ done, d.name ≠ e.name := fun d hd =>
      (List.pairwise_append.mp h).2.2 d hd e List.mem_cons_self
    rw [List.append_cons] at h ⊢
    rw [List.foldl_cons, override_of_new hnew, ih h]

/-- The exports to come, inserted into what the earlier ones made: all of them, or a panic
where two part inside a character. -/
theorem Radix.foldlM_insert {todo done : List MachOExport} {tree : Tree} {arena : Arena}
    (hr : Radix arena done) (hnodes : arena.nodes = tree.nodes) (hdone : NamesAscend done)
    (htodo : todo.Pairwise fun a b => ¬ BytesLt b.name.bytes a.name.bytes)
    (hbehind : ∀ d ∈ done, ∀ e ∈ todo, ¬ BytesLt e.name.bytes d.name.bytes)
    (hnul : ∀ e ∈ todo, (0 : Byte) ∉ e.name.bytes) (hparts : PartsNowhere done) :
    let built := todo.foldlM (fun tree e => tree.insert 0 e.name e.info) tree
    (PartsNowhere (done ++ todo) →
        ∃ tree' arena', built = some tree' ∧ Arena.nodes arena' = tree'.nodes
          ∧ Radix arena' (todo.foldl override done) ∧ NamesAscend (todo.foldl override done))
      ∧ (¬ PartsNowhere (done ++ todo) → built = none) := by
  induction todo generalizing done tree arena with
  | nil =>
    rw [List.append_nil]
    exact ⟨fun _ => ⟨tree, arena, rfl, hnodes, hr, hdone⟩, fun h => absurd hparts h⟩
  | cons e todo ih =>
    obtain ⟨n, hroot⟩ := hr.root
    have he : ∀ d ∈ done, ¬ BytesLt e.name.bytes d.name.bytes := fun d hd =>
      hbehind d hd e List.mem_cons_self
    dsimp only
    rw [List.foldlM_cons]
    by_cases hcut : ∃ d ∈ done, PartsInside e.name d.name
    · obtain ⟨d, hd, hpart⟩ := hcut
      constructor
      · intro hall
        exact absurd hpart (hall e (List.mem_append_right _ List.mem_cons_self) d
          (List.mem_append_left _ hd))
      · intro _
        rw [hr.insert_panics hnodes hroot (List.nil_append _).symm hd List.nil_prefix hpart]
        rfl
    · have huncut : ∀ d ∈ done, ¬ PartsInside e.name d.name :=
        fun d hd hpart => hcut ⟨d, hd, hpart⟩
      obtain ⟨tree', arena', htree, hnodes', hr'⟩ : ∃ tree' arena',
          tree.insert 0 e.name e.info = some tree' ∧ Arena.nodes arena' = tree'.nodes
            ∧ Radix arena' (override done e) := by
        by_cases hnew : ∀ d ∈ done, d.name ≠ e.name
        · rw [override_of_new hnew]
          exact hr.insert hnodes hroot (List.nil_append _).symm (hnul e List.mem_cons_self)
            (fun d hd => bytesLt_of_ne_of_not (hnew d hd) (he d hd)) fun d hd _ => huncut d hd
        · -- The name is there, and its data is replaced.
          push Not at hnew
          obtain ⟨d, hd, hname⟩ := hnew
          obtain ⟨j, m, hj, hinsert⟩ := hr.insert_present hnodes hroot hd
            (by rw [hname, List.nil_append] : d.name.bytes = [] ++ e.name.bytes) e.info
          rw [hname] at hj
          refine ⟨_, _, hinsert, ?_, hr.replace hj hd hname⟩
          rw [nodes_change, hnodes]
          rfl
      have hsame : PartsNowhere (override done e ++ todo) ↔ PartsNowhere (done ++ e :: todo) := by
        constructor
        · intro h
          refine h.of_names fun a ha => ?_
          obtain ha | ha := List.mem_append.mp ha
          · obtain ⟨b, hb, hname⟩ := @exists_override done e a ha
            exact ⟨b, List.mem_append_left _ hb, hname⟩
          · obtain rfl | ha := List.mem_cons.mp ha
            · exact ⟨a, List.mem_append_left _ (mem_override.mpr (.inl rfl)), rfl⟩
            · exact ⟨a, List.mem_append_right _ ha, rfl⟩
        · intro h
          refine h.of_names fun a ha => ⟨a, ?_, rfl⟩
          obtain ha | ha := List.mem_append.mp ha
          · obtain rfl | ⟨ha, _⟩ := mem_override.mp ha
            · exact List.mem_append_right _ List.mem_cons_self
            · exact List.mem_append_left _ ha
          · exact List.mem_append_right _ (List.mem_cons_of_mem _ ha)
      obtain ⟨hhead, htail⟩ := List.pairwise_cons.mp htodo
      rw [htree, Option.bind_eq_bind, Option.bind_some, ← hsame]
      refine ih hr' hnodes' (namesAscend_override hdone he) htail ?_
        (fun x hx => hnul x (List.mem_cons_of_mem _ hx)) ?_
      · intro d hd x hx
        obtain rfl | ⟨hd, _⟩ := mem_override.mp hd
        · exact hhead x hx
        · exact hbehind d hd x (List.mem_cons_of_mem _ hx)
      · intro a ha b hb
        obtain hae | ⟨ha', _⟩ := mem_override.mp ha <;> obtain hbe | ⟨hb', _⟩ := mem_override.mp hb
        · rw [hae, hbe]
          exact not_partsInside_self _
        · rw [hae]
          exact huncut b hb'
        · rw [hbe]
          exact fun h => huncut a ha' h.symm
        · exact hparts a ha' b hb'

theorem mem_sortedExports {exports : List MachOExport} {e : MachOExport} :
    e ∈ sortedExports exports ↔ e ∈ exports := List.mem_mergeSort

theorem sortedExports_sorted (exports : List MachOExport) :
    (sortedExports exports).Pairwise fun a b => ¬ BytesLt b.name.bytes a.name.bytes := by
  have hle : (sortedExports exports).Pairwise fun a b =>
      (!decide (BytesLt b.name.bytes a.name.bytes)) = true := by
    refine List.pairwise_mergeSort (fun a b c hab hbc => ?_) (fun a b => ?_) exports
    · simp only [Bool.not_eq_true', decide_eq_false_iff_not] at hab hbc ⊢
      intro hca
      obtain hlt | heq | hlt := bytesLt_trichotomous a.name.bytes b.name.bytes
      · exact hbc (hca.trans hlt)
      · exact hbc (heq ▸ hca)
      · exact hab hlt
    · simp only [Bool.or_eq_true, Bool.not_eq_true', decide_eq_false_iff_not]
      by_contra h
      rw [not_or, Classical.not_not, Classical.not_not] at h
      exact h.1.asymm h.2
  exact hle.imp fun h => by simpa using h

/-- Of names that are all different nothing is replaced. -/
theorem lastOfEach_of_distinct {exports : List MachOExport}
    (hdistinct : exports.Pairwise fun a b => a.name ≠ b.name) :
    lastOfEach (sortedExports exports) = sortedExports exports := by
  refine foldl_override_of_distinct ?_
  exact ((List.mergeSort_perm exports _).pairwise_iff fun h => Ne.symm h).mpr hdistinct

/-- **The tree of the exports**, or a panic exactly if two names part inside a
character. -/
theorem buildTree_spec {exports : List MachOExport}
    (hnul : ∀ e ∈ exports, (0 : Byte) ∉ e.name.bytes) :
    (PartsNowhere exports →
        ∃ tree arena, buildTree exports = some tree ∧ Arena.nodes arena = tree.nodes
          ∧ Radix arena (lastOfEach (sortedExports exports))
          ∧ NamesAscend (lastOfEach (sortedExports exports)))
      ∧ (¬ PartsNowhere exports → buildTree exports = none) := by
  have hsame : PartsNowhere exports ↔ PartsNowhere (sortedExports exports) :=
    ⟨fun h => h.of_names fun a ha => ⟨a, mem_sortedExports.mp ha, rfl⟩,
      fun h => h.of_names fun a ha => ⟨a, mem_sortedExports.mpr ha, rfl⟩⟩
  rw [hsame]
  exact @Radix.foldlM_insert (sortedExports exports) [] Tree.root _ radix_root rfl .nil
    (sortedExports_sorted exports) (fun d hd => absurd hd List.not_mem_nil)
    (fun e he => hnul e (mem_sortedExports.mp he)) fun a ha => absurd ha List.not_mem_nil

end Armv8Encode.MachO.ExportTrie
