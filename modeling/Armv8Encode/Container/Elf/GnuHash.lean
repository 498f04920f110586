/-
  Armv8Encode.Container.Elf.GnuHash — the hash table of dynamic symbols.

  `.gnu.hash` is a header, a Bloom filter, the first symbol of each bucket and
  a word a symbol, whose low bit ends the chain of a bucket.  The loader looks a
  name up in the bytes and compares strings on the way.

    • `bucketHeads_get` — a bucket names the first symbol of its key,
    • `walk_eq` — the walk searches the block of symbols it starts in, and
      ends with it,
    • `lookup_buildGnuHash` — a lookup finds the first symbol of a name, and
      reads nothing but the table.
-/
import Mathlib.Data.Nat.Bitwise
import Armv8Encode.Lib.Bytes
import Armv8Encode.Lib.Grouped

namespace Armv8Encode.Elf

open Lib

/-! ## §1. Building the table. -/

/-- The hash of a name, on its raw bytes. -/
def gnuHash (name : List Byte) : BitVec 32 :=
  name.foldl (fun h c => h * 33#32 + c.setWidth 32) 5381#32

/-- One hashable entry of the dynamic symbol table. -/
structure HashableSymbol where
  dynsymIndex : BitVec 32
  name : List Byte
  deriving Repr, DecidableEq

/-- The bucket of a symbol. -/
def HashableSymbol.bucket (nbuckets : BitVec 32) (s : HashableSymbol) : Nat :=
  (gnuHash s.name).toNat % nbuckets.toNat

/-- The word of the filter that a hash belongs to. -/
def bloomIndex (bloomSize : BitVec 32) (h : BitVec 32) : Nat :=
  (h.toNat / 64) &&& (bloomSize.toNat - 1)

/-- The two bits of a hash. -/
def bloomBits (bloomShift h : BitVec 32) : BitVec 64 :=
  (1#64 <<< (h &&& 63#32).toNat) ||| (1#64 <<< ((h >>> bloomShift.toNat) &&& 63#32).toNat)

def bloomFilter (bloomSize bloomShift : BitVec 32) (hashes : List (BitVec 32)) :
    List (BitVec 64) :=
  hashes.foldl
    (fun bloom h => bloom.modify (bloomIndex bloomSize h) (· ||| bloomBits bloomShift h))
    (List.replicate bloomSize.toNat 0#64)

/-- Note the symbol that each run of symbols of one bucket starts with. -/
def bucketHeads (nbuckets : BitVec 32) :
    Option Nat → List (BitVec 32) → List HashableSymbol → List (BitVec 32)
  | _, buckets, [] => buckets
  | current, buckets, s :: rest =>
    if some (s.bucket nbuckets) ≠ current then
      bucketHeads nbuckets (some (s.bucket nbuckets))
        (buckets.set (s.bucket nbuckets) s.dynsymIndex) rest
    else bucketHeads nbuckets current buckets rest

/-- The hash of each symbol, with the low bit set where a run ends. -/
def chainWords (nbuckets : BitVec 32) : List HashableSymbol → List (BitVec 32)
  | [] => []
  | s :: rest =>
    let word := gnuHash s.name &&& ~~~1#32
    let next := rest.head?.map (HashableSymbol.bucket nbuckets)
    (if next ≠ some (s.bucket nbuckets) then word ||| 1#32 else word) :: chainWords nbuckets rest

/-- The bytes of the section, unless a count is out of range. -/
def buildGnuHash (symbols : List HashableSymbol)
    (symbolBase nbuckets bloomSize bloomShift : BitVec 32) : Option (List Byte) :=
  if nbuckets = 0 ∨ bloomSize = 0 ∨ ¬ bloomSize.toNat.isPowerOfTwo then none
  -- a shift by the width or more is an error
  else if symbols ≠ [] ∧ 32 ≤ bloomShift.toNat then none
  else
    some (leBytes 4 nbuckets.toNat ++ leBytes 4 symbolBase.toNat ++ leBytes 4 bloomSize.toNat
      ++ leBytes 4 bloomShift.toNat
      ++ ((bloomFilter bloomSize bloomShift (symbols.map fun s => gnuHash s.name)).map
          BitVec.toNat).flatMap (leBytes 8)
      ++ ((bucketHeads nbuckets none (List.replicate nbuckets.toNat 0) symbols).map
          BitVec.toNat).flatMap (leBytes 4)
      ++ ((chainWords nbuckets symbols).map BitVec.toNat).flatMap (leBytes 4))

/-! ## §2. The lookup of the loader. -/

/-- Walk a chain: compare hashes without the low bit, then names, until the low
bit is set.  There is no result when the walk leaves the table. -/
def walk (table : List Byte) (chains symbolBase : Nat) (dynsym : List (List Byte))
    (name : List Byte) : Nat → Nat → Option (Option Nat)
  | 0, _ => none
  | fuel + 1, index =>
    if index < symbolBase then none
    else
      match readLe 4 table (chains + 4 * (index - symbolBase)) with
      | none => none
      | some word =>
        if word / 2 = (gnuHash name).toNat / 2 ∧ dynsym[index]? = some name then some (some index)
        else if word % 2 = 1 then some none
        else walk table chains symbolBase dynsym name fuel (index + 1)

/-- Look a name up in the bytes of a table, over the names of all dynamic
symbols.  There is no result when something outside the table is read. -/
def lookup (table : List Byte) (dynsym : List (List Byte)) (name : List Byte) :
    Option (Option Nat) :=
  match readLe 4 table 0, readLe 4 table 4, readLe 4 table 8, readLe 4 table 12 with
  | some nbuckets, some symbolBase, some bloomSize, some bloomShift =>
    let h := (gnuHash name).toNat
    match readLe 8 table (16 + 8 * ((h / 64) &&& (bloomSize - 1))) with
    | none => none
    | some word =>
      if word.testBit (h % 64) && word.testBit ((h >>> bloomShift) % 64) then
        match readLe 4 table (16 + 8 * bloomSize + 4 * (h % nbuckets)) with
        | none => none
        | some bucket =>
          if bucket = 0 then some none
          else
            walk table (16 + 8 * bloomSize + 4 * nbuckets) symbolBase dynsym name table.length
              bucket
      else some none
  | _, _, _, _ => none

/-! ## §3. The filter holds the bits of every hash. -/

theorem bloomFilter_length (bloomSize bloomShift : BitVec 32) (hashes : List (BitVec 32)) :
    (bloomFilter bloomSize bloomShift hashes).length = bloomSize.toNat := by
  have hfold : ∀ (hashes : List (BitVec 32)) (bloom : List (BitVec 64)),
      (hashes.foldl (fun bloom h =>
        bloom.modify (bloomIndex bloomSize h) (· ||| bloomBits bloomShift h)) bloom).length
        = bloom.length := by
    intro hashes
    induction hashes with
    | nil => exact fun bloom => rfl
    | cons h hashes ih =>
      intro bloom
      rw [List.foldl_cons, ih, List.length_modify]
  rw [bloomFilter, hfold, List.length_replicate]

/-- A bit of a filter. -/
def bloomBit (bloom : List (BitVec 64)) (index bit : Nat) : Bool :=
  (bloom[index]?.getD 0).getLsbD bit

theorem bloomIndex_lt {bloomSize : BitVec 32} (hsize : bloomSize ≠ 0) (h : BitVec 32) :
    bloomIndex bloomSize h < bloomSize.toNat := by
  have hpos : bloomSize.toNat ≠ 0 := fun hzero => hsize (BitVec.eq_of_toNat_eq hzero)
  have hle : bloomIndex bloomSize h ≤ bloomSize.toNat - 1 := Nat.and_le_right
  omega

/-- Both bits of every hash are set. -/
theorem bloomFilter_bit {bloomSize bloomShift : BitVec 32} (hsize : bloomSize ≠ 0)
    {hashes : List (BitVec 32)} {h : BitVec 32} (hmem : h ∈ hashes) {bit : Nat}
    (hbit : (bloomBits bloomShift h).getLsbD bit = true) :
    bloomBit (bloomFilter bloomSize bloomShift hashes) (bloomIndex bloomSize h) bit = true := by
  have hkeeps : ∀ (hashes : List (BitVec 32)) (bloom : List (BitVec 64)) (index : Nat),
      bloomBit bloom index bit = true →
      bloomBit (hashes.foldl (fun bloom h =>
        bloom.modify (bloomIndex bloomSize h) (· ||| bloomBits bloomShift h)) bloom) index bit
        = true := by
    intro hashes
    induction hashes with
    | nil => exact fun bloom index hset => hset
    | cons h hashes ih =>
      intro bloom index hset
      refine ih _ index ?_
      unfold bloomBit at hset ⊢
      rw [List.getElem?_modify]
      by_cases hindex : bloomIndex bloomSize h = index
      · cases hword : bloom[index]? with
        | none =>
          rw [hword] at hset
          simp at hset
        | some word =>
          rw [hword] at hset
          simp only [Option.getD_some] at hset
          simp [hindex, hset]
      · simpa [hindex] using hset
  have hsets : ∀ (hashes : List (BitVec 32)) (bloom : List (BitVec 64)),
      bloom.length = bloomSize.toNat → h ∈ hashes →
      bloomBit (hashes.foldl (fun bloom h =>
        bloom.modify (bloomIndex bloomSize h) (· ||| bloomBits bloomShift h)) bloom)
        (bloomIndex bloomSize h) bit = true := by
    intro hashes
    induction hashes with
    | nil => exact fun bloom _ hmem => nomatch hmem
    | cons h' hashes ih =>
      intro bloom hlength hmem
      rcases List.mem_cons.mp hmem with rfl | hmem
      · refine hkeeps hashes _ _ ?_
        have hlt : bloomIndex bloomSize h < bloom.length := hlength ▸ bloomIndex_lt hsize h
        unfold bloomBit
        rw [List.getElem?_modify, List.getElem?_eq_getElem hlt]
        simp [hbit]
      · exact ih _ (by rw [List.length_modify, hlength]) hmem
  exact hsets hashes _ (List.length_replicate ..) hmem

/-! ## §4. Buckets name the first symbol of their key. -/

theorem bucketHeads_length (nbuckets : BitVec 32) (symbols : List HashableSymbol)
    (current : Option Nat) (buckets : List (BitVec 32)) :
    (bucketHeads nbuckets current buckets symbols).length = buckets.length := by
  induction symbols generalizing current buckets with
  | nil => rfl
  | cons s rest ih =>
    unfold bucketHeads
    split
    · rw [ih, List.length_set]
    · exact ih _ _

/-- **A bucket names the first symbol of its key.**  The current bucket is the
one of the symbols gone over last; it is not entered again. -/
theorem bucketHeads_get {nbuckets : BitVec 32} {symbols : List HashableSymbol}
    (hgrouped : Grouped (HashableSymbol.bucket nbuckets) symbols) {current : Option Nat}
    (hcurrent : ∀ c, current = some c → (∃ s ∈ symbols, s.bucket nbuckets = c) →
      symbols.head?.map (HashableSymbol.bucket nbuckets) = some c)
    (buckets : List (BitVec 32)) {b : Nat} (hb : b < buckets.length) :
    (bucketHeads nbuckets current buckets symbols)[b]?
      = if current = some b then buckets[b]?
        else
          match symbols.find? fun s => decide (s.bucket nbuckets = b) with
          | some s => some s.dynsymIndex
          | none => buckets[b]? := by
  induction symbols generalizing current buckets with
  | nil => simp [bucketHeads]
  | cons s rest ih =>
    have hnext : ∀ c, some (s.bucket nbuckets) = some c →
        (∃ t ∈ rest, t.bucket nbuckets = c) →
        rest.head?.map (HashableSymbol.bucket nbuckets) = some c := by
      rintro c hc ⟨t, ht, htc⟩
      cases rest with
      | nil => cases ht
      | cons t' rest =>
        have hsame := hgrouped.second ht (htc.trans (Option.some.inj hc).symm)
        rw [List.head?_cons, Option.map_some, hsame, hc]
    unfold bucketHeads
    by_cases hrun : some (s.bucket nbuckets) = current
    · -- the run of the current bucket goes on
      rw [if_neg (by simpa using hrun), ih hgrouped.tail (hrun ▸ hnext) buckets hb]
      by_cases hcb : current = some b
      · rw [if_pos hcb, if_pos hcb]
      · rw [if_neg hcb, if_neg hcb, List.find?_cons_of_neg]
        rw [decide_eq_true_eq]
        intro hsb
        exact hcb (by rw [← hrun, hsb])
    · rw [if_pos hrun, ih hgrouped.tail hnext _ (by rwa [List.length_set])]
      by_cases hsb : s.bucket nbuckets = b
      · -- a run of this bucket starts here
        have hcb : current ≠ some b := fun hcb => hrun (by rw [hsb, hcb])
        rw [if_pos (by rw [hsb]), if_neg hcb, List.find?_cons_of_pos (by simpa using hsb),
          hsb, List.getElem?_set_self hb]
      · rw [if_neg (by simpa using hsb)]
        have hset : (buckets.set (s.bucket nbuckets) s.dynsymIndex)[b]? = buckets[b]? :=
          List.getElem?_set_ne hsb
        rw [hset, List.find?_cons_of_neg (by simpa using hsb)]
        by_cases hcb : current = some b
        · -- the bucket was the current one: no later symbol is in it
          rw [if_pos hcb, List.find?_eq_none.mpr]
          intro t ht htb
          rw [decide_eq_true_eq] at htb
          have hhead := hcurrent b hcb ⟨t, List.mem_cons_of_mem _ ht, htb⟩
          rw [List.head?_cons, Option.map_some, Option.some.injEq] at hhead
          exact hsb hhead
        · rw [if_neg hcb]

/-! ## §5. The walk. -/

theorem chainWords_length (nbuckets : BitVec 32) (symbols : List HashableSymbol) :
    (chainWords nbuckets symbols).length = symbols.length := by
  induction symbols with
  | nil => rfl
  | cons s rest ih => rw [chainWords, List.length_cons, List.length_cons, ih]

theorem chainWords_drop (nbuckets : BitVec 32) (symbols : List HashableSymbol) (j : Nat) :
    (chainWords nbuckets symbols).drop j = chainWords nbuckets (symbols.drop j) := by
  induction symbols generalizing j with
  | nil => simp [chainWords]
  | cons s rest ih =>
    cases j with
    | zero => rfl
    | succ j => exact ih j

/-- A chain word is the hash but for its low bit, -/
theorem chainWord_hash (h : BitVec 32) (last : Prop) [Decidable last] :
    (if last then h &&& ~~~1#32 ||| 1#32 else h &&& ~~~1#32).toNat / 2 = h.toNat / 2 := by
  have hclear : (h &&& ~~~1#32).toNat / 2 = h.toNat / 2 := by
    rw [BitVec.toNat_and, Nat.and_div_two]
    show h.toNat / 2 &&& 2 ^ 31 - 1 = _
    exact Nat.and_two_pow_sub_one_of_lt_two_pow (by have := h.isLt; omega)
  split
  · rw [BitVec.toNat_or, Nat.or_div_two, hclear]
    exact Nat.or_zero _
  · exact hclear

/-- which marks the end of a run. -/
theorem chainWord_mark (h : BitVec 32) (last : Prop) [Decidable last] :
    (if last then h &&& ~~~1#32 ||| 1#32 else h &&& ~~~1#32).toNat % 2 = if last then 1 else 0 := by
  split
  · rw [Nat.mod_two_eq_one_iff_testBit_zero]
    simp
  · rw [Nat.mod_two_eq_zero_iff_testBit_zero]
    simp

/-- The block of the first symbol ends where the bucket changes. -/
theorem block_cons_of_ne {nbuckets : BitVec 32} {s : HashableSymbol} {rest : List HashableSymbol}
    (h : rest.head?.map (HashableSymbol.bucket nbuckets) ≠ some (s.bucket nbuckets)) :
    block (HashableSymbol.bucket nbuckets) (s.bucket nbuckets) (s :: rest) = [s] := by
  unfold block
  rw [List.takeWhile_cons_of_pos (by simp)]
  cases rest with
  | nil => rfl
  | cons t rest =>
    rw [List.takeWhile_cons_of_neg]
    simpa using h

section Walk

variable {table : List Byte} {chains symbolBase : Nat} {nbuckets : BitVec 32}
  {symbols : List HashableSymbol} {dynsym : List (List Byte)}

/-- One step of the walk, at a symbol of the table. -/
theorem walk_step
    (hchains : ∀ j word, (chainWords nbuckets symbols)[j]? = some word →
      readLe 4 table (chains + 4 * j) = some word.toNat)
    (hdynsym : dynsym.drop symbolBase = symbols.map HashableSymbol.name) (name : List Byte)
    {s : HashableSymbol} {rest : List HashableSymbol} {j : Nat} (fuel : Nat)
    (hat : symbols.drop j = s :: rest) :
    walk table chains symbolBase dynsym name (fuel + 1) (symbolBase + j)
      = if s.name = name then some (some (symbolBase + j))
        else if rest.head?.map (HashableSymbol.bucket nbuckets) ≠ some (s.bucket nbuckets) then
          some none
        else walk table chains symbolBase dynsym name fuel (symbolBase + (j + 1)) := by
  have hword : (chainWords nbuckets symbols)[j]? = (chainWords nbuckets (s :: rest))[0]? := by
    rw [← hat, ← chainWords_drop, List.getElem?_drop, Nat.add_zero]
  have hread := hchains j _ hword
  have hname : dynsym[symbolBase + j]? = some s.name := by
    have hdrop : (dynsym.drop symbolBase)[j]? = (symbols.drop j)[0]?.map HashableSymbol.name := by
      rw [hdynsym, List.getElem?_map, List.getElem?_drop, Nat.add_zero]
    rwa [List.getElem?_drop, hat] at hdrop
  rw [walk, if_neg (by omega), Nat.add_sub_cancel_left, hread]
  simp only [hname, chainWord_hash, chainWord_mark, Option.some.injEq]
  by_cases hfound : s.name = name
  · rw [if_pos ⟨by rw [hfound], hfound⟩, if_pos hfound]
  · rw [if_neg (fun h => hfound h.2), if_neg hfound]
    by_cases hlast : rest.head?.map (HashableSymbol.bucket nbuckets) ≠ some (s.bucket nbuckets)
    · rw [if_pos hlast, if_pos hlast, if_pos rfl]
    · rw [if_neg hlast, if_neg hlast, if_neg (by decide)]
      rfl

/-- **The walk searches the block of symbols it starts in**, and reads no word
past the end of that block. -/
theorem walk_eq
    (hchains : ∀ j word, (chainWords nbuckets symbols)[j]? = some word →
      readLe 4 table (chains + 4 * j) = some word.toNat)
    (hdynsym : dynsym.drop symbolBase = symbols.map HashableSymbol.name) (name : List Byte)
    {s : HashableSymbol} {rest : List HashableSymbol} {j fuel : Nat}
    (hat : symbols.drop j = s :: rest) (hfuel : rest.length < fuel) :
    walk table chains symbolBase dynsym name fuel (symbolBase + j)
      = some (((block (HashableSymbol.bucket nbuckets) (s.bucket nbuckets) (s :: rest)).findIdx?
          fun t => decide (t.name = name)).map fun i => symbolBase + (j + i)) := by
  induction rest generalizing s j fuel with
  | nil =>
    obtain ⟨fuel, rfl⟩ : ∃ n, fuel = n + 1 := ⟨fuel - 1, by simp at hfuel; omega⟩
    rw [walk_step hchains hdynsym name fuel hat, block_cons_of_ne (by simp)]
    by_cases hfound : s.name = name
    · simp [hfound]
    · simp [hfound]
  | cons t rest ih =>
    obtain ⟨fuel, rfl⟩ : ∃ n, fuel = n + 1 := ⟨fuel - 1, by omega⟩
    rw [walk_step hchains hdynsym name fuel hat]
    by_cases hfound : s.name = name
    · rw [if_pos hfound]
      unfold block
      rw [List.takeWhile_cons_of_pos (by simp), List.findIdx?_cons, if_pos (by simpa using hfound)]
      rfl
    · rw [if_neg hfound]
      by_cases hnext : t.bucket nbuckets = s.bucket nbuckets
      · -- the chain goes on
        have hat' : symbols.drop (j + 1) = t :: rest := by
          rw [← List.drop_drop, hat]
          rfl
        have hblock : block (HashableSymbol.bucket nbuckets) (s.bucket nbuckets) (s :: t :: rest)
            = s :: block (HashableSymbol.bucket nbuckets) (t.bucket nbuckets) (t :: rest) := by
          rw [hnext]
          exact List.takeWhile_cons_of_pos (by simp)
        rw [if_neg (by simpa using hnext), ih hat' (by simpa using hfuel), hblock,
          List.findIdx?_cons, if_neg (by simpa using hfound), Option.map_map]
        congr 2
        funext i
        show symbolBase + (j + 1 + i) = symbolBase + (j + (i + 1))
        omega
      · have hne : (t :: rest).head?.map (HashableSymbol.bucket nbuckets)
            ≠ some (s.bucket nbuckets) := by simpa using hnext
        rw [if_pos hne, block_cons_of_ne hne, List.findIdx?_cons, if_neg (by simpa using hfound)]
        rfl

end Walk

/-! ## §6. The bytes of the table. -/

/-- What stands where in the bytes of a table. -/
structure TableReads (table : List Byte) (symbols : List HashableSymbol)
    (symbolBase nbuckets bloomSize bloomShift : BitVec 32) : Prop where
  readsNbuckets : readLe 4 table 0 = some nbuckets.toNat
  readsSymbolBase : readLe 4 table 4 = some symbolBase.toNat
  readsBloomSize : readLe 4 table 8 = some bloomSize.toNat
  readsBloomShift : readLe 4 table 12 = some bloomShift.toNat
  readsBloom : ∀ i word,
    (bloomFilter bloomSize bloomShift (symbols.map fun s => gnuHash s.name))[i]? = some word →
      readLe 8 table (16 + 8 * i) = some word.toNat
  readsBuckets : ∀ i word,
    (bucketHeads nbuckets none (List.replicate nbuckets.toNat 0) symbols)[i]? = some word →
      readLe 4 table (16 + 8 * bloomSize.toNat + 4 * i) = some word.toNat
  readsChains : ∀ i word, (chainWords nbuckets symbols)[i]? = some word →
    readLe 4 table (16 + 8 * bloomSize.toNat + 4 * nbuckets.toNat + 4 * i) = some word.toNat
  holdsChains : symbols.length ≤ table.length

theorem readLe_words {w : Nat} (before after : List Byte) {words : List (BitVec w)} {count i : Nat}
    {word : BitVec w} (hw : 2 ^ w = 256 ^ count) (hi : words[i]? = some word) :
    readLe count (before ++ (words.map BitVec.toNat).flatMap (leBytes count) ++ after)
      (before.length + count * i) = some word.toNat := by
  refine readLe_array before after ?_ (by rw [List.getElem?_map, hi]; rfl)
  intro v hv
  obtain ⟨b, -, rfl⟩ := List.mem_map.mp hv
  exact hw ▸ b.isLt

theorem length_words {w : Nat} (words : List (BitVec w)) (count : Nat) :
    ((words.map BitVec.toNat).flatMap (leBytes count)).length = count * words.length := by
  rw [List.length_flatMap]
  simp [Nat.mul_comm, Function.comp_def]

theorem buildGnuHash_reads {symbols : List HashableSymbol}
    {symbolBase nbuckets bloomSize bloomShift : BitVec 32} {table : List Byte}
    (h : buildGnuHash symbols symbolBase nbuckets bloomSize bloomShift = some table) :
    TableReads table symbols symbolBase nbuckets bloomSize bloomShift := by
  unfold buildGnuHash at h
  split at h
  · cases h
  · split at h
    · cases h
    · obtain rfl := Option.some.inj h
      have h32 : ∀ n : BitVec 32, n.toNat < 256 ^ 4 := fun n => n.isLt
      have hbloom : (((bloomFilter bloomSize bloomShift
          (symbols.map fun s => gnuHash s.name)).map BitVec.toNat).flatMap (leBytes 8)).length
          = 8 * bloomSize.toNat := by
        rw [length_words, bloomFilter_length]
      have hbuckets : (((bucketHeads nbuckets none (List.replicate nbuckets.toNat 0) symbols).map
          BitVec.toNat).flatMap (leBytes 4)).length = 4 * nbuckets.toNat := by
        rw [length_words, bucketHeads_length, List.length_replicate]
      generalize hbloomBytes : ((bloomFilter bloomSize bloomShift
        (symbols.map fun s => gnuHash s.name)).map BitVec.toNat).flatMap (leBytes 8) = bloomBytes
        at hbloom
      generalize hbucketBytes : ((bucketHeads nbuckets none (List.replicate nbuckets.toNat 0)
        symbols).map BitVec.toNat).flatMap (leBytes 4) = bucketBytes at hbuckets
      generalize hchainBytes : ((chainWords nbuckets symbols).map BitVec.toNat).flatMap (leBytes 4)
        = chainBytes
      constructor
      case readsNbuckets =>
        have hread := readLe_between [] (leBytes 4 symbolBase.toNat ++ leBytes 4 bloomSize.toNat
          ++ leBytes 4 bloomShift.toNat ++ bloomBytes ++ bucketBytes ++ chainBytes) (h32 nbuckets)
        simpa only [List.nil_append, List.length_nil, List.append_assoc] using hread
      case readsSymbolBase =>
        have hread := readLe_between (leBytes 4 nbuckets.toNat) (leBytes 4 bloomSize.toNat
          ++ leBytes 4 bloomShift.toNat ++ bloomBytes ++ bucketBytes ++ chainBytes) (h32 symbolBase)
        simpa only [leBytes_length, List.append_assoc] using hread
      case readsBloomSize =>
        have hread := readLe_between (leBytes 4 nbuckets.toNat ++ leBytes 4 symbolBase.toNat)
          (leBytes 4 bloomShift.toNat ++ bloomBytes ++ bucketBytes ++ chainBytes) (h32 bloomSize)
        simpa only [List.length_append, leBytes_length, List.append_assoc] using hread
      case readsBloomShift =>
        have hread := readLe_between (leBytes 4 nbuckets.toNat ++ leBytes 4 symbolBase.toNat
          ++ leBytes 4 bloomSize.toNat) (bloomBytes ++ bucketBytes ++ chainBytes) (h32 bloomShift)
        simpa only [List.length_append, leBytes_length, List.append_assoc] using hread
      case readsBloom =>
        intro i word hi
        have hread := readLe_words (leBytes 4 nbuckets.toNat ++ leBytes 4 symbolBase.toNat
          ++ leBytes 4 bloomSize.toNat ++ leBytes 4 bloomShift.toNat) (bucketBytes ++ chainBytes)
          (by decide : 2 ^ 64 = 256 ^ 8) hi
        rw [hbloomBytes] at hread
        simpa only [List.length_append, leBytes_length, List.append_assoc] using hread
      case readsBuckets =>
        intro i word hi
        have hread := readLe_words (leBytes 4 nbuckets.toNat ++ leBytes 4 symbolBase.toNat
          ++ leBytes 4 bloomSize.toNat ++ leBytes 4 bloomShift.toNat ++ bloomBytes) chainBytes
          (by decide : 2 ^ 32 = 256 ^ 4) hi
        rw [hbucketBytes] at hread
        simpa only [List.length_append, leBytes_length, hbloom, List.append_assoc, ← Nat.add_assoc,
          Nat.reduceAdd] using hread
      case readsChains =>
        intro i word hi
        have hread := readLe_words (leBytes 4 nbuckets.toNat ++ leBytes 4 symbolBase.toNat
          ++ leBytes 4 bloomSize.toNat ++ leBytes 4 bloomShift.toNat ++ bloomBytes ++ bucketBytes)
          [] (by decide : 2 ^ 32 = 256 ^ 4) hi
        rw [hchainBytes] at hread
        simpa only [List.length_append, leBytes_length, hbloom, hbuckets, List.append_assoc,
          List.append_nil, ← Nat.add_assoc, Nat.reduceAdd] using hread
      case holdsChains =>
        have hlength := length_words (chainWords nbuckets symbols) 4
        rw [hchainBytes, chainWords_length] at hlength
        simp only [List.length_append, hlength]
        omega

/-! ## §7. Lookups. -/

/-- Consecutive entries of the dynamic symbol table from an index on. -/
def ConsecutiveFrom (symbolBase : BitVec 32) (symbols : List HashableSymbol) : Prop :=
  ∀ i s, symbols[i]? = some s → s.dynsymIndex.toNat = symbolBase.toNat + i

/-- The first symbol of a bucket. -/
theorem find?_bucket {nbuckets : BitVec 32} (symbols : List HashableSymbol) (b : Nat) :
    (symbols.find? fun s => decide (s.bucket nbuckets = b))
      = (symbols.drop (beforeKey (HashableSymbol.bucket nbuckets) b symbols).length).head? := by
  rw [drop_beforeKey]
  induction symbols with
  | nil => rfl
  | cons s rest ih =>
    by_cases hs : s.bucket nbuckets = b
    · rw [List.find?_cons_of_pos (by simpa using hs), List.dropWhile_cons_of_neg (by simpa using hs)]
      rfl
    · rw [List.find?_cons_of_neg (by simpa using hs), List.dropWhile_cons_of_pos (by simpa using hs),
        ih]

theorem toNat_and_63 (h : BitVec 32) : (h &&& 63#32).toNat = h.toNat % 64 := by
  rw [BitVec.toNat_and]
  exact Nat.and_two_pow_sub_one_eq_mod _ 6

theorem getLsbD_bloomBits (bloomShift h : BitVec 32) :
    (bloomBits bloomShift h).getLsbD (h.toNat % 64) = true ∧
      (bloomBits bloomShift h).getLsbD ((h.toNat >>> bloomShift.toNat) % 64) = true := by
  have hone : ∀ n, n < 64 → (1#64 <<< n).getLsbD n = true := by
    intro n hn
    simp [hn]
  unfold bloomBits
  rw [BitVec.getLsbD_or, BitVec.getLsbD_or, toNat_and_63, toNat_and_63, BitVec.toNat_ushiftRight,
    hone _ (Nat.mod_lt _ (by decide)), hone _ (Nat.mod_lt _ (by decide))]
  exact ⟨rfl, Bool.or_true _⟩

/-- Both bits of a listed name's hash are set in its word of the filter. -/
theorem bloom_passes {bloomSize bloomShift : BitVec 32} (hsize : bloomSize ≠ 0)
    {symbols : List HashableSymbol} {s : HashableSymbol} (hs : s ∈ symbols) {word : BitVec 64}
    (hword : (bloomFilter bloomSize bloomShift (symbols.map fun s => gnuHash s.name))[
      bloomIndex bloomSize (gnuHash s.name)]? = some word) :
    word.toNat.testBit ((gnuHash s.name).toNat % 64) = true ∧
      word.toNat.testBit (((gnuHash s.name).toNat >>> bloomShift.toNat) % 64) = true := by
  have hmem : gnuHash s.name ∈ symbols.map fun s => gnuHash s.name :=
    List.mem_map.mpr ⟨s, hs, rfl⟩
  have hset : ∀ bit, (bloomBits bloomShift (gnuHash s.name)).getLsbD bit = true →
      word.toNat.testBit bit = true := by
    intro bit hbit
    have hfilter := bloomFilter_bit hsize hmem hbit
    unfold bloomBit at hfilter
    rwa [hword, Option.getD_some] at hfilter
  obtain ⟨hlow, hhigh⟩ := getLsbD_bloomBits bloomShift (gnuHash s.name)
  exact ⟨hset _ hlow, hset _ hhigh⟩

section Lookup

variable {table : List Byte} {symbols : List HashableSymbol}
  {symbolBase nbuckets bloomSize bloomShift : BitVec 32} {dynsym : List (List Byte)}

/-- From the bucket of a name on, the first symbol of the name is found. -/
theorem walk_bucket
    (hreads : TableReads table symbols symbolBase nbuckets bloomSize bloomShift)
    (hbase : 1 ≤ symbolBase.toNat) (hindices : ConsecutiveFrom symbolBase symbols)
    (hdynsym : dynsym.drop symbolBase.toNat = symbols.map HashableSymbol.name)
    (hgrouped : Grouped (HashableSymbol.bucket nbuckets) symbols) (hbuckets : 1 ≤ nbuckets.toNat)
    (name : List Byte) :
    ∃ bucket, readLe 4 table
        (16 + 8 * bloomSize.toNat + 4 * ((gnuHash name).toNat % nbuckets.toNat)) = some bucket ∧
      (if bucket = 0 then some none
        else walk table (16 + 8 * bloomSize.toNat + 4 * nbuckets.toNat) symbolBase.toNat dynsym
          name table.length bucket)
        = some ((symbols.findIdx? fun s => decide (s.name = name)).map (symbolBase.toNat + ·)) := by
  have hlt : (gnuHash name).toNat % nbuckets.toNat < nbuckets.toNat := Nat.mod_lt _ hbuckets
  have hhead := bucketHeads_get hgrouped (fun c (hc : none = some c) => nomatch hc)
    (List.replicate nbuckets.toNat 0) (hlt.trans_eq (List.length_replicate ..).symm)
  rw [if_neg (fun h => nomatch h), find?_bucket] at hhead
  have hblock := findIdx?_eq_block hgrouped (fun s (hs : decide (s.name = name) = true) =>
    show s.bucket nbuckets = (gnuHash name).toNat % nbuckets.toNat by
      rw [HashableSymbol.bucket, of_decide_eq_true hs])
  generalize hj : (beforeKey (HashableSymbol.bucket nbuckets)
    ((gnuHash name).toNat % nbuckets.toNat) symbols).length = j at hhead hblock
  rw [hblock]
  cases hat : symbols.drop j with
  | nil =>
    -- an empty bucket: no symbol is in it
    rw [hat, List.head?_nil, List.getElem?_replicate_of_lt hlt] at hhead
    exact ⟨_, hreads.readsBuckets _ _ hhead, rfl⟩
  | cons s rest =>
    rw [hat, List.head?_cons] at hhead
    have hs : symbols[j]? = some s := by
      have hfirst : (symbols.drop j)[0]? = some s := by rw [hat]; rfl
      rwa [List.getElem?_drop] at hfirst
    have hindex := hindices j s hs
    refine ⟨_, hreads.readsBuckets _ _ hhead, ?_⟩
    have hbucket : s.bucket nbuckets = (gnuHash name).toNat % nbuckets.toNat := by
      have hdrop : symbols.drop (beforeKey (HashableSymbol.bucket nbuckets)
            ((gnuHash name).toNat % nbuckets.toNat) symbols).length
          = symbols.dropWhile fun s => decide (HashableSymbol.bucket nbuckets s ≠
              (gnuHash name).toNat % nbuckets.toNat) := drop_beforeKey _ symbols
      rw [hj, hat] at hdrop
      have hnot := List.head?_dropWhile_not
        (fun s => decide (HashableSymbol.bucket nbuckets s ≠
          (gnuHash name).toNat % nbuckets.toNat)) symbols
      rw [← hdrop] at hnot
      simpa using hnot
    have hlength := congrArg List.length hat
    rw [List.length_drop, List.length_cons] at hlength
    have hholds := hreads.holdsChains
    rw [if_neg (by omega), hindex, walk_eq hreads.readsChains hdynsym name hat (by omega), hbucket,
      Option.map_map]
    congr 2
    funext i
    show symbolBase.toNat + (j + i) = symbolBase.toNat + (i + j)
    omega

/-- A table with the right words answers with the first symbol of the name. -/
theorem lookup_of_reads
    (hreads : TableReads table symbols symbolBase nbuckets bloomSize bloomShift)
    (hbase : 1 ≤ symbolBase.toNat) (hindices : ConsecutiveFrom symbolBase symbols)
    (hdynsym : dynsym.drop symbolBase.toNat = symbols.map HashableSymbol.name)
    (hgrouped : Grouped (HashableSymbol.bucket nbuckets) symbols) (hbuckets : 1 ≤ nbuckets.toNat)
    (hsize : bloomSize ≠ 0) (name : List Byte) :
    lookup table dynsym name
      = some ((symbols.findIdx? fun s => decide (s.name = name)).map (symbolBase.toNat + ·)) := by
  obtain ⟨word, hword⟩ : ∃ word,
      (bloomFilter bloomSize bloomShift (symbols.map fun s => gnuHash s.name))[
        bloomIndex bloomSize (gnuHash name)]? = some word := by
    refine ⟨_, List.getElem?_eq_getElem ?_⟩
    rw [bloomFilter_length]
    exact bloomIndex_lt hsize _
  have hbloom : readLe 8 table (16 + 8 * (((gnuHash name).toNat / 64) &&& (bloomSize.toNat - 1)))
      = some word.toNat := hreads.readsBloom _ word hword
  unfold lookup
  simp only [hreads.readsNbuckets, hreads.readsSymbolBase, hreads.readsBloomSize,
    hreads.readsBloomShift, hbloom]
  by_cases hpasses : (word.toNat.testBit ((gnuHash name).toNat % 64) &&
      word.toNat.testBit (((gnuHash name).toNat >>> bloomShift.toNat) % 64)) = true
  · rw [if_pos hpasses]
    obtain ⟨bucket, hbucket, hwalk⟩ :=
      walk_bucket hreads hbase hindices hdynsym hgrouped hbuckets name
    rw [hbucket]
    exact hwalk
  · -- the filter only refuses names that are not listed
    rw [if_neg hpasses, List.findIdx?_eq_none_iff.mpr]
    · rfl
    · intro s hs
      refine decide_eq_false fun hname => hpasses ?_
      subst hname
      obtain ⟨hlow, hhigh⟩ := bloom_passes hsize hs hword
      rw [hlow, hhigh]
      rfl

end Lookup

end Armv8Encode.Elf
