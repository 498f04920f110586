/-
  Armv8Encode.Container.MachO.ExportTrie — the export trie of a Mach-O image.

  The trie is a radix tree over the exported names.  `build` sorts the exports,
  inserts them into an arena of nodes, places the nodes one behind the other
  and writes them; the references between nodes are offsets in base 128, whose
  widths depend on the offsets themselves, so the placing is repeated up to
  sixteen times.  `parse` walks the trie from its root with a stack of nodes.

  A name is cut where an edge is split.  A cut inside a character is a panic,
  and no trie here.
-/
import Armv8Encode.Lib.Utf8

namespace Armv8Encode.MachO.ExportTrie

open Lib

/-! ## §1. Exports and errors. -/

structure MachOExport where
  name : Str
  flags : BitVec 64
  addressOffset : BitVec 64
  deriving DecidableEq

/-- A text of the source as the error of an object write. -/
abbrev ParseResult (α : Type) := Except String α

/-! ## §2. Numbers and strings. -/

/-- `read_uleb128`, from the bytes at the cursor on, `shift` bits into the number. -/
def readUleb128 (shift : Nat) : List Byte → ParseResult (Nat × List Byte)
  | [] => .error "ULEB128: unexpected end of input"
  | b :: rest =>
    if 64 ≤ shift then .error "ULEB128: shift overflow"
    else
      let low := b.toNat % 128 * 2 ^ shift % 2 ^ 64
      if b.toNat < 128 then .ok (low, rest)
      else (readUleb128 (shift + 7) rest).map fun r => (low + r.1, r.2)

def writeUleb128 (value : Nat) : List Byte :=
  if value < 128 then [BitVec.ofNat 8 value]
  else BitVec.ofNat 8 (value % 128 + 128) :: writeUleb128 (value / 128)
termination_by value

def uleb128Size (value : Nat) : Nat :=
  if value < 128 then 1 else 1 + uleb128Size (value / 128)
termination_by value

def readCstring (bytes : List Byte) : ParseResult (Str × List Byte) :=
  let text := bytes.takeWhile fun b => b != 0
  match bytes.drop text.length with
  | [] => .error "C-string: missing NUL terminator"
  | _ :: rest =>
    if h : isUtf8 text = true then .ok (⟨text, h⟩, rest)
    else .error "C-string: non-UTF8 bytes"

/-! ## §3. The tree. -/

structure TerminalInfo where
  flags : BitVec 64
  addressOffset : BitVec 64
  deriving DecidableEq

structure TrieNode where
  terminal : Option TerminalInfo
  /-- Edges with the indices of the nodes they lead to. -/
  children : List (Str × Nat)
  deriving DecidableEq

structure Tree where
  nodes : List TrieNode
  deriving DecidableEq

def TrieNode.empty : TrieNode := ⟨none, []⟩

def MachOExport.info (export' : MachOExport) : TerminalInfo :=
  ⟨export'.flags, export'.addressOffset⟩

def commonPrefixLen (a b : List Byte) : Nat :=
  ((a.zip b).takeWhile fun p => p.1 == p.2).length

namespace Tree

/-- A tree of its root. -/
def root : Tree := ⟨[TrieNode.empty]⟩

/-- Change the node at an index. -/
def modify (tree : Tree) (node : Nat) (f : TrieNode → TrieNode) : Tree :=
  ⟨tree.nodes.modify node f⟩

/-- The export ends at the node. -/
def setTerminal (tree : Tree) (node : Nat) (info : TerminalInfo) : Tree :=
  tree.modify node fun n => { n with terminal := some info }

/-- A new leaf, as the last child of the node. -/
def addLeaf (tree : Tree) (node : Nat) (name : Str) (info : TerminalInfo) : Tree :=
  let leaf := tree.nodes.length
  (Tree.mk (tree.nodes ++ [⟨some info, []⟩])).modify node fun n =>
    { n with children := n.children ++ [(name, leaf)] }

/-- A new node in the edge `head ++ tail` that is the child number `ci`. -/
def split (tree : Tree) (node ci : Nat) (head tail : Str) (child : Nat) : Tree :=
  let intermediate := tree.nodes.length
  (Tree.mk (tree.nodes ++ [⟨none, [(tail, child)]⟩])).modify node fun n =>
    { n with children := n.children.set ci (head, intermediate) }

end Tree

/-- The first child whose edge shares a byte with the name, and its number. -/
def matchingChild (children : List (Str × Nat)) (name : Str) : Option ((Str × Nat) × Nat) :=
  children.zipIdx.find? fun c => commonPrefixLen c.1.1.bytes name.bytes != 0

theorem commonPrefixLen_ne_zero_of_matchingChild {children : List (Str × Nat)} {name : Str}
    {c : (Str × Nat) × Nat} (h : matchingChild children name = some c) :
    commonPrefixLen c.1.1.bytes name.bytes ≠ 0 := by
  have := List.find?_some h
  simpa using this

theorem Str.length_startingAt_lt {s t : Str} {i : Nat} (hi : i ≠ 0) (h : s.startingAt i = some t) :
    t.length < s.length ∨ s.length = 0 := by
  obtain ⟨hle, _, hbytes⟩ := Str.startingAt_eq_some_iff.mp h
  unfold Str.length at hle ⊢
  rw [hbytes, List.length_drop]
  omega

/-- `Tree::insert`; `none` is a panic, for a cut inside a character. -/
def Tree.insert (tree : Tree) (node : Nat) (name : Str) (info : TerminalInfo) : Option Tree :=
  if hname : name.length = 0 then some (tree.setTerminal node info)
  else
    match tree.nodes[node]? with
    | none => none
    | some n =>
      match hmatch : matchingChild n.children name with
      | none => some (tree.addLeaf node name info)
      | some ((edge, child), ci) =>
        let common := commonPrefixLen edge.bytes name.bytes
        match hrest : name.startingAt common with
        | none => none
        | some rest =>
          have : rest.length < name.length :=
            (Str.length_startingAt_lt (commonPrefixLen_ne_zero_of_matchingChild hmatch)
              hrest).resolve_right hname
          if common = edge.length then tree.insert child rest info
          else
            match edge.upTo common, edge.startingAt common with
            | some head, some tail =>
              (tree.split node ci head tail child).insert tree.nodes.length rest info
            | _, _ => none
termination_by name.length

/-! ## §4. Writing. -/

def encodeTerminalBytes (n : TrieNode) : List Byte :=
  match n.terminal with
  | none => []
  | some terminal =>
    writeUleb128 terminal.flags.toNat ++ writeUleb128 terminal.addressOffset.toNat

/-- `offsets[i]`; the indices of children are indices of nodes. -/
def offsetOf (offsets : List Nat) (i : Nat) : Nat := offsets[i]?.getD 0

def encodedChildSize (offsets : List Nat) (c : Str × Nat) : Nat :=
  c.1.length + 1 + uleb128Size (offsetOf offsets c.2)

def encodedNodeSize (n : TrieNode) (offsets : List Nat) : Nat :=
  let terminal := encodeTerminalBytes n
  uleb128Size terminal.length + terminal.length + 1
    + (n.children.map (encodedChildSize offsets)).sum

def encodeChild (offsets : List Nat) (c : Str × Nat) : List Byte :=
  c.1.bytes ++ 0 :: writeUleb128 (offsetOf offsets c.2)

def encodeNode (n : TrieNode) (offsets : List Nat) : List Byte :=
  let terminal := encodeTerminalBytes n
  writeUleb128 terminal.length ++ terminal ++ BitVec.ofNat 8 n.children.length
    :: n.children.flatMap (encodeChild offsets)

/-- The nodes one behind the other, from the cursor on, with the sizes they have under the
offsets. -/
def placeNodes (offsets : List Nat) : Nat → List TrieNode → List Nat
  | _, [] => []
  | cursor, n :: nodes =>
    cursor :: placeNodes offsets (cursor + encodedNodeSize n offsets) nodes

/-- Place again, until nothing moves or the rounds are over. -/
def iterateOffsets (nodes : List TrieNode) : Nat → List Nat → List Nat
  | 0, offsets => offsets
  | rounds + 1, offsets =>
    let newOffsets := placeNodes offsets 0 nodes
    if newOffsets = offsets then offsets else iterateOffsets nodes rounds newOffsets

def finalOffsets (nodes : List TrieNode) : List Nat :=
  iterateOffsets nodes 16 (List.replicate nodes.length 0)

def sortedExports (exports : List MachOExport) : List MachOExport :=
  exports.mergeSort fun a b => !decide (BytesLt b.name.bytes a.name.bytes)

def buildTree (exports : List MachOExport) : Option Tree :=
  (sortedExports exports).foldlM (fun tree export' => tree.insert 0 export'.name export'.info)
    Tree.root

/-- `none` is a panic. -/
def build (exports : List MachOExport) : Option (List Byte) :=
  if exports = [] then some []
  else
    (buildTree exports).map fun tree =>
      tree.nodes.flatMap fun n => encodeNode n (finalOffsets tree.nodes)

/-! ## §5. Reading. -/

def flagReexport : BitVec 64 := 0x08
def flagStubAndResolver : BitVec 64 := 0x10

/-- The data of a terminal node.  What a reexport or a resolver has more is read and
dropped. -/
def readTerminal (bytes : List Byte) : ParseResult TerminalInfo := do
  let (flags, rest) ← readUleb128 0 bytes
  let flags := BitVec.ofNat 64 flags
  if flags &&& flagReexport ≠ 0 then
    let (_, rest) ← readUleb128 0 rest
    let _ ← readCstring rest
    .ok ⟨flags, 0⟩
  else if flags &&& flagStubAndResolver ≠ 0 then
    let (stub, rest) ← readUleb128 0 rest
    let _ ← readUleb128 0 rest
    .ok ⟨flags, BitVec.ofNat 64 stub⟩
  else
    let (address, _) ← readUleb128 0 rest
    .ok ⟨flags, BitVec.ofNat 64 address⟩

/-- The terminal data, if there is any. -/
def readTerminalData (terminalSize : Nat) (bytes : List Byte) :
    ParseResult (Option TerminalInfo) :=
  if 0 < terminalSize then (readTerminal bytes).map some else .ok none

def readChildren : Nat → List Byte → ParseResult (List (Str × Nat))
  | 0, _ => .ok []
  | count + 1, bytes => do
    let (edge, rest) ← readCstring bytes
    let (offset, rest) ← readUleb128 0 rest
    let children ← readChildren count rest
    .ok ((edge, offset) :: children)

/-- One node: its terminal data, and its edges with the offsets they lead to. -/
def readNode (bytes : List Byte) (offset : Nat) :
    ParseResult (Option TerminalInfo × List (Str × Nat)) :=
  if bytes.length ≤ offset then
    .error s!"export trie: node offset {offset} past trie size {bytes.length}"
  else do
    let (terminalSize, rest) ← readUleb128 0 (bytes.drop offset)
    if rest.length < terminalSize then
      .error "export trie: terminal_size extends past trie end"
    else
      let terminal ← readTerminalData terminalSize rest
      match rest.drop terminalSize with
      | [] => .error "export trie: missing child_count after terminal"
      | count :: rest =>
        let children ← readChildren count.toNat rest
        .ok (terminal, children)

/-- The exports that end at a node of this path. -/
def exportsAt (path : Str) (terminal : Option TerminalInfo) : List MachOExport :=
  terminal.toList.map fun t => ⟨path, t.flags, t.addressOffset⟩

/-- The walk, with the nodes still to come.  A trie can lead back to a node, and then the
walk has no end: no result within the fuel is `none`. -/
def walkTrie (bytes : List Byte) :
    Nat → List (Nat × Str) → List MachOExport → Option (ParseResult (List MachOExport))
  | _, [], out => some (.ok out)
  | 0, _ :: _, _ => none
  | fuel + 1, (offset, path) :: stack, out =>
    match readNode bytes offset with
    | .error e => some (.error e)
    | .ok (terminal, children) =>
      walkTrie bytes fuel (children.map (fun c => (c.2, path.append c.1)) ++ stack)
        (out ++ exportsAt path terminal)

def parse (fuel : Nat) (bytes : List Byte) : Option (ParseResult (List MachOExport)) :=
  if bytes = [] then some (.ok []) else walkTrie bytes fuel [(0, Str.empty)] []

end Armv8Encode.MachO.ExportTrie
