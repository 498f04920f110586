/-
  Armv8Encode.Container.MachO.DylibCommands — dylib commands added and removed.

  A file is its header, its load commands and the rest: `HeaderFrame.file`.
  Each edit is an edit of the list of commands, with zeros between the last
  command and the rest to keep the rest in place:

    * `injectLcLoadDylibs_file` — new commands in front of the signature's,
      and as many bytes fewer behind;
    * `stripLcLoadDylib_file`, `stripLoadCommand_file` — one command fewer,
      and its length in zeros behind.

  Both counts of the header are 32-bit numbers.  While the grown commands fit,
  removing the added paths, in any order, gives the file back
  (`stripEach_file`); `sizeofcmds` wraps around otherwise and the walks end too
  early (`not_restored`).
-/
import Mathlib.Data.List.TakeWhile
import Armv8Encode.Lib.Between
import Armv8Encode.Lib.Except
import Armv8Encode.Container.MachO.LoadCommands

namespace Armv8Encode.MachO

open Lib

/-! ## §1. Files by their commands. -/

/-- A load command: its type, its size, which is its length, and its body. -/
structure WellSized (c : List Byte) : Prop where
  header : 8 ≤ c.length
  cmdsize : readLe 4 c 4 = some c.length

def commandType (c : List Byte) : Nat := leValue (slice c 0 4)

/-- The path a command loads, if it is one of the dylib commands. -/
def dylibPath (c : List Byte) : Option (List Byte) :=
  if isDylibLoad (commandType c) ∧ 24 ≤ c.length then
    if c.length ≤ leValue (slice c 8 4) then none
    else some ((c.drop (leValue (slice c 8 4))).takeWhile fun b => b ≠ 0)
  else none

/-- The header without its two counts. -/
structure HeaderFrame where
  magic : List Byte
  flags : List Byte
  magic_length : magic.length = 16
  flags_length : flags.length = 8

namespace HeaderFrame

variable (f : HeaderFrame)

def header (ncmds sizeofcmds : Nat) : List Byte :=
  f.magic ++ leBytes 4 ncmds ++ leBytes 4 sizeofcmds ++ f.flags

def file (cs : List (List Byte)) (rest : List Byte) : List Byte :=
  f.header cs.length cs.flatten.length ++ cs.flatten ++ rest

@[simp] theorem header_length (ncmds sizeofcmds : Nat) :
    (f.header ncmds sizeofcmds).length = headerSize := by
  simp [header, f.magic_length, f.flags_length, headerSize]

theorem file_length (cs : List (List Byte)) (rest : List Byte) :
    (f.file cs rest).length = headerSize + cs.flatten.length + rest.length := by
  rw [file, List.length_append, List.length_append, header_length]

/-- The header's counts are what was written, in 32 bits. -/
theorem readLe_header (ncmds sizeofcmds : Nat) (body : List Byte) :
    readLe 4 (f.header ncmds sizeofcmds ++ body) 16 = some (ncmds % 256 ^ 4) ∧
      readLe 4 (f.header ncmds sizeofcmds ++ body) 20 = some (sizeofcmds % 256 ^ 4) := by
  have hncmds := readLe_between_mod 4 ncmds f.magic (leBytes 4 sizeofcmds ++ f.flags ++ body)
  have hsize := readLe_between_mod 4 sizeofcmds (f.magic ++ leBytes 4 ncmds) (f.flags ++ body)
  rw [List.length_append, leBytes_length] at hsize
  rw [f.magic_length] at hncmds hsize
  unfold header
  simp only [List.append_assoc] at hncmds hsize ⊢
  exact ⟨hncmds, hsize⟩

theorem setHeaderCounts_header (ncmds sizeofcmds ncmds' sizeofcmds' : Nat) (body : List Byte) :
    setHeaderCounts (f.header ncmds sizeofcmds ++ body) ncmds' sizeofcmds' =
      f.header ncmds' sizeofcmds' ++ body := by
  have hlen : ∀ a b, (leBytes 4 a).length = (leBytes 4 b).length := by simp
  have hncmds := patch_between f.magic (leBytes 4 sizeofcmds ++ f.flags ++ body) (hlen ncmds ncmds')
  have hsize := patch_between (f.magic ++ leBytes 4 ncmds') (f.flags ++ body)
    (hlen sizeofcmds sizeofcmds')
  rw [List.length_append, leBytes_length] at hsize
  rw [f.magic_length] at hncmds hsize
  unfold setHeaderCounts header
  simp only [List.append_assoc] at hncmds hsize ⊢
  rw [hncmds, hsize]

end HeaderFrame

/-- The counts of the header match a walk by `cmdsize`, which finds these
commands. -/
structure Consistent (bytes : List Byte) (cs : List (List Byte)) : Prop where
  header : headerSize ≤ bytes.length
  sized : ∀ c ∈ cs, WellSized c
  ncmds : readLe 4 bytes 16 = some cs.length
  sizeofcmds : readLe 4 bytes 20 = some cs.flatten.length
  commands : ∃ rest, bytes.drop headerSize = cs.flatten ++ rest

theorem Consistent.exists_file {bytes : List Byte} {cs : List (List Byte)} (h : Consistent bytes cs) :
    ∃ (f : HeaderFrame) (rest : List Byte), bytes = f.file cs rest := by
  obtain ⟨rest, hrest⟩ := h.commands
  have hlen := h.header
  unfold headerSize at hlen
  refine ⟨⟨bytes.take 16, slice bytes 24 8, by simp; omega, slice_length (by omega)⟩, rest, ?_⟩
  have hsplit : bytes = bytes.take 16 ++ (slice bytes 16 4 ++ (slice bytes 20 4 ++
      (slice bytes 24 8 ++ bytes.drop 32))) := by
    unfold slice
    rw [show bytes.drop 32 = (bytes.drop 24).drop 8 by rw [List.drop_drop],
      List.take_append_drop, show bytes.drop 24 = (bytes.drop 20).drop 4 by rw [List.drop_drop],
      List.take_append_drop, show bytes.drop 20 = (bytes.drop 16).drop 4 by rw [List.drop_drop],
      List.take_append_drop, List.take_append_drop]
  rw [slice_of_readLe h.ncmds, slice_of_readLe h.sizeofcmds] at hsplit
  unfold headerSize at hrest
  rw [hrest] at hsplit
  unfold HeaderFrame.file HeaderFrame.header
  simp only [List.append_assoc]
  exact hsplit

theorem HeaderFrame.file_consistent (f : HeaderFrame) {cs : List (List Byte)} (rest : List Byte)
    (hsized : ∀ c ∈ cs, WellSized c) (hfits : cs.flatten.length < 2 ^ 32) :
    Consistent (f.file cs rest) cs := by
  have hcount : cs.length ≤ cs.flatten.length := by
    clear hfits
    induction cs with
    | nil => exact Nat.zero_le _
    | cons c cs ih =>
      have := (hsized c List.mem_cons_self).header
      have := ih fun d hd => hsized d (List.mem_cons_of_mem _ hd)
      rw [List.flatten_cons, List.length_append, List.length_cons]
      omega
  have hread := f.readLe_header cs.length cs.flatten.length (cs.flatten ++ rest)
  rw [Nat.mod_eq_of_lt (by omega), Nat.mod_eq_of_lt (by omega), ← List.append_assoc] at hread
  exact {
    header := by
      rw [f.file_length]
      omega
    sized := hsized
    ncmds := hread.1
    sizeofcmds := hread.2
    commands := ⟨rest, by
      unfold HeaderFrame.file
      rw [List.append_assoc, List.drop_left' (f.header_length _ _)]⟩ }

/-! ## §2. The walk over a file. -/

section Walk

variable {α : Type} {bytes : List Byte} {lcEnd : Nat} {pass : String}
  {visit : Nat → Nat → Nat → Except LoadCommandError (Option α)}

theorem readU32_of_readLe {offset value : Nat} (h : readLe 4 bytes offset = some value) :
    readU32 bytes offset = .ok value := by
  unfold readU32
  rw [h]

/-- A number inside a part, where the part stands. -/
theorem readU32_part {start c rest : List Byte} (offset : Nat) (h : offset + 4 ≤ c.length) :
    readU32 (start ++ c ++ rest) (start.length + offset) = .ok (leValue (slice c offset 4)) := by
  apply readU32_of_readLe
  rw [List.append_assoc, readLe_append_left]
  exact readLe_append (by rw [readLe, if_pos h]) rest

theorem walkCommands_stop {cursor : Nat} (h : lcEnd < cursor + 8) :
    walkCommands bytes lcEnd pass visit cursor = .ok none := by
  rw [walkCommands, if_neg (by omega)]

/-- A visit of the command under the cursor. -/
theorem walkCommands_step {start c : List Byte} (rest : List Byte) (hbytes : bytes = start ++ c ++ rest)
    (hsized : WellSized c) (hend : start.length + c.length ≤ lcEnd) :
    walkCommands bytes lcEnd pass visit start.length =
      match visit start.length (commandType c) c.length with
      | .ok none => walkCommands bytes lcEnd pass visit (start ++ c).length
      | taken => taken := by
  have hlen := hsized.header
  have hcmd : readU32 bytes start.length = .ok (commandType c) := by
    rw [hbytes]
    exact readU32_part 0 (by omega)
  have hsize : readU32 bytes (start.length + 4) = .ok c.length := by
    have hvalue := hsized.cmdsize
    rw [readLe, if_pos (by omega)] at hvalue
    rw [hbytes, readU32_part 4 (by omega), Option.some.inj hvalue]
  rw [walkCommands, if_pos (by omega), hcmd, hsize]
  simp only
  refine (dif_neg (by omega)).trans ?_
  cases visit start.length (commandType c) c.length with
  | error e => rfl
  | ok taken =>
    cases taken with
    | none => exact congrArg (walkCommands bytes lcEnd pass visit) List.length_append.symm
    | some a => rfl

/-- No command is taken. -/
theorem walkCommands_missed {start rest : List Byte} {cs : List (List Byte)}
    (hbytes : bytes = start ++ cs.flatten ++ rest) (hend : lcEnd = start.length + cs.flatten.length)
    (hsized : ∀ c ∈ cs, WellSized c)
    (hvisit : ∀ before c after, cs = before ++ c :: after →
      visit (start.length + before.flatten.length) (commandType c) c.length = .ok none) :
    walkCommands bytes lcEnd pass visit start.length = .ok none := by
  induction cs generalizing start with
  | nil =>
    rw [List.flatten_nil, List.length_nil] at hend
    exact walkCommands_stop (by omega)
  | cons c cs ih =>
    rw [List.flatten_cons] at hbytes hend
    rw [List.length_append] at hend
    have hfirst := hvisit [] c cs rfl
    rw [List.flatten_nil, List.length_nil, Nat.add_zero] at hfirst
    rw [walkCommands_step (cs.flatten ++ rest) (by rw [hbytes]; simp)
      (hsized c List.mem_cons_self) (by omega), hfirst]
    simp only
    refine ih (by rw [hbytes]; simp) (by rw [List.length_append]; omega)
      (fun d hd => hsized d (List.mem_cons_of_mem _ hd)) fun before d after hsplit => ?_
    have := hvisit (c :: before) d after (by rw [hsplit, List.cons_append])
    rwa [List.flatten_cons, List.length_append, ← Nat.add_assoc, ← List.length_append] at this

/-- The first command that is taken. -/
theorem walkCommands_found {start rest : List Byte} {before after : List (List Byte)} {c : List Byte}
    {a : α} (hbytes : bytes = start ++ (before ++ c :: after).flatten ++ rest)
    (hend : lcEnd = start.length + (before ++ c :: after).flatten.length)
    (hsized : ∀ d ∈ before ++ c :: after, WellSized d)
    (hmissed : ∀ front d back, before = front ++ d :: back →
      visit (start.length + front.flatten.length) (commandType d) d.length = .ok none)
    (htaken : visit (start.length + before.flatten.length) (commandType c) c.length = .ok (some a)) :
    walkCommands bytes lcEnd pass visit start.length = .ok (some a) := by
  induction before generalizing start with
  | nil =>
    rw [List.nil_append, List.flatten_cons] at hbytes hend
    rw [List.length_append] at hend
    rw [List.flatten_nil, List.length_nil, Nat.add_zero] at htaken
    rw [walkCommands_step (after.flatten ++ rest) (by rw [hbytes]; simp)
      (hsized c (by simp)) (by omega), htaken]
  | cons d before ih =>
    rw [List.cons_append, List.flatten_cons] at hbytes hend
    rw [List.length_append] at hend
    have hfirst := hmissed [] d before rfl
    rw [List.flatten_nil, List.length_nil, Nat.add_zero] at hfirst
    rw [walkCommands_step ((before ++ c :: after).flatten ++ rest) (by rw [hbytes]; simp)
      (hsized d (by simp)) (by omega), hfirst]
    simp only
    refine ih (by rw [hbytes]; simp) (by rw [List.length_append]; omega)
      (fun e he => hsized e (List.mem_cons_of_mem _ he)) (fun front e back hsplit => ?_) ?_
    · have := hmissed (d :: front) e back (by rw [hsplit, List.cons_append])
      rwa [List.flatten_cons, List.length_append, ← Nat.add_assoc, ← List.length_append] at this
    · rwa [List.flatten_cons, List.length_append, ← Nat.add_assoc, ← List.length_append] at htaken

end Walk

/-! ## §3. Edits of a file. -/

section Edits

variable (f : HeaderFrame) {cs before after : List (List Byte)} {c rest : List Byte}

theorem headerCounts_file (pass : String) (hsized : ∀ c ∈ cs, WellSized c)
    (hfits : cs.flatten.length < 2 ^ 32) (rest : List Byte) :
    headerCounts pass (f.file cs rest) = .ok (cs.length, cs.flatten.length) := by
  have h := f.file_consistent rest hsized hfits
  have hlen := h.header
  unfold headerSize at hlen
  unfold headerCounts
  rw [if_neg (by omega), readU32_of_readLe h.ncmds, readU32_of_readLe h.sizeofcmds]
  rfl

theorem walkCommands_file_missed {α : Type} {pass : String}
    {visit : Nat → Nat → Nat → Except LoadCommandError (Option α)} (hsized : ∀ c ∈ cs, WellSized c)
    (rest : List Byte)
    (hvisit : ∀ before c after, cs = before ++ c :: after →
      visit (headerSize + before.flatten.length) (commandType c) c.length = .ok none) :
    walkCommands (f.file cs rest) (headerSize + cs.flatten.length) pass visit headerSize =
      .ok none := by
  have hstart := f.header_length cs.length cs.flatten.length
  rw [← hstart] at hvisit ⊢
  exact walkCommands_missed rfl rfl hsized hvisit

theorem walkCommands_file_found {α : Type} {pass : String} {a : α}
    {visit : Nat → Nat → Nat → Except LoadCommandError (Option α)}
    (hsized : ∀ d ∈ before ++ c :: after, WellSized d) (rest : List Byte)
    (hmissed : ∀ front d back, before = front ++ d :: back →
      visit (headerSize + front.flatten.length) (commandType d) d.length = .ok none)
    (htaken : visit (headerSize + before.flatten.length) (commandType c) c.length = .ok (some a)) :
    walkCommands (f.file (before ++ c :: after) rest)
        (headerSize + (before ++ c :: after).flatten.length) pass visit headerSize =
      .ok (some a) := by
  have hstart := f.header_length (before ++ c :: after).length (before ++ c :: after).flatten.length
  rw [← hstart] at hmissed htaken ⊢
  exact walkCommands_found rfl rfl hsized hmissed htaken

theorem findInsertOffsetForLc_file (hsized : ∀ c ∈ before ++ after, WellSized c)
    (hbefore : ∀ c ∈ before, commandType c ≠ lcCodeSignature)
    (hafter : ∀ c ∈ after.head?, commandType c = lcCodeSignature) (rest : List Byte) :
    findInsertOffsetForLc (f.file (before ++ after) rest) headerSize
        (headerSize + (before ++ after).flatten.length) =
      .ok (headerSize + before.flatten.length) := by
  unfold findInsertOffsetForLc
  cases after with
  | nil =>
    rw [walkCommands_file_missed f hsized rest fun front d back hsplit => ?_, List.append_nil]
    · rfl
    · rw [if_neg (hbefore d (by rw [List.append_nil] at hsplit; simp [hsplit]))]
  | cons c after =>
    rw [walkCommands_file_found f hsized rest (fun front d back hsplit => ?_)
      (by rw [if_pos (hafter c rfl)])]
    · rfl
    · rw [if_neg (hbefore d (by simp [hsplit]))]

theorem injectLcLoadDylibs_file (deps : List (List Byte))
    (hsized : ∀ c ∈ before ++ after, WellSized c) (hfits : (before ++ after).flatten.length < 2 ^ 32)
    (hbefore : ∀ c ∈ before, commandType c ≠ lcCodeSignature)
    (hafter : ∀ c ∈ after.head?, commandType c = lcCodeSignature) (rest : List Byte) :
    injectLcLoadDylibs (f.file (before ++ after)
        (List.replicate (deps.flatMap buildDylibCommand).length 0 ++ rest)) deps =
      .ok (f.file (before ++ deps.map buildDylibCommand ++ after) rest) := by
  -- what stands in front of the new commands, with the header still as it was
  obtain ⟨front, hfront⟩ : ∃ front, front =
      f.header (before ++ after).length (before ++ after).flatten.length ++ before.flatten :=
    ⟨_, rfl⟩
  have hlen : front.length = headerSize + before.flatten.length := by
    rw [hfront, List.length_append, f.header_length]
  have hfile : f.file (before ++ after)
      (List.replicate (deps.flatMap buildDylibCommand).length 0 ++ rest) =
      front ++ (after.flatten ++
        (List.replicate (deps.flatMap buildDylibCommand).length 0 ++ rest)) := by
    rw [hfront, HeaderFrame.file]
    simp only [List.flatten_append, List.append_assoc]
  have hgrown : (front ++ deps.flatMap buildDylibCommand ++ after.flatten).length =
      headerSize + (before ++ after).flatten.length + (deps.flatMap buildDylibCommand).length := by
    rw [List.length_append, List.length_append, hlen, List.flatten_append, List.length_append]
    omega
  have hspliced : front ++ deps.flatMap buildDylibCommand ++ (after.flatten ++
        (List.replicate (deps.flatMap buildDylibCommand).length 0 ++ rest)) =
      (front ++ deps.flatMap buildDylibCommand ++ after.flatten) ++
        (List.replicate (deps.flatMap buildDylibCommand).length 0 ++ rest) := by
    simp only [List.append_assoc]
  have hdrained : ((front ++ deps.flatMap buildDylibCommand ++ after.flatten) ++
        (List.replicate (deps.flatMap buildDylibCommand).length 0 ++ rest)).drop
        ((front ++ deps.flatMap buildDylibCommand ++ after.flatten).length +
          (deps.flatMap buildDylibCommand).length) = rest := by
    rw [← List.drop_drop, List.drop_left, List.drop_left' List.length_replicate]
  unfold injectLcLoadDylibs
  rw [headerCounts_file f _ hsized hfits]
  simp only [bind, Except.bind]
  rw [findInsertOffsetForLc_file f hsized hbefore hafter, hfile]
  simp only [← hlen, List.take_left, List.drop_left]
  rw [hspliced, ← hgrown, List.take_left, hdrained,
    if_neg (by rw [List.length_append]; omega),
    if_neg (by simp only [List.length_append, List.length_replicate]; omega)]
  simp only [pure, Except.pure, HeaderFrame.file]
  rw [hfront]
  simp only [List.append_assoc]
  rw [f.setHeaderCounts_header]
  simp only [List.length_append, List.length_map, List.flatten_append, List.append_assoc,
    List.flatMap_def]
  congr 3
  · omega
  · omega

/-! A removed command leaves its length in zeros behind the last one. -/

theorem header_decrement {n : Nat} (h : 0 < n) (sizeofcmds : Nat) :
    f.header (n + (2 ^ 32 - 1)) sizeofcmds = f.header (n - 1) sizeofcmds := by
  have hmod : (n + (2 ^ 32 - 1)) % 256 ^ 4 = (n - 1) % 256 ^ 4 := by omega
  unfold HeaderFrame.header
  rw [← leBytes_mod 4 (n + (2 ^ 32 - 1)), hmod, leBytes_mod]

theorem setHeaderCounts_removed (before after : List (List Byte)) (c tail : List Byte) :
    setHeaderCounts (f.header (before ++ c :: after).length (before ++ c :: after).flatten.length ++
        before.flatten ++ after.flatten ++ tail) ((before ++ c :: after).length + (2 ^ 32 - 1))
        ((before ++ c :: after).flatten.length - c.length) = f.file (before ++ after) tail := by
  have hcount : (before ++ c :: after).length - 1 = (before ++ after).length := by simp
  have hsize : (before ++ c :: after).flatten.length - c.length = (before ++ after).flatten.length := by
    simp only [List.flatten_append, List.flatten_cons, List.length_append]
    omega
  simp only [List.append_assoc]
  rw [f.setHeaderCounts_header, header_decrement f (by simp), hcount, hsize, HeaderFrame.file]
  simp only [List.flatten_append, List.append_assoc]

theorem stripLoadCommand_file (hsized : ∀ d ∈ before ++ c :: after, WellSized d)
    (hfits : (before ++ c :: after).flatten.length < 2 ^ 32) {cmd : Nat}
    (hmissed : ∀ d ∈ before, commandType d ≠ cmd) (hc : commandType c = cmd) (rest : List Byte) :
    stripLoadCommand (f.file (before ++ c :: after) rest) cmd =
      .ok (f.file (before ++ after) (List.replicate c.length 0 ++ rest), c.length) := by
  obtain ⟨front, hfront⟩ : ∃ front, front =
      f.header (before ++ c :: after).length (before ++ c :: after).flatten.length ++
        before.flatten := ⟨_, rfl⟩
  have hlen : front.length = headerSize + before.flatten.length := by
    rw [hfront, List.length_append, f.header_length]
  have hfile : f.file (before ++ c :: after) rest = front ++ (c ++ (after.flatten ++ rest)) := by
    rw [hfront, HeaderFrame.file]
    simp only [List.flatten_append, List.flatten_cons, List.append_assoc]
  have hend : headerSize + (before ++ c :: after).flatten.length - c.length =
      (front ++ after.flatten).length := by
    simp only [List.flatten_append, List.flatten_cons, List.length_append, hlen]
    omega
  have hdrained : (front ++ (c ++ (after.flatten ++ rest))).drop (front.length + c.length) =
      after.flatten ++ rest := by
    rw [← List.drop_drop, List.drop_left, List.drop_left]
  unfold stripLoadCommand
  rw [headerCounts_file f _ hsized hfits]
  simp only [bind, Except.bind]
  rw [walkCommands_file_found f hsized rest (fun front d back hsplit => by
    rw [if_neg (hmissed d (by simp [hsplit]))]) (by rw [if_pos hc])]
  simp only [hfile, ← hlen, hend, hdrained, List.take_left]
  rw [if_neg (by simp only [List.length_append]; omega), ← List.append_assoc front,
    if_neg (by rw [List.length_append]; omega), List.take_left, List.drop_left]
  simp only [pure, Except.pure]
  rw [← setHeaderCounts_removed f before after c, hfront]
  simp only [List.append_assoc]

theorem stripLoadCommand_absent (hsized : ∀ d ∈ cs, WellSized d) (hfits : cs.flatten.length < 2 ^ 32)
    {cmd : Nat} (hmissed : ∀ d ∈ cs, commandType d ≠ cmd) (rest : List Byte) :
    stripLoadCommand (f.file cs rest) cmd = .ok (f.file cs rest, 0) := by
  unfold stripLoadCommand
  rw [headerCounts_file f _ hsized hfits]
  simp only [bind, Except.bind]
  rw [walkCommands_file_missed f hsized rest fun front d back hsplit => by
    rw [if_neg (hmissed d (by simp [hsplit]))]]
  rfl

/-- A visit compares the path that the command has. -/
theorem loadsPath_file (path : List Byte) (before after : List (List Byte)) (c rest : List Byte) :
    loadsPath (f.file (before ++ c :: after) rest) path (headerSize + before.flatten.length)
      (commandType c) c.length = .ok (dylibPath c == some path) := by
  obtain ⟨front, hfront⟩ : ∃ front, front =
      f.header (before ++ c :: after).length (before ++ c :: after).flatten.length ++
        before.flatten := ⟨_, rfl⟩
  have hlen : front.length = headerSize + before.flatten.length := by
    rw [hfront, List.length_append, f.header_length]
  have hfile : f.file (before ++ c :: after) rest = front ++ c ++ (after.flatten ++ rest) := by
    rw [hfront, HeaderFrame.file]
    simp only [List.flatten_append, List.flatten_cons, List.append_assoc]
  rw [hfile, ← hlen]
  unfold loadsPath dylibPath
  by_cases hload : isDylibLoad (commandType c) ∧ 24 ≤ c.length
  · rw [if_pos hload, if_pos hload, readU32_part 8 (by omega)]
    simp only
    by_cases hname : c.length ≤ leValue (slice c 8 4)
    · rw [if_pos hname, if_pos hname]
      rfl
    · have hslice : slice (front ++ c ++ (after.flatten ++ rest))
          (front.length + leValue (slice c 8 4)) (c.length - leValue (slice c 8 4)) =
          c.drop (leValue (slice c 8 4)) := by
        unfold slice
        rw [List.append_assoc, ← List.drop_drop, List.drop_left,
          List.drop_append_of_le_length (by unfold slice at hname; omega),
          List.take_left' (by rw [List.length_drop])]
      rw [if_neg hname, if_neg hname, commandPath,
        if_neg (by simp only [List.length_append]; omega), hslice]
      rfl
  · rw [if_neg hload, if_neg hload]
    rfl

/-- The visit of a removal: the cursor and the size of a command with the path. -/
theorem pathVisit_file (path : List Byte) (before after : List (List Byte)) (c rest : List Byte) :
    (do return if ← loadsPath (f.file (before ++ c :: after) rest) path
          (headerSize + before.flatten.length) (commandType c) c.length
        then some (headerSize + before.flatten.length, c.length) else none) =
      (.ok (if dylibPath c = some path then some (headerSize + before.flatten.length, c.length)
        else none) : Except LoadCommandError (Option (Nat × Nat))) := by
  rw [loadsPath_file]
  simp only [bind, Except.bind, pure, Except.pure, beq_iff_eq]

theorem stripLcLoadDylib_file (hsized : ∀ d ∈ before ++ c :: after, WellSized d)
    (hfits : (before ++ c :: after).flatten.length < 2 ^ 32) {path : List Byte}
    (hmissed : ∀ d ∈ before, dylibPath d ≠ some path) (hc : dylibPath c = some path)
    (rest : List Byte) :
    stripLcLoadDylib (f.file (before ++ c :: after) rest) path =
      .ok (f.file (before ++ after) (List.replicate c.length 0 ++ rest), some c.length) := by
  obtain ⟨front, hfront⟩ : ∃ front, front =
      f.header (before ++ c :: after).length (before ++ c :: after).flatten.length ++
        before.flatten := ⟨_, rfl⟩
  have hlen : front.length = headerSize + before.flatten.length := by
    rw [hfront, List.length_append, f.header_length]
  have hfile : f.file (before ++ c :: after) rest = front ++ (c ++ after.flatten) ++ rest := by
    rw [hfront, HeaderFrame.file]
    simp only [List.flatten_append, List.flatten_cons, List.append_assoc]
  have hend : headerSize + (before ++ c :: after).flatten.length =
      front.length + c.length + after.flatten.length := by
    simp only [List.flatten_append, List.flatten_cons, List.length_append, hlen]
    omega
  have htail : slice (front ++ (c ++ after.flatten) ++ rest) (front.length + c.length)
      after.flatten.length = after.flatten := by
    have h := slice_between (front ++ c) after.flatten rest
    rw [List.length_append] at h
    rwa [List.append_assoc front] at h
  have hcleared : patch (patch (front ++ (c ++ after.flatten) ++ rest) front.length after.flatten)
      (front.length + after.flatten.length) (List.replicate c.length 0) =
      front ++ (after.flatten ++ List.replicate c.length 0) ++ rest := by
    rw [patch_patch (by simp only [List.length_append, List.length_replicate]; omega)]
    exact patch_between _ _ (by
      simp only [List.length_append, List.length_replicate]
      omega)
  have hfound : walkCommands (f.file (before ++ c :: after) rest)
      (headerSize + (before ++ c :: after).flatten.length) "remove dep"
      (fun cursor cmd cmdsize => do
        return if ← loadsPath (f.file (before ++ c :: after) rest) path cursor cmd cmdsize
          then some (cursor, cmdsize) else none) headerSize =
      .ok (some (headerSize + before.flatten.length, c.length)) := by
    refine walkCommands_file_found f hsized rest (fun first d back hsplit => ?_) ?_
    · have hvisit := pathVisit_file f path first (back ++ c :: after) d rest
      rw [if_neg (hmissed d (by simp [hsplit]))] at hvisit
      rw [hsplit, List.append_assoc, List.cons_append]
      exact hvisit
    · have hvisit := pathVisit_file f path before after c rest
      rwa [if_pos hc] at hvisit
  unfold stripLcLoadDylib
  rw [headerCounts_file f _ hsized hfits]
  simp only [bind, Except.bind] at hfound ⊢
  rw [hfound]
  simp only [hfile, ← hlen, hend]
  rw [if_neg (by simp only [List.length_append]; omega),
    show front.length + c.length + after.flatten.length - (front.length + c.length) =
      after.flatten.length by omega, htail,
    show front.length + c.length + after.flatten.length - c.length =
      front.length + after.flatten.length by omega, hcleared]
  simp only [pure, Except.pure]
  rw [← setHeaderCounts_removed f before after c, hfront]
  simp only [List.append_assoc]

end Edits

/-! ## §4. Added commands. -/

theorem dylibCommandSize_bounds (path : List Byte) :
    25 + path.length ≤ dylibCommandSize path ∧ dylibCommandSize path ≤ 32 + path.length := by
  unfold dylibCommandSize
  omega

@[simp] theorem buildDylibCommand_length (path : List Byte) :
    (buildDylibCommand path).length = dylibCommandSize path := by
  have h := dylibCommandSize_bounds path
  simp only [buildDylibCommand, List.length_append, leBytes_length, List.length_replicate]
  omega

/-- The fixed part, the path and the zeros behind it. -/
theorem buildDylibCommand_parts (path : List Byte) :
    ∃ fixed, fixed.length = 24 ∧ leValue (slice fixed 8 4) = 24 ∧
      buildDylibCommand path =
        fixed ++ (path ++ List.replicate (dylibCommandSize path - (24 + path.length)) 0) := by
  refine ⟨leBytes 4 lcLoadDylib ++ leBytes 4 (dylibCommandSize path) ++ leBytes 4 24 ++ leBytes 4 2 ++
    leBytes 4 0x10000 ++ leBytes 4 0x10000, by simp, ?_, by simp [buildDylibCommand]⟩
  have h := slice_between (leBytes 4 lcLoadDylib ++ leBytes 4 (dylibCommandSize path)) (leBytes 4 24)
    (leBytes 4 2 ++ leBytes 4 0x10000 ++ leBytes 4 0x10000)
  simp only [List.length_append, leBytes_length, List.append_assoc] at h ⊢
  rw [h, leValue_leBytes]
  rfl

theorem commandType_buildDylibCommand (path : List Byte) :
    commandType (buildDylibCommand path) = lcLoadDylib := by
  have h : slice (buildDylibCommand path) 0 4 = leBytes 4 lcLoadDylib := by
    unfold slice buildDylibCommand
    simp only [List.append_assoc]
    rw [List.drop_zero, List.take_left' (leBytes_length _ _)]
  rw [commandType, h, leValue_leBytes]
  rfl

theorem buildDylibCommand_wellSized {path : List Byte} (h : dylibCommandSize path < 2 ^ 32) :
    WellSized (buildDylibCommand path) where
  header := by
    have := dylibCommandSize_bounds path
    rw [buildDylibCommand_length]
    omega
  cmdsize := by
    have hread := readLe_between (leBytes 4 lcLoadDylib)
      (leBytes 4 24 ++ leBytes 4 2 ++ leBytes 4 0x10000 ++ leBytes 4 0x10000 ++ path ++
        List.replicate (dylibCommandSize path - (24 + path.length)) 0)
      (show dylibCommandSize path < 256 ^ 4 by omega)
    rw [leBytes_length] at hread
    rw [buildDylibCommand_length]
    unfold buildDylibCommand
    simp only [List.append_assoc] at hread ⊢
    exact hread

/-- A path without a NUL is read back. -/
theorem dylibPath_buildDylibCommand {path : List Byte} (h : (0 : Byte) ∉ path) :
    dylibPath (buildDylibCommand path) = some path := by
  obtain ⟨fixed, hlen, hoffset, hparts⟩ := buildDylibCommand_parts path
  have hbounds := dylibCommandSize_bounds path
  have hname : leValue (slice (buildDylibCommand path) 8 4) = 24 := by
    rw [hparts]
    unfold slice at hoffset ⊢
    rw [List.drop_append_of_le_length (by omega),
      List.take_append_of_le_length (by rw [List.length_drop]; omega), hoffset]
  have hzeros : (List.replicate (dylibCommandSize path - (24 + path.length)) (0 : Byte)).takeWhile
      (fun b => b ≠ 0) = [] := by
    rw [List.takeWhile_replicate]
    rfl
  unfold dylibPath
  rw [if_pos ⟨by rw [commandType_buildDylibCommand]; rfl, by rw [buildDylibCommand_length]; omega⟩,
    hname, if_neg (by rw [buildDylibCommand_length]; omega), hparts, List.drop_left' hlen,
    List.takeWhile_append_of_pos fun b hb => ?_, hzeros, List.append_nil]
  simp only [ne_eq, decide_not, Bool.not_eq_eq_eq_not, Bool.not_true, decide_eq_false_iff_not]
  rintro rfl
  exact h hb

/-- Removing the added paths one after the other, in any order. -/
theorem stripEach_file (f : HeaderFrame) {before after : List (List Byte)}
    (hbefore : ∀ c ∈ before, WellSized c) (hafter : ∀ c ∈ after, WellSized c)
    {first later deps : List (List Byte)} (hperm : List.Perm (first ++ later) deps)
    (hnul : ∀ path ∈ deps, (0 : Byte) ∉ path)
    (hloaded : ∀ path ∈ deps, ∀ c ∈ before, dylibPath c ≠ some path)
    (hfits : (before ++ deps.map buildDylibCommand ++ after).flatten.length < 2 ^ 32)
    (rest : List Byte) :
    ∃ left, List.Perm left later ∧
      stripEach (f.file (before ++ deps.map buildDylibCommand ++ after) rest) first =
        .ok (f.file (before ++ left.map buildDylibCommand ++ after)
          (List.replicate ((deps.flatMap buildDylibCommand).length -
            (left.flatMap buildDylibCommand).length) 0 ++ rest)) ∧
      (left.flatMap buildDylibCommand).length ≤ (deps.flatMap buildDylibCommand).length := by
  induction first generalizing deps rest with
  | nil =>
    refine ⟨deps, hperm.symm, ?_, Nat.le_refl _⟩
    rw [Nat.sub_self]
    rfl
  | cons path first ih =>
    obtain ⟨others, others', rfl, hfirst⟩ :=
      List.eq_append_cons_of_mem (hperm.subset (List.mem_cons_self))
    have hremaining : List.Perm (first ++ later) (others ++ others') :=
      (hperm.trans List.perm_middle).cons_inv
    have hsized : ∀ c ∈ before ++ (others ++ path :: others').map buildDylibCommand ++ after,
        WellSized c := by
      intro c hc
      have hle := (List.sublist_flatten_of_mem hc).length_le
      rcases List.mem_append.mp hc with hfront | hc
      · rcases List.mem_append.mp hfront with hc | hc
        · exact hbefore c hc
        · obtain ⟨p, hp, rfl⟩ := List.mem_map.mp hc
          rw [buildDylibCommand_length] at hle
          exact buildDylibCommand_wellSized (by omega)
      · exact hafter c hc
    have hlist : before ++ (others ++ path :: others').map buildDylibCommand ++ after =
        (before ++ others.map buildDylibCommand) ++ buildDylibCommand path ::
          (others'.map buildDylibCommand ++ after) := by
      simp
    have hless : (before ++ (others ++ others').map buildDylibCommand ++ after).flatten.length +
        (buildDylibCommand path).length =
        (before ++ (others ++ path :: others').map buildDylibCommand ++ after).flatten.length := by
      simp only [List.map_append, List.map_cons, List.flatten_append, List.flatten_cons,
        List.length_append]
      omega
    have hcut : ((others ++ path :: others').flatMap buildDylibCommand).length =
        ((others ++ others').flatMap buildDylibCommand).length + (buildDylibCommand path).length := by
      simp only [List.flatMap_append, List.flatMap_cons, List.length_append]
      omega
    obtain ⟨left, hleft, hrun, hle⟩ := ih hremaining (fun p hp => hnul p (by simp at hp ⊢; tauto))
      (fun p hp => hloaded p (by simp at hp ⊢; tauto)) (by omega)
      (List.replicate (buildDylibCommand path).length 0 ++ rest)
    refine ⟨left, hleft, ?_, by omega⟩
    have hstrip := stripLcLoadDylib_file f (hlist ▸ hsized) (hlist ▸ hfits)
      (fun c hc => ?_) (dylibPath_buildDylibCommand (hnul path (by simp))) rest
    · rw [stripEach, hlist, hstrip]
      simp only [bind, Except.bind]
      rw [show before ++ others.map buildDylibCommand ++ (others'.map buildDylibCommand ++ after) =
        before ++ (others ++ others').map buildDylibCommand ++ after by simp, hrun, ← List.append_assoc,
        List.replicate_append_replicate, hcut]
      congr 4
      omega
    · rcases List.mem_append.mp hc with hc | hc
      · exact hloaded path (by simp) c hc
      · obtain ⟨p, hp, rfl⟩ := List.mem_map.mp hc
        rw [dylibPath_buildDylibCommand (hnul p (by simp [hp]))]
        rintro heq
        exact hfirst (Option.some.inj heq ▸ hp)

/-! ## §5. Counts that wrap around. -/

/-- What a walk takes, some visit of it has taken: of a command that lies
before the walk's end. -/
theorem walkCommands_some {α : Type} {bytes : List Byte} {lcEnd cursor : Nat} {pass : String}
    {visit : Nat → Nat → Nat → Except LoadCommandError (Option α)} {a : α}
    (h : walkCommands bytes lcEnd pass visit cursor = .ok (some a)) :
    ∃ at' cmd cmdsize, cursor ≤ at' ∧ at' + cmdsize ≤ lcEnd ∧ visit at' cmd cmdsize = .ok (some a) := by
  induction cursor using walkCommands.induct bytes lcEnd visit with
  | case1 cursor hin cmd cmdsize hcmd hsize hbad =>
    rw [walkCommands, if_pos hin, hcmd, hsize] at h
    simp only at h
    rw [dif_pos hbad] at h
    cases h
  | case2 cursor hin cmd cmdsize hcmd hsize hgood hvisit ih =>
    rw [walkCommands, if_pos hin, hcmd, hsize] at h
    simp only at h
    rw [dif_neg hgood, hvisit] at h
    obtain ⟨at', cmd', cmdsize', hle, hend, htaken⟩ := ih h
    exact ⟨at', cmd', cmdsize', by omega, hend, htaken⟩
  | case3 cursor hin cmd cmdsize hcmd hsize hgood hvisit =>
    rw [walkCommands, if_pos hin, hcmd, hsize] at h
    simp only at h
    rw [dif_neg hgood] at h
    refine ⟨cursor, cmd, cmdsize, Nat.le_refl _, by omega, ?_⟩
    exact h
  | case4 cursor hin hread =>
    rw [walkCommands, if_pos hin] at h
    split at h
    · exact absurd ‹_› (hread _ _ ‹_›)
    · cases h
  | case5 cursor hout =>
    rw [walkCommands, if_neg hout] at h
    cases h

theorem headerCounts_ok {pass : String} {bytes : List Byte} {counts : Nat × Nat}
    (h : headerCounts pass bytes = .ok counts) :
    24 ≤ bytes.length ∧ readLe 4 bytes 20 = some counts.2 := by
  unfold headerCounts at h
  by_cases hshort : bytes.length < 24
  · rw [if_pos hshort] at h
    cases h
  · rw [if_neg hshort] at h
    obtain ⟨ncmds, -, h⟩ := bind_eq_ok.mp h
    obtain ⟨sizeofcmds, hsize, h⟩ := bind_eq_ok.mp h
    cases h
    refine ⟨by omega, ?_⟩
    unfold readU32 at hsize
    split at hsize
    · rw [← Except.ok.inj hsize]
      assumption
    · cases hsize

theorem setHeaderCounts_keeps {bytes : List Byte} (ncmds sizeofcmds : Nat) (h : 24 ≤ bytes.length) :
    (setHeaderCounts bytes ncmds sizeofcmds).length = bytes.length ∧
      readLe 4 (setHeaderCounts bytes ncmds sizeofcmds) 20 = some (sizeofcmds % 256 ^ 4) ∧
      ∀ n, 24 ≤ n → (setHeaderCounts bytes ncmds sizeofcmds).drop n = bytes.drop n := by
  have hncmds : (patch bytes 16 (leBytes 4 ncmds)).length = bytes.length :=
    length_patch (by rw [leBytes_length]; omega)
  unfold setHeaderCounts
  refine ⟨?_, readLe_patch_self (by omega), fun n hn => ?_⟩
  · rw [length_patch (by rw [leBytes_length]; omega), hncmds]
  · rw [drop_patch (by rw [leBytes_length]; omega) (by rw [leBytes_length]; omega),
      drop_patch (by rw [leBytes_length]; omega) (by rw [leBytes_length]; omega)]

/-- A removal leaves every byte behind the last command where it is. -/
theorem stripLcLoadDylib_keeps {bytes path : List Byte} {out : List Byte × Option Nat}
    (h : stripLcLoadDylib bytes path = .ok out) :
    out.1.length = bytes.length ∧
      ∃ sizeofcmds sizeofcmds', readLe 4 bytes 20 = some sizeofcmds ∧
        readLe 4 out.1 20 = some sizeofcmds' ∧ sizeofcmds' ≤ sizeofcmds ∧
        out.1.drop (headerSize + sizeofcmds) = bytes.drop (headerSize + sizeofcmds) := by
  unfold stripLcLoadDylib at h
  obtain ⟨⟨ncmds, sizeofcmds⟩, hcounts, h⟩ := bind_eq_ok.mp h
  obtain ⟨hlen, hsize⟩ := headerCounts_ok hcounts
  obtain ⟨found, hfound, h⟩ := bind_eq_ok.mp h
  cases found with
  | none =>
    cases h
    exact ⟨rfl, sizeofcmds, sizeofcmds, hsize, hsize, Nat.le_refl _, rfl⟩
  | some taken =>
    obtain ⟨at', cmd, cmdsize, hle, hend, hvisit⟩ := walkCommands_some hfound
    obtain ⟨loads, -, hvisit⟩ := bind_eq_ok.mp hvisit
    obtain rfl : (at', cmdsize) = taken := by
      cases loads
      · cases hvisit
      · exact Option.some.inj (Except.ok.inj hvisit)
    simp only at h hend
    by_cases hshort : bytes.length < headerSize + sizeofcmds
    · rw [if_pos hshort] at h
      cases h
    rw [if_neg hshort] at h
    cases h
    unfold headerSize at *
    -- four patches, all of them in front of the end of the commands
    have htail : (slice bytes (at' + cmdsize) (32 + sizeofcmds - (at' + cmdsize))).length =
        32 + sizeofcmds - (at' + cmdsize) := slice_length (by omega)
    have hzeros : (List.replicate cmdsize (0 : Byte)).length = cmdsize := List.length_replicate
    have hmoved : (patch bytes at'
        (slice bytes (at' + cmdsize) (32 + sizeofcmds - (at' + cmdsize)))).length = bytes.length :=
      length_patch (by omega)
    have hcleared : (patch (patch bytes at'
        (slice bytes (at' + cmdsize) (32 + sizeofcmds - (at' + cmdsize))))
        (32 + sizeofcmds - cmdsize) (List.replicate cmdsize 0)).length = (patch bytes at'
        (slice bytes (at' + cmdsize) (32 + sizeofcmds - (at' + cmdsize)))).length :=
      length_patch (by omega)
    obtain ⟨hlen', hsize', hdrop⟩ := setHeaderCounts_keeps (ncmds + (2 ^ 32 - 1))
      (sizeofcmds - cmdsize) (hlen.trans (hmoved.symm.trans hcleared.symm).le)
    refine ⟨hlen'.trans (hcleared.trans hmoved), sizeofcmds, _, hsize, hsize', ?_, ?_⟩
    · exact (Nat.mod_le _ _).trans (Nat.sub_le _ _)
    · rw [hdrop _ (by omega), drop_patch (by omega) (by omega), drop_patch (by omega) (by omega)]

theorem stripEach_keeps {bytes final : List Byte} {order : List (List Byte)} {sizeofcmds : Nat}
    (hsize : readLe 4 bytes 20 = some sizeofcmds) (h : stripEach bytes order = .ok final) :
    final.length = bytes.length ∧
      final.drop (headerSize + sizeofcmds) = bytes.drop (headerSize + sizeofcmds) := by
  induction order generalizing bytes sizeofcmds with
  | nil =>
    cases h
    exact ⟨rfl, rfl⟩
  | cons path order ih =>
    obtain ⟨out, hstrip, hrest⟩ := bind_eq_ok.mp h
    obtain ⟨hlen, before, after, hbefore, hafter, hle, hdrop⟩ := stripLcLoadDylib_keeps hstrip
    obtain rfl := Option.some.inj (hsize.symm.trans hbefore)
    obtain ⟨hlen', hdrop'⟩ := ih hafter hrest
    refine ⟨hlen'.trans hlen, ?_⟩
    have hsplit : headerSize + sizeofcmds = headerSize + after + (sizeofcmds - after) := by omega
    rw [← hdrop, hsplit, ← List.drop_drop, hdrop', List.drop_drop]

/-- A command has a byte that is not zero. -/
theorem WellSized.exists_fromEnd {c : List Byte} (h : WellSized c) :
    c.length < 2 ^ 32 ∧ ∃ near < c.length, ∃ x, fromEnd c near = some x ∧ x ≠ 0 := by
  have hlen := h.header
  have hvalue := h.cmdsize
  have hlt := readLe_lt hvalue
  refine ⟨by omega, ?_⟩
  by_contra hnone
  have hzero : ∀ b ∈ c, b = 0 := by
    intro b hb
    by_contra hb0
    obtain ⟨i, hi, hget⟩ := Lib.exists_fromEnd hb
    exact hnone ⟨i, hi, b, hget, hb0⟩
  have hsize : leValue (slice c 4 4) = 0 := leValue_eq_zero fun b hb =>
    hzero b (List.mem_of_mem_drop (List.mem_of_mem_take hb))
  rw [readLe, if_pos (by omega), hsize] at hvalue
  have := Option.some.inj hvalue
  omega

/-- So has an added command, near its end. -/
theorem buildDylibCommand_fromEnd (path : List Byte) (hnul : (0 : Byte) ∉ path) :
    ∃ near < 32, near < (buildDylibCommand path).length ∧
      ∃ x, fromEnd (buildDylibCommand path) near = some x ∧ x ≠ 0 := by
  cases hpath : path.reverse with
  | nil =>
    obtain rfl := List.reverse_eq_nil_iff.mp hpath
    exact ⟨9, by decide, by decide, 1, by decide, by decide⟩
  | cons x init =>
    have hx : x ∈ path := List.mem_reverse.mp (by rw [hpath]; exact List.mem_cons_self)
    have hbounds := dylibCommandSize_bounds path
    have hpos : 0 < path.length := List.length_pos_of_mem hx
    obtain ⟨fixed, -, -, hparts⟩ := buildDylibCommand_parts path
    refine ⟨dylibCommandSize path - (24 + path.length), by omega,
      by rw [buildDylibCommand_length]; omega, x, ?_, fun h0 => hnul (h0 ▸ hx)⟩
    rw [hparts, fromEnd_append_right (by rw [List.length_append, List.length_replicate]; omega),
      fromEnd_append_left (by rw [List.length_replicate]), List.length_replicate, Nat.sub_self,
      fromEnd, hpath]
    rfl

/-- Commands that outgrow `sizeofcmds` do not come off again. -/
theorem not_restored (f : HeaderFrame) {before after deps order : List (List Byte)}
    (hafter : ∀ c ∈ after, WellSized c) (hnul : ∀ path ∈ deps, (0 : Byte) ∉ path)
    (hfits : (before ++ after).flatten.length < 2 ^ 32)
    (hwraps : 2 ^ 32 ≤ (before ++ after).flatten.length + (deps.flatMap buildDylibCommand).length)
    (rest : List Byte) :
    stripEach (f.file (before ++ deps.map buildDylibCommand ++ after) rest) order ≠
      .ok (f.file (before ++ after)
        (List.replicate (deps.flatMap buildDylibCommand).length 0 ++ rest)) := by
  intro h
  have hflat : (deps.map buildDylibCommand).flatten = deps.flatMap buildDylibCommand :=
    List.flatMap_def.symm
  have htotal : (before ++ deps.map buildDylibCommand ++ after).flatten.length =
      (before ++ after).flatten.length + (deps.flatMap buildDylibCommand).length := by
    simp only [List.flatten_append, List.length_append, hflat]
    omega
  have hsize := (f.readLe_header (before ++ deps.map buildDylibCommand ++ after).length
    (before ++ deps.map buildDylibCommand ++ after).flatten.length
    ((before ++ deps.map buildDylibCommand ++ after).flatten ++ rest)).2
  rw [← List.append_assoc] at hsize
  obtain ⟨hlen, hdrop⟩ := stripEach_keeps hsize h
  have hdeps : 0 < (deps.flatMap buildDylibCommand).length := by omega
  -- a byte near the end of the commands that is not zero
  obtain ⟨near, hfar, hnear, hnonzero, hcut⟩ : ∃ near < 2 ^ 32,
      near < (deps.flatMap buildDylibCommand ++ after.flatten).length ∧
      (∃ x, fromEnd (deps.flatMap buildDylibCommand ++ after.flatten) near = some x ∧ x ≠ 0) ∧
      (after.flatten = [] ∨ near < after.flatten.length) := by
    rcases List.eq_nil_or_concat after with rfl | ⟨init, c, rfl⟩
    · rcases List.eq_nil_or_concat deps with rfl | ⟨init, path, rfl⟩
      · exact absurd hdeps (Nat.lt_irrefl 0)
      · obtain ⟨near, hfar, hnear, x, hx, hne⟩ := buildDylibCommand_fromEnd path (hnul path (by simp))
        have hlast : (init.concat path).flatMap buildDylibCommand ++ ([] : List (List Byte)).flatten =
            init.flatMap buildDylibCommand ++ buildDylibCommand path := by simp
        refine ⟨near, by omega, ?_, ⟨x, ?_, hne⟩, .inl rfl⟩
        · rw [hlast, List.length_append]
          omega
        · rw [hlast, fromEnd_append_right hnear, hx]
    · obtain ⟨hfar, near, hnear, x, hx, hne⟩ := (hafter c (by simp)).exists_fromEnd
      have hlast : (init.concat c).flatten = init.flatten ++ c := by simp
      refine ⟨near, by omega, ?_, ⟨x, ?_, hne⟩, .inr ?_⟩
      · rw [hlast, List.length_append, List.length_append]
        omega
      · rw [hlast, ← List.append_assoc, fromEnd_append_right hnear, hx]
      · rw [hlast, List.length_append]
        omega
  obtain ⟨i, hi, hne⟩ := fromEnd_ne_of_shift
    (f.header (before ++ deps.map buildDylibCommand ++ after).length
      (before ++ deps.map buildDylibCommand ++ after).flatten.length ++ before.flatten)
    (f.header (before ++ after).length (before ++ after).flatten.length ++ before.flatten)
    hdeps hnear hnonzero hcut
  have hsame := fromEnd_eq_of_drop (i := i + rest.length) hdrop (by
    rw [f.file_length, htotal, List.length_append, List.length_replicate]
    omega) hlen
  unfold HeaderFrame.file at hsame
  rw [← List.append_assoc, fromEnd_append_left (Nat.le_add_left _ _), Nat.add_sub_cancel,
    fromEnd_append_left (Nat.le_add_left _ _), Nat.add_sub_cancel] at hsame
  simp only [List.flatten_append, hflat, List.append_assoc] at hsame hne
  exact hne hsame.symm

/-! ## §6. Added and removed again. -/

/-- A file whose header matches its commands, with the bytes of another file
from an offset on. -/
structure Intact (padEnd : Nat) (bytes edited : List Byte) : Prop where
  counts : ∃ cs, Consistent edited cs
  beyond : edited.drop padEnd = bytes.drop padEnd
  length : edited.length = bytes.length

/-- The paths go in, and come out in any order: every file on the way is
intact and the last is the first. -/
def Undone (bytes : List Byte) (deps : List (List Byte)) (padEnd : Nat) : Prop :=
  ∃ injected, injectLcLoadDylibs bytes deps = .ok injected ∧ Intact padEnd bytes injected ∧
    ∀ order, List.Perm order deps → stripEach injected order = .ok bytes ∧
      ∀ first later, first ++ later = order →
        ∃ stripped, stripEach injected first = .ok stripped ∧ Intact padEnd bytes stripped

/-- The first command of a type goes out, if there is one, and its length in
zeros comes in behind the last command; all else stays. -/
structure RemovesFirst (bytes : List Byte) (cs : List (List Byte)) (cmd : Nat) : Prop where
  absent : (∀ c ∈ cs, commandType c ≠ cmd) → stripLoadCommand bytes cmd = .ok (bytes, 0)
  present : ∀ before c after, cs = before ++ c :: after → commandType c = cmd →
    (∀ d ∈ before, commandType d ≠ cmd) →
    ∃ stripped, stripLoadCommand bytes cmd = .ok (stripped, c.length) ∧
      Consistent stripped (before ++ after) ∧
      stripped.take 16 = bytes.take 16 ∧ slice stripped 24 8 = slice bytes 24 8 ∧
      slice stripped (headerSize + (before ++ after).flatten.length) c.length =
        List.replicate c.length 0 ∧
      stripped.drop (headerSize + cs.flatten.length) = bytes.drop (headerSize + cs.flatten.length)

/-- Zeros behind the commands, up to an offset. -/
structure HeaderPad (bytes : List Byte) (cs : List (List Byte)) (padEnd : Nat) : Prop where
  inside : padEnd ≤ bytes.length
  zeros : ∀ i, headerSize + cs.flatten.length ≤ i → i < padEnd → bytes[i]? = some 0

theorem HeaderPad.exists_file {bytes : List Byte} {cs : List (List Byte)} {padEnd needed : Nat}
    (hpad : HeaderPad bytes cs padEnd) (hcs : Consistent bytes cs)
    (hroom : headerSize + cs.flatten.length + needed ≤ padEnd) :
    ∃ (f : HeaderFrame) (rest : List Byte), bytes = f.file cs (List.replicate needed 0 ++ rest) := by
  obtain ⟨f, rest, rfl⟩ := hcs.exists_file
  have hin := hpad.inside
  rw [f.file_length] at hin
  have hzeros : rest.take needed = List.replicate needed 0 := by
    rw [List.eq_replicate_iff]
    refine ⟨by rw [List.length_take]; omega, fun b hb => ?_⟩
    obtain ⟨i, hi⟩ := List.mem_iff_getElem?.mp hb
    have hlt := (List.getElem?_eq_some_iff.mp hi).1
    rw [List.length_take] at hlt
    have hbyte := hpad.zeros (headerSize + cs.flatten.length + i) (by omega) (by omega)
    have hfront : (f.header cs.length cs.flatten.length ++ cs.flatten).length =
        headerSize + cs.flatten.length := by
      rw [List.length_append, f.header_length]
    rw [HeaderFrame.file, List.getElem?_append_right (by omega), hfront, Nat.add_sub_cancel_left]
      at hbyte
    rw [List.getElem?_take, if_pos (by omega), hbyte] at hi
    exact (Option.some.inj hi).symm
  exact ⟨f, rest.drop needed, by rw [← hzeros, List.take_append_drop]⟩

/-- What stands right behind the commands. -/
theorem HeaderFrame.slice_behind (f : HeaderFrame) (cs : List (List Byte)) (part rest : List Byte) :
    slice (f.file cs (part ++ rest)) (headerSize + cs.flatten.length) part.length = part := by
  have h := slice_between (f.header cs.length cs.flatten.length ++ cs.flatten) part rest
  have hlen : (f.header cs.length cs.flatten.length ++ cs.flatten).length =
      headerSize + cs.flatten.length := by
    rw [List.length_append, f.header_length]
  rwa [hlen, List.append_assoc] at h

/-- Files of one frame with as many bytes before the rest. -/
theorem HeaderFrame.file_intact (f : HeaderFrame) {cs cs' : List (List Byte)} {pad pad' : Nat}
    {padEnd : Nat} (rest : List Byte) (hsized : ∀ c ∈ cs', WellSized c)
    (hfits : cs'.flatten.length < 2 ^ 32)
    (hsame : cs'.flatten.length + pad' = cs.flatten.length + pad)
    (hend : headerSize + cs.flatten.length + pad ≤ padEnd) :
    Intact padEnd (f.file cs (List.replicate pad 0 ++ rest))
      (f.file cs' (List.replicate pad' 0 ++ rest)) where
  counts := ⟨cs', f.file_consistent _ hsized hfits⟩
  beyond := by
    have hdrop : ∀ (ds : List (List Byte)) (n : Nat),
        headerSize + ds.flatten.length + n ≤ padEnd →
        (f.file ds (List.replicate n 0 ++ rest)).drop padEnd =
          rest.drop (padEnd - (headerSize + ds.flatten.length + n)) := by
      intro ds n hle
      have hfront : (f.header ds.length ds.flatten.length ++ ds.flatten ++
          List.replicate n (0 : Byte)).length = headerSize + ds.flatten.length + n := by
        rw [List.length_append, List.length_append, f.header_length, List.length_replicate]
      unfold HeaderFrame.file
      rw [← List.append_assoc, List.drop_append, hfront, List.drop_eq_nil_of_le (by omega),
        List.nil_append]
    rw [hdrop cs' pad' (by omega), hdrop cs pad hend]
    congr 1
    omega
  length := by
    rw [f.file_length, f.file_length, List.length_append, List.length_append, List.length_replicate,
      List.length_replicate]
    omega

/-- `RemovesFirst` holds of every consistent file. -/
theorem removesFirst {bytes : List Byte} {cs : List (List Byte)} (h : Consistent bytes cs) (cmd : Nat) :
    RemovesFirst bytes cs cmd := by
  have hfits := readLe_lt h.sizeofcmds
  have hsized := h.sized
  obtain ⟨f, rest, rfl⟩ := h.exists_file
  constructor
  · intro hmissed
    exact stripLoadCommand_absent f hsized (by omega) hmissed rest
  · rintro before c after rfl hc hmissed
    have hsize : (before ++ c :: after).flatten.length =
        (before ++ after).flatten.length + c.length := by
      simp only [List.flatten_append, List.flatten_cons, List.length_append]
      omega
    have hsized' : ∀ d ∈ before ++ after, WellSized d := fun d hd => hsized d (by
      simp only [List.mem_append, List.mem_cons] at hd ⊢
      tauto)
    have hstart : ∀ n s, (f.header n s).take 16 = f.magic ∧ slice (f.header n s) 24 8 = f.flags := by
      intro n s
      have hflags := slice_between (f.magic ++ leBytes 4 n ++ leBytes 4 s) f.flags []
      simp only [List.length_append, f.magic_length, f.flags_length, leBytes_length,
        List.append_nil] at hflags
      refine ⟨?_, hflags⟩
      unfold HeaderFrame.header
      rw [List.append_assoc, List.append_assoc, List.take_left' f.magic_length]
    have hhead : ∀ ds tail, (f.file ds tail).take 16 = f.magic ∧ slice (f.file ds tail) 24 8 = f.flags := by
      intro ds tail
      have hlen := f.header_length ds.length ds.flatten.length
      unfold headerSize at hlen
      obtain ⟨hmagic, hflags⟩ := hstart ds.length ds.flatten.length
      unfold HeaderFrame.file slice at *
      rw [List.append_assoc, List.take_append_of_le_length (by omega),
        List.drop_append_of_le_length (by omega),
        List.take_append_of_le_length (by rw [List.length_drop]; omega)]
      exact ⟨hmagic, hflags⟩
    refine ⟨_, stripLoadCommand_file f hsized (by omega) hmissed hc rest,
      f.file_consistent _ hsized' (by omega), ?_, ?_, ?_, ?_⟩
    · rw [(hhead _ _).1, (hhead _ _).1]
    · rw [(hhead _ _).2, (hhead _ _).2]
    · have hzeros := f.slice_behind (before ++ after) (List.replicate c.length 0) rest
      rwa [List.length_replicate] at hzeros
    · have hintact : Intact (headerSize + (before ++ c :: after).flatten.length + 0)
          (f.file (before ++ c :: after) (List.replicate 0 0 ++ rest))
          (f.file (before ++ after) (List.replicate c.length 0 ++ rest)) :=
        f.file_intact rest hsized' (by omega) (by omega) (Nat.le_refl _)
      exact hintact.beyond

/-- Every list of commands is cut in front of its first signature command. -/
theorem exists_insertion (cs : List (List Byte)) :
    ∃ before after, cs = before ++ after ∧ (∀ c ∈ before, commandType c ≠ lcCodeSignature) ∧
      ∀ c ∈ after.head?, commandType c = lcCodeSignature := by
  refine ⟨cs.takeWhile fun c => commandType c ≠ lcCodeSignature,
    cs.dropWhile fun c => commandType c ≠ lcCodeSignature, List.takeWhile_append_dropWhile.symm,
    fun c hc => ?_, fun c hc => ?_⟩
  · have hkept := List.mem_takeWhile_imp hc
    exact of_decide_eq_true hkept
  · have hhead := List.head?_dropWhile_not (fun c => decide (commandType c ≠ lcCodeSignature)) cs
    rw [Option.mem_def.mp hc] at hhead
    simpa using hhead

theorem undone_iff {bytes : List Byte} {cs deps : List (List Byte)} {padEnd : Nat}
    (hcs : Consistent bytes cs) (hpad : HeaderPad bytes cs padEnd)
    (hroom : headerSize + cs.flatten.length + (deps.flatMap buildDylibCommand).length ≤ padEnd)
    (hnul : ∀ path ∈ deps, (0 : Byte) ∉ path)
    (hloaded : ∀ path ∈ deps, ∀ c ∈ cs, dylibPath c ≠ some path) :
    Undone bytes deps padEnd ↔
      cs.flatten.length + (deps.flatMap buildDylibCommand).length < 2 ^ 32 := by
  have hcount := readLe_lt hcs.sizeofcmds
  have hsized := hcs.sized
  obtain ⟨f, rest, rfl⟩ := hpad.exists_file hcs hroom
  obtain ⟨before, after, rfl, hbefore, hafter⟩ := exists_insertion cs
  have hinject := injectLcLoadDylibs_file f deps hsized (by omega) hbefore hafter rest
  have hfront : ∀ c ∈ before, WellSized c := fun c hc => hsized c (List.mem_append_left _ hc)
  have hback : ∀ c ∈ after, WellSized c := fun c hc => hsized c (List.mem_append_right _ hc)
  have hlength : ∀ left : List (List Byte),
      (before ++ left.map buildDylibCommand ++ after).flatten.length =
        (before ++ after).flatten.length + (left.flatMap buildDylibCommand).length := by
    intro left
    simp only [List.flatten_append, List.length_append, List.flatMap_def]
    omega
  constructor
  · rintro ⟨injected, hok, -, hrun⟩
    rw [hinject] at hok
    obtain rfl := Except.ok.inj hok
    by_contra hwraps
    exact not_restored f hback hnul (by omega) (by omega) rest (hrun deps (List.Perm.refl _)).1
  · intro hfits
    have hintact : ∀ left : List (List Byte),
        (left.flatMap buildDylibCommand).length ≤ (deps.flatMap buildDylibCommand).length →
        Intact padEnd (f.file (before ++ after)
            (List.replicate (deps.flatMap buildDylibCommand).length 0 ++ rest))
          (f.file (before ++ left.map buildDylibCommand ++ after)
            (List.replicate ((deps.flatMap buildDylibCommand).length -
              (left.flatMap buildDylibCommand).length) 0 ++ rest)) := by
      intro left hle
      have htotal := hlength left
      refine f.file_intact rest (fun c hc => ?_) (by omega) (by omega) hroom
      have hone := (List.sublist_flatten_of_mem hc).length_le
      rcases List.mem_append.mp hc with hc | hc
      · rcases List.mem_append.mp hc with hc | hc
        · exact hfront c hc
        · obtain ⟨path, -, rfl⟩ := List.mem_map.mp hc
          rw [buildDylibCommand_length] at hone
          exact buildDylibCommand_wellSized (by omega)
      · exact hback c hc
    have hmissed : ∀ path ∈ deps, ∀ c ∈ before, dylibPath c ≠ some path :=
      fun path hpath c hc => hloaded path hpath c (List.mem_append_left _ hc)
    have hall := hlength deps
    refine ⟨_, hinject, ?_, fun order horder => ⟨?_, fun first later hsplit => ?_⟩⟩
    · have h := hintact deps (Nat.le_refl _)
      rwa [Nat.sub_self] at h
    · have hperm : List.Perm (order ++ []) deps := by rwa [List.append_nil]
      obtain ⟨left, hleft, hrun, -⟩ :=
        stripEach_file f hfront hback hperm hnul hmissed (by omega) rest
      obtain rfl := List.perm_nil.mp hleft
      rw [hrun]
      simp
    · obtain ⟨left, -, hrun, hle⟩ := stripEach_file f hfront hback (by rwa [hsplit]) hnul hmissed
        (by omega) rest
      exact ⟨_, hrun, hintact left hle⟩

/-- Adding dylib commands is undone by removing them, in any order, and the
first command of any type is removed alone, exactly when the grown commands
still fit `sizeofcmds`. -/
theorem dylibCommands_iff {bytes : List Byte} {cs deps : List (List Byte)} {padEnd : Nat}
    (hcs : Consistent bytes cs) (hpad : HeaderPad bytes cs padEnd)
    (hroom : headerSize + cs.flatten.length + (deps.flatMap buildDylibCommand).length ≤ padEnd)
    (hnul : ∀ path ∈ deps, (0 : Byte) ∉ path)
    (hloaded : ∀ path ∈ deps, ∀ c ∈ cs, dylibPath c ≠ some path) :
    (Undone bytes deps padEnd ∧ ∀ cmd, RemovesFirst bytes cs cmd) ↔
      cs.flatten.length + (deps.flatMap buildDylibCommand).length < 2 ^ 32 := by
  rw [undone_iff hcs hpad hroom hnul hloaded]
  exact and_iff_left fun cmd => removesFirst hcs cmd

/-- A header without commands: magic, then zeros. -/
def plainHeader : HeaderFrame where
  magic := [0xcf, 0xfa, 0xed, 0xfe] ++ List.replicate 12 0
  flags := List.replicate 8 0
  magic_length := by decide
  flags_length := by decide

/-- The command of a code signature. -/
def signatureCommand : List Byte := leBytes 4 lcCodeSignature ++ leBytes 4 16 ++ List.replicate 8 0

theorem signatureCommand_sized : ∀ c ∈ [signatureCommand], WellSized c := by
  intro c hc
  obtain rfl := List.mem_singleton.mp hc
  exact ⟨by decide, by decide⟩

theorem HeaderFrame.file_headerPad (f : HeaderFrame) (cs : List (List Byte)) (n : Nat) :
    HeaderPad (f.file cs (List.replicate n 0)) cs (headerSize + cs.flatten.length + n) where
  inside := by rw [f.file_length, List.length_replicate]
  zeros := by
    intro i hge hlt
    have hfront : (f.header cs.length cs.flatten.length ++ cs.flatten).length =
        headerSize + cs.flatten.length := by
      rw [List.length_append, f.header_length]
    rw [HeaderFrame.file, List.getElem?_append_right (by omega), List.getElem?_replicate,
      if_pos (by omega)]

/-- A dependency `"a"` in front of a signature. -/
theorem signed_undone :
    Undone (plainHeader.file [signatureCommand] (List.replicate 32 0)) [[0x61]]
        (headerSize + [signatureCommand].flatten.length + 32) ∧
      ∀ cmd, RemovesFirst (plainHeader.file [signatureCommand] (List.replicate 32 0))
        [signatureCommand] cmd :=
  (dylibCommands_iff (plainHeader.file_consistent _ signatureCommand_sized (by decide))
    (plainHeader.file_headerPad _ _) (by decide) (by decide) (by decide)).mpr (by decide)

/-- A path whose command takes 4 GiB. -/
def hugePath (n : Nat) : List Byte := List.replicate n 0x61

theorem hugePath_needed {n : Nat} (h : n + 25 = 2 ^ 32) :
    ([hugePath n].flatMap buildDylibCommand).length = 2 ^ 32 := by
  simp only [List.flatMap_cons, List.flatMap_nil, List.append_nil, buildDylibCommand_length,
    dylibCommandSize, hugePath, List.length_replicate]
  omega

theorem huge_notUndone {n : Nat} (h : n + 25 = 2 ^ 32) :
    Consistent (plainHeader.file [] (List.replicate (2 ^ 32) 0)) [] ∧
      HeaderPad (plainHeader.file [] (List.replicate (2 ^ 32) 0)) [] (headerSize + 2 ^ 32) ∧
      (0 : Byte) ∉ hugePath n ∧ ([hugePath n].flatMap buildDylibCommand).length = 2 ^ 32 ∧
      ¬ Undone (plainHeader.file [] (List.replicate (2 ^ 32) 0)) [hugePath n]
        (headerSize + 2 ^ 32) := by
  have hcs : Consistent (plainHeader.file [] (List.replicate (2 ^ 32) 0)) [] :=
    plainHeader.file_consistent _ (by simp) (by simp)
  have hpad := plainHeader.file_headerPad [] (2 ^ 32)
  have hneeded := hugePath_needed h
  have hnul : (0 : Byte) ∉ hugePath n := by
    intro hmem
    exact absurd (List.eq_of_mem_replicate hmem) (by decide)
  simp only [List.flatten_nil, List.length_nil, Nat.add_zero] at hpad
  refine ⟨hcs, hpad, hnul, hneeded, fun hundone => ?_⟩
  have hfits := (undone_iff hcs hpad (by rw [hneeded]; rfl) (fun path hpath => by
    obtain rfl := List.mem_singleton.mp hpath
    exact hnul) (fun _ _ c hc => absurd hc List.not_mem_nil)).mp hundone
  rw [hneeded] at hfits
  omega

/-- One path of nearly 4 GiB, with as much headerpad. -/
theorem huge_counterexample :
    ∃ path : List Byte, path = hugePath (2 ^ 32 - 25) ∧
      Consistent (plainHeader.file [] (List.replicate (2 ^ 32) 0)) [] ∧
      HeaderPad (plainHeader.file [] (List.replicate (2 ^ 32) 0)) [] (headerSize + 2 ^ 32) ∧
      (0 : Byte) ∉ path ∧ ([path].flatMap buildDylibCommand).length = 2 ^ 32 ∧
      ¬ Undone (plainHeader.file [] (List.replicate (2 ^ 32) 0)) [path] (headerSize + 2 ^ 32) :=
  ⟨_, rfl, huge_notUndone (by decide)⟩

end Armv8Encode.MachO
