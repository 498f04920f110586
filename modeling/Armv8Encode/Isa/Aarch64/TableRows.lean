/-
  Armv8Encode.Isa.Aarch64.TableRows — the imported A64 opcode table.

  One row describes one encoding form: its name, the fixed bits (`opcode`
  under `mask`), the instruction class and the operand kinds in assembly
  order.  Of a row's flags the matcher reads only `F_ALIAS` and `F_CONV`, so
  only those two are kept.  The rows stand in the order of the source table,
  which the matcher depends on, cut into runs to keep each list short.
-/
import Armv8Encode.Lib.Words

namespace Armv8Encode

/-! ## §1. Mnemonics. -/

/-- Instruction mnemonics; the ones no analysis singles out are `other`. -/
inductive Aarch64Mnemonic where
  | adc | add | adds | and | adr | adrp | b | beq | bne | bcs | bcc | bmi | bpl | bvs | bvc
  | bhi | bls | bge | blt | bgt | ble | bl | blr | br | brk | bfxil | cbnz | cbz | dcps1 | dcps2
  | dcps3 | drps | eret | hlt | hvc | ret | smc | svc | ccmp | cinc | cmn | cmp | csel | ldp
  | ldr | ldur | ldxr | lsl | lsr | madd | mov | movk | msub | eor | nop | stp | str | stur
  | stxr | sub | subs | tbnz | tbz | ubfx
  | other (name : String)
  deriving Repr, DecidableEq

namespace Aarch64Mnemonic

/-- The names that stand for a mnemonic of their own, several for some. -/
def names : List (String × Aarch64Mnemonic) := [
  ("adc", .adc), ("add", .add), ("adds", .adds), ("and", .and), ("adr", .adr), ("adrp", .adrp),
  ("b", .b), ("b.eq", .beq), ("beq", .beq), ("b.ne", .bne), ("bne", .bne), ("b.cs", .bcs),
  ("b.hs", .bcs), ("bcs", .bcs), ("b.cc", .bcc), ("b.lo", .bcc), ("bcc", .bcc), ("b.mi", .bmi),
  ("bmi", .bmi), ("b.pl", .bpl), ("bpl", .bpl), ("b.vs", .bvs), ("bvs", .bvs), ("b.vc", .bvc),
  ("bvc", .bvc), ("b.hi", .bhi), ("bhi", .bhi), ("b.ls", .bls), ("bls", .bls), ("b.ge", .bge),
  ("bge", .bge), ("b.lt", .blt), ("blt", .blt), ("b.gt", .bgt), ("bgt", .bgt), ("b.le", .ble),
  ("ble", .ble), ("bl", .bl), ("blr", .blr), ("br", .br), ("brk", .brk), ("bfxil", .bfxil),
  ("cbnz", .cbnz), ("cbz", .cbz), ("dcps1", .dcps1), ("dcps2", .dcps2), ("dcps3", .dcps3),
  ("drps", .drps), ("eret", .eret), ("hlt", .hlt), ("hvc", .hvc), ("ret", .ret), ("smc", .smc),
  ("svc", .svc), ("ccmp", .ccmp), ("cinc", .cinc), ("cmn", .cmn), ("cmp", .cmp), ("csel", .csel),
  ("ldp", .ldp), ("ldr", .ldr), ("ldur", .ldur), ("ldxr", .ldxr), ("lsl", .lsl), ("lsr", .lsr),
  ("madd", .madd), ("mov", .mov), ("movk", .movk), ("msub", .msub), ("eor", .eor), ("nop", .nop),
  ("stp", .stp), ("str", .str), ("stur", .stur), ("stxr", .stxr), ("sub", .sub), ("subs", .subs),
  ("tbnz", .tbnz), ("tbz", .tbz), ("ubfx", .ubfx)]

/-- The mnemonic a table or assembly name stands for. -/
def parse (name : String) : Aarch64Mnemonic := (names.lookup name).getD (.other name)

/-- The name of a mnemonic in the opcode table. -/
def tableName : Aarch64Mnemonic → String
  | adc => "adc"
  | add => "add"
  | adds => "adds"
  | and => "and"
  | adr => "adr"
  | adrp => "adrp"
  | b => "b"
  | beq => "beq"
  | bne => "bne"
  | bcs => "bcs"
  | bcc => "bcc"
  | bmi => "bmi"
  | bpl => "bpl"
  | bvs => "bvs"
  | bvc => "bvc"
  | bhi => "bhi"
  | bls => "bls"
  | bge => "bge"
  | blt => "blt"
  | bgt => "bgt"
  | ble => "ble"
  | bl => "bl"
  | blr => "blr"
  | br => "br"
  | brk => "brk"
  | bfxil => "bfxil"
  | cbnz => "cbnz"
  | cbz => "cbz"
  | dcps1 => "dcps1"
  | dcps2 => "dcps2"
  | dcps3 => "dcps3"
  | drps => "drps"
  | eret => "eret"
  | hlt => "hlt"
  | hvc => "hvc"
  | ret => "ret"
  | smc => "smc"
  | svc => "svc"
  | ccmp => "ccmp"
  | cinc => "cinc"
  | cmn => "cmn"
  | cmp => "cmp"
  | csel => "csel"
  | ldp => "ldp"
  | ldr => "ldr"
  | ldur => "ldur"
  | ldxr => "ldxr"
  | lsl => "lsl"
  | lsr => "lsr"
  | madd => "madd"
  | mov => "mov"
  | movk => "movk"
  | msub => "msub"
  | eor => "eor"
  | nop => "nop"
  | stp => "stp"
  | str => "str"
  | stur => "stur"
  | stxr => "stxr"
  | sub => "sub"
  | subs => "subs"
  | tbnz => "tbnz"
  | tbz => "tbz"
  | ubfx => "ubfx"
  | other name => name

end Aarch64Mnemonic

/-! ## §2. Operand kinds and instruction classes. -/

/-- What an operand slot of a row holds and where its bits are. -/
inductive Aarch64Opnd where
  | nil | rd | rn | rm | rmLow | rt | rt2 | rs | ra | rtSys | rdSp | rnSp | pairreg | rmExt
  | rmSft | fd | fn | fm | fa | ft | ft2 | sd | sn | sm | vd | vn | vm | vdD1 | vnD1 | ed | en
  | em | lvn | lvt | lvtAl | let | cn | cm | idx | immVlsl | immVlsr | simdImm | simdImmSft
  | simdFpimm | shllImm | imm0 | fpimm0 | fpimm | immr | imms | width | imm | uimm3Op1
  | uimm3Op2 | uimm4 | uimm7 | bitNum | exc | ccmpImm | nzcv | limm | aimm | half | fbits
  | immMov | cond | cond1 | addrAdrp | addrPcrel14 | addrPcrel19 | addrPcrel21 | addrPcrel26
  | addrSimple | addrRegoff | addrSimm7 | addrSimm9 | addrSimm92 | addrUimm12 | simdAddrSimple
  | simdAddrPost | sysreg | pstatefield | sysregAt | sysregDc | sysregIc | sysregTlbi | barrier
  | barrierIsb | prfop | barrierPsb
  deriving Repr, DecidableEq

/-- The encoding group a row belongs to. -/
inductive Aarch64InsnClass where
  | addsubCarry | addsubExt | addsubImm | addsubShift | asimdall | asimddiff | asimdelem
  | asimdext | asimdimm | asimdins | asimdmisc | asimdperm | asimdsame | asimdshf | asimdtbl
  | asisddiff | asisdelem | asisdlse | asisdlsep | asisdlso | asisdlsop | asisdmisc | asisdone
  | asisdpair | asisdsame | asisdshf | bitfield | branchImm | branchReg | compbranch
  | condbranch | condcmpImm | condcmpReg | condsel | cryptoaes | cryptosha2 | cryptosha3
  | dp1src | dp2src | dp3src | exception | extract | float2fix | float2int | floatccmp
  | floatcmp | floatdp1 | floatdp2 | floatdp3 | floatimm | floatsel | ldstImmpost | ldstImmpre
  | ldstImm9 | ldstPos | ldstRegoff | ldstUnpriv | ldstUnscaled | ldstexcl | ldstnapairOffs
  | ldstpairOff | ldstpairIndexed | loadlit | logImm | logShift | lseAtomic | movewide
  | pcreladdr | icSystem | testbranch
  deriving Repr, DecidableEq

/-! ## §3. Rows. -/

/-- One row of the opcode table. -/
structure Aarch64Opcode where
  name : String
  /-- The fixed bits; bits that operands fill in are zero. -/
  opcode : Word
  /-- Ones at the bits a matching word must share with `opcode`. -/
  mask : Word
  iclass : Aarch64InsnClass
  operands : List Aarch64Opnd
  flags : Word
  deriving Repr, DecidableEq

def fAlias : Word := 1#32

def fConv : Word := 0x100000#32

namespace Aarch64Opcode

def mnemonicId (row : Aarch64Opcode) : Aarch64Mnemonic := .parse row.name

def isAlias (row : Aarch64Opcode) : Bool := row.flags &&& fAlias != 0

def isConversionAlias (row : Aarch64Opcode) : Bool := row.flags &&& fConv != 0

end Aarch64Opcode

set_option maxRecDepth 4000

/-- Rows from class `addsubCarry` to `asimddiff`. -/
def opcodeRows1 : List Aarch64Opcode := [
  ⟨"adc", 0x1a000000#32, 0x7fe0fc00#32, .addsubCarry, [.rd, .rn, .rm], 0⟩,
  ⟨"adcs", 0x3a000000#32, 0x7fe0fc00#32, .addsubCarry, [.rd, .rn, .rm], 0⟩,
  ⟨"sbc", 0x5a000000#32, 0x7fe0fc00#32, .addsubCarry, [.rd, .rn, .rm], 0⟩,
  ⟨"ngc", 0x5a0003e0#32, 0x7fe0ffe0#32, .addsubCarry, [.rd, .rm], fAlias⟩,
  ⟨"sbcs", 0x7a000000#32, 0x7fe0fc00#32, .addsubCarry, [.rd, .rn, .rm], 0⟩,
  ⟨"ngcs", 0x7a0003e0#32, 0x7fe0ffe0#32, .addsubCarry, [.rd, .rm], fAlias⟩,
  ⟨"add", 0x0b200000#32, 0x7fe00000#32, .addsubExt, [.rdSp, .rnSp, .rmExt], 0⟩,
  ⟨"adds", 0x2b200000#32, 0x7fe00000#32, .addsubExt, [.rd, .rnSp, .rmExt], 0⟩,
  ⟨"cmn", 0x2b20001f#32, 0x7fe0001f#32, .addsubExt, [.rnSp, .rmExt], fAlias⟩,
  ⟨"sub", 0x4b200000#32, 0x7fe00000#32, .addsubExt, [.rdSp, .rnSp, .rmExt], 0⟩,
  ⟨"subs", 0x6b200000#32, 0x7fe00000#32, .addsubExt, [.rd, .rnSp, .rmExt], 0⟩,
  ⟨"cmp", 0x6b20001f#32, 0x7fe0001f#32, .addsubExt, [.rnSp, .rmExt], fAlias⟩,
  ⟨"add", 0x11000000#32, 0x7f000000#32, .addsubImm, [.rdSp, .rnSp, .aimm], 0⟩,
  ⟨"mov", 0x11000000#32, 0x7ffffc00#32, .addsubImm, [.rdSp, .rnSp], fAlias⟩,
  ⟨"adds", 0x31000000#32, 0x7f000000#32, .addsubImm, [.rd, .rnSp, .aimm], 0⟩,
  ⟨"cmn", 0x3100001f#32, 0x7f00001f#32, .addsubImm, [.rnSp, .aimm], fAlias⟩,
  ⟨"sub", 0x51000000#32, 0x7f000000#32, .addsubImm, [.rdSp, .rnSp, .aimm], 0⟩,
  ⟨"subs", 0x71000000#32, 0x7f000000#32, .addsubImm, [.rd, .rnSp, .aimm], 0⟩,
  ⟨"cmp", 0x7100001f#32, 0x7f00001f#32, .addsubImm, [.rnSp, .aimm], fAlias⟩,
  ⟨"add", 0xb000000#32, 0x7f200000#32, .addsubShift, [.rd, .rn, .rmSft], 0⟩,
  ⟨"adds", 0x2b000000#32, 0x7f200000#32, .addsubShift, [.rd, .rn, .rmSft], 0⟩,
  ⟨"cmn", 0x2b00001f#32, 0x7f20001f#32, .addsubShift, [.rn, .rmSft], fAlias⟩,
  ⟨"sub", 0x4b000000#32, 0x7f200000#32, .addsubShift, [.rd, .rn, .rmSft], 0⟩,
  ⟨"neg", 0x4b0003e0#32, 0x7f2003e0#32, .addsubShift, [.rd, .rmSft], fAlias⟩,
  ⟨"subs", 0x6b000000#32, 0x7f200000#32, .addsubShift, [.rd, .rn, .rmSft], 0⟩,
  ⟨"cmp", 0x6b00001f#32, 0x7f20001f#32, .addsubShift, [.rn, .rmSft], fAlias⟩,
  ⟨"negs", 0x6b0003e0#32, 0x7f2003e0#32, .addsubShift, [.rd, .rmSft], fAlias⟩,
  ⟨"saddlv", 0xe303800#32, 0xbf3ffc00#32, .asimdall, [.fd, .vn], 0⟩,
  ⟨"smaxv", 0xe30a800#32, 0xbf3ffc00#32, .asimdall, [.fd, .vn], 0⟩,
  ⟨"sminv", 0xe31a800#32, 0xbf3ffc00#32, .asimdall, [.fd, .vn], 0⟩,
  ⟨"addv", 0xe31b800#32, 0xbf3ffc00#32, .asimdall, [.fd, .vn], 0⟩,
  ⟨"uaddlv", 0x2e303800#32, 0xbf3ffc00#32, .asimdall, [.fd, .vn], 0⟩,
  ⟨"umaxv", 0x2e30a800#32, 0xbf3ffc00#32, .asimdall, [.fd, .vn], 0⟩,
  ⟨"uminv", 0x2e31a800#32, 0xbf3ffc00#32, .asimdall, [.fd, .vn], 0⟩,
  ⟨"fmaxnmv", 0x2e30c800#32, 0xbfbffc00#32, .asimdall, [.fd, .vn], 0⟩,
  ⟨"fmaxnmv", 0xe30c800#32, 0xbffffc00#32, .asimdall, [.fd, .vn], 0⟩,
  ⟨"fmaxv", 0x2e30f800#32, 0xbfbffc00#32, .asimdall, [.fd, .vn], 0⟩,
  ⟨"fmaxv", 0xe30f800#32, 0xbffffc00#32, .asimdall, [.fd, .vn], 0⟩,
  ⟨"fminnmv", 0x2eb0c800#32, 0xbfbffc00#32, .asimdall, [.fd, .vn], 0⟩,
  ⟨"fminnmv", 0xeb0c800#32, 0xbffffc00#32, .asimdall, [.fd, .vn], 0⟩,
  ⟨"fminv", 0x2eb0f800#32, 0xbfbffc00#32, .asimdall, [.fd, .vn], 0⟩,
  ⟨"fminv", 0xeb0f800#32, 0xbffffc00#32, .asimdall, [.fd, .vn], 0⟩,
  ⟨"saddl", 0x0e200000#32, 0xff20fc00#32, .asimddiff, [.vd, .vn, .vm], 0⟩,
  ⟨"saddl2", 0x4e200000#32, 0xff20fc00#32, .asimddiff, [.vd, .vn, .vm], 0⟩,
  ⟨"saddw", 0x0e201000#32, 0xff20fc00#32, .asimddiff, [.vd, .vn, .vm], 0⟩,
  ⟨"saddw2", 0x4e201000#32, 0xff20fc00#32, .asimddiff, [.vd, .vn, .vm], 0⟩,
  ⟨"ssubl", 0x0e202000#32, 0xff20fc00#32, .asimddiff, [.vd, .vn, .vm], 0⟩,
  ⟨"ssubl2", 0x4e202000#32, 0xff20fc00#32, .asimddiff, [.vd, .vn, .vm], 0⟩,
  ⟨"ssubw", 0x0e203000#32, 0xff20fc00#32, .asimddiff, [.vd, .vn, .vm], 0⟩,
  ⟨"ssubw2", 0x4e203000#32, 0xff20fc00#32, .asimddiff, [.vd, .vn, .vm], 0⟩,
  ⟨"addhn", 0x0e204000#32, 0xff20fc00#32, .asimddiff, [.vd, .vn, .vm], 0⟩,
  ⟨"addhn2", 0x4e204000#32, 0xff20fc00#32, .asimddiff, [.vd, .vn, .vm], 0⟩,
  ⟨"sabal", 0x0e205000#32, 0xff20fc00#32, .asimddiff, [.vd, .vn, .vm], 0⟩,
  ⟨"sabal2", 0x4e205000#32, 0xff20fc00#32, .asimddiff, [.vd, .vn, .vm], 0⟩,
  ⟨"subhn", 0x0e206000#32, 0xff20fc00#32, .asimddiff, [.vd, .vn, .vm], 0⟩,
  ⟨"subhn2", 0x4e206000#32, 0xff20fc00#32, .asimddiff, [.vd, .vn, .vm], 0⟩,
  ⟨"sabdl", 0x0e207000#32, 0xff20fc00#32, .asimddiff, [.vd, .vn, .vm], 0⟩,
  ⟨"sabdl2", 0x4e207000#32, 0xff20fc00#32, .asimddiff, [.vd, .vn, .vm], 0⟩,
  ⟨"smlal", 0x0e208000#32, 0xff20fc00#32, .asimddiff, [.vd, .vn, .vm], 0⟩,
  ⟨"smlal2", 0x4e208000#32, 0xff20fc00#32, .asimddiff, [.vd, .vn, .vm], 0⟩,
  ⟨"sqdmlal", 0x0e209000#32, 0xff20fc00#32, .asimddiff, [.vd, .vn, .vm], 0⟩,
  ⟨"sqdmlal2", 0x4e209000#32, 0xff20fc00#32, .asimddiff, [.vd, .vn, .vm], 0⟩,
  ⟨"smlsl", 0x0e20a000#32, 0xff20fc00#32, .asimddiff, [.vd, .vn, .vm], 0⟩,
  ⟨"smlsl2", 0x4e20a000#32, 0xff20fc00#32, .asimddiff, [.vd, .vn, .vm], 0⟩,
  ⟨"sqdmlsl", 0x0e20b000#32, 0xff20fc00#32, .asimddiff, [.vd, .vn, .vm], 0⟩,
  ⟨"sqdmlsl2", 0x4e20b000#32, 0xff20fc00#32, .asimddiff, [.vd, .vn, .vm], 0⟩,
  ⟨"smull", 0x0e20c000#32, 0xff20fc00#32, .asimddiff, [.vd, .vn, .vm], 0⟩,
  ⟨"smull2", 0x4e20c000#32, 0xff20fc00#32, .asimddiff, [.vd, .vn, .vm], 0⟩,
  ⟨"sqdmull", 0x0e20d000#32, 0xff20fc00#32, .asimddiff, [.vd, .vn, .vm], 0⟩,
  ⟨"sqdmull2", 0x4e20d000#32, 0xff20fc00#32, .asimddiff, [.vd, .vn, .vm], 0⟩,
  ⟨"pmull", 0x0e20e000#32, 0xffe0fc00#32, .asimddiff, [.vd, .vn, .vm], 0⟩,
  ⟨"pmull", 0x0ee0e000#32, 0xffe0fc00#32, .asimddiff, [.vd, .vn, .vm], 0⟩,
  ⟨"pmull2", 0x4e20e000#32, 0xffe0fc00#32, .asimddiff, [.vd, .vn, .vm], 0⟩,
  ⟨"pmull2", 0x4ee0e000#32, 0xffe0fc00#32, .asimddiff, [.vd, .vn, .vm], 0⟩,
  ⟨"uaddl", 0x2e200000#32, 0xff20fc00#32, .asimddiff, [.vd, .vn, .vm], 0⟩,
  ⟨"uaddl2", 0x6e200000#32, 0xff20fc00#32, .asimddiff, [.vd, .vn, .vm], 0⟩,
  ⟨"uaddw", 0x2e201000#32, 0xff20fc00#32, .asimddiff, [.vd, .vn, .vm], 0⟩,
  ⟨"uaddw2", 0x6e201000#32, 0xff20fc00#32, .asimddiff, [.vd, .vn, .vm], 0⟩,
  ⟨"usubl", 0x2e202000#32, 0xff20fc00#32, .asimddiff, [.vd, .vn, .vm], 0⟩,
  ⟨"usubl2", 0x6e202000#32, 0xff20fc00#32, .asimddiff, [.vd, .vn, .vm], 0⟩,
  ⟨"usubw", 0x2e203000#32, 0xff20fc00#32, .asimddiff, [.vd, .vn, .vm], 0⟩,
  ⟨"usubw2", 0x6e203000#32, 0xff20fc00#32, .asimddiff, [.vd, .vn, .vm], 0⟩,
  ⟨"raddhn", 0x2e204000#32, 0xff20fc00#32, .asimddiff, [.vd, .vn, .vm], 0⟩,
  ⟨"raddhn2", 0x6e204000#32, 0xff20fc00#32, .asimddiff, [.vd, .vn, .vm], 0⟩,
  ⟨"uabal", 0x2e205000#32, 0xff20fc00#32, .asimddiff, [.vd, .vn, .vm], 0⟩,
  ⟨"uabal2", 0x6e205000#32, 0xff20fc00#32, .asimddiff, [.vd, .vn, .vm], 0⟩,
  ⟨"rsubhn", 0x2e206000#32, 0xff20fc00#32, .asimddiff, [.vd, .vn, .vm], 0⟩,
  ⟨"rsubhn2", 0x6e206000#32, 0xff20fc00#32, .asimddiff, [.vd, .vn, .vm], 0⟩,
  ⟨"uabdl", 0x2e207000#32, 0xff20fc00#32, .asimddiff, [.vd, .vn, .vm], 0⟩,
  ⟨"uabdl2", 0x6e207000#32, 0xff20fc00#32, .asimddiff, [.vd, .vn, .vm], 0⟩,
  ⟨"umlal", 0x2e208000#32, 0xff20fc00#32, .asimddiff, [.vd, .vn, .vm], 0⟩,
  ⟨"umlal2", 0x6e208000#32, 0xff20fc00#32, .asimddiff, [.vd, .vn, .vm], 0⟩,
  ⟨"umlsl", 0x2e20a000#32, 0xff20fc00#32, .asimddiff, [.vd, .vn, .vm], 0⟩,
  ⟨"umlsl2", 0x6e20a000#32, 0xff20fc00#32, .asimddiff, [.vd, .vn, .vm], 0⟩,
  ⟨"umull", 0x2e20c000#32, 0xff20fc00#32, .asimddiff, [.vd, .vn, .vm], 0⟩,
  ⟨"umull2", 0x6e20c000#32, 0xff20fc00#32, .asimddiff, [.vd, .vn, .vm], 0⟩]

/-- Rows from class `asimdelem` to `asimdins`. -/
def opcodeRows2 : List Aarch64Opcode := [
  ⟨"smlal", 0x0f002000#32, 0xff00f400#32, .asimdelem, [.vd, .vn, .em], 0⟩,
  ⟨"smlal2", 0x4f002000#32, 0xff00f400#32, .asimdelem, [.vd, .vn, .em], 0⟩,
  ⟨"sqdmlal", 0x0f003000#32, 0xff00f400#32, .asimdelem, [.vd, .vn, .em], 0⟩,
  ⟨"sqdmlal2", 0x4f003000#32, 0xff00f400#32, .asimdelem, [.vd, .vn, .em], 0⟩,
  ⟨"smlsl", 0x0f006000#32, 0xff00f400#32, .asimdelem, [.vd, .vn, .em], 0⟩,
  ⟨"smlsl2", 0x4f006000#32, 0xff00f400#32, .asimdelem, [.vd, .vn, .em], 0⟩,
  ⟨"sqdmlsl", 0x0f007000#32, 0xff00f400#32, .asimdelem, [.vd, .vn, .em], 0⟩,
  ⟨"sqdmlsl2", 0x4f007000#32, 0xff00f400#32, .asimdelem, [.vd, .vn, .em], 0⟩,
  ⟨"mul", 0xf008000#32, 0xbf00f400#32, .asimdelem, [.vd, .vn, .em], 0⟩,
  ⟨"smull", 0x0f00a000#32, 0xff00f400#32, .asimdelem, [.vd, .vn, .em], 0⟩,
  ⟨"smull2", 0x4f00a000#32, 0xff00f400#32, .asimdelem, [.vd, .vn, .em], 0⟩,
  ⟨"sqdmull", 0x0f00b000#32, 0xff00f400#32, .asimdelem, [.vd, .vn, .em], 0⟩,
  ⟨"sqdmull2", 0x4f00b000#32, 0xff00f400#32, .asimdelem, [.vd, .vn, .em], 0⟩,
  ⟨"sqdmulh", 0xf00c000#32, 0xbf00f400#32, .asimdelem, [.vd, .vn, .em], 0⟩,
  ⟨"sqrdmulh", 0xf00d000#32, 0xbf00f400#32, .asimdelem, [.vd, .vn, .em], 0⟩,
  ⟨"fmla", 0xf801000#32, 0xbf80f400#32, .asimdelem, [.vd, .vn, .em], 0⟩,
  ⟨"fmla", 0xf001000#32, 0xbfe0fc00#32, .asimdelem, [.vd, .vn, .em], 0⟩,
  ⟨"fmls", 0xf805000#32, 0xbf80f400#32, .asimdelem, [.vd, .vn, .em], 0⟩,
  ⟨"fmls", 0xf005000#32, 0xbfe0fc00#32, .asimdelem, [.vd, .vn, .em], 0⟩,
  ⟨"fmul", 0xf809000#32, 0xbf80f400#32, .asimdelem, [.vd, .vn, .em], 0⟩,
  ⟨"fmul", 0xf009000#32, 0xbfe0fc00#32, .asimdelem, [.vd, .vn, .em], 0⟩,
  ⟨"mla", 0x2f000000#32, 0xbf00f400#32, .asimdelem, [.vd, .vn, .em], 0⟩,
  ⟨"umlal", 0x2f002000#32, 0xff00f400#32, .asimdelem, [.vd, .vn, .em], 0⟩,
  ⟨"umlal2", 0x6f002000#32, 0xff00f400#32, .asimdelem, [.vd, .vn, .em], 0⟩,
  ⟨"mls", 0x2f004000#32, 0xbf00f400#32, .asimdelem, [.vd, .vn, .em], 0⟩,
  ⟨"umlsl", 0x2f006000#32, 0xff00f400#32, .asimdelem, [.vd, .vn, .em], 0⟩,
  ⟨"umlsl2", 0x6f006000#32, 0xff00f400#32, .asimdelem, [.vd, .vn, .em], 0⟩,
  ⟨"umull", 0x2f00a000#32, 0xff00f400#32, .asimdelem, [.vd, .vn, .em], 0⟩,
  ⟨"umull2", 0x6f00a000#32, 0xff00f400#32, .asimdelem, [.vd, .vn, .em], 0⟩,
  ⟨"fmulx", 0x2f809000#32, 0xbf80f400#32, .asimdelem, [.vd, .vn, .em], 0⟩,
  ⟨"fmulx", 0x2f009000#32, 0xbfe0fc00#32, .asimdelem, [.vd, .vn, .em], 0⟩,
  ⟨"sqrdmlah", 0x2f00d000#32, 0xbf00f400#32, .asimdelem, [.vd, .vn, .em], 0⟩,
  ⟨"sqrdmlsh", 0x2f00f000#32, 0xbf00f400#32, .asimdelem, [.vd, .vn, .em], 0⟩,
  ⟨"ext", 0x2e000000#32, 0xbfe08400#32, .asimdext, [.vd, .vn, .vm, .idx], 0⟩,
  ⟨"movi", 0xf000400#32, 0xbff89c00#32, .asimdimm, [.vd, .simdImmSft], 0⟩,
  ⟨"orr", 0xf001400#32, 0xbff89c00#32, .asimdimm, [.vd, .simdImmSft], 0⟩,
  ⟨"movi", 0xf008400#32, 0xbff8dc00#32, .asimdimm, [.vd, .simdImmSft], 0⟩,
  ⟨"orr", 0xf009400#32, 0xbff8dc00#32, .asimdimm, [.vd, .simdImmSft], 0⟩,
  ⟨"movi", 0xf00c400#32, 0xbff8ec00#32, .asimdimm, [.vd, .simdImmSft], 0⟩,
  ⟨"movi", 0xf00e400#32, 0xbff8fc00#32, .asimdimm, [.vd, .simdImmSft], 0⟩,
  ⟨"fmov", 0xf00f400#32, 0xbff8fc00#32, .asimdimm, [.vd, .simdFpimm], 0⟩,
  ⟨"fmov", 0xf00fc00#32, 0xbff8fc00#32, .asimdimm, [.vd, .simdFpimm], 0⟩,
  ⟨"mvni", 0x2f000400#32, 0xbff89c00#32, .asimdimm, [.vd, .simdImmSft], 0⟩,
  ⟨"bic", 0x2f001400#32, 0xbff89c00#32, .asimdimm, [.vd, .simdImmSft], 0⟩,
  ⟨"mvni", 0x2f008400#32, 0xbff8dc00#32, .asimdimm, [.vd, .simdImmSft], 0⟩,
  ⟨"bic", 0x2f009400#32, 0xbff8dc00#32, .asimdimm, [.vd, .simdImmSft], 0⟩,
  ⟨"mvni", 0x2f00c400#32, 0xbff8ec00#32, .asimdimm, [.vd, .simdImmSft], 0⟩,
  ⟨"movi", 0x2f00e400#32, 0xfff8fc00#32, .asimdimm, [.sd, .simdImm], 0⟩,
  ⟨"movi", 0x6f00e400#32, 0xfff8fc00#32, .asimdimm, [.vd, .simdImm], 0⟩,
  ⟨"fmov", 0x6f00f400#32, 0xfff8fc00#32, .asimdimm, [.vd, .simdFpimm], 0⟩,
  ⟨"dup", 0xe000400#32, 0xbfe0fc00#32, .asimdins, [.vd, .en], 0⟩,
  ⟨"dup", 0xe000c00#32, 0xbfe0fc00#32, .asimdins, [.vd, .rn], 0⟩,
  ⟨"smov", 0xe002c00#32, 0xbfe0fc00#32, .asimdins, [.rd, .en], 0⟩,
  ⟨"umov", 0xe003c00#32, 0xbfe0fc00#32, .asimdins, [.rd, .en], 0⟩,
  ⟨"mov", 0xe003c00#32, 0xbfe0fc00#32, .asimdins, [.rd, .en], fAlias⟩,
  ⟨"ins", 0x4e001c00#32, 0xffe0fc00#32, .asimdins, [.ed, .rn], 0⟩,
  ⟨"mov", 0x4e001c00#32, 0xffe0fc00#32, .asimdins, [.ed, .rn], fAlias⟩,
  ⟨"ins", 0x6e000400#32, 0xffe08400#32, .asimdins, [.ed, .en], 0⟩,
  ⟨"mov", 0x6e000400#32, 0xffe08400#32, .asimdins, [.ed, .en], fAlias⟩]

/-- Rows from class `asimdmisc` to `asimdperm`. -/
def opcodeRows3 : List Aarch64Opcode := [
  ⟨"rev64", 0xe200800#32, 0xbf3ffc00#32, .asimdmisc, [.vd, .vn], 0⟩,
  ⟨"rev16", 0xe201800#32, 0xbf3ffc00#32, .asimdmisc, [.vd, .vn], 0⟩,
  ⟨"saddlp", 0xe202800#32, 0xbf3ffc00#32, .asimdmisc, [.vd, .vn], 0⟩,
  ⟨"suqadd", 0xe203800#32, 0xbf3ffc00#32, .asimdmisc, [.vd, .vn], 0⟩,
  ⟨"cls", 0xe204800#32, 0xbf3ffc00#32, .asimdmisc, [.vd, .vn], 0⟩,
  ⟨"cnt", 0xe205800#32, 0xbf3ffc00#32, .asimdmisc, [.vd, .vn], 0⟩,
  ⟨"sadalp", 0xe206800#32, 0xbf3ffc00#32, .asimdmisc, [.vd, .vn], 0⟩,
  ⟨"sqabs", 0xe207800#32, 0xbf3ffc00#32, .asimdmisc, [.vd, .vn], 0⟩,
  ⟨"cmgt", 0xe208800#32, 0xbf3ffc00#32, .asimdmisc, [.vd, .vn, .imm0], 0⟩,
  ⟨"cmeq", 0xe209800#32, 0xbf3ffc00#32, .asimdmisc, [.vd, .vn, .imm0], 0⟩,
  ⟨"cmlt", 0xe20a800#32, 0xbf3ffc00#32, .asimdmisc, [.vd, .vn, .imm0], 0⟩,
  ⟨"abs", 0xe20b800#32, 0xbf3ffc00#32, .asimdmisc, [.vd, .vn], 0⟩,
  ⟨"xtn", 0xe212800#32, 0xff3ffc00#32, .asimdmisc, [.vd, .vn], 0⟩,
  ⟨"xtn2", 0x4e212800#32, 0xff3ffc00#32, .asimdmisc, [.vd, .vn], 0⟩,
  ⟨"sqxtn", 0xe214800#32, 0xff3ffc00#32, .asimdmisc, [.vd, .vn], 0⟩,
  ⟨"sqxtn2", 0x4e214800#32, 0xff3ffc00#32, .asimdmisc, [.vd, .vn], 0⟩,
  ⟨"fcvtn", 0xe216800#32, 0xffbffc00#32, .asimdmisc, [.vd, .vn], 0⟩,
  ⟨"fcvtn2", 0x4e216800#32, 0xffbffc00#32, .asimdmisc, [.vd, .vn], 0⟩,
  ⟨"fcvtl", 0xe217800#32, 0xffbffc00#32, .asimdmisc, [.vd, .vn], 0⟩,
  ⟨"fcvtl2", 0x4e217800#32, 0xffbffc00#32, .asimdmisc, [.vd, .vn], 0⟩,
  ⟨"frintn", 0xe218800#32, 0xbfbffc00#32, .asimdmisc, [.vd, .vn], 0⟩,
  ⟨"frintn", 0xe798800#32, 0xbffffc00#32, .asimdmisc, [.vd, .vn], 0⟩,
  ⟨"frintm", 0xe219800#32, 0xbfbffc00#32, .asimdmisc, [.vd, .vn], 0⟩,
  ⟨"frintm", 0xe799800#32, 0xbffffc00#32, .asimdmisc, [.vd, .vn], 0⟩,
  ⟨"fcvtns", 0xe21a800#32, 0xbfbffc00#32, .asimdmisc, [.vd, .vn], 0⟩,
  ⟨"fcvtns", 0xe79a800#32, 0xbffffc00#32, .asimdmisc, [.vd, .vn], 0⟩,
  ⟨"fcvtms", 0xe21b800#32, 0xbfbffc00#32, .asimdmisc, [.vd, .vn], 0⟩,
  ⟨"fcvtms", 0xe79b800#32, 0xbffffc00#32, .asimdmisc, [.vd, .vn], 0⟩,
  ⟨"fcvtas", 0xe21c800#32, 0xbfbffc00#32, .asimdmisc, [.vd, .vn], 0⟩,
  ⟨"fcvtas", 0xe79c800#32, 0xbffffc00#32, .asimdmisc, [.vd, .vn], 0⟩,
  ⟨"scvtf", 0xe21d800#32, 0xbfbffc00#32, .asimdmisc, [.vd, .vn], 0⟩,
  ⟨"scvtf", 0xe79d800#32, 0xbfbffc00#32, .asimdmisc, [.vd, .vn], 0⟩,
  ⟨"fcmgt", 0xea0c800#32, 0xbfbffc00#32, .asimdmisc, [.vd, .vn, .fpimm0], 0⟩,
  ⟨"fcmgt", 0xef8c800#32, 0xbffffc00#32, .asimdmisc, [.vd, .vn, .fpimm0], 0⟩,
  ⟨"fcmeq", 0xea0d800#32, 0xbfbffc00#32, .asimdmisc, [.vd, .vn, .fpimm0], 0⟩,
  ⟨"fcmeq", 0xef8d800#32, 0xbffffc00#32, .asimdmisc, [.vd, .vn, .fpimm0], 0⟩,
  ⟨"fcmlt", 0xea0e800#32, 0xbfbffc00#32, .asimdmisc, [.vd, .vn, .fpimm0], 0⟩,
  ⟨"fcmlt", 0xef8e800#32, 0xbffffc00#32, .asimdmisc, [.vd, .vn, .fpimm0], 0⟩,
  ⟨"fabs", 0xea0f800#32, 0xbfbffc00#32, .asimdmisc, [.vd, .vn], 0⟩,
  ⟨"fabs", 0xef8f800#32, 0xbffffc00#32, .asimdmisc, [.vd, .vn], 0⟩,
  ⟨"frintp", 0xea18800#32, 0xbfbffc00#32, .asimdmisc, [.vd, .vn], 0⟩,
  ⟨"frintp", 0xef98800#32, 0xbffffc00#32, .asimdmisc, [.vd, .vn], 0⟩,
  ⟨"frintz", 0xea19800#32, 0xbfbffc00#32, .asimdmisc, [.vd, .vn], 0⟩,
  ⟨"frintz", 0xef99800#32, 0xbffffc00#32, .asimdmisc, [.vd, .vn], 0⟩,
  ⟨"fcvtps", 0xea1a800#32, 0xbfbffc00#32, .asimdmisc, [.vd, .vn], 0⟩,
  ⟨"fcvtps", 0xef9a800#32, 0xbffffc00#32, .asimdmisc, [.vd, .vn], 0⟩,
  ⟨"fcvtzs", 0xea1b800#32, 0xbfbffc00#32, .asimdmisc, [.vd, .vn], 0⟩,
  ⟨"fcvtzs", 0xef9b800#32, 0xbffffc00#32, .asimdmisc, [.vd, .vn], 0⟩,
  ⟨"urecpe", 0xea1c800#32, 0xbfbffc00#32, .asimdmisc, [.vd, .vn], 0⟩,
  ⟨"frecpe", 0xea1d800#32, 0xbfbffc00#32, .asimdmisc, [.vd, .vn], 0⟩,
  ⟨"frecpe", 0xef9d800#32, 0xbfbffc00#32, .asimdmisc, [.vd, .vn], 0⟩,
  ⟨"rev32", 0x2e200800#32, 0xbf3ffc00#32, .asimdmisc, [.vd, .vn], 0⟩,
  ⟨"uaddlp", 0x2e202800#32, 0xbf3ffc00#32, .asimdmisc, [.vd, .vn], 0⟩,
  ⟨"usqadd", 0x2e203800#32, 0xbf3ffc00#32, .asimdmisc, [.vd, .vn], 0⟩,
  ⟨"clz", 0x2e204800#32, 0xbf3ffc00#32, .asimdmisc, [.vd, .vn], 0⟩,
  ⟨"uadalp", 0x2e206800#32, 0xbf3ffc00#32, .asimdmisc, [.vd, .vn], 0⟩,
  ⟨"sqneg", 0x2e207800#32, 0xbf3ffc00#32, .asimdmisc, [.vd, .vn], 0⟩,
  ⟨"cmge", 0x2e208800#32, 0xbf3ffc00#32, .asimdmisc, [.vd, .vn, .imm0], 0⟩,
  ⟨"cmle", 0x2e209800#32, 0xbf3ffc00#32, .asimdmisc, [.vd, .vn, .imm0], 0⟩,
  ⟨"neg", 0x2e20b800#32, 0xbf3ffc00#32, .asimdmisc, [.vd, .vn], 0⟩,
  ⟨"sqxtun", 0x2e212800#32, 0xff3ffc00#32, .asimdmisc, [.vd, .vn], 0⟩,
  ⟨"sqxtun2", 0x6e212800#32, 0xff3ffc00#32, .asimdmisc, [.vd, .vn], 0⟩,
  ⟨"shll", 0x2e213800#32, 0xff3ffc00#32, .asimdmisc, [.vd, .vn, .shllImm], 0⟩,
  ⟨"shll2", 0x6e213800#32, 0xff3ffc00#32, .asimdmisc, [.vd, .vn, .shllImm], 0⟩,
  ⟨"uqxtn", 0x2e214800#32, 0xff3ffc00#32, .asimdmisc, [.vd, .vn], 0⟩,
  ⟨"uqxtn2", 0x6e214800#32, 0xff3ffc00#32, .asimdmisc, [.vd, .vn], 0⟩,
  ⟨"fcvtxn", 0x2e616800#32, 0xfffffc00#32, .asimdmisc, [.vd, .vn], 0⟩,
  ⟨"fcvtxn2", 0x6e616800#32, 0xfffffc00#32, .asimdmisc, [.vd, .vn], 0⟩,
  ⟨"frinta", 0x2e218800#32, 0xbfbffc00#32, .asimdmisc, [.vd, .vn], 0⟩,
  ⟨"frinta", 0x2e798800#32, 0xbffffc00#32, .asimdmisc, [.vd, .vn], 0⟩,
  ⟨"frintx", 0x2e219800#32, 0xbfbffc00#32, .asimdmisc, [.vd, .vn], 0⟩,
  ⟨"frintx", 0x2e799800#32, 0xbffffc00#32, .asimdmisc, [.vd, .vn], 0⟩,
  ⟨"fcvtnu", 0x2e21a800#32, 0xbfbffc00#32, .asimdmisc, [.vd, .vn], 0⟩,
  ⟨"fcvtnu", 0x2e79a800#32, 0xbffffc00#32, .asimdmisc, [.vd, .vn], 0⟩,
  ⟨"fcvtmu", 0x2e21b800#32, 0xbfbffc00#32, .asimdmisc, [.vd, .vn], 0⟩,
  ⟨"fcvtmu", 0x2e79b800#32, 0xbffffc00#32, .asimdmisc, [.vd, .vn], 0⟩,
  ⟨"fcvtau", 0x2e21c800#32, 0xbfbffc00#32, .asimdmisc, [.vd, .vn], 0⟩,
  ⟨"fcvtau", 0x2e79c800#32, 0xbffffc00#32, .asimdmisc, [.vd, .vn], 0⟩,
  ⟨"ucvtf", 0x2e21d800#32, 0xbfbffc00#32, .asimdmisc, [.vd, .vn], 0⟩,
  ⟨"ucvtf", 0x2e79d800#32, 0xbfbffc00#32, .asimdmisc, [.vd, .vn], 0⟩,
  ⟨"not", 0x2e205800#32, 0xbffffc00#32, .asimdmisc, [.vd, .vn], 0⟩,
  ⟨"mvn", 0x2e205800#32, 0xbffffc00#32, .asimdmisc, [.vd, .vn], fAlias⟩,
  ⟨"rbit", 0x2e605800#32, 0xbffffc00#32, .asimdmisc, [.vd, .vn], 0⟩,
  ⟨"fcmge", 0x2ea0c800#32, 0xbfbffc00#32, .asimdmisc, [.vd, .vn, .fpimm0], 0⟩,
  ⟨"fcmge", 0x2ef8c800#32, 0xbffffc00#32, .asimdmisc, [.vd, .vn, .fpimm0], 0⟩,
  ⟨"fcmle", 0x2ea0d800#32, 0xbfbffc00#32, .asimdmisc, [.vd, .vn, .fpimm0], 0⟩,
  ⟨"fcmle", 0x2ef8d800#32, 0xbffffc00#32, .asimdmisc, [.vd, .vn, .fpimm0], 0⟩,
  ⟨"fneg", 0x2ea0f800#32, 0xbfbffc00#32, .asimdmisc, [.vd, .vn], 0⟩,
  ⟨"fneg", 0x2ef8f800#32, 0xbffffc00#32, .asimdmisc, [.vd, .vn], 0⟩,
  ⟨"frinti", 0x2ea19800#32, 0xbfbffc00#32, .asimdmisc, [.vd, .vn], 0⟩,
  ⟨"frinti", 0x2ef99800#32, 0xbffffc00#32, .asimdmisc, [.vd, .vn], 0⟩,
  ⟨"fcvtpu", 0x2ea1a800#32, 0xbfbffc00#32, .asimdmisc, [.vd, .vn], 0⟩,
  ⟨"fcvtpu", 0x2ef9a800#32, 0xbffffc00#32, .asimdmisc, [.vd, .vn], 0⟩,
  ⟨"fcvtzu", 0x2ea1b800#32, 0xbfbffc00#32, .asimdmisc, [.vd, .vn], 0⟩,
  ⟨"fcvtzu", 0x2ef9b800#32, 0xbffffc00#32, .asimdmisc, [.vd, .vn], 0⟩,
  ⟨"ursqrte", 0x2ea1c800#32, 0xbfbffc00#32, .asimdmisc, [.vd, .vn], 0⟩,
  ⟨"frsqrte", 0x2ea1d800#32, 0xbfbffc00#32, .asimdmisc, [.vd, .vn], 0⟩,
  ⟨"frsqrte", 0x2ef9d800#32, 0xbfbffc00#32, .asimdmisc, [.vd, .vn], 0⟩,
  ⟨"fsqrt", 0x2ea1f800#32, 0xbfbffc00#32, .asimdmisc, [.vd, .vn], 0⟩,
  ⟨"fsqrt", 0x2ef9f800#32, 0xbfbffc00#32, .asimdmisc, [.vd, .vn], 0⟩,
  ⟨"uzp1", 0xe001800#32, 0xbf20fc00#32, .asimdperm, [.vd, .vn, .vm], 0⟩,
  ⟨"trn1", 0xe002800#32, 0xbf20fc00#32, .asimdperm, [.vd, .vn, .vm], 0⟩,
  ⟨"zip1", 0xe003800#32, 0xbf20fc00#32, .asimdperm, [.vd, .vn, .vm], 0⟩,
  ⟨"uzp2", 0xe005800#32, 0xbf20fc00#32, .asimdperm, [.vd, .vn, .vm], 0⟩,
  ⟨"trn2", 0xe006800#32, 0xbf20fc00#32, .asimdperm, [.vd, .vn, .vm], 0⟩,
  ⟨"zip2", 0xe007800#32, 0xbf20fc00#32, .asimdperm, [.vd, .vn, .vm], 0⟩]

/-- Rows of class `asimdsame`. -/
def opcodeRows4 : List Aarch64Opcode := [
  ⟨"shadd", 0xe200400#32, 0xbf20fc00#32, .asimdsame, [.vd, .vn, .vm], 0⟩,
  ⟨"sqadd", 0xe200c00#32, 0xbf20fc00#32, .asimdsame, [.vd, .vn, .vm], 0⟩,
  ⟨"srhadd", 0xe201400#32, 0xbf20fc00#32, .asimdsame, [.vd, .vn, .vm], 0⟩,
  ⟨"shsub", 0xe202400#32, 0xbf20fc00#32, .asimdsame, [.vd, .vn, .vm], 0⟩,
  ⟨"sqsub", 0xe202c00#32, 0xbf20fc00#32, .asimdsame, [.vd, .vn, .vm], 0⟩,
  ⟨"cmgt", 0xe203400#32, 0xbf20fc00#32, .asimdsame, [.vd, .vn, .vm], 0⟩,
  ⟨"cmge", 0xe203c00#32, 0xbf20fc00#32, .asimdsame, [.vd, .vn, .vm], 0⟩,
  ⟨"sshl", 0xe204400#32, 0xbf20fc00#32, .asimdsame, [.vd, .vn, .vm], 0⟩,
  ⟨"sqshl", 0xe204c00#32, 0xbf20fc00#32, .asimdsame, [.vd, .vn, .vm], 0⟩,
  ⟨"srshl", 0xe205400#32, 0xbf20fc00#32, .asimdsame, [.vd, .vn, .vm], 0⟩,
  ⟨"sqrshl", 0xe205c00#32, 0xbf20fc00#32, .asimdsame, [.vd, .vn, .vm], 0⟩,
  ⟨"smax", 0xe206400#32, 0xbf20fc00#32, .asimdsame, [.vd, .vn, .vm], 0⟩,
  ⟨"smin", 0xe206c00#32, 0xbf20fc00#32, .asimdsame, [.vd, .vn, .vm], 0⟩,
  ⟨"sabd", 0xe207400#32, 0xbf20fc00#32, .asimdsame, [.vd, .vn, .vm], 0⟩,
  ⟨"saba", 0xe207c00#32, 0xbf20fc00#32, .asimdsame, [.vd, .vn, .vm], 0⟩,
  ⟨"add", 0xe208400#32, 0xbf20fc00#32, .asimdsame, [.vd, .vn, .vm], 0⟩,
  ⟨"cmtst", 0xe208c00#32, 0xbf20fc00#32, .asimdsame, [.vd, .vn, .vm], 0⟩,
  ⟨"mla", 0xe209400#32, 0xbf20fc00#32, .asimdsame, [.vd, .vn, .vm], 0⟩,
  ⟨"mul", 0xe209c00#32, 0xbf20fc00#32, .asimdsame, [.vd, .vn, .vm], 0⟩,
  ⟨"smaxp", 0xe20a400#32, 0xbf20fc00#32, .asimdsame, [.vd, .vn, .vm], 0⟩,
  ⟨"sminp", 0xe20ac00#32, 0xbf20fc00#32, .asimdsame, [.vd, .vn, .vm], 0⟩,
  ⟨"sqdmulh", 0xe20b400#32, 0xbf20fc00#32, .asimdsame, [.vd, .vn, .vm], 0⟩,
  ⟨"addp", 0xe20bc00#32, 0xbf20fc00#32, .asimdsame, [.vd, .vn, .vm], 0⟩,
  ⟨"fmaxnm", 0xe20c400#32, 0xbfa0fc00#32, .asimdsame, [.vd, .vn, .vm], 0⟩,
  ⟨"fmaxnm", 0xe400400#32, 0xbfe0fc00#32, .asimdsame, [.vd, .vn, .vm], 0⟩,
  ⟨"fmla", 0xe20cc00#32, 0xbfa0fc00#32, .asimdsame, [.vd, .vn, .vm], 0⟩,
  ⟨"fmla", 0xe400c00#32, 0xbfe0fc00#32, .asimdsame, [.vd, .vn, .vm], 0⟩,
  ⟨"fadd", 0xe20d400#32, 0xbfa0fc00#32, .asimdsame, [.vd, .vn, .vm], 0⟩,
  ⟨"fadd", 0xe401400#32, 0xbfe0fc00#32, .asimdsame, [.vd, .vn, .vm], 0⟩,
  ⟨"fmulx", 0xe20dc00#32, 0xbfa0fc00#32, .asimdsame, [.vd, .vn, .vm], 0⟩,
  ⟨"fmulx", 0xe401c00#32, 0xbfe0fc00#32, .asimdsame, [.vd, .vn, .vm], 0⟩,
  ⟨"fcmeq", 0xe20e400#32, 0xbfa0fc00#32, .asimdsame, [.vd, .vn, .vm], 0⟩,
  ⟨"fcmeq", 0xe402400#32, 0xbfe0fc00#32, .asimdsame, [.vd, .vn, .vm], 0⟩,
  ⟨"fmax", 0xe20f400#32, 0xbfa0fc00#32, .asimdsame, [.vd, .vn, .vm], 0⟩,
  ⟨"fmax", 0xe403400#32, 0xbfe0fc00#32, .asimdsame, [.vd, .vn, .vm], 0⟩,
  ⟨"frecps", 0xe20fc00#32, 0xbfa0fc00#32, .asimdsame, [.vd, .vn, .vm], 0⟩,
  ⟨"frecps", 0xe403c00#32, 0xbfe0fc00#32, .asimdsame, [.vd, .vn, .vm], 0⟩,
  ⟨"and", 0xe201c00#32, 0xbfe0fc00#32, .asimdsame, [.vd, .vn, .vm], 0⟩,
  ⟨"bic", 0xe601c00#32, 0xbfe0fc00#32, .asimdsame, [.vd, .vn, .vm], 0⟩,
  ⟨"fminnm", 0xea0c400#32, 0xbfa0fc00#32, .asimdsame, [.vd, .vn, .vm], 0⟩,
  ⟨"fminnm", 0xec00400#32, 0xbfe0fc00#32, .asimdsame, [.vd, .vn, .vm], 0⟩,
  ⟨"fmls", 0xea0cc00#32, 0xbfa0fc00#32, .asimdsame, [.vd, .vn, .vm], 0⟩,
  ⟨"fmls", 0xec00c00#32, 0xbfe0fc00#32, .asimdsame, [.vd, .vn, .vm], 0⟩,
  ⟨"fsub", 0xea0d400#32, 0xbfa0fc00#32, .asimdsame, [.vd, .vn, .vm], 0⟩,
  ⟨"fsub", 0xec01400#32, 0xbfe0fc00#32, .asimdsame, [.vd, .vn, .vm], 0⟩,
  ⟨"fmin", 0xea0f400#32, 0xbfa0fc00#32, .asimdsame, [.vd, .vn, .vm], 0⟩,
  ⟨"fmin", 0xec03400#32, 0xbfe0fc00#32, .asimdsame, [.vd, .vn, .vm], 0⟩,
  ⟨"frsqrts", 0xea0fc00#32, 0xbfa0fc00#32, .asimdsame, [.vd, .vn, .vm], 0⟩,
  ⟨"frsqrts", 0xec03c00#32, 0xbfe0fc00#32, .asimdsame, [.vd, .vn, .vm], 0⟩,
  ⟨"orr", 0xea01c00#32, 0xbfe0fc00#32, .asimdsame, [.vd, .vn, .vm], 0⟩,
  ⟨"mov", 0xea01c00#32, 0xbfe0fc00#32, .asimdsame, [.vd, .vn], fAlias ||| fConv⟩,
  ⟨"orn", 0xee01c00#32, 0xbfe0fc00#32, .asimdsame, [.vd, .vn, .vm], 0⟩,
  ⟨"uhadd", 0x2e200400#32, 0xbf20fc00#32, .asimdsame, [.vd, .vn, .vm], 0⟩,
  ⟨"uqadd", 0x2e200c00#32, 0xbf20fc00#32, .asimdsame, [.vd, .vn, .vm], 0⟩,
  ⟨"urhadd", 0x2e201400#32, 0xbf20fc00#32, .asimdsame, [.vd, .vn, .vm], 0⟩,
  ⟨"uhsub", 0x2e202400#32, 0xbf20fc00#32, .asimdsame, [.vd, .vn, .vm], 0⟩,
  ⟨"uqsub", 0x2e202c00#32, 0xbf20fc00#32, .asimdsame, [.vd, .vn, .vm], 0⟩,
  ⟨"cmhi", 0x2e203400#32, 0xbf20fc00#32, .asimdsame, [.vd, .vn, .vm], 0⟩,
  ⟨"cmhs", 0x2e203c00#32, 0xbf20fc00#32, .asimdsame, [.vd, .vn, .vm], 0⟩,
  ⟨"ushl", 0x2e204400#32, 0xbf20fc00#32, .asimdsame, [.vd, .vn, .vm], 0⟩,
  ⟨"uqshl", 0x2e204c00#32, 0xbf20fc00#32, .asimdsame, [.vd, .vn, .vm], 0⟩,
  ⟨"urshl", 0x2e205400#32, 0xbf20fc00#32, .asimdsame, [.vd, .vn, .vm], 0⟩,
  ⟨"uqrshl", 0x2e205c00#32, 0xbf20fc00#32, .asimdsame, [.vd, .vn, .vm], 0⟩,
  ⟨"umax", 0x2e206400#32, 0xbf20fc00#32, .asimdsame, [.vd, .vn, .vm], 0⟩,
  ⟨"umin", 0x2e206c00#32, 0xbf20fc00#32, .asimdsame, [.vd, .vn, .vm], 0⟩,
  ⟨"uabd", 0x2e207400#32, 0xbf20fc00#32, .asimdsame, [.vd, .vn, .vm], 0⟩,
  ⟨"uaba", 0x2e207c00#32, 0xbf20fc00#32, .asimdsame, [.vd, .vn, .vm], 0⟩,
  ⟨"sub", 0x2e208400#32, 0xbf20fc00#32, .asimdsame, [.vd, .vn, .vm], 0⟩,
  ⟨"cmeq", 0x2e208c00#32, 0xbf20fc00#32, .asimdsame, [.vd, .vn, .vm], 0⟩,
  ⟨"mls", 0x2e209400#32, 0xbf20fc00#32, .asimdsame, [.vd, .vn, .vm], 0⟩,
  ⟨"pmul", 0x2e209c00#32, 0xbf20fc00#32, .asimdsame, [.vd, .vn, .vm], 0⟩,
  ⟨"umaxp", 0x2e20a400#32, 0xbf20fc00#32, .asimdsame, [.vd, .vn, .vm], 0⟩,
  ⟨"uminp", 0x2e20ac00#32, 0xbf20fc00#32, .asimdsame, [.vd, .vn, .vm], 0⟩,
  ⟨"sqrdmulh", 0x2e20b400#32, 0xbf20fc00#32, .asimdsame, [.vd, .vn, .vm], 0⟩,
  ⟨"fmaxnmp", 0x2e20c400#32, 0xbfa0fc00#32, .asimdsame, [.vd, .vn, .vm], 0⟩,
  ⟨"fmaxnmp", 0x2e400400#32, 0xbfe0fc00#32, .asimdsame, [.vd, .vn, .vm], 0⟩,
  ⟨"faddp", 0x2e20d400#32, 0xbfa0fc00#32, .asimdsame, [.vd, .vn, .vm], 0⟩,
  ⟨"faddp", 0x2e401400#32, 0xbfe0fc00#32, .asimdsame, [.vd, .vn, .vm], 0⟩,
  ⟨"fmul", 0x2e20dc00#32, 0xbfa0fc00#32, .asimdsame, [.vd, .vn, .vm], 0⟩,
  ⟨"fmul", 0x2e401c00#32, 0xbfe0fc00#32, .asimdsame, [.vd, .vn, .vm], 0⟩,
  ⟨"fcmge", 0x2e20e400#32, 0xbfa0fc00#32, .asimdsame, [.vd, .vn, .vm], 0⟩,
  ⟨"fcmge", 0x2e402400#32, 0xbfe0fc00#32, .asimdsame, [.vd, .vn, .vm], 0⟩,
  ⟨"facge", 0x2e20ec00#32, 0xbfa0fc00#32, .asimdsame, [.vd, .vn, .vm], 0⟩,
  ⟨"facge", 0x2e402c00#32, 0xbfe0fc00#32, .asimdsame, [.vd, .vn, .vm], 0⟩,
  ⟨"fmaxp", 0x2e20f400#32, 0xbfa0fc00#32, .asimdsame, [.vd, .vn, .vm], 0⟩,
  ⟨"fmaxp", 0x2e403400#32, 0xbfe0fc00#32, .asimdsame, [.vd, .vn, .vm], 0⟩,
  ⟨"fdiv", 0x2e20fc00#32, 0xbfa0fc00#32, .asimdsame, [.vd, .vn, .vm], 0⟩,
  ⟨"fdiv", 0x2e403c00#32, 0xbfe0fc00#32, .asimdsame, [.vd, .vn, .vm], 0⟩,
  ⟨"eor", 0x2e201c00#32, 0xbfe0fc00#32, .asimdsame, [.vd, .vn, .vm], 0⟩,
  ⟨"bsl", 0x2e601c00#32, 0xbfe0fc00#32, .asimdsame, [.vd, .vn, .vm], 0⟩,
  ⟨"fminnmp", 0x2ea0c400#32, 0xbfa0fc00#32, .asimdsame, [.vd, .vn, .vm], 0⟩,
  ⟨"fminnmp", 0x2ec00400#32, 0xbfe0fc00#32, .asimdsame, [.vd, .vn, .vm], 0⟩,
  ⟨"fabd", 0x2ea0d400#32, 0xbfa0fc00#32, .asimdsame, [.vd, .vn, .vm], 0⟩,
  ⟨"fabd", 0x2ec01400#32, 0xbfe0fc00#32, .asimdsame, [.vd, .vn, .vm], 0⟩,
  ⟨"fcmgt", 0x2ea0e400#32, 0xbfa0fc00#32, .asimdsame, [.vd, .vn, .vm], 0⟩,
  ⟨"fcmgt", 0x2ec02400#32, 0xbfe0fc00#32, .asimdsame, [.vd, .vn, .vm], 0⟩,
  ⟨"facgt", 0x2ea0ec00#32, 0xbfa0fc00#32, .asimdsame, [.vd, .vn, .vm], 0⟩,
  ⟨"facgt", 0x2ec02c00#32, 0xbfe0fc00#32, .asimdsame, [.vd, .vn, .vm], 0⟩,
  ⟨"fminp", 0x2ea0f400#32, 0xbfa0fc00#32, .asimdsame, [.vd, .vn, .vm], 0⟩,
  ⟨"fminp", 0x2ec03400#32, 0xbfe0fc00#32, .asimdsame, [.vd, .vn, .vm], 0⟩,
  ⟨"bit", 0x2ea01c00#32, 0xbfe0fc00#32, .asimdsame, [.vd, .vn, .vm], 0⟩,
  ⟨"bif", 0x2ee01c00#32, 0xbfe0fc00#32, .asimdsame, [.vd, .vn, .vm], 0⟩,
  ⟨"sqrdmlah", 0x2e008400#32, 0xbf20fe00#32, .asimdsame, [.vd, .vn, .vm], 0⟩,
  ⟨"sqrdmlsh", 0x2e008c00#32, 0xbf20fe00#32, .asimdsame, [.vd, .vn, .vm], 0⟩]

/-- Rows from class `asimdshf` to `asisdlsop`. -/
def opcodeRows5 : List Aarch64Opcode := [
  ⟨"sshr", 0xf000400#32, 0xbf80fc00#32, .asimdshf, [.vd, .vn, .immVlsr], 0⟩,
  ⟨"ssra", 0xf001400#32, 0xbf80fc00#32, .asimdshf, [.vd, .vn, .immVlsr], 0⟩,
  ⟨"srshr", 0xf002400#32, 0xbf80fc00#32, .asimdshf, [.vd, .vn, .immVlsr], 0⟩,
  ⟨"srsra", 0xf003400#32, 0xbf80fc00#32, .asimdshf, [.vd, .vn, .immVlsr], 0⟩,
  ⟨"shl", 0xf005400#32, 0xbf80fc00#32, .asimdshf, [.vd, .vn, .immVlsl], 0⟩,
  ⟨"sqshl", 0xf007400#32, 0xbf80fc00#32, .asimdshf, [.vd, .vn, .immVlsl], 0⟩,
  ⟨"shrn", 0xf008400#32, 0xff80fc00#32, .asimdshf, [.vd, .vn, .immVlsr], 0⟩,
  ⟨"shrn2", 0x4f008400#32, 0xff80fc00#32, .asimdshf, [.vd, .vn, .immVlsr], 0⟩,
  ⟨"rshrn", 0xf008c00#32, 0xff80fc00#32, .asimdshf, [.vd, .vn, .immVlsr], 0⟩,
  ⟨"rshrn2", 0x4f008c00#32, 0xff80fc00#32, .asimdshf, [.vd, .vn, .immVlsr], 0⟩,
  ⟨"sqshrn", 0xf009400#32, 0xff80fc00#32, .asimdshf, [.vd, .vn, .immVlsr], 0⟩,
  ⟨"sqshrn2", 0x4f009400#32, 0xff80fc00#32, .asimdshf, [.vd, .vn, .immVlsr], 0⟩,
  ⟨"sqrshrn", 0xf009c00#32, 0xff80fc00#32, .asimdshf, [.vd, .vn, .immVlsr], 0⟩,
  ⟨"sqrshrn2", 0x4f009c00#32, 0xff80fc00#32, .asimdshf, [.vd, .vn, .immVlsr], 0⟩,
  ⟨"sshll", 0xf00a400#32, 0xff80fc00#32, .asimdshf, [.vd, .vn, .immVlsl], 0⟩,
  ⟨"sxtl", 0xf00a400#32, 0xff87fc00#32, .asimdshf, [.vd, .vn], fAlias ||| fConv⟩,
  ⟨"sshll2", 0x4f00a400#32, 0xff80fc00#32, .asimdshf, [.vd, .vn, .immVlsl], 0⟩,
  ⟨"sxtl2", 0x4f00a400#32, 0xff87fc00#32, .asimdshf, [.vd, .vn], fAlias ||| fConv⟩,
  ⟨"scvtf", 0xf00e400#32, 0xbf80fc00#32, .asimdshf, [.vd, .vn, .immVlsr], 0⟩,
  ⟨"scvtf", 0xf10e400#32, 0xbf80fc00#32, .asimdshf, [.vd, .vn, .immVlsr], 0⟩,
  ⟨"fcvtzs", 0xf00fc00#32, 0xbf80fc00#32, .asimdshf, [.vd, .vn, .immVlsr], 0⟩,
  ⟨"fcvtzs", 0xf10fc00#32, 0xbf80fc00#32, .asimdshf, [.vd, .vn, .immVlsr], 0⟩,
  ⟨"ushr", 0x2f000400#32, 0xbf80fc00#32, .asimdshf, [.vd, .vn, .immVlsr], 0⟩,
  ⟨"usra", 0x2f001400#32, 0xbf80fc00#32, .asimdshf, [.vd, .vn, .immVlsr], 0⟩,
  ⟨"urshr", 0x2f002400#32, 0xbf80fc00#32, .asimdshf, [.vd, .vn, .immVlsr], 0⟩,
  ⟨"ursra", 0x2f003400#32, 0xbf80fc00#32, .asimdshf, [.vd, .vn, .immVlsr], 0⟩,
  ⟨"sri", 0x2f004400#32, 0xbf80fc00#32, .asimdshf, [.vd, .vn, .immVlsr], 0⟩,
  ⟨"sli", 0x2f005400#32, 0xbf80fc00#32, .asimdshf, [.vd, .vn, .immVlsl], 0⟩,
  ⟨"sqshlu", 0x2f006400#32, 0xbf80fc00#32, .asimdshf, [.vd, .vn, .immVlsl], 0⟩,
  ⟨"uqshl", 0x2f007400#32, 0xbf80fc00#32, .asimdshf, [.vd, .vn, .immVlsl], 0⟩,
  ⟨"sqshrun", 0x2f008400#32, 0xff80fc00#32, .asimdshf, [.vd, .vn, .immVlsr], 0⟩,
  ⟨"sqshrun2", 0x6f008400#32, 0xff80fc00#32, .asimdshf, [.vd, .vn, .immVlsr], 0⟩,
  ⟨"sqrshrun", 0x2f008c00#32, 0xff80fc00#32, .asimdshf, [.vd, .vn, .immVlsr], 0⟩,
  ⟨"sqrshrun2", 0x6f008c00#32, 0xff80fc00#32, .asimdshf, [.vd, .vn, .immVlsr], 0⟩,
  ⟨"uqshrn", 0x2f009400#32, 0xff80fc00#32, .asimdshf, [.vd, .vn, .immVlsr], 0⟩,
  ⟨"uqshrn2", 0x6f009400#32, 0xff80fc00#32, .asimdshf, [.vd, .vn, .immVlsr], 0⟩,
  ⟨"uqrshrn", 0x2f009c00#32, 0xff80fc00#32, .asimdshf, [.vd, .vn, .immVlsr], 0⟩,
  ⟨"uqrshrn2", 0x6f009c00#32, 0xff80fc00#32, .asimdshf, [.vd, .vn, .immVlsr], 0⟩,
  ⟨"ushll", 0x2f00a400#32, 0xff80fc00#32, .asimdshf, [.vd, .vn, .immVlsl], 0⟩,
  ⟨"uxtl", 0x2f00a400#32, 0xff87fc00#32, .asimdshf, [.vd, .vn], fAlias ||| fConv⟩,
  ⟨"ushll2", 0x6f00a400#32, 0xff80fc00#32, .asimdshf, [.vd, .vn, .immVlsl], 0⟩,
  ⟨"uxtl2", 0x6f00a400#32, 0xff87fc00#32, .asimdshf, [.vd, .vn], fAlias ||| fConv⟩,
  ⟨"ucvtf", 0x2f00e400#32, 0xbf80fc00#32, .asimdshf, [.vd, .vn, .immVlsr], 0⟩,
  ⟨"ucvtf", 0x2f10e400#32, 0xbf80fc00#32, .asimdshf, [.vd, .vn, .immVlsr], 0⟩,
  ⟨"fcvtzu", 0x2f00fc00#32, 0xbf80fc00#32, .asimdshf, [.vd, .vn, .immVlsr], 0⟩,
  ⟨"fcvtzu", 0x2f10fc00#32, 0xbf80fc00#32, .asimdshf, [.vd, .vn, .immVlsr], 0⟩,
  ⟨"tbl", 0xe000000#32, 0xbfe09c00#32, .asimdtbl, [.vd, .lvn, .vm], 0⟩,
  ⟨"tbx", 0xe001000#32, 0xbfe09c00#32, .asimdtbl, [.vd, .lvn, .vm], 0⟩,
  ⟨"sqdmlal", 0x5e209000#32, 0xff20fc00#32, .asisddiff, [.sd, .sn, .sm], 0⟩,
  ⟨"sqdmlsl", 0x5e20b000#32, 0xff20fc00#32, .asisddiff, [.sd, .sn, .sm], 0⟩,
  ⟨"sqdmull", 0x5e20d000#32, 0xff20fc00#32, .asisddiff, [.sd, .sn, .sm], 0⟩,
  ⟨"sqdmlal", 0x5f003000#32, 0xff00f400#32, .asisdelem, [.sd, .sn, .em], 0⟩,
  ⟨"sqdmlsl", 0x5f007000#32, 0xff00f400#32, .asisdelem, [.sd, .sn, .em], 0⟩,
  ⟨"sqdmull", 0x5f00b000#32, 0xff00f400#32, .asisdelem, [.sd, .sn, .em], 0⟩,
  ⟨"sqdmulh", 0x5f00c000#32, 0xff00f400#32, .asisdelem, [.sd, .sn, .em], 0⟩,
  ⟨"sqrdmulh", 0x5f00d000#32, 0xff00f400#32, .asisdelem, [.sd, .sn, .em], 0⟩,
  ⟨"fmla", 0x5f801000#32, 0xff80f400#32, .asisdelem, [.sd, .sn, .em], 0⟩,
  ⟨"fmla", 0x5f001000#32, 0xffc0f400#32, .asisdelem, [.sd, .sn, .em], 0⟩,
  ⟨"fmls", 0x5f805000#32, 0xff80f400#32, .asisdelem, [.sd, .sn, .em], 0⟩,
  ⟨"fmls", 0x5f005000#32, 0xffc0f400#32, .asisdelem, [.sd, .sn, .em], 0⟩,
  ⟨"fmul", 0x5f809000#32, 0xff80f400#32, .asisdelem, [.sd, .sn, .em], 0⟩,
  ⟨"fmul", 0x5f009000#32, 0xffc0f400#32, .asisdelem, [.sd, .sn, .em], 0⟩,
  ⟨"fmulx", 0x7f809000#32, 0xff80f400#32, .asisdelem, [.sd, .sn, .em], 0⟩,
  ⟨"fmulx", 0x7f009000#32, 0xffc0f400#32, .asisdelem, [.sd, .sn, .em], 0⟩,
  ⟨"sqrdmlah", 0x7f00d000#32, 0xff00f400#32, .asisdelem, [.sd, .sn, .em], 0⟩,
  ⟨"sqrdmlsh", 0x7f00f000#32, 0xff00f400#32, .asisdelem, [.sd, .sn, .em], 0⟩,
  ⟨"st4", 0xc000000#32, 0xbfff0000#32, .asisdlse, [.lvt, .simdAddrSimple], 0⟩,
  ⟨"st1", 0xc000000#32, 0xbfff0000#32, .asisdlse, [.lvt, .simdAddrSimple], 0⟩,
  ⟨"st2", 0xc000000#32, 0xbfff0000#32, .asisdlse, [.lvt, .simdAddrSimple], 0⟩,
  ⟨"st3", 0xc000000#32, 0xbfff0000#32, .asisdlse, [.lvt, .simdAddrSimple], 0⟩,
  ⟨"ld4", 0xc400000#32, 0xbfff0000#32, .asisdlse, [.lvt, .simdAddrSimple], 0⟩,
  ⟨"ld1", 0xc400000#32, 0xbfff0000#32, .asisdlse, [.lvt, .simdAddrSimple], 0⟩,
  ⟨"ld2", 0xc400000#32, 0xbfff0000#32, .asisdlse, [.lvt, .simdAddrSimple], 0⟩,
  ⟨"ld3", 0xc400000#32, 0xbfff0000#32, .asisdlse, [.lvt, .simdAddrSimple], 0⟩,
  ⟨"st4", 0xc800000#32, 0xbfe00000#32, .asisdlsep, [.lvt, .simdAddrPost], 0⟩,
  ⟨"st1", 0xc800000#32, 0xbfe00000#32, .asisdlsep, [.lvt, .simdAddrPost], 0⟩,
  ⟨"st2", 0xc800000#32, 0xbfe00000#32, .asisdlsep, [.lvt, .simdAddrPost], 0⟩,
  ⟨"st3", 0xc800000#32, 0xbfe00000#32, .asisdlsep, [.lvt, .simdAddrPost], 0⟩,
  ⟨"ld4", 0xcc00000#32, 0xbfe00000#32, .asisdlsep, [.lvt, .simdAddrPost], 0⟩,
  ⟨"ld1", 0xcc00000#32, 0xbfe00000#32, .asisdlsep, [.lvt, .simdAddrPost], 0⟩,
  ⟨"ld2", 0xcc00000#32, 0xbfe00000#32, .asisdlsep, [.lvt, .simdAddrPost], 0⟩,
  ⟨"ld3", 0xcc00000#32, 0xbfe00000#32, .asisdlsep, [.lvt, .simdAddrPost], 0⟩,
  ⟨"st1", 0xd000000#32, 0xbfff2000#32, .asisdlso, [.let, .simdAddrSimple], 0⟩,
  ⟨"st3", 0xd002000#32, 0xbfff2000#32, .asisdlso, [.let, .simdAddrSimple], 0⟩,
  ⟨"st2", 0xd200000#32, 0xbfff2000#32, .asisdlso, [.let, .simdAddrSimple], 0⟩,
  ⟨"st4", 0xd202000#32, 0xbfff2000#32, .asisdlso, [.let, .simdAddrSimple], 0⟩,
  ⟨"ld1", 0xd400000#32, 0xbfff2000#32, .asisdlso, [.let, .simdAddrSimple], 0⟩,
  ⟨"ld3", 0xd402000#32, 0xbfff2000#32, .asisdlso, [.let, .simdAddrSimple], 0⟩,
  ⟨"ld1r", 0xd40c000#32, 0xbfffe000#32, .asisdlso, [.lvtAl, .simdAddrSimple], 0⟩,
  ⟨"ld3r", 0xd40e000#32, 0xbfffe000#32, .asisdlso, [.lvtAl, .simdAddrSimple], 0⟩,
  ⟨"ld2", 0xd600000#32, 0xbfff2000#32, .asisdlso, [.let, .simdAddrSimple], 0⟩,
  ⟨"ld4", 0xd602000#32, 0xbfff2000#32, .asisdlso, [.let, .simdAddrSimple], 0⟩,
  ⟨"ld2r", 0xd60c000#32, 0xbfffe000#32, .asisdlso, [.lvtAl, .simdAddrSimple], 0⟩,
  ⟨"ld4r", 0xd60e000#32, 0xbfffe000#32, .asisdlso, [.lvtAl, .simdAddrSimple], 0⟩,
  ⟨"st1", 0xd800000#32, 0xbfe02000#32, .asisdlsop, [.let, .simdAddrPost], 0⟩,
  ⟨"st3", 0xd802000#32, 0xbfe02000#32, .asisdlsop, [.let, .simdAddrPost], 0⟩,
  ⟨"st2", 0xda00000#32, 0xbfe02000#32, .asisdlsop, [.let, .simdAddrPost], 0⟩,
  ⟨"st4", 0xda02000#32, 0xbfe02000#32, .asisdlsop, [.let, .simdAddrPost], 0⟩,
  ⟨"ld1", 0xdc00000#32, 0xbfe02000#32, .asisdlsop, [.let, .simdAddrPost], 0⟩,
  ⟨"ld3", 0xdc02000#32, 0xbfe02000#32, .asisdlsop, [.let, .simdAddrPost], 0⟩,
  ⟨"ld1r", 0xdc0c000#32, 0xbfe0e000#32, .asisdlsop, [.lvtAl, .simdAddrPost], 0⟩,
  ⟨"ld3r", 0xdc0e000#32, 0xbfe0e000#32, .asisdlsop, [.lvtAl, .simdAddrPost], 0⟩,
  ⟨"ld2", 0xde00000#32, 0xbfe02000#32, .asisdlsop, [.let, .simdAddrPost], 0⟩,
  ⟨"ld4", 0xde02000#32, 0xbfe02000#32, .asisdlsop, [.let, .simdAddrPost], 0⟩,
  ⟨"ld2r", 0xde0c000#32, 0xbfe0e000#32, .asisdlsop, [.lvtAl, .simdAddrPost], 0⟩,
  ⟨"ld4r", 0xde0e000#32, 0xbfe0e000#32, .asisdlsop, [.lvtAl, .simdAddrPost], 0⟩]

/-- Rows from class `asisdmisc` to `asimdsame`. -/
def opcodeRows6 : List Aarch64Opcode := [
  ⟨"suqadd", 0x5e203800#32, 0xff3ffc00#32, .asisdmisc, [.sd, .sn], 0⟩,
  ⟨"sqabs", 0x5e207800#32, 0xff3ffc00#32, .asisdmisc, [.sd, .sn], 0⟩,
  ⟨"cmgt", 0x5e208800#32, 0xff3ffc00#32, .asisdmisc, [.sd, .sn, .imm0], 0⟩,
  ⟨"cmeq", 0x5e209800#32, 0xff3ffc00#32, .asisdmisc, [.sd, .sn, .imm0], 0⟩,
  ⟨"cmlt", 0x5e20a800#32, 0xff3ffc00#32, .asisdmisc, [.sd, .sn, .imm0], 0⟩,
  ⟨"abs", 0x5e20b800#32, 0xff3ffc00#32, .asisdmisc, [.sd, .sn], 0⟩,
  ⟨"sqxtn", 0x5e214800#32, 0xff3ffc00#32, .asisdmisc, [.sd, .sn], 0⟩,
  ⟨"fcvtns", 0x5e21a800#32, 0xffbffc00#32, .asisdmisc, [.sd, .sn], 0⟩,
  ⟨"fcvtns", 0x5e79a800#32, 0xfffffc00#32, .asisdmisc, [.sd, .sn], 0⟩,
  ⟨"fcvtms", 0x5e21b800#32, 0xffbffc00#32, .asisdmisc, [.sd, .sn], 0⟩,
  ⟨"fcvtms", 0x5e79b800#32, 0xfffffc00#32, .asisdmisc, [.sd, .sn], 0⟩,
  ⟨"fcvtas", 0x5e21c800#32, 0xffbffc00#32, .asisdmisc, [.sd, .sn], 0⟩,
  ⟨"fcvtas", 0x5e79c800#32, 0xfffffc00#32, .asisdmisc, [.sd, .sn], 0⟩,
  ⟨"scvtf", 0x5e21d800#32, 0xffbffc00#32, .asisdmisc, [.sd, .sn], 0⟩,
  ⟨"scvtf", 0x5e79d800#32, 0xfffffc00#32, .asisdmisc, [.sd, .sn], 0⟩,
  ⟨"fcmgt", 0x5ea0c800#32, 0xffbffc00#32, .asisdmisc, [.sd, .sn, .fpimm0], 0⟩,
  ⟨"fcmgt", 0x5ef8c800#32, 0xfffffc00#32, .asisdmisc, [.sd, .sn, .fpimm0], 0⟩,
  ⟨"fcmeq", 0x5ea0d800#32, 0xffbffc00#32, .asisdmisc, [.sd, .sn, .fpimm0], 0⟩,
  ⟨"fcmeq", 0x5ef8d800#32, 0xfffffc00#32, .asisdmisc, [.sd, .sn, .fpimm0], 0⟩,
  ⟨"fcmlt", 0x5ea0e800#32, 0xffbffc00#32, .asisdmisc, [.sd, .sn, .fpimm0], 0⟩,
  ⟨"fcmlt", 0x5ef8e800#32, 0xfffffc00#32, .asisdmisc, [.sd, .sn, .fpimm0], 0⟩,
  ⟨"fcvtps", 0x5ea1a800#32, 0xffbffc00#32, .asisdmisc, [.sd, .sn], 0⟩,
  ⟨"fcvtps", 0x5ef9a800#32, 0xfffffc00#32, .asisdmisc, [.sd, .sn], 0⟩,
  ⟨"fcvtzs", 0x5ea1b800#32, 0xffbffc00#32, .asisdmisc, [.sd, .sn], 0⟩,
  ⟨"fcvtzs", 0x5ef9b800#32, 0xfffffc00#32, .asisdmisc, [.sd, .sn], 0⟩,
  ⟨"frecpe", 0x5ea1d800#32, 0xffbffc00#32, .asisdmisc, [.sd, .sn], 0⟩,
  ⟨"frecpe", 0x5ef9d800#32, 0xfffffc00#32, .asisdmisc, [.sd, .sn], 0⟩,
  ⟨"frecpx", 0x5ea1f800#32, 0xffbffc00#32, .asisdmisc, [.sd, .sn], 0⟩,
  ⟨"frecpx", 0x5ef9f800#32, 0xfffffc00#32, .asisdmisc, [.sd, .sn], 0⟩,
  ⟨"usqadd", 0x7e203800#32, 0xff3ffc00#32, .asisdmisc, [.sd, .sn], 0⟩,
  ⟨"sqneg", 0x7e207800#32, 0xff3ffc00#32, .asisdmisc, [.sd, .sn], 0⟩,
  ⟨"cmge", 0x7e208800#32, 0xff3ffc00#32, .asisdmisc, [.sd, .sn, .imm0], 0⟩,
  ⟨"cmle", 0x7e209800#32, 0xff3ffc00#32, .asisdmisc, [.sd, .sn, .imm0], 0⟩,
  ⟨"neg", 0x7e20b800#32, 0xff3ffc00#32, .asisdmisc, [.sd, .sn], 0⟩,
  ⟨"sqxtun", 0x7e212800#32, 0xff3ffc00#32, .asisdmisc, [.sd, .sn], 0⟩,
  ⟨"uqxtn", 0x7e214800#32, 0xff3ffc00#32, .asisdmisc, [.sd, .sn], 0⟩,
  ⟨"fcvtxn", 0x7e216800#32, 0xffbffc00#32, .asisdmisc, [.sd, .sn], 0⟩,
  ⟨"fcvtnu", 0x7e21a800#32, 0xffbffc00#32, .asisdmisc, [.sd, .sn], 0⟩,
  ⟨"fcvtnu", 0x7e79a800#32, 0xfffffc00#32, .asisdmisc, [.sd, .sn], 0⟩,
  ⟨"fcvtmu", 0x7e21b800#32, 0xffbffc00#32, .asisdmisc, [.sd, .sn], 0⟩,
  ⟨"fcvtmu", 0x7e79b800#32, 0xfffffc00#32, .asisdmisc, [.sd, .sn], 0⟩,
  ⟨"fcvtau", 0x7e21c800#32, 0xffbffc00#32, .asisdmisc, [.sd, .sn], 0⟩,
  ⟨"fcvtau", 0x7e79c800#32, 0xfffffc00#32, .asisdmisc, [.sd, .sn], 0⟩,
  ⟨"ucvtf", 0x7e21d800#32, 0xffbffc00#32, .asisdmisc, [.sd, .sn], 0⟩,
  ⟨"ucvtf", 0x7e79d800#32, 0xfffffc00#32, .asisdmisc, [.sd, .sn], 0⟩,
  ⟨"fcmge", 0x7ea0c800#32, 0xffbffc00#32, .asisdmisc, [.sd, .sn, .fpimm0], 0⟩,
  ⟨"fcmge", 0x7ef8c800#32, 0xfffffc00#32, .asisdmisc, [.sd, .sn, .fpimm0], 0⟩,
  ⟨"fcmle", 0x7ea0d800#32, 0xffbffc00#32, .asisdmisc, [.sd, .sn, .fpimm0], 0⟩,
  ⟨"fcmle", 0x7ef8d800#32, 0xfffffc00#32, .asisdmisc, [.sd, .sn, .fpimm0], 0⟩,
  ⟨"fcvtpu", 0x7ea1a800#32, 0xffbffc00#32, .asisdmisc, [.sd, .sn], 0⟩,
  ⟨"fcvtpu", 0x7ef9a800#32, 0xfffffc00#32, .asisdmisc, [.sd, .sn], 0⟩,
  ⟨"fcvtzu", 0x7ea1b800#32, 0xffbffc00#32, .asisdmisc, [.sd, .sn], 0⟩,
  ⟨"fcvtzu", 0x7ef9b800#32, 0xfffffc00#32, .asisdmisc, [.sd, .sn], 0⟩,
  ⟨"frsqrte", 0x7ea1d800#32, 0xffbffc00#32, .asisdmisc, [.sd, .sn], 0⟩,
  ⟨"frsqrte", 0x7ef9d800#32, 0xfffffc00#32, .asisdmisc, [.sd, .sn], 0⟩,
  ⟨"dup", 0x5e000400#32, 0xffe0fc00#32, .asisdone, [.sd, .en], 0⟩,
  ⟨"mov", 0x5e000400#32, 0xffe0fc00#32, .asisdone, [.sd, .en], fAlias⟩,
  ⟨"addp", 0x5e31b800#32, 0xff3ffc00#32, .asisdpair, [.sd, .vn], 0⟩,
  ⟨"fmaxnmp", 0x7e30c800#32, 0xffbffc00#32, .asisdpair, [.sd, .vn], 0⟩,
  ⟨"fmaxnmp", 0x5e30c800#32, 0xfffffc00#32, .asisdpair, [.sd, .vn], 0⟩,
  ⟨"faddp", 0x7e30d800#32, 0xffbffc00#32, .asisdpair, [.sd, .vn], 0⟩,
  ⟨"faddp", 0x5e30d800#32, 0xfffffc00#32, .asisdpair, [.sd, .vn], 0⟩,
  ⟨"fmaxp", 0x7e30f800#32, 0xffbffc00#32, .asisdpair, [.sd, .vn], 0⟩,
  ⟨"fmaxp", 0x5e30f800#32, 0xfffffc00#32, .asisdpair, [.sd, .vn], 0⟩,
  ⟨"fminnmp", 0x7eb0c800#32, 0xffbffc00#32, .asisdpair, [.sd, .vn], 0⟩,
  ⟨"fminnmp", 0x5eb0c800#32, 0xfffffc00#32, .asisdpair, [.sd, .vn], 0⟩,
  ⟨"fminp", 0x7eb0f800#32, 0xffbffc00#32, .asisdpair, [.sd, .vn], 0⟩,
  ⟨"fminp", 0x5eb0f800#32, 0xfffffc00#32, .asisdpair, [.sd, .vn], 0⟩,
  ⟨"sqadd", 0x5e200c00#32, 0xff20fc00#32, .asisdsame, [.sd, .sn, .sm], 0⟩,
  ⟨"sqsub", 0x5e202c00#32, 0xff20fc00#32, .asisdsame, [.sd, .sn, .sm], 0⟩,
  ⟨"sqshl", 0x5e204c00#32, 0xff20fc00#32, .asisdsame, [.sd, .sn, .sm], 0⟩,
  ⟨"sqrshl", 0x5e205c00#32, 0xff20fc00#32, .asisdsame, [.sd, .sn, .sm], 0⟩,
  ⟨"sqdmulh", 0x5e20b400#32, 0xff20fc00#32, .asisdsame, [.sd, .sn, .sm], 0⟩,
  ⟨"fmulx", 0x5e20dc00#32, 0xffa0fc00#32, .asisdsame, [.sd, .sn, .sm], 0⟩,
  ⟨"fmulx", 0x5e401c00#32, 0xffe0fc00#32, .asisdsame, [.sd, .sn, .sm], 0⟩,
  ⟨"fcmeq", 0x5e20e400#32, 0xffa0fc00#32, .asisdsame, [.sd, .sn, .sm], 0⟩,
  ⟨"fcmeq", 0x5e402400#32, 0xffe0fc00#32, .asisdsame, [.sd, .sn, .sm], 0⟩,
  ⟨"frecps", 0x5e20fc00#32, 0xffa0fc00#32, .asisdsame, [.sd, .sn, .sm], 0⟩,
  ⟨"frecps", 0x5e403c00#32, 0xffe0fc00#32, .asisdsame, [.sd, .sn, .sm], 0⟩,
  ⟨"frsqrts", 0x5ea0fc00#32, 0xffa0fc00#32, .asisdsame, [.sd, .sn, .sm], 0⟩,
  ⟨"frsqrts", 0x5ec03c00#32, 0xffe0fc00#32, .asisdsame, [.sd, .sn, .sm], 0⟩,
  ⟨"cmgt", 0x5ee03400#32, 0xffe0fc00#32, .asisdsame, [.sd, .sn, .sm], 0⟩,
  ⟨"cmge", 0x5ee03c00#32, 0xffe0fc00#32, .asisdsame, [.sd, .sn, .sm], 0⟩,
  ⟨"sshl", 0x5ee04400#32, 0xffe0fc00#32, .asisdsame, [.sd, .sn, .sm], 0⟩,
  ⟨"srshl", 0x5ee05400#32, 0xffe0fc00#32, .asisdsame, [.sd, .sn, .sm], 0⟩,
  ⟨"add", 0x5ee08400#32, 0xffe0fc00#32, .asisdsame, [.sd, .sn, .sm], 0⟩,
  ⟨"cmtst", 0x5ee08c00#32, 0xffe0fc00#32, .asisdsame, [.sd, .sn, .sm], 0⟩,
  ⟨"uqadd", 0x7e200c00#32, 0xff20fc00#32, .asisdsame, [.sd, .sn, .sm], 0⟩,
  ⟨"uqsub", 0x7e202c00#32, 0xff20fc00#32, .asisdsame, [.sd, .sn, .sm], 0⟩,
  ⟨"uqshl", 0x7e204c00#32, 0xff20fc00#32, .asisdsame, [.sd, .sn, .sm], 0⟩,
  ⟨"uqrshl", 0x7e205c00#32, 0xff20fc00#32, .asisdsame, [.sd, .sn, .sm], 0⟩,
  ⟨"sqrdmulh", 0x7e20b400#32, 0xff20fc00#32, .asisdsame, [.sd, .sn, .sm], 0⟩,
  ⟨"fcmge", 0x7e20e400#32, 0xffa0fc00#32, .asisdsame, [.sd, .sn, .sm], 0⟩,
  ⟨"fcmge", 0x7e402400#32, 0xffe0fc00#32, .asisdsame, [.sd, .sn, .sm], 0⟩,
  ⟨"facge", 0x7e20ec00#32, 0xffa0fc00#32, .asisdsame, [.sd, .sn, .sm], 0⟩,
  ⟨"facge", 0x7e402c00#32, 0xffe0fc00#32, .asisdsame, [.sd, .sn, .sm], 0⟩,
  ⟨"fabd", 0x7ea0d400#32, 0xffa0fc00#32, .asisdsame, [.sd, .sn, .sm], 0⟩,
  ⟨"fabd", 0x7ec01400#32, 0xffe0fc00#32, .asisdsame, [.sd, .sn, .sm], 0⟩,
  ⟨"fcmgt", 0x7ea0e400#32, 0xffa0fc00#32, .asisdsame, [.sd, .sn, .sm], 0⟩,
  ⟨"fcmgt", 0x7ec02400#32, 0xffe0fc00#32, .asisdsame, [.sd, .sn, .sm], 0⟩,
  ⟨"facgt", 0x7ea0ec00#32, 0xffa0fc00#32, .asisdsame, [.sd, .sn, .sm], 0⟩,
  ⟨"facgt", 0x7ec02c00#32, 0xffe0fc00#32, .asisdsame, [.sd, .sn, .sm], 0⟩,
  ⟨"cmhi", 0x7ee03400#32, 0xffe0fc00#32, .asisdsame, [.sd, .sn, .sm], 0⟩,
  ⟨"cmhs", 0x7ee03c00#32, 0xffe0fc00#32, .asisdsame, [.sd, .sn, .sm], 0⟩,
  ⟨"ushl", 0x7ee04400#32, 0xffe0fc00#32, .asisdsame, [.sd, .sn, .sm], 0⟩,
  ⟨"urshl", 0x7ee05400#32, 0xffe0fc00#32, .asisdsame, [.sd, .sn, .sm], 0⟩,
  ⟨"sub", 0x7ee08400#32, 0xffe0fc00#32, .asisdsame, [.sd, .sn, .sm], 0⟩,
  ⟨"cmeq", 0x7ee08c00#32, 0xffe0fc00#32, .asisdsame, [.sd, .sn, .sm], 0⟩,
  ⟨"sqrdmlah", 0x7e008400#32, 0xff20fc00#32, .asimdsame, [.sd, .sn, .sm], 0⟩,
  ⟨"sqrdmlsh", 0x7e008c00#32, 0xff20fc00#32, .asimdsame, [.sd, .sn, .sm], 0⟩]

/-- Rows from class `asisdshf` to `dp1src`. -/
def opcodeRows7 : List Aarch64Opcode := [
  ⟨"sshr", 0x5f000400#32, 0xff80fc00#32, .asisdshf, [.sd, .sn, .immVlsr], 0⟩,
  ⟨"ssra", 0x5f001400#32, 0xff80fc00#32, .asisdshf, [.sd, .sn, .immVlsr], 0⟩,
  ⟨"srshr", 0x5f002400#32, 0xff80fc00#32, .asisdshf, [.sd, .sn, .immVlsr], 0⟩,
  ⟨"srsra", 0x5f003400#32, 0xff80fc00#32, .asisdshf, [.sd, .sn, .immVlsr], 0⟩,
  ⟨"shl", 0x5f005400#32, 0xff80fc00#32, .asisdshf, [.sd, .sn, .immVlsl], 0⟩,
  ⟨"sqshl", 0x5f007400#32, 0xff80fc00#32, .asisdshf, [.sd, .sn, .immVlsl], 0⟩,
  ⟨"sqshrn", 0x5f009400#32, 0xff80fc00#32, .asisdshf, [.sd, .sn, .immVlsr], 0⟩,
  ⟨"sqrshrn", 0x5f009c00#32, 0xff80fc00#32, .asisdshf, [.sd, .sn, .immVlsr], 0⟩,
  ⟨"scvtf", 0x5f00e400#32, 0xff80fc00#32, .asisdshf, [.sd, .sn, .immVlsr], 0⟩,
  ⟨"scvtf", 0x5f10e400#32, 0xff80fc00#32, .asisdshf, [.sd, .sn, .immVlsr], 0⟩,
  ⟨"fcvtzs", 0x5f00fc00#32, 0xff80fc00#32, .asisdshf, [.sd, .sn, .immVlsr], 0⟩,
  ⟨"fcvtzs", 0x5f10fc00#32, 0xff80fc00#32, .asisdshf, [.sd, .sn, .immVlsr], 0⟩,
  ⟨"ushr", 0x7f000400#32, 0xff80fc00#32, .asisdshf, [.sd, .sn, .immVlsr], 0⟩,
  ⟨"usra", 0x7f001400#32, 0xff80fc00#32, .asisdshf, [.sd, .sn, .immVlsr], 0⟩,
  ⟨"urshr", 0x7f002400#32, 0xff80fc00#32, .asisdshf, [.sd, .sn, .immVlsr], 0⟩,
  ⟨"ursra", 0x7f003400#32, 0xff80fc00#32, .asisdshf, [.sd, .sn, .immVlsr], 0⟩,
  ⟨"sri", 0x7f004400#32, 0xff80fc00#32, .asisdshf, [.sd, .sn, .immVlsr], 0⟩,
  ⟨"sli", 0x7f005400#32, 0xff80fc00#32, .asisdshf, [.sd, .sn, .immVlsl], 0⟩,
  ⟨"sqshlu", 0x7f006400#32, 0xff80fc00#32, .asisdshf, [.sd, .sn, .immVlsl], 0⟩,
  ⟨"uqshl", 0x7f007400#32, 0xff80fc00#32, .asisdshf, [.sd, .sn, .immVlsl], 0⟩,
  ⟨"sqshrun", 0x7f008400#32, 0xff80fc00#32, .asisdshf, [.sd, .sn, .immVlsr], 0⟩,
  ⟨"sqrshrun", 0x7f008c00#32, 0xff80fc00#32, .asisdshf, [.sd, .sn, .immVlsr], 0⟩,
  ⟨"uqshrn", 0x7f009400#32, 0xff80fc00#32, .asisdshf, [.sd, .sn, .immVlsr], 0⟩,
  ⟨"uqrshrn", 0x7f009c00#32, 0xff80fc00#32, .asisdshf, [.sd, .sn, .immVlsr], 0⟩,
  ⟨"ucvtf", 0x7f00e400#32, 0xff80fc00#32, .asisdshf, [.sd, .sn, .immVlsr], 0⟩,
  ⟨"ucvtf", 0x7f10e400#32, 0xff80fc00#32, .asisdshf, [.sd, .sn, .immVlsr], 0⟩,
  ⟨"fcvtzu", 0x7f00fc00#32, 0xff80fc00#32, .asisdshf, [.sd, .sn, .immVlsr], 0⟩,
  ⟨"fcvtzu", 0x7f10fc00#32, 0xff80fc00#32, .asisdshf, [.sd, .sn, .immVlsr], 0⟩,
  ⟨"sbfm", 0x13000000#32, 0x7f800000#32, .bitfield, [.rd, .rn, .immr, .imms], 0⟩,
  ⟨"sbfiz", 0x13000000#32, 0x7f800000#32, .bitfield, [.rd, .rn, .imm, .width], fAlias ||| fConv⟩,
  ⟨"sbfx", 0x13000000#32, 0x7f800000#32, .bitfield, [.rd, .rn, .imm, .width], fAlias ||| fConv⟩,
  ⟨"sxtb", 0x13001c00#32, 0x7fbffc00#32, .bitfield, [.rd, .rn], fAlias⟩,
  ⟨"sxth", 0x13003c00#32, 0x7fbffc00#32, .bitfield, [.rd, .rn], fAlias⟩,
  ⟨"sxtw", 0x93407c00#32, 0xfffffc00#32, .bitfield, [.rd, .rn], fAlias⟩,
  ⟨"asr", 0x13000000#32, 0x7f800000#32, .bitfield, [.rd, .rn, .imm], fAlias ||| fConv⟩,
  ⟨"bfm", 0x33000000#32, 0x7f800000#32, .bitfield, [.rd, .rn, .immr, .imms], 0⟩,
  ⟨"bfi", 0x33000000#32, 0x7f800000#32, .bitfield, [.rd, .rn, .imm, .width], fAlias ||| fConv⟩,
  ⟨"bfc", 0x330003e0#32, 0x7f8003e0#32, .bitfield, [.rd, .imm, .width], fAlias ||| fConv⟩,
  ⟨"bfxil", 0x33000000#32, 0x7f800000#32, .bitfield, [.rd, .rn, .imm, .width], fAlias ||| fConv⟩,
  ⟨"ubfm", 0x53000000#32, 0x7f800000#32, .bitfield, [.rd, .rn, .immr, .imms], 0⟩,
  ⟨"ubfiz", 0x53000000#32, 0x7f800000#32, .bitfield, [.rd, .rn, .imm, .width], fAlias ||| fConv⟩,
  ⟨"ubfx", 0x53000000#32, 0x7f800000#32, .bitfield, [.rd, .rn, .imm, .width], fAlias ||| fConv⟩,
  ⟨"uxtb", 0x53001c00#32, 0xfffffc00#32, .bitfield, [.rd, .rn], fAlias⟩,
  ⟨"uxth", 0x53003c00#32, 0xfffffc00#32, .bitfield, [.rd, .rn], fAlias⟩,
  ⟨"lsl", 0x53000000#32, 0x7f800000#32, .bitfield, [.rd, .rn, .imm], fAlias ||| fConv⟩,
  ⟨"lsr", 0x53000000#32, 0x7f800000#32, .bitfield, [.rd, .rn, .imm], fAlias ||| fConv⟩,
  ⟨"b", 0x14000000#32, 0xfc000000#32, .branchImm, [.addrPcrel26], 0⟩,
  ⟨"bl", 0x94000000#32, 0xfc000000#32, .branchImm, [.addrPcrel26], 0⟩,
  ⟨"br", 0xd61f0000#32, 0xfffffc1f#32, .branchReg, [.rn], 0⟩,
  ⟨"blr", 0xd63f0000#32, 0xfffffc1f#32, .branchReg, [.rn], 0⟩,
  ⟨"ret", 0xd65f0000#32, 0xfffffc1f#32, .branchReg, [.rn], 0⟩,
  ⟨"eret", 0xd69f03e0#32, 0xffffffff#32, .branchReg, [], 0⟩,
  ⟨"drps", 0xd6bf03e0#32, 0xffffffff#32, .branchReg, [], 0⟩,
  ⟨"braaz", 0xd61f081f#32, 0xfffffc1f#32, .branchReg, [.rn], 0⟩,
  ⟨"brabz", 0xd61f0c1f#32, 0xfffffc1f#32, .branchReg, [.rn], 0⟩,
  ⟨"blraaz", 0xd63f081f#32, 0xfffffc1f#32, .branchReg, [.rn], 0⟩,
  ⟨"blrabz", 0xd63f0c1f#32, 0xfffffc1f#32, .branchReg, [.rn], 0⟩,
  ⟨"braa", 0xd71f0800#32, 0xffe0fc00#32, .branchReg, [.rn, .rmLow], 0⟩,
  ⟨"brab", 0xd71f0c00#32, 0xffe0fc00#32, .branchReg, [.rn, .rmLow], 0⟩,
  ⟨"blraa", 0xd73f0800#32, 0xffe0fc00#32, .branchReg, [.rn, .rmLow], 0⟩,
  ⟨"blrab", 0xd73f0c00#32, 0xffe0fc00#32, .branchReg, [.rn, .rmLow], 0⟩,
  ⟨"retaa", 0xd65f0bff#32, 0xffffffff#32, .branchReg, [], 0⟩,
  ⟨"retab", 0xd65f0fff#32, 0xffffffff#32, .branchReg, [], 0⟩,
  ⟨"cbz", 0x34000000#32, 0x7f000000#32, .compbranch, [.rt, .addrPcrel19], 0⟩,
  ⟨"cbnz", 0x35000000#32, 0x7f000000#32, .compbranch, [.rt, .addrPcrel19], 0⟩,
  ⟨"b.c", 0x54000000#32, 0xff000010#32, .condbranch, [.addrPcrel19], 0⟩,
  ⟨"ccmn", 0x3a400800#32, 0x7fe00c10#32, .condcmpImm, [.rn, .ccmpImm, .nzcv, .cond], 0⟩,
  ⟨"ccmp", 0x7a400800#32, 0x7fe00c10#32, .condcmpImm, [.rn, .ccmpImm, .nzcv, .cond], 0⟩,
  ⟨"ccmn", 0x3a400000#32, 0x7fe00c10#32, .condcmpReg, [.rn, .rm, .nzcv, .cond], 0⟩,
  ⟨"ccmp", 0x7a400000#32, 0x7fe00c10#32, .condcmpReg, [.rn, .rm, .nzcv, .cond], 0⟩,
  ⟨"csel", 0x1a800000#32, 0x7fe00c00#32, .condsel, [.rd, .rn, .rm, .cond], 0⟩,
  ⟨"csinc", 0x1a800400#32, 0x7fe00c00#32, .condsel, [.rd, .rn, .rm, .cond], 0⟩,
  ⟨"cinc", 0x1a800400#32, 0x7fe00c00#32, .condsel, [.rd, .rn, .cond1], fAlias ||| fConv⟩,
  ⟨"cset", 0x1a9f07e0#32, 0x7fff0fe0#32, .condsel, [.rd, .cond1], fAlias ||| fConv⟩,
  ⟨"csinv", 0x5a800000#32, 0x7fe00c00#32, .condsel, [.rd, .rn, .rm, .cond], 0⟩,
  ⟨"cinv", 0x5a800000#32, 0x7fe00c00#32, .condsel, [.rd, .rn, .cond1], fAlias ||| fConv⟩,
  ⟨"csetm", 0x5a9f03e0#32, 0x7fff0fe0#32, .condsel, [.rd, .cond1], fAlias ||| fConv⟩,
  ⟨"csneg", 0x5a800400#32, 0x7fe00c00#32, .condsel, [.rd, .rn, .rm, .cond], 0⟩,
  ⟨"cneg", 0x5a800400#32, 0x7fe00c00#32, .condsel, [.rd, .rn, .cond1], fAlias ||| fConv⟩,
  ⟨"aese", 0x4e284800#32, 0xfffffc00#32, .cryptoaes, [.vd, .vn], 0⟩,
  ⟨"aesd", 0x4e285800#32, 0xfffffc00#32, .cryptoaes, [.vd, .vn], 0⟩,
  ⟨"aesmc", 0x4e286800#32, 0xfffffc00#32, .cryptoaes, [.vd, .vn], 0⟩,
  ⟨"aesimc", 0x4e287800#32, 0xfffffc00#32, .cryptoaes, [.vd, .vn], 0⟩,
  ⟨"sha1h", 0x5e280800#32, 0xfffffc00#32, .cryptosha2, [.fd, .fn], 0⟩,
  ⟨"sha1su1", 0x5e281800#32, 0xfffffc00#32, .cryptosha2, [.vd, .vn], 0⟩,
  ⟨"sha256su0", 0x5e282800#32, 0xfffffc00#32, .cryptosha2, [.vd, .vn], 0⟩,
  ⟨"sha1c", 0x5e000000#32, 0xffe0fc00#32, .cryptosha3, [.fd, .fn, .vm], 0⟩,
  ⟨"sha1p", 0x5e001000#32, 0xffe0fc00#32, .cryptosha3, [.fd, .fn, .vm], 0⟩,
  ⟨"sha1m", 0x5e002000#32, 0xffe0fc00#32, .cryptosha3, [.fd, .fn, .vm], 0⟩,
  ⟨"sha1su0", 0x5e003000#32, 0xffe0fc00#32, .cryptosha3, [.vd, .vn, .vm], 0⟩,
  ⟨"sha256h", 0x5e004000#32, 0xffe0fc00#32, .cryptosha3, [.fd, .fn, .vm], 0⟩,
  ⟨"sha256h2", 0x5e005000#32, 0xffe0fc00#32, .cryptosha3, [.fd, .fn, .vm], 0⟩,
  ⟨"sha256su1", 0x5e006000#32, 0xffe0fc00#32, .cryptosha3, [.vd, .vn, .vm], 0⟩,
  ⟨"rbit", 0x5ac00000#32, 0x7ffffc00#32, .dp1src, [.rd, .rn], 0⟩,
  ⟨"rev16", 0x5ac00400#32, 0x7ffffc00#32, .dp1src, [.rd, .rn], 0⟩,
  ⟨"rev", 0x5ac00800#32, 0xfffffc00#32, .dp1src, [.rd, .rn], 0⟩,
  ⟨"rev", 0xdac00c00#32, 0xfffffc00#32, .dp1src, [.rd, .rn], 0⟩,
  ⟨"rev64", 0xdac00c00#32, 0xfffffc00#32, .dp1src, [.rd, .rn], fAlias⟩,
  ⟨"clz", 0x5ac01000#32, 0x7ffffc00#32, .dp1src, [.rd, .rn], 0⟩,
  ⟨"cls", 0x5ac01400#32, 0x7ffffc00#32, .dp1src, [.rd, .rn], 0⟩,
  ⟨"rev32", 0xdac00800#32, 0xfffffc00#32, .dp1src, [.rd, .rn], 0⟩,
  ⟨"pacia", 0xdac10000#32, 0xfffffc00#32, .dp1src, [.rd, .rn], 0⟩,
  ⟨"pacib", 0xdac10400#32, 0xfffffc00#32, .dp1src, [.rd, .rn], 0⟩,
  ⟨"pacda", 0xdac10800#32, 0xfffffc00#32, .dp1src, [.rd, .rn], 0⟩,
  ⟨"pacdb", 0xdac10c00#32, 0xfffffc00#32, .dp1src, [.rd, .rn], 0⟩,
  ⟨"autia", 0xdac11000#32, 0xfffffc00#32, .dp1src, [.rd, .rn], 0⟩,
  ⟨"autib", 0xdac11400#32, 0xfffffc00#32, .dp1src, [.rd, .rn], 0⟩,
  ⟨"autda", 0xdac11800#32, 0xfffffc00#32, .dp1src, [.rd, .rn], 0⟩,
  ⟨"autdb", 0xdac11c00#32, 0xfffffc00#32, .dp1src, [.rd, .rn], 0⟩,
  ⟨"paciza", 0xdac123e0#32, 0xffffffe0#32, .dp1src, [.rd], 0⟩,
  ⟨"pacizb", 0xdac127e0#32, 0xffffffe0#32, .dp1src, [.rd], 0⟩,
  ⟨"pacdza", 0xdac12be0#32, 0xffffffe0#32, .dp1src, [.rd], 0⟩,
  ⟨"pacdzb", 0xdac12fe0#32, 0xffffffe0#32, .dp1src, [.rd], 0⟩,
  ⟨"autiza", 0xdac133e0#32, 0xffffffe0#32, .dp1src, [.rd], 0⟩,
  ⟨"autizb", 0xdac137e0#32, 0xffffffe0#32, .dp1src, [.rd], 0⟩,
  ⟨"autdza", 0xdac13be0#32, 0xffffffe0#32, .dp1src, [.rd], 0⟩,
  ⟨"autdzb", 0xdac13fe0#32, 0xffffffe0#32, .dp1src, [.rd], 0⟩,
  ⟨"xpaci", 0xdac143e0#32, 0xffffffe0#32, .dp1src, [.rd], 0⟩,
  ⟨"xpacd", 0xdac147e0#32, 0xffffffe0#32, .dp1src, [.rd], 0⟩]

/-- Rows from class `dp2src` to `floatdp1`. -/
def opcodeRows8 : List Aarch64Opcode := [
  ⟨"udiv", 0x1ac00800#32, 0x7fe0fc00#32, .dp2src, [.rd, .rn, .rm], 0⟩,
  ⟨"sdiv", 0x1ac00c00#32, 0x7fe0fc00#32, .dp2src, [.rd, .rn, .rm], 0⟩,
  ⟨"lslv", 0x1ac02000#32, 0x7fe0fc00#32, .dp2src, [.rd, .rn, .rm], 0⟩,
  ⟨"lsl", 0x1ac02000#32, 0x7fe0fc00#32, .dp2src, [.rd, .rn, .rm], fAlias⟩,
  ⟨"lsrv", 0x1ac02400#32, 0x7fe0fc00#32, .dp2src, [.rd, .rn, .rm], 0⟩,
  ⟨"lsr", 0x1ac02400#32, 0x7fe0fc00#32, .dp2src, [.rd, .rn, .rm], fAlias⟩,
  ⟨"asrv", 0x1ac02800#32, 0x7fe0fc00#32, .dp2src, [.rd, .rn, .rm], 0⟩,
  ⟨"asr", 0x1ac02800#32, 0x7fe0fc00#32, .dp2src, [.rd, .rn, .rm], fAlias⟩,
  ⟨"rorv", 0x1ac02c00#32, 0x7fe0fc00#32, .dp2src, [.rd, .rn, .rm], 0⟩,
  ⟨"ror", 0x1ac02c00#32, 0x7fe0fc00#32, .dp2src, [.rd, .rn, .rm], fAlias⟩,
  ⟨"crc32b", 0x1ac04000#32, 0xffe0fc00#32, .dp2src, [.rd, .rn, .rm], 0⟩,
  ⟨"crc32h", 0x1ac04400#32, 0xffe0fc00#32, .dp2src, [.rd, .rn, .rm], 0⟩,
  ⟨"crc32w", 0x1ac04800#32, 0xffe0fc00#32, .dp2src, [.rd, .rn, .rm], 0⟩,
  ⟨"crc32x", 0x9ac04c00#32, 0xffe0fc00#32, .dp2src, [.rd, .rn, .rm], 0⟩,
  ⟨"crc32cb", 0x1ac05000#32, 0xffe0fc00#32, .dp2src, [.rd, .rn, .rm], 0⟩,
  ⟨"crc32ch", 0x1ac05400#32, 0xffe0fc00#32, .dp2src, [.rd, .rn, .rm], 0⟩,
  ⟨"crc32cw", 0x1ac05800#32, 0xffe0fc00#32, .dp2src, [.rd, .rn, .rm], 0⟩,
  ⟨"crc32cx", 0x9ac05c00#32, 0xffe0fc00#32, .dp2src, [.rd, .rn, .rm], 0⟩,
  ⟨"madd", 0x1b000000#32, 0x7fe08000#32, .dp3src, [.rd, .rn, .rm, .ra], 0⟩,
  ⟨"mul", 0x1b007c00#32, 0x7fe0fc00#32, .dp3src, [.rd, .rn, .rm], fAlias⟩,
  ⟨"msub", 0x1b008000#32, 0x7fe08000#32, .dp3src, [.rd, .rn, .rm, .ra], 0⟩,
  ⟨"mneg", 0x1b00fc00#32, 0x7fe0fc00#32, .dp3src, [.rd, .rn, .rm], fAlias⟩,
  ⟨"smaddl", 0x9b200000#32, 0xffe08000#32, .dp3src, [.rd, .rn, .rm, .ra], 0⟩,
  ⟨"smull", 0x9b207c00#32, 0xffe0fc00#32, .dp3src, [.rd, .rn, .rm], fAlias⟩,
  ⟨"smsubl", 0x9b208000#32, 0xffe08000#32, .dp3src, [.rd, .rn, .rm, .ra], 0⟩,
  ⟨"smnegl", 0x9b20fc00#32, 0xffe0fc00#32, .dp3src, [.rd, .rn, .rm], fAlias⟩,
  ⟨"smulh", 0x9b407c00#32, 0xffe08000#32, .dp3src, [.rd, .rn, .rm], 0⟩,
  ⟨"umaddl", 0x9ba00000#32, 0xffe08000#32, .dp3src, [.rd, .rn, .rm, .ra], 0⟩,
  ⟨"umull", 0x9ba07c00#32, 0xffe0fc00#32, .dp3src, [.rd, .rn, .rm], fAlias⟩,
  ⟨"umsubl", 0x9ba08000#32, 0xffe08000#32, .dp3src, [.rd, .rn, .rm, .ra], 0⟩,
  ⟨"umnegl", 0x9ba0fc00#32, 0xffe0fc00#32, .dp3src, [.rd, .rn, .rm], fAlias⟩,
  ⟨"umulh", 0x9bc07c00#32, 0xffe08000#32, .dp3src, [.rd, .rn, .rm], 0⟩,
  ⟨"svc", 0xd4000001#32, 0xffe0001f#32, .exception, [.exc], 0⟩,
  ⟨"hvc", 0xd4000002#32, 0xffe0001f#32, .exception, [.exc], 0⟩,
  ⟨"smc", 0xd4000003#32, 0xffe0001f#32, .exception, [.exc], 0⟩,
  ⟨"brk", 0xd4200000#32, 0xffe0001f#32, .exception, [.exc], 0⟩,
  ⟨"hlt", 0xd4400000#32, 0xffe0001f#32, .exception, [.exc], 0⟩,
  ⟨"dcps1", 0xd4a00001#32, 0xffe0001f#32, .exception, [.exc], 0⟩,
  ⟨"dcps2", 0xd4a00002#32, 0xffe0001f#32, .exception, [.exc], 0⟩,
  ⟨"dcps3", 0xd4a00003#32, 0xffe0001f#32, .exception, [.exc], 0⟩,
  ⟨"extr", 0x13800000#32, 0x7fa00000#32, .extract, [.rd, .rn, .rm, .imms], 0⟩,
  ⟨"ror", 0x13800000#32, 0x7fa00000#32, .extract, [.rd, .rm, .imms], fAlias ||| fConv⟩,
  ⟨"scvtf", 0x1e020000#32, 0x7f3f0000#32, .float2fix, [.fd, .rn, .fbits], 0⟩,
  ⟨"scvtf", 0x1ec20000#32, 0x7f3f0000#32, .float2fix, [.fd, .rn, .fbits], 0⟩,
  ⟨"ucvtf", 0x1e030000#32, 0x7f3f0000#32, .float2fix, [.fd, .rn, .fbits], 0⟩,
  ⟨"ucvtf", 0x1ec30000#32, 0x7f3f0000#32, .float2fix, [.fd, .rn, .fbits], 0⟩,
  ⟨"fcvtzs", 0x1e180000#32, 0x7f3f0000#32, .float2fix, [.rd, .fn, .fbits], 0⟩,
  ⟨"fcvtzs", 0x1ed80000#32, 0x7f3f0000#32, .float2fix, [.rd, .fn, .fbits], 0⟩,
  ⟨"fcvtzu", 0x1e190000#32, 0x7f3f0000#32, .float2fix, [.rd, .fn, .fbits], 0⟩,
  ⟨"fcvtzu", 0x1ed90000#32, 0x7f3f0000#32, .float2fix, [.rd, .fn, .fbits], 0⟩,
  ⟨"fcvtns", 0x1e200000#32, 0x7f3ffc00#32, .float2int, [.rd, .fn], 0⟩,
  ⟨"fcvtns", 0x1ee00000#32, 0x7f3ffc00#32, .float2int, [.rd, .fn], 0⟩,
  ⟨"fcvtnu", 0x1e210000#32, 0x7f3ffc00#32, .float2int, [.rd, .fn], 0⟩,
  ⟨"fcvtnu", 0x1ee10000#32, 0x7f3ffc00#32, .float2int, [.rd, .fn], 0⟩,
  ⟨"scvtf", 0x1e220000#32, 0x7f3ffc00#32, .float2int, [.fd, .rn], 0⟩,
  ⟨"scvtf", 0x1ee20000#32, 0x7f3ffc00#32, .float2int, [.fd, .rn], 0⟩,
  ⟨"ucvtf", 0x1e230000#32, 0x7f3ffc00#32, .float2int, [.fd, .rn], 0⟩,
  ⟨"ucvtf", 0x1ee30000#32, 0x7f3ffc00#32, .float2int, [.fd, .rn], 0⟩,
  ⟨"fcvtas", 0x1e240000#32, 0x7f3ffc00#32, .float2int, [.rd, .fn], 0⟩,
  ⟨"fcvtas", 0x1ee40000#32, 0x7f3ffc00#32, .float2int, [.rd, .fn], 0⟩,
  ⟨"fcvtau", 0x1e250000#32, 0x7f3ffc00#32, .float2int, [.rd, .fn], 0⟩,
  ⟨"fcvtau", 0x1ee50000#32, 0x7f3ffc00#32, .float2int, [.rd, .fn], 0⟩,
  ⟨"fmov", 0x1e260000#32, 0x7f3ffc00#32, .float2int, [.rd, .fn], 0⟩,
  ⟨"fmov", 0x1ee60000#32, 0x7f3ffc00#32, .float2int, [.rd, .fn], 0⟩,
  ⟨"fmov", 0x1e270000#32, 0x7f3ffc00#32, .float2int, [.fd, .rn], 0⟩,
  ⟨"fmov", 0x1ee70000#32, 0x7f3ffc00#32, .float2int, [.fd, .rn], 0⟩,
  ⟨"fcvtps", 0x1e280000#32, 0x7f3ffc00#32, .float2int, [.rd, .fn], 0⟩,
  ⟨"fcvtps", 0x1ee80000#32, 0x7f3ffc00#32, .float2int, [.rd, .fn], 0⟩,
  ⟨"fcvtpu", 0x1e290000#32, 0x7f3ffc00#32, .float2int, [.rd, .fn], 0⟩,
  ⟨"fcvtpu", 0x1ee90000#32, 0x7f3ffc00#32, .float2int, [.rd, .fn], 0⟩,
  ⟨"fcvtms", 0x1e300000#32, 0x7f3ffc00#32, .float2int, [.rd, .fn], 0⟩,
  ⟨"fcvtms", 0x1ef00000#32, 0x7f3ffc00#32, .float2int, [.rd, .fn], 0⟩,
  ⟨"fcvtmu", 0x1e310000#32, 0x7f3ffc00#32, .float2int, [.rd, .fn], 0⟩,
  ⟨"fcvtmu", 0x1ef10000#32, 0x7f3ffc00#32, .float2int, [.rd, .fn], 0⟩,
  ⟨"fcvtzs", 0x1e380000#32, 0x7f3ffc00#32, .float2int, [.rd, .fn], 0⟩,
  ⟨"fcvtzs", 0x1ef80000#32, 0x7f3ffc00#32, .float2int, [.rd, .fn], 0⟩,
  ⟨"fcvtzu", 0x1e390000#32, 0x7f3ffc00#32, .float2int, [.rd, .fn], 0⟩,
  ⟨"fcvtzu", 0x1ef90000#32, 0x7f3ffc00#32, .float2int, [.rd, .fn], 0⟩,
  ⟨"fmov", 0x9eae0000#32, 0xfffffc00#32, .float2int, [.rd, .vnD1], 0⟩,
  ⟨"fmov", 0x9eaf0000#32, 0xfffffc00#32, .float2int, [.vdD1, .rn], 0⟩,
  ⟨"fccmp", 0x1e200400#32, 0xff200c10#32, .floatccmp, [.fn, .fm, .nzcv, .cond], 0⟩,
  ⟨"fccmp", 0x1ee00400#32, 0xff200c10#32, .floatccmp, [.fn, .fm, .nzcv, .cond], 0⟩,
  ⟨"fccmpe", 0x1e200410#32, 0xff200c10#32, .floatccmp, [.fn, .fm, .nzcv, .cond], 0⟩,
  ⟨"fccmpe", 0x1ee00410#32, 0xff200c10#32, .floatccmp, [.fn, .fm, .nzcv, .cond], 0⟩,
  ⟨"fcmp", 0x1e202000#32, 0xff20fc1f#32, .floatcmp, [.fn, .fm], 0⟩,
  ⟨"fcmp", 0x1ee02000#32, 0xff20fc1f#32, .floatcmp, [.fn, .fm], 0⟩,
  ⟨"fcmpe", 0x1e202010#32, 0xff20fc1f#32, .floatcmp, [.fn, .fm], 0⟩,
  ⟨"fcmpe", 0x1ee02010#32, 0xff20fc1f#32, .floatcmp, [.fn, .fm], 0⟩,
  ⟨"fcmp", 0x1e202008#32, 0xff20fc1f#32, .floatcmp, [.fn, .fpimm0], 0⟩,
  ⟨"fcmp", 0x1ee02008#32, 0xff20fc1f#32, .floatcmp, [.fn, .fpimm0], 0⟩,
  ⟨"fcmpe", 0x1e202018#32, 0xff20fc1f#32, .floatcmp, [.fn, .fpimm0], 0⟩,
  ⟨"fcmpe", 0x1ee02018#32, 0xff20fc1f#32, .floatcmp, [.fn, .fpimm0], 0⟩,
  ⟨"fmov", 0x1e204000#32, 0xff3ffc00#32, .floatdp1, [.fd, .fn], 0⟩,
  ⟨"fmov", 0x1ee04000#32, 0xff3ffc00#32, .floatdp1, [.fd, .fn], 0⟩,
  ⟨"fabs", 0x1e20c000#32, 0xff3ffc00#32, .floatdp1, [.fd, .fn], 0⟩,
  ⟨"fabs", 0x1ee0c000#32, 0xff3ffc00#32, .floatdp1, [.fd, .fn], 0⟩,
  ⟨"fneg", 0x1e214000#32, 0xff3ffc00#32, .floatdp1, [.fd, .fn], 0⟩,
  ⟨"fneg", 0x1ee14000#32, 0xff3ffc00#32, .floatdp1, [.fd, .fn], 0⟩,
  ⟨"fsqrt", 0x1e21c000#32, 0xff3ffc00#32, .floatdp1, [.fd, .fn], 0⟩,
  ⟨"fsqrt", 0x1ee1c000#32, 0xff3ffc00#32, .floatdp1, [.fd, .fn], 0⟩,
  ⟨"fcvt", 0x1e224000#32, 0xff3e7c00#32, .floatdp1, [.fd, .fn], 0⟩,
  ⟨"frintn", 0x1e244000#32, 0xff3ffc00#32, .floatdp1, [.fd, .fn], 0⟩,
  ⟨"frintn", 0x1ee44000#32, 0xff3ffc00#32, .floatdp1, [.fd, .fn], 0⟩,
  ⟨"frintp", 0x1e24c000#32, 0xff3ffc00#32, .floatdp1, [.fd, .fn], 0⟩,
  ⟨"frintp", 0x1ee4c000#32, 0xff3ffc00#32, .floatdp1, [.fd, .fn], 0⟩,
  ⟨"frintm", 0x1e254000#32, 0xff3ffc00#32, .floatdp1, [.fd, .fn], 0⟩,
  ⟨"frintm", 0x1ee54000#32, 0xff3ffc00#32, .floatdp1, [.fd, .fn], 0⟩,
  ⟨"frintz", 0x1e25c000#32, 0xff3ffc00#32, .floatdp1, [.fd, .fn], 0⟩,
  ⟨"frintz", 0x1ee5c000#32, 0xff3ffc00#32, .floatdp1, [.fd, .fn], 0⟩,
  ⟨"frinta", 0x1e264000#32, 0xff3ffc00#32, .floatdp1, [.fd, .fn], 0⟩,
  ⟨"frinta", 0x1ee64000#32, 0xff3ffc00#32, .floatdp1, [.fd, .fn], 0⟩,
  ⟨"frintx", 0x1e274000#32, 0xff3ffc00#32, .floatdp1, [.fd, .fn], 0⟩,
  ⟨"frintx", 0x1ee74000#32, 0xff3ffc00#32, .floatdp1, [.fd, .fn], 0⟩,
  ⟨"frinti", 0x1e27c000#32, 0xff3ffc00#32, .floatdp1, [.fd, .fn], 0⟩,
  ⟨"frinti", 0x1ee7c000#32, 0xff3ffc00#32, .floatdp1, [.fd, .fn], 0⟩]

/-- Rows from class `floatdp2` to `ldstnapairOffs`. -/
def opcodeRows9 : List Aarch64Opcode := [
  ⟨"fmul", 0x1e200800#32, 0xff20fc00#32, .floatdp2, [.fd, .fn, .fm], 0⟩,
  ⟨"fmul", 0x1ee00800#32, 0xff20fc00#32, .floatdp2, [.fd, .fn, .fm], 0⟩,
  ⟨"fdiv", 0x1e201800#32, 0xff20fc00#32, .floatdp2, [.fd, .fn, .fm], 0⟩,
  ⟨"fdiv", 0x1ee01800#32, 0xff20fc00#32, .floatdp2, [.fd, .fn, .fm], 0⟩,
  ⟨"fadd", 0x1e202800#32, 0xff20fc00#32, .floatdp2, [.fd, .fn, .fm], 0⟩,
  ⟨"fadd", 0x1ee02800#32, 0xff20fc00#32, .floatdp2, [.fd, .fn, .fm], 0⟩,
  ⟨"fsub", 0x1e203800#32, 0xff20fc00#32, .floatdp2, [.fd, .fn, .fm], 0⟩,
  ⟨"fsub", 0x1ee03800#32, 0xff20fc00#32, .floatdp2, [.fd, .fn, .fm], 0⟩,
  ⟨"fmax", 0x1e204800#32, 0xff20fc00#32, .floatdp2, [.fd, .fn, .fm], 0⟩,
  ⟨"fmax", 0x1ee04800#32, 0xff20fc00#32, .floatdp2, [.fd, .fn, .fm], 0⟩,
  ⟨"fmin", 0x1e205800#32, 0xff20fc00#32, .floatdp2, [.fd, .fn, .fm], 0⟩,
  ⟨"fmin", 0x1ee05800#32, 0xff20fc00#32, .floatdp2, [.fd, .fn, .fm], 0⟩,
  ⟨"fmaxnm", 0x1e206800#32, 0xff20fc00#32, .floatdp2, [.fd, .fn, .fm], 0⟩,
  ⟨"fmaxnm", 0x1ee06800#32, 0xff20fc00#32, .floatdp2, [.fd, .fn, .fm], 0⟩,
  ⟨"fminnm", 0x1e207800#32, 0xff20fc00#32, .floatdp2, [.fd, .fn, .fm], 0⟩,
  ⟨"fminnm", 0x1ee07800#32, 0xff20fc00#32, .floatdp2, [.fd, .fn, .fm], 0⟩,
  ⟨"fnmul", 0x1e208800#32, 0xff20fc00#32, .floatdp2, [.fd, .fn, .fm], 0⟩,
  ⟨"fnmul", 0x1ee08800#32, 0xff20fc00#32, .floatdp2, [.fd, .fn, .fm], 0⟩,
  ⟨"fmadd", 0x1f000000#32, 0xff208000#32, .floatdp3, [.fd, .fn, .fm, .fa], 0⟩,
  ⟨"fmadd", 0x1fc00000#32, 0xff208000#32, .floatdp3, [.fd, .fn, .fm, .fa], 0⟩,
  ⟨"fmsub", 0x1f008000#32, 0xff208000#32, .floatdp3, [.fd, .fn, .fm, .fa], 0⟩,
  ⟨"fmsub", 0x1fc08000#32, 0xff208000#32, .floatdp3, [.fd, .fn, .fm, .fa], 0⟩,
  ⟨"fnmadd", 0x1f200000#32, 0xff208000#32, .floatdp3, [.fd, .fn, .fm, .fa], 0⟩,
  ⟨"fnmadd", 0x1fe00000#32, 0xff208000#32, .floatdp3, [.fd, .fn, .fm, .fa], 0⟩,
  ⟨"fnmsub", 0x1f208000#32, 0xff208000#32, .floatdp3, [.fd, .fn, .fm, .fa], 0⟩,
  ⟨"fnmsub", 0x1fe08000#32, 0xff208000#32, .floatdp3, [.fd, .fn, .fm, .fa], 0⟩,
  ⟨"fmov", 0x1e201000#32, 0xff201fe0#32, .floatimm, [.fd, .fpimm], 0⟩,
  ⟨"fmov", 0x1ee01000#32, 0xff201fe0#32, .floatimm, [.fd, .fpimm], 0⟩,
  ⟨"fcsel", 0x1e200c00#32, 0xff200c00#32, .floatsel, [.fd, .fn, .fm, .cond], 0⟩,
  ⟨"fcsel", 0x1ee00c00#32, 0xff200c00#32, .floatsel, [.fd, .fn, .fm, .cond], 0⟩,
  ⟨"strb", 0x38000400#32, 0xffe00400#32, .ldstImm9, [.rt, .addrSimm9], 0⟩,
  ⟨"ldrb", 0x38400400#32, 0xffe00400#32, .ldstImm9, [.rt, .addrSimm9], 0⟩,
  ⟨"ldrsb", 0x38800400#32, 0xffa00400#32, .ldstImm9, [.rt, .addrSimm9], 0⟩,
  ⟨"str", 0x3c000400#32, 0x3f600400#32, .ldstImm9, [.ft, .addrSimm9], 0⟩,
  ⟨"ldr", 0x3c400400#32, 0x3f600400#32, .ldstImm9, [.ft, .addrSimm9], 0⟩,
  ⟨"strh", 0x78000400#32, 0xffe00400#32, .ldstImm9, [.rt, .addrSimm9], 0⟩,
  ⟨"ldrh", 0x78400400#32, 0xffe00400#32, .ldstImm9, [.rt, .addrSimm9], 0⟩,
  ⟨"ldrsh", 0x78800400#32, 0xffa00400#32, .ldstImm9, [.rt, .addrSimm9], 0⟩,
  ⟨"str", 0xb8000400#32, 0xbfe00400#32, .ldstImm9, [.rt, .addrSimm9], 0⟩,
  ⟨"ldr", 0xb8400400#32, 0xbfe00400#32, .ldstImm9, [.rt, .addrSimm9], 0⟩,
  ⟨"ldrsw", 0xb8800400#32, 0xffe00400#32, .ldstImm9, [.rt, .addrSimm9], 0⟩,
  ⟨"strb", 0x39000000#32, 0xffc00000#32, .ldstPos, [.rt, .addrUimm12], 0⟩,
  ⟨"ldrb", 0x39400000#32, 0xffc00000#32, .ldstPos, [.rt, .addrUimm12], 0⟩,
  ⟨"ldrsb", 0x39800000#32, 0xff800000#32, .ldstPos, [.rt, .addrUimm12], 0⟩,
  ⟨"str", 0x3d000000#32, 0x3f400000#32, .ldstPos, [.ft, .addrUimm12], 0⟩,
  ⟨"ldr", 0x3d400000#32, 0x3f400000#32, .ldstPos, [.ft, .addrUimm12], 0⟩,
  ⟨"strh", 0x79000000#32, 0xffc00000#32, .ldstPos, [.rt, .addrUimm12], 0⟩,
  ⟨"ldrh", 0x79400000#32, 0xffc00000#32, .ldstPos, [.rt, .addrUimm12], 0⟩,
  ⟨"ldrsh", 0x79800000#32, 0xff800000#32, .ldstPos, [.rt, .addrUimm12], 0⟩,
  ⟨"str", 0xb9000000#32, 0xbfc00000#32, .ldstPos, [.rt, .addrUimm12], 0⟩,
  ⟨"ldr", 0xb9400000#32, 0xbfc00000#32, .ldstPos, [.rt, .addrUimm12], 0⟩,
  ⟨"ldrsw", 0xb9800000#32, 0xffc00000#32, .ldstPos, [.rt, .addrUimm12], 0⟩,
  ⟨"prfm", 0xf9800000#32, 0xffc00000#32, .ldstPos, [.prfop, .addrUimm12], 0⟩,
  ⟨"strb", 0x38200800#32, 0xffe00c00#32, .ldstRegoff, [.rt, .addrRegoff], 0⟩,
  ⟨"ldrb", 0x38600800#32, 0xffe00c00#32, .ldstRegoff, [.rt, .addrRegoff], 0⟩,
  ⟨"ldrsb", 0x38a00800#32, 0xffa00c00#32, .ldstRegoff, [.rt, .addrRegoff], 0⟩,
  ⟨"str", 0x3c200800#32, 0x3f600c00#32, .ldstRegoff, [.ft, .addrRegoff], 0⟩,
  ⟨"ldr", 0x3c600800#32, 0x3f600c00#32, .ldstRegoff, [.ft, .addrRegoff], 0⟩,
  ⟨"strh", 0x78200800#32, 0xffe00c00#32, .ldstRegoff, [.rt, .addrRegoff], 0⟩,
  ⟨"ldrh", 0x78600800#32, 0xffe00c00#32, .ldstRegoff, [.rt, .addrRegoff], 0⟩,
  ⟨"ldrsh", 0x78a00800#32, 0xffa00c00#32, .ldstRegoff, [.rt, .addrRegoff], 0⟩,
  ⟨"str", 0xb8200800#32, 0xbfe00c00#32, .ldstRegoff, [.rt, .addrRegoff], 0⟩,
  ⟨"ldr", 0xb8600800#32, 0xbfe00c00#32, .ldstRegoff, [.rt, .addrRegoff], 0⟩,
  ⟨"ldrsw", 0xb8a00800#32, 0xffe00c00#32, .ldstRegoff, [.rt, .addrRegoff], 0⟩,
  ⟨"prfm", 0xf8a00800#32, 0xffe00c00#32, .ldstRegoff, [.prfop, .addrRegoff], 0⟩,
  ⟨"sttrb", 0x38000800#32, 0xffe00c00#32, .ldstUnpriv, [.rt, .addrSimm9], 0⟩,
  ⟨"ldtrb", 0x38400800#32, 0xffe00c00#32, .ldstUnpriv, [.rt, .addrSimm9], 0⟩,
  ⟨"ldtrsb", 0x38800800#32, 0xffa00c00#32, .ldstUnpriv, [.rt, .addrSimm9], 0⟩,
  ⟨"sttrh", 0x78000800#32, 0xffe00c00#32, .ldstUnpriv, [.rt, .addrSimm9], 0⟩,
  ⟨"ldtrh", 0x78400800#32, 0xffe00c00#32, .ldstUnpriv, [.rt, .addrSimm9], 0⟩,
  ⟨"ldtrsh", 0x78800800#32, 0xffa00c00#32, .ldstUnpriv, [.rt, .addrSimm9], 0⟩,
  ⟨"sttr", 0xb8000800#32, 0xbfe00c00#32, .ldstUnpriv, [.rt, .addrSimm9], 0⟩,
  ⟨"ldtr", 0xb8400800#32, 0xbfe00c00#32, .ldstUnpriv, [.rt, .addrSimm9], 0⟩,
  ⟨"ldtrsw", 0xb8800800#32, 0xffe00c00#32, .ldstUnpriv, [.rt, .addrSimm9], 0⟩,
  ⟨"sturb", 0x38000000#32, 0xffe00c00#32, .ldstUnscaled, [.rt, .addrSimm9], 0⟩,
  ⟨"ldurb", 0x38400000#32, 0xffe00c00#32, .ldstUnscaled, [.rt, .addrSimm9], 0⟩,
  ⟨"ldursb", 0x38800000#32, 0xffa00c00#32, .ldstUnscaled, [.rt, .addrSimm9], 0⟩,
  ⟨"stur", 0x3c000000#32, 0x3f600c00#32, .ldstUnscaled, [.ft, .addrSimm9], 0⟩,
  ⟨"ldur", 0x3c400000#32, 0x3f600c00#32, .ldstUnscaled, [.ft, .addrSimm9], 0⟩,
  ⟨"sturh", 0x78000000#32, 0xffe00c00#32, .ldstUnscaled, [.rt, .addrSimm9], 0⟩,
  ⟨"ldurh", 0x78400000#32, 0xffe00c00#32, .ldstUnscaled, [.rt, .addrSimm9], 0⟩,
  ⟨"ldursh", 0x78800000#32, 0xffa00c00#32, .ldstUnscaled, [.rt, .addrSimm9], 0⟩,
  ⟨"stur", 0xb8000000#32, 0xbfe00c00#32, .ldstUnscaled, [.rt, .addrSimm9], 0⟩,
  ⟨"ldur", 0xb8400000#32, 0xbfe00c00#32, .ldstUnscaled, [.rt, .addrSimm9], 0⟩,
  ⟨"ldursw", 0xb8800000#32, 0xffe00c00#32, .ldstUnscaled, [.rt, .addrSimm9], 0⟩,
  ⟨"prfum", 0xf8800000#32, 0xffe00c00#32, .ldstUnscaled, [.prfop, .addrSimm9], 0⟩,
  ⟨"stxrb", 0x8007c00#32, 0xffe08000#32, .ldstexcl, [.rs, .rt, .addrSimple], 0⟩,
  ⟨"stlxrb", 0x800fc00#32, 0xffe08000#32, .ldstexcl, [.rs, .rt, .addrSimple], 0⟩,
  ⟨"ldxrb", 0x85f7c00#32, 0xffe08000#32, .ldstexcl, [.rt, .addrSimple], 0⟩,
  ⟨"ldaxrb", 0x85ffc00#32, 0xffe08000#32, .ldstexcl, [.rt, .addrSimple], 0⟩,
  ⟨"stlrb", 0x89ffc00#32, 0xffe08000#32, .ldstexcl, [.rt, .addrSimple], 0⟩,
  ⟨"ldarb", 0x8dffc00#32, 0xffeffc00#32, .ldstexcl, [.rt, .addrSimple], 0⟩,
  ⟨"stxrh", 0x48007c00#32, 0xffe08000#32, .ldstexcl, [.rs, .rt, .addrSimple], 0⟩,
  ⟨"stlxrh", 0x4800fc00#32, 0xffe08000#32, .ldstexcl, [.rs, .rt, .addrSimple], 0⟩,
  ⟨"ldxrh", 0x485f7c00#32, 0xffe08000#32, .ldstexcl, [.rt, .addrSimple], 0⟩,
  ⟨"ldaxrh", 0x485ffc00#32, 0xffe08000#32, .ldstexcl, [.rt, .addrSimple], 0⟩,
  ⟨"stlrh", 0x489ffc00#32, 0xffe08000#32, .ldstexcl, [.rt, .addrSimple], 0⟩,
  ⟨"ldarh", 0x48dffc00#32, 0xffeffc00#32, .ldstexcl, [.rt, .addrSimple], 0⟩,
  ⟨"stxr", 0x88007c00#32, 0xbfe08000#32, .ldstexcl, [.rs, .rt, .addrSimple], 0⟩,
  ⟨"stlxr", 0x8800fc00#32, 0xbfe08000#32, .ldstexcl, [.rs, .rt, .addrSimple], 0⟩,
  ⟨"stxp", 0x88200000#32, 0xbfe08000#32, .ldstexcl, [.rs, .rt, .rt2, .addrSimple], 0⟩,
  ⟨"stlxp", 0x88208000#32, 0xbfe08000#32, .ldstexcl, [.rs, .rt, .rt2, .addrSimple], 0⟩,
  ⟨"ldxr", 0x885f7c00#32, 0xbfe08000#32, .ldstexcl, [.rt, .addrSimple], 0⟩,
  ⟨"ldaxr", 0x885ffc00#32, 0xbfe08000#32, .ldstexcl, [.rt, .addrSimple], 0⟩,
  ⟨"ldxp", 0x887f0000#32, 0xbfe08000#32, .ldstexcl, [.rt, .rt2, .addrSimple], 0⟩,
  ⟨"ldaxp", 0x887f8000#32, 0xbfe08000#32, .ldstexcl, [.rt, .rt2, .addrSimple], 0⟩,
  ⟨"stlr", 0x889ffc00#32, 0xbfe08000#32, .ldstexcl, [.rt, .addrSimple], 0⟩,
  ⟨"ldar", 0x88dffc00#32, 0xbfeffc00#32, .ldstexcl, [.rt, .addrSimple], 0⟩,
  ⟨"ldlar", 0x88df7c00#32, 0xbfe08000#32, .ldstexcl, [.rt, .addrSimple], 0⟩,
  ⟨"ldlarb", 0x08df7c00#32, 0xffe08000#32, .ldstexcl, [.rt, .addrSimple], 0⟩,
  ⟨"ldlarh", 0x48df7c00#32, 0xffe08000#32, .ldstexcl, [.rt, .addrSimple], 0⟩,
  ⟨"stllr", 0x889f7c00#32, 0xbfe08000#32, .ldstexcl, [.rt, .addrSimple], 0⟩,
  ⟨"stllrb", 0x089f7c00#32, 0xffe08000#32, .ldstexcl, [.rt, .addrSimple], 0⟩,
  ⟨"stllrh", 0x489f7c00#32, 0xbfe08000#32, .ldstexcl, [.rt, .addrSimple], 0⟩,
  ⟨"stnp", 0x28000000#32, 0x7fc00000#32, .ldstnapairOffs, [.rt, .rt2, .addrSimm7], 0⟩,
  ⟨"ldnp", 0x28400000#32, 0x7fc00000#32, .ldstnapairOffs, [.rt, .rt2, .addrSimm7], 0⟩,
  ⟨"stnp", 0x2c000000#32, 0x3fc00000#32, .ldstnapairOffs, [.ft, .ft2, .addrSimm7], 0⟩,
  ⟨"ldnp", 0x2c400000#32, 0x3fc00000#32, .ldstnapairOffs, [.ft, .ft2, .addrSimm7], 0⟩]

/-- Rows from class `ldstpairOff` to `ldstUnscaled`. -/
def opcodeRows10 : List Aarch64Opcode := [
  ⟨"stp", 0x29000000#32, 0x7ec00000#32, .ldstpairOff, [.rt, .rt2, .addrSimm7], 0⟩,
  ⟨"ldp", 0x29400000#32, 0x7ec00000#32, .ldstpairOff, [.rt, .rt2, .addrSimm7], 0⟩,
  ⟨"stp", 0x2d000000#32, 0x3fc00000#32, .ldstpairOff, [.ft, .ft2, .addrSimm7], 0⟩,
  ⟨"ldp", 0x2d400000#32, 0x3fc00000#32, .ldstpairOff, [.ft, .ft2, .addrSimm7], 0⟩,
  ⟨"ldpsw", 0x69400000#32, 0xffc00000#32, .ldstpairOff, [.rt, .rt2, .addrSimm7], 0⟩,
  ⟨"stp", 0x28800000#32, 0x7ec00000#32, .ldstpairIndexed, [.rt, .rt2, .addrSimm7], 0⟩,
  ⟨"ldp", 0x28c00000#32, 0x7ec00000#32, .ldstpairIndexed, [.rt, .rt2, .addrSimm7], 0⟩,
  ⟨"stp", 0x2c800000#32, 0x3ec00000#32, .ldstpairIndexed, [.ft, .ft2, .addrSimm7], 0⟩,
  ⟨"ldp", 0x2cc00000#32, 0x3ec00000#32, .ldstpairIndexed, [.ft, .ft2, .addrSimm7], 0⟩,
  ⟨"ldpsw", 0x68c00000#32, 0xfec00000#32, .ldstpairIndexed, [.rt, .rt2, .addrSimm7], 0⟩,
  ⟨"ldr", 0x18000000#32, 0xbf000000#32, .loadlit, [.rt, .addrPcrel19], 0⟩,
  ⟨"ldr", 0x1c000000#32, 0x3f000000#32, .loadlit, [.ft, .addrPcrel19], 0⟩,
  ⟨"ldrsw", 0x98000000#32, 0xff000000#32, .loadlit, [.rt, .addrPcrel19], 0⟩,
  ⟨"prfm", 0xd8000000#32, 0xff000000#32, .loadlit, [.prfop, .addrPcrel19], 0⟩,
  ⟨"and", 0x12000000#32, 0x7f800000#32, .logImm, [.rdSp, .rn, .limm], 0⟩,
  ⟨"bic", 0x12000000#32, 0x7f800000#32, .logImm, [.rdSp, .rn, .limm], fAlias⟩,
  ⟨"orr", 0x32000000#32, 0x7f800000#32, .logImm, [.rdSp, .rn, .limm], 0⟩,
  ⟨"mov", 0x320003e0#32, 0x7f8003e0#32, .logImm, [.rdSp, .immMov], fAlias ||| fConv⟩,
  ⟨"eor", 0x52000000#32, 0x7f800000#32, .logImm, [.rdSp, .rn, .limm], 0⟩,
  ⟨"ands", 0x72000000#32, 0x7f800000#32, .logImm, [.rd, .rn, .limm], 0⟩,
  ⟨"tst", 0x7200001f#32, 0x7f80001f#32, .logImm, [.rn, .limm], fAlias⟩,
  ⟨"and", 0xa000000#32, 0x7f200000#32, .logShift, [.rd, .rn, .rmSft], 0⟩,
  ⟨"bic", 0xa200000#32, 0x7f200000#32, .logShift, [.rd, .rn, .rmSft], 0⟩,
  ⟨"orr", 0x2a000000#32, 0x7f200000#32, .logShift, [.rd, .rn, .rmSft], 0⟩,
  ⟨"mov", 0x2a0003e0#32, 0x7f2003e0#32, .logShift, [.rd, .rm], fAlias⟩,
  ⟨"uxtw", 0x2a0003e0#32, 0x7f2003e0#32, .logShift, [.rd, .rm], fAlias⟩,
  ⟨"orn", 0x2a200000#32, 0x7f200000#32, .logShift, [.rd, .rn, .rmSft], 0⟩,
  ⟨"mvn", 0x2a2003e0#32, 0x7f2003e0#32, .logShift, [.rd, .rmSft], fAlias⟩,
  ⟨"eor", 0x4a000000#32, 0x7f200000#32, .logShift, [.rd, .rn, .rmSft], 0⟩,
  ⟨"eon", 0x4a200000#32, 0x7f200000#32, .logShift, [.rd, .rn, .rmSft], 0⟩,
  ⟨"ands", 0x6a000000#32, 0x7f200000#32, .logShift, [.rd, .rn, .rmSft], 0⟩,
  ⟨"tst", 0x6a00001f#32, 0x7f20001f#32, .logShift, [.rn, .rmSft], fAlias⟩,
  ⟨"bics", 0x6a200000#32, 0x7f200000#32, .logShift, [.rd, .rn, .rmSft], 0⟩,
  ⟨"casb", 0x8a07c00#32, 0xffe0fc00#32, .lseAtomic, [.rs, .rt, .addrSimple], 0⟩,
  ⟨"cash", 0x48a07c00#32, 0xffe0fc00#32, .lseAtomic, [.rs, .rt, .addrSimple], 0⟩,
  ⟨"cas", 0x88a07c00#32, 0xbfe0fc00#32, .lseAtomic, [.rs, .rt, .addrSimple], 0⟩,
  ⟨"casab", 0x8e07c00#32, 0xffe0fc00#32, .lseAtomic, [.rs, .rt, .addrSimple], 0⟩,
  ⟨"caslb", 0x8a0fc00#32, 0xffe0fc00#32, .lseAtomic, [.rs, .rt, .addrSimple], 0⟩,
  ⟨"casalb", 0x8e0fc00#32, 0xffe0fc00#32, .lseAtomic, [.rs, .rt, .addrSimple], 0⟩,
  ⟨"casah", 0x48e07c00#32, 0xffe0fc00#32, .lseAtomic, [.rs, .rt, .addrSimple], 0⟩,
  ⟨"caslh", 0x48a0fc00#32, 0xffe0fc00#32, .lseAtomic, [.rs, .rt, .addrSimple], 0⟩,
  ⟨"casalh", 0x48e0fc00#32, 0xffe0fc00#32, .lseAtomic, [.rs, .rt, .addrSimple], 0⟩,
  ⟨"casa", 0x88e07c00#32, 0xbfe0fc00#32, .lseAtomic, [.rs, .rt, .addrSimple], 0⟩,
  ⟨"casl", 0x88a0fc00#32, 0xbfe0fc00#32, .lseAtomic, [.rs, .rt, .addrSimple], 0⟩,
  ⟨"casal", 0x88e0fc00#32, 0xbfe0fc00#32, .lseAtomic, [.rs, .rt, .addrSimple], 0⟩,
  ⟨"casp", 0x8207c00#32, 0xbfe0fc00#32, .lseAtomic, [.rs, .pairreg, .rt, .pairreg, .addrSimple], 0⟩,
  ⟨"caspa", 0x8607c00#32, 0xbfe0fc00#32, .lseAtomic, [.rs, .pairreg, .rt, .pairreg, .addrSimple], 0⟩,
  ⟨"caspl", 0x820fc00#32, 0xbfe0fc00#32, .lseAtomic, [.rs, .pairreg, .rt, .pairreg, .addrSimple], 0⟩,
  ⟨"caspal", 0x860fc00#32, 0xbfe0fc00#32, .lseAtomic, [.rs, .pairreg, .rt, .pairreg, .addrSimple], 0⟩,
  ⟨"swpb", 0x38208000#32, 0xffe0fc00#32, .lseAtomic, [.rs, .rt, .addrSimple], 0⟩,
  ⟨"swph", 0x78208000#32, 0xffe0fc00#32, .lseAtomic, [.rs, .rt, .addrSimple], 0⟩,
  ⟨"swp", 0xb8208000#32, 0xbfe0fc00#32, .lseAtomic, [.rs, .rt, .addrSimple], 0⟩,
  ⟨"swpab", 0x38a08000#32, 0xffe0fc00#32, .lseAtomic, [.rs, .rt, .addrSimple], 0⟩,
  ⟨"swplb", 0x38608000#32, 0xffe0fc00#32, .lseAtomic, [.rs, .rt, .addrSimple], 0⟩,
  ⟨"swpalb", 0x38e08000#32, 0xffe0fc00#32, .lseAtomic, [.rs, .rt, .addrSimple], 0⟩,
  ⟨"swpah", 0x78a08000#32, 0xffe0fc00#32, .lseAtomic, [.rs, .rt, .addrSimple], 0⟩,
  ⟨"swplh", 0x78608000#32, 0xffe0fc00#32, .lseAtomic, [.rs, .rt, .addrSimple], 0⟩,
  ⟨"swpalh", 0x78e08000#32, 0xffe0fc00#32, .lseAtomic, [.rs, .rt, .addrSimple], 0⟩,
  ⟨"swpa", 0xb8a08000#32, 0xbfe0fc00#32, .lseAtomic, [.rs, .rt, .addrSimple], 0⟩,
  ⟨"swpl", 0xb8608000#32, 0xbfe0fc00#32, .lseAtomic, [.rs, .rt, .addrSimple], 0⟩,
  ⟨"swpal", 0xb8e08000#32, 0xbfe0fc00#32, .lseAtomic, [.rs, .rt, .addrSimple], 0⟩,
  ⟨"ldapr", 0xb8bfc000#32, 0xbffffc00#32, .lseAtomic, [.rt, .addrSimple], 0⟩,
  ⟨"ldaprb", 0x38bfc000#32, 0xfffffc00#32, .lseAtomic, [.rt, .addrSimple], 0⟩,
  ⟨"ldaprh", 0x78bfc000#32, 0xfffffc00#32, .lseAtomic, [.rt, .addrSimple], 0⟩,
  ⟨"stlurb", 0x19000000#32, 0xffe00c00#32, .ldstUnscaled, [.rt, .addrSimm9], 0⟩,
  ⟨"ldapurb", 0x19400000#32, 0xffe00c00#32, .ldstUnscaled, [.rt, .addrSimm9], 0⟩,
  ⟨"ldapursb", 0x19800000#32, 0xffe00c00#32, .ldstUnscaled, [.rt, .addrSimm9], 0⟩,
  ⟨"stlurh", 0x59000000#32, 0xffe00c00#32, .ldstUnscaled, [.rt, .addrSimm9], 0⟩,
  ⟨"ldapurh", 0x59400000#32, 0xffe00c00#32, .ldstUnscaled, [.rt, .addrSimm9], 0⟩,
  ⟨"ldapursh", 0x59800000#32, 0xffe00c00#32, .ldstUnscaled, [.rt, .addrSimm9], 0⟩,
  ⟨"stlur", 0x99000000#32, 0xffe00c00#32, .ldstUnscaled, [.rt, .addrSimm9], 0⟩,
  ⟨"ldapur", 0x99400000#32, 0xffe00c00#32, .ldstUnscaled, [.rt, .addrSimm9], 0⟩,
  ⟨"ldapursw", 0x99800000#32, 0xffe00c00#32, .ldstUnscaled, [.rt, .addrSimm9], 0⟩,
  ⟨"stlur", 0xd9000000#32, 0xffe00c00#32, .ldstUnscaled, [.rt, .addrSimm9], 0⟩,
  ⟨"ldapur", 0xd9400000#32, 0xffe00c00#32, .ldstUnscaled, [.rt, .addrSimm9], 0⟩]

/-- Rows of class `lseAtomic`. -/
def opcodeRows11 : List Aarch64Opcode := [
  ⟨"ldaddb", 0x38200000#32, 0xffe0fc00#32, .lseAtomic, [.rs, .rt, .addrSimple], 0⟩,
  ⟨"ldaddh", 0x78200000#32, 0xffe0fc00#32, .lseAtomic, [.rs, .rt, .addrSimple], 0⟩,
  ⟨"ldadd", 0xb8200000#32, 0xbfe0fc00#32, .lseAtomic, [.rs, .rt, .addrSimple], 0⟩,
  ⟨"ldaddab", 0x38a00000#32, 0xffe0fc00#32, .lseAtomic, [.rs, .rt, .addrSimple], 0⟩,
  ⟨"ldaddlb", 0x38600000#32, 0xffe0fc00#32, .lseAtomic, [.rs, .rt, .addrSimple], 0⟩,
  ⟨"ldaddalb", 0x38e00000#32, 0xffe0fc00#32, .lseAtomic, [.rs, .rt, .addrSimple], 0⟩,
  ⟨"ldaddah", 0x78a00000#32, 0xffe0fc00#32, .lseAtomic, [.rs, .rt, .addrSimple], 0⟩,
  ⟨"ldaddlh", 0x78600000#32, 0xffe0fc00#32, .lseAtomic, [.rs, .rt, .addrSimple], 0⟩,
  ⟨"ldaddalh", 0x78e00000#32, 0xffe0fc00#32, .lseAtomic, [.rs, .rt, .addrSimple], 0⟩,
  ⟨"ldadda", 0xb8a00000#32, 0xbfe0fc00#32, .lseAtomic, [.rs, .rt, .addrSimple], 0⟩,
  ⟨"ldaddl", 0xb8600000#32, 0xbfe0fc00#32, .lseAtomic, [.rs, .rt, .addrSimple], 0⟩,
  ⟨"ldaddal", 0xb8e00000#32, 0xbfe0fc00#32, .lseAtomic, [.rs, .rt, .addrSimple], 0⟩,
  ⟨"ldclrb", 0x38201000#32, 0xffe0fc00#32, .lseAtomic, [.rs, .rt, .addrSimple], 0⟩,
  ⟨"ldclrh", 0x78201000#32, 0xffe0fc00#32, .lseAtomic, [.rs, .rt, .addrSimple], 0⟩,
  ⟨"ldclr", 0xb8201000#32, 0xbfe0fc00#32, .lseAtomic, [.rs, .rt, .addrSimple], 0⟩,
  ⟨"ldclrab", 0x38a01000#32, 0xffe0fc00#32, .lseAtomic, [.rs, .rt, .addrSimple], 0⟩,
  ⟨"ldclrlb", 0x38601000#32, 0xffe0fc00#32, .lseAtomic, [.rs, .rt, .addrSimple], 0⟩,
  ⟨"ldclralb", 0x38e01000#32, 0xffe0fc00#32, .lseAtomic, [.rs, .rt, .addrSimple], 0⟩,
  ⟨"ldclrah", 0x78a01000#32, 0xffe0fc00#32, .lseAtomic, [.rs, .rt, .addrSimple], 0⟩,
  ⟨"ldclrlh", 0x78601000#32, 0xffe0fc00#32, .lseAtomic, [.rs, .rt, .addrSimple], 0⟩,
  ⟨"ldclralh", 0x78e01000#32, 0xffe0fc00#32, .lseAtomic, [.rs, .rt, .addrSimple], 0⟩,
  ⟨"ldclra", 0xb8a01000#32, 0xbfe0fc00#32, .lseAtomic, [.rs, .rt, .addrSimple], 0⟩,
  ⟨"ldclrl", 0xb8601000#32, 0xbfe0fc00#32, .lseAtomic, [.rs, .rt, .addrSimple], 0⟩,
  ⟨"ldclral", 0xb8e01000#32, 0xbfe0fc00#32, .lseAtomic, [.rs, .rt, .addrSimple], 0⟩,
  ⟨"ldeorb", 0x38202000#32, 0xffe0fc00#32, .lseAtomic, [.rs, .rt, .addrSimple], 0⟩,
  ⟨"ldeorh", 0x78202000#32, 0xffe0fc00#32, .lseAtomic, [.rs, .rt, .addrSimple], 0⟩,
  ⟨"ldeor", 0xb8202000#32, 0xbfe0fc00#32, .lseAtomic, [.rs, .rt, .addrSimple], 0⟩,
  ⟨"ldeorab", 0x38a02000#32, 0xffe0fc00#32, .lseAtomic, [.rs, .rt, .addrSimple], 0⟩,
  ⟨"ldeorlb", 0x38602000#32, 0xffe0fc00#32, .lseAtomic, [.rs, .rt, .addrSimple], 0⟩,
  ⟨"ldeoralb", 0x38e02000#32, 0xffe0fc00#32, .lseAtomic, [.rs, .rt, .addrSimple], 0⟩,
  ⟨"ldeorah", 0x78a02000#32, 0xffe0fc00#32, .lseAtomic, [.rs, .rt, .addrSimple], 0⟩,
  ⟨"ldeorlh", 0x78602000#32, 0xffe0fc00#32, .lseAtomic, [.rs, .rt, .addrSimple], 0⟩,
  ⟨"ldeoralh", 0x78e02000#32, 0xffe0fc00#32, .lseAtomic, [.rs, .rt, .addrSimple], 0⟩,
  ⟨"ldeora", 0xb8a02000#32, 0xbfe0fc00#32, .lseAtomic, [.rs, .rt, .addrSimple], 0⟩,
  ⟨"ldeorl", 0xb8602000#32, 0xbfe0fc00#32, .lseAtomic, [.rs, .rt, .addrSimple], 0⟩,
  ⟨"ldeoral", 0xb8e02000#32, 0xbfe0fc00#32, .lseAtomic, [.rs, .rt, .addrSimple], 0⟩,
  ⟨"ldsetb", 0x38203000#32, 0xffe0fc00#32, .lseAtomic, [.rs, .rt, .addrSimple], 0⟩,
  ⟨"ldseth", 0x78203000#32, 0xffe0fc00#32, .lseAtomic, [.rs, .rt, .addrSimple], 0⟩,
  ⟨"ldset", 0xb8203000#32, 0xbfe0fc00#32, .lseAtomic, [.rs, .rt, .addrSimple], 0⟩,
  ⟨"ldsetab", 0x38a03000#32, 0xffe0fc00#32, .lseAtomic, [.rs, .rt, .addrSimple], 0⟩,
  ⟨"ldsetlb", 0x38603000#32, 0xffe0fc00#32, .lseAtomic, [.rs, .rt, .addrSimple], 0⟩,
  ⟨"ldsetalb", 0x38e03000#32, 0xffe0fc00#32, .lseAtomic, [.rs, .rt, .addrSimple], 0⟩,
  ⟨"ldsetah", 0x78a03000#32, 0xffe0fc00#32, .lseAtomic, [.rs, .rt, .addrSimple], 0⟩,
  ⟨"ldsetlh", 0x78603000#32, 0xffe0fc00#32, .lseAtomic, [.rs, .rt, .addrSimple], 0⟩,
  ⟨"ldsetalh", 0x78e03000#32, 0xffe0fc00#32, .lseAtomic, [.rs, .rt, .addrSimple], 0⟩,
  ⟨"ldseta", 0xb8a03000#32, 0xbfe0fc00#32, .lseAtomic, [.rs, .rt, .addrSimple], 0⟩,
  ⟨"ldsetl", 0xb8603000#32, 0xbfe0fc00#32, .lseAtomic, [.rs, .rt, .addrSimple], 0⟩,
  ⟨"ldsetal", 0xb8e03000#32, 0xbfe0fc00#32, .lseAtomic, [.rs, .rt, .addrSimple], 0⟩,
  ⟨"ldsmaxb", 0x38204000#32, 0xffe0fc00#32, .lseAtomic, [.rs, .rt, .addrSimple], 0⟩,
  ⟨"ldsmaxh", 0x78204000#32, 0xffe0fc00#32, .lseAtomic, [.rs, .rt, .addrSimple], 0⟩,
  ⟨"ldsmax", 0xb8204000#32, 0xbfe0fc00#32, .lseAtomic, [.rs, .rt, .addrSimple], 0⟩,
  ⟨"ldsmaxab", 0x38a04000#32, 0xffe0fc00#32, .lseAtomic, [.rs, .rt, .addrSimple], 0⟩,
  ⟨"ldsmaxlb", 0x38604000#32, 0xffe0fc00#32, .lseAtomic, [.rs, .rt, .addrSimple], 0⟩,
  ⟨"ldsmaxalb", 0x38e04000#32, 0xffe0fc00#32, .lseAtomic, [.rs, .rt, .addrSimple], 0⟩,
  ⟨"ldsmaxah", 0x78a04000#32, 0xffe0fc00#32, .lseAtomic, [.rs, .rt, .addrSimple], 0⟩,
  ⟨"ldsmaxlh", 0x78604000#32, 0xffe0fc00#32, .lseAtomic, [.rs, .rt, .addrSimple], 0⟩,
  ⟨"ldsmaxalh", 0x78e04000#32, 0xffe0fc00#32, .lseAtomic, [.rs, .rt, .addrSimple], 0⟩,
  ⟨"ldsmaxa", 0xb8a04000#32, 0xbfe0fc00#32, .lseAtomic, [.rs, .rt, .addrSimple], 0⟩,
  ⟨"ldsmaxl", 0xb8604000#32, 0xbfe0fc00#32, .lseAtomic, [.rs, .rt, .addrSimple], 0⟩,
  ⟨"ldsmaxal", 0xb8e04000#32, 0xbfe0fc00#32, .lseAtomic, [.rs, .rt, .addrSimple], 0⟩,
  ⟨"ldsminb", 0x38205000#32, 0xffe0fc00#32, .lseAtomic, [.rs, .rt, .addrSimple], 0⟩,
  ⟨"ldsminh", 0x78205000#32, 0xffe0fc00#32, .lseAtomic, [.rs, .rt, .addrSimple], 0⟩,
  ⟨"ldsmin", 0xb8205000#32, 0xbfe0fc00#32, .lseAtomic, [.rs, .rt, .addrSimple], 0⟩,
  ⟨"ldsminab", 0x38a05000#32, 0xffe0fc00#32, .lseAtomic, [.rs, .rt, .addrSimple], 0⟩,
  ⟨"ldsminlb", 0x38605000#32, 0xffe0fc00#32, .lseAtomic, [.rs, .rt, .addrSimple], 0⟩,
  ⟨"ldsminalb", 0x38e05000#32, 0xffe0fc00#32, .lseAtomic, [.rs, .rt, .addrSimple], 0⟩,
  ⟨"ldsminah", 0x78a05000#32, 0xffe0fc00#32, .lseAtomic, [.rs, .rt, .addrSimple], 0⟩,
  ⟨"ldsminlh", 0x78605000#32, 0xffe0fc00#32, .lseAtomic, [.rs, .rt, .addrSimple], 0⟩,
  ⟨"ldsminalh", 0x78e05000#32, 0xffe0fc00#32, .lseAtomic, [.rs, .rt, .addrSimple], 0⟩,
  ⟨"ldsmina", 0xb8a05000#32, 0xbfe0fc00#32, .lseAtomic, [.rs, .rt, .addrSimple], 0⟩,
  ⟨"ldsminl", 0xb8605000#32, 0xbfe0fc00#32, .lseAtomic, [.rs, .rt, .addrSimple], 0⟩,
  ⟨"ldsminal", 0xb8e05000#32, 0xbfe0fc00#32, .lseAtomic, [.rs, .rt, .addrSimple], 0⟩,
  ⟨"ldumaxb", 0x38206000#32, 0xffe0fc00#32, .lseAtomic, [.rs, .rt, .addrSimple], 0⟩,
  ⟨"ldumaxh", 0x78206000#32, 0xffe0fc00#32, .lseAtomic, [.rs, .rt, .addrSimple], 0⟩,
  ⟨"ldumax", 0xb8206000#32, 0xbfe0fc00#32, .lseAtomic, [.rs, .rt, .addrSimple], 0⟩,
  ⟨"ldumaxab", 0x38a06000#32, 0xffe0fc00#32, .lseAtomic, [.rs, .rt, .addrSimple], 0⟩,
  ⟨"ldumaxlb", 0x38606000#32, 0xffe0fc00#32, .lseAtomic, [.rs, .rt, .addrSimple], 0⟩,
  ⟨"ldumaxalb", 0x38e06000#32, 0xffe0fc00#32, .lseAtomic, [.rs, .rt, .addrSimple], 0⟩,
  ⟨"ldumaxah", 0x78a06000#32, 0xffe0fc00#32, .lseAtomic, [.rs, .rt, .addrSimple], 0⟩,
  ⟨"ldumaxlh", 0x78606000#32, 0xffe0fc00#32, .lseAtomic, [.rs, .rt, .addrSimple], 0⟩,
  ⟨"ldumaxalh", 0x78e06000#32, 0xffe0fc00#32, .lseAtomic, [.rs, .rt, .addrSimple], 0⟩,
  ⟨"ldumaxa", 0xb8a06000#32, 0xbfe0fc00#32, .lseAtomic, [.rs, .rt, .addrSimple], 0⟩,
  ⟨"ldumaxl", 0xb8606000#32, 0xbfe0fc00#32, .lseAtomic, [.rs, .rt, .addrSimple], 0⟩,
  ⟨"ldumaxal", 0xb8e06000#32, 0xbfe0fc00#32, .lseAtomic, [.rs, .rt, .addrSimple], 0⟩,
  ⟨"lduminb", 0x38207000#32, 0xffe0fc00#32, .lseAtomic, [.rs, .rt, .addrSimple], 0⟩,
  ⟨"lduminh", 0x78207000#32, 0xffe0fc00#32, .lseAtomic, [.rs, .rt, .addrSimple], 0⟩,
  ⟨"ldumin", 0xb8207000#32, 0xbfe0fc00#32, .lseAtomic, [.rs, .rt, .addrSimple], 0⟩,
  ⟨"lduminab", 0x38a07000#32, 0xffe0fc00#32, .lseAtomic, [.rs, .rt, .addrSimple], 0⟩,
  ⟨"lduminlb", 0x38607000#32, 0xffe0fc00#32, .lseAtomic, [.rs, .rt, .addrSimple], 0⟩,
  ⟨"lduminalb", 0x38e07000#32, 0xffe0fc00#32, .lseAtomic, [.rs, .rt, .addrSimple], 0⟩,
  ⟨"lduminah", 0x78a07000#32, 0xffe0fc00#32, .lseAtomic, [.rs, .rt, .addrSimple], 0⟩,
  ⟨"lduminlh", 0x78607000#32, 0xffe0fc00#32, .lseAtomic, [.rs, .rt, .addrSimple], 0⟩,
  ⟨"lduminalh", 0x78e07000#32, 0xffe0fc00#32, .lseAtomic, [.rs, .rt, .addrSimple], 0⟩,
  ⟨"ldumina", 0xb8a07000#32, 0xbfe0fc00#32, .lseAtomic, [.rs, .rt, .addrSimple], 0⟩,
  ⟨"lduminl", 0xb8607000#32, 0xbfe0fc00#32, .lseAtomic, [.rs, .rt, .addrSimple], 0⟩,
  ⟨"lduminal", 0xb8e07000#32, 0xbfe0fc00#32, .lseAtomic, [.rs, .rt, .addrSimple], 0⟩,
  ⟨"staddb", 0x3820001f#32, 0xffe0fc1f#32, .lseAtomic, [.rs, .addrSimple], fAlias⟩,
  ⟨"staddh", 0x7820001f#32, 0xffe0fc1f#32, .lseAtomic, [.rs, .addrSimple], fAlias⟩,
  ⟨"stadd", 0xb820001f#32, 0xbfe0fc1f#32, .lseAtomic, [.rs, .addrSimple], fAlias⟩,
  ⟨"staddlb", 0x3860001f#32, 0xffe0fc1f#32, .lseAtomic, [.rs, .addrSimple], fAlias⟩,
  ⟨"staddlh", 0x7860001f#32, 0xffe0fc1f#32, .lseAtomic, [.rs, .addrSimple], fAlias⟩,
  ⟨"staddl", 0xb860001f#32, 0xbfe0fc1f#32, .lseAtomic, [.rs, .addrSimple], fAlias⟩,
  ⟨"stclrb", 0x3820101f#32, 0xffe0fc1f#32, .lseAtomic, [.rs, .addrSimple], fAlias⟩,
  ⟨"stclrh", 0x7820101f#32, 0xffe0fc1f#32, .lseAtomic, [.rs, .addrSimple], fAlias⟩,
  ⟨"stclr", 0xb820101f#32, 0xbfe0fc1f#32, .lseAtomic, [.rs, .addrSimple], fAlias⟩,
  ⟨"stclrlb", 0x3860101f#32, 0xffe0fc1f#32, .lseAtomic, [.rs, .addrSimple], fAlias⟩,
  ⟨"stclrlh", 0x7860101f#32, 0xffe0fc1f#32, .lseAtomic, [.rs, .addrSimple], fAlias⟩,
  ⟨"stclrl", 0xb860101f#32, 0xbfe0fc1f#32, .lseAtomic, [.rs, .addrSimple], fAlias⟩,
  ⟨"steorb", 0x3820201f#32, 0xffe0fc1f#32, .lseAtomic, [.rs, .addrSimple], fAlias⟩,
  ⟨"steorh", 0x7820201f#32, 0xffe0fc1f#32, .lseAtomic, [.rs, .addrSimple], fAlias⟩,
  ⟨"steor", 0xb820201f#32, 0xbfe0fc1f#32, .lseAtomic, [.rs, .addrSimple], fAlias⟩,
  ⟨"steorlb", 0x3860201f#32, 0xffe0fc1f#32, .lseAtomic, [.rs, .addrSimple], fAlias⟩,
  ⟨"steorlh", 0x7860201f#32, 0xffe0fc1f#32, .lseAtomic, [.rs, .addrSimple], fAlias⟩,
  ⟨"steorl", 0xb860201f#32, 0xbfe0fc1f#32, .lseAtomic, [.rs, .addrSimple], fAlias⟩,
  ⟨"stsetb", 0x3820301f#32, 0xffe0fc1f#32, .lseAtomic, [.rs, .addrSimple], fAlias⟩,
  ⟨"stseth", 0x7820301f#32, 0xffe0fc1f#32, .lseAtomic, [.rs, .addrSimple], fAlias⟩,
  ⟨"stset", 0xb820301f#32, 0xbfe0fc1f#32, .lseAtomic, [.rs, .addrSimple], fAlias⟩,
  ⟨"stsetlb", 0x3860301f#32, 0xffe0fc1f#32, .lseAtomic, [.rs, .addrSimple], fAlias⟩,
  ⟨"stsetlh", 0x7860301f#32, 0xffe0fc1f#32, .lseAtomic, [.rs, .addrSimple], fAlias⟩,
  ⟨"stsetl", 0xb860301f#32, 0xbfe0fc1f#32, .lseAtomic, [.rs, .addrSimple], fAlias⟩,
  ⟨"stsmaxb", 0x3820401f#32, 0xffe0fc1f#32, .lseAtomic, [.rs, .addrSimple], fAlias⟩,
  ⟨"stsmaxh", 0x7820401f#32, 0xffe0fc1f#32, .lseAtomic, [.rs, .addrSimple], fAlias⟩,
  ⟨"stsmax", 0xb820401f#32, 0xbfe0fc1f#32, .lseAtomic, [.rs, .addrSimple], fAlias⟩,
  ⟨"stsmaxlb", 0x3860401f#32, 0xffe0fc1f#32, .lseAtomic, [.rs, .addrSimple], fAlias⟩,
  ⟨"stsmaxlh", 0x7860401f#32, 0xffe0fc1f#32, .lseAtomic, [.rs, .addrSimple], fAlias⟩,
  ⟨"stsmaxl", 0xb860401f#32, 0xbfe0fc1f#32, .lseAtomic, [.rs, .addrSimple], fAlias⟩,
  ⟨"stsminb", 0x3820501f#32, 0xffe0fc1f#32, .lseAtomic, [.rs, .addrSimple], fAlias⟩,
  ⟨"stsminh", 0x7820501f#32, 0xffe0fc1f#32, .lseAtomic, [.rs, .addrSimple], fAlias⟩,
  ⟨"stsmin", 0xb820501f#32, 0xbfe0fc1f#32, .lseAtomic, [.rs, .addrSimple], fAlias⟩,
  ⟨"stsminlb", 0x3860501f#32, 0xffe0fc1f#32, .lseAtomic, [.rs, .addrSimple], fAlias⟩,
  ⟨"stsminlh", 0x7860501f#32, 0xffe0fc1f#32, .lseAtomic, [.rs, .addrSimple], fAlias⟩,
  ⟨"stsminl", 0xb860501f#32, 0xbfe0fc1f#32, .lseAtomic, [.rs, .addrSimple], fAlias⟩,
  ⟨"stumaxb", 0x3820601f#32, 0xffe0fc1f#32, .lseAtomic, [.rs, .addrSimple], fAlias⟩,
  ⟨"stumaxh", 0x7820601f#32, 0xffe0fc1f#32, .lseAtomic, [.rs, .addrSimple], fAlias⟩,
  ⟨"stumax", 0xb820601f#32, 0xbfe0fc1f#32, .lseAtomic, [.rs, .addrSimple], fAlias⟩,
  ⟨"stumaxlb", 0x3860601f#32, 0xffe0fc1f#32, .lseAtomic, [.rs, .addrSimple], fAlias⟩,
  ⟨"stumaxlh", 0x7860601f#32, 0xffe0fc1f#32, .lseAtomic, [.rs, .addrSimple], fAlias⟩,
  ⟨"stumaxl", 0xb860601f#32, 0xbfe0fc1f#32, .lseAtomic, [.rs, .addrSimple], fAlias⟩,
  ⟨"stuminb", 0x3820701f#32, 0xffe0fc1f#32, .lseAtomic, [.rs, .addrSimple], fAlias⟩,
  ⟨"stuminh", 0x7820701f#32, 0xffe0fc1f#32, .lseAtomic, [.rs, .addrSimple], fAlias⟩,
  ⟨"stumin", 0xb820701f#32, 0xbfe0fc1f#32, .lseAtomic, [.rs, .addrSimple], fAlias⟩,
  ⟨"stuminlb", 0x3860701f#32, 0xffe0fc1f#32, .lseAtomic, [.rs, .addrSimple], fAlias⟩,
  ⟨"stuminlh", 0x7860701f#32, 0xffe0fc1f#32, .lseAtomic, [.rs, .addrSimple], fAlias⟩,
  ⟨"stuminl", 0xb860701f#32, 0xbfe0fc1f#32, .lseAtomic, [.rs, .addrSimple], fAlias⟩]

/-- Rows from class `movewide` to `condbranch`. -/
def opcodeRows12 : List Aarch64Opcode := [
  ⟨"movn", 0x12800000#32, 0x7f800000#32, .movewide, [.rd, .half], 0⟩,
  ⟨"mov", 0x12800000#32, 0x7f800000#32, .movewide, [.rd, .immMov], fAlias ||| fConv⟩,
  ⟨"movz", 0x52800000#32, 0x7f800000#32, .movewide, [.rd, .half], 0⟩,
  ⟨"mov", 0x52800000#32, 0x7f800000#32, .movewide, [.rd, .immMov], fAlias ||| fConv⟩,
  ⟨"movk", 0x72800000#32, 0x7f800000#32, .movewide, [.rd, .half], 0⟩,
  ⟨"adr", 0x10000000#32, 0x9f000000#32, .pcreladdr, [.rd, .addrPcrel21], 0⟩,
  ⟨"adrp", 0x90000000#32, 0x9f000000#32, .pcreladdr, [.rd, .addrAdrp], 0⟩,
  ⟨"msr", 0xd500401f#32, 0xfff8f01f#32, .icSystem, [.pstatefield, .uimm4], 0⟩,
  ⟨"hint", 0xd503201f#32, 0xfffff01f#32, .icSystem, [.uimm7], 0⟩,
  ⟨"nop", 0xd503201f#32, 0xffffffff#32, .icSystem, [], fAlias⟩,
  ⟨"yield", 0xd503203f#32, 0xffffffff#32, .icSystem, [], fAlias⟩,
  ⟨"wfe", 0xd503205f#32, 0xffffffff#32, .icSystem, [], fAlias⟩,
  ⟨"wfi", 0xd503207f#32, 0xffffffff#32, .icSystem, [], fAlias⟩,
  ⟨"sev", 0xd503209f#32, 0xffffffff#32, .icSystem, [], fAlias⟩,
  ⟨"sevl", 0xd50320bf#32, 0xffffffff#32, .icSystem, [], fAlias⟩,
  ⟨"esb", 0xd503221f#32, 0xffffffff#32, .icSystem, [], fAlias⟩,
  ⟨"paciaz", 0xd503231f#32, 0xffffffff#32, .icSystem, [], fAlias⟩,
  ⟨"paciasp", 0xd503233f#32, 0xffffffff#32, .icSystem, [], fAlias⟩,
  ⟨"pacibz", 0xd503235f#32, 0xffffffff#32, .icSystem, [], fAlias⟩,
  ⟨"pacibsp", 0xd503237f#32, 0xffffffff#32, .icSystem, [], fAlias⟩,
  ⟨"autiaz", 0xd503239f#32, 0xffffffff#32, .icSystem, [], fAlias⟩,
  ⟨"autiasp", 0xd50323bf#32, 0xffffffff#32, .icSystem, [], fAlias⟩,
  ⟨"autibz", 0xd50323df#32, 0xffffffff#32, .icSystem, [], fAlias⟩,
  ⟨"autibsp", 0xd50323ff#32, 0xffffffff#32, .icSystem, [], fAlias⟩,
  ⟨"xpaclri", 0xd50320ff#32, 0xffffffff#32, .icSystem, [], fAlias⟩,
  ⟨"psb", 0xd503223f#32, 0xffffffff#32, .icSystem, [.barrierPsb], fAlias⟩,
  ⟨"clrex", 0xd503305f#32, 0xfffff0ff#32, .icSystem, [.uimm4], 0⟩,
  ⟨"dsb", 0xd503309f#32, 0xfffff0ff#32, .icSystem, [.barrier], 0⟩,
  ⟨"dmb", 0xd50330bf#32, 0xfffff0ff#32, .icSystem, [.barrier], 0⟩,
  ⟨"isb", 0xd50330df#32, 0xfffff0ff#32, .icSystem, [.barrierIsb], 0⟩,
  ⟨"sys", 0xd5080000#32, 0xfff80000#32, .icSystem, [.uimm3Op1, .cn, .cm, .uimm3Op2, .rt], 0⟩,
  ⟨"at", 0xd5080000#32, 0xfff80000#32, .icSystem, [.sysregAt, .rt], fAlias⟩,
  ⟨"dc", 0xd5080000#32, 0xfff80000#32, .icSystem, [.sysregDc, .rt], fAlias⟩,
  ⟨"ic", 0xd5080000#32, 0xfff80000#32, .icSystem, [.sysregIc, .rtSys], fAlias⟩,
  ⟨"tlbi", 0xd5080000#32, 0xfff80000#32, .icSystem, [.sysregTlbi, .rtSys], fAlias⟩,
  ⟨"msr", 0xd5000000#32, 0xffe00000#32, .icSystem, [.sysreg, .rt], 0⟩,
  ⟨"sysl", 0xd5280000#32, 0xfff80000#32, .icSystem, [.rt, .uimm3Op1, .cn, .cm, .uimm3Op2], 0⟩,
  ⟨"mrs", 0xd5200000#32, 0xffe00000#32, .icSystem, [.rt, .sysreg], 0⟩,
  ⟨"tbz", 0x36000000#32, 0x7f000000#32, .testbranch, [.rt, .bitNum, .addrPcrel14], 0⟩,
  ⟨"tbnz", 0x37000000#32, 0x7f000000#32, .testbranch, [.rt, .bitNum, .addrPcrel14], 0⟩,
  ⟨"beq", 0x54000000#32, 0xff00001f#32, .condbranch, [.addrPcrel19], fAlias⟩,
  ⟨"bne", 0x54000001#32, 0xff00001f#32, .condbranch, [.addrPcrel19], fAlias⟩,
  ⟨"bcs", 0x54000002#32, 0xff00001f#32, .condbranch, [.addrPcrel19], fAlias⟩,
  ⟨"bhs", 0x54000002#32, 0xff00001f#32, .condbranch, [.addrPcrel19], fAlias⟩,
  ⟨"bcc", 0x54000003#32, 0xff00001f#32, .condbranch, [.addrPcrel19], fAlias⟩,
  ⟨"blo", 0x54000003#32, 0xff00001f#32, .condbranch, [.addrPcrel19], fAlias⟩,
  ⟨"bmi", 0x54000004#32, 0xff00001f#32, .condbranch, [.addrPcrel19], fAlias⟩,
  ⟨"bpl", 0x54000005#32, 0xff00001f#32, .condbranch, [.addrPcrel19], fAlias⟩,
  ⟨"bvs", 0x54000006#32, 0xff00001f#32, .condbranch, [.addrPcrel19], fAlias⟩,
  ⟨"bvc", 0x54000007#32, 0xff00001f#32, .condbranch, [.addrPcrel19], fAlias⟩,
  ⟨"bhi", 0x54000008#32, 0xff00001f#32, .condbranch, [.addrPcrel19], fAlias⟩,
  ⟨"bls", 0x54000009#32, 0xff00001f#32, .condbranch, [.addrPcrel19], fAlias⟩,
  ⟨"bge", 0x5400000a#32, 0xff00001f#32, .condbranch, [.addrPcrel19], fAlias⟩,
  ⟨"blt", 0x5400000b#32, 0xff00001f#32, .condbranch, [.addrPcrel19], fAlias⟩,
  ⟨"bgt", 0x5400000c#32, 0xff00001f#32, .condbranch, [.addrPcrel19], fAlias⟩,
  ⟨"ble", 0x5400000d#32, 0xff00001f#32, .condbranch, [.addrPcrel19], fAlias⟩]

/-- The opcode table, in source order. -/
def aarch64OpcodeTable : List Aarch64Opcode :=
  opcodeRows1 ++ opcodeRows2 ++ opcodeRows3 ++ opcodeRows4 ++ opcodeRows5 ++ opcodeRows6
    ++ opcodeRows7 ++ opcodeRows8 ++ opcodeRows9 ++ opcodeRows10 ++ opcodeRows11 ++ opcodeRows12

end Armv8Encode
