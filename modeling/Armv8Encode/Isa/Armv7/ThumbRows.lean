/-
  Armv8Encode.Isa.Armv7.ThumbRows — the imported Thumb opcode table.

  One row describes one encoding form: the mnemonic, the fixed bits (`opcode`
  under `mask`), the width and the format string that says how the operands
  are written and where their bits are.  A 16-bit form has its bits in the low
  half of the word; of a 32-bit form the first halfword is the high half.  The
  rows stand in the order of the source table, which the matcher depends on.
-/
import Armv8Encode.Lib.Words

namespace Armv8Encode.Armv7

/-! ## §1. Mnemonics. -/

inductive ThumbMnemonic where
  | adc | add | addw | and | asr | aut | autg | b | bf | bfc | bfcsel | bfi | bfl | bflx | bfx
  | bic | bkpt | bl | blx | blxns | bti | bx | bxaut | bxj | bxns | cbnz | cbz | clrex | clrm
  | clz | cmn | cmp | cps | cpsid | cpsidW | cpsie | cpsieW | crc32b | crc32cb | crc32ch
  | crc32cw | crc32h | crc32w | csdb | dbg | dcps | dfb | dls | dlstp | dmb | dsb | eor | esb
  | hlt | hvc | isb | it | lctp | lda | ldab | ldaex | ldaexb | ldaexd | ldaexh | ldah | ldmdb
  | ldmia | ldr | ldrb | ldrd | ldrex | ldrexd | ldrh | ldrs | le | letp | lsl | lsr | mla | mls
  | mov | movt | movw | mrs | msr | mul | mvn | neg | nop | orn | orr | pac | pacbti | pacg
  | pkhbt | pkhtb | pld | pldw | pli | pop | pssbb | push | qadd | qadd16 | qadd8 | qasx | qdadd
  | qdsub | qsax | qsub | qsub16 | qsub8 | rbit | rev | rev16 | revsh | rfedb | rfeia | ror
  | rsb | sadd16 | sadd8 | sasx | sb | sbc | sbfx | sdiv | sel | setend | setpan | sev | sevl
  | sg | shadd16 | shadd8 | shasx | shsax | shsub16 | shsub8 | smc | smla | smlad | smlal
  | smlald | smlaw | smlsd | smlsld | smmla | smmls | smmul | smuad | smul | smull | smulw
  | smusd | srsdb | srsia | ssat | ssat16 | ssax | ssbb | ssub16 | ssub8 | stl | stlb | stlex
  | stlexb | stlexd | stlexh | stlh | stmdb | stmia | str | strb | strd | strex | strexd | strh
  | sub | subs | subw | svc | sxtab | sxtab16 | sxtah | sxtb | sxtb16 | sxth | tbb | tbh | teq
  | tst | tt | tta | ttat | ttt | uadd16 | uadd8 | uasx | ubfx | udf | udiv | uhadd16 | uhadd8
  | uhasx | uhsax | uhsub16 | uhsub8 | umaal | umlal | umull | undefined | uqadd16 | uqadd8
  | uqasx | uqsax | uqsub16 | uqsub8 | usad8 | usada8 | usat | usat16 | usax | usub16 | usub8
  | uxtab | uxtab16 | uxtah | uxtb | uxtb16 | uxth | wfe | wfi | wls | wlstp | yield
  deriving Repr, DecidableEq

/-! ## §2. Rows. -/

inductive ThumbWidth where
  | halfword
  | word
  deriving Repr, DecidableEq

structure ThumbOpcode where
  mnemonic : ThumbMnemonic
  opcode : Word
  mask : Word
  width : ThumbWidth
  format : String
  deriving Repr, DecidableEq

/-! ## §3. The table. -/

def thumbRows0 : List ThumbOpcode := [
  ⟨.blxns, 0x4784, 0xff87, .halfword, "blxns\t%3-6r"⟩,
  ⟨.bxns, 0x4704, 0xff87, .halfword, "bxns\t%3-6r"⟩,
  ⟨.sevl, 0xbf50, 0xffff, .halfword, "sevl%c"⟩,
  ⟨.hlt, 0xba80, 0xffc0, .halfword, "hlt\t%0-5x"⟩,
  ⟨.setpan, 0xb610, 0xfff7, .halfword, "setpan\t%\x7bI:#%3-3d%\x7d"⟩,
  ⟨.nop, 0xbf00, 0xffff, .halfword, "nop%c"⟩,
  ⟨.yield, 0xbf10, 0xffff, .halfword, "yield%c"⟩,
  ⟨.wfe, 0xbf20, 0xffff, .halfword, "wfe%c"⟩,
  ⟨.wfi, 0xbf30, 0xffff, .halfword, "wfi%c"⟩,
  ⟨.sev, 0xbf40, 0xffff, .halfword, "sev%c"⟩,
  ⟨.nop, 0xbf00, 0xff0f, .halfword, "nop%c\t\x7b%4-7d\x7d"⟩,
  ⟨.cbnz, 0xb900, 0xfd00, .halfword, "cbnz\t%0-2r, %b%X"⟩,
  ⟨.cbz, 0xb100, 0xfd00, .halfword, "cbz\t%0-2r, %b%X"⟩,
  ⟨.it, 0xbf00, 0xff00, .halfword, "it%I%X"⟩,
  ⟨.cpsie, 0xb660, 0xfff8, .halfword, "cpsie\t%\x7bB:%2'a%1'i%0'f%\x7d%X"⟩,
  ⟨.cpsid, 0xb670, 0xfff8, .halfword, "cpsid\t%\x7bB:%2'a%1'i%0'f%\x7d%X"⟩,
  ⟨.mov, 0x4600, 0xffc0, .halfword, "mov%c\t%0-2r, %3-5r"⟩,
  ⟨.rev, 0xba00, 0xffc0, .halfword, "rev%c\t%0-2r, %3-5r"⟩,
  ⟨.rev16, 0xba40, 0xffc0, .halfword, "rev16%c\t%0-2r, %3-5r"⟩,
  ⟨.revsh, 0xbac0, 0xffc0, .halfword, "revsh%c\t%0-2r, %3-5r"⟩,
  ⟨.setend, 0xb650, 0xfff7, .halfword, "setend\t%\x7bB:%3?ble%\x7d%X"⟩,
  ⟨.sxth, 0xb200, 0xffc0, .halfword, "sxth%c\t%0-2r, %3-5r"⟩,
  ⟨.sxtb, 0xb240, 0xffc0, .halfword, "sxtb%c\t%0-2r, %3-5r"⟩,
  ⟨.uxth, 0xb280, 0xffc0, .halfword, "uxth%c\t%0-2r, %3-5r"⟩,
  ⟨.uxtb, 0xb2c0, 0xffc0, .halfword, "uxtb%c\t%0-2r, %3-5r"⟩,
  ⟨.bkpt, 0xbe00, 0xff00, .halfword, "bkpt\t%0-7x"⟩,
  ⟨.blx, 0x4780, 0xff87, .halfword, "blx%c\t%3-6r%x"⟩,
  ⟨.nop, 0x46c0, 0xffff, .halfword, "nop%c\t\t\t@ (mov r8, r8)"⟩,
  ⟨.and, 0x4000, 0xffc0, .halfword, "and%C\t%0-2r, %3-5r"⟩,
  ⟨.eor, 0x4040, 0xffc0, .halfword, "eor%C\t%0-2r, %3-5r"⟩,
  ⟨.lsl, 0x4080, 0xffc0, .halfword, "lsl%C\t%0-2r, %3-5r"⟩,
  ⟨.lsr, 0x40c0, 0xffc0, .halfword, "lsr%C\t%0-2r, %3-5r"⟩,
  ⟨.asr, 0x4100, 0xffc0, .halfword, "asr%C\t%0-2r, %3-5r"⟩,
  ⟨.adc, 0x4140, 0xffc0, .halfword, "adc%C\t%0-2r, %3-5r"⟩,
  ⟨.sbc, 0x4180, 0xffc0, .halfword, "sbc%C\t%0-2r, %3-5r"⟩,
  ⟨.ror, 0x41c0, 0xffc0, .halfword, "ror%C\t%0-2r, %3-5r"⟩,
  ⟨.tst, 0x4200, 0xffc0, .halfword, "tst%c\t%0-2r, %3-5r"⟩,
  ⟨.neg, 0x4240, 0xffc0, .halfword, "neg%C\t%0-2r, %3-5r"⟩,
  ⟨.cmp, 0x4280, 0xffc0, .halfword, "cmp%c\t%0-2r, %3-5r"⟩,
  ⟨.cmn, 0x42c0, 0xffc0, .halfword, "cmn%c\t%0-2r, %3-5r"⟩,
  ⟨.orr, 0x4300, 0xffc0, .halfword, "orr%C\t%0-2r, %3-5r"⟩,
  ⟨.mul, 0x4340, 0xffc0, .halfword, "mul%C\t%0-2r, %3-5r"⟩,
  ⟨.bic, 0x4380, 0xffc0, .halfword, "bic%C\t%0-2r, %3-5r"⟩,
  ⟨.mvn, 0x43c0, 0xffc0, .halfword, "mvn%C\t%0-2r, %3-5r"⟩,
  ⟨.add, 0xb000, 0xff80, .halfword, "add%c\t%\x7bR:sp%\x7d, %\x7bI:#%0-6W%\x7d"⟩,
  ⟨.sub, 0xb080, 0xff80, .halfword, "sub%c\t%\x7bR:sp%\x7d, %\x7bI:#%0-6W%\x7d"⟩,
  ⟨.bx, 0x4700, 0xff80, .halfword, "bx%c\t%S%x"⟩,
  ⟨.add, 0x4400, 0xff00, .halfword, "add%c\t%D, %S"⟩,
  ⟨.cmp, 0x4500, 0xff00, .halfword, "cmp%c\t%D, %S"⟩,
  ⟨.mov, 0x4600, 0xff00, .halfword, "mov%c\t%D, %S"⟩,
  ⟨.push, 0xb400, 0xfe00, .halfword, "push%c\t%N"⟩,
  ⟨.pop, 0xbc00, 0xfe00, .halfword, "pop%c\t%O"⟩,
  ⟨.add, 0x1800, 0xfe00, .halfword, "add%C\t%0-2r, %3-5r, %6-8r"⟩,
  ⟨.sub, 0x1a00, 0xfe00, .halfword, "sub%C\t%0-2r, %3-5r, %6-8r"⟩,
  ⟨.add, 0x1c00, 0xfe00, .halfword, "add%C\t%0-2r, %3-5r, %\x7bI:#%6-8d%\x7d"⟩,
  ⟨.sub, 0x1e00, 0xfe00, .halfword, "sub%C\t%0-2r, %3-5r, %\x7bI:#%6-8d%\x7d"⟩,
  ⟨.strh, 0x5200, 0xfe00, .halfword, "strh%c\t%0-2r, [%3-5r, %6-8r]"⟩,
  ⟨.ldrh, 0x5a00, 0xfe00, .halfword, "ldrh%c\t%0-2r, [%3-5r, %6-8r]"⟩,
  ⟨.ldrs, 0x5600, 0xf600, .halfword, "ldrs%11?hb%c\t%0-2r, [%3-5r, %6-8r]"⟩,
  ⟨.str, 0x5000, 0xfa00, .halfword, "str%10'b%c\t%0-2r, [%3-5r, %6-8r]"⟩,
  ⟨.ldr, 0x5800, 0xfa00, .halfword, "ldr%10'b%c\t%0-2r, [%3-5r, %6-8r]"⟩,
  ⟨.mov, 0, 0xffc0, .halfword, "mov%C\t%0-2r, %3-5r"⟩,
  ⟨.lsl, 0, 0xf800, .halfword, "lsl%C\t%0-2r, %3-5r, %\x7bI:#%6-10d%\x7d"⟩,
  ⟨.lsr, 0x800, 0xf800, .halfword, "lsr%C\t%0-2r, %3-5r, %s"⟩,
  ⟨.asr, 0x1000, 0xf800, .halfword, "asr%C\t%0-2r, %3-5r, %s"⟩,
  ⟨.mov, 0x2000, 0xf800, .halfword, "mov%C\t%8-10r, %\x7bI:#%0-7d%\x7d"⟩,
  ⟨.cmp, 0x2800, 0xf800, .halfword, "cmp%c\t%8-10r, %\x7bI:#%0-7d%\x7d"⟩,
  ⟨.add, 0x3000, 0xf800, .halfword, "add%C\t%8-10r, %\x7bI:#%0-7d%\x7d"⟩,
  ⟨.sub, 0x3800, 0xf800, .halfword, "sub%C\t%8-10r, %\x7bI:#%0-7d%\x7d"⟩,
  ⟨.ldr, 0x4800, 0xf800, .halfword, "ldr%c\t%8-10r, [%\x7bR:pc%\x7d, %\x7bI:#%0-7W%\x7d]\t@ (%0-7a)"⟩,
  ⟨.str, 0x6000, 0xf800, .halfword, "str%c\t%0-2r, [%3-5r, %\x7bI:#%6-10W%\x7d]"⟩,
  ⟨.ldr, 0x6800, 0xf800, .halfword, "ldr%c\t%0-2r, [%3-5r, %\x7bI:#%6-10W%\x7d]"⟩,
  ⟨.strb, 0x7000, 0xf800, .halfword, "strb%c\t%0-2r, [%3-5r, %\x7bI:#%6-10d%\x7d]"⟩,
  ⟨.ldrb, 0x7800, 0xf800, .halfword, "ldrb%c\t%0-2r, [%3-5r, %\x7bI:#%6-10d%\x7d]"⟩,
  ⟨.strh, 0x8000, 0xf800, .halfword, "strh%c\t%0-2r, [%3-5r, %\x7bI:#%6-10H%\x7d]"⟩,
  ⟨.ldrh, 0x8800, 0xf800, .halfword, "ldrh%c\t%0-2r, [%3-5r, %\x7bI:#%6-10H%\x7d]"⟩,
  ⟨.str, 0x9000, 0xf800, .halfword, "str%c\t%8-10r, [%\x7bR:sp%\x7d, %\x7bI:#%0-7W%\x7d]"⟩,
  ⟨.ldr, 0x9800, 0xf800, .halfword, "ldr%c\t%8-10r, [%\x7bR:sp%\x7d, %\x7bI:#%0-7W%\x7d]"⟩,
  ⟨.add, 0xa000, 0xf800, .halfword, "add%c\t%8-10r, %\x7bR:pc%\x7d, %\x7bI:#%0-7W%\x7d\t@ (adr %8-10r, %0-7a)"⟩,
  ⟨.add, 0xa800, 0xf800, .halfword, "add%c\t%8-10r, %\x7bR:sp%\x7d, %\x7bI:#%0-7W%\x7d"⟩,
  ⟨.stmia, 0xc000, 0xf800, .halfword, "stmia%c\t%8-10r!, %M"⟩,
  ⟨.ldmia, 0xc800, 0xf800, .halfword, "ldmia%c\t%8-10r%W, %M"⟩,
  ⟨.svc, 0xdf00, 0xff00, .halfword, "svc%c\t%0-7d"⟩,
  ⟨.udf, 0xde00, 0xff00, .halfword, "udf%c\t%\x7bI:#%0-7d%\x7d"⟩]

def thumbRows1 : List ThumbOpcode := [
  ⟨.b, 0xd000, 0xf000, .halfword, "b%8-11c.n\t%0-7B%X"⟩,
  ⟨.b, 0xe000, 0xf800, .halfword, "b%c.n\t%0-10B%x"⟩,
  ⟨.aut, 0xf3af802d, 0xffffffff, .word, "aut\t%\x7bR:r12%\x7d, %\x7bR:lr%\x7d, %\x7bR:sp%\x7d"⟩,
  ⟨.autg, 0xfb500f00, 0xfff00ff0, .word, "autg%c\t%12-15r, %16-19r, %0-3r"⟩,
  ⟨.bti, 0xf3af800f, 0xffffffff, .word, "bti"⟩,
  ⟨.bxaut, 0xfb500f10, 0xfff00ff0, .word, "bxaut%c\t%12-15r, %16-19r, %0-3r"⟩,
  ⟨.pac, 0xf3af801d, 0xffffffff, .word, "pac\t%\x7bR:r12%\x7d, %\x7bR:lr%\x7d, %\x7bR:sp%\x7d"⟩,
  ⟨.pacbti, 0xf3af800d, 0xffffffff, .word, "pacbti\t%\x7bR:r12%\x7d, %\x7bR:lr%\x7d, %\x7bR:sp%\x7d"⟩,
  ⟨.pacg, 0xfb60f000, 0xfff0f0f0, .word, "pacg%c\t%8-11r, %16-19r, %0-3r"⟩,
  ⟨.lctp, 0xf00fe001, 0xffffffff, .word, "lctp%c"⟩,
  ⟨.le, 0xf02fc001, 0xfffff001, .word, "le\t%P"⟩,
  ⟨.le, 0xf00fc001, 0xfffff001, .word, "le\t%\x7bR:lr%\x7d, %P"⟩,
  ⟨.letp, 0xf01fc001, 0xfffff001, .word, "letp\t%\x7bR:lr%\x7d, %P"⟩,
  ⟨.wls, 0xf040c001, 0xfff0f001, .word, "wls\t%\x7bR:lr%\x7d, %16-19S, %Q"⟩,
  ⟨.wlstp, 0xf000c001, 0xffc0f001, .word, "wlstp.%20-21s\t%\x7bR:lr%\x7d, %16-19S, %Q"⟩,
  ⟨.dls, 0xf040e001, 0xfff0ffff, .word, "dls\t%\x7bR:lr%\x7d, %16-19S"⟩,
  ⟨.dlstp, 0xf000e001, 0xffc0ffff, .word, "dlstp.%20-21s\t%\x7bR:lr%\x7d, %16-19S"⟩,
  ⟨.bf, 0xf040e001, 0xf860f001, .word, "bf%c\t%G, %W"⟩,
  ⟨.bfx, 0xf060e001, 0xf8f0f001, .word, "bfx%c\t%G, %16-19S"⟩,
  ⟨.bfl, 0xf000c001, 0xf800f001, .word, "bfl%c\t%G, %Y"⟩,
  ⟨.bflx, 0xf070e001, 0xf8f0f001, .word, "bflx%c\t%G, %16-19S"⟩,
  ⟨.bfcsel, 0xf000e001, 0xf840f001, .word, "bfcsel\t%G, %Z, %\x7bB:%18-21c%\x7d"⟩,
  ⟨.clrm, 0xe89f0000, 0xffff2000, .word, "clrm%c\t%n"⟩,
  ⟨.sg, 0xe97fe97f, 0xffffffff, .word, "sg"⟩,
  ⟨.tt, 0xe840f000, 0xfff0f0ff, .word, "tt\t%8-11r, %16-19r"⟩,
  ⟨.ttt, 0xe840f040, 0xfff0f0ff, .word, "ttt\t%8-11r, %16-19r"⟩,
  ⟨.tta, 0xe840f080, 0xfff0f0ff, .word, "tta\t%8-11r, %16-19r"⟩,
  ⟨.ttat, 0xe840f0c0, 0xfff0f0ff, .word, "ttat\t%8-11r, %16-19r"⟩,
  ⟨.esb, 0xf3af8010, 0xffffffff, .word, "esb"⟩,
  ⟨.sevl, 0xf3af8005, 0xffffffff, .word, "sevl%c.w"⟩,
  ⟨.dcps, 0xf78f8000, 0xfffffffc, .word, "dcps%0-1d"⟩,
  ⟨.stlb, 0xe8c00f8f, 0xfff00fff, .word, "stlb%c\t%12-15r, [%16-19R]"⟩,
  ⟨.stlh, 0xe8c00f9f, 0xfff00fff, .word, "stlh%c\t%12-15r, [%16-19R]"⟩,
  ⟨.stl, 0xe8c00faf, 0xfff00fff, .word, "stl%c\t%12-15r, [%16-19R]"⟩,
  ⟨.stlexb, 0xe8c00fc0, 0xfff00ff0, .word, "stlexb%c\t%0-3r, %12-15r, [%16-19R]"⟩,
  ⟨.stlexh, 0xe8c00fd0, 0xfff00ff0, .word, "stlexh%c\t%0-3r, %12-15r, [%16-19R]"⟩,
  ⟨.stlex, 0xe8c00fe0, 0xfff00ff0, .word, "stlex%c\t%0-3r, %12-15r, [%16-19R]"⟩,
  ⟨.stlexd, 0xe8c000f0, 0xfff000f0, .word, "stlexd%c\t%0-3r, %12-15r, %8-11r, [%16-19R]"⟩,
  ⟨.ldab, 0xe8d00f8f, 0xfff00fff, .word, "ldab%c\t%12-15r, [%16-19R]"⟩,
  ⟨.ldah, 0xe8d00f9f, 0xfff00fff, .word, "ldah%c\t%12-15r, [%16-19R]"⟩,
  ⟨.lda, 0xe8d00faf, 0xfff00fff, .word, "lda%c\t%12-15r, [%16-19R]"⟩,
  ⟨.ldaexb, 0xe8d00fcf, 0xfff00fff, .word, "ldaexb%c\t%12-15r, [%16-19R]"⟩,
  ⟨.ldaexh, 0xe8d00fdf, 0xfff00fff, .word, "ldaexh%c\t%12-15r, [%16-19R]"⟩,
  ⟨.ldaex, 0xe8d00fef, 0xfff00fff, .word, "ldaex%c\t%12-15r, [%16-19R]"⟩,
  ⟨.ldaexd, 0xe8d000ff, 0xfff000ff, .word, "ldaexd%c\t%12-15r, %8-11r, [%16-19R]"⟩,
  ⟨.dfb, 0xf3bf8f4c, 0xffffffff, .word, "dfb%c"⟩,
  ⟨.crc32b, 0xfac0f080, 0xfff0f0f0, .word, "crc32b\t%8-11R, %16-19R, %0-3R"⟩,
  ⟨.crc32h, 0xfac0f090, 0xfff0f0f0, .word, "crc32h\t%9-11R, %16-19R, %0-3R"⟩,
  ⟨.crc32w, 0xfac0f0a0, 0xfff0f0f0, .word, "crc32w\t%8-11R, %16-19R, %0-3R"⟩,
  ⟨.crc32cb, 0xfad0f080, 0xfff0f0f0, .word, "crc32cb\t%8-11R, %16-19R, %0-3R"⟩,
  ⟨.crc32ch, 0xfad0f090, 0xfff0f0f0, .word, "crc32ch\t%8-11R, %16-19R, %0-3R"⟩,
  ⟨.crc32cw, 0xfad0f0a0, 0xfff0f0f0, .word, "crc32cw\t%8-11R, %16-19R, %0-3R"⟩,
  ⟨.csdb, 0xf3af8014, 0xffffffff, .word, "csdb"⟩,
  ⟨.ssbb, 0xf3bf8f40, 0xffffffff, .word, "ssbb"⟩,
  ⟨.pssbb, 0xf3bf8f44, 0xffffffff, .word, "pssbb"⟩,
  ⟨.pli, 0xf910f000, 0xff70f000, .word, "pli%c\t%a"⟩,
  ⟨.dbg, 0xf3af80f0, 0xfffffff0, .word, "dbg%c\t%\x7bI:#%0-3d%\x7d"⟩,
  ⟨.dmb, 0xf3bf8f51, 0xfffffff3, .word, "dmb%c\t%U"⟩,
  ⟨.dsb, 0xf3bf8f41, 0xfffffff3, .word, "dsb%c\t%U"⟩,
  ⟨.dmb, 0xf3bf8f50, 0xfffffff0, .word, "dmb%c\t%U"⟩,
  ⟨.dsb, 0xf3bf8f40, 0xfffffff0, .word, "dsb%c\t%U"⟩,
  ⟨.isb, 0xf3bf8f60, 0xfffffff0, .word, "isb%c\t%U"⟩,
  ⟨.sdiv, 0xfb90f0f0, 0xfff0f0f0, .word, "sdiv%c\t%8-11r, %16-19r, %0-3r"⟩,
  ⟨.udiv, 0xfbb0f0f0, 0xfff0f0f0, .word, "udiv%c\t%8-11r, %16-19r, %0-3r"⟩,
  ⟨.hvc, 0xf7e08000, 0xfff0f000, .word, "hvc%c\t%V"⟩,
  ⟨.pldw, 0xf830f000, 0xff70f000, .word, "pldw%c\t%a"⟩,
  ⟨.smc, 0xf7f08000, 0xfff0f000, .word, "smc%c\t%K"⟩,
  ⟨.sb, 0xf3bf8f70, 0xffffffff, .word, "sb"⟩,
  ⟨.nop, 0xf3af8000, 0xffffffff, .word, "nop%c.w"⟩,
  ⟨.yield, 0xf3af8001, 0xffffffff, .word, "yield%c.w"⟩,
  ⟨.wfe, 0xf3af8002, 0xffffffff, .word, "wfe%c.w"⟩,
  ⟨.wfi, 0xf3af8003, 0xffffffff, .word, "wfi%c.w"⟩,
  ⟨.sev, 0xf3af8004, 0xffffffff, .word, "sev%c.w"⟩,
  ⟨.nop, 0xf3af8000, 0xffffff00, .word, "nop%c.w\t\x7b%\x7bI:%0-7d%\x7d\x7d"⟩,
  ⟨.udf, 0xf7f0a000, 0xfff0f000, .word, "udf%c.w\t%H"⟩,
  ⟨.clrex, 0xf3bf8f2f, 0xffffffff, .word, "clrex%c"⟩,
  ⟨.cpsieW, 0xf3af8400, 0xffffff1f, .word, "cpsie.w\t%\x7bB:%7'a%6'i%5'f%\x7d%X"⟩,
  ⟨.cpsidW, 0xf3af8600, 0xffffff1f, .word, "cpsid.w\t%\x7bB:%7'a%6'i%5'f%\x7d%X"⟩,
  ⟨.bxj, 0xf3c08f00, 0xfff0ffff, .word, "bxj%c\t%16-19r%x"⟩,
  ⟨.rfedb, 0xe810c000, 0xffd0ffff, .word, "rfedb%c\t%16-19r%21'!"⟩,
  ⟨.rfeia, 0xe990c000, 0xffd0ffff, .word, "rfeia%c\t%16-19r%21'!"⟩,
  ⟨.mrs, 0xf3e08000, 0xffe0f000, .word, "mrs%c\t%8-11r, %D"⟩,
  ⟨.cps, 0xf3af8100, 0xffffffe0, .word, "cps\t%\x7bI:#%0-4d%\x7d%X"⟩,
  ⟨.tbb, 0xe8d0f000, 0xfff0fff0, .word, "tbb%c\t[%16-19r, %0-3r]%x"⟩]

def thumbRows2 : List ThumbOpcode := [
  ⟨.tbh, 0xe8d0f010, 0xfff0fff0, .word, "tbh%c\t[%16-19r, %0-3r, %\x7bB:lsl%\x7d %\x7bI:#1%\x7d]%x"⟩,
  ⟨.cpsie, 0xf3af8500, 0xffffff00, .word, "cpsie\t%\x7bB:%7'a%6'i%5'f%\x7d, %\x7bI:#%0-4d%\x7d%X"⟩,
  ⟨.cpsid, 0xf3af8700, 0xffffff00, .word, "cpsid\t%\x7bB:%7'a%6'i%5'f%\x7d, %\x7bI:#%0-4d%\x7d%X"⟩,
  ⟨.subs, 0xf3de8f00, 0xffffff00, .word, "subs%c\t%\x7bR:pc%\x7d, %\x7bR:lr%\x7d, %\x7bI:#%0-7d%\x7d"⟩,
  ⟨.msr, 0xf3808000, 0xffe0f000, .word, "msr%c\t%C, %16-19r"⟩,
  ⟨.ldrex, 0xe8500f00, 0xfff00fff, .word, "ldrex%c\t%12-15r, [%16-19r]"⟩,
  ⟨.ldrex, 0xe8d00f4f, 0xfff00fef, .word, "ldrex%4?hb%c\t%12-15r, [%16-19r]"⟩,
  ⟨.srsdb, 0xe800c000, 0xffd0ffe0, .word, "srsdb%c\t%16-19r%21'!, %\x7bI:#%0-4d%\x7d"⟩,
  ⟨.srsia, 0xe980c000, 0xffd0ffe0, .word, "srsia%c\t%16-19r%21'!, %\x7bI:#%0-4d%\x7d"⟩,
  ⟨.sxth, 0xfa0ff080, 0xfffff0c0, .word, "sxth%c.w\t%8-11r, %0-3r%R"⟩,
  ⟨.uxth, 0xfa1ff080, 0xfffff0c0, .word, "uxth%c.w\t%8-11r, %0-3r%R"⟩,
  ⟨.sxtb16, 0xfa2ff080, 0xfffff0c0, .word, "sxtb16%c\t%8-11r, %0-3r%R"⟩,
  ⟨.uxtb16, 0xfa3ff080, 0xfffff0c0, .word, "uxtb16%c\t%8-11r, %0-3r%R"⟩,
  ⟨.sxtb, 0xfa4ff080, 0xfffff0c0, .word, "sxtb%c.w\t%8-11r, %0-3r%R"⟩,
  ⟨.uxtb, 0xfa5ff080, 0xfffff0c0, .word, "uxtb%c.w\t%8-11r, %0-3r%R"⟩,
  ⟨.strex, 0xe8400000, 0xfff000ff, .word, "strex%c\t%8-11r, %12-15r, [%16-19r]"⟩,
  ⟨.ldrexd, 0xe8d0007f, 0xfff000ff, .word, "ldrexd%c\t%12-15r, %8-11r, [%16-19r]"⟩,
  ⟨.sadd8, 0xfa80f000, 0xfff0f0f0, .word, "sadd8%c\t%8-11r, %16-19r, %0-3r"⟩,
  ⟨.qadd8, 0xfa80f010, 0xfff0f0f0, .word, "qadd8%c\t%8-11r, %16-19r, %0-3r"⟩,
  ⟨.shadd8, 0xfa80f020, 0xfff0f0f0, .word, "shadd8%c\t%8-11r, %16-19r, %0-3r"⟩,
  ⟨.uadd8, 0xfa80f040, 0xfff0f0f0, .word, "uadd8%c\t%8-11r, %16-19r, %0-3r"⟩,
  ⟨.uqadd8, 0xfa80f050, 0xfff0f0f0, .word, "uqadd8%c\t%8-11r, %16-19r, %0-3r"⟩,
  ⟨.uhadd8, 0xfa80f060, 0xfff0f0f0, .word, "uhadd8%c\t%8-11r, %16-19r, %0-3r"⟩,
  ⟨.qadd, 0xfa80f080, 0xfff0f0f0, .word, "qadd%c\t%8-11r, %0-3r, %16-19r"⟩,
  ⟨.qdadd, 0xfa80f090, 0xfff0f0f0, .word, "qdadd%c\t%8-11r, %0-3r, %16-19r"⟩,
  ⟨.qsub, 0xfa80f0a0, 0xfff0f0f0, .word, "qsub%c\t%8-11r, %0-3r, %16-19r"⟩,
  ⟨.qdsub, 0xfa80f0b0, 0xfff0f0f0, .word, "qdsub%c\t%8-11r, %0-3r, %16-19r"⟩,
  ⟨.sadd16, 0xfa90f000, 0xfff0f0f0, .word, "sadd16%c\t%8-11r, %16-19r, %0-3r"⟩,
  ⟨.qadd16, 0xfa90f010, 0xfff0f0f0, .word, "qadd16%c\t%8-11r, %16-19r, %0-3r"⟩,
  ⟨.shadd16, 0xfa90f020, 0xfff0f0f0, .word, "shadd16%c\t%8-11r, %16-19r, %0-3r"⟩,
  ⟨.uadd16, 0xfa90f040, 0xfff0f0f0, .word, "uadd16%c\t%8-11r, %16-19r, %0-3r"⟩,
  ⟨.uqadd16, 0xfa90f050, 0xfff0f0f0, .word, "uqadd16%c\t%8-11r, %16-19r, %0-3r"⟩,
  ⟨.uhadd16, 0xfa90f060, 0xfff0f0f0, .word, "uhadd16%c\t%8-11r, %16-19r, %0-3r"⟩,
  ⟨.rev, 0xfa90f080, 0xfff0f0f0, .word, "rev%c.w\t%8-11r, %16-19r"⟩,
  ⟨.rev16, 0xfa90f090, 0xfff0f0f0, .word, "rev16%c.w\t%8-11r, %16-19r"⟩,
  ⟨.rbit, 0xfa90f0a0, 0xfff0f0f0, .word, "rbit%c\t%8-11r, %16-19r"⟩,
  ⟨.revsh, 0xfa90f0b0, 0xfff0f0f0, .word, "revsh%c.w\t%8-11r, %16-19r"⟩,
  ⟨.sasx, 0xfaa0f000, 0xfff0f0f0, .word, "sasx%c\t%8-11r, %16-19r, %0-3r"⟩,
  ⟨.qasx, 0xfaa0f010, 0xfff0f0f0, .word, "qasx%c\t%8-11r, %16-19r, %0-3r"⟩,
  ⟨.shasx, 0xfaa0f020, 0xfff0f0f0, .word, "shasx%c\t%8-11r, %16-19r, %0-3r"⟩,
  ⟨.uasx, 0xfaa0f040, 0xfff0f0f0, .word, "uasx%c\t%8-11r, %16-19r, %0-3r"⟩,
  ⟨.uqasx, 0xfaa0f050, 0xfff0f0f0, .word, "uqasx%c\t%8-11r, %16-19r, %0-3r"⟩,
  ⟨.uhasx, 0xfaa0f060, 0xfff0f0f0, .word, "uhasx%c\t%8-11r, %16-19r, %0-3r"⟩,
  ⟨.sel, 0xfaa0f080, 0xfff0f0f0, .word, "sel%c\t%8-11r, %16-19r, %0-3r"⟩,
  ⟨.clz, 0xfab0f080, 0xfff0f0f0, .word, "clz%c\t%8-11r, %16-19r"⟩,
  ⟨.ssub8, 0xfac0f000, 0xfff0f0f0, .word, "ssub8%c\t%8-11r, %16-19r, %0-3r"⟩,
  ⟨.qsub8, 0xfac0f010, 0xfff0f0f0, .word, "qsub8%c\t%8-11r, %16-19r, %0-3r"⟩,
  ⟨.shsub8, 0xfac0f020, 0xfff0f0f0, .word, "shsub8%c\t%8-11r, %16-19r, %0-3r"⟩,
  ⟨.usub8, 0xfac0f040, 0xfff0f0f0, .word, "usub8%c\t%8-11r, %16-19r, %0-3r"⟩,
  ⟨.uqsub8, 0xfac0f050, 0xfff0f0f0, .word, "uqsub8%c\t%8-11r, %16-19r, %0-3r"⟩,
  ⟨.uhsub8, 0xfac0f060, 0xfff0f0f0, .word, "uhsub8%c\t%8-11r, %16-19r, %0-3r"⟩,
  ⟨.ssub16, 0xfad0f000, 0xfff0f0f0, .word, "ssub16%c\t%8-11r, %16-19r, %0-3r"⟩,
  ⟨.qsub16, 0xfad0f010, 0xfff0f0f0, .word, "qsub16%c\t%8-11r, %16-19r, %0-3r"⟩,
  ⟨.shsub16, 0xfad0f020, 0xfff0f0f0, .word, "shsub16%c\t%8-11r, %16-19r, %0-3r"⟩,
  ⟨.usub16, 0xfad0f040, 0xfff0f0f0, .word, "usub16%c\t%8-11r, %16-19r, %0-3r"⟩,
  ⟨.uqsub16, 0xfad0f050, 0xfff0f0f0, .word, "uqsub16%c\t%8-11r, %16-19r, %0-3r"⟩,
  ⟨.uhsub16, 0xfad0f060, 0xfff0f0f0, .word, "uhsub16%c\t%8-11r, %16-19r, %0-3r"⟩,
  ⟨.ssax, 0xfae0f000, 0xfff0f0f0, .word, "ssax%c\t%8-11r, %16-19r, %0-3r"⟩,
  ⟨.qsax, 0xfae0f010, 0xfff0f0f0, .word, "qsax%c\t%8-11r, %16-19r, %0-3r"⟩,
  ⟨.shsax, 0xfae0f020, 0xfff0f0f0, .word, "shsax%c\t%8-11r, %16-19r, %0-3r"⟩,
  ⟨.usax, 0xfae0f040, 0xfff0f0f0, .word, "usax%c\t%8-11r, %16-19r, %0-3r"⟩,
  ⟨.uqsax, 0xfae0f050, 0xfff0f0f0, .word, "uqsax%c\t%8-11r, %16-19r, %0-3r"⟩,
  ⟨.uhsax, 0xfae0f060, 0xfff0f0f0, .word, "uhsax%c\t%8-11r, %16-19r, %0-3r"⟩,
  ⟨.mul, 0xfb00f000, 0xfff0f0f0, .word, "mul%c.w\t%8-11r, %16-19r, %0-3r"⟩,
  ⟨.usad8, 0xfb70f000, 0xfff0f0f0, .word, "usad8%c\t%8-11r, %16-19r, %0-3r"⟩,
  ⟨.lsl, 0xfa00f000, 0xffe0f0f0, .word, "lsl%20's%c.w\t%8-11R, %16-19R, %0-3R"⟩,
  ⟨.lsr, 0xfa20f000, 0xffe0f0f0, .word, "lsr%20's%c.w\t%8-11R, %16-19R, %0-3R"⟩,
  ⟨.asr, 0xfa40f000, 0xffe0f0f0, .word, "asr%20's%c.w\t%8-11R, %16-19R, %0-3R"⟩,
  ⟨.ror, 0xfa60f000, 0xffe0f0f0, .word, "ror%20's%c.w\t%8-11r, %16-19r, %0-3r"⟩,
  ⟨.strex, 0xe8c00f40, 0xfff00fe0, .word, "strex%4?hb%c\t%0-3r, %12-15r, [%16-19r]"⟩,
  ⟨.ssat16, 0xf3200000, 0xfff0f0e0, .word, "ssat16%c\t%8-11r, %\x7bI:#%0-4D%\x7d, %16-19r"⟩,
  ⟨.usat16, 0xf3a00000, 0xfff0f0e0, .word, "usat16%c\t%8-11r, %\x7bI:#%0-4d%\x7d, %16-19r"⟩,
  ⟨.smuad, 0xfb20f000, 0xfff0f0e0, .word, "smuad%4'x%c\t%8-11r, %16-19r, %0-3r"⟩,
  ⟨.smulw, 0xfb30f000, 0xfff0f0e0, .word, "smulw%4?tb%c\t%8-11r, %16-19r, %0-3r"⟩,
  ⟨.smusd, 0xfb40f000, 0xfff0f0e0, .word, "smusd%4'x%c\t%8-11r, %16-19r, %0-3r"⟩,
  ⟨.smmul, 0xfb50f000, 0xfff0f0e0, .word, "smmul%4'r%c\t%8-11r, %16-19r, %0-3r"⟩,
  ⟨.sxtah, 0xfa00f080, 0xfff0f0c0, .word, "sxtah%c\t%8-11r, %16-19r, %0-3r%R"⟩,
  ⟨.uxtah, 0xfa10f080, 0xfff0f0c0, .word, "uxtah%c\t%8-11r, %16-19r, %0-3r%R"⟩,
  ⟨.sxtab16, 0xfa20f080, 0xfff0f0c0, .word, "sxtab16%c\t%8-11r, %16-19r, %0-3r%R"⟩,
  ⟨.uxtab16, 0xfa30f080, 0xfff0f0c0, .word, "uxtab16%c\t%8-11r, %16-19r, %0-3r%R"⟩,
  ⟨.sxtab, 0xfa40f080, 0xfff0f0c0, .word, "sxtab%c\t%8-11r, %16-19r, %0-3r%R"⟩,
  ⟨.uxtab, 0xfa50f080, 0xfff0f0c0, .word, "uxtab%c\t%8-11r, %16-19r, %0-3r%R"⟩,
  ⟨.smul, 0xfb10f000, 0xfff0f0c0, .word, "smul%5?tb%4?tb%c\t%8-11r, %16-19r, %0-3r"⟩,
  ⟨.bfc, 0xf36f0000, 0xffff8020, .word, "bfc%c\t%8-11r, %E"⟩]

def thumbRows3 : List ThumbOpcode := [
  ⟨.tst, 0xea100f00, 0xfff08f00, .word, "tst%c.w\t%16-19r, %S"⟩,
  ⟨.teq, 0xea900f00, 0xfff08f00, .word, "teq%c\t%16-19r, %S"⟩,
  ⟨.cmn, 0xeb100f00, 0xfff08f00, .word, "cmn%c.w\t%16-19r, %S"⟩,
  ⟨.cmp, 0xebb00f00, 0xfff08f00, .word, "cmp%c.w\t%16-19r, %S"⟩,
  ⟨.tst, 0xf0100f00, 0xfbf08f00, .word, "tst%c.w\t%16-19r, %M"⟩,
  ⟨.teq, 0xf0900f00, 0xfbf08f00, .word, "teq%c\t%16-19r, %M"⟩,
  ⟨.cmn, 0xf1100f00, 0xfbf08f00, .word, "cmn%c.w\t%16-19r, %M"⟩,
  ⟨.cmp, 0xf1b00f00, 0xfbf08f00, .word, "cmp%c.w\t%16-19r, %M"⟩,
  ⟨.mov, 0xea4f0000, 0xffef8000, .word, "mov%20's%c.w\t%8-11r, %S"⟩,
  ⟨.mvn, 0xea6f0000, 0xffef8000, .word, "mvn%20's%c.w\t%8-11r, %S"⟩,
  ⟨.strexd, 0xe8c00070, 0xfff000f0, .word, "strexd%c\t%0-3r, %12-15r, %8-11r, [%16-19r]"⟩,
  ⟨.mla, 0xfb000000, 0xfff000f0, .word, "mla%c\t%8-11r, %16-19r, %0-3r, %12-15r"⟩,
  ⟨.mls, 0xfb000010, 0xfff000f0, .word, "mls%c\t%8-11r, %16-19r, %0-3r, %12-15r"⟩,
  ⟨.usada8, 0xfb700000, 0xfff000f0, .word, "usada8%c\t%8-11R, %16-19R, %0-3R, %12-15R"⟩,
  ⟨.smull, 0xfb800000, 0xfff000f0, .word, "smull%c\t%12-15R, %8-11R, %16-19R, %0-3R"⟩,
  ⟨.umull, 0xfba00000, 0xfff000f0, .word, "umull%c\t%12-15R, %8-11R, %16-19R, %0-3R"⟩,
  ⟨.smlal, 0xfbc00000, 0xfff000f0, .word, "smlal%c\t%12-15R, %8-11R, %16-19R, %0-3R"⟩,
  ⟨.umlal, 0xfbe00000, 0xfff000f0, .word, "umlal%c\t%12-15R, %8-11R, %16-19R, %0-3R"⟩,
  ⟨.umaal, 0xfbe00060, 0xfff000f0, .word, "umaal%c\t%12-15R, %8-11R, %16-19R, %0-3R"⟩,
  ⟨.ldrex, 0xe8500f00, 0xfff00f00, .word, "ldrex%c\t%12-15r, [%16-19r, %\x7bI:#%0-7W%\x7d]"⟩,
  ⟨.mov, 0xf04f0000, 0xfbef8000, .word, "mov%20's%c.w\t%8-11r, %M"⟩,
  ⟨.mvn, 0xf06f0000, 0xfbef8000, .word, "mvn%20's%c.w\t%8-11r, %M"⟩,
  ⟨.pld, 0xf810f000, 0xff70f000, .word, "pld%c\t%a"⟩,
  ⟨.smlad, 0xfb200000, 0xfff000e0, .word, "smlad%4'x%c\t%8-11R, %16-19R, %0-3R, %12-15R"⟩,
  ⟨.smlaw, 0xfb300000, 0xfff000e0, .word, "smlaw%4?tb%c\t%8-11R, %16-19R, %0-3R, %12-15R"⟩,
  ⟨.smlsd, 0xfb400000, 0xfff000e0, .word, "smlsd%4'x%c\t%8-11R, %16-19R, %0-3R, %12-15R"⟩,
  ⟨.smmla, 0xfb500000, 0xfff000e0, .word, "smmla%4'r%c\t%8-11R, %16-19R, %0-3R, %12-15R"⟩,
  ⟨.smmls, 0xfb600000, 0xfff000e0, .word, "smmls%4'r%c\t%8-11R, %16-19R, %0-3R, %12-15R"⟩,
  ⟨.smlald, 0xfbc000c0, 0xfff000e0, .word, "smlald%4'x%c\t%12-15R, %8-11R, %16-19R, %0-3R"⟩,
  ⟨.smlsld, 0xfbd000c0, 0xfff000e0, .word, "smlsld%4'x%c\t%12-15R, %8-11R, %16-19R, %0-3R"⟩,
  ⟨.pkhbt, 0xeac00000, 0xfff08030, .word, "pkhbt%c\t%8-11r, %16-19r, %S"⟩,
  ⟨.pkhtb, 0xeac00020, 0xfff08030, .word, "pkhtb%c\t%8-11r, %16-19r, %S"⟩,
  ⟨.sbfx, 0xf3400000, 0xfff08020, .word, "sbfx%c\t%8-11r, %16-19r, %F"⟩,
  ⟨.ubfx, 0xf3c00000, 0xfff08020, .word, "ubfx%c\t%8-11r, %16-19r, %F"⟩,
  ⟨.str, 0xf8000e00, 0xff900f00, .word, "str%wt%c\t%12-15r, %a"⟩,
  ⟨.smla, 0xfb100000, 0xfff000c0, .word, "smla%5?tb%4?tb%c\t%8-11r, %16-19r, %0-3r, %12-15r"⟩,
  ⟨.smlal, 0xfbc00080, 0xfff000c0, .word, "smlal%5?tb%4?tb%c\t%12-15r, %8-11r, %16-19r, %0-3r"⟩,
  ⟨.bfi, 0xf3600000, 0xfff08020, .word, "bfi%c\t%8-11r, %16-19r, %E"⟩,
  ⟨.ldr, 0xf8100e00, 0xfe900f00, .word, "ldr%wt%c\t%12-15r, %a"⟩,
  ⟨.ssat, 0xf3000000, 0xffd08020, .word, "ssat%c\t%8-11r, %\x7bI:#%0-4D%\x7d, %16-19r%s"⟩,
  ⟨.usat, 0xf3800000, 0xffd08020, .word, "usat%c\t%8-11r, %\x7bI:#%0-4d%\x7d, %16-19r%s"⟩,
  ⟨.addw, 0xf2000000, 0xfbf08000, .word, "addw%c\t%8-11r, %16-19r, %I"⟩,
  ⟨.movw, 0xf2400000, 0xfbf08000, .word, "movw%c\t%8-11r, %J"⟩,
  ⟨.subw, 0xf2a00000, 0xfbf08000, .word, "subw%c\t%8-11r, %16-19r, %I"⟩,
  ⟨.movt, 0xf2c00000, 0xfbf08000, .word, "movt%c\t%8-11r, %J"⟩,
  ⟨.and, 0xea000000, 0xffe08000, .word, "and%20's%c.w\t%8-11r, %16-19r, %S"⟩,
  ⟨.bic, 0xea200000, 0xffe08000, .word, "bic%20's%c.w\t%8-11r, %16-19r, %S"⟩,
  ⟨.orr, 0xea400000, 0xffe08000, .word, "orr%20's%c.w\t%8-11r, %16-19r, %S"⟩,
  ⟨.orn, 0xea600000, 0xffe08000, .word, "orn%20's%c\t%8-11r, %16-19r, %S"⟩,
  ⟨.eor, 0xea800000, 0xffe08000, .word, "eor%20's%c.w\t%8-11r, %16-19r, %S"⟩,
  ⟨.add, 0xeb000000, 0xffe08000, .word, "add%20's%c.w\t%8-11r, %16-19r, %S"⟩,
  ⟨.adc, 0xeb400000, 0xffe08000, .word, "adc%20's%c.w\t%8-11r, %16-19r, %S"⟩,
  ⟨.sbc, 0xeb600000, 0xffe08000, .word, "sbc%20's%c.w\t%8-11r, %16-19r, %S"⟩,
  ⟨.sub, 0xeba00000, 0xffe08000, .word, "sub%20's%c.w\t%8-11r, %16-19r, %S"⟩,
  ⟨.rsb, 0xebc00000, 0xffe08000, .word, "rsb%20's%c\t%8-11r, %16-19r, %S"⟩,
  ⟨.strex, 0xe8400000, 0xfff00000, .word, "strex%c\t%8-11r, %12-15r, [%16-19r, %\x7bI:#%0-7W%\x7d]"⟩,
  ⟨.and, 0xf0000000, 0xfbe08000, .word, "and%20's%c.w\t%8-11r, %16-19r, %M"⟩,
  ⟨.bic, 0xf0200000, 0xfbe08000, .word, "bic%20's%c.w\t%8-11r, %16-19r, %M"⟩,
  ⟨.orr, 0xf0400000, 0xfbe08000, .word, "orr%20's%c.w\t%8-11r, %16-19r, %M"⟩,
  ⟨.orn, 0xf0600000, 0xfbe08000, .word, "orn%20's%c\t%8-11r, %16-19r, %M"⟩,
  ⟨.eor, 0xf0800000, 0xfbe08000, .word, "eor%20's%c.w\t%8-11r, %16-19r, %M"⟩,
  ⟨.add, 0xf1000000, 0xfbe08000, .word, "add%20's%c.w\t%8-11r, %16-19r, %M"⟩,
  ⟨.adc, 0xf1400000, 0xfbe08000, .word, "adc%20's%c.w\t%8-11r, %16-19r, %M"⟩,
  ⟨.sbc, 0xf1600000, 0xfbe08000, .word, "sbc%20's%c.w\t%8-11r, %16-19r, %M"⟩,
  ⟨.sub, 0xf1a00000, 0xfbe08000, .word, "sub%20's%c.w\t%8-11r, %16-19r, %M"⟩,
  ⟨.rsb, 0xf1c00000, 0xfbe08000, .word, "rsb%20's%c\t%8-11r, %16-19r, %M"⟩,
  ⟨.stmia, 0xe8800000, 0xffd00000, .word, "stmia%c.w\t%16-19r%21'!, %m"⟩,
  ⟨.ldmia, 0xe8900000, 0xffd00000, .word, "ldmia%c.w\t%16-19r%21'!, %m"⟩,
  ⟨.stmdb, 0xe9000000, 0xffd00000, .word, "stmdb%c\t%16-19r%21'!, %m"⟩,
  ⟨.ldmdb, 0xe9100000, 0xffd00000, .word, "ldmdb%c\t%16-19r%21'!, %m"⟩,
  ⟨.strd, 0xe9c00000, 0xffd000ff, .word, "strd%c\t%12-15r, %8-11r, [%16-19r]"⟩,
  ⟨.ldrd, 0xe9d00000, 0xffd000ff, .word, "ldrd%c\t%12-15r, %8-11r, [%16-19r]"⟩,
  ⟨.strd, 0xe9400000, 0xff500000, .word, "strd%c\t%12-15r, %8-11r, [%16-19r, %\x7bI:#%23`-%0-7W%\x7d]%21'!%L"⟩,
  ⟨.ldrd, 0xe9500000, 0xff500000, .word, "ldrd%c\t%12-15r, %8-11r, [%16-19r, %\x7bI:#%23`-%0-7W%\x7d]%21'!%L"⟩,
  ⟨.strd, 0xe8600000, 0xff700000, .word, "strd%c\t%12-15r, %8-11r, [%16-19r], %\x7bI:#%23`-%0-7W%\x7d%L"⟩,
  ⟨.ldrd, 0xe8700000, 0xff700000, .word, "ldrd%c\t%12-15r, %8-11r, [%16-19r], %\x7bI:#%23`-%0-7W%\x7d%L"⟩,
  ⟨.str, 0xf8000000, 0xff100000, .word, "str%w%c.w\t%12-15r, %a"⟩,
  ⟨.ldr, 0xf8100000, 0xfe100000, .word, "ldr%w%c.w\t%12-15r, %a"⟩,
  ⟨.undefined, 0xf3c08000, 0xfbc0d000, .word, "undefined (bcc, cond=0xF)"⟩,
  ⟨.undefined, 0xf3808000, 0xfbc0d000, .word, "undefined (bcc, cond=0xE)"⟩,
  ⟨.b, 0xf0008000, 0xf800d000, .word, "b%22-25c.w\t%b%X"⟩,
  ⟨.b, 0xf0009000, 0xf800d000, .word, "b%c.w\t%B%x"⟩,
  ⟨.blx, 0xf000c000, 0xf800d001, .word, "blx%c\t%B%x"⟩,
  ⟨.bl, 0xf000d000, 0xf800d000, .word, "bl%c\t%B%x"⟩]

/-- Every row, in source order. -/
def thumbOpcodeTable : List ThumbOpcode :=
  thumbRows0 ++ thumbRows1 ++ thumbRows2 ++ thumbRows3

end Armv8Encode.Armv7
