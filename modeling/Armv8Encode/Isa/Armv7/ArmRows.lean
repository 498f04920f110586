/-
  Armv8Encode.Isa.Armv7.ArmRows — the imported ARM-mode opcode table.

  The rows are those of the source table, in its order: the mnemonic, the
  fixed bits and the format string.  Every form is one 32-bit word.
-/
import Armv8Encode.Lib.Words

namespace Armv8Encode.Armv7

inductive ArmMnemonic where
  | unknown | adc | add | and | asr | b | bfc | bfi | bic | bkpt | blx | bx | bxj | clrex | clz
  | cmn | cmp | cps | cpsid | cpsie | crc32b | crc32cb | crc32ch | crc32cw | crc32h | crc32w
  | csdb | dbg | dfb | dmb | dsb | eor | eret | esb | hlt | hvc | isb | lda | ldab | ldaex
  | ldaexb | ldaexd | ldaexh | ldah | ldm | ldmfd | ldr | ldrb | ldrd | ldrex | ldrexb | ldrexd
  | ldrexh | ldrt | lsl | lsr | mla | mls | mov | movt | movw | mrs | msr | mul | mvn | nop
  | orr | pkhbt | pkhtb | pld | pldw | pli | pop | pssbb | push | qadd | qadd16 | qadd8 | qasx
  | qdadd | qdsub | qsax | qsub | qsub16 | qsub8 | rbit | rev | rev16 | revsh | rfe | ror | rrx
  | rsb | rsc | sadd16 | sadd8 | sasx | sb | sbc | sdiv | sel | setend | setpan | sev | sevl
  | shadd16 | shadd8 | shasx | shsax | shsub16 | shsub8 | smc | smlabb | smlabt | smlad
  | smlalbb | smlalbt | smlald | smlaltb | smlaltt | smlatb | smlatt | smlawb | smlawt | smlsd
  | smlsld | smmla | smmls | smmul | smuad | smulbb | smulbt | smultb | smultt | smulwb | smulwt
  | smusd | srs | ssat | ssat16 | ssax | ssbb | ssub16 | ssub8 | stl | stlb | stlex | stlexb
  | stlexd | stlexh | stlh | stm | stmfd | str | strb | strd | strex | strexb | strexd | strexh
  | strh | strht | sub | svc | swp | sxtab | sxtab16 | sxtah | sxtb | sxtb16 | sxth | teq | tst
  | uadd16 | uadd8 | uasx | udf | udiv | uhadd16 | uhadd8 | uhasx | uhsax | uhsub16 | uhsub8
  | umaal | uqadd16 | uqadd8 | uqasx | uqsax | uqsub16 | uqsub8 | usad8 | usada8 | usat | usat16
  | usax | usub16 | usub8 | uxtab | uxtab16 | uxtah | uxtb | uxtb16 | uxth | wfe | wfi | yield
  deriving Repr, DecidableEq

structure ArmOpcode where
  mnemonic : ArmMnemonic
  opcode : Word
  mask : Word
  format : String
  deriving Repr, DecidableEq

def armRows0 : List ArmOpcode := [
  ⟨.nop, 0xe1a00000, 0xffffffff, "nop\t\t\t@ (mov r0, r0)"⟩,
  ⟨.udf, 0xe7f000f0, 0xfff000f0, "udf\t%\x7bI:#%e%\x7d"⟩,
  ⟨.bx, 0x12fff10, 0xffffff0, "bx%c\t%0-3r"⟩,
  ⟨.mul, 0x90, 0xfe000f0, "mul%20's%c\t%16-19R, %0-3R, %8-11R"⟩,
  ⟨.mla, 0x200090, 0xfe000f0, "mla%20's%c\t%16-19R, %0-3R, %8-11R, %12-15R"⟩,
  ⟨.swp, 0x1000090, 0xfb00ff0, "swp%22'b%c\t%12-15RU, %0-3Ru, [%16-19RuU]"⟩,
  ⟨.unknown, 0x800090, 0xfa000f0, "%22?sumull%20's%c\t%12-15Ru, %16-19Ru, %0-3R, %8-11R"⟩,
  ⟨.unknown, 0xa00090, 0xfa000f0, "%22?sumlal%20's%c\t%12-15Ru, %16-19Ru, %0-3R, %8-11R"⟩,
  ⟨.esb, 0xe320f010, 0xffffffff, "esb"⟩,
  ⟨.dfb, 0xf57ff04c, 0xffffffff, "dfb"⟩,
  ⟨.sevl, 0x320f005, 0xfffffff, "sevl"⟩,
  ⟨.hlt, 0xe1000070, 0xfff000f0, "hlt\t%\x7bI:0x%16-19X%12-15X%8-11X%0-3X%\x7d"⟩,
  ⟨.stlex, 0x1800e90, 0xff00ff0, "stlex%c\t%12-15r, %0-3r, [%16-19R]"⟩,
  ⟨.ldaex, 0x1900e9f, 0xff00fff, "ldaex%c\t%12-15r, [%16-19R]"⟩,
  ⟨.stlexd, 0x1a00e90, 0xff00ff0, "stlexd%c\t%12-15r, %0-3r, %0-3T, [%16-19R]"⟩,
  ⟨.ldaexd, 0x1b00e9f, 0xff00fff, "ldaexd%c\t%12-15r, %12-15T, [%16-19R]"⟩,
  ⟨.stlexb, 0x1c00e90, 0xff00ff0, "stlexb%c\t%12-15r, %0-3r, [%16-19R]"⟩,
  ⟨.ldaexb, 0x1d00e9f, 0xff00fff, "ldaexb%c\t%12-15r, [%16-19R]"⟩,
  ⟨.stlexh, 0x1e00e90, 0xff00ff0, "stlexh%c\t%12-15r, %0-3r, [%16-19R]"⟩,
  ⟨.ldaexh, 0x1f00e9f, 0xff00fff, "ldaexh%c\t%12-15r, [%16-19R]"⟩,
  ⟨.stl, 0x180fc90, 0xff0fff0, "stl%c\t%0-3r, [%16-19R]"⟩,
  ⟨.lda, 0x1900c9f, 0xff00fff, "lda%c\t%12-15r, [%16-19R]"⟩,
  ⟨.stlb, 0x1c0fc90, 0xff0fff0, "stlb%c\t%0-3r, [%16-19R]"⟩,
  ⟨.ldab, 0x1d00c9f, 0xff00fff, "ldab%c\t%12-15r, [%16-19R]"⟩,
  ⟨.stlh, 0x1e0fc90, 0xff0fff0, "stlh%c\t%0-3r, [%16-19R]"⟩,
  ⟨.ldah, 0x1f00c9f, 0xff00fff, "ldah%c\t%12-15r, [%16-19R]"⟩,
  ⟨.crc32b, 0xe1000040, 0xfff00ff0, "crc32b\t%12-15R, %16-19R, %0-3R"⟩,
  ⟨.crc32h, 0xe1200040, 0xfff00ff0, "crc32h\t%12-15R, %16-19R, %0-3R"⟩,
  ⟨.crc32w, 0xe1400040, 0xfff00ff0, "crc32w\t%12-15R, %16-19R, %0-3R"⟩,
  ⟨.crc32cb, 0xe1000240, 0xfff00ff0, "crc32cb\t%12-15R, %16-19R, %0-3R"⟩,
  ⟨.crc32ch, 0xe1200240, 0xfff00ff0, "crc32ch\t%12-15R, %16-19R, %0-3R"⟩,
  ⟨.crc32cw, 0xe1400240, 0xfff00ff0, "crc32cw\t%12-15R, %16-19R, %0-3R"⟩,
  ⟨.setpan, 0xf1100000, 0xfffffdff, "setpan\t%\x7bI:#%9-9d%\x7d"⟩,
  ⟨.eret, 0x160006e, 0xfffffff, "eret%c"⟩,
  ⟨.hvc, 0x1400070, 0xff000f0, "hvc%c\t%e"⟩,
  ⟨.sdiv, 0x710f010, 0xff0f0f0, "sdiv%c\t%16-19r, %0-3r, %8-11r"⟩,
  ⟨.udiv, 0x730f010, 0xff0f0f0, "udiv%c\t%16-19r, %0-3r, %8-11r"⟩,
  ⟨.pldw, 0xf410f000, 0xfc70f000, "pldw\t%a"⟩,
  ⟨.csdb, 0xe320f014, 0xffffffff, "csdb"⟩,
  ⟨.ssbb, 0xf57ff040, 0xffffffff, "ssbb"⟩,
  ⟨.pssbb, 0xf57ff044, 0xffffffff, "pssbb"⟩,
  ⟨.pli, 0xf450f000, 0xfd70f000, "pli\t%P"⟩,
  ⟨.dbg, 0x320f0f0, 0xffffff0, "dbg%c\t%\x7bI:#%0-3d%\x7d"⟩,
  ⟨.dmb, 0xf57ff051, 0xfffffff3, "dmb\t%U"⟩,
  ⟨.dsb, 0xf57ff041, 0xfffffff3, "dsb\t%U"⟩,
  ⟨.dmb, 0xf57ff050, 0xfffffff0, "dmb\t%U"⟩,
  ⟨.dsb, 0xf57ff040, 0xfffffff0, "dsb\t%U"⟩,
  ⟨.isb, 0xf57ff060, 0xfffffff0, "isb\t%U"⟩,
  ⟨.nop, 0x320f000, 0xfffffff, "nop%c\t\x7b%\x7bI:%0-7d%\x7d\x7d"⟩,
  ⟨.bfc, 0x7c0001f, 0xfe0007f, "bfc%c\t%12-15R, %E"⟩,
  ⟨.bfi, 0x7c00010, 0xfe00070, "bfi%c\t%12-15R, %0-3r, %E"⟩,
  ⟨.mls, 0x600090, 0xff000f0, "mls%c\t%16-19R, %0-3R, %8-11R, %12-15R"⟩,
  ⟨.strht, 0x2000b0, 0xf3000f0, "strht%c\t%12-15R, %S"⟩,
  ⟨.ldr, 0x300090, 0xf300090, "ldr%6's%5?hbt%c\t%12-15R, %S"⟩,
  ⟨.movw, 0x3000000, 0xff00000, "movw%c\t%12-15R, %V"⟩,
  ⟨.movt, 0x3400000, 0xff00000, "movt%c\t%12-15R, %V"⟩,
  ⟨.rbit, 0x6ff0f30, 0xfff0ff0, "rbit%c\t%12-15R, %0-3R"⟩,
  ⟨.unknown, 0x7a00050, 0xfa00070, "%22?usbfx%c\t%12-15r, %0-3r, %\x7bI:#%7-11d%\x7d, %\x7bI:#%16-20W%\x7d"⟩,
  ⟨.smc, 0x1600070, 0xff000f0, "smc%c\t%e"⟩,
  ⟨.clrex, 0xf57ff01f, 0xffffffff, "clrex"⟩,
  ⟨.ldrexb, 0x1d00f9f, 0xff00fff, "ldrexb%c\t%12-15R, [%16-19R]"⟩,
  ⟨.ldrexd, 0x1b00f9f, 0xff00fff, "ldrexd%c\t%12-15r, [%16-19R]"⟩,
  ⟨.ldrexh, 0x1f00f9f, 0xff00fff, "ldrexh%c\t%12-15R, [%16-19R]"⟩,
  ⟨.strexb, 0x1c00f90, 0xff00ff0, "strexb%c\t%12-15R, %0-3R, [%16-19R]"⟩,
  ⟨.strexd, 0x1a00f90, 0xff00ff0, "strexd%c\t%12-15R, %0-3r, [%16-19R]"⟩,
  ⟨.strexh, 0x1e00f90, 0xff00ff0, "strexh%c\t%12-15R, %0-3R, [%16-19R]"⟩,
  ⟨.sb, 0xf57ff070, 0xffffffff, "sb"⟩,
  ⟨.yield, 0x320f001, 0xfffffff, "yield%c"⟩,
  ⟨.wfe, 0x320f002, 0xfffffff, "wfe%c"⟩,
  ⟨.wfi, 0x320f003, 0xfffffff, "wfi%c"⟩,
  ⟨.sev, 0x320f004, 0xfffffff, "sev%c"⟩,
  ⟨.nop, 0x320f000, 0xfffff00, "nop%c\t\x7b%\x7bI:%0-7d%\x7d\x7d"⟩,
  ⟨.cpsie, 0xf1080000, 0xfffffe3f, "cpsie\t%\x7bB:%8'a%7'i%6'f%\x7d"⟩,
  ⟨.cpsie, 0xf10a0000, 0xfffffe20, "cpsie\t%\x7bB:%8'a%7'i%6'f%\x7d, %\x7bI:#%0-4d%\x7d"⟩,
  ⟨.cpsid, 0xf10c0000, 0xfffffe3f, "cpsid\t%\x7bB:%8'a%7'i%6'f%\x7d"⟩,
  ⟨.cpsid, 0xf10e0000, 0xfffffe20, "cpsid\t%\x7bB:%8'a%7'i%6'f%\x7d, %\x7bI:#%0-4d%\x7d"⟩,
  ⟨.cps, 0xf1000000, 0xfff1fe20, "cps\t%\x7bI:#%0-4d%\x7d"⟩,
  ⟨.pkhbt, 0x6800010, 0xff00ff0, "pkhbt%c\t%12-15R, %16-19R, %0-3R"⟩,
  ⟨.pkhbt, 0x6800010, 0xff00070, "pkhbt%c\t%12-15R, %16-19R, %0-3R, %\x7bB:lsl%\x7d %\x7bI:#%7-11d%\x7d"⟩,
  ⟨.pkhtb, 0x6800050, 0xff00ff0, "pkhtb%c\t%12-15R, %16-19R, %0-3R, %\x7bB:asr%\x7d %\x7bI:#32%\x7d"⟩,
  ⟨.pkhtb, 0x6800050, 0xff00070, "pkhtb%c\t%12-15R, %16-19R, %0-3R, %\x7bB:asr%\x7d %\x7bI:#%7-11d%\x7d"⟩,
  ⟨.ldrex, 0x1900f9f, 0xff00fff, "ldrex%c\t%\x7bR:r%12-15d%\x7d, [%16-19R]"⟩,
  ⟨.qadd16, 0x6200f10, 0xff00ff0, "qadd16%c\t%12-15R, %16-19R, %0-3R"⟩,
  ⟨.qadd8, 0x6200f90, 0xff00ff0, "qadd8%c\t%12-15R, %16-19R, %0-3R"⟩]

def armRows1 : List ArmOpcode := [
  ⟨.qasx, 0x6200f30, 0xff00ff0, "qasx%c\t%12-15R, %16-19R, %0-3R"⟩,
  ⟨.qsub16, 0x6200f70, 0xff00ff0, "qsub16%c\t%12-15R, %16-19R, %0-3R"⟩,
  ⟨.qsub8, 0x6200ff0, 0xff00ff0, "qsub8%c\t%12-15R, %16-19R, %0-3R"⟩,
  ⟨.qsax, 0x6200f50, 0xff00ff0, "qsax%c\t%12-15R, %16-19R, %0-3R"⟩,
  ⟨.sadd16, 0x6100f10, 0xff00ff0, "sadd16%c\t%12-15R, %16-19R, %0-3R"⟩,
  ⟨.sadd8, 0x6100f90, 0xff00ff0, "sadd8%c\t%12-15R, %16-19R, %0-3R"⟩,
  ⟨.sasx, 0x6100f30, 0xff00ff0, "sasx%c\t%12-15R, %16-19R, %0-3R"⟩,
  ⟨.shadd16, 0x6300f10, 0xff00ff0, "shadd16%c\t%12-15R, %16-19R, %0-3R"⟩,
  ⟨.shadd8, 0x6300f90, 0xff00ff0, "shadd8%c\t%12-15R, %16-19R, %0-3R"⟩,
  ⟨.shasx, 0x6300f30, 0xff00ff0, "shasx%c\t%12-15R, %16-19R, %0-3R"⟩,
  ⟨.shsub16, 0x6300f70, 0xff00ff0, "shsub16%c\t%12-15R, %16-19R, %0-3R"⟩,
  ⟨.shsub8, 0x6300ff0, 0xff00ff0, "shsub8%c\t%12-15R, %16-19R, %0-3R"⟩,
  ⟨.shsax, 0x6300f50, 0xff00ff0, "shsax%c\t%12-15R, %16-19R, %0-3R"⟩,
  ⟨.ssub16, 0x6100f70, 0xff00ff0, "ssub16%c\t%12-15R, %16-19R, %0-3R"⟩,
  ⟨.ssub8, 0x6100ff0, 0xff00ff0, "ssub8%c\t%12-15R, %16-19R, %0-3R"⟩,
  ⟨.ssax, 0x6100f50, 0xff00ff0, "ssax%c\t%12-15R, %16-19R, %0-3R"⟩,
  ⟨.uadd16, 0x6500f10, 0xff00ff0, "uadd16%c\t%12-15R, %16-19R, %0-3R"⟩,
  ⟨.uadd8, 0x6500f90, 0xff00ff0, "uadd8%c\t%12-15R, %16-19R, %0-3R"⟩,
  ⟨.uasx, 0x6500f30, 0xff00ff0, "uasx%c\t%12-15R, %16-19R, %0-3R"⟩,
  ⟨.uhadd16, 0x6700f10, 0xff00ff0, "uhadd16%c\t%12-15R, %16-19R, %0-3R"⟩,
  ⟨.uhadd8, 0x6700f90, 0xff00ff0, "uhadd8%c\t%12-15R, %16-19R, %0-3R"⟩,
  ⟨.uhasx, 0x6700f30, 0xff00ff0, "uhasx%c\t%12-15R, %16-19R, %0-3R"⟩,
  ⟨.uhsub16, 0x6700f70, 0xff00ff0, "uhsub16%c\t%12-15R, %16-19R, %0-3R"⟩,
  ⟨.uhsub8, 0x6700ff0, 0xff00ff0, "uhsub8%c\t%12-15R, %16-19R, %0-3R"⟩,
  ⟨.uhsax, 0x6700f50, 0xff00ff0, "uhsax%c\t%12-15R, %16-19R, %0-3R"⟩,
  ⟨.uqadd16, 0x6600f10, 0xff00ff0, "uqadd16%c\t%12-15R, %16-19R, %0-3R"⟩,
  ⟨.uqadd8, 0x6600f90, 0xff00ff0, "uqadd8%c\t%12-15R, %16-19R, %0-3R"⟩,
  ⟨.uqasx, 0x6600f30, 0xff00ff0, "uqasx%c\t%12-15R, %16-19R, %0-3R"⟩,
  ⟨.uqsub16, 0x6600f70, 0xff00ff0, "uqsub16%c\t%12-15R, %16-19R, %0-3R"⟩,
  ⟨.uqsub8, 0x6600ff0, 0xff00ff0, "uqsub8%c\t%12-15R, %16-19R, %0-3R"⟩,
  ⟨.uqsax, 0x6600f50, 0xff00ff0, "uqsax%c\t%12-15R, %16-19R, %0-3R"⟩,
  ⟨.usub16, 0x6500f70, 0xff00ff0, "usub16%c\t%12-15R, %16-19R, %0-3R"⟩,
  ⟨.usub8, 0x6500ff0, 0xff00ff0, "usub8%c\t%12-15R, %16-19R, %0-3R"⟩,
  ⟨.usax, 0x6500f50, 0xff00ff0, "usax%c\t%12-15R, %16-19R, %0-3R"⟩,
  ⟨.rev, 0x6bf0f30, 0xfff0ff0, "rev%c\t%12-15R, %0-3R"⟩,
  ⟨.rev16, 0x6bf0fb0, 0xfff0ff0, "rev16%c\t%12-15R, %0-3R"⟩,
  ⟨.revsh, 0x6ff0fb0, 0xfff0ff0, "revsh%c\t%12-15R, %0-3R"⟩,
  ⟨.rfe, 0xf8100a00, 0xfe50ffff, "rfe%23?id%24?ba\t%16-19r%21'!"⟩,
  ⟨.sxth, 0x6bf0070, 0xfff0ff0, "sxth%c\t%12-15R, %0-3R"⟩,
  ⟨.sxth, 0x6bf0470, 0xfff0ff0, "sxth%c\t%12-15R, %0-3R, %\x7bB:ror%\x7d %\x7bI:#8%\x7d"⟩,
  ⟨.sxth, 0x6bf0870, 0xfff0ff0, "sxth%c\t%12-15R, %0-3R, %\x7bB:ror%\x7d %\x7bI:#16%\x7d"⟩,
  ⟨.sxth, 0x6bf0c70, 0xfff0ff0, "sxth%c\t%12-15R, %0-3R, %\x7bB:ror%\x7d %\x7bI:#24%\x7d"⟩,
  ⟨.sxtb16, 0x68f0070, 0xfff0ff0, "sxtb16%c\t%12-15R, %0-3R"⟩,
  ⟨.sxtb16, 0x68f0470, 0xfff0ff0, "sxtb16%c\t%12-15R, %0-3R, %\x7bB:ror%\x7d %\x7bI:#8%\x7d"⟩,
  ⟨.sxtb16, 0x68f0870, 0xfff0ff0, "sxtb16%c\t%12-15R, %0-3R, %\x7bB:ror%\x7d %\x7bI:#16%\x7d"⟩,
  ⟨.sxtb16, 0x68f0c70, 0xfff0ff0, "sxtb16%c\t%12-15R, %0-3R, %\x7bB:ror%\x7d %\x7bI:#24%\x7d"⟩,
  ⟨.sxtb, 0x6af0070, 0xfff0ff0, "sxtb%c\t%12-15R, %0-3R"⟩,
  ⟨.sxtb, 0x6af0470, 0xfff0ff0, "sxtb%c\t%12-15R, %0-3R, %\x7bB:ror%\x7d %\x7bI:#8%\x7d"⟩,
  ⟨.sxtb, 0x6af0870, 0xfff0ff0, "sxtb%c\t%12-15R, %0-3R, %\x7bB:ror%\x7d %\x7bI:#16%\x7d"⟩,
  ⟨.sxtb, 0x6af0c70, 0xfff0ff0, "sxtb%c\t%12-15R, %0-3R, %\x7bB:ror%\x7d %\x7bI:#24%\x7d"⟩,
  ⟨.uxth, 0x6ff0070, 0xfff0ff0, "uxth%c\t%12-15R, %0-3R"⟩,
  ⟨.uxth, 0x6ff0470, 0xfff0ff0, "uxth%c\t%12-15R, %0-3R, %\x7bB:ror%\x7d %\x7bI:#8%\x7d"⟩,
  ⟨.uxth, 0x6ff0870, 0xfff0ff0, "uxth%c\t%12-15R, %0-3R, %\x7bB:ror%\x7d %\x7bI:#16%\x7d"⟩,
  ⟨.uxth, 0x6ff0c70, 0xfff0ff0, "uxth%c\t%12-15R, %0-3R, %\x7bB:ror%\x7d %\x7bI:#24%\x7d"⟩,
  ⟨.uxtb16, 0x6cf0070, 0xfff0ff0, "uxtb16%c\t%12-15R, %0-3R"⟩,
  ⟨.uxtb16, 0x6cf0470, 0xfff0ff0, "uxtb16%c\t%12-15R, %0-3R, %\x7bB:ror%\x7d %\x7bI:#8%\x7d"⟩,
  ⟨.uxtb16, 0x6cf0870, 0xfff0ff0, "uxtb16%c\t%12-15R, %0-3R, %\x7bB:ror%\x7d %\x7bI:#16%\x7d"⟩,
  ⟨.uxtb16, 0x6cf0c70, 0xfff0ff0, "uxtb16%c\t%12-15R, %0-3R, %\x7bB:ror%\x7d %\x7bI:#24%\x7d"⟩,
  ⟨.uxtb, 0x6ef0070, 0xfff0ff0, "uxtb%c\t%12-15R, %0-3R"⟩,
  ⟨.uxtb, 0x6ef0470, 0xfff0ff0, "uxtb%c\t%12-15R, %0-3R, %\x7bB:ror%\x7d %\x7bI:#8%\x7d"⟩,
  ⟨.uxtb, 0x6ef0870, 0xfff0ff0, "uxtb%c\t%12-15R, %0-3R, %\x7bB:ror%\x7d %\x7bI:#16%\x7d"⟩,
  ⟨.uxtb, 0x6ef0c70, 0xfff0ff0, "uxtb%c\t%12-15R, %0-3R, %\x7bB:ror%\x7d %\x7bI:#24%\x7d"⟩,
  ⟨.sxtah, 0x6b00070, 0xff00ff0, "sxtah%c\t%12-15R, %16-19r, %0-3R"⟩,
  ⟨.sxtah, 0x6b00470, 0xff00ff0, "sxtah%c\t%12-15R, %16-19r, %0-3R, %\x7bB:ror%\x7d %\x7bI:#8%\x7d"⟩,
  ⟨.sxtah, 0x6b00870, 0xff00ff0, "sxtah%c\t%12-15R, %16-19r, %0-3R, %\x7bB:ror%\x7d %\x7bI:#16%\x7d"⟩,
  ⟨.sxtah, 0x6b00c70, 0xff00ff0, "sxtah%c\t%12-15R, %16-19r, %0-3R, %\x7bB:ror%\x7d %\x7bI:#24%\x7d"⟩,
  ⟨.sxtab16, 0x6800070, 0xff00ff0, "sxtab16%c\t%12-15R, %16-19r, %0-3R"⟩,
  ⟨.sxtab16, 0x6800470, 0xff00ff0, "sxtab16%c\t%12-15R, %16-19r, %0-3R, %\x7bB:ror%\x7d %\x7bI:#8%\x7d"⟩,
  ⟨.sxtab16, 0x6800870, 0xff00ff0, "sxtab16%c\t%12-15R, %16-19r, %0-3R, %\x7bB:ror%\x7d %\x7bI:#16%\x7d"⟩,
  ⟨.sxtab16, 0x6800c70, 0xff00ff0, "sxtab16%c\t%12-15R, %16-19r, %0-3R, %\x7bB:ror%\x7d %\x7bI:#24%\x7d"⟩,
  ⟨.sxtab, 0x6a00070, 0xff00ff0, "sxtab%c\t%12-15R, %16-19r, %0-3R"⟩,
  ⟨.sxtab, 0x6a00470, 0xff00ff0, "sxtab%c\t%12-15R, %16-19r, %0-3R, %\x7bB:ror%\x7d %\x7bI:#8%\x7d"⟩,
  ⟨.sxtab, 0x6a00870, 0xff00ff0, "sxtab%c\t%12-15R, %16-19r, %0-3R, %\x7bB:ror%\x7d %\x7bI:#16%\x7d"⟩,
  ⟨.sxtab, 0x6a00c70, 0xff00ff0, "sxtab%c\t%12-15R, %16-19r, %0-3R, %\x7bB:ror%\x7d %\x7bI:#24%\x7d"⟩,
  ⟨.uxtah, 0x6f00070, 0xff00ff0, "uxtah%c\t%12-15R, %16-19r, %0-3R"⟩,
  ⟨.uxtah, 0x6f00470, 0xff00ff0, "uxtah%c\t%12-15R, %16-19r, %0-3R, %\x7bB:ror%\x7d %\x7bI:#8%\x7d"⟩,
  ⟨.uxtah, 0x6f00870, 0xff00ff0, "uxtah%c\t%12-15R, %16-19r, %0-3R, %\x7bB:ror%\x7d %\x7bI:#16%\x7d"⟩,
  ⟨.uxtah, 0x6f00c70, 0xff00ff0, "uxtah%c\t%12-15R, %16-19r, %0-3R, %\x7bB:ror%\x7d %\x7bI:#24%\x7d"⟩,
  ⟨.uxtab16, 0x6c00070, 0xff00ff0, "uxtab16%c\t%12-15R, %16-19r, %0-3R"⟩,
  ⟨.uxtab16, 0x6c00470, 0xff00ff0, "uxtab16%c\t%12-15R, %16-19r, %0-3R, %\x7bB:ror%\x7d %\x7bI:#8%\x7d"⟩,
  ⟨.uxtab16, 0x6c00870, 0xff00ff0, "uxtab16%c\t%12-15R, %16-19r, %0-3R, %\x7bB:ror%\x7d %\x7bI:#16%\x7d"⟩,
  ⟨.uxtab16, 0x6c00c70, 0xff00ff0, "uxtab16%c\t%12-15R, %16-19r, %0-3R, ROR %\x7bI:#24%\x7d"⟩,
  ⟨.uxtab, 0x6e00070, 0xff00ff0, "uxtab%c\t%12-15R, %16-19r, %0-3R"⟩,
  ⟨.uxtab, 0x6e00470, 0xff00ff0, "uxtab%c\t%12-15R, %16-19r, %0-3R, %\x7bB:ror%\x7d %\x7bI:#8%\x7d"⟩]

def armRows2 : List ArmOpcode := [
  ⟨.uxtab, 0x6e00870, 0xff00ff0, "uxtab%c\t%12-15R, %16-19r, %0-3R, %\x7bB:ror%\x7d %\x7bI:#16%\x7d"⟩,
  ⟨.uxtab, 0x6e00c70, 0xff00ff0, "uxtab%c\t%12-15R, %16-19r, %0-3R, %\x7bB:ror%\x7d %\x7bI:#24%\x7d"⟩,
  ⟨.sel, 0x6800fb0, 0xff00ff0, "sel%c\t%12-15R, %16-19R, %0-3R"⟩,
  ⟨.setend, 0xf1010000, 0xfffffc00, "setend\t%\x7bB:%9?ble%\x7d"⟩,
  ⟨.smuad, 0x700f010, 0xff0f0d0, "smuad%5'x%c\t%16-19R, %0-3R, %8-11R"⟩,
  ⟨.smusd, 0x700f050, 0xff0f0d0, "smusd%5'x%c\t%16-19R, %0-3R, %8-11R"⟩,
  ⟨.smlad, 0x7000010, 0xff000d0, "smlad%5'x%c\t%16-19R, %0-3R, %8-11R, %12-15R"⟩,
  ⟨.smlald, 0x7400010, 0xff000d0, "smlald%5'x%c\t%12-15Ru, %16-19Ru, %0-3R, %8-11R"⟩,
  ⟨.smlsd, 0x7000050, 0xff000d0, "smlsd%5'x%c\t%16-19R, %0-3R, %8-11R, %12-15R"⟩,
  ⟨.smlsld, 0x7400050, 0xff000d0, "smlsld%5'x%c\t%12-15Ru, %16-19Ru, %0-3R, %8-11R"⟩,
  ⟨.smmul, 0x750f010, 0xff0f0d0, "smmul%5'r%c\t%16-19R, %0-3R, %8-11R"⟩,
  ⟨.smmla, 0x7500010, 0xff000d0, "smmla%5'r%c\t%16-19R, %0-3R, %8-11R, %12-15R"⟩,
  ⟨.smmls, 0x75000d0, 0xff000d0, "smmls%5'r%c\t%16-19R, %0-3R, %8-11R, %12-15R"⟩,
  ⟨.srs, 0xf84d0500, 0xfe5fffe0, "srs%23?id%24?ba\t%16-19r%21'!, %\x7bI:#%0-4d%\x7d"⟩,
  ⟨.ssat, 0x6a00010, 0xfe00ff0, "ssat%c\t%12-15R, %\x7bI:#%16-20W%\x7d, %0-3R"⟩,
  ⟨.ssat, 0x6a00010, 0xfe00070, "ssat%c\t%12-15R, %\x7bI:#%16-20W%\x7d, %0-3R, %\x7bB:lsl%\x7d %\x7bI:#%7-11d%\x7d"⟩,
  ⟨.ssat, 0x6a00050, 0xfe00070, "ssat%c\t%12-15R, %\x7bI:#%16-20W%\x7d, %0-3R, %\x7bB:asr%\x7d %\x7bI:#%7-11d%\x7d"⟩,
  ⟨.ssat16, 0x6a00f30, 0xff00ff0, "ssat16%c\t%12-15r, %\x7bI:#%16-19W%\x7d, %0-3r"⟩,
  ⟨.strex, 0x1800f90, 0xff00ff0, "strex%c\t%12-15R, %0-3R, [%16-19R]"⟩,
  ⟨.umaal, 0x400090, 0xff000f0, "umaal%c\t%12-15R, %16-19R, %0-3R, %8-11R"⟩,
  ⟨.usad8, 0x780f010, 0xff0f0f0, "usad8%c\t%16-19R, %0-3R, %8-11R"⟩,
  ⟨.usada8, 0x7800010, 0xff000f0, "usada8%c\t%16-19R, %0-3R, %8-11R, %12-15R"⟩,
  ⟨.usat, 0x6e00010, 0xfe00ff0, "usat%c\t%12-15R, %\x7bI:#%16-20d%\x7d, %0-3R"⟩,
  ⟨.usat, 0x6e00010, 0xfe00070, "usat%c\t%12-15R, %\x7bI:#%16-20d%\x7d, %0-3R, %\x7bB:lsl%\x7d %\x7bI:#%7-11d%\x7d"⟩,
  ⟨.usat, 0x6e00050, 0xfe00070, "usat%c\t%12-15R, %\x7bI:#%16-20d%\x7d, %0-3R, %\x7bB:asr%\x7d %\x7bI:#%7-11d%\x7d"⟩,
  ⟨.usat16, 0x6e00f30, 0xff00ff0, "usat16%c\t%12-15R, %\x7bI:#%16-19d%\x7d, %0-3R"⟩,
  ⟨.bxj, 0x12fff20, 0xffffff0, "bxj%c\t%0-3R"⟩,
  ⟨.bkpt, 0xe1200070, 0xfff000f0, "bkpt\t%\x7bI:0x%16-19X%12-15X%8-11X%0-3X%\x7d"⟩,
  ⟨.blx, 0xfa000000, 0xfe000000, "blx\t%B"⟩,
  ⟨.blx, 0x12fff30, 0xffffff0, "blx%c\t%0-3R"⟩,
  ⟨.clz, 0x16f0f10, 0xfff0ff0, "clz%c\t%12-15R, %0-3R"⟩,
  ⟨.ldrd, 0xd0, 0xe1000f0, "ldrd%c\t%12-15r, %s"⟩,
  ⟨.strd, 0xf0, 0xe1000f0, "strd%c\t%12-15r, %s"⟩,
  ⟨.pld, 0xf450f000, 0xfc70f000, "pld\t%a"⟩,
  ⟨.smlabb, 0x1000080, 0xff000f0, "smlabb%c\t%16-19R, %0-3R, %8-11R, %12-15R"⟩,
  ⟨.smlatb, 0x10000a0, 0xff000f0, "smlatb%c\t%16-19R, %0-3R, %8-11R, %12-15R"⟩,
  ⟨.smlabt, 0x10000c0, 0xff000f0, "smlabt%c\t%16-19R, %0-3R, %8-11R, %12-15R"⟩,
  ⟨.smlatt, 0x10000e0, 0xff000f0, "smlatt%c\t%16-19r, %0-3r, %8-11R, %12-15R"⟩,
  ⟨.smlawb, 0x1200080, 0xff000f0, "smlawb%c\t%16-19R, %0-3R, %8-11R, %12-15R"⟩,
  ⟨.smlawt, 0x12000c0, 0xff000f0, "smlawt%c\t%16-19R, %0-3r, %8-11R, %12-15R"⟩,
  ⟨.smlalbb, 0x1400080, 0xff000f0, "smlalbb%c\t%12-15Ru, %16-19Ru, %0-3R, %8-11R"⟩,
  ⟨.smlaltb, 0x14000a0, 0xff000f0, "smlaltb%c\t%12-15Ru, %16-19Ru, %0-3R, %8-11R"⟩,
  ⟨.smlalbt, 0x14000c0, 0xff000f0, "smlalbt%c\t%12-15Ru, %16-19Ru, %0-3R, %8-11R"⟩,
  ⟨.smlaltt, 0x14000e0, 0xff000f0, "smlaltt%c\t%12-15Ru, %16-19Ru, %0-3R, %8-11R"⟩,
  ⟨.smulbb, 0x1600080, 0xff0f0f0, "smulbb%c\t%16-19R, %0-3R, %8-11R"⟩,
  ⟨.smultb, 0x16000a0, 0xff0f0f0, "smultb%c\t%16-19R, %0-3R, %8-11R"⟩,
  ⟨.smulbt, 0x16000c0, 0xff0f0f0, "smulbt%c\t%16-19R, %0-3R, %8-11R"⟩,
  ⟨.smultt, 0x16000e0, 0xff0f0f0, "smultt%c\t%16-19R, %0-3R, %8-11R"⟩,
  ⟨.smulwb, 0x12000a0, 0xff0f0f0, "smulwb%c\t%16-19R, %0-3R, %8-11R"⟩,
  ⟨.smulwt, 0x12000e0, 0xff0f0f0, "smulwt%c\t%16-19R, %0-3R, %8-11R"⟩,
  ⟨.qadd, 0x1000050, 0xff00ff0, "qadd%c\t%12-15R, %0-3R, %16-19R"⟩,
  ⟨.qdadd, 0x1400050, 0xff00ff0, "qdadd%c\t%12-15R, %0-3R, %16-19R"⟩,
  ⟨.qsub, 0x1200050, 0xff00ff0, "qsub%c\t%12-15R, %0-3R, %16-19R"⟩,
  ⟨.qdsub, 0x1600050, 0xff00ff0, "qdsub%c\t%12-15R, %0-3R, %16-19R"⟩,
  ⟨.push, 0x52d0004, 0xfff0fff, "push%c\t\x7b%12-15r\x7d\t\t@ (str%c %12-15r, %a)"⟩,
  ⟨.strb, 0x4400000, 0xe500000, "strb%t%c\t%12-15R, %a"⟩,
  ⟨.str, 0x4000000, 0xe500000, "str%t%c\t%12-15r, %a"⟩,
  ⟨.strb, 0x6400000, 0xe500ff0, "strb%t%c\t%12-15R, %a"⟩,
  ⟨.str, 0x6000000, 0xe500ff0, "str%t%c\t%12-15r, %a"⟩,
  ⟨.strb, 0x4400000, 0xc500010, "strb%t%c\t%12-15R, %a"⟩,
  ⟨.str, 0x4000000, 0xc500010, "str%t%c\t%12-15r, %a"⟩,
  ⟨.strb, 0x4400000, 0xe500000, "strb%c\t%12-15R, %a"⟩,
  ⟨.strb, 0x6400000, 0xe500010, "strb%c\t%12-15R, %a"⟩,
  ⟨.strh, 0x4000b0, 0xe5000f0, "strh%c\t%12-15R, %s"⟩,
  ⟨.strh, 0xb0, 0xe500ff0, "strh%c\t%12-15R, %s"⟩,
  ⟨.ldr, 0x500090, 0xe500090, "ldr%6's%5?hb%c\t%12-15R, %s"⟩,
  ⟨.ldr, 0x100090, 0xe500f90, "ldr%6's%5?hb%c\t%12-15R, %s"⟩,
  ⟨.and, 0x2000000, 0xfe00000, "and%20's%c\t%12-15r, %16-19r, %o"⟩,
  ⟨.and, 0, 0xfe00010, "and%20's%c\t%12-15r, %16-19r, %o"⟩,
  ⟨.and, 0x10, 0xfe00090, "and%20's%c\t%12-15R, %16-19R, %o"⟩,
  ⟨.eor, 0x2200000, 0xfe00000, "eor%20's%c\t%12-15r, %16-19r, %o"⟩,
  ⟨.eor, 0x200000, 0xfe00010, "eor%20's%c\t%12-15r, %16-19r, %o"⟩,
  ⟨.eor, 0x200010, 0xfe00090, "eor%20's%c\t%12-15R, %16-19R, %o"⟩,
  ⟨.sub, 0x2400000, 0xfe00000, "sub%20's%c\t%12-15r, %16-19r, %o"⟩,
  ⟨.sub, 0x400000, 0xfe00010, "sub%20's%c\t%12-15r, %16-19r, %o"⟩,
  ⟨.sub, 0x400010, 0xfe00090, "sub%20's%c\t%12-15R, %16-19R, %o"⟩,
  ⟨.rsb, 0x2600000, 0xfe00000, "rsb%20's%c\t%12-15r, %16-19r, %o"⟩,
  ⟨.rsb, 0x600000, 0xfe00010, "rsb%20's%c\t%12-15r, %16-19r, %o"⟩,
  ⟨.rsb, 0x600010, 0xfe00090, "rsb%20's%c\t%12-15R, %16-19R, %o"⟩,
  ⟨.add, 0x2800000, 0xfe00000, "add%20's%c\t%12-15r, %16-19r, %o"⟩,
  ⟨.add, 0x800000, 0xfe00010, "add%20's%c\t%12-15r, %16-19r, %o"⟩,
  ⟨.add, 0x800010, 0xfe00090, "add%20's%c\t%12-15R, %16-19R, %o"⟩,
  ⟨.adc, 0x2a00000, 0xfe00000, "adc%20's%c\t%12-15r, %16-19r, %o"⟩,
  ⟨.adc, 0xa00000, 0xfe00010, "adc%20's%c\t%12-15r, %16-19r, %o"⟩]

def armRows3 : List ArmOpcode := [
  ⟨.adc, 0xa00010, 0xfe00090, "adc%20's%c\t%12-15R, %16-19R, %o"⟩,
  ⟨.sbc, 0x2c00000, 0xfe00000, "sbc%20's%c\t%12-15r, %16-19r, %o"⟩,
  ⟨.sbc, 0xc00000, 0xfe00010, "sbc%20's%c\t%12-15r, %16-19r, %o"⟩,
  ⟨.sbc, 0xc00010, 0xfe00090, "sbc%20's%c\t%12-15R, %16-19R, %o"⟩,
  ⟨.rsc, 0x2e00000, 0xfe00000, "rsc%20's%c\t%12-15r, %16-19r, %o"⟩,
  ⟨.rsc, 0xe00000, 0xfe00010, "rsc%20's%c\t%12-15r, %16-19r, %o"⟩,
  ⟨.rsc, 0xe00010, 0xfe00090, "rsc%20's%c\t%12-15R, %16-19R, %o"⟩,
  ⟨.msr, 0x120f200, 0xfb0f200, "msr%c\t%C, %0-3r"⟩,
  ⟨.msr, 0x120f000, 0xdb0f000, "msr%c\t%C, %o"⟩,
  ⟨.mrs, 0x1000000, 0xfb00cff, "mrs%c\t%12-15R, %R"⟩,
  ⟨.tst, 0x3000000, 0xfe00000, "tst%p%c\t%16-19r, %o"⟩,
  ⟨.tst, 0x1000000, 0xfe00010, "tst%p%c\t%16-19r, %o"⟩,
  ⟨.tst, 0x1000010, 0xfe00090, "tst%p%c\t%16-19R, %o"⟩,
  ⟨.teq, 0x3300000, 0xff00000, "teq%p%c\t%16-19r, %o"⟩,
  ⟨.teq, 0x1300000, 0xff00010, "teq%p%c\t%16-19r, %o"⟩,
  ⟨.teq, 0x1300010, 0xff00010, "teq%p%c\t%16-19R, %o"⟩,
  ⟨.cmp, 0x3400000, 0xfe00000, "cmp%p%c\t%16-19r, %o"⟩,
  ⟨.cmp, 0x1400000, 0xfe00010, "cmp%p%c\t%16-19r, %o"⟩,
  ⟨.cmp, 0x1400010, 0xfe00090, "cmp%p%c\t%16-19R, %o"⟩,
  ⟨.cmn, 0x3600000, 0xfe00000, "cmn%p%c\t%16-19r, %o"⟩,
  ⟨.cmn, 0x1600000, 0xfe00010, "cmn%p%c\t%16-19r, %o"⟩,
  ⟨.cmn, 0x1600010, 0xfe00090, "cmn%p%c\t%16-19R, %o"⟩,
  ⟨.orr, 0x3800000, 0xfe00000, "orr%20's%c\t%12-15r, %16-19r, %o"⟩,
  ⟨.orr, 0x1800000, 0xfe00010, "orr%20's%c\t%12-15r, %16-19r, %o"⟩,
  ⟨.orr, 0x1800010, 0xfe00090, "orr%20's%c\t%12-15R, %16-19R, %o"⟩,
  ⟨.mov, 0x3a00000, 0xfef0000, "mov%20's%c\t%12-15r, %o"⟩,
  ⟨.mov, 0x1a00000, 0xdef0ff0, "mov%20's%c\t%12-15r, %0-3r"⟩,
  ⟨.lsl, 0x1a00000, 0xdef0060, "lsl%20's%c\t%12-15R, %q"⟩,
  ⟨.lsr, 0x1a00020, 0xdef0060, "lsr%20's%c\t%12-15R, %q"⟩,
  ⟨.asr, 0x1a00040, 0xdef0060, "asr%20's%c\t%12-15R, %q"⟩,
  ⟨.rrx, 0x1a00060, 0xdef0ff0, "rrx%20's%c\t%12-15r, %0-3r"⟩,
  ⟨.ror, 0x1a00060, 0xdef0060, "ror%20's%c\t%12-15R, %q"⟩,
  ⟨.bic, 0x3c00000, 0xfe00000, "bic%20's%c\t%12-15r, %16-19r, %o"⟩,
  ⟨.bic, 0x1c00000, 0xfe00010, "bic%20's%c\t%12-15r, %16-19r, %o"⟩,
  ⟨.bic, 0x1c00010, 0xfe00090, "bic%20's%c\t%12-15R, %16-19R, %o"⟩,
  ⟨.mvn, 0x3e00000, 0xfe00000, "mvn%20's%c\t%12-15r, %o"⟩,
  ⟨.mvn, 0x1e00000, 0xfe00010, "mvn%20's%c\t%12-15r, %o"⟩,
  ⟨.mvn, 0x1e00010, 0xfe00090, "mvn%20's%c\t%12-15R, %o"⟩,
  ⟨.pop, 0x49d0004, 0xfff0fff, "pop%c\t\x7b%12-15r\x7d\t\t@ (ldr%c %12-15r, %a)"⟩,
  ⟨.ldrb, 0x4500000, 0xc500000, "ldrb%t%c\t%12-15R, %a"⟩,
  ⟨.ldrt, 0x4300000, 0xd700000, "ldrt%c\t%12-15R, %a"⟩,
  ⟨.ldr, 0x4100000, 0xc500000, "ldr%c\t%12-15r, %a"⟩,
  ⟨.stmfd, 0x92d0001, 0xfffffff, "stmfd%c\t%16-19R!, %m"⟩,
  ⟨.stmfd, 0x92d0002, 0xfffffff, "stmfd%c\t%16-19R!, %m"⟩,
  ⟨.stmfd, 0x92d0004, 0xfffffff, "stmfd%c\t%16-19R!, %m"⟩,
  ⟨.stmfd, 0x92d0008, 0xfffffff, "stmfd%c\t%16-19R!, %m"⟩,
  ⟨.stmfd, 0x92d0010, 0xfffffff, "stmfd%c\t%16-19R!, %m"⟩,
  ⟨.stmfd, 0x92d0020, 0xfffffff, "stmfd%c\t%16-19R!, %m"⟩,
  ⟨.stmfd, 0x92d0040, 0xfffffff, "stmfd%c\t%16-19R!, %m"⟩,
  ⟨.stmfd, 0x92d0080, 0xfffffff, "stmfd%c\t%16-19R!, %m"⟩,
  ⟨.stmfd, 0x92d0100, 0xfffffff, "stmfd%c\t%16-19R!, %m"⟩,
  ⟨.stmfd, 0x92d0200, 0xfffffff, "stmfd%c\t%16-19R!, %m"⟩,
  ⟨.stmfd, 0x92d0400, 0xfffffff, "stmfd%c\t%16-19R!, %m"⟩,
  ⟨.stmfd, 0x92d0800, 0xfffffff, "stmfd%c\t%16-19R!, %m"⟩,
  ⟨.stmfd, 0x92d1000, 0xfffffff, "stmfd%c\t%16-19R!, %m"⟩,
  ⟨.stmfd, 0x92d2000, 0xfffffff, "stmfd%c\t%16-19R!, %m"⟩,
  ⟨.stmfd, 0x92d4000, 0xfffffff, "stmfd%c\t%16-19R!, %m"⟩,
  ⟨.stmfd, 0x92d8000, 0xfffffff, "stmfd%c\t%16-19R!, %m"⟩,
  ⟨.push, 0x92d0000, 0xfff0000, "push%c\t%m"⟩,
  ⟨.stm, 0x8800000, 0xff00000, "stm%c\t%16-19R%21'!, %m%22'^"⟩,
  ⟨.stm, 0x8000000, 0xe100000, "stm%23?id%24?ba%c\t%16-19R%21'!, %m%22'^"⟩,
  ⟨.ldmfd, 0x8bd0001, 0xfffffff, "ldmfd%c\t%16-19R!, %m"⟩,
  ⟨.ldmfd, 0x8bd0002, 0xfffffff, "ldmfd%c\t%16-19R!, %m"⟩,
  ⟨.ldmfd, 0x8bd0004, 0xfffffff, "ldmfd%c\t%16-19R!, %m"⟩,
  ⟨.ldmfd, 0x8bd0008, 0xfffffff, "ldmfd%c\t%16-19R!, %m"⟩,
  ⟨.ldmfd, 0x8bd0010, 0xfffffff, "ldmfd%c\t%16-19R!, %m"⟩,
  ⟨.ldmfd, 0x8bd0020, 0xfffffff, "ldmfd%c\t%16-19R!, %m"⟩,
  ⟨.ldmfd, 0x8bd0040, 0xfffffff, "ldmfd%c\t%16-19R!, %m"⟩,
  ⟨.ldmfd, 0x8bd0080, 0xfffffff, "ldmfd%c\t%16-19R!, %m"⟩,
  ⟨.ldmfd, 0x8bd0100, 0xfffffff, "ldmfd%c\t%16-19R!, %m"⟩,
  ⟨.ldmfd, 0x8bd0200, 0xfffffff, "ldmfd%c\t%16-19R!, %m"⟩,
  ⟨.ldmfd, 0x8bd0400, 0xfffffff, "ldmfd%c\t%16-19R!, %m"⟩,
  ⟨.ldmfd, 0x8bd0800, 0xfffffff, "ldmfd%c\t%16-19R!, %m"⟩,
  ⟨.ldmfd, 0x8bd1000, 0xfffffff, "ldmfd%c\t%16-19R!, %m"⟩,
  ⟨.ldmfd, 0x8bd2000, 0xfffffff, "ldmfd%c\t%16-19R!, %m"⟩,
  ⟨.ldmfd, 0x8bd4000, 0xfffffff, "ldmfd%c\t%16-19R!, %m"⟩,
  ⟨.ldmfd, 0x8bd8000, 0xfffffff, "ldmfd%c\t%16-19R!, %m"⟩,
  ⟨.pop, 0x8bd0000, 0xfff0000, "pop%c\t%m"⟩,
  ⟨.ldm, 0x8900000, 0xf900000, "ldm%c\t%16-19R%21'!, %m%22'^"⟩,
  ⟨.ldm, 0x8100000, 0xe100000, "ldm%23?id%24?ba%c\t%16-19R%21'!, %m%22'^"⟩,
  ⟨.b, 0xa000000, 0xe000000, "b%24'l%c\t%b"⟩,
  ⟨.svc, 0xf000000, 0xf000000, "svc%c\t%0-23x"⟩]

/-- Every row, in source order. -/
def armOpcodeTable : List ArmOpcode :=
  armRows0 ++ armRows1 ++ armRows2 ++ armRows3

end Armv8Encode.Armv7
