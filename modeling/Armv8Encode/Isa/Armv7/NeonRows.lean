/-
  Armv8Encode.Isa.Armv7.NeonRows — the imported NEON, VFP and coprocessor table.

  The sweeps keep the whole word of such an instruction, so of a row only the
  fixed bits and the instruction set it applies to are read; mnemonics and
  format strings are left out.
-/
import Armv8Encode.Lib.Words

namespace Armv8Encode.Armv7

/-- The instruction sets a row applies to. -/
inductive IsaApplicability where
  | any | arm | thumb | neon
  deriving Repr, DecidableEq

structure NeonOpcode where
  opcode : Word
  mask : Word
  isa : IsaApplicability
  deriving Repr, DecidableEq

def neonRows0 : List NeonOpcode := [
  ⟨0xf2b00840, 0xffb00850, .neon⟩, ⟨0xf2b00000, 0xffb00810, .neon⟩,
  ⟨0xe800b10, 0xff00f70, .neon⟩, ⟨0xe800b30, 0xff00f70, .neon⟩, ⟨0xea00b10, 0xff00f70, .neon⟩,
  ⟨0xea00b30, 0xff00f70, .neon⟩, ⟨0xec00b10, 0xff00f70, .neon⟩, ⟨0xee00b10, 0xff00f70, .neon⟩,
  ⟨0xf3b40c00, 0xffb70f90, .neon⟩, ⟨0xf3b20c00, 0xffb30f90, .neon⟩,
  ⟨0xf3b10c00, 0xffb10f90, .neon⟩, ⟨0xf3b00800, 0xffb00c50, .neon⟩,
  ⟨0xf3b00840, 0xffb00c50, .neon⟩, ⟨0xf3b60600, 0xffbf0fd0, .neon⟩,
  ⟨0xf3b60700, 0xffbf0fd0, .neon⟩, ⟨0xf2000c10, 0xffb00f10, .neon⟩,
  ⟨0xf2100c10, 0xffb00f10, .neon⟩, ⟨0xf2200c10, 0xffb00f10, .neon⟩,
  ⟨0xf2300c10, 0xffb00f10, .neon⟩, ⟨0xfc000d00, 0xffb00f10, .neon⟩,
  ⟨0xfe000d00, 0xffb00f10, .neon⟩, ⟨0xfc000c40, 0xffb00f50, .neon⟩,
  ⟨0xf3b60640, 0xffbf0fd0, .neon⟩, ⟨0xfc300810, 0xffb00f10, .neon⟩,
  ⟨0xfe300810, 0xffb00f10, .neon⟩, ⟨0xfc200c40, 0xffb00f50, .neon⟩,
  ⟨0xfc200c50, 0xffb00f50, .neon⟩, ⟨0xfca00c40, 0xffb00f50, .neon⟩,
  ⟨0xfca00d00, 0xffb00f10, .neon⟩, ⟨0xfe800d00, 0xffb00f10, .neon⟩,
  ⟨0xfe800d10, 0xffb00f10, .neon⟩, ⟨0xf3ba0400, 0xffbf0c10, .neon⟩,
  ⟨0xf3b60400, 0xffbf0c10, .neon⟩, ⟨0xf3bb0000, 0xffbf0c10, .neon⟩,
  ⟨0xf3b70000, 0xffbf0c10, .neon⟩, ⟨0xf3b00300, 0xffbf0fd0, .neon⟩,
  ⟨0xf3b00340, 0xffbf0fd0, .neon⟩, ⟨0xf3b00380, 0xffbf0fd0, .neon⟩,
  ⟨0xf3b003c0, 0xffbf0fd0, .neon⟩, ⟨0xf3b902c0, 0xffbf0fd0, .neon⟩,
  ⟨0xf3ba0380, 0xffbf0fd0, .neon⟩, ⟨0xf3ba03c0, 0xffbf0fd0, .neon⟩,
  ⟨0xf2880a10, 0xfebf0fd0, .neon⟩, ⟨0xf2900a10, 0xfebf0fd0, .neon⟩,
  ⟨0xf2a00a10, 0xfebf0fd0, .neon⟩, ⟨0xf3b00500, 0xffbf0f90, .neon⟩,
  ⟨0xf3b00580, 0xffbf0f90, .neon⟩, ⟨0xf3b20000, 0xffbf0f90, .neon⟩,
  ⟨0xf3b20200, 0xffb30fd0, .neon⟩, ⟨0xf3b20240, 0xffb30fd0, .neon⟩,
  ⟨0xf3b20280, 0xffb30fd0, .neon⟩, ⟨0xf3b202c0, 0xffb30fd0, .neon⟩,
  ⟨0xf3b20300, 0xffb30fd0, .neon⟩, ⟨0xf3bb0400, 0xffbf0e90, .neon⟩,
  ⟨0xf3b70400, 0xffbf0e90, .neon⟩, ⟨0xf3bb0480, 0xffbf0e90, .neon⟩,
  ⟨0xf3b70480, 0xffbf0e90, .neon⟩, ⟨0xf3b00000, 0xffb30f90, .neon⟩,
  ⟨0xf3b00080, 0xffb30f90, .neon⟩, ⟨0xf3b00100, 0xffb30f90, .neon⟩,
  ⟨0xf3b00400, 0xffb30f90, .neon⟩, ⟨0xf3b00480, 0xffb30f90, .neon⟩,
  ⟨0xf3b00700, 0xffb30f90, .neon⟩, ⟨0xf3b00780, 0xffb30f90, .neon⟩,
  ⟨0xf3b20080, 0xffb30f90, .neon⟩, ⟨0xf3b20100, 0xffb30f90, .neon⟩,
  ⟨0xf3b20180, 0xffb30f90, .neon⟩, ⟨0xf3b10000, 0xffb30b90, .neon⟩,
  ⟨0xf3b10080, 0xffb30b90, .neon⟩, ⟨0xf3b10100, 0xffb30b90, .neon⟩,
  ⟨0xf3b10180, 0xffb30b90, .neon⟩, ⟨0xf3b10200, 0xffb30b90, .neon⟩,
  ⟨0xf3b10300, 0xffb30b90, .neon⟩, ⟨0xf3b10380, 0xffb30b90, .neon⟩,
  ⟨0xf3b00200, 0xffb30f10, .neon⟩, ⟨0xf3b00600, 0xffb30f10, .neon⟩,
  ⟨0xf3bb0600, 0xffbf0e10, .neon⟩, ⟨0xf3b70600, 0xffbf0e10, .neon⟩,
  ⟨0xf2000c40, 0xffb00f50, .neon⟩, ⟨0xf2100c40, 0xffb00f50, .neon⟩,
  ⟨0xf2200c40, 0xffb00f50, .neon⟩, ⟨0xf2300c40, 0xffb00f50, .neon⟩,
  ⟨0xf3000c40, 0xffb00f50, .neon⟩, ⟨0xf3100c40, 0xffb00f50, .neon⟩,
  ⟨0xf3200c40, 0xffb00f50, .neon⟩, ⟨0xf3000f10, 0xffb00f10, .neon⟩,
  ⟨0xf3100f10, 0xffb00f10, .neon⟩, ⟨0xf3200f10, 0xffb00f10, .neon⟩,
  ⟨0xf3300f10, 0xffb00f10, .neon⟩, ⟨0xf2000110, 0xffb00f10, .neon⟩,
  ⟨0xf2100110, 0xffb00f10, .neon⟩, ⟨0xf2200110, 0xffb00f10, .neon⟩,
  ⟨0xf2300110, 0xffb00f10, .neon⟩, ⟨0xf3000110, 0xffb00f10, .neon⟩,
  ⟨0xf3100110, 0xffb00f10, .neon⟩, ⟨0xf3200110, 0xffb00f10, .neon⟩,
  ⟨0xf3300110, 0xffb00f10, .neon⟩, ⟨0xf2000d00, 0xffb00f10, .neon⟩,
  ⟨0xf2100d00, 0xffb00f10, .neon⟩, ⟨0xf2000d10, 0xffb00f10, .neon⟩,
  ⟨0xf2100d10, 0xffb00f10, .neon⟩, ⟨0xf2000e00, 0xffb00f10, .neon⟩,
  ⟨0xf2100e00, 0xffb00f10, .neon⟩, ⟨0xf2000f00, 0xffb00f10, .neon⟩,
  ⟨0xf2100f00, 0xffb00f10, .neon⟩, ⟨0xf2000f10, 0xffb00f10, .neon⟩,
  ⟨0xf2100f10, 0xffb00f10, .neon⟩, ⟨0xf2200d00, 0xffb00f10, .neon⟩,
  ⟨0xf2300d00, 0xffb00f10, .neon⟩, ⟨0xf2200d10, 0xffb00f10, .neon⟩,
  ⟨0xf2300d10, 0xffb00f10, .neon⟩, ⟨0xf2200f00, 0xffb00f10, .neon⟩,
  ⟨0xf2300f00, 0xffb00f10, .neon⟩, ⟨0xf2200f10, 0xffb00f10, .neon⟩,
  ⟨0xf2300f10, 0xffb00f10, .neon⟩, ⟨0xf3000d00, 0xffb00f10, .neon⟩,
  ⟨0xf3100d00, 0xffb00f10, .neon⟩, ⟨0xf3000d10, 0xffb00f10, .neon⟩,
  ⟨0xf3100d10, 0xffb00f10, .neon⟩, ⟨0xf3000e00, 0xffb00f10, .neon⟩]

def neonRows1 : List NeonOpcode := [
  ⟨0xf3100e00, 0xffb00f10, .neon⟩, ⟨0xf3000e10, 0xffb00f10, .neon⟩,
  ⟨0xf3100e10, 0xffb00f10, .neon⟩, ⟨0xf3000f00, 0xffb00f10, .neon⟩,
  ⟨0xf3100f00, 0xffb00f10, .neon⟩, ⟨0xf3200d00, 0xffb00f10, .neon⟩,
  ⟨0xf3300d00, 0xffb00f10, .neon⟩, ⟨0xf3200e00, 0xffb00f10, .neon⟩,
  ⟨0xf3300e00, 0xffb00f10, .neon⟩, ⟨0xf3200e10, 0xffb00f10, .neon⟩,
  ⟨0xf3300e10, 0xffb00f10, .neon⟩, ⟨0xf3200f00, 0xffb00f10, .neon⟩,
  ⟨0xf3300f00, 0xffb00f10, .neon⟩, ⟨0xf2000800, 0xff800f10, .neon⟩,
  ⟨0xf2000810, 0xff800f10, .neon⟩, ⟨0xf2000900, 0xff800f10, .neon⟩,
  ⟨0xf2000b00, 0xff800f10, .neon⟩, ⟨0xf2000b10, 0xff800f10, .neon⟩,
  ⟨0xf3000800, 0xff800f10, .neon⟩, ⟨0xf3000810, 0xff800f10, .neon⟩,
  ⟨0xf3000900, 0xff800f10, .neon⟩, ⟨0xf3000b00, 0xff800f10, .neon⟩,
  ⟨0xf2000000, 0xfe800f10, .neon⟩, ⟨0xf2000010, 0xfe800f10, .neon⟩,
  ⟨0xf2000100, 0xfe800f10, .neon⟩, ⟨0xf2000200, 0xfe800f10, .neon⟩,
  ⟨0xf2000210, 0xfe800f10, .neon⟩, ⟨0xf2000300, 0xfe800f10, .neon⟩,
  ⟨0xf2000310, 0xfe800f10, .neon⟩, ⟨0xf2000400, 0xfe800f10, .neon⟩,
  ⟨0xf2000410, 0xfe800f10, .neon⟩, ⟨0xf2000500, 0xfe800f10, .neon⟩,
  ⟨0xf2000510, 0xfe800f10, .neon⟩, ⟨0xf2000600, 0xfe800f10, .neon⟩,
  ⟨0xf2000610, 0xfe800f10, .neon⟩, ⟨0xf2000700, 0xfe800f10, .neon⟩,
  ⟨0xf2000710, 0xfe800f10, .neon⟩, ⟨0xf2000910, 0xfe800f10, .neon⟩,
  ⟨0xf2000a00, 0xfe800f10, .neon⟩, ⟨0xf2000a10, 0xfe800f10, .neon⟩,
  ⟨0xf3000b10, 0xff800f10, .neon⟩, ⟨0xf3000c10, 0xff800f10, .neon⟩,
  ⟨0xf2800e10, 0xfeb80fb0, .neon⟩, ⟨0xf2800e30, 0xfeb80fb0, .neon⟩,
  ⟨0xf2800f10, 0xfeb80fb0, .neon⟩, ⟨0xf2800810, 0xfeb80db0, .neon⟩,
  ⟨0xf2800830, 0xfeb80db0, .neon⟩, ⟨0xf2800910, 0xfeb80db0, .neon⟩,
  ⟨0xf2800930, 0xfeb80db0, .neon⟩, ⟨0xf2800c10, 0xfeb80eb0, .neon⟩,
  ⟨0xf2800c30, 0xfeb80eb0, .neon⟩, ⟨0xf2800110, 0xfeb809b0, .neon⟩,
  ⟨0xf2800130, 0xfeb809b0, .neon⟩, ⟨0xf2800010, 0xfeb808b0, .neon⟩,
  ⟨0xf2800030, 0xfeb808b0, .neon⟩, ⟨0xf2880810, 0xffb80fd0, .neon⟩,
  ⟨0xf2880850, 0xffb80fd0, .neon⟩, ⟨0xf2880810, 0xfeb80fd0, .neon⟩,
  ⟨0xf2880850, 0xfeb80fd0, .neon⟩, ⟨0xf2880910, 0xfeb80fd0, .neon⟩,
  ⟨0xf2880950, 0xfeb80fd0, .neon⟩, ⟨0xf2880a10, 0xfeb80fd0, .neon⟩,
  ⟨0xf2900810, 0xffb00fd0, .neon⟩, ⟨0xf2900850, 0xffb00fd0, .neon⟩,
  ⟨0xf2880510, 0xffb80f90, .neon⟩, ⟨0xf3880410, 0xffb80f90, .neon⟩,
  ⟨0xf3880510, 0xffb80f90, .neon⟩, ⟨0xf3880610, 0xffb80f90, .neon⟩,
  ⟨0xf2900810, 0xfeb00fd0, .neon⟩, ⟨0xf2900850, 0xfeb00fd0, .neon⟩,
  ⟨0xf2900910, 0xfeb00fd0, .neon⟩, ⟨0xf2900950, 0xfeb00fd0, .neon⟩,
  ⟨0xf2900a10, 0xfeb00fd0, .neon⟩, ⟨0xf2880010, 0xfeb80f90, .neon⟩,
  ⟨0xf2880110, 0xfeb80f90, .neon⟩, ⟨0xf2880210, 0xfeb80f90, .neon⟩,
  ⟨0xf2880310, 0xfeb80f90, .neon⟩, ⟨0xf2880710, 0xfeb80f90, .neon⟩,
  ⟨0xf2a00810, 0xffa00fd0, .neon⟩, ⟨0xf2a00850, 0xffa00fd0, .neon⟩,
  ⟨0xf2900510, 0xffb00f90, .neon⟩, ⟨0xf3900410, 0xffb00f90, .neon⟩,
  ⟨0xf3900510, 0xffb00f90, .neon⟩, ⟨0xf3900610, 0xffb00f90, .neon⟩,
  ⟨0xf2a00a10, 0xfea00fd0, .neon⟩, ⟨0xf2900010, 0xfeb00f90, .neon⟩,
  ⟨0xf2900110, 0xfeb00f90, .neon⟩, ⟨0xf2900210, 0xfeb00f90, .neon⟩,
  ⟨0xf2900310, 0xfeb00f90, .neon⟩, ⟨0xf2900710, 0xfeb00f90, .neon⟩,
  ⟨0xf2a00810, 0xfea00fd0, .neon⟩, ⟨0xf2a00850, 0xfea00fd0, .neon⟩,
  ⟨0xf2a00910, 0xfea00fd0, .neon⟩, ⟨0xf2a00950, 0xfea00fd0, .neon⟩,
  ⟨0xf2a00510, 0xffa00f90, .neon⟩, ⟨0xf3a00410, 0xffa00f90, .neon⟩,
  ⟨0xf3a00510, 0xffa00f90, .neon⟩, ⟨0xf3a00610, 0xffa00f90, .neon⟩,
  ⟨0xf2a00010, 0xfea00f90, .neon⟩, ⟨0xf2a00110, 0xfea00f90, .neon⟩,
  ⟨0xf2a00210, 0xfea00f90, .neon⟩, ⟨0xf2a00310, 0xfea00f90, .neon⟩,
  ⟨0xf2a00710, 0xfea00f90, .neon⟩, ⟨0xf2800590, 0xff800f90, .neon⟩,
  ⟨0xf3800490, 0xff800f90, .neon⟩, ⟨0xf3800590, 0xff800f90, .neon⟩,
  ⟨0xf3800690, 0xff800f90, .neon⟩, ⟨0xf2800090, 0xfe800f90, .neon⟩,
  ⟨0xf2800190, 0xfe800f90, .neon⟩, ⟨0xf2800290, 0xfe800f90, .neon⟩,
  ⟨0xf2800390, 0xfe800f90, .neon⟩, ⟨0xf2800790, 0xfe800f90, .neon⟩,
  ⟨0xf2a00e10, 0xfea00e90, .neon⟩, ⟨0xf2a00c10, 0xfea00e90, .neon⟩,
  ⟨0xf2a00e00, 0xfeb00f50, .neon⟩, ⟨0xf2800e00, 0xfea00f50, .neon⟩,
  ⟨0xf2800400, 0xff800f50, .neon⟩, ⟨0xf2800600, 0xff800f50, .neon⟩,
  ⟨0xf2800900, 0xff800f50, .neon⟩, ⟨0xf2800b00, 0xff800f50, .neon⟩]

def neonRows2 : List NeonOpcode := [
  ⟨0xf2800d00, 0xff800f50, .neon⟩, ⟨0xf3800400, 0xff800f50, .neon⟩,
  ⟨0xf3800600, 0xff800f50, .neon⟩, ⟨0xf2800000, 0xfe800f50, .neon⟩,
  ⟨0xf2800100, 0xfe800f50, .neon⟩, ⟨0xf2800200, 0xfe800f50, .neon⟩,
  ⟨0xf2800300, 0xfe800f50, .neon⟩, ⟨0xf2800500, 0xfe800f50, .neon⟩,
  ⟨0xf2800700, 0xfe800f50, .neon⟩, ⟨0xf2800800, 0xfe800f50, .neon⟩,
  ⟨0xf2800a00, 0xfe800f50, .neon⟩, ⟨0xf2800c00, 0xfe800f50, .neon⟩,
  ⟨0xf2800040, 0xff800f50, .neon⟩, ⟨0xf2800140, 0xff900f50, .neon⟩,
  ⟨0xf2900140, 0xffb00f50, .neon⟩, ⟨0xf2800340, 0xff800f50, .neon⟩,
  ⟨0xf2800440, 0xff800f50, .neon⟩, ⟨0xf2800540, 0xff900f50, .neon⟩,
  ⟨0xf2900540, 0xffb00f50, .neon⟩, ⟨0xf2800740, 0xff800f50, .neon⟩,
  ⟨0xf2800840, 0xff800f50, .neon⟩, ⟨0xf2800940, 0xff900f50, .neon⟩,
  ⟨0xf2900940, 0xffb00f50, .neon⟩, ⟨0xf2800b40, 0xff800f50, .neon⟩,
  ⟨0xf2800c40, 0xff800f50, .neon⟩, ⟨0xf2800d40, 0xff800f50, .neon⟩,
  ⟨0xf3800040, 0xff800f50, .neon⟩, ⟨0xf3800140, 0xff900f50, .neon⟩,
  ⟨0xf3900140, 0xffb00f50, .neon⟩, ⟨0xf3800440, 0xff800f50, .neon⟩,
  ⟨0xf3800540, 0xff900f50, .neon⟩, ⟨0xf3900540, 0xffb00f50, .neon⟩,
  ⟨0xf3800840, 0xff800f50, .neon⟩, ⟨0xf3800940, 0xff900f50, .neon⟩,
  ⟨0xf3900940, 0xffb00f50, .neon⟩, ⟨0xf3800c40, 0xff800f50, .neon⟩,
  ⟨0xf3800d40, 0xff800f50, .neon⟩, ⟨0xf2800240, 0xfe800f50, .neon⟩,
  ⟨0xf2800640, 0xfe800f50, .neon⟩, ⟨0xf2800a40, 0xfe800f50, .neon⟩,
  ⟨0xf2800e40, 0xff800f50, .neon⟩, ⟨0xf2800f40, 0xff800f50, .neon⟩,
  ⟨0xf3800e40, 0xff800f50, .neon⟩, ⟨0xf3800f40, 0xff800f50, .neon⟩,
  ⟨0xf4a00fc0, 0xffb00fc0, .neon⟩, ⟨0xf4a00c00, 0xffb00f00, .neon⟩,
  ⟨0xf4a00d00, 0xffb00f00, .neon⟩, ⟨0xf4a00e00, 0xffb00f00, .neon⟩,
  ⟨0xf4a00f00, 0xffb00f00, .neon⟩, ⟨0xf4000200, 0xff900f00, .neon⟩,
  ⟨0xf4000300, 0xff900f00, .neon⟩, ⟨0xf4000400, 0xff900f00, .neon⟩,
  ⟨0xf4000500, 0xff900f00, .neon⟩, ⟨0xf4000600, 0xff900f00, .neon⟩,
  ⟨0xf4000700, 0xff900f00, .neon⟩, ⟨0xf4000800, 0xff900f00, .neon⟩,
  ⟨0xf4000900, 0xff900f00, .neon⟩, ⟨0xf4000a00, 0xff900f00, .neon⟩,
  ⟨0xf4000000, 0xff900e00, .neon⟩, ⟨0xf4800000, 0xff900300, .neon⟩,
  ⟨0xf4800100, 0xff900300, .neon⟩, ⟨0xf4800200, 0xff900300, .neon⟩,
  ⟨0xf4800300, 0xff900300, .neon⟩, ⟨0xe200010, 0xfff0ff0, .any⟩, ⟨0xe280010, 0xfff0ff0, .any⟩,
  ⟨0xe2c0010, 0xffc0ff0, .any⟩, ⟨0xc400000, 0xff00fff, .any⟩, ⟨0xc500000, 0xff00fff, .any⟩,
  ⟨0xe130130, 0xf3f0fff, .any⟩, ⟨0xe400010, 0xff00f3f, .any⟩, ⟨0xe130170, 0xf3f0ff8, .any⟩,
  ⟨0xe100070, 0xf300ff0, .any⟩, ⟨0xe600010, 0xff00f38, .any⟩, ⟨0xe000110, 0xff00fff, .any⟩,
  ⟨0xc400000, 0xff00ff0, .any⟩, ⟨0xe2c0010, 0xffc0e10, .any⟩, ⟨0xe200010, 0xfff0e10, .any⟩,
  ⟨0xe280010, 0xfff0e10, .any⟩, ⟨0xe100030, 0xf300fff, .any⟩, ⟨0xe100110, 0xff00ff0, .any⟩,
  ⟨0xc500000, 0xff00ff0, .any⟩, ⟨0xe130150, 0xf3f0fff, .any⟩, ⟨0xe120190, 0xf3f0fff, .any⟩,
  ⟨0xe2001c0, 0xf300fff, .any⟩, ⟨0xe0001c0, 0xf300fff, .any⟩, ⟨0xe000180, 0xf000ff0, .any⟩,
  ⟨0xe2001a0, 0xfb00ff0, .any⟩, ⟨0xea001a0, 0xff00ff0, .any⟩, ⟨0xe000020, 0xf800ff0, .any⟩,
  ⟨0xe800020, 0xfc00ff0, .any⟩, ⟨0xe200000, 0xfe00ff0, .any⟩, ⟨0xe800000, 0xfa00ff0, .any⟩,
  ⟨0xe400000, 0xfe00ff0, .any⟩, ⟨0xe000060, 0xf300ff0, .any⟩, ⟨0xe100060, 0xf100ff0, .any⟩,
  ⟨0xfc500100, 0xfe500f00, .any⟩, ⟨0xfc100100, 0xfe500f00, .any⟩, ⟨0xc100000, 0xe100e00, .any⟩,
  ⟨0xe400100, 0xfc00ff0, .any⟩, ⟨0xe800100, 0xfc00ff0, .any⟩, ⟨0xec00100, 0xfd00ff0, .any⟩,
  ⟨0xe000160, 0xf100ff0, .any⟩, ⟨0xe000080, 0xf100fe0, .any⟩, ⟨0xe0000a0, 0xf800ff0, .any⟩,
  ⟨0xe800120, 0xf800ff0, .any⟩, ⟨0xe100160, 0xf100ff0, .any⟩, ⟨0xe000100, 0xfc00ff0, .any⟩,
  ⟨0xed00100, 0xfd00ff0, .any⟩, ⟨0xee000c0, 0xfe00ff0, .any⟩, ⟨0xec000c0, 0xfe00ff0, .any⟩,
  ⟨0xeb000c0, 0xff00ff0, .any⟩, ⟨0xe8000a0, 0xf800ff0, .any⟩, ⟨0xe100080, 0xfd00ff0, .any⟩,
  ⟨0xec000e0, 0xfd00ff0, .any⟩, ⟨0xe000000, 0xff00ff0, .any⟩, ⟨0xe000080, 0xf000ff0, .any⟩,
  ⟨0xfe300040, 0xff300ef0, .any⟩, ⟨0xe300040, 0xf300ff0, .any⟩, ⟨0xe300140, 0xf300ff0, .any⟩,
  ⟨0xe000120, 0xfa00ff0, .any⟩]

def neonRows3 : List NeonOpcode := [
  ⟨0xe0001e0, 0xf000ff0, .any⟩, ⟨0xfe100040, 0xff300ef0, .any⟩, ⟨0xe100040, 0xf300ff0, .any⟩,
  ⟨0xe100148, 0xf300ffc, .any⟩, ⟨0xfe000040, 0xff300ef0, .any⟩, ⟨0xe000040, 0xf300ff0, .any⟩,
  ⟨0xe000148, 0xf300ffc, .any⟩, ⟨0xfe200040, 0xff300ef0, .any⟩, ⟨0xe200040, 0xf300ff0, .any⟩,
  ⟨0xe200148, 0xf300ffc, .any⟩, ⟨0xfc400100, 0xfe500f00, .any⟩, ⟨0xfc000100, 0xfe500f00, .any⟩,
  ⟨0xc000000, 0xe100e00, .any⟩, ⟨0xe0001a0, 0xf000ff0, .any⟩, ⟨0xed001c0, 0xff00ff0, .any⟩,
  ⟨0xe1001c0, 0xf300ff0, .any⟩, ⟨0xe0000c0, 0xfd00fff, .any⟩, ⟨0xe4000c0, 0xfd00fff, .any⟩,
  ⟨0xe8000c0, 0xfd00fff, .any⟩, ⟨0xe0000e0, 0xf100fff, .any⟩, ⟨0xe1000c0, 0xf300ff0, .any⟩,
  ⟨0xe1000e0, 0xf300ff0, .any⟩, ⟨0xe100000, 0xff00ff0, .any⟩, ⟨0xe000100, 0xff08f10, .any⟩,
  ⟨0xe100100, 0xff08f10, .any⟩, ⟨0xe200100, 0xff08f10, .any⟩, ⟨0xe300100, 0xff08f10, .any⟩,
  ⟨0xe400100, 0xff08f10, .any⟩, ⟨0xe500100, 0xff08f10, .any⟩, ⟨0xe600100, 0xff08f10, .any⟩,
  ⟨0xe700100, 0xff08f10, .any⟩, ⟨0xe800100, 0xff08f10, .any⟩, ⟨0xe900100, 0xff08f10, .any⟩,
  ⟨0xea00100, 0xff08f10, .any⟩, ⟨0xeb00100, 0xff08f10, .any⟩, ⟨0xec00100, 0xff08f10, .any⟩,
  ⟨0xe008100, 0xff08f10, .any⟩, ⟨0xe108100, 0xff08f10, .any⟩, ⟨0xe208100, 0xff08f10, .any⟩,
  ⟨0xe308100, 0xff08f10, .any⟩, ⟨0xe408100, 0xff08f10, .any⟩, ⟨0xe508100, 0xff08f10, .any⟩,
  ⟨0xe608100, 0xff08f10, .any⟩, ⟨0xe708100, 0xff08f10, .any⟩, ⟨0xe808100, 0xff08f10, .any⟩,
  ⟨0xe908100, 0xff08f10, .any⟩, ⟨0xea08100, 0xff08f10, .any⟩, ⟨0xeb08100, 0xff08f10, .any⟩,
  ⟨0xec08100, 0xff08f10, .any⟩, ⟨0xed08100, 0xff08f10, .any⟩, ⟨0xee08100, 0xff08f10, .any⟩,
  ⟨0xef08100, 0xff08f10, .any⟩, ⟨0xe000110, 0xff00f1f, .any⟩, ⟨0xe100110, 0xfff0f98, .any⟩,
  ⟨0xe200110, 0xfff0fff, .any⟩, ⟨0xe300110, 0xfff0fff, .any⟩, ⟨0xe400110, 0xfff0fff, .any⟩,
  ⟨0xe500110, 0xfff0fff, .any⟩, ⟨0xe90f110, 0xff8fff0, .any⟩, ⟨0xeb0f110, 0xff8fff0, .any⟩,
  ⟨0xed0f110, 0xff8fff0, .any⟩, ⟨0xef0f110, 0xff8fff0, .any⟩, ⟨0xc000100, 0xe100f00, .any⟩,
  ⟨0xc100100, 0xe100f00, .any⟩, ⟨0xc000200, 0xe100f00, .any⟩, ⟨0xc100200, 0xe100f00, .any⟩,
  ⟨0xec9f0b00, 0xffbf0f01, .thumb⟩, ⟨0xec9f0a00, 0xffbf0f00, .thumb⟩,
  ⟨0xec300a00, 0xfff0ffff, .any⟩, ⟨0xec200a00, 0xfff0ffff, .any⟩, ⟨0xd2d0b00, 0xfbf0f01, .any⟩,
  ⟨0xd200b00, 0xfb00f01, .any⟩, ⟨0xd300b00, 0xfb00f01, .any⟩, ⟨0xc800b00, 0xf900f01, .any⟩,
  ⟨0xcbd0b00, 0xfbf0f01, .any⟩, ⟨0xc900b00, 0xf900f01, .any⟩, ⟨0xd000b00, 0xf300f00, .any⟩,
  ⟨0xd100b00, 0xf300f00, .any⟩, ⟨0xd2d0a00, 0xfbf0f00, .any⟩, ⟨0xd200a00, 0xfb00f00, .any⟩,
  ⟨0xd300a00, 0xfb00f00, .any⟩, ⟨0xc800a00, 0xf900f00, .any⟩, ⟨0xcbd0a00, 0xfbf0f00, .any⟩,
  ⟨0xc900a00, 0xf900f00, .any⟩, ⟨0xd000a00, 0xf300f00, .any⟩, ⟨0xd100a00, 0xf300f00, .any⟩,
  ⟨0xec100f80, 0xfe101f80, .any⟩, ⟨0xec000f80, 0xfe101f80, .any⟩, ⟨0xd200b01, 0xfb00f01, .any⟩,
  ⟨0xd300b01, 0xfb00f01, .any⟩, ⟨0xc800b01, 0xf900f01, .any⟩, ⟨0xc900b01, 0xf900f01, .any⟩,
  ⟨0xc400b10, 0xff00fd0, .any⟩, ⟨0xc500b10, 0xff00fd0, .any⟩, ⟨0xe000b10, 0xfd00f70, .any⟩,
  ⟨0xe100b10, 0xf500f70, .any⟩, ⟨0xe000b30, 0xfd00f30, .any⟩, ⟨0xe100b30, 0xf500f30, .any⟩,
  ⟨0xe400b10, 0xfd00f10, .any⟩, ⟨0xe500b10, 0xf500f10, .any⟩, ⟨0xeb20b40, 0xfbf0f50, .any⟩,
  ⟨0xeb30b40, 0xfbf0f50, .any⟩, ⟨0xeb20a40, 0xfbf0f50, .any⟩, ⟨0xeb30a40, 0xfbf0f50, .any⟩,
  ⟨0xee00a10, 0xfff0fff, .any⟩, ⟨0xee10a10, 0xfff0fff, .any⟩, ⟨0xee20a10, 0xfff0fff, .any⟩,
  ⟨0xee60a10, 0xfff0fff, .any⟩, ⟨0xee70a10, 0xfff0fff, .any⟩, ⟨0xee50a10, 0xfff0fff, .any⟩,
  ⟨0xee80a10, 0xfff0fff, .any⟩, ⟨0xee90a10, 0xfff0fff, .any⟩, ⟨0xeea0a10, 0xfff0fff, .any⟩,
  ⟨0xeec0a10, 0xfff0fff, .any⟩, ⟨0xeed0a10, 0xfff0fff, .any⟩, ⟨0xeee0a10, 0xfff0fff, .any⟩,
  ⟨0xeef0a10, 0xfff0fff, .any⟩, ⟨0xef00a10, 0xfff0fff, .any⟩, ⟨0xef1fa10, 0xfffffff, .any⟩,
  ⟨0xef10a10, 0xfff0fff, .any⟩]

def neonRows4 : List NeonOpcode := [
  ⟨0xef20a10, 0xfff0fff, .any⟩, ⟨0xef50a10, 0xfff0fff, .any⟩, ⟨0xef60a10, 0xfff0fff, .any⟩,
  ⟨0xef70a10, 0xfff0fff, .any⟩, ⟨0xef80a10, 0xfff0fff, .any⟩, ⟨0xef90a10, 0xfff0fff, .any⟩,
  ⟨0xefa0a10, 0xfff0fff, .any⟩, ⟨0xefc0a10, 0xfff0fff, .any⟩, ⟨0xefd0a10, 0xfff0fff, .any⟩,
  ⟨0xefe0a10, 0xfff0fff, .any⟩, ⟨0xeff0a10, 0xfff0fff, .any⟩, ⟨0xe000b10, 0xfd00fff, .any⟩,
  ⟨0xe100b10, 0xfd00fff, .any⟩, ⟨0xee00a10, 0xff00fff, .any⟩, ⟨0xef00a10, 0xff00fff, .any⟩,
  ⟨0xe000a10, 0xff00f7f, .any⟩, ⟨0xe100a10, 0xff00f7f, .any⟩, ⟨0xeb50a40, 0xfbf0f70, .any⟩,
  ⟨0xeb50b40, 0xfbf0f70, .any⟩, ⟨0xeb00a40, 0xfbf0fd0, .any⟩, ⟨0xeb00ac0, 0xfbf0fd0, .any⟩,
  ⟨0xeb00b40, 0xfbf0fd0, .any⟩, ⟨0xeb00bc0, 0xfbf0fd0, .any⟩, ⟨0xeb10a40, 0xfbf0fd0, .any⟩,
  ⟨0xeb10ac0, 0xfbf0fd0, .any⟩, ⟨0xeb10b40, 0xfbf0fd0, .any⟩, ⟨0xeb10bc0, 0xfbf0fd0, .any⟩,
  ⟨0xeb70ac0, 0xfbf0fd0, .any⟩, ⟨0xeb70bc0, 0xfbf0fd0, .any⟩, ⟨0xeb80a40, 0xfbf0f50, .any⟩,
  ⟨0xeb80b40, 0xfbf0f50, .any⟩, ⟨0xeb40a40, 0xfbf0f50, .any⟩, ⟨0xeb40b40, 0xfbf0f50, .any⟩,
  ⟨0xeba0a40, 0xfbe0f50, .any⟩, ⟨0xeba0b40, 0xfbe0f50, .any⟩, ⟨0xebc0a40, 0xfbe0f50, .any⟩,
  ⟨0xebc0b40, 0xfbe0f50, .any⟩, ⟨0xebe0a40, 0xfbe0f50, .any⟩, ⟨0xebe0b40, 0xfbe0f50, .any⟩,
  ⟨0xc500b10, 0xfb00ff0, .any⟩, ⟨0xeb00a00, 0xfb00ff0, .any⟩, ⟨0xeb00b00, 0xfb00ff0, .any⟩,
  ⟨0xc400a10, 0xff00fd0, .any⟩, ⟨0xc400b10, 0xff00fd0, .any⟩, ⟨0xc500a10, 0xff00fd0, .any⟩,
  ⟨0xe000a00, 0xfb00f50, .any⟩, ⟨0xe000a40, 0xfb00f50, .any⟩, ⟨0xe000b00, 0xfb00f50, .any⟩,
  ⟨0xe000b40, 0xfb00f50, .any⟩, ⟨0xe100a00, 0xfb00f50, .any⟩, ⟨0xe100a40, 0xfb00f50, .any⟩,
  ⟨0xe100b00, 0xfb00f50, .any⟩, ⟨0xe100b40, 0xfb00f50, .any⟩, ⟨0xe200a00, 0xfb00f50, .any⟩,
  ⟨0xe200a40, 0xfb00f50, .any⟩, ⟨0xe200b00, 0xfb00f50, .any⟩, ⟨0xe200b40, 0xfb00f50, .any⟩,
  ⟨0xe300a00, 0xfb00f50, .any⟩, ⟨0xe300a40, 0xfb00f50, .any⟩, ⟨0xe300b00, 0xfb00f50, .any⟩,
  ⟨0xe300b40, 0xfb00f50, .any⟩, ⟨0xe800a00, 0xfb00f50, .any⟩, ⟨0xe800b00, 0xfb00f50, .any⟩,
  ⟨0xd100400, 0xf500f00, .any⟩, ⟨0xc100400, 0xf500f00, .any⟩, ⟨0xd500400, 0xf500f00, .any⟩,
  ⟨0xc500400, 0xf500f00, .any⟩, ⟨0xd100500, 0xf500f00, .any⟩, ⟨0xc100500, 0xf500f00, .any⟩,
  ⟨0xd500500, 0xf500f00, .any⟩, ⟨0xc500500, 0xf500f00, .any⟩, ⟨0xd000400, 0xf500f00, .any⟩,
  ⟨0xc000400, 0xf500f00, .any⟩, ⟨0xd400400, 0xf500f00, .any⟩, ⟨0xc400400, 0xf500f00, .any⟩,
  ⟨0xd000500, 0xf500f00, .any⟩, ⟨0xc000500, 0xf500f00, .any⟩, ⟨0xd400500, 0xf500f00, .any⟩,
  ⟨0xc400500, 0xf500f00, .any⟩, ⟨0xe000450, 0xff00ff0, .any⟩, ⟨0xe100450, 0xff00ff0, .any⟩,
  ⟨0xe000410, 0xff00ff0, .any⟩, ⟨0xe100410, 0xff00ff0, .any⟩, ⟨0xe000430, 0xff00ff0, .any⟩,
  ⟨0xe100430, 0xff00fff, .any⟩, ⟨0xe000510, 0xff00fff, .any⟩, ⟨0xe100510, 0xff00fff, .any⟩,
  ⟨0xe000530, 0xff00fff, .any⟩, ⟨0xe100530, 0xff00fff, .any⟩, ⟨0xe200440, 0xff00fff, .any⟩,
  ⟨0xe100440, 0xff00fff, .any⟩, ⟨0xe200460, 0xff00fff, .any⟩, ⟨0xe100460, 0xff00fff, .any⟩,
  ⟨0xe200480, 0xff00fff, .any⟩, ⟨0xe100480, 0xff00fff, .any⟩, ⟨0xe2004a0, 0xff00fff, .any⟩,
  ⟨0xe1004a0, 0xff00fff, .any⟩, ⟨0xe2004c0, 0xff00fff, .any⟩, ⟨0xe1004c0, 0xff00fff, .any⟩,
  ⟨0xe2004e0, 0xfff0fff, .any⟩, ⟨0xe1004e0, 0xfff0fff, .any⟩, ⟨0xe000400, 0xff00fff, .any⟩,
  ⟨0xe000420, 0xff00fff, .any⟩, ⟨0xe000460, 0xff00fff, .any⟩, ⟨0xe000440, 0xff00fff, .any⟩,
  ⟨0xe000480, 0xff00fff, .any⟩, ⟨0xe0004a0, 0xff00fff, .any⟩, ⟨0xe0004c0, 0xff00fff, .any⟩,
  ⟨0xe0004e0, 0xff00fff, .any⟩, ⟨0xe100580, 0xff00fff, .any⟩, ⟨0xe1005a0, 0xff00fff, .any⟩,
  ⟨0xe1005c0, 0xff00fff, .any⟩, ⟨0xe1005e0, 0xff00fff, .any⟩, ⟨0xe000550, 0xff00ff0, .any⟩,
  ⟨0xe000570, 0xff00ff0, .any⟩, ⟨0xe000500, 0xff00f10, .any⟩, ⟨0xe200500, 0xff00f10, .any⟩,
  ⟨0xe100490, 0xff00ff0, .any⟩, ⟨0xe1004b0, 0xff00ff0, .any⟩, ⟨0xe100590, 0xff00ff0, .any⟩]

def neonRows5 : List NeonOpcode := [
  ⟨0xe1005b0, 0xff00ff0, .any⟩, ⟨0xe300400, 0xff00fff, .any⟩, ⟨0xe300420, 0xff00fff, .any⟩,
  ⟨0xe300440, 0xff00fff, .any⟩, ⟨0xe300460, 0xff00fff, .any⟩, ⟨0xe300480, 0xff00ff0, .any⟩,
  ⟨0xe3004a0, 0xff00ff0, .any⟩, ⟨0xe3004c0, 0xff00ff0, .any⟩, ⟨0xe3004e0, 0xff00ff0, .any⟩,
  ⟨0xe100400, 0xff00ff0, .any⟩, ⟨0xe100420, 0xff00ff0, .any⟩, ⟨0xe300500, 0xff00fff, .any⟩,
  ⟨0xe300520, 0xff00fff, .any⟩, ⟨0xe300540, 0xff00fff, .any⟩, ⟨0xe300560, 0xff00fff, .any⟩,
  ⟨0xe300580, 0xff00ff0, .any⟩, ⟨0xe3005a0, 0xff00ff0, .any⟩, ⟨0xe3005c0, 0xff00ff0, .any⟩,
  ⟨0xe3005e0, 0xff00ff0, .any⟩, ⟨0xe100500, 0xff00ff0, .any⟩, ⟨0xe100520, 0xff00ff0, .any⟩,
  ⟨0xe100540, 0xff00ff0, .any⟩, ⟨0xe100560, 0xff00ff0, .any⟩, ⟨0xe000600, 0xff00f10, .any⟩,
  ⟨0xe100600, 0xff00f10, .any⟩, ⟨0xe200600, 0xff00f10, .any⟩, ⟨0xe300600, 0xff00f10, .any⟩,
  ⟨0xea00a00, 0xfb00f50, .any⟩, ⟨0xea00b00, 0xfb00f50, .any⟩, ⟨0xea00a40, 0xfb00f50, .any⟩,
  ⟨0xea00b40, 0xfb00f50, .any⟩, ⟨0xe900a40, 0xfb00f50, .any⟩, ⟨0xe900b40, 0xfb00f50, .any⟩,
  ⟨0xe900a00, 0xfb00f50, .any⟩, ⟨0xe900b00, 0xfb00f50, .any⟩, ⟨0xfe000a00, 0xff800f50, .any⟩,
  ⟨0xfe000b00, 0xff800f50, .any⟩, ⟨0xfe800a00, 0xffb00f50, .any⟩, ⟨0xfe800b00, 0xffb00f50, .any⟩,
  ⟨0xfe800a40, 0xffb00f50, .any⟩, ⟨0xfe800b40, 0xffb00f50, .any⟩, ⟨0xfebc0a40, 0xffbc0f50, .any⟩,
  ⟨0xfebc0b40, 0xffbc0f50, .any⟩, ⟨0xeb60a40, 0xfbe0f50, .any⟩, ⟨0xeb60b40, 0xfbe0f50, .any⟩,
  ⟨0xfeb80a40, 0xffbc0fd0, .any⟩, ⟨0xfeb80b40, 0xffbc0fd0, .any⟩, ⟨0xfc800800, 0xfeb00f10, .any⟩,
  ⟨0xfc900800, 0xfeb00f10, .any⟩, ⟨0xfc200800, 0xff300f10, .any⟩, ⟨0xfd200800, 0xff300f10, .any⟩,
  ⟨0xfc300800, 0xff300f10, .any⟩, ⟨0xfd300800, 0xff300f10, .any⟩, ⟨0xfe000800, 0xffa00f10, .any⟩,
  ⟨0xfe200800, 0xffa00f10, .any⟩, ⟨0xfe800800, 0xffa00f10, .any⟩, ⟨0xfea00800, 0xffa00f10, .any⟩,
  ⟨0xeb30940, 0xfbf0f50, .any⟩, ⟨0xfc200d00, 0xffb00f00, .any⟩, ⟨0xfe200d00, 0xff200f00, .any⟩,
  ⟨0xfc200810, 0xffb00f50, .any⟩, ⟨0xfca00810, 0xffb00f50, .any⟩, ⟨0xfc200850, 0xffb00f50, .any⟩,
  ⟨0xfca00850, 0xffb00f50, .any⟩, ⟨0xfe000810, 0xffb00f50, .any⟩, ⟨0xfe100810, 0xffb00f50, .any⟩,
  ⟨0xfe000850, 0xffb00f50, .any⟩, ⟨0xfe100850, 0xffb00f50, .any⟩, ⟨0xeb009c0, 0xfbf0fd0, .any⟩,
  ⟨0xe300900, 0xfb00f50, .any⟩, ⟨0xeb40940, 0xfbf0f50, .any⟩, ⟨0xeb50940, 0xfbf0f70, .any⟩,
  ⟨0xeba09c0, 0xfbe0fd0, .any⟩, ⟨0xebe09c0, 0xfbe0fd0, .any⟩, ⟨0xebc0940, 0xfbe0f50, .any⟩,
  ⟨0xeb80940, 0xfbf0f50, .any⟩, ⟨0xfebc0940, 0xffbc0f50, .any⟩, ⟨0xe800900, 0xfb00f50, .any⟩,
  ⟨0xea00900, 0xfb00f50, .any⟩, ⟨0xea00940, 0xfb00f50, .any⟩, ⟨0xe900940, 0xfb00f50, .any⟩,
  ⟨0xe900900, 0xfb00f50, .any⟩, ⟨0xfeb00ac0, 0xffbf0fd0, .any⟩, ⟨0xfeb00a40, 0xffbf0fd0, .any⟩,
  ⟨0xd100900, 0xf300f00, .any⟩, ⟨0xd000900, 0xf300f00, .any⟩, ⟨0xfe800900, 0xffb00f50, .any⟩,
  ⟨0xfe800940, 0xffb00f50, .any⟩, ⟨0xe000900, 0xfb00f50, .any⟩, ⟨0xe000940, 0xfb00f50, .any⟩,
  ⟨0xe100910, 0xff00f7f, .any⟩, ⟨0xe000910, 0xff00f7f, .any⟩, ⟨0xeb00900, 0xfb00ff0, .any⟩,
  ⟨0xe200900, 0xfb00f50, .any⟩, ⟨0xeb10940, 0xfbf0fd0, .any⟩, ⟨0xe100940, 0xfb00f50, .any⟩,
  ⟨0xe100900, 0xfb00f50, .any⟩, ⟨0xe200940, 0xfb00f50, .any⟩, ⟨0xeb60940, 0xfbe0f50, .any⟩,
  ⟨0xfeb80940, 0xffbc0fd0, .any⟩, ⟨0xfe000900, 0xff800f50, .any⟩, ⟨0xeb109c0, 0xfbf0fd0, .any⟩,
  ⟨0xe300940, 0xfb00f50, .any⟩, ⟨0xeb90bc0, 0xfbf0fd0, .any⟩, ⟨0xc400000, 0xff00000, .any⟩,
  ⟨0xc500000, 0xff00000, .any⟩, ⟨0xe000000, 0xf000010, .any⟩, ⟨0xe10f010, 0xf10f010, .any⟩,
  ⟨0xe100010, 0xf100010, .any⟩, ⟨0xe000010, 0xf100010, .any⟩, ⟨0xc000000, 0xe100000, .any⟩,
  ⟨0xc100000, 0xe100000, .any⟩, ⟨0xfc500000, 0xfff00000, .any⟩, ⟨0xfc400000, 0xfff00000, .any⟩,
  ⟨0xfc100000, 0xfe100000, .any⟩, ⟨0xfc000000, 0xfe100000, .any⟩, ⟨0xfe000000, 0xff000010, .any⟩,
  ⟨0xfe000010, 0xff100010, .any⟩, ⟨0xfe100010, 0xff100010, .any⟩]

/-- Every row, in source order. -/
def neonOpcodeTable : List NeonOpcode :=
  neonRows0 ++ neonRows1 ++ neonRows2 ++ neonRows3 ++ neonRows4 ++ neonRows5

end Armv8Encode.Armv7
