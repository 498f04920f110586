import Armv8Encode.Isa.Aarch64.BranchMeaning
import Armv8Encode.Isa.Aarch64.UneditedRewrite
import Armv8Encode.Rewrite.ElfEditor.CommittedView
import Armv8Encode.Container.DynamicSymbols
import Armv8Encode.Container.Elf.DynamicRelocs
import Armv8Encode.Container.Elf.GnuHash
import Armv8Encode.Container.Elf.PltStubs
import Armv8Encode.Container.Elf.SkipAccounting
import Armv8Encode.Container.Pe.Writer
import Armv8Encode.Container.MachO.ExportTrieRebuild
import Armv8Encode.Container.MachO.ImportReplay
import Armv8Encode.Container.MachO.LoaderView
import Armv8Encode.Container.MachO.StagedView
import Armv8Encode.Container.RelocationRoundTrip
import Armv8Encode.Isa.Aarch64.RetargetSpec
import Armv8Encode.Isa.Armv7.BranchRetarget
import Armv8Encode.Isa.Armv7.EditedRewrite
import Armv8Encode.Isa.Armv7.FlowSoundness
import Armv8Encode.Isa.Armv7.Recursive
import Armv8Encode.Isa.Armv7.RowRoundTrip
import Armv8Encode.Mc.CfgFlow
import Armv8Encode.Rewrite.CommittedSymbols
import Armv8Encode.Rewrite.DataIdentity
import Armv8Encode.Rewrite.SpaceSpec
import Armv8Encode.Isa.Aarch64.LogicalImmediate
import Armv8Encode.Container.MachO.ExportTrieTermination
import Armv8Encode.Container.MachO.FixupReaders
import Armv8Encode.Rewrite.LayoutRounds
import Armv8Encode.Container.MachO.SlotFrame
import Armv8Encode.Isa.Aarch64.BranchRange
import Armv8Encode.Isa.Aarch64.MacroTarget
import Armv8Encode.Isa.Aarch64.MacroSplit
import Armv8Encode.Rewrite.Editor.ScatterFlow
import Armv8Encode.Isa.Armv7.ModifiedImmediate
import Armv8Encode.Rewrite.Editor.FreeRegionSpec
import Armv8Encode.Container.MachO.DylibCommands
import Armv8Encode.Container.MachO.UnwindSpec
import Armv8Encode.Container.SymbolRoundTrip
import Armv8Encode.Isa.Armv7.WidenedBranch
import Armv8Encode.Isa.Armv7.BitRanges
import Armv8Encode.Isa.Armv7.Decoders
import Armv8Encode.Isa.Armv7.MovwMovt
import Armv8Encode.Rewrite.EditLocality
import Armv8Encode.Container.Pe.Writer
import Armv8Encode.Isa.X86.TrueAddress
import Armv8Encode.Container.MachO.Growth
import Armv8Encode.Container.MachO.GrowthAddresses
import Armv8Encode.Rewrite.Editor.AppendFailures
import Armv8Encode.Rewrite.Editor.AppendRuns
