import BootStage.Bytes.Search
import BootStage.Bytes.Write
import BootStage.Bytes.Access
import BootStage.Firm.Container
import BootStage.Firm.Module
import BootStage.Failure
import BootStage.Run
import BootStage.Plan
import BootStage.Machine.Basic
import BootStage.Patch.FixedPatch
import BootStage.Patch.PatternPatch
import BootStage.Patch.NandGuard
import BootStage.Patch.Process9
import BootStage.Patch.RebootHook
import BootStage.Patch.Redirect
import BootStage.Kernel.Build
import BootStage.Kernel.ServiceCall
import BootStage.Patch.Loader
import BootStage.PatchSet.ByTitle
import BootStage.Config.Store
import BootStage.CardImage
import BootStage.Boot.Sequence
import BootStage.Device.InMemory
import BootStage.Proofs.PatchFrame
import BootStage.Proofs.Calls
import BootStage.Proofs.MachineDeeds
import BootStage.Proofs.Loading
import BootStage.Proofs.Slots
import BootStage.Proofs.BootStages
import BootStage.Proofs.BootEndings
import BootStage.Proofs.BootOrder
import BootStage.Proofs.ConfigFields
import BootStage.Proofs.StoredConfig
import BootStage.Proofs.CardSearch
import BootStage.Proofs.Relaunch
import BootStage.Proofs.ContainerViews
import BootStage.Proofs.LowestOccurrence
import BootStage.Proofs.EditEffects
import BootStage.Proofs.RecoveryGuard
import BootStage.Proofs.LoadProtocol
import BootStage.Proofs.LoadedExtent
import BootStage.Proofs.HeaderBytes
import BootStage.Proofs.MemoryWords
import BootStage.Proofs.HandedOver
import BootStage.Proofs.LoadsAlike
import BootStage.Proofs.BootsAlike
import BootStage.Proofs.WriteFailures
import BootStage.Proofs.RelaunchInputs
import BootStage.Proofs.Requests
import BootStage.Proofs.Placements
import BootStage.Proofs.ConfigCodec
import BootStage.Proofs.KernelWrites
import BootStage.Proofs.BareFirmware
import BootStage.Proofs.PatchedContainers
import BootStage.Proofs.ReportedConfig
import BootStage.Proofs.JumpingBoots
import BootStage.Proofs.LaidWrites
import BootStage.Proofs.ExactSearch
import BootStage.Proofs.Replacements
import BootStage.Proofs.InverseReplacement
import BootStage.Proofs.SettledNands
import BootStage.Proofs.LoaderReplacement
import BootStage.Proofs.KernelLayout
import BootStage.Proofs.ServiceStubs
import BootStage.Proofs.ReportedBuild
import BootStage.Proofs.AlignedPlacements
import BootStage.Proofs.BranchDistances
import BootStage.Proofs.EditWrites
import BootStage.Proofs.ModuleDetour
import BootStage.Proofs.RebootTarget
import BootStage.Proofs.AccessorDetours
import BootStage.Proofs.RedirectInstallation
import BootStage.Proofs.ProbeOrder
import BootStage.Proofs.PartitionBound
import BootStage.Proofs.SettledAgain
import BootStage.Proofs.RecordedBoots
import BootStage.Proofs.Decisions
import BootStage.Proofs.FreshPress
import BootStage.Proofs.FixedTables
import BootStage.Proofs.KernelAddresses
import BootStage.Proofs.ExactAccesses
