import BootStage.Config.File
import BootStage.Machine.Operation
import BootStage.Plan
/-!
# Notices

What a boot reports while it runs, as data, and the wording of each report.
-/

namespace BootStage

inductive Severity where
  | debug
  | info
  | warn
  | error
  deriving DecidableEq, Repr

namespace Severity

def name : Severity → String
  | debug => "DEBUG"
  | info => "INFO"
  | warn => "WARN"
  | error => "ERROR"

end Severity

inductive ImageSource where
  /-- A plain image on the SD card. -/
  | card
  | nand
  deriving DecidableEq, Repr

namespace ImageSource

def name : ImageSource → String
  | card => "Sd"
  | nand => "Nand"

end ImageSource

/-- Something a boot reports. -/
inductive Notice where
  | patternPatched (name : String) (count : Nat)
  | nandWritesBlocked (pos : Nat)
  | rebootHooked (pos : Nat) (fopen : UInt32)
  | loaderReplaced (start removed inserted : Nat)
  | nandRedirected (routine redirect header : UInt32)
  | kernelFound (page handler table : Nat)
  | backdoorPresent (address : UInt32)
  | backdoorInstalled (address : UInt32)
  | infoInstalled (address : UInt32) (version : UInt8 × UInt8 × UInt8)
  | callsGranted (pos : Nat)
  | unpackingMissing
  | unpackingHooked (site hook : Nat)
  | nativePatched
  | safePatched
  | tableSkipped (table : String) (version : Option UInt32)
  | tableApplied (table : String) (count : Nat)
  | planned (plan : Plan)
  | configUnavailable (err : StorageFailure)
  | configIgnored (err : ConfigFailure)
  | recordFailed (err : StorageFailure)
  | partitionTableUnreadable
  | imageFound (slot : Nat) (sector : UInt32)
  | imageRetried (slot : Nat)
  | imageMissing
  | cardImageRejected (title : Title) (err : BootFailure)
  | titleRead (source : Nand) (title : Title) (version : UInt32) (size : Nat)
  | firmLoaded (title : Title) (source : ImageSource) (version : Option UInt32)
  | prepared
  | sectionPlaced (index size : Nat) (address : UInt32)
  | requested (operation : Operation)
  | launching (title : Title) (arm9Entry arm11Entry : UInt32)
  | failed (err : BootFailure)
  deriving DecidableEq, Repr

namespace Notice

def versionText : Option UInt32 → String
  | some version => s!"Some({version.toNat})"
  | none => "None"

def severity : Notice → Severity
  | nativePatched | safePatched | tableApplied _ _ | planned _ | firmLoaded _ _ _ | prepared
  | launching _ _ _ => .info
  | configUnavailable _ | configIgnored _ | recordFailed _ | partitionTableUnreadable
  | imageRetried _ | imageMissing | cardImageRejected _ _ => .warn
  | failed _ => .error
  | _ => .debug

def message : Notice → String
  | patternPatched name count => s!"{name}: patched {count} occurrence(s)"
  | nandWritesBlocked pos => s!"NAND write check: blocked at {Hex.plain pos}"
  | rebootHooked pos fopen =>
    s!"firmlaunch reboot hook: hook at {Hex.plain pos}, fopen at {Hex.plain fopen.toNat}"
  | loaderReplaced start removed inserted =>
    s!"loader module: {Hex.plain removed} bytes at {Hex.plain start} replaced by " ++
      s!"{Hex.plain inserted} bytes"
  | nandRedirected routine redirect header =>
    s!"EmuNAND routine at {Hex.plain routine.toNat}, redirect {Hex.plain redirect.toNat}, " ++
      s!"header {Hex.plain header.toNat}"
  | kernelFound page handler table =>
    s!"kernel11: exception page {Hex.plain page}, SVC handler {Hex.plain handler}, " ++
      s!"table {Hex.plain table}"
  | backdoorPresent address =>
    s!"svcBackdoor: SVC 0x7b already implemented at {Hex.plain address.toNat}"
  | backdoorInstalled address => s!"svcBackdoor: installed at {Hex.plain address.toNat}"
  | infoInstalled address (major, minor, build) =>
    s!"svcGetCFWInfo: installed at {Hex.plain address.toNat}, " ++
      s!"version {major.toNat}.{minor.toNat}.{build.toNat}"
  | callsGranted pos => s!"SVC access check: patched at {Hex.plain pos}"
  | unpackingMissing => "builtin module access checks: no module decompression routine"
  | unpackingHooked site hook =>
    s!"builtin module access checks: {Hex.plain site} detoured to {Hex.plain hook}"
  | nativePatched => "NATIVE_FIRM patched"
  | safePatched => "SAFE_FIRM patched"
  | tableSkipped table version =>
    s!"{table}: version {versionText version} predates the table, skipped"
  | tableApplied table count => s!"{table}: {count} patches applied"
  | planned plan =>
    s!"boot: {plan.kind.name} {plan.title.name} on {plan.nand.name} with the " ++
      s!"{plan.source.name} FIRM ({plan.model.name}), protection {plan.guard.name}"
  | configUnavailable err => s!"configuration unavailable ({err.message}), using defaults"
  | configIgnored err => s!"configuration ignored ({err.message}), using defaults"
  | recordFailed err => s!"could not record boot options: {err.message}"
  | partitionTableUnreadable => "cannot read the SD card MBR"
  | imageFound slot sector => s!"EmuNAND slot {slot} at sector {Hex.plain sector.toNat}"
  | imageRetried slot => s!"EmuNAND slot {slot} not found, trying slot 1"
  | imageMissing => "no EmuNAND found"
  | cardImageRejected title err => s!"{title.imagePath}: {err.message}, falling back to NAND"
  | titleRead source title version size =>
    s!"{source.name} {title.name} version {Hex.plain version.toNat}, {Hex.plain size} bytes"
  | firmLoaded title source version =>
    s!"loaded {title.name} from {source.name} (version {versionText version})"
  | prepared => "boot prepared"
  | sectionPlaced index size address =>
    s!"section {index}: {Hex.plain size} bytes to {Hex.address address}"
  | requested operation => s!"ARM11 request {operation.name}"
  | launching title arm9Entry arm11Entry =>
    s!"launching {title.name}: ARM9 {Hex.address arm9Entry}, ARM11 {Hex.address arm11Entry}"
  | failed err => s!"boot failed: {err.message}"

def line (notice : Notice) : String :=
  s!"{notice.severity.name} {notice.message}"

end Notice
end BootStage
