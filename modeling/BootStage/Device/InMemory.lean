import BootStage.Device.Collaborators
/-!
# Collaborators held in memory

Stand-ins for the hardware, with which a boot can be run and its outcome computed: files and
installed titles by name, a cipher that flips bits, and a card given sector by sector. Each
can be told to fail.
-/

namespace BootStage

def Bytes.receive (buffer file : Bytes) : Except StorageFailure Nat × Bytes :=
  if buffer.size < file.size then (.error (.oversized file.size buffer.size), buffer)
  else (.ok file.size, buffer.overwrite 0 file)

theorem Bytes.size_receive (buffer file : Bytes) :
    (buffer.receive file).2.size = buffer.size := by
  unfold receive
  split
  · rfl
  · exact size_overwrite _ _ _

structure FileStore where
  files : String → Option Bytes
  readFault : String → Option StorageFailure
  writeFault : String → Option StorageFailure
  titles : Nand → Title → Option (Bytes × UInt32)
  titleFault : Option StorageFailure

namespace FileStore

def empty : FileStore where
  files := fun _ => none
  readFault := fun _ => none
  writeFault := fun _ => none
  titles := fun _ _ => none
  titleFault := none

def setFile (store : FileStore) (path : String) (data : Option Bytes) : FileStore :=
  { store with files := fun p => if p = path then data else store.files p }

def lookup (store : FileStore) (path : String) : Except StorageFailure Bytes :=
  match store.readFault path, store.files path with
  | some err, _ => .error err
  | none, none => .error .absent
  | none, some file => .ok file

def lookupTitle (store : FileStore) (nand : Nand) (title : Title) :
    Except StorageFailure (Bytes × UInt32) :=
  match store.titleFault, store.titles nand title with
  | some err, _ => .error err
  | none, none => .error .absent
  | none, some found => .ok found

instance : Storage FileStore where
  getFile path buffer store :=
    match store.lookup path with
    | .error err => ⟨.error err, buffer, store⟩
    | .ok file => ⟨(buffer.receive file).1, (buffer.receive file).2, store⟩
  putFile path data store :=
    match store.writeFault path with
    | some err => (.error err, store)
    | none => (.ok (), store.setFile path (some data))
  readTitle nand title buffer store :=
    match store.lookupTitle nand title with
    | .error err => ⟨.error err, buffer, store⟩
    | .ok (image, version) =>
      ⟨(buffer.receive image).1.map (⟨·, version⟩), (buffer.receive image).2, store⟩
  size_getFile path buffer store := by
    split
    · rfl
    · exact Bytes.size_receive _ _
  size_readTitle nand title buffer store := by
    split
    · rfl
    · exact Bytes.size_receive _ _

end FileStore

/-- A cipher that flips the same bits of every byte. -/
structure XorCipher where
  titleMask : UInt8
  arm9Mask : UInt8
  titleFails : Bool
  arm9Fails : Bool
  /-- Section whose hash does not match. -/
  corruptSection : Option Nat
  deriving DecidableEq, Repr

namespace XorCipher

def plain : XorCipher := ⟨0, 0, false, false, none⟩

instance : Crypto XorCipher where
  decryptTitle buffer cipher :=
    if cipher.titleFails then ⟨.error .exefs, buffer, cipher⟩
    else ⟨.ok (), buffer.map (· ^^^ cipher.titleMask), cipher⟩
  checkSection entry _ cipher :=
    if cipher.corruptSection = some entry.index then (.error (.hashMismatch entry.index), cipher)
    else (.ok (), cipher)
  decryptArm9 buffer _ cipher :=
    if cipher.arm9Fails then ⟨.error .arm9, buffer, cipher⟩
    else ⟨.ok (), buffer.map (· ^^^ cipher.arm9Mask), cipher⟩
  size_decryptTitle buffer cipher := by
    split
    · rfl
    · exact Array.size_map
  size_decryptArm9 buffer model cipher := by
    split
    · rfl
    · exact Array.size_map

end XorCipher

structure SectorImage where
  builtInSectors : UInt32
  sectors : UInt32 → Option Sector

namespace SectorImage

instance : Card SectorImage where
  builtInSectors image := image.builtInSectors
  getSector sector image := (image.sectors sector, image)

end SectorImage
end BootStage
