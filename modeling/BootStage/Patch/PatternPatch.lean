import BootStage.Patch.Edit
/-!
# Pattern patches

A pattern patch overwrites bytes at a fixed displacement from where its pattern occurs. After
each write the search goes on behind the occurrence of the pattern, in the bytes as they now
are. `Bytes.replace` is this as a function of the image. A patch makes the same writes, and
checks each time that what is left to search is a range of the image.
-/

namespace BootStage

/-- Writes `replacement` at `offset` from up to `limit` occurrences of the table's pattern,
from `start` on, after `count` writes. Gives the number of writes, and the image also when a
write fails: the occurrences before it stay patched. -/
def SkipTable.replace (table : SkipTable) (offset : Int) (replacement : Bytes) :
    (limit count start : Nat) → Bytes → Except WriteFailure Nat × Bytes
  | 0, count, _, image => (.ok count, image)
  | limit + 1, count, start, image =>
    match table.search image start with
    | none => (.ok count, image)
    | some found =>
      match Bytes.writeStart image.size found offset replacement.size with
      | .error err => (.error err, image)
      | .ok pos =>
        table.replace offset replacement limit (count + 1) (found + table.pattern.size)
          (image.overwrite pos replacement)

/-- Overwrites at up to `limit` occurrences of `pattern`. An empty pattern has none. -/
def Bytes.replace (image pattern : Bytes) (offset : Int) (replacement : Bytes) (limit : Nat) :
    Except WriteFailure Nat × Bytes :=
  match SkipTable.ofPattern? pattern with
  | none => (.ok 0, image)
  | some table => table.replace offset replacement limit 0 0 image

structure PatternPatch where
  name : String
  pattern : Bytes
  /-- Displacement of the write from the occurrence. -/
  offset : Int
  replacement : Bytes
  limit : Nat := 1
  deriving DecidableEq, Repr

namespace PatternPatch

/-- Overwrites at up to `limit` occurrences of the table's pattern from `start` on, after `count`
writes. -/
def overwriteFrom (patch : PatternPatch) (table : SkipTable) :
    (limit count start : Nat) → Edit Nat
  | 0, count, _ => return count
  | limit + 1, count, start => do
    match ← Edit.searchFrom table start with
    | none => return count
    | some found =>
      Edit.writeDisplaced patch.name found patch.offset patch.replacement
      patch.overwriteFrom table limit (count + 1) (found + table.pattern.size)

/-- Overwrites at as many occurrences as the patch may. An empty pattern has none. -/
def overwriteAll (patch : PatternPatch) : Edit Nat :=
  match SkipTable.ofPattern? patch.pattern with
  | none => return 0
  | some table => patch.overwriteFrom table patch.limit 0 0

/-- Applies the patch, which need not find anything. -/
def apply (patch : PatternPatch) : Edit Nat := do
  let count ← patch.overwriteAll
  Run.emit (.patternPatched patch.name count)
  return count

/-- Applies the patch, which has to find its target. -/
def require (patch : PatternPatch) : Edit Nat := do
  let count ← patch.apply
  if count = 0 then throw (.missing patch.name) else return count

end PatternPatch
end BootStage
