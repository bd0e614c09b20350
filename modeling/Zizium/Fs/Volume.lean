import Zizium.Fs.Device
import Zizium.Fs.Directory

/-!
# Reading a volume

The mounted-volume object and the read paths of `kernel/fs/zifs/zifs.c`: file records,
directories over several blocks, and file contents.
-/

namespace Zizium

open Bytes BlockIO

structure ZiFsVolume where
  device : ZiBlockDevice
  superblock : ZiFsSuperblock
  mountedFromBackup : Bool
  isReadOnly : Bool
  needsRecovery : Bool
  journalHeaderValid : Bool
  isMounted : Bool
  securityGeneration : ℕ
  securityRecordCount : ℕ
  deriving DecidableEq, Repr

/-- A file record together with its index in the record table. -/
structure LocatedRecord where
  record : ZiFsFileRecord
  recordIndex : ℕ
  deriving DecidableEq, Repr

def ziFsReadFileRecord (volume : ZiFsVolume) (recordIndex : ℕ) : ReadIo ZiFsFileRecord := do
  let tableBlockOffset := recordIndex/recordsPerBlock
  failIf (tableBlockOffset ≥ volume.superblock.recordTableBlocks) .notFound
  let block ← volume.device.readBlock (volume.superblock.recordTableStart+tableBlockOffset)
  let recordOffset := recordIndex%recordsPerBlock*fileRecordSize
  let record ← ReadM.ofExcept (ziFsDecodeFileRecord (block.mem.shift recordOffset))
  ReadM.ofExcept (ziFsValidateFileRecord volume.superblock record)
  pure record

def ziFsDirectoryBlockCount (volume : ZiFsVolume) (directory : ZiFsFileRecord) : Result ℕ := do
  failIf (directory.fileType ≠ fileTypeDirectory) .invalidArgument
  ziFsValidateFileRecord volume.superblock directory
  let continuationBlocks := directory.allocatedSize/blockSize
  failIf (continuationBlocks ≥ maxDirectoryBlocks) .corruptFilesystem
  pure (continuationBlocks+1)

def extentBlockAt (logicalBlock : ℕ) : List ZiFsExtent → Option ℕ
  | [] => none
  | extent :: extents =>
    if logicalBlock ≥ extent.logicalBlock ∧
        logicalBlock-extent.logicalBlock < extent.blockCount then
      some (extent.physicalBlock+(logicalBlock-extent.logicalBlock))
    else extentBlockAt logicalBlock extents

def ziFsDirectoryBlockAt (volume : ZiFsVolume) (directory : ZiFsFileRecord) (logicalBlock : ℕ) :
    Result ℕ := do
  let blockCount ← ziFsDirectoryBlockCount volume directory
  failIf (logicalBlock ≥ blockCount) .outOfBounds
  if logicalBlock = 0 then pure directory.directoryBlock
  else match extentBlockAt logicalBlock directory.extents with
    | some physicalBlock => pure physicalBlock
    | none => throw .corruptFilesystem

/-- A directory entry together with the block that holds it. -/
structure LocatedEntry where
  entry : ZiFsDirectoryEntry
  directoryBlock : ℕ
  deriving DecidableEq, Repr

/-- One round of the search over the blocks of a directory. -/
def findInDirectoryBlock (volume : ZiFsVolume) (directory : ZiFsFileRecord) (name : List UInt8)
    (logicalBlock : ℕ) (found : Option LocatedEntry) : ReadIo (Option LocatedEntry) := do
  let physicalBlock ← ReadM.ofExcept (ziFsDirectoryBlockAt volume directory logicalBlock)
  let block ← volume.device.readBlock physicalBlock
  ReadM.ofExcept (ziFsValidateDirectoryBlock block directory.fileId)
  match ziFsFindDirectoryEntry block name with
  | .error .notFound => pure found
  | .error status => throw status
  | .ok candidate => do
    failIf found.isSome .corruptFilesystem
    pure (some ⟨{ candidate with name := name },physicalBlock⟩)

def ziFsFindDirectoryEntryInRecord (volume : ZiFsVolume) (directory : ZiFsFileRecord)
    (name : List UInt8) : ReadIo LocatedEntry := do
  ReadM.ofExcept (validateDirectoryName name)
  let blockCount ← ReadM.ofExcept (ziFsDirectoryBlockCount volume directory)
  let found ← ReadM.loop (findInDirectoryBlock volume directory name) blockCount 0 none
  match found with
  | none => throw .notFound
  | some entry => pure entry

def readFileLoop (volume : ZiFsVolume) (record : ZiFsFileRecord) :
    (rounds fileOffset remaining : ℕ) → List UInt8 → ReadIo (List UInt8)
  | 0, _, _, output => pure output
  | rounds+1, fileOffset, remaining, output =>
    if remaining = 0 then pure output
    else do
      let logicalBlock := fileOffset/blockSize
      let blockOffset := fileOffset%blockSize
      match extentBlockAt logicalBlock record.extents with
      | none => throw .corruptFilesystem
      | some physicalBlock => do
        let block ← volume.device.readBlock physicalBlock
        let copySize := min (blockSize-blockOffset) remaining
        readFileLoop volume record rounds (fileOffset+copySize) (remaining-copySize)
          (output ++ block.mem.slice blockOffset copySize)

def ziFsReadFile (volume : ZiFsVolume) (record : ZiFsFileRecord) (offset outputSize : ℕ) :
    ReadIo (List UInt8) := do
  ReadM.ofExcept (ziFsValidateFileRecord volume.superblock record)
  failIf (record.fileType ≠ fileTypeRegular) .invalidArgument
  if outputSize = 0 ∨ offset ≥ record.fileSize then pure []
  else
    let remaining := min (record.fileSize-offset) outputSize
    readFileLoop volume record remaining offset remaining []

end Zizium
