import Zizium.Fs.Transaction
import Zizium.Fs.Bitmap

/-!
# Staging

How `kernel/fs/zifs/transaction.c` builds block images, and the helpers for records, directories
and the allocation bitmap that the prepare calls are made of.
-/

namespace Zizium

open Bytes BlockIO

/-- Programs that read the device and change a transaction object. -/
abbrev Staging (α : Type) := TaskM Block ZiStatus ZiFsTransaction α

namespace ZiFsTransaction

def stagedBlock (transaction : ZiFsTransaction) (targetBlock : ℕ) : Option Block :=
  (transaction.blockImages.find? fun image => image.1 = targetBlock).map Prod.snd

def addImage (transaction : ZiFsTransaction) (targetBlock : ℕ) (data : Block) : ZiFsTransaction :=
  { transaction with blockImages := transaction.blockImages ++ [(targetBlock, data)] }

def setImage (transaction : ZiFsTransaction) (targetBlock : ℕ) (data : Block) : ZiFsTransaction :=
  { transaction with blockImages := transaction.blockImages.map fun image =>
      if image.1 = targetBlock then (targetBlock, data) else image }

end ZiFsTransaction

def transactionReadBlockView (volume : ZiFsVolume) (transaction : ZiFsTransaction)
    (targetBlock : ℕ) : ReadIo Block := do
  failIf (targetBlock ≥ volume.superblock.totalBlocks) .invalidArgument
  match transaction.stagedBlock targetBlock with
  | some data => pure data
  | none => volume.device.readBlock targetBlock

/-- Make sure that a block is staged, with its content on the device when it is new; the
result is its image. -/
def transactionStageExistingBlock (volume : ZiFsVolume) (targetBlock : ℕ) : Staging Block := do
  failIf (targetBlock ≥ volume.superblock.totalBlocks) .invalidArgument
  let transaction ← TaskM.get
  match transaction.stagedBlock targetBlock with
  | some data => pure data
  | none => do
    failIf (transaction.blockImages.length ≥ transaction.blockImageCapacity) .bufferTooSmall
    let data ← TaskM.lift (volume.device.readBlock targetBlock)
    TaskM.modify (·.addImage targetBlock data)
    pure data

def transactionStageEmptyBlock (volume : ZiFsVolume) (targetBlock : ℕ) : Staging Unit := do
  failIf (targetBlock ≥ volume.superblock.totalBlocks) .invalidArgument
  let transaction ← TaskM.get
  match transaction.stagedBlock targetBlock with
  | some _ => throw .invalidState
  | none => do
    failIf (transaction.blockImages.length ≥ transaction.blockImageCapacity) .bufferTooSmall
    TaskM.modify (·.addImage targetBlock Buffer.zero)

def editStagedBlock {α : Type} (volume : ZiFsVolume) (targetBlock : ℕ)
    (edit : Block → Result (α × Block)) : Staging α := do
  let data ← transactionStageExistingBlock volume targetBlock
  let (result, data) ← TaskM.lift (ReadM.ofExcept (edit data))
  TaskM.modify (·.setImage targetBlock data)
  pure result

/-! ### File records -/

def visitRecordSlots {σ : Type} (sb : ZiFsSuperblock)
    (visit : ℕ → Option ZiFsFileRecord → σ → Result σ) (data : Mem) (firstIndex : ℕ) :
    (left slot : ℕ) → σ → Result σ
  | 0, _, state => pure state
  | left+1, slot, state => do
    let encoded := data.shift (slot*fileRecordSize)
    let state ←
      if bytesAreZero encoded 0 fileRecordSize then visit (firstIndex+slot) none state
      else match ziFsDecodeFileRecord encoded with
        | .error _ => throw .corruptFilesystem
        | .ok record => do
          failIf (ziFailed (ziFsValidateFileRecord sb record)) .corruptFilesystem
          visit (firstIndex+slot) (some record) state
    visitRecordSlots sb visit data firstIndex left (slot+1) state

/-- The walk over the record table that the record searches share. -/
def visitRecordTable {σ : Type} (volume : ZiFsVolume)
    (visit : ℕ → Option ZiFsFileRecord → σ → Result σ) (state : σ) : ReadIo σ :=
  ReadM.loop (fun blockOffset state => do
    let block ← volume.device.readBlock (volume.superblock.recordTableStart+blockOffset)
    ReadM.ofExcept (visitRecordSlots volume.superblock visit block.mem
      (blockOffset*recordsPerBlock) recordsPerBlock 0 state))
    volume.superblock.recordTableBlocks 0 state

/-- The visit of `findRecordByFileId`: remember the record, which must be unique. -/
def matchFileId (fileId index : ℕ) (record : Option ZiFsFileRecord)
    (found : Option LocatedRecord) : Result (Option LocatedRecord) :=
  match record with
  | none => pure found
  | some candidate =>
    if candidate.fileId ≠ fileId then pure found
    else do
      failIf found.isSome .corruptFilesystem
      pure (some ⟨candidate,index⟩)

def findRecordByFileId (volume : ZiFsVolume) (fileId : ℕ) : ReadIo LocatedRecord := do
  failIf (fileId = 0 ∨ volume.superblock.recordTableBlocks > uint64Max/recordsPerBlock)
    .invalidArgument
  match ← visitRecordTable volume (matchFileId fileId) none with
  | none => throw .notFound
  | some found => pure found

/-- What the search for a free record has seen: the first free slot and the largest ID. -/
structure FreeRecordSearch where
  freeRecord : Option ℕ
  maximumFileId : ℕ

def rememberFreeRecord (index : ℕ) (record : Option ZiFsFileRecord) (search : FreeRecordSearch) :
    Result FreeRecordSearch :=
  match record with
  | none => pure { search with freeRecord := search.freeRecord.or (some index) }
  | some record => pure { search with maximumFileId := max search.maximumFileId record.fileId }

def findFreeRecord (volume : ZiFsVolume) : ReadIo (ℕ × ℕ) := do
  failIf (volume.superblock.recordTableBlocks > uint64Max/recordsPerBlock) .invalidArgument
  let search ← visitRecordTable volume rememberFreeRecord ⟨none,0⟩
  match search.freeRecord with
  | none => throw .volumeFull
  | some freeRecord => do
    failIf (search.maximumFileId = uint64Max) .volumeFull
    pure (freeRecord, search.maximumFileId+1)

/-- Store a record in its slot of a table block. -/
def putFileRecord (recordIndex : ℕ) (record : ZiFsFileRecord) (data : Block) :
    Result (Unit × Block) := do
  let bytes ← ziFsEncodeFileRecord record
  pure ((), data.put (recordIndex%recordsPerBlock*fileRecordSize) bytes)

def recordTableBlock (sb : ZiFsSuperblock) (recordIndex : ℕ) : ℕ :=
  sb.recordTableStart+recordIndex/recordsPerBlock

def stageChangedFileRecord (volume : ZiFsVolume) (recordIndex : ℕ) (record : ZiFsFileRecord) :
    Staging Unit := do
  failIf (recordIndex/recordsPerBlock ≥ volume.superblock.recordTableBlocks) .invalidArgument
  editStagedBlock volume (recordTableBlock volume.superblock recordIndex)
    (putFileRecord recordIndex record)

/-! ### Allocation -/

def blockIsInRange (blockNumber start count : ℕ) : Bool :=
  decide (blockNumber ≥ start ∧ blockNumber-start < count)

def blockIsMetadata (sb : ZiFsSuperblock) (blockNumber : ℕ) : Bool :=
  decide (blockNumber = 0 ∨ blockNumber = sb.backupSuperblock) ||
    sb.tables.any fun table => blockIsInRange blockNumber table.1 table.2

/-- The bitmap block kept between rounds of a search. -/
abbrev LoadedBitmap := Option (ℕ × Block)

def loadBitmap (volume : ZiFsVolume) (transaction : ZiFsTransaction) (loaded : LoadedBitmap)
    (block : ℕ) : ReadIo Block := do
  let bitmapBlock := block/bitsPerBitmapBlock
  failIf (bitmapBlock ≥ volume.superblock.allocationBitmapBlocks) .corruptFilesystem
  let read := transactionReadBlockView volume transaction
    (volume.superblock.allocationBitmapStart+bitmapBlock)
  match loaded with
  | none => read
  | some (index, data) => if index = bitmapBlock then pure data else read

def queryBit (data : Block) (block : ℕ) : ReadIo Bool :=
  (ReadM.ofExcept (ziFsAllocationBitQuery data.mem blockSize (block%bitsPerBitmapBlock))).orFail
    .corruptFilesystem

def findFreeExtentLoop (volume : ZiFsVolume) (transaction : ZiFsTransaction)
    (requestedBlocks : ℕ) : (left block : ℕ) → LoadedBitmap → (runStart runSize : ℕ) → ReadIo ℕ
  | 0, _, _, _, _ => throw .volumeFull
  | left+1, block, loaded, runStart, runSize =>
    if blockIsMetadata volume.superblock block then
      findFreeExtentLoop volume transaction requestedBlocks left (block+1) loaded runStart 0
    else do
      let data ← loadBitmap volume transaction loaded block
      let loaded := some (block/bitsPerBitmapBlock, data)
      if ← queryBit data block then
        findFreeExtentLoop volume transaction requestedBlocks left (block+1) loaded runStart 0
      else
        let runStart := if runSize = 0 then block else runStart
        if runSize+1 = requestedBlocks then pure runStart
        else
          findFreeExtentLoop volume transaction requestedBlocks left (block+1) loaded runStart
            (runSize+1)

def findFreeExtent (volume : ZiFsVolume) (transaction : ZiFsTransaction)
    (requestedBlocks : ℕ) : ReadIo ℕ := do
  failIf (requestedBlocks = 0) .invalidArgument
  findFreeExtentLoop volume transaction requestedBlocks volume.superblock.totalBlocks 0 none 0 0

def rangeIsFreeLoop (volume : ZiFsVolume) (transaction : ZiFsTransaction) :
    (left block : ℕ) → LoadedBitmap → ReadIo Bool
  | 0, _, _ => pure true
  | left+1, block, loaded =>
    if blockIsMetadata volume.superblock block then pure false
    else do
      let data ← loadBitmap volume transaction loaded block
      if ← queryBit data block then pure false
      else
        rangeIsFreeLoop volume transaction left (block+1)
          (some (block/bitsPerBitmapBlock, data))

def rangeIsFree (volume : ZiFsVolume) (transaction : ZiFsTransaction)
    (firstBlock blockCount : ℕ) : ReadIo Bool := do
  failIf (blockCount = 0) .invalidArgument
  if firstBlock ≥ volume.superblock.totalBlocks ∨
      blockCount > volume.superblock.totalBlocks-firstBlock then pure false
  else rangeIsFreeLoop volume transaction blockCount firstBlock none

def findAppendExtent (volume : ZiFsVolume) (transaction : ZiFsTransaction) (record : ZiFsFileRecord)
    (requestedBlocks : ℕ) : ReadIo ℕ := do
  failIf (requestedBlocks = 0) .invalidArgument
  match record.extents.getLast? with
  | none => findFreeExtent volume transaction requestedBlocks
  | some finalExtent =>
    if finalExtent.physicalBlock ≤ uint64Max-finalExtent.blockCount then do
      let preferredBlock := finalExtent.physicalBlock+finalExtent.blockCount
      if ← rangeIsFree volume transaction preferredBlock requestedBlocks then pure preferredBlock
      else findFreeExtent volume transaction requestedBlocks
    else findFreeExtent volume transaction requestedBlocks

/-- Add a new extent behind the others. -/
def pushExtent (record : ZiFsFileRecord) (logicalBlock physicalBlock blockCount : ℕ) :
    Result ZiFsFileRecord := do
  failIf (record.extents.length ≥ inlineExtentCount) .bufferTooSmall
  pure { record with extents := record.extents ++ [⟨logicalBlock,physicalBlock,blockCount,0,0⟩] }

def appendRecordExtent (record : ZiFsFileRecord) (logicalBlock physicalBlock blockCount : ℕ) :
    Result ZiFsFileRecord := do
  failIf (blockCount = 0 ∨ blockCount-1 > uint64Max-logicalBlock ∨
    blockCount-1 > uint64Max-physicalBlock) .invalidArgument
  match record.extents.getLast? with
  | none => pushExtent record logicalBlock physicalBlock blockCount
  | some finalExtent =>
    if finalExtent.logicalBlock ≤ uint64Max-finalExtent.blockCount ∧
        finalExtent.physicalBlock ≤ uint64Max-finalExtent.blockCount ∧
        finalExtent.logicalBlock+finalExtent.blockCount = logicalBlock ∧
        finalExtent.physicalBlock+finalExtent.blockCount = physicalBlock then do
      failIf (finalExtent.blockCount > uint64Max-blockCount) .outOfBounds
      pure { record with extents := record.extents.dropLast ++
        [{ finalExtent with blockCount := finalExtent.blockCount+blockCount }] }
    else pushExtent record logicalBlock physicalBlock blockCount

def recordPhysicalBlock (record : ZiFsFileRecord) (logicalBlock : ℕ) : Result ℕ :=
  match extentBlockAt logicalBlock record.extents with
  | some physicalBlock => pure physicalBlock
  | none => throw .corruptFilesystem

/-- Change a bit that must have the opposite value. -/
def flipAllocationBit (block : ℕ) (isAllocated : Bool) (failure : ZiStatus) (data : Block) :
    Result (Unit × Block) := do
  let bit := block%bitsPerBitmapBlock
  match ziFsAllocationBitQuery data.mem blockSize bit with
  | .error _ => throw failure
  | .ok allocated => do
    failIf (allocated = isAllocated) failure
    let bytes ← ziFsAllocationBitSet data.mem blockSize bit isAllocated
    pure ((), .ofMem 4096 bytes)

def bitmapBlock (sb : ZiFsSuperblock) (block : ℕ) : ℕ :=
  sb.allocationBitmapStart+block/bitsPerBitmapBlock

def stageExtentAllocation (volume : ZiFsVolume) (firstBlock blockCount : ℕ) : Staging Unit :=
  TaskM.loop (fun offset _ =>
    editStagedBlock volume (bitmapBlock volume.superblock (firstBlock+offset))
      (flipAllocationBit (firstBlock+offset) true .invalidState))
    blockCount 0 ()

def stageExtentRelease (volume : ZiFsVolume) (firstBlock blockCount : ℕ) : Staging Unit := do
  let transaction ← TaskM.get
  failIf (blockCount = 0 ∨ firstBlock ≥ volume.superblock.totalBlocks ∨
    blockCount > volume.superblock.totalBlocks-firstBlock ∨
    transaction.deferredExtents.length ≥ transactionMaximumDeferredExtents) .invalidArgument
  failIf (transaction.deferredExtents.any fun extent =>
    rangesOverlap firstBlock blockCount extent.firstBlock extent.blockCount) .corruptFilesystem
  TaskM.loop (fun offset _ => do
    let block := firstBlock+offset
    failIf (blockIsMetadata volume.superblock block) .corruptFilesystem
    failIf (block/bitsPerBitmapBlock ≥ volume.superblock.allocationBitmapBlocks)
      .corruptFilesystem
    editStagedBlock volume (bitmapBlock volume.superblock block)
      (flipAllocationBit block false .corruptFilesystem))
    blockCount 0 ()
  TaskM.modify fun transaction =>
    { transaction with
      deferredExtents := transaction.deferredExtents ++ [⟨firstBlock,blockCount⟩] }

/-! ### Ownership of extents -/

def validateExtentNonOverlap : List ZiFsExtent → Bool
  | [] => true
  | extent :: extents =>
    extents.all (fun other => !rangesOverlap extent.physicalBlock extent.blockCount
      other.physicalBlock other.blockCount) && validateExtentNonOverlap extents

def validateOwnerRecordCandidate (ownerRecordIndex : ℕ) (ownerRecord : ZiFsFileRecord)
    (candidateIndex : ℕ) (record : Option ZiFsFileRecord) (ownerSeen : Bool) : Result Bool :=
  match record with
  | none => pure ownerSeen
  | some candidate =>
    if candidateIndex = ownerRecordIndex then do
      failIf (ownerSeen = true ∨ candidate.fileId ≠ ownerRecord.fileId ∨
        candidate.fileType ≠ ownerRecord.fileType) .corruptFilesystem
      pure true
    else do
      failIf (candidate.fileId = ownerRecord.fileId) .corruptFilesystem
      failIf (ownerRecord.extents.any fun extent => candidate.extents.any fun other =>
        rangesOverlap extent.physicalBlock extent.blockCount other.physicalBlock other.blockCount)
        .corruptFilesystem
      pure ownerSeen

def reloadBitmap (volume : ZiFsVolume) (loaded : LoadedBitmap) (index : ℕ) : ReadIo Block :=
  let read := volume.device.readBlock (volume.superblock.allocationBitmapStart+index)
  match loaded with
  | none => read
  | some (loadedIndex, data) => if loadedIndex = index then pure data else read

def validateAllocatedExtent (volume : ZiFsVolume) :
    (left block : ℕ) → LoadedBitmap → ReadIo LoadedBitmap
  | 0, _, loaded => pure loaded
  | left+1, block, loaded => do
    let index := block/bitsPerBitmapBlock
    failIf (index ≥ volume.superblock.allocationBitmapBlocks) .corruptFilesystem
    let data ← reloadBitmap volume loaded index
    let allocated ← queryBit data block
    failIf (allocated = false) .corruptFilesystem
    validateAllocatedExtent volume left (block+1) (some (index, data))

def validateAllocatedExtents (volume : ZiFsVolume) : List ZiFsExtent → LoadedBitmap → ReadIo Unit
  | [], _ => pure ()
  | extent :: extents, loaded => do
    let loaded ← validateAllocatedExtent volume extent.blockCount extent.physicalBlock loaded
    validateAllocatedExtents volume extents loaded

def validateExtentOwnership (volume : ZiFsVolume) (ownerRecordIndex : ℕ)
    (ownerRecord : ZiFsFileRecord) : ReadIo Unit := do
  let sb := volume.superblock
  failIf (ownerRecord.fileType ≠ fileTypeRegular ∨
    sb.recordTableBlocks > uint64Max/recordsPerBlock ∨
    ownerRecordIndex ≥ sb.recordTableBlocks*recordsPerBlock) .invalidArgument
  failIf (validateExtentNonOverlap ownerRecord.extents = false) .corruptFilesystem
  let ownerSeen ← visitRecordTable volume
    (validateOwnerRecordCandidate ownerRecordIndex ownerRecord) false
  failIf (ownerSeen = false) .corruptFilesystem
  validateAllocatedExtents volume ownerRecord.extents none

/-! ### Directories -/

def findInsertionBlockLoop (volume : ZiFsVolume) (transaction : ZiFsTransaction)
    (directory : ZiFsFileRecord) (entry : ZiFsDirectoryEntry) :
    (left logicalBlock : ℕ) → ReadIo ℕ
  | 0, _ => throw .bufferTooSmall
  | left+1, logicalBlock => do
    let physicalBlock ← ReadM.ofExcept (ziFsDirectoryBlockAt volume directory logicalBlock)
    let data ← transactionReadBlockView volume transaction physicalBlock
    ReadM.ofExcept (ziFsValidateDirectoryBlock data directory.fileId)
    if ← ReadM.ofExcept (ziFsCanAddDirectoryEntry data entry) then pure physicalBlock
    else findInsertionBlockLoop volume transaction directory entry left (logicalBlock+1)

def findDirectoryInsertionBlock (volume : ZiFsVolume) (transaction : ZiFsTransaction)
    (directory : ZiFsFileRecord) (entry : ZiFsDirectoryEntry) : ReadIo ℕ := do
  let blockCount ← ReadM.ofExcept (ziFsDirectoryBlockCount volume directory)
  findInsertionBlockLoop volume transaction directory entry blockCount 0

/-- Where an entry was staged, and the directory record with any new extent. -/
structure StagedEntry where
  directoryBlock : ℕ
  directory : ZiFsFileRecord

def stageNewDirectoryBlock (volume : ZiFsVolume) (directory : ZiFsFileRecord)
    (entry : ZiFsDirectoryEntry) : Staging StagedEntry := do
  failIf (¬volume.superblock.UsesDirectoryExtents) .bufferTooSmall
  let blockCount ← TaskM.lift (ReadM.ofExcept (ziFsDirectoryBlockCount volume directory))
  failIf (blockCount ≥ maxDirectoryBlocks) .bufferTooSmall
  let transaction ← TaskM.get
  let targetBlock ← TaskM.lift (findAppendExtent volume transaction directory 1)
  let grown ← TaskM.lift (ReadM.ofExcept (appendRecordExtent directory blockCount targetBlock 1))
  failIf (grown.allocatedSize > uint64Max-blockSize) .outOfBounds
  let grown := { grown with allocatedSize := grown.allocatedSize+blockSize }
  stageExtentAllocation volume targetBlock 1
  transactionStageEmptyBlock volume targetBlock
  let data ← TaskM.lift (ReadM.ofExcept do
    let data ← ziFsInitialiseDirectoryBlock directory.fileId transaction.targetGeneration
    ziFsAddDirectoryEntry data entry)
  TaskM.modify (·.setImage targetBlock data)
  pure ⟨targetBlock,grown⟩

def insertEntry (fileId generation : ℕ) (entry : ZiFsDirectoryEntry) (data : Block) :
    Result (Unit × Block) := do
  ziFsValidateDirectoryBlock data fileId
  let data ← ziFsAddDirectoryEntry data entry
  let data ← ziFsSetDirectoryGeneration data generation
  pure ((), data)

def stageDirectoryEntry (volume : ZiFsVolume) (directory : ZiFsFileRecord)
    (entry : ZiFsDirectoryEntry) : Staging StagedEntry := do
  let transaction ← TaskM.get
  let search ← TaskM.lift (findDirectoryInsertionBlock volume transaction directory entry).attempt
  match search with
  | .error .bufferTooSmall => stageNewDirectoryBlock volume directory entry
  | .error status => throw status
  | .ok targetBlock => do
    editStagedBlock volume targetBlock
      (insertEntry directory.fileId transaction.targetGeneration entry)
    pure ⟨targetBlock,directory⟩

def directoryHasBlock (volume : ZiFsVolume) (directory : ZiFsFileRecord) (directoryBlock : ℕ) :
    (left logicalBlock : ℕ) → Result Bool
  | 0, _ => pure false
  | left+1, logicalBlock => do
    let candidate ← ziFsDirectoryBlockAt volume directory logicalBlock
    if candidate = directoryBlock then pure true
    else directoryHasBlock volume directory directoryBlock left (logicalBlock+1)

def extractEntry (fileId generation : ℕ) (name : List UInt8) (data : Block) :
    Result (ZiFsDirectoryEntry × Block) := do
  ziFsValidateDirectoryBlock data fileId
  let (data, entry) ← ziFsRemoveDirectoryEntry data name
  let data ← ziFsSetDirectoryGeneration data generation
  pure (entry, data)

def stageDirectoryRemoval (volume : ZiFsVolume) (directory : ZiFsFileRecord) (directoryBlock : ℕ)
    (name : List UInt8) : Staging ZiFsDirectoryEntry := do
  let belongs ← TaskM.lift (ReadM.ofExcept do
    let blockCount ← ziFsDirectoryBlockCount volume directory
    directoryHasBlock volume directory directoryBlock blockCount 0)
  failIf (belongs = false) .corruptFilesystem
  let transaction ← TaskM.get
  editStagedBlock volume directoryBlock
    (extractEntry directory.fileId transaction.targetGeneration name)

/-- The walk of `validateMoveDestination` from the target to the root. -/
def ancestorLoop (volume : ZiFsVolume) (movedRecord : ZiFsFileRecord) :
    (hops : ℕ) → ZiFsFileRecord → ReadIo Unit
  | 0, _ => throw .corruptFilesystem
  | hops+1, ancestor => do
    failIf (ancestor.fileType ≠ fileTypeDirectory) .corruptFilesystem
    failIf (ancestor.fileId = movedRecord.fileId) .invalidPath
    if ancestor.parentFileId = ancestor.fileId then pure ()
    else
      match ← (findRecordByFileId volume ancestor.parentFileId).attempt with
      | .error .notFound => throw .corruptFilesystem
      | .error status => throw status
      | .ok next => ancestorLoop volume movedRecord hops next.record

def validateMoveDestination (volume : ZiFsVolume) (movedRecord targetParent : ZiFsFileRecord) :
    ReadIo Unit := do
  if movedRecord.fileType ≠ fileTypeDirectory then pure ()
  else do
    failIf (volume.superblock.recordTableBlocks > uint64Max/recordsPerBlock) .corruptFilesystem
    ancestorLoop volume movedRecord (volume.superblock.recordTableBlocks*recordsPerBlock)
      targetParent

end Zizium
