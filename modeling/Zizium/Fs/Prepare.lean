import Zizium.Fs.Staging

/-!
# Prepare calls

The five operations of `kernel/fs/zifs/transaction.c`.  Each first reads and checks what it needs,
and then stages its images; a failure while staging discards them.
-/

namespace Zizium

open Bytes BlockIO

abbrev transactionMaximumDataBlocks : ℕ := 24

structure ZiFsCreateRequest where
  structSize : ℕ
  version : ℕ
  parentRecordIndex : ℕ
  securityId : ℕ
  timestamp : UInt64
  name : List UInt8
  data : List UInt8

structure ZiFsCreateResult where
  fileId : ℕ
  recordIndex : ℕ
  firstDataBlock : ℕ
  dataBlockCount : ℕ

structure ZiFsMoveRequest where
  structSize : ℕ
  version : ℕ
  sourceParentRecordIndex : ℕ
  targetParentRecordIndex : ℕ
  timestamp : UInt64
  flags : ℕ
  reserved : ℕ
  sourceName : List UInt8
  targetName : List UInt8

structure ZiFsMoveResult where
  fileId : ℕ
  recordIndex : ℕ
  sourceParentFileId : ℕ
  targetParentFileId : ℕ
  fileType : ℕ

structure ZiFsTruncateRequest where
  structSize : ℕ
  version : ℕ
  recordIndex : ℕ
  newSize : ℕ
  timestamp : UInt64
  flags : ℕ
  reserved : ℕ

structure ZiFsTruncateResult where
  fileId : ℕ
  recordIndex : ℕ
  previousSize : ℕ
  newSize : ℕ
  retainedBlockCount : ℕ
  releasedBlockCount : ℕ

structure ZiFsDeleteRequest where
  structSize : ℕ
  version : ℕ
  parentRecordIndex : ℕ
  timestamp : UInt64
  flags : ℕ
  reserved : ℕ
  name : List UInt8

structure ZiFsDeleteResult where
  fileId : ℕ
  recordIndex : ℕ
  parentFileId : ℕ
  releasedBlockCount : ℕ

structure ZiFsWriteRequest where
  structSize : ℕ
  version : ℕ
  recordIndex : ℕ
  offset : ℕ
  timestamp : UInt64
  flags : ℕ
  reserved : ℕ
  data : List UInt8

structure ZiFsWriteResult where
  fileId : ℕ
  recordIndex : ℕ
  previousSize : ℕ
  newSize : ℕ
  bytesWritten : ℕ
  allocatedBlockCount : ℕ

/-! ### Requests -/

/-- The rules for names in requests are those of the directory code. -/
def validateTransactionName (name : List UInt8) : Result Unit := validateDirectoryName name

def validateCreateRequest (request : ZiFsCreateRequest) : Result Unit := do
  failIf (request.structSize < 64 ∨ request.version ≠ 1 ∨ request.securityId = 0 ∨
    request.name.length = 0 ∨ request.name.length > maxDirectoryNameBytes ∨
    request.data.length > transactionMaximumDataBlocks*blockSize) .invalidArgument
  validateTransactionName request.name

def validateMoveRequest (request : ZiFsMoveRequest) : Result Unit := do
  failIf (request.structSize < 72 ∨ request.version ≠ 1 ∨ request.flags ≠ 0 ∨
    request.reserved ≠ 0) .invalidArgument
  validateTransactionName request.sourceName
  validateTransactionName request.targetName

def validateTruncateRequest (request : ZiFsTruncateRequest) : Result Unit :=
  failIf (request.structSize < 40 ∨ request.version ≠ 1 ∨ request.flags ≠ 0 ∨
    request.reserved ≠ 0) .invalidArgument

def validateDeleteRequest (request : ZiFsDeleteRequest) : Result Unit := do
  failIf (request.structSize < 48 ∨ request.version ≠ 1 ∨ request.flags ≠ 0 ∨
    request.reserved ≠ 0) .invalidArgument
  validateTransactionName request.name

def validateWriteRequest (request : ZiFsWriteRequest) : Result Unit :=
  failIf (request.structSize < 56 ∨ request.version ≠ 1 ∨ request.flags ≠ 0 ∨
    request.reserved ≠ 0 ∨ request.data.length = 0 ∨
    request.data.length > transactionMaximumDataBlocks*blockSize) .invalidArgument

/-- The state a transaction must be in before anything is staged in it. -/
def checkTransactionIsReady (transaction : ZiFsTransaction) : Result Unit := do
  failIf (transactionIsValid transaction = false) .invalidArgument
  failIf (transaction.state ≠ .ready ∨ transaction.blockImages.length ≠ 0) .invalidState

/-- The same for the calls that may release blocks. -/
def checkTransactionIsEmpty (transaction : ZiFsTransaction) : Result Unit := do
  failIf (transactionIsValid transaction = false) .invalidArgument
  failIf (transaction.state ≠ .ready ∨ transaction.blockImages.length ≠ 0 ∨
    transaction.deferredExtents.length ≠ 0) .invalidState

def prepareWith {π α : Type} (check : ZiFsTransaction → ReadIo π) (stage : π → Staging α) :
    Staging α := do
  let transaction ← TaskM.get
  let plan ← TaskM.lift (check transaction)
  let result ← (stage plan).onFailure transactionDiscardImages
  TaskM.modify fun transaction => { transaction with state := .prepared }
  pure result

def readDirectoryRecord (volume : ZiFsVolume) (recordIndex : ℕ) : ReadIo ZiFsFileRecord := do
  let record ← ziFsReadFileRecord volume recordIndex
  failIf (record.fileType ≠ fileTypeDirectory) .invalidArgument
  pure record

def requireEntryAbsent (volume : ZiFsVolume) (directory : ZiFsFileRecord) (name : List UInt8) :
    ReadIo Unit := do
  match ← (ziFsFindDirectoryEntryInRecord volume directory name).attempt with
  | .ok _ => throw .alreadyExists
  | .error .notFound => pure ()
  | .error status => throw status

def ZiFsFileRecord.touch (record : ZiFsFileRecord) (timestamp : UInt64) : ZiFsFileRecord :=
  { record with modifiedTime := timestamp.toNat, changedTime := timestamp.toNat }

/-- The number of blocks that hold `size` bytes. -/
def blocksFor (size : ℕ) : ℕ := if size = 0 then 0 else 1+(size-1)/blockSize

def requireSameEntry (removed found : ZiFsDirectoryEntry) : Result Unit :=
  failIf (removed.fileId ≠ found.fileId ∨ removed.recordIndex ≠ found.recordIndex ∨
    removed.fileType ≠ found.fileType ∨ removed.flags ≠ found.flags) .corruptFilesystem

/-! ### Create -/

structure CreatePlan where
  parent : ZiFsFileRecord
  recordIndex : ℕ
  fileId : ℕ
  dataBlockCount : ℕ
  firstDataBlock : ℕ

/-- Blocks for the data of the new file, when it has any. -/
def chooseDataBlocks (volume : ZiFsVolume) (transaction : ZiFsTransaction)
    (dataBlockCount : ℕ) : ReadIo ℕ :=
  if dataBlockCount ≠ 0 then findFreeExtent volume transaction dataBlockCount else pure 0

def checkCreate (volume : ZiFsVolume) (request : ZiFsCreateRequest)
    (transaction : ZiFsTransaction) : ReadIo CreatePlan := do
  ReadM.ofExcept (checkTransactionIsReady transaction)
  ReadM.ofExcept (validateCreateRequest request)
  let _ ← ziFsLoadSecurityDescriptor volume request.securityId
  let parent ← readDirectoryRecord volume request.parentRecordIndex
  requireEntryAbsent volume parent request.name
  let (recordIndex, fileId) ← findFreeRecord volume
  let dataBlockCount := blocksFor request.data.length
  let firstDataBlock ← chooseDataBlocks volume transaction dataBlockCount
  pure ⟨parent,recordIndex,fileId,dataBlockCount,firstDataBlock⟩

def createdRecord (request : ZiFsCreateRequest) (plan : CreatePlan) : ZiFsFileRecord where
  fileId := plan.fileId
  parentFileId := plan.parent.fileId
  flags := 0
  fileSize := request.data.length
  allocatedSize := plan.dataBlockCount*blockSize
  securityId := request.securityId
  directoryBlock := 0
  createdTime := request.timestamp.toNat
  modifiedTime := request.timestamp.toNat
  changedTime := request.timestamp.toNat
  accessedTime := request.timestamp.toNat
  fileType := fileTypeRegular
  extents := if plan.dataBlockCount ≠ 0 then [⟨0,plan.firstDataBlock,plan.dataBlockCount,0,0⟩]
    else []

def createdEntry (request : ZiFsCreateRequest) (plan : CreatePlan) : ZiFsDirectoryEntry where
  fileId := plan.fileId
  recordIndex := plan.recordIndex
  fileType := fileTypeRegular
  flags := 0
  name := request.name

def stageDataBlocks (volume : ZiFsVolume) : (left block : ℕ) → List UInt8 → Staging Unit
  | 0, _, _ => pure ()
  | left+1, block, data => do
    transactionStageEmptyBlock volume block
    TaskM.modify (·.setImage block (Buffer.zero.put 0 (data.take blockSize)))
    stageDataBlocks volume left (block+1) (data.drop blockSize)

def stageCreate (volume : ZiFsVolume) (request : ZiFsCreateRequest) (plan : CreatePlan) :
    Staging ZiFsCreateResult := do
  TaskM.when (plan.dataBlockCount ≠ 0)
    (stageExtentAllocation volume plan.firstDataBlock plan.dataBlockCount)
  editStagedBlock volume (recordTableBlock volume.superblock plan.recordIndex)
    (putFileRecord plan.recordIndex (createdRecord request plan))
  let staged ← stageDirectoryEntry volume plan.parent (createdEntry request plan)
  stageChangedFileRecord volume request.parentRecordIndex (staged.directory.touch request.timestamp)
  stageDataBlocks volume plan.dataBlockCount plan.firstDataBlock request.data
  pure ⟨plan.fileId,plan.recordIndex,plan.firstDataBlock,plan.dataBlockCount⟩

def ziFsTransactionPrepareCreateFile (volume : ZiFsVolume) (request : ZiFsCreateRequest) :
    Staging ZiFsCreateResult :=
  prepareWith (checkCreate volume request) (stageCreate volume request)

/-! ### Move -/

structure MovePlan where
  sourceParent : ZiFsFileRecord
  targetParent : ZiFsFileRecord
  source : LocatedEntry
  movedRecord : ZiFsFileRecord

def ZiFsMoveRequest.sameParent (request : ZiFsMoveRequest) : Bool :=
  decide (request.sourceParentRecordIndex = request.targetParentRecordIndex)

def readTargetParent (volume : ZiFsVolume) (request : ZiFsMoveRequest)
    (sourceParent : ZiFsFileRecord) : ReadIo ZiFsFileRecord := do
  if request.sameParent then pure sourceParent
  else do
    let targetParent ← readDirectoryRecord volume request.targetParentRecordIndex
    failIf (sourceParent.fileId = targetParent.fileId ∨
      sourceParent.directoryBlock = targetParent.directoryBlock) .corruptFilesystem
    pure targetParent

def checkMove (volume : ZiFsVolume) (request : ZiFsMoveRequest)
    (transaction : ZiFsTransaction) : ReadIo MovePlan := do
  ReadM.ofExcept (checkTransactionIsReady transaction)
  ReadM.ofExcept (validateMoveRequest request)
  let sourceParent ← readDirectoryRecord volume request.sourceParentRecordIndex
  let source ← ziFsFindDirectoryEntryInRecord volume sourceParent request.sourceName
  failIf (request.sameParent ∧ request.sourceName = request.targetName) .alreadyExists
  let targetParent ← readTargetParent volume request sourceParent
  requireEntryAbsent volume targetParent request.targetName
  let movedRecord ← ziFsReadFileRecord volume source.entry.recordIndex
  failIf (source.entry.recordIndex = volume.superblock.rootRecordIndex ∨
    movedRecord.fileId ≠ source.entry.fileId ∨ movedRecord.fileType ≠ source.entry.fileType ∨
    movedRecord.parentFileId ≠ sourceParent.fileId) .corruptFilesystem
  ReadM.when (¬request.sameParent) (validateMoveDestination volume movedRecord targetParent)
  pure ⟨sourceParent,targetParent,source,movedRecord⟩

def stageMove (volume : ZiFsVolume) (request : ZiFsMoveRequest) (plan : MovePlan) :
    Staging ZiFsMoveResult := do
  let removed ← stageDirectoryRemoval volume plan.sourceParent plan.source.directoryBlock
    request.sourceName
  TaskM.lift (ReadM.ofExcept (requireSameEntry removed plan.source.entry))
  let staged ← stageDirectoryEntry volume
    (if request.sameParent then plan.sourceParent else plan.targetParent)
    { removed with name := request.targetName }
  -- within one directory the entry may have given the source parent a new extent
  let sourceParent := if request.sameParent then staged.directory else plan.sourceParent
  stageChangedFileRecord volume request.sourceParentRecordIndex
    (sourceParent.touch request.timestamp)
  TaskM.when (¬request.sameParent)
    (stageChangedFileRecord volume request.targetParentRecordIndex
      (staged.directory.touch request.timestamp))
  stageChangedFileRecord volume plan.source.entry.recordIndex
    { plan.movedRecord with
      parentFileId := plan.targetParent.fileId, changedTime := request.timestamp.toNat }
  pure ⟨plan.movedRecord.fileId,plan.source.entry.recordIndex,plan.sourceParent.fileId,
    plan.targetParent.fileId,plan.movedRecord.fileType⟩

def ziFsTransactionPrepareMove (volume : ZiFsVolume) (request : ZiFsMoveRequest) :
    Staging ZiFsMoveResult :=
  prepareWith (checkMove volume request) (stageMove volume request)

/-! ### Truncate -/

/-- How a truncation divides the extents of a file. -/
structure ExtentSplit where
  kept : List ZiFsExtent
  releases : List ZiFsDeferredExtent
  remainingBlocks : ℕ

def splitExtents : List ZiFsExtent → (remainingBlocks : ℕ) → ExtentSplit
  | [], remainingBlocks => ⟨[],[],remainingBlocks⟩
  | extent :: extents, remainingBlocks =>
    let keepBlocks := min extent.blockCount remainingBlocks
    let rest := splitExtents extents (remainingBlocks-keepBlocks)
    { rest with
      kept := if keepBlocks ≠ 0 then { extent with blockCount := keepBlocks } :: rest.kept
        else rest.kept
      releases := if keepBlocks < extent.blockCount
        then ⟨extent.physicalBlock+keepBlocks,extent.blockCount-keepBlocks⟩ :: rest.releases
        else rest.releases }

structure TruncatePlan where
  record : ZiFsFileRecord
  changed : ZiFsFileRecord
  releases : List ZiFsDeferredExtent

def checkTruncate (volume : ZiFsVolume) (request : ZiFsTruncateRequest)
    (transaction : ZiFsTransaction) : ReadIo TruncatePlan := do
  ReadM.ofExcept (checkTransactionIsEmpty transaction)
  ReadM.ofExcept (validateTruncateRequest request)
  let record ← ziFsReadFileRecord volume request.recordIndex
  failIf (request.recordIndex = volume.superblock.rootRecordIndex ∨
    record.fileType ≠ fileTypeRegular) .invalidArgument
  failIf (request.newSize > record.fileSize) .notImplemented
  validateExtentOwnership volume request.recordIndex record
  let retainedBlocks := blocksFor request.newSize
  let split := splitExtents record.extents retainedBlocks
  failIf (split.releases.length > transactionMaximumDeferredExtents) .corruptFilesystem
  failIf (split.remainingBlocks ≠ 0 ∨ retainedBlocks > uint64Max/blockSize) .corruptFilesystem
  let changed := { record with
    extents := split.kept
    fileSize := request.newSize
    allocatedSize := retainedBlocks*blockSize }
  pure ⟨record,changed.touch request.timestamp,split.releases⟩

def stageTailClear (volume : ZiFsVolume) (newSize : ℕ) (changed : ZiFsFileRecord) :
    Staging Unit := do
  let tailOffset := newSize%blockSize
  match changed.extents.getLast? with
  | none => pure ()
  | some finalExtent =>
    if tailOffset ≠ 0 then
      editStagedBlock volume (finalExtent.physicalBlock+finalExtent.blockCount-1) fun data =>
        pure ((), data.put tailOffset (List.replicate (blockSize-tailOffset) 0))
    else pure ()

def stageReleases (volume : ZiFsVolume) : List ZiFsDeferredExtent → Staging Unit
  | [] => pure ()
  | release :: releases => do
    stageExtentRelease volume release.firstBlock release.blockCount
    stageReleases volume releases

def releasedBlocks (releases : List ZiFsDeferredExtent) : ℕ :=
  (releases.map ZiFsDeferredExtent.blockCount).sum

def stageTruncate (volume : ZiFsVolume) (request : ZiFsTruncateRequest) (plan : TruncatePlan) :
    Staging ZiFsTruncateResult := do
  stageChangedFileRecord volume request.recordIndex plan.changed
  stageTailClear volume request.newSize plan.changed
  stageReleases volume plan.releases
  pure ⟨plan.record.fileId,request.recordIndex,plan.record.fileSize,request.newSize,
    blocksFor request.newSize,releasedBlocks plan.releases⟩

def ziFsTransactionPrepareTruncate (volume : ZiFsVolume) (request : ZiFsTruncateRequest) :
    Staging ZiFsTruncateResult :=
  prepareWith (checkTruncate volume request) (stageTruncate volume request)

/-! ### Write -/

structure WritePlan where
  record : ZiFsFileRecord
  changed : ZiFsFileRecord
  existingBlocks : ℕ
  allocatedBlocks : ℕ
  firstNewBlock : ℕ

def growRecord (volume : ZiFsVolume) (transaction : ZiFsTransaction) (record : ZiFsFileRecord)
    (existingBlocks requiredBlocks : ℕ) : ReadIo (ZiFsFileRecord × ℕ) := do
  let allocatedBlocks := requiredBlocks-existingBlocks
  if allocatedBlocks ≠ 0 then do
    let firstNewBlock ← findAppendExtent volume transaction record allocatedBlocks
    let changed ← ReadM.ofExcept
      (appendRecordExtent record existingBlocks firstNewBlock allocatedBlocks)
    failIf (requiredBlocks > uint64Max/blockSize) .outOfBounds
    pure ({ changed with allocatedSize := requiredBlocks*blockSize }, firstNewBlock)
  else pure (record, 0)

def checkWrite (volume : ZiFsVolume) (request : ZiFsWriteRequest)
    (transaction : ZiFsTransaction) : ReadIo WritePlan := do
  ReadM.ofExcept (checkTransactionIsEmpty transaction)
  ReadM.ofExcept (validateWriteRequest request)
  failIf (request.data.length > uint64Max-request.offset) .outOfBounds
  let record ← ziFsReadFileRecord volume request.recordIndex
  failIf (request.recordIndex = volume.superblock.rootRecordIndex ∨
    record.fileType ≠ fileTypeRegular) .invalidArgument
  failIf (request.offset > record.fileSize) .notImplemented
  validateExtentOwnership volume request.recordIndex record
  let newSize := max (request.offset+request.data.length) record.fileSize
  let existingBlocks := record.allocatedSize/blockSize
  let requiredBlocks := 1+(newSize-1)/blockSize
  failIf (requiredBlocks < existingBlocks) .corruptFilesystem
  let (changed, firstNewBlock) ← growRecord volume transaction record existingBlocks requiredBlocks
  pure ⟨record,{ changed with fileSize := newSize },existingBlocks,
    requiredBlocks-existingBlocks,firstNewBlock⟩

/-- The copy loop of the write.  Each round copies at least one byte, so the number of
bytes left bounds the number of rounds. -/
def stageWriteLoop (volume : ZiFsVolume) (changed : ZiFsFileRecord) (existingBlocks : ℕ) :
    (rounds currentOffset : ℕ) → List UInt8 → Staging Unit
  | 0, _, _ => pure ()
  | rounds+1, currentOffset, data =>
    if data.length = 0 then pure ()
    else do
      let logicalBlock := currentOffset/blockSize
      let blockOffset := currentOffset%blockSize
      let physicalBlock ← TaskM.lift (ReadM.ofExcept (recordPhysicalBlock changed logicalBlock))
      TaskM.when (logicalBlock ≥ existingBlocks) (transactionStageEmptyBlock volume physicalBlock)
      let copySize := min data.length (blockSize-blockOffset)
      editStagedBlock volume physicalBlock fun block =>
        pure ((), block.put blockOffset (data.take copySize))
      stageWriteLoop volume changed existingBlocks rounds (currentOffset+copySize)
        (data.drop copySize)

def stageWrite (volume : ZiFsVolume) (request : ZiFsWriteRequest) (plan : WritePlan) :
    Staging ZiFsWriteResult := do
  TaskM.when (plan.allocatedBlocks ≠ 0)
    (stageExtentAllocation volume plan.firstNewBlock plan.allocatedBlocks)
  stageWriteLoop volume plan.changed plan.existingBlocks request.data.length request.offset
    request.data
  stageChangedFileRecord volume request.recordIndex (plan.changed.touch request.timestamp)
  pure ⟨plan.record.fileId,request.recordIndex,plan.record.fileSize,plan.changed.fileSize,
    request.data.length,plan.allocatedBlocks⟩

def ziFsTransactionPrepareWrite (volume : ZiFsVolume) (request : ZiFsWriteRequest) :
    Staging ZiFsWriteResult :=
  prepareWith (checkWrite volume request) (stageWrite volume request)

/-! ### Delete -/

structure DeletePlan where
  parent : ZiFsFileRecord
  located : LocatedEntry
  record : ZiFsFileRecord

def checkDelete (volume : ZiFsVolume) (request : ZiFsDeleteRequest)
    (transaction : ZiFsTransaction) : ReadIo DeletePlan := do
  ReadM.ofExcept (checkTransactionIsEmpty transaction)
  ReadM.ofExcept (validateDeleteRequest request)
  let parent ← readDirectoryRecord volume request.parentRecordIndex
  let located ← ziFsFindDirectoryEntryInRecord volume parent request.name
  let entry := located.entry
  failIf (entry.recordIndex = volume.superblock.rootRecordIndex ∨
    entry.recordIndex = request.parentRecordIndex) .corruptFilesystem
  let record ← ziFsReadFileRecord volume entry.recordIndex
  failIf (record.fileId ≠ entry.fileId ∨ record.fileType ≠ entry.fileType ∨
    record.parentFileId ≠ parent.fileId) .corruptFilesystem
  failIf (record.fileType ≠ fileTypeRegular) .notImplemented
  validateExtentOwnership volume entry.recordIndex record
  pure ⟨parent,located,record⟩

def clearFileRecord (recordIndex : ℕ) (data : Block) : Result (Unit × Block) :=
  pure ((), data.put (recordIndex%recordsPerBlock*fileRecordSize)
    (List.replicate fileRecordSize 0))

def extentReleases (extents : List ZiFsExtent) : List ZiFsDeferredExtent :=
  extents.map fun extent => ⟨extent.physicalBlock,extent.blockCount⟩

def stageDelete (volume : ZiFsVolume) (request : ZiFsDeleteRequest) (plan : DeletePlan) :
    Staging ZiFsDeleteResult := do
  let entry := plan.located.entry
  let removed ← stageDirectoryRemoval volume plan.parent plan.located.directoryBlock request.name
  TaskM.lift (ReadM.ofExcept (requireSameEntry removed entry))
  stageChangedFileRecord volume request.parentRecordIndex (plan.parent.touch request.timestamp)
  editStagedBlock volume (recordTableBlock volume.superblock entry.recordIndex)
    (clearFileRecord entry.recordIndex)
  stageReleases volume (extentReleases plan.record.extents)
  pure ⟨plan.record.fileId,entry.recordIndex,plan.parent.fileId,
    releasedBlocks (extentReleases plan.record.extents)⟩

def ziFsTransactionPrepareDelete (volume : ZiFsVolume) (request : ZiFsDeleteRequest) :
    Staging ZiFsDeleteResult :=
  prepareWith (checkDelete volume request) (stageDelete volume request)

end Zizium
