import Zizium.Fs.Mount

/-!
# Transactions

Transaction objects of `kernel/fs/zifs/transaction.c`: staged block images and the commit
that carries them through the journal to their home blocks.  The volume object is passed
beside the transaction that points to it.
-/

namespace Zizium

open Bytes BlockIO

abbrev transactionMinimumBlockImages : ℕ := 1
abbrev transactionMaximumBlockImages : ℕ := journalMaximumBlockImages
abbrev transactionMaximumDeferredExtents : ℕ := inlineExtentCount
abbrev transactionScratchBlocks : ℕ := 2
abbrev transactionMinimumWorkspaceBlocks : ℕ := 3

inductive ZiFsTransactionState where
  | uninitialised
  | ready
  | prepared
  | failed
  deriving DecidableEq, Repr

structure ZiFsDeferredExtent where
  firstBlock : ℕ
  blockCount : ℕ
  deriving DecidableEq, Repr

/-- A staged image: the target block and its new content. -/
abbrev BlockImage := ℕ × Block

structure ZiFsTransaction where
  sourceGeneration : ℕ
  targetGeneration : ℕ
  transactionId : ℕ
  state : ZiFsTransactionState
  blockImageCapacity : ℕ
  blockImages : List BlockImage
  deferredExtents : List ZiFsDeferredExtent

def transactionIsValid (transaction : ZiFsTransaction) : Bool :=
  decide (transaction.blockImageCapacity ≥ transactionMinimumBlockImages ∧
    transaction.blockImageCapacity ≤ transactionMaximumBlockImages ∧
    transaction.state ≠ .uninitialised ∧
    transaction.blockImages.length ≤ transaction.blockImageCapacity ∧
    transaction.deferredExtents.length ≤ transactionMaximumDeferredExtents)

def transactionImageCapacity (workspaceSize : ℕ) : ℕ :=
  let workspaceBlocks := workspaceSize/blockSize
  if workspaceBlocks < transactionMinimumWorkspaceBlocks then 0
  else min (workspaceBlocks-transactionScratchBlocks) transactionMaximumBlockImages

def transactionStableSuperblockState (volume : ZiFsVolume) : ℕ :=
  if volume.superblock.UsesCleanUnmount ∧ volume.isReadOnly = false then stateMounted
  else stateNone

def ziFsTransactionInitialise (volume : ZiFsVolume) (workspaceSize : ℕ) :
    Result ZiFsTransaction := do
  let imageCapacity := transactionImageCapacity workspaceSize
  failIf (imageCapacity < transactionMinimumBlockImages ∨
    volume.superblock.generation = uint64Max ∨
    volume.superblock.lastCommittedTransaction ≥ uint64Max-1 ∨
    ¬volume.superblock.UsesJournal ∨ volume.device.hasRead = false) .invalidArgument
  failIf (volume.isMounted = false) .invalidState
  failIf (volume.superblock.stateFlags ≠ transactionStableSuperblockState volume ∨
    volume.needsRecovery = true) .recoveryRequired
  pure {
    sourceGeneration := volume.superblock.generation
    targetGeneration := volume.superblock.generation+1
    transactionId := volume.superblock.lastCommittedTransaction+1
    state := .ready
    blockImageCapacity := imageCapacity
    blockImages := []
    deferredExtents := [] }

def transactionDiscardImages (transaction : ZiFsTransaction) : ZiFsTransaction :=
  { transaction with blockImages := [], deferredExtents := [], state := .ready }

/-- Reset a transaction; the object is changed even when its generations cannot advance. -/
def ziFsTransactionReset (volume : ZiFsVolume) (transaction : ZiFsTransaction) :
    Result Unit × ZiFsTransaction :=
  if transactionIsValid transaction = false then (.error .invalidArgument, transaction)
  else if transaction.state = .failed ∨ volume.needsRecovery = true then
    (.error .recoveryRequired, transaction)
  else if volume.isMounted = false ∨
      volume.superblock.stateFlags ≠ transactionStableSuperblockState volume then
    (.error .invalidState, transaction)
  else
    let transaction := { transactionDiscardImages transaction with
      sourceGeneration := volume.superblock.generation }
    if transaction.sourceGeneration = uint64Max ∨
        volume.superblock.lastCommittedTransaction = uint64Max then
      (.error .invalidState, transaction)
    else (.ok (), { transaction with
      targetGeneration := transaction.sourceGeneration+1
      transactionId := volume.superblock.lastCommittedTransaction+1 })

/-! ### Journal records of a transaction -/

def beginRecord (transaction : ZiFsTransaction) (sequence : ℕ) : ZiFsJournalRecord where
  transactionId := transaction.transactionId
  sequence := sequence
  targetBlock := journalTargetNone
  sourceGeneration := transaction.sourceGeneration
  targetGeneration := transaction.targetGeneration
  imageCount := transaction.blockImages.length
  transactionChecksum := 0
  recordType := recordBegin
  flags := 0
  payload := []

def imageRecord (transaction : ZiFsTransaction) (sequence : ℕ) (image : BlockImage) :
    ZiFsJournalRecord where
  transactionId := transaction.transactionId
  sequence := sequence
  targetBlock := image.1
  sourceGeneration := transaction.sourceGeneration
  targetGeneration := transaction.targetGeneration
  imageCount := 0
  transactionChecksum := 0
  recordType := recordBlockImage
  flags := 0
  payload := image.2.mem.slice 0 4096

/-- The COMMIT or CHECKPOINT record, which repeats the fields of BEGIN. -/
def closingRecord (transaction : ZiFsTransaction) (recordType sequence : ℕ) (sum : UInt32) :
    ZiFsJournalRecord :=
  { beginRecord transaction sequence with
    recordType := recordType, transactionChecksum := sum.toNat }

def writeJournalRecord (volume : ZiFsVolume) (recordIndex : ℕ) (record : ZiFsJournalRecord) :
    DeviceIo Unit := do
  let capacity ← IoM.ofExcept (ziFsJournalRecordCapacity volume.superblock.journalBlocks)
  let targetBlock ← IoM.ofExcept
    (ziFsJournalRecordBlock volume.superblock.journalStart capacity recordIndex)
  let blocks ← IoM.ofExcept (ziFsEncodeJournalRecord record)
  ziBlockWrite volume.device targetBlock blocks

/-- Where the journal writer stands: the next slot, the next sequence number and the
checksum over the images written so far. -/
structure JournalCursor where
  recordIndex : ℕ
  sequence : ℕ
  checksum : UInt32

def writeImageRecord (volume : ZiFsVolume) (transaction : ZiFsTransaction) (capacity : ℕ)
    (cursor : JournalCursor) (image : BlockImage) : DeviceIo JournalCursor := do
  let record := imageRecord transaction cursor.sequence image
  writeJournalRecord volume cursor.recordIndex record
  let sum ← IoM.ofExcept (ziFsJournalExtendTransactionChecksum cursor.checksum record)
  let recordIndex ← IoM.ofExcept (ziFsJournalAdvanceRecord capacity cursor.recordIndex 1)
  pure ⟨recordIndex,cursor.sequence+1,sum⟩

def writeImageRecords (volume : ZiFsVolume) (transaction : ZiFsTransaction) (capacity : ℕ) :
    List BlockImage → JournalCursor → DeviceIo JournalCursor
  | [], cursor => pure cursor
  | image :: images, cursor => do
    let cursor ← writeImageRecord volume transaction capacity cursor image
    writeImageRecords volume transaction capacity images cursor

def writeTransactionSuperblocks (volume : ZiFsVolume) (transaction : ZiFsTransaction)
    (stateFlags : ℕ) : DeviceIo Unit := do
  let superblock := { volume.superblock with
    generation := transaction.targetGeneration
    lastCommittedTransaction := transaction.transactionId
    stateFlags := stateFlags }
  let block ← IoM.ofExcept (ziFsEncodeSuperblock superblock)
  writeSuperblockCopy volume.device superblock.backupSuperblock block
  writeSuperblockCopy volume.device 0 block

def storeJournalHeader (volume : ZiFsVolume) (copyIndex : ℕ) (header : ZiFsJournalHeader) :
    DeviceIo Unit := do
  ziFsStoreJournalHeader volume.device volume.superblock.journalStart copyIndex header
  ziBlockBarrier volume.device

/-! ### Commit -/

def checkCommit (volume : ZiFsVolume) (transaction : ZiFsTransaction) :
    ReadIo (ZiFsJournalHeader × ℕ) := do
  failIf (transactionIsValid transaction = false) .invalidArgument
  failIf (transaction.state ≠ .prepared ∨ transaction.blockImages.length = 0) .invalidState
  failIf (volume.isMounted = false) .invalidState
  failIf (volume.isReadOnly = true ∨ volume.needsRecovery = true ∨
    deviceSupportsZifsWrites volume.device = false) .readOnlyFilesystem
  let (header, headerCopy) ←
    (ziFsLoadJournalHeader volume.device volume.superblock.journalStart).orFail .recoveryRequired
  let expectedCapacity ← (ReadM.ofExcept
    (ziFsJournalRecordCapacity volume.superblock.journalBlocks)).orFail .recoveryRequired
  failIf (header.recordCapacity ≠ expectedCapacity ∨
    header.volumeGeneration ≠ transaction.sourceGeneration ∨
    header.lastCommittedTransaction ≠ volume.superblock.lastCommittedTransaction ∨
    header.lastCheckpointTransaction ≠ header.lastCommittedTransaction ∨
    header.headRecord ≠ header.tailRecord ∨ header.headerSequence = uint64Max ∨
    header.nextTransactionId ≠ transaction.transactionId) .recoveryRequired
  failIf (header.nextSequence > uint64Max-transaction.blockImages.length-3 ∨
    transaction.transactionId = uint64Max) .journalFull
  let (occupied, available) ← (ReadM.ofExcept (ziFsJournalQuerySpace header)).orFail .journalFull
  failIf (occupied ≠ 0 ∨ transaction.blockImages.length+3 > available) .journalFull
  pure (header, headerCopy)

/-- The header stored once the COMMIT record is durable. -/
def committedHeader (header : ZiFsJournalHeader) (transaction : ZiFsTransaction)
    (recordIndex sequence : ℕ) : ZiFsJournalHeader :=
  { header with
    headerSequence := (header.headerSequence+1)%2^64
    volumeGeneration := transaction.targetGeneration
    headRecord := recordIndex
    nextSequence := sequence
    nextTransactionId := transaction.transactionId+1
    lastCommittedTransaction := transaction.transactionId }

def checkpointedHeader (header : ZiFsJournalHeader) (transaction : ZiFsTransaction)
    (recordIndex sequence : ℕ) : ZiFsJournalHeader :=
  { header with
    headerSequence := (header.headerSequence+1)%2^64
    headRecord := recordIndex
    tailRecord := recordIndex
    nextSequence := sequence
    lastCheckpointTransaction := transaction.transactionId }

def writeCommit (volume : ZiFsVolume) (transaction : ZiFsTransaction) (header : ZiFsJournalHeader)
    (headerCopy : ℕ) : DeviceIo Unit := do
  let capacity := header.recordCapacity
  let device := volume.device
  let start := header.headRecord
  let sequence := header.nextSequence
  writeJournalRecord volume start (beginRecord transaction sequence)
  let recordIndex ← IoM.ofExcept (ziFsJournalAdvanceRecord capacity start 1)
  let cursor ← writeImageRecords volume transaction capacity transaction.blockImages
    ⟨recordIndex,sequence+1,0⟩
  let sum := finaliseTransactionChecksum cursor.checksum
  ziBlockBarrier device
  let stableState := transactionStableSuperblockState volume
  writeTransactionSuperblocks volume transaction (stableState ||| stateTransactionDirty)
  writeJournalRecord volume cursor.recordIndex
    (closingRecord transaction recordCommit cursor.sequence sum)
  ziBlockBarrier device
  let recordIndex ← IoM.ofExcept (ziFsJournalAdvanceRecord capacity cursor.recordIndex 1)
  let committed := committedHeader header transaction recordIndex (cursor.sequence+1)
  storeJournalHeader volume ((headerCopy+1)%journalHeaderCopies) committed
  IoM.forEach (fun image => ziBlockWrite device image.1 [image.2]) transaction.blockImages
  ziBlockBarrier device
  writeTransactionSuperblocks volume transaction stableState
  writeJournalRecord volume recordIndex
    (closingRecord transaction recordCheckpoint (cursor.sequence+1) sum)
  ziBlockBarrier device
  let recordIndex ← IoM.ofExcept (ziFsJournalAdvanceRecord capacity recordIndex 1)
  storeJournalHeader volume headerCopy
    (checkpointedHeader committed transaction recordIndex (cursor.sequence+2))

/-- What a transaction call leaves behind. -/
structure TransactionOutcome where
  status : Result Unit
  volume : ZiFsVolume
  transaction : ZiFsTransaction

/-- The volume object after the writes of a commit. -/
def committedVolume (volume : ZiFsVolume) (transaction : ZiFsTransaction) : ZiFsVolume :=
  { volume with
    superblock := { volume.superblock with
      generation := transaction.targetGeneration
      lastCommittedTransaction := transaction.transactionId
      stateFlags := transactionStableSuperblockState volume }
    needsRecovery := false
    journalHeaderValid := true }

def ziFsTransactionCommit (volume : ZiFsVolume) (transaction : ZiFsTransaction) :
    DeviceProg TransactionOutcome := do
  match ← Prog.ofQuery (checkCommit volume transaction).query with
  | .error status => pure ⟨.error status,volume,transaction⟩
  | .ok (header, headerCopy) =>
    match ← (writeCommit volume transaction header headerCopy).prog with
    | .error status =>
      pure ⟨.error status,{ volume with isReadOnly := true, needsRecovery := true },
        { transaction with state := .failed }⟩
    | .ok _ =>
      let volume := committedVolume volume transaction
      let (status, transaction) := ziFsTransactionReset volume transaction
      pure ⟨status,volume,transaction⟩

end Zizium
