import Zizium.Fs.SecurityTable
import Zizium.Fs.Journal

/-!
# Mounting, flushing and unmounting

The life cycle of a volume object in `kernel/fs/zifs/zifs.c`.  A volume with the
clean-unmount feature is marked as mounted in both superblocks while it is writable.
-/

namespace Zizium

open Bytes BlockIO

def mountDeviceContractIsValid (device : ZiBlockDevice) : Bool :=
  !decide (device.structSize < blockDeviceStructSize ∨ device.version ≠ blockDeviceVersion ∨
    device.hasRead = false ∨ device.blockSize ≠ blockSize ∨ device.blockCount < 2 ∨
    (device.flags &&& deviceWriteSupported ≠ 0 ∧ device.hasWrite = false) ∨
    (device.flags &&& deviceWriteSupported = 0 ∧ device.hasWrite = true) ∨
    (device.flags &&& deviceFlushSupported ≠ 0 ∧ device.hasFlush = false) ∨
    (device.flags &&& deviceFlushSupported = 0 ∧ device.hasFlush = true) ∨
    (device.flags &&& deviceReadOnly ≠ 0 ∧ device.flags &&& deviceWriteSupported ≠ 0))

def deviceSupportsZifsWrites (device : ZiBlockDevice) : Bool :=
  decide (device.flags &&& (deviceWriteSupported ||| deviceFlushSupported) =
    deviceWriteSupported ||| deviceFlushSupported)

def readMountSuperblock (device : ZiBlockDevice) (blockNumber : ℕ) : ReadIo ZiFsSuperblock := do
  let block ← device.readBlock blockNumber
  ReadM.ofExcept (ziFsDecodeSuperblock block.mem)

def superblocksHaveSameIdentity (left right : ZiFsSuperblock) : Bool :=
  decide ({ left with
    generation := right.generation
    lastCommittedTransaction := right.lastCommittedTransaction
    stateFlags := right.stateFlags } = right)

def superblocksHaveSameRecoveryState (left right : ZiFsSuperblock) : Bool :=
  decide (left.generation = right.generation ∧ left.stateFlags = right.stateFlags ∧
    left.lastCommittedTransaction = right.lastCommittedTransaction)

structure MountSelection where
  superblock : ZiFsSuperblock
  mountedFromBackup : Bool
  redundancyMismatch : Bool

def selectMountSuperblock (primary backup : Result ZiFsSuperblock) : Result MountSelection :=
  match primary, backup with
  | .error _, .error status => throw status
  | .error _, .ok backup => pure ⟨backup,true,true⟩
  | .ok primary, .error _ => pure ⟨primary,false,true⟩
  | .ok primary, .ok backup => do
    failIf (superblocksHaveSameIdentity primary backup = false) .corruptFilesystem
    let mismatch := !superblocksHaveSameRecoveryState primary backup
    if backup.generation > primary.generation ∨ (backup.generation = primary.generation ∧
        backup.stateFlags = stateNone ∧ primary.stateFlags ≠ stateNone) then
      pure ⟨backup,true,mismatch⟩
    else pure ⟨primary,false,mismatch⟩

def loadJournalState (device : ZiBlockDevice) (sb : ZiFsSuperblock) :
    ReadIo (ℕ × ZiFsJournalHeader × ℕ) := do
  let capacity ← ReadM.ofExcept (ziFsJournalRecordCapacity sb.journalBlocks)
  let header ← ziFsLoadJournalHeader device sb.journalStart
  pure (capacity, header)

def assessJournalMountState (volume : ZiFsVolume) : ReadIo ZiFsVolume := do
  if ¬volume.superblock.UsesJournal then pure volume
  else do
    let state ← (loadJournalState volume.device volume.superblock).attempt
    match state with
    | .error _ => pure { volume with needsRecovery := true }
    | .ok (expectedCapacity, header, _) =>
      if header.recordCapacity ≠ expectedCapacity then
        pure { volume with needsRecovery := true }
      else if header.volumeGeneration ≠ volume.superblock.generation ∨
          header.lastCheckpointTransaction ≠ volume.superblock.lastCommittedTransaction then
        pure { volume with journalHeaderValid := true, needsRecovery := true }
      else pure { volume with journalHeaderValid := true }

def headerIsCheckpointed (header : ZiFsJournalHeader) (sb : ZiFsSuperblock) : Bool :=
  decide (header.volumeGeneration = sb.generation ∧
    header.lastCommittedTransaction = sb.lastCommittedTransaction ∧
    header.lastCheckpointTransaction = header.lastCommittedTransaction ∧
    header.headRecord = header.tailRecord ∧
    header.nextTransactionId = header.lastCommittedTransaction+1)

def journalIsCheckpointed (volume : ZiFsVolume) : ReadIo Bool := do
  failIf (¬volume.superblock.UsesJournal) .invalidArgument
  let (expectedCapacity, header, _) ← loadJournalState volume.device volume.superblock
  pure (decide (header.recordCapacity = expectedCapacity) &&
    headerIsCheckpointed header volume.superblock)

def freezeVolume (volume : ZiFsVolume) : ZiFsVolume :=
  { volume with isReadOnly := true, needsRecovery := true, journalHeaderValid := false }

/-- Write a superblock to one place and wait until it is durable. -/
def writeSuperblockCopy (device : ZiBlockDevice) (blockNumber : ℕ) (block : Block) :
    DeviceIo Unit := do
  ziBlockWrite device blockNumber [block]
  ziBlockBarrier device

def writeVolumeState (volume : ZiFsVolume) (stateFlags : ℕ) : DeviceIo ZiFsVolume := do
  let next := { volume.superblock with stateFlags := stateFlags }
  let block ← IoM.ofExcept (ziFsEncodeSuperblock next)
  writeSuperblockCopy volume.device next.backupSuperblock block
  writeSuperblockCopy volume.device 0 block
  pure { volume with superblock := next }

/-- What a call leaves behind: its status and the volume object. -/
structure VolumeOutcome where
  status : Result Unit
  volume : ZiFsVolume

def examineVolume (device : ZiBlockDevice) : ReadIo ZiFsVolume := do
  failIf (mountDeviceContractIsValid device = false) .invalidArgument
  let primary ← (readMountSuperblock device 0).attempt
  let backup ← (readMountSuperblock device (device.blockCount-1)).attempt
  let selection ← ReadM.ofExcept (selectMountSuperblock primary backup)
  failIf (selection.superblock.totalBlocks ≠ device.blockCount ∨
    selection.superblock.incompatibleFeatures &&& (uint64Max-featuresSupported) ≠ 0 ∨
    ¬selection.superblock.UsesSecurity) .corruptFilesystem
  let volume ← assessJournalMountState
    { device := device
      superblock := selection.superblock
      mountedFromBackup := selection.mountedFromBackup
      isReadOnly := false
      needsRecovery := selection.redundancyMismatch ||
        decide (selection.superblock.stateFlags ≠ stateNone)
      journalHeaderValid := false
      isMounted := false
      securityGeneration := 0
      securityRecordCount := 0 }
  pure { volume with
    isReadOnly := !deviceSupportsZifsWrites device ||
      decide (¬selection.superblock.UsesJournal) || volume.needsRecovery }

def checkRootDirectory (volume : ZiFsVolume) : ReadIo Unit := do
  let root ← (ziFsReadFileRecord volume volume.superblock.rootRecordIndex).orFail
    .corruptFilesystem
  failIf (root.fileType ≠ fileTypeDirectory) .corruptFilesystem

def activateVolume (volume : ZiFsVolume) : DeviceProg VolumeOutcome := do
  let volume := { volume with isMounted := true }
  if volume.isReadOnly = false ∧ volume.superblock.UsesCleanUnmount then
    match ← (writeVolumeState volume stateMounted).prog with
    | .ok volume => pure ⟨.ok (),volume⟩
    | .error status => pure ⟨.error status,{ freezeVolume volume with isMounted := false }⟩
  else pure ⟨.ok (),volume⟩

def ziFsMountVolume (device : ZiBlockDevice) : DeviceProg (Result Unit × Option ZiFsVolume) := do
  match ← Prog.ofQuery (examineVolume device).query with
  | .error status => pure (.error status, none)
  | .ok volume =>
    if volume.superblock.stateFlags ≠ stateNone ∨
        (deviceSupportsZifsWrites device = true ∧ volume.needsRecovery = true) then
      pure (.error .recoveryRequired, some volume)
    else
      match ← Prog.ofQuery (ziFsValidateSecurityState volume).query with
      | .error status => pure (.error status, some volume)
      | .ok (generation, recordCount) =>
        let volume := { volume with
          securityGeneration := generation, securityRecordCount := recordCount }
        match ← Prog.ofQuery (checkRootDirectory volume).query with
        | .error status => pure (.error status, some volume)
        | .ok _ =>
          let outcome ← activateVolume volume
          pure (outcome.status, some outcome.volume)

def ziFsFlushVolume (volume : ZiFsVolume) : DeviceProg VolumeOutcome := do
  if volume.isMounted = false then pure ⟨.error .invalidState,volume⟩
  else if volume.needsRecovery = true then pure ⟨.error .recoveryRequired,volume⟩
  else if volume.isReadOnly = true then
    if volume.superblock.stateFlags = stateNone then pure ⟨.ok (),volume⟩
    else pure ⟨.error .recoveryRequired,volume⟩
  else
    let expectedState := if volume.superblock.UsesCleanUnmount then stateMounted else stateNone
    match ← Prog.ofQuery (journalIsCheckpointed volume).query with
    | .error status => pure ⟨.error status,freezeVolume volume⟩
    | .ok checkpointed =>
      if volume.superblock.stateFlags ≠ expectedState ∨ checkpointed = false then
        pure ⟨.error .recoveryRequired,freezeVolume volume⟩
      else
        match ← (ziBlockBarrier volume.device).prog with
        | .error status => pure ⟨.error status,freezeVolume volume⟩
        | .ok _ => pure ⟨.ok (),volume⟩

def ziFsUnmountVolume (volume : ZiFsVolume) : DeviceProg VolumeOutcome := do
  if volume.isMounted = false then pure ⟨.error .invalidState,volume⟩
  else
    let flushed ← ziFsFlushVolume volume
    let volume := flushed.volume
    match flushed.status with
    | .error status => pure ⟨.error status,{ volume with isMounted := false }⟩
    | .ok _ =>
      if volume.isReadOnly = false ∧ volume.superblock.UsesCleanUnmount then
        match ← (writeVolumeState volume stateNone).prog with
        | .error status => pure ⟨.error status,{ freezeVolume volume with isMounted := false }⟩
        | .ok volume => pure ⟨.ok (),{ volume with isMounted := false, isReadOnly := true }⟩
      else pure ⟨.ok (),{ volume with isMounted := false, isReadOnly := true }⟩

end Zizium
