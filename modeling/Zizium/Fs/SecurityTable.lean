import Zizium.Security
import Zizium.Fs.Volume

/-!
# The security table

Descriptor records of `kernel/fs/zifs/security.c`: decoding, validation of the table and
of the references to it at mount, and access checks by security ID.
-/

namespace Zizium

open Bytes BlockIO

abbrev securityRecordSize : ℕ := 256
abbrev securityTableHeaderSize : ℕ := 256
abbrev securityAceSize : ℕ := 16
abbrev securityMaximumAces : ℕ := 12
abbrev securityMaximumRecords : ℕ := 255
abbrev securityFlagDaclPresent : ℕ := 1

structure ZiFsSecurityTableHeader where
  generation : ℕ
  tableBlockCount : ℕ
  recordCount : ℕ
  recordCapacity : ℕ
  usedBytes : ℕ
  flags : ℕ
  deriving DecidableEq, Repr

structure ZiFsSecurityDescriptorStorage where
  securityId : ℕ
  flags : ℕ
  descriptor : ZiSecurityDescriptor
  deriving DecidableEq, Repr

def securityTableMagic : List UInt8 := [0x5a,0x49,0x53,0x44]
def securityRecordMagic : List UInt8 := [0x5a,0x49,0x53,0x45]

def bytesAreZero (data : Mem) (offset size : ℕ) : Bool := (data.slice offset size).all (· = 0)

def securityTableSizeIsValid (tableSize : ℕ) : Bool :=
  decide (tableSize ≥ blockSize ∧ tableSize ≤ maximumSecurityTableBlocks*blockSize ∧
    tableSize%blockSize = 0)

def securityTableCapacity (tableSize : ℕ) : ℕ :=
  (tableSize-securityTableHeaderSize)/securityRecordSize

def decodeSecurityTableHeader (data : Mem) (tableSize : ℕ) : Result ZiFsSecurityTableHeader := do
  failIf (securityTableSizeIsValid tableSize = false) .invalidArgument
  let expectedBlocks := tableSize/blockSize
  let expectedCapacity := securityTableCapacity tableSize
  failIf (data.slice 0 4 ≠ securityTableMagic ∨ ziReadU16Le data 4 ≠ 1 ∨
    ziReadU16Le data 6 ≠ securityTableHeaderSize ∨ ziReadU16Le data 8 ≠ securityRecordSize ∨
    ziReadU16Le data 10 ≠ securityAceSize ∨ ziReadU32Le data 12 ≠ expectedBlocks ∨
    ziReadU32Le data 20 ≠ expectedCapacity ∨ bytesAreZero data 48 204 = false) .corruptFilesystem
  let header : ZiFsSecurityTableHeader :=
    { generation := ziReadU64Le data 24
      tableBlockCount := expectedBlocks
      recordCount := ziReadU32Le data 16
      recordCapacity := expectedCapacity
      usedBytes := ziReadU64Le data 32
      flags := ziReadU64Le data 40 }
  failIf (header.generation = 0 ∨ header.recordCount > header.recordCapacity ∨
    header.usedBytes ≠ securityTableHeaderSize+header.recordCount*securityRecordSize ∨
    header.flags ≠ 0) .corruptFilesystem
  pure header

def readSecurityAce (data : Mem) (offset : ℕ) : ZiAce where
  type := data.readLe 1 offset
  inheritanceFlags := data.readLe 1 (offset+1)
  reserved := ziReadU16Le data (offset+2)
  accessMask := ziReadU32Le data (offset+4)
  trustee := ⟨ziReadU32Le data (offset+8),ziReadU32Le data (offset+12)⟩

/-- The descriptor stored in a record, before it is validated. -/
def securityDescriptorOfBytes (data : Mem) : ZiSecurityDescriptor where
  structSize := descriptorStructSize
  version := 1
  owner := ⟨ziReadU32Le data 24,ziReadU32Le data 28⟩
  primaryGroup := ⟨ziReadU32Le data 32,ziReadU32Le data 36⟩
  dacl :=
    if ziReadU32Le data 16 &&& securityFlagDaclPresent ≠ 0 then
      some
        { structSize := aclStructSize
          version := 1
          entries := (List.range (ziReadU16Le data 40)).map fun index =>
            readSecurityAce data (48+index*securityAceSize) }
    else none
  controlFlags := ziReadU32Le data 20

/-- The entry loop of the decoder: used entries are valid and unused ones are zero. -/
def securityAcesAreValid (data : Mem) (aceCount : ℕ) : Bool :=
  (List.range securityMaximumAces).all fun index =>
    let offset := 48+index*securityAceSize
    if index ≥ aceCount then bytesAreZero data offset securityAceSize
    else validateSecurityAce (readSecurityAce data offset)

def ziFsDecodeSecurityDescriptor (data : Mem) : Result ZiFsSecurityDescriptorStorage := do
  failIf (data.slice 0 4 ≠ securityRecordMagic ∨ ziReadU16Le data 4 ≠ 1 ∨
    ziReadU16Le data 6 ≠ securityRecordSize) .corruptFilesystem
  failIf (ziReadU32Le data 252 ≠ checksum data 252) .checksumMismatch
  let securityId := ziReadU64Le data 8
  let flags := ziReadU32Le data 16
  let aceCount := ziReadU16Le data 40
  failIf (securityId = 0 ∨ flags &&& (uint32Max-securityFlagDaclPresent) ≠ 0 ∨
    ziReadU16Le data 42 ≠ securityAceSize ∨ aceCount > securityMaximumAces ∨
    bytesAreZero data 44 4 = false ∨ bytesAreZero data 240 12 = false) .corruptFilesystem
  failIf (flags &&& securityFlagDaclPresent = 0 ∧ aceCount ≠ 0) .corruptFilesystem
  failIf (securityAcesAreValid data aceCount = false) .corruptFilesystem
  let descriptor := securityDescriptorOfBytes data
  failIf (ziSecurityDescriptorValidate descriptor = false) .corruptFilesystem
  pure ⟨securityId,flags,descriptor⟩

/-- The checksum of the table on the device, with its own field taken as zero. -/
def calculateDeviceTableChecksum (volume : ZiFsVolume) : ReadIo UInt32 :=
  ReadM.loop (fun index sum => do
    let block ← volume.device.readBlock (volume.superblock.securityTableStart+index)
    let bytes := block.mem
    if index = 0 then
      let sum := ziCrc32c sum (bytes.slice 0 252)
      let sum := ziCrc32c sum [0,0,0,0]
      pure (ziCrc32c sum (bytes.slice 256 3840))
    else pure (ziCrc32c sum (bytes.slice 0 4096)))
    volume.superblock.securityTableBlocks 0 0

/-- What the walk over the descriptor records has seen so far. -/
structure SecurityScan where
  recordIndex : ℕ
  previousId : ℕ
  securityIds : List ℕ

def scanSecuritySlots (data : Mem) (recordCount : ℕ) :
    (slots offset : ℕ) → SecurityScan → Result SecurityScan
  | 0, _, scan => pure scan
  | slots+1, offset, scan => do
    if scan.recordIndex < recordCount then do
      let storage ← ziFsDecodeSecurityDescriptor (data.shift offset)
      failIf (storage.securityId ≤ scan.previousId) .corruptFilesystem
      scanSecuritySlots data recordCount slots (offset+securityRecordSize)
        ⟨scan.recordIndex+1,storage.securityId,scan.securityIds ++ [storage.securityId]⟩
    else do
      failIf (bytesAreZero data offset securityRecordSize = false) .corruptFilesystem
      scanSecuritySlots data recordCount slots (offset+securityRecordSize)
        { scan with recordIndex := scan.recordIndex+1 }

def validateDeviceSecurityRecords (volume : ZiFsVolume) (header : ZiFsSecurityTableHeader) :
    ReadIo (List ℕ) := do
  let scan ← ReadM.loop (fun tableBlock scan => do
    let block ← volume.device.readBlock (volume.superblock.securityTableStart+tableBlock)
    ReadM.ofExcept (if tableBlock = 0
      then scanSecuritySlots block.mem header.recordCount 15 securityTableHeaderSize scan
      else scanSecuritySlots block.mem header.recordCount 16 0 scan))
    volume.superblock.securityTableBlocks 0 ⟨0,0,[]⟩
  failIf (scan.recordIndex ≠ header.recordCapacity) .corruptFilesystem
  pure scan.securityIds

/-- The binary search of `security_id_is_present`; the interval shrinks in every round. -/
def securityIdSearch (ids : List ℕ) (id : ℕ) : (rounds first last : ℕ) → Bool
  | 0, _, _ => false
  | rounds+1, first, last =>
    if first < last then
      let middle := first+(last-first)/2
      if ids.getD middle 0 = id then true
      else if ids.getD middle 0 < id then securityIdSearch ids id rounds (middle+1) last
      else securityIdSearch ids id rounds first middle
    else false

def securityIdIsPresent (ids : List ℕ) (id : ℕ) : Bool :=
  securityIdSearch ids id ids.length 0 ids.length

def checkRecordSlot (volume : ZiFsVolume) (ids : List ℕ) (data : Mem) : Result Unit := do
  if bytesAreZero data 0 fileRecordSize then pure ()
  else do
    let record ← ziFsDecodeFileRecord data
    failIf (ziFailed (ziFsValidateFileRecord volume.superblock record) ∨
      securityIdIsPresent ids record.securityId = false) .corruptFilesystem

def validateFileSecurityReferences (volume : ZiFsVolume) (ids : List ℕ) : ReadIo Unit :=
  ReadM.loop (fun index _ => do
    let block ← volume.device.readBlock (volume.superblock.recordTableStart+index)
    ReadM.loop (fun slot _ =>
      ReadM.ofExcept (checkRecordSlot volume ids (block.mem.shift (slot*fileRecordSize))))
      recordsPerBlock 0 ())
    volume.superblock.recordTableBlocks 0 ()

def ziFsValidateSecurityState (volume : ZiFsVolume) : ReadIo (ℕ × ℕ) := do
  let sb := volume.superblock
  failIf (¬sb.UsesSecurity ∨ sb.securityTableBlocks = 0 ∨
    sb.securityTableBlocks > maximumSecurityTableBlocks) .corruptFilesystem
  let block ← volume.device.readBlock sb.securityTableStart
  let header ← ReadM.ofExcept
    (decodeSecurityTableHeader block.mem (sb.securityTableBlocks*blockSize))
  failIf (header.recordCount = 0) .corruptFilesystem
  let calculated ← calculateDeviceTableChecksum volume
  failIf (ziReadU32Le block.mem 252 ≠ calculated.toNat) .checksumMismatch
  let ids ← validateDeviceSecurityRecords volume header
  validateFileSecurityReferences volume ids
  pure (header.generation, header.recordCount)

def readSecurityRecord (volume : ZiFsVolume) (recordIndex : ℕ) :
    ReadIo ZiFsSecurityDescriptorStorage := do
  let byteOffset := securityTableHeaderSize+recordIndex*securityRecordSize
  let tableBlock := byteOffset/blockSize
  let blockOffset := byteOffset%blockSize
  failIf (tableBlock ≥ volume.superblock.securityTableBlocks ∨
    blockOffset > blockSize-securityRecordSize) .corruptFilesystem
  let block ← volume.device.readBlock (volume.superblock.securityTableStart+tableBlock)
  ReadM.ofExcept (ziFsDecodeSecurityDescriptor (block.mem.shift blockOffset))

def loadSecurityDescriptorLoop (volume : ZiFsVolume) (securityId : ℕ) :
    (left index : ℕ) → ReadIo ZiFsSecurityDescriptorStorage
  | 0, _ => throw .notFound
  | left+1, index => do
    let storage ← readSecurityRecord volume index
    if storage.securityId = securityId then pure storage
    else if storage.securityId > securityId then throw .notFound
    else loadSecurityDescriptorLoop volume securityId left (index+1)

def ziFsLoadSecurityDescriptor (volume : ZiFsVolume) (securityId : ℕ) :
    ReadIo ZiFsSecurityDescriptorStorage := do
  failIf (securityId = 0 ∨ volume.securityRecordCount = 0 ∨
    volume.securityRecordCount > securityMaximumRecords) .invalidArgument
  loadSecurityDescriptorLoop volume securityId volume.securityRecordCount 0

def ziFsCheckSecurityAccess (volume : ZiFsVolume) (securityId : ℕ) (token : ZiAccessToken)
    (requestedAccess : ℕ) : ReadIo ℕ := do
  let storage ← ziFsLoadSecurityDescriptor volume securityId
  ReadM.ofExcept (ziSecurityAccessCheck storage.descriptor token requestedAccess)

/-! ### Writing descriptors -/

def writeSecurityAce (bytes : Mem) (offset : ℕ) (entry : ZiAce) : Mem :=
  let bytes := ziWriteU8 bytes offset entry.type
  let bytes := ziWriteU8 bytes (offset+1) entry.inheritanceFlags
  let bytes := ziWriteU16Le bytes (offset+2) entry.reserved
  let bytes := ziWriteU32Le bytes (offset+4) entry.accessMask
  let bytes := ziWriteU32Le bytes (offset+8) entry.trustee.authority
  ziWriteU32Le bytes (offset+12) entry.trustee.value

def writeSecurityAces (bytes : Mem) : (index : ℕ) → List ZiAce → Mem
  | _, [] => bytes
  | index, entry :: entries =>
    writeSecurityAces (writeSecurityAce bytes (48+index*securityAceSize) entry) (index+1)
      entries

def ZiSecurityDescriptor.entries (descriptor : ZiSecurityDescriptor) : List ZiAce :=
  match descriptor.dacl with
  | none => []
  | some dacl => dacl.entries

def securityRecordHead (securityId flags : ℕ) (descriptor : ZiSecurityDescriptor) : Mem :=
  let bytes := Mem.zero.put 0 securityRecordMagic
  let bytes := ziWriteU16Le bytes 4 1
  let bytes := ziWriteU16Le bytes 6 securityRecordSize
  let bytes := ziWriteU64Le bytes 8 securityId
  let bytes := ziWriteU32Le bytes 16 flags
  let bytes := ziWriteU32Le bytes 20 descriptor.controlFlags
  let bytes := ziWriteU32Le bytes 24 descriptor.owner.authority
  let bytes := ziWriteU32Le bytes 28 descriptor.owner.value
  let bytes := ziWriteU32Le bytes 32 descriptor.primaryGroup.authority
  let bytes := ziWriteU32Le bytes 36 descriptor.primaryGroup.value
  let bytes := ziWriteU16Le bytes 40 descriptor.entries.length
  ziWriteU16Le bytes 42 securityAceSize

def securityRecordBytes (securityId flags : ℕ) (descriptor : ZiSecurityDescriptor) : List UInt8 :=
  let bytes := writeSecurityAces (securityRecordHead securityId flags descriptor) 0
    descriptor.entries
  (ziWriteU32Le bytes 252 (checksum bytes 252)).slice 0 securityRecordSize

def encodeSecurityDescriptorRecord (securityId flags : ℕ) (descriptor : ZiSecurityDescriptor) :
    Result (List UInt8) := do
  failIf (securityId = 0 ∨ flags &&& (uint32Max-securityFlagDaclPresent) ≠ 0 ∨
    ziSecurityDescriptorValidate descriptor = false) .invalidArgument
  let flagsHaveDacl := flags &&& securityFlagDaclPresent ≠ 0
  failIf ((descriptor.dacl.isSome ∧ ¬flagsHaveDacl) ∨ (¬descriptor.dacl.isSome ∧ flagsHaveDacl) ∨
    (descriptor.dacl.isSome ∧ descriptor.entries.length > securityMaximumAces)) .invalidArgument
  pure (securityRecordBytes securityId flags descriptor)

def calculateSecurityTableChecksum (table : Mem) (tableSize : ℕ) : UInt32 :=
  let sum := ziCrc32c 0 (table.slice 0 252)
  let sum := ziCrc32c sum [0,0,0,0]
  ziCrc32c sum (table.slice 256 (tableSize-256))

def updateSecurityTableChecksum (table : Mem) (tableSize : ℕ) : Mem :=
  let table := ziWriteU32Le table 252 0
  ziWriteU32Le table 252 (calculateSecurityTableChecksum table tableSize).toNat

/-- What `ZiFsInitialiseSecurityTable` writes in front of the checksum. -/
def emptySecurityTable (tableSize generation : ℕ) : Mem :=
  let bytes := Mem.zero.put 0 securityTableMagic
  let bytes := ziWriteU16Le bytes 4 1
  let bytes := ziWriteU16Le bytes 6 securityTableHeaderSize
  let bytes := ziWriteU16Le bytes 8 securityRecordSize
  let bytes := ziWriteU16Le bytes 10 securityAceSize
  let bytes := ziWriteU32Le bytes 12 (tableSize/blockSize)
  let bytes := ziWriteU32Le bytes 16 0
  let bytes := ziWriteU32Le bytes 20 (securityTableCapacity tableSize)
  let bytes := ziWriteU64Le bytes 24 generation
  let bytes := ziWriteU64Le bytes 32 securityTableHeaderSize
  ziWriteU64Le bytes 40 0

/-- The records of an in-memory table: decodable, with increasing IDs. -/
def validateSecurityTableRecords (table : Mem) : (left index previousId : ℕ) → Result Unit
  | 0, _, _ => pure ()
  | left+1, index, previousId => do
    let storage ← ziFsDecodeSecurityDescriptor
      (table.shift (securityTableHeaderSize+index*securityRecordSize))
    failIf (storage.securityId ≤ previousId) .corruptFilesystem
    validateSecurityTableRecords table left (index+1) storage.securityId

def ziFsValidateSecurityTable (table : Mem) (tableSize : ℕ) : Result ZiFsSecurityTableHeader := do
  let header ← decodeSecurityTableHeader table tableSize
  failIf (ziReadU32Le table 252 ≠ (calculateSecurityTableChecksum table tableSize).toNat)
    .checksumMismatch
  validateSecurityTableRecords table header.recordCount 0 0
  failIf (bytesAreZero table header.usedBytes (tableSize-header.usedBytes) = false)
    .corruptFilesystem
  pure header

def ziFsAppendSecurityDescriptor (table : Mem) (tableSize securityId flags : ℕ)
    (descriptor : ZiSecurityDescriptor) : Result Mem := do
  failIf (securityId = 0) .invalidArgument
  let header ← ziFsValidateSecurityTable table tableSize
  failIf (header.recordCount ≥ header.recordCapacity) .bufferTooSmall
  let previousOffset := securityTableHeaderSize+(header.recordCount-1)*securityRecordSize
  let previousId := ziReadU64Le table (previousOffset+8)
  failIf (header.recordCount ≠ 0 ∧ securityId = previousId) .alreadyExists
  failIf (header.recordCount ≠ 0 ∧ securityId < previousId) .invalidArgument
  let recordOffset := securityTableHeaderSize+header.recordCount*securityRecordSize
  let record ← encodeSecurityDescriptorRecord securityId flags descriptor
  let table := table.put recordOffset record
  let table := ziWriteU32Le table 16 (header.recordCount+1)
  let table := ziWriteU64Le table 32
    (securityTableHeaderSize+(header.recordCount+1)*securityRecordSize)
  pure (updateSecurityTableChecksum table tableSize)

end Zizium
