import Zizium.Fs.Device

/-!
# The partition table

The reader of `kernel/io/storage/gpt.c` and the partition devices of `kernel/io/storage/block.c`.
A device answers every read of a block in the same way.
-/

namespace Zizium

open Bytes BlockIO Except List

/-- A device with what its driver answers to a read: a status or the bytes of the block. -/
structure BlockMedia extends ZiBlockDevice where
  status : ℕ → Result Unit
  data : Mem

def BlockMedia.readBlock (disk : BlockMedia) (lba : ℕ) : Result Mem := do
  disk.status lba
  pure (disk.data.shift (lba*disk.blockSize))

/-- One bit of the reflected CRC-32 division. -/
def crc32Bit (crc : UInt32) : UInt32 :=
  (crc >>> 1) ^^^ (0xedb88320 &&& (0-(crc &&& 1)))

def ziCrc32 (seed : UInt32) (data : List UInt8) : UInt32 :=
  ~~~(data.foldl (fun crc byte => Nat.repeat crc32Bit 8 (crc ^^^ byte.toUInt32)) (~~~seed))

theorem ziCrc32_append (seed : UInt32) (a b : List UInt8) :
    ziCrc32 (ziCrc32 seed a) b = ziCrc32 seed (a ++ b) := by
  simp [ziCrc32,foldl_append]

/-- The bytes of a globally unique identifier. -/
abbrev ZiGuid := List UInt8

def zeroGuid : ZiGuid := replicate 16 0

structure ZiGptHeaderData where
  diskGuid : ZiGuid
  currentLba : ℕ
  backupLba : ℕ
  firstUsableLba : ℕ
  lastUsableLba : ℕ
  entryLba : ℕ
  entryCount : ℕ
  entrySize : ℕ
  entriesCrc : ℕ

structure ZiGptPartition where
  typeGuid : ZiGuid
  uniqueGuid : ZiGuid
  firstLba : ℕ
  lastLba : ℕ
  attributes : ℕ
  name : List ℕ
  deriving DecidableEq

structure ZiGptTable where
  diskGuid : ZiGuid
  currentLba : ℕ
  backupLba : ℕ
  firstUsableLba : ℕ
  lastUsableLba : ℕ
  partitions : List ZiGptPartition
  mountedFromBackup : Bool
  deriving DecidableEq

abbrev gptMinimumEntrySize : ℕ := 128
abbrev gptMaximumEntrySize : ℕ := 4096
abbrev gptMaximumEntryCount : ℕ := 4096
abbrev gptPartitionNameUnits : ℕ := 36

/-- The text `EFI PART`. -/
def gptSignature : List UInt8 := [0x45,0x46,0x49,0x20,0x50,0x41,0x52,0x54]

def validateProtectiveMbr (disk : BlockMedia) : Result Unit := do
  let bytes ← disk.readBlock 0
  failIf (bytes 510 ≠ 0x55 ∨ bytes 511 ≠ 0xaa) .invalidState
  failIf (∀ index ∈ range 4, ¬(bytes (446+index*16+4) = 0xee ∧
    ziReadU32Le bytes (446+index*16+8) = 1)) .invalidState

/-- The number of blocks that the entry array takes up. -/
def entryBlocks (disk : BlockMedia) (header : ZiGptHeaderData) : ℕ :=
  (header.entryCount*header.entrySize+disk.blockSize-1)/disk.blockSize

def decodeHeader (disk : BlockMedia) (expectedLba : ℕ) (bytes : Mem) :
    Result ZiGptHeaderData := do
  failIf (bytes.slice 0 8 ≠ gptSignature) .invalidState
  let headerSize := ziReadU32Le bytes 12
  failIf (ziReadU32Le bytes 8 < 0x10000 ∨ headerSize < 92 ∨ headerSize > disk.blockSize ∨
    ziReadU32Le bytes 20 ≠ 0) .invalidState
  -- The checksum is that of the header with a zero in its place.
  failIf (ziReadU32Le bytes 16 ≠
    (ziCrc32 0 ((ziWriteU32Le bytes 16 0).slice 0 headerSize)).toNat) .checksumMismatch
  let header : ZiGptHeaderData := {
    currentLba := ziReadU64Le bytes 24
    backupLba := ziReadU64Le bytes 32
    firstUsableLba := ziReadU64Le bytes 40
    lastUsableLba := ziReadU64Le bytes 48
    diskGuid := bytes.slice 56 16
    entryLba := ziReadU64Le bytes 72
    entryCount := ziReadU32Le bytes 80
    entrySize := ziReadU32Le bytes 84
    entriesCrc := ziReadU32Le bytes 88 }
  failIf (header.currentLba ≠ expectedLba ∨ header.backupLba ≥ disk.blockCount ∨
    header.backupLba = header.currentLba ∨ header.firstUsableLba > header.lastUsableLba ∨
    header.lastUsableLba ≥ disk.blockCount ∨ header.entryCount = 0 ∨
    header.entryCount > gptMaximumEntryCount ∨ header.entrySize < gptMinimumEntrySize ∨
    header.entrySize > gptMaximumEntrySize ∨ header.entrySize &&& (header.entrySize-1) ≠ 0 ∨
    header.diskGuid = zeroGuid) .invalidState
  let blocks := entryBlocks disk header
  failIf (header.entryLba ≥ disk.blockCount ∨ blocks = 0 ∨
    blocks > disk.blockCount-header.entryLba ∨
    ¬(header.entryLba+blocks-1 < header.firstUsableLba ∨
      header.entryLba > header.lastUsableLba)) .outOfBounds
  pure header

/-- The loop of `validate_entries_crc`; each round consumes a byte or more. -/
def entriesCrcLoop (disk : BlockMedia) (entryLba totalBytes : ℕ) :
    ℕ → ℕ → UInt32 → Result UInt32
  | 0, _, crc => pure crc
  | rounds+1, consumed, crc =>
    if consumed < totalBytes then do
      let bytes ← disk.readBlock ((entryLba+consumed/disk.blockSize)%2^64)
      let chunk := min (totalBytes-consumed) disk.blockSize
      entriesCrcLoop disk entryLba totalBytes rounds (consumed+chunk)
        (ziCrc32 crc (bytes.slice 0 chunk))
    else pure crc

def validateEntriesCrc (disk : BlockMedia) (header : ZiGptHeaderData) : Result Unit := do
  let totalBytes := header.entryCount*header.entrySize
  let crc ← entriesCrcLoop disk header.entryLba totalBytes totalBytes 0 0
  failIf (crc.toNat ≠ header.entriesCrc) .checksumMismatch

/-- The loop of `read_bytes`; each round copies a byte or more. -/
def readBytesLoop (disk : BlockMedia) : ℕ → ℕ → ℕ → Result (List UInt8)
  | 0, _, _ => pure []
  | rounds+1, current, size =>
    if size = 0 then pure []
    else do
      let lba := current/disk.blockSize
      let inBlock := current%disk.blockSize
      failIf (lba ≥ disk.blockCount) .outOfBounds
      let bytes ← disk.readBlock lba
      let chunk := min (disk.blockSize-inBlock) size
      let rest ← readBytesLoop disk rounds (current+chunk) (size-chunk)
      pure (bytes.slice inBlock chunk ++ rest)

def readBytes (disk : BlockMedia) (byteOffset size : ℕ) : Result (List UInt8) := do
  failIf (size = 0 ∨ byteOffset > uint64Max-size) .invalidArgument
  readBytesLoop disk size byteOffset size

def partitionOverlaps (left right : ZiGptPartition) : Bool :=
  decide (left.firstLba ≤ right.lastLba ∧ right.firstLba ≤ left.lastLba)

/-- The partition that the first bytes of an entry describe. -/
def decodePartition (encoded : List UInt8) : ZiGptPartition :=
  let bytes : Mem := fun i => encoded.getD i 0
  { typeGuid := bytes.slice 0 16
    uniqueGuid := bytes.slice 16 16
    firstLba := ziReadU64Le bytes 32
    lastLba := ziReadU64Le bytes 40
    attributes := ziReadU64Le bytes 48
    name := (range gptPartitionNameUnits).map fun unit => ziReadU16Le bytes (56+unit*2) }

/-- A round of the loop of `decode_partitions`. -/
def decodeEntry (disk : BlockMedia) (header : ZiGptHeaderData) (capacity : ℕ)
    (partitions : List ZiGptPartition) (index : ℕ) : Result (List ZiGptPartition) := do
  let entryOffset := (header.entryLba*disk.blockSize+index*header.entrySize)%2^64
  let encoded ← readBytes disk entryOffset gptMinimumEntrySize
  if encoded.take 16 = zeroGuid then pure partitions
  else do
    failIf (partitions.length ≥ capacity) .bufferTooSmall
    let partition := decodePartition encoded
    failIf (partition.uniqueGuid = zeroGuid ∨ partition.firstLba < header.firstUsableLba ∨
      partition.firstLba > partition.lastLba ∨ partition.lastLba > header.lastUsableLba)
      .invalidState
    partitions.forM fun prior => do
      failIf (partitionOverlaps partition prior = true) .addressConflict
      failIf (partition.uniqueGuid = prior.uniqueGuid) .alreadyExists
    pure (partitions ++ [partition])

def decodePartitions (disk : BlockMedia) (header : ZiGptHeaderData) (capacity : ℕ) :
    Result (List ZiGptPartition) :=
  (range header.entryCount).foldlM (decodeEntry disk header capacity) []

/-- The first half of `read_table_at`. -/
def readHeaderAt (disk : BlockMedia) (headerLba : ℕ) : Result ZiGptHeaderData := do
  let bytes ← disk.readBlock headerLba
  decodeHeader disk headerLba bytes

def ZiGptHeaderData.table (header : ZiGptHeaderData) (partitions : List ZiGptPartition)
    (mountedFromBackup : Bool) : ZiGptTable :=
  ⟨header.diskGuid,header.currentLba,header.backupLba,header.firstUsableLba,header.lastUsableLba,
    partitions,mountedFromBackup⟩

def readTableAt (disk : BlockMedia) (headerLba capacity : ℕ) : Result ZiGptTable := do
  let header ← readHeaderAt disk headerLba
  validateEntriesCrc disk header
  let partitions ← decodePartitions disk header capacity
  pure (header.table partitions false)

def ziGptRead (disk : BlockMedia) (blockBufferSize capacity : ℕ) : Result ZiGptTable := do
  failIf (disk.structSize < blockDeviceStructSize ∨ disk.version ≠ blockDeviceVersion ∨
    disk.hasRead = false ∨ disk.blockSize < 512 ∨ disk.blockSize > 4096 ∨
    disk.blockSize &&& (disk.blockSize-1) ≠ 0 ∨ disk.blockCount < 3 ∨
    blockBufferSize < disk.blockSize ∨ capacity = 0) .invalidArgument
  validateProtectiveMbr disk
  match readTableAt disk 1 capacity with
  | .ok table => pure table
  | .error _ => do
    let table ← readTableAt disk (disk.blockCount-1) capacity
    pure { table with mountedFromBackup := true }

/-! ## Partition devices -/

structure ZiPartitionBlockContext where
  parent : ZiBlockDevice
  firstParentBlock : ℕ
  parentBlockCount : ℕ
  parentBlocksPerBlock : ℕ

def ziPartitionBlockInitialise (parent : ZiBlockDevice)
    (firstParentBlock parentBlockCount exposedBlockSize : ℕ) : Result ZiPartitionBlockContext := do
  failIf (parent.structSize < blockDeviceStructSize ∨ parent.version ≠ blockDeviceVersion ∨
    parent.hasRead = false ∨ parent.blockSize = 0 ∨ parent.blockCount = 0 ∨
    decide (parent.flags &&& deviceFlushSupported ≠ 0) ≠ parent.hasFlush ∨
    decide (parent.flags &&& deviceWriteSupported ≠ 0) ≠ parent.hasWrite ∨
    (parent.flags &&& deviceReadOnly ≠ 0 ∧ parent.flags &&& deviceWriteSupported ≠ 0) ∨
    exposedBlockSize < parent.blockSize ∨ exposedBlockSize%parent.blockSize ≠ 0 ∨
    firstParentBlock ≥ parent.blockCount ∨ parentBlockCount = 0 ∨
    parentBlockCount > parent.blockCount-firstParentBlock) .invalidArgument
  let ratio := exposedBlockSize/parent.blockSize
  failIf (parentBlockCount%ratio ≠ 0) .alignmentError
  pure ⟨parent,firstParentBlock,parentBlockCount,ratio⟩

def translatePartitionRange (partition : ZiPartitionBlockContext) (firstBlock blockCount : ℕ) :
    Result (ℕ × ℕ) := do
  failIf (partition.parentBlocksPerBlock = 0 ∨ blockCount = 0 ∨
    firstBlock > uint64Max/partition.parentBlocksPerBlock ∨
    blockCount > uint32Max/partition.parentBlocksPerBlock) .invalidState
  let parentOffset := firstBlock*partition.parentBlocksPerBlock
  let parentCount := blockCount*partition.parentBlocksPerBlock
  failIf (parentOffset ≥ partition.parentBlockCount ∨
    parentCount > partition.parentBlockCount-parentOffset ∨
    partition.firstParentBlock > uint64Max-parentOffset) .outOfBounds
  pure (partition.firstParentBlock+parentOffset, parentCount)

/-- The checks of `zi_block_write`, and the blocks that it calls the driver for. -/
def blockWriteRange (device : ZiBlockDevice) (firstBlock blockCount inputSize : ℕ) :
    Result (ℕ × ℕ) := do
  failIf (device.structSize < blockDeviceStructSize ∨ device.version ≠ blockDeviceVersion ∨
    blockCount = 0 ∨ device.blockSize = 0 ∨ device.blockCount = 0) .invalidArgument
  failIf (device.flags &&& deviceReadOnly ≠ 0) .readOnlyFilesystem
  failIf (device.hasWrite = false ∨ device.flags &&& deviceWriteSupported = 0) .notImplemented
  failIf (firstBlock ≥ device.blockCount ∨ blockCount > device.blockCount-firstBlock ∨
    blockCount > uint64Max/device.blockSize ∨
    inputSize ≠ blockCount*device.blockSize) .outOfBounds
  pure (firstBlock, blockCount)

def partitionWrite (partition : ZiPartitionBlockContext) (firstBlock blockCount inputSize : ℕ) :
    Result (ℕ × ℕ) := do
  failIf (blockCount = 0) .invalidArgument
  let (parentFirstBlock, parentBlockCount) ←
    translatePartitionRange partition firstBlock blockCount
  blockWriteRange partition.parent parentFirstBlock parentBlockCount inputSize

/-! ## What a table says -/

structure PartitionsSound (header : ZiGptHeaderData) (partitions : List ZiGptPartition) : Prop where
  usable : ∀ p ∈ partitions, header.firstUsableLba ≤ p.firstLba ∧ p.firstLba ≤ p.lastLba ∧
    p.lastLba ≤ header.lastUsableLba
  named : ∀ p ∈ partitions, p.uniqueGuid ≠ zeroGuid
  disjoint : partitions.Pairwise fun p q => p.lastLba < q.firstLba ∨ q.lastLba < p.firstLba
  distinct : (partitions.map ZiGptPartition.uniqueGuid).Nodup

def entryArray (disk : BlockMedia) (header : ZiGptHeaderData) : List UInt8 :=
  disk.data.slice (header.entryLba*disk.blockSize) (header.entryCount*header.entrySize)

/-- The partition of an entry of the array; an entry without a type is empty. -/
def entryPartition (array : List UInt8) (entrySize index : ℕ) : Option ZiGptPartition :=
  let encoded := (array.drop (index*entrySize)).take gptMinimumEntrySize
  if encoded.take 16 = zeroGuid then none else some (decodePartition encoded)

/-- The same for the bytes that an entry starts with on the disk. -/
def storedPartition (disk : BlockMedia) (header : ZiGptHeaderData) (index : ℕ) :
    Option ZiGptPartition :=
  let encoded := disk.data.slice ((header.entryLba*disk.blockSize+index*header.entrySize)%2^64)
    gptMinimumEntrySize
  if encoded.take 16 = zeroGuid then none else some (decodePartition encoded)

def arrayPartitions (disk : BlockMedia) (header : ZiGptHeaderData) : List ZiGptPartition :=
  (range header.entryCount).filterMap (entryPartition (entryArray disk header) header.entrySize)

/-- The copy that was used: the second one only when the first one is rejected. -/
def ZiGptTable.ReadFrom (table : ZiGptTable) (disk : BlockMedia) (capacity lba : ℕ) : Prop :=
  lba = 1 ∧ table.mountedFromBackup = false ∨
    lba = disk.blockCount-1 ∧ table.mountedFromBackup = true ∧
      ∃ status, readTableAt disk 1 capacity = .error status

structure ZiGptHeaderData.Fits (header : ZiGptHeaderData) (disk : BlockMedia) : Prop where
  block : 0 < disk.blockSize
  entrySize : gptMinimumEntrySize ≤ header.entrySize
  blocks : 0 < entryBlocks disk header
  array : header.entryLba+entryBlocks disk header ≤ disk.blockCount
  outside : header.entryLba+entryBlocks disk header ≤ header.firstUsableLba ∨
    header.lastUsableLba < header.entryLba

section

variable {disk : BlockMedia} {header : ZiGptHeaderData} {table : ZiGptTable}
  {lba capacity bufferSize index : ℕ} {partitions partitions' : List ZiGptPartition}

theorem BlockMedia.readBlock_ok_iff {bytes : Mem} : disk.readBlock lba = .ok bytes ↔
    disk.status lba = .ok () ∧ bytes = disk.data.shift (lba*disk.blockSize) := by
  rw [BlockMedia.readBlock,unit_bind_ok_iff,pure_ok_iff]

theorem readHeaderAt_ok (h : readHeaderAt disk lba = .ok header) :
    header.currentLba = lba ∧ header.Fits disk := by
  obtain ⟨bytes,-,h⟩ := bind_ok_iff.mp h
  simp only [decodeHeader,failIf_bind_ok_iff,pure_ok_iff] at h
  obtain ⟨-,hsize,-,hfields,hplace,rfl⟩ := h
  exact ⟨by simp only; omega,by omega,by simp only; omega,by omega,by simp only; omega,
    by simp only; omega⟩

theorem readHeaderAt_fields (h : readHeaderAt disk lba = .ok header) :
    let bytes := disk.data.shift (lba*disk.blockSize)
    header.backupLba = ziReadU64Le bytes 32 ∧ header.entryLba = ziReadU64Le bytes 72 ∧
      header.entryCount = ziReadU32Le bytes 80 ∧ header.entrySize = ziReadU32Le bytes 84 := by
  obtain ⟨bytes,hread,h⟩ := bind_ok_iff.mp h
  obtain ⟨-,rfl⟩ := BlockMedia.readBlock_ok_iff.mp hread
  simp only [decodeHeader,failIf_bind_ok_iff,pure_ok_iff] at h
  obtain ⟨-,-,-,-,-,rfl⟩ := h
  exact ⟨rfl,rfl,rfl,rfl⟩

theorem entriesCrcLoop_ok {entryLba total : ℕ} (hblock : 0 < disk.blockSize)
    (hlba : ∀ k < total, entryLba+k/disk.blockSize < 2^64) (rounds consumed : ℕ) (crc crc' : UInt32)
    (hrounds : total ≤ consumed+rounds) (hstart : disk.blockSize ∣ consumed ∨ total ≤ consumed)
    (h : entriesCrcLoop disk entryLba total rounds consumed crc = .ok crc') : crc' =
      ziCrc32 crc (disk.data.slice (entryLba*disk.blockSize+consumed) (total-consumed)) := by
  have hnil (crc : UInt32) (off : ℕ) : crc = ziCrc32 crc (disk.data.slice off 0) := by
    simp [ziCrc32,Mem.slice]
  induction rounds generalizing consumed crc with
  | zero =>
    obtain rfl := pure_ok_iff.mp h
    rw [show total-consumed = 0 by omega,← hnil]
  | succ rounds ih =>
    rw [entriesCrcLoop] at h
    by_cases hlt : consumed < total
    · rw [if_pos hlt,Nat.mod_eq_of_lt (hlba _ hlt),bind_ok_iff] at h
      obtain ⟨bytes,hread,h⟩ := h
      obtain ⟨-,rfl⟩ := BlockMedia.readBlock_ok_iff.mp hread
      obtain ⟨k,rfl⟩ := hstart.resolve_right (by omega)
      have hat : (entryLba+disk.blockSize*k/disk.blockSize)*disk.blockSize =
          entryLba*disk.blockSize+disk.blockSize*k := by
        rw [Nat.mul_div_cancel_left _ hblock,Nat.add_mul,Nat.mul_comm k]
      dsimp only at h
      rw [Mem.slice_shift,hat] at h
      -- A chunk that is no whole block is the last one.
      have hnext := ih _ _ (by omega) (by
        rcases Nat.le_total (total-disk.blockSize*k) disk.blockSize with hle | hle
        · exact .inr (by omega)
        · exact .inl (by rw [min_eq_right hle]; exact ⟨k+1,rfl⟩)) h
      rw [hnext,ziCrc32_append,← Nat.add_assoc,Nat.add_zero,← Mem.slice_add]
      congr 2
      omega
    · rw [if_neg hlt] at h
      obtain rfl := pure_ok_iff.mp h
      rw [Nat.sub_eq_zero_of_le (Nat.le_of_not_lt hlt),← hnil]

theorem readBytesLoop_ok (hblock : 0 < disk.blockSize) (rounds current size : ℕ)
    (bytes : List UInt8) (hrounds : size ≤ rounds)
    (h : readBytesLoop disk rounds current size = .ok bytes) :
    bytes = disk.data.slice current size := by
  induction rounds generalizing current size bytes with
  | zero =>
    obtain rfl : size = 0 := by omega
    exact pure_ok_iff.mp h
  | succ rounds ih =>
    rw [readBytesLoop] at h
    by_cases hsize : size = 0
    · rw [if_pos hsize] at h
      subst hsize
      exact pure_ok_iff.mp h
    · rw [if_neg hsize,failIf_bind_ok_iff,bind_ok_iff] at h
      obtain ⟨-,block,hread,h⟩ := h
      obtain ⟨-,rfl⟩ := BlockMedia.readBlock_ok_iff.mp hread
      obtain ⟨rest,hrest,h⟩ := bind_ok_iff.mp h
      have hmod := Nat.mod_lt current hblock
      have hrest := ih _ _ _ (by omega) hrest
      rw [pure_ok_iff.mp h,hrest,Mem.slice_shift,Nat.mul_comm,Nat.div_add_mod,← Mem.slice_add,
        Nat.add_sub_cancel' (Nat.min_le_right ..)]

namespace ZiGptHeaderData.Fits

variable (h : header.Fits disk) (hsize : disk.blockSize*disk.blockCount < 2^64)

include h

theorem entryBytes_le :
    header.entryCount*header.entrySize ≤ entryBlocks disk header*disk.blockSize := by
  have hdiv := Nat.div_add_mod (header.entryCount*header.entrySize+disk.blockSize-1) disk.blockSize
  have hmod := Nat.mod_lt (header.entryCount*header.entrySize+disk.blockSize-1) h.block
  rw [entryBlocks,Nat.mul_comm _ disk.blockSize]
  omega

include hsize

theorem storedPartition_eq (hindex : index < header.entryCount) :
    storedPartition disk header index =
      entryPartition (entryArray disk header) header.entrySize index := by
  have hlast : index*header.entrySize+gptMinimumEntrySize ≤
      header.entryCount*header.entrySize := calc
    _ ≤ (index+1)*header.entrySize := by
      rw [Nat.succ_mul]
      exact Nat.add_le_add_left h.entrySize _
    _ ≤ _ := Nat.mul_le_mul_right _ hindex
  have hbytes := h.entryBytes_le
  have hdevice := Nat.mul_le_mul_right disk.blockSize h.array
  rw [Nat.add_mul,Nat.mul_comm disk.blockCount] at hdevice
  obtain ⟨rest,hrest⟩ := Nat.exists_eq_add_of_le hlast
  rw [storedPartition,entryPartition,Nat.mod_eq_of_lt (by omega),entryArray,hrest,Nat.add_assoc,
    Mem.slice_add,drop_left' (by simp),Mem.slice_add,take_left' (by simp)]

theorem validateEntriesCrc_ok (hcrc : validateEntriesCrc disk header = .ok ()) :
    (ziCrc32 0 (entryArray disk header)).toNat = header.entriesCrc := by
  obtain ⟨crc,hloop,hcrc⟩ := bind_ok_iff.mp hcrc
  have hlba (k : ℕ) (hk : k < header.entryCount*header.entrySize) :
      header.entryLba+k/disk.blockSize < 2^64 := by
    have hk : k/disk.blockSize < entryBlocks disk header := by
      rw [Nat.div_lt_iff_lt_mul h.block]
      exact Nat.lt_of_lt_of_le hk h.entryBytes_le
    have hcount : disk.blockCount ≤ disk.blockSize*disk.blockCount :=
      Nat.le_mul_of_pos_left _ h.block
    have harray := h.array
    omega
  have heq := entriesCrcLoop_ok h.block hlba _ _ _ _ (by omega) (.inl (Nat.dvd_zero _)) hloop
  rw [Nat.add_zero,Nat.sub_zero] at heq
  rw [entryArray,← heq]
  exact not_not.mp (failIf_ok_iff.mp hcrc)

end ZiGptHeaderData.Fits

theorem decodeEntry_ok (hblock : 0 < disk.blockSize)
    (h : decodeEntry disk header capacity partitions index = .ok partitions') :
    (PartitionsSound header partitions → PartitionsSound header partitions') ∧
      partitions' = partitions ++ (storedPartition disk header index).toList := by
  obtain ⟨encoded,hread,h⟩ := bind_ok_iff.mp h
  rw [readBytes,failIf_bind_ok_iff] at hread
  obtain rfl := readBytesLoop_ok hblock _ _ _ _ le_rfl hread.2
  rw [storedPartition]
  split at h
  · obtain rfl := pure_ok_iff.mp h
    exact ⟨id,by rw [if_pos ‹_›]; exact (append_nil _).symm⟩
  · rw [failIf_bind_ok_iff,failIf_bind_ok_iff,unit_bind_ok_iff,forM_ok_iff,pure_ok_iff] at h
    obtain ⟨-,hfields,hprior,rfl⟩ := h
    simp only [failIf_bind_ok_iff,failIf_ok_iff,partitionOverlaps,decide_eq_true_eq] at hprior
    refine ⟨fun hsound => ⟨?_,?_,?_,?_⟩,by rw [if_neg ‹_›]; rfl⟩
    · rw [forall_mem_append,forall_mem_singleton]
      exact ⟨hsound.usable,by omega⟩
    · rw [forall_mem_append,forall_mem_singleton]
      exact ⟨hsound.named,fun hzero => hfields (.inl hzero)⟩
    · rw [pairwise_append]
      simp only [mem_singleton,forall_eq]
      exact ⟨hsound.disjoint,pairwise_singleton ..,fun prior hmem => by
        have := (hprior prior hmem).1
        omega⟩
    · rw [map_append,nodup_append]
      refine ⟨hsound.distinct,pairwise_singleton ..,?_⟩
      simp only [map_cons,map_nil,mem_singleton,forall_eq,mem_map]
      rintro _ ⟨prior,hmem,rfl⟩ heq
      exact (hprior prior hmem).2 heq.symm

theorem decodePartitions_ok (hblock : 0 < disk.blockSize)
    (h : decodePartitions disk header capacity = .ok partitions) :
    PartitionsSound header partitions ∧
      partitions = (range header.entryCount).filterMap (storedPartition disk header) := by
  have hrun (indices : List ℕ) (start : List ZiGptPartition) (hsound : PartitionsSound header start)
      (h : indices.foldlM (decodeEntry disk header capacity) start = .ok partitions) :
      PartitionsSound header partitions ∧
        partitions = start ++ indices.filterMap (storedPartition disk header) := by
    induction indices generalizing start with
    | nil =>
      obtain rfl := pure_ok_iff.mp h
      exact ⟨hsound,(append_nil _).symm⟩
    | cons index indices ih =>
      rw [foldlM_cons,bind_ok_iff] at h
      obtain ⟨next,hstep,h⟩ := h
      obtain ⟨hkeeps,hnext⟩ := decodeEntry_ok hblock hstep
      obtain ⟨hsound,hrest⟩ := ih _ (hkeeps hsound) h
      refine ⟨hsound,?_⟩
      rw [hrest,hnext,append_assoc,filterMap_cons]
      cases storedPartition disk header index <;> rfl
  exact hrun _ [] ⟨by simp,by simp,.nil,.nil⟩ h

theorem ziGptRead_ok (h : ziGptRead disk bufferSize capacity = .ok table) :
    ∃ header lba, table.ReadFrom disk capacity lba ∧ readHeaderAt disk lba = .ok header ∧
      validateEntriesCrc disk header = .ok () ∧
      decodePartitions disk header capacity = .ok table.partitions ∧
      table = header.table table.partitions table.mountedFromBackup := by
  have hat {lba : ℕ} {table : ZiGptTable} (h : readTableAt disk lba capacity = .ok table) :
      ∃ header, readHeaderAt disk lba = .ok header ∧ validateEntriesCrc disk header = .ok () ∧
        decodePartitions disk header capacity = .ok table.partitions ∧
        table = header.table table.partitions false := by
    obtain ⟨header,hheader,h⟩ := bind_ok_iff.mp h
    obtain ⟨hcrc,h⟩ := unit_bind_ok_iff.mp h
    obtain ⟨partitions,hpartitions,h⟩ := bind_ok_iff.mp h
    obtain rfl := pure_ok_iff.mp h
    exact ⟨header,hheader,hcrc,hpartitions,rfl⟩
  rw [ziGptRead,failIf_bind_ok_iff,unit_bind_ok_iff] at h
  replace h := h.2.2
  split at h
  next found hprimary =>
    obtain rfl := pure_ok_iff.mp h
    obtain ⟨header,hheader,hcrc,hpartitions,htable⟩ := hat hprimary
    have hcopy : table.mountedFromBackup = false := congrArg ZiGptTable.mountedFromBackup htable
    exact ⟨header,1,.inl ⟨rfl,hcopy⟩,hheader,hcrc,hpartitions,hcopy ▸ htable⟩
  next status hprimary =>
    obtain ⟨found,hbackup,h⟩ := bind_ok_iff.mp h
    obtain rfl := pure_ok_iff.mp h
    obtain ⟨header,hheader,hcrc,hpartitions,htable⟩ := hat hbackup
    refine ⟨header,_,.inr ⟨rfl,rfl,status,hprimary⟩,hheader,hcrc,hpartitions,?_⟩
    rw [htable]
    rfl

/-- The partitions are those of the bytes whose checksum was compared. -/
theorem gpt_partitions_verified (hsize : disk.blockSize*disk.blockCount < 2^64)
    (h : ziGptRead disk bufferSize capacity = .ok table) :
    ∃ header lba, table.ReadFrom disk capacity lba ∧ readHeaderAt disk lba = .ok header ∧
      table = header.table table.partitions table.mountedFromBackup ∧
      (ziCrc32 0 (entryArray disk header)).toNat = header.entriesCrc ∧
      table.partitions = arrayPartitions disk header ∧
      PartitionsSound header table.partitions := by
  obtain ⟨header,lba,hcopy,hheader,hcrc,hpartitions,htable⟩ := ziGptRead_ok h
  have hfits := (readHeaderAt_ok hheader).2
  obtain ⟨hsound,hdecoded⟩ := decodePartitions_ok hfits.block hpartitions
  refine ⟨header,lba,hcopy,hheader,htable,hfits.validateEntriesCrc_ok hsize hcrc,?_,hsound⟩
  exact hdecoded.trans (filterMap_congr fun index hindex =>
    hfits.storedPartition_eq hsize (mem_range.mp hindex))

/-- A disk of seven blocks with two partitions, from a block on to block 2 and block 3. The array of
five entries goes over the end of a block; the first and the last one are in use. -/
def sampleDisk (first headerCrc entriesCrc : ℕ) : BlockMedia :=
  let fields := flatMap fun field : ℕ × ℕ => leBytes field.1 field.2
  let header := gptSignature ++ fields [(4,0x10000),(4,92),(4,headerCrc),(4,0),(8,1),(8,6),
    (8,first),(8,3),(16,1),(8,4),(4,5),(4,128),(4,entriesCrc)]
  { structSize := 64, version := 3, blockSize := 512, blockCount := 7, flags := 4, hasRead := true
    hasFlush := false, hasWrite := true, status := fun _ => .ok ()
    data := ((((Mem.zero.put 450 (leBytes 8 0x1000000ee)).put 510 [0x55,0xaa]).put 512 header).put
      2048 (fields [(16,1),(16,1),(8,first),(8,2)])).put
      2560 (fields [(16,1),(16,2),(8,3),(8,3)]) }

def sampleTable (first : ℕ) : ZiGptTable :=
  ⟨leBytes 16 1,1,6,first,3,[⟨leBytes 16 1,leBytes 16 1,first,2,0,replicate 36 0⟩,
    ⟨leBytes 16 1,leBytes 16 2,3,3,0,replicate 36 0⟩],false⟩

theorem sampleDisk_read : ziGptRead (sampleDisk 2 0x18aa455e 0xe877e84b) 512 2 =
    .ok (sampleTable 2) := by
  decide +kernel

theorem gpt_partitions_verified_sample : ∃ header,
    PartitionsSound header (sampleTable 2).partitions ∧
      (ziCrc32 0 (entryArray (sampleDisk 2 0x18aa455e 0xe877e84b) header)).toNat =
        header.entriesCrc :=
  let ⟨header,_,_,_,_,hcrc,_,hsound⟩ := gpt_partitions_verified (by decide) sampleDisk_read
  ⟨header,hsound,hcrc⟩

/-! ## Partitions that cover the table -/

def ZiGptPartition.Contains (partition : ZiGptPartition) (block : ℕ) : Prop :=
  partition.firstLba ≤ block ∧ block ≤ partition.lastLba

/-- The protective record, the two headers that a header knows of, and the entry array. -/
def ZiGptHeaderData.IsTableBlock (header : ZiGptHeaderData) (disk : BlockMedia)
    (block : ℕ) : Prop :=
  block = 0 ∨ block = header.currentLba ∨ block = header.backupLba ∨
    (header.entryLba ≤ block ∧ block < header.entryLba+entryBlocks disk header)

theorem partitionWrite_ok {device : ZiBlockDevice}
    {first count exposed firstBlock blockCount inputSize block : ℕ}
    {partition : ZiPartitionBlockContext} {written : ℕ × ℕ}
    (hinit : ziPartitionBlockInitialise device first count exposed = .ok partition)
    (h : partitionWrite partition firstBlock blockCount inputSize = .ok written)
    (hlow : written.1 ≤ block) (hhigh : block < written.1+written.2) :
    first ≤ block ∧ block < first+count := by
  simp only [ziPartitionBlockInitialise,failIf_bind_ok_iff,pure_ok_iff] at hinit
  obtain ⟨-,-,rfl⟩ := hinit
  rw [partitionWrite,failIf_bind_ok_iff,bind_ok_iff] at h
  obtain ⟨-,range,hrange,h⟩ := h
  simp only [translatePartitionRange,failIf_bind_ok_iff,pure_ok_iff] at hrange
  obtain ⟨-,hrange,rfl⟩ := hrange
  simp only [blockWriteRange,failIf_bind_ok_iff,pure_ok_iff] at h
  obtain ⟨-,-,-,-,rfl⟩ := h
  simp only at hlow hhigh
  omega

/-- No entry in use of the array that the header in a block points to covers block 0, that block
or the block of the other header: a condition on the bytes of the disk. -/
def EntriesAvoidTable (disk : BlockMedia) (lba : ℕ) : Prop :=
  let header := disk.data.shift (lba*disk.blockSize)
  ∀ index < ziReadU32Le header 80,
    let entry := disk.data.shift
      ((ziReadU64Le header 72*disk.blockSize+index*ziReadU32Le header 84)%2^64)
    entry.slice 0 16 ≠ zeroGuid → ∀ block ∈ [0,lba,ziReadU64Le header 32],
      ¬(ziReadU64Le entry 32 ≤ block ∧ block ≤ ziReadU64Le entry 40)

theorem storedPartition_avoids_iff {blocks : List ℕ} :
    (∀ p ∈ storedPartition disk header index, ∀ block ∈ blocks, ¬p.Contains block) ↔
      let entry := disk.data.shift ((header.entryLba*disk.blockSize+index*header.entrySize)%2^64)
      entry.slice 0 16 ≠ zeroGuid → ∀ block ∈ blocks,
        ¬(ziReadU64Le entry 32 ≤ block ∧ block ≤ ziReadU64Le entry 40) := by
  rw [storedPartition]
  generalize (header.entryLba*disk.blockSize+index*header.entrySize)%2^64 = off
  have htype : (disk.data.slice off gptMinimumEntrySize).take 16 =
      (disk.data.shift off).slice 0 16 := by
    rw [show gptMinimumEntrySize = 16+112 from rfl,Mem.slice_add,take_left' (by simp),
      Mem.slice_shift,Nat.add_zero]
  have hfield (pos : ℕ) (hpos : pos+8 ≤ gptMinimumEntrySize) :
      ziReadU64Le (fun i => (disk.data.slice off gptMinimumEntrySize).getD i 0) pos =
        ziReadU64Le (disk.data.shift off) pos :=
    Mem.readLe_congr fun i hi => Mem.getD_slice (by omega)
  simp only [htype]
  split
  · simp [*]
  · simp only [Option.mem_some_iff,forall_eq',ZiGptPartition.Contains,decodePartition,
      hfield 32 (by decide),hfield 40 (by decide)]
    exact ⟨fun havoid _ => havoid,fun havoid => havoid ‹_›⟩

/-- No partition covers the table exactly when no stored entry does, and none does when the header
keeps block 0 and both headers out of the usable range. -/
theorem partitions_off_table_iff (h : ziGptRead disk bufferSize capacity = .ok table) :
    ∃ header lba, table.ReadFrom disk capacity lba ∧ readHeaderAt disk lba = .ok header ∧
      (((∀ p ∈ table.partitions, ∀ block, header.IsTableBlock disk block → ¬p.Contains block) ∧
        ∀ p ∈ table.partitions, ∀ exposed partition firstBlock blockCount inputSize written block,
          ziPartitionBlockInitialise disk.toZiBlockDevice p.firstLba (p.lastLba-p.firstLba+1)
            exposed = .ok partition →
          partitionWrite partition firstBlock blockCount inputSize = .ok written →
          written.1 ≤ block → block < written.1+written.2 → ¬header.IsTableBlock disk block) ↔
        EntriesAvoidTable disk lba) ∧
      ((∀ block ∈ [0,lba,header.backupLba],
        block < header.firstUsableLba ∨ header.lastUsableLba < block) →
          EntriesAvoidTable disk lba) := by
  obtain ⟨header,lba,hcopy,hheader,-,hpartitions,-⟩ := ziGptRead_ok h
  obtain ⟨hlba,hfits⟩ := readHeaderAt_ok hheader
  obtain ⟨⟨husable,-,-,-⟩,hstored⟩ := decodePartitions_ok hfits.block hpartitions
  have hentries : (∀ p ∈ table.partitions, ∀ block ∈ [0,lba,header.backupLba],
      ¬p.Contains block) ↔ EntriesAvoidTable disk lba := by
    obtain ⟨hbackup,hentry,hcount,hentrySize⟩ := readHeaderAt_fields hheader
    rw [hstored,EntriesAvoidTable,← hbackup,← hentry,← hcount,← hentrySize]
    simp only [mem_filterMap,forall_exists_index,and_imp]
    rw [forall_comm]
    exact forall_congr' fun index => by
      rw [forall_comm,mem_range]
      exact imp_congr_right fun _ => storedPartition_avoids_iff
  refine ⟨header,lba,hcopy,hheader,⟨fun hoff => ?_,fun hoff => ?_⟩,
    fun hout => hentries.mp fun p hp block hblock hin => ?_⟩
  · refine hentries.mp fun p hp block hblock => hoff.1 p hp block ?_
    simp only [mem_cons,not_mem_nil,or_false] at hblock
    rcases hblock with rfl | rfl | rfl
    · exact .inl rfl
    · exact .inr (.inl hlba.symm)
    · exact .inr (.inr (.inl rfl))
  · -- Only the entry array is kept out of the usable range.
    have havoid (p) (hp : p ∈ table.partitions) (block : ℕ)
        (htable : header.IsTableBlock disk block) : ¬p.Contains block := by
      have hp' := hentries.mpr hoff p hp
      rcases htable with rfl | rfl | rfl | harray
      · exact hp' _ (by simp)
      · exact hp' _ (by simp [hlba])
      · exact hp' _ (by simp)
      · rintro ⟨hfirst,hlast⟩
        have := husable p hp
        have := hfits.outside
        omega
    refine ⟨havoid,fun p hp _ _ _ _ _ _ block hinit hwrite hlow hhigh htable => ?_⟩
    have hin := partitionWrite_ok hinit hwrite hlow hhigh
    have := husable p hp
    exact havoid p hp block htable ⟨hin.1,by omega⟩
  · have := husable p hp
    have := hout block hblock
    rw [ZiGptPartition.Contains] at hin
    omega

theorem partitions_off_table_sample : ∃ header,
    readHeaderAt (sampleDisk 2 0x18aa455e 0xe877e84b) 1 = .ok header ∧
      ∀ p ∈ (sampleTable 2).partitions, ∀ block,
        header.IsTableBlock (sampleDisk 2 0x18aa455e 0xe877e84b) block → ¬p.Contains block := by
  obtain ⟨header,lba,hcopy,hheader,hiff,-⟩ := partitions_off_table_iff sampleDisk_read
  obtain ⟨rfl,-⟩ | ⟨-,hbackup,-⟩ := hcopy
  · exact ⟨header,hheader,(hiff.mpr (by unfold EntriesAvoidTable; decide +kernel)).1⟩
  · cases hbackup

/-- A partition from block 0 on covers the protective record and the header, and the first write
to its device lands there. -/
theorem partition_over_table : ziGptRead (sampleDisk 0 0xa0938acb 0xfa6b876c) 512 2 =
      .ok (sampleTable 0) ∧
    (∃ p ∈ (sampleTable 0).partitions, p.Contains 0 ∧ p.Contains (sampleTable 0).currentLba) ∧
    (do
      let partition ← ziPartitionBlockInitialise
        (sampleDisk 0 0xa0938acb 0xfa6b876c).toZiBlockDevice 0 3 512
      partitionWrite partition 0 2 1024) = .ok (0, 2) :=
  ⟨by decide +kernel,by simp [sampleTable,ZiGptPartition.Contains],by rfl⟩

end

end Zizium
