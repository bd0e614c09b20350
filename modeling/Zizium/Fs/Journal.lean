import Zizium.Fs.Device
import Mathlib.Data.Int.ModEq
import Mathlib.Data.List.Nodup

/-!
# The journal format

Headers and records of the redo journal in `kernel/fs/zifs/journal.c`.  The journal is a
ring of two-block records behind two copies of its header.
-/

namespace Zizium

open Bytes BlockIO Mem Except

abbrev journalHeaderSize : ℕ := 128
abbrev journalHeaderCopies : ℕ := 2
abbrev journalRecordHeaderSize : ℕ := 128
abbrev journalRecordBlocks : ℕ := 2
abbrev journalMaximumPayloadSize : ℕ := 4096
abbrev journalTargetNone : ℕ := uint64Max
abbrev journalMinimumRecordCapacity : ℕ := 5
abbrev journalReservedRecords : ℕ := 1
abbrev journalMaximumBlockImages : ℕ := 28

abbrev recordBegin : ℕ := 1
abbrev recordBlockImage : ℕ := 2
abbrev recordCommit : ℕ := 3
abbrev recordCheckpoint : ℕ := 4

structure ZiFsJournalHeader where
  headerSequence : ℕ
  volumeGeneration : ℕ
  recordCapacity : ℕ
  headRecord : ℕ
  tailRecord : ℕ
  nextSequence : ℕ
  nextTransactionId : ℕ
  lastCommittedTransaction : ℕ
  lastCheckpointTransaction : ℕ
  flags : ℕ
  deriving DecidableEq, Repr

structure ZiFsJournalRecord where
  transactionId : ℕ
  sequence : ℕ
  targetBlock : ℕ
  sourceGeneration : ℕ
  targetGeneration : ℕ
  imageCount : ℕ
  transactionChecksum : ℕ
  recordType : ℕ
  flags : ℕ
  payload : List UInt8
  deriving DecidableEq, Repr

/-! ### The record ring -/

def ziFsJournalRecordCapacity (journalBlocks : ℕ) : Result ℕ := do
  failIf (journalBlocks ≤ journalHeaderCopies ∨
    (journalBlocks-journalHeaderCopies)%journalRecordBlocks ≠ 0) .invalidArgument
  let capacity := (journalBlocks-journalHeaderCopies)/journalRecordBlocks
  failIf (capacity = 0) .invalidArgument
  pure capacity

def ziFsJournalRecordBlock (journalStart recordCapacity recordIndex : ℕ) : Result ℕ := do
  failIf (recordCapacity = 0 ∨ recordIndex ≥ recordCapacity ∨
    recordIndex > (uint64Max-journalHeaderCopies)/journalRecordBlocks) .invalidArgument
  let relative := journalHeaderCopies+recordIndex*journalRecordBlocks
  failIf (journalStart > uint64Max-relative) .outOfBounds
  pure (journalStart+relative)

def ziFsJournalAdvanceRecord (recordCapacity recordIndex recordCount : ℕ) : Result ℕ := do
  failIf (recordCapacity = 0 ∨ recordIndex ≥ recordCapacity) .invalidArgument
  let remaining := recordCount%recordCapacity
  if remaining ≥ recordCapacity-recordIndex then
    pure (remaining-(recordCapacity-recordIndex))
  else pure (recordIndex+remaining)

def journalRingSpace (recordCapacity headRecord tailRecord : ℕ) : Option (ℕ × ℕ) :=
  if recordCapacity < journalMinimumRecordCapacity ∨ headRecord ≥ recordCapacity ∨
      tailRecord ≥ recordCapacity then none
  else
    let occupied := if headRecord ≥ tailRecord then headRecord-tailRecord
      else recordCapacity-(tailRecord-headRecord)
    some (occupied, recordCapacity-occupied-journalReservedRecords)

def journalHeaderIsValid (header : ZiFsJournalHeader) : Bool :=
  if header.headerSequence = 0 ∨ header.volumeGeneration = 0 ∨
      header.recordCapacity < journalMinimumRecordCapacity ∨
      header.headRecord ≥ header.recordCapacity ∨ header.tailRecord ≥ header.recordCapacity ∨
      header.nextSequence = 0 ∨ header.lastCommittedTransaction = uint64Max ∨
      header.nextTransactionId ≠ header.lastCommittedTransaction+1 ∨
      header.lastCheckpointTransaction > header.lastCommittedTransaction ∨
      header.flags ≠ 0 then false
  else match journalRingSpace header.recordCapacity header.headRecord header.tailRecord with
    | none => false
    | some (occupied, _) =>
      if header.lastCheckpointTransaction = header.lastCommittedTransaction then
        decide (occupied = 0)
      else decide (header.lastCommittedTransaction-header.lastCheckpointTransaction = 1 ∧
        occupied ≥ 3)

def ziFsJournalQuerySpace (header : ZiFsJournalHeader) : Result (ℕ × ℕ) := do
  failIf (journalHeaderIsValid header = false) .invalidArgument
  match journalRingSpace header.recordCapacity header.headRecord header.tailRecord with
  | none => throw .invalidArgument
  | some space => pure space

section Ring

variable {header : ZiFsJournalHeader}

theorem journalHeaderIsValid_iff : journalHeaderIsValid header = true ↔
      header.headerSequence ≠ 0 ∧ header.volumeGeneration ≠ 0 ∧ 5 ≤ header.recordCapacity ∧
      header.headRecord < header.recordCapacity ∧ header.tailRecord < header.recordCapacity ∧
      header.nextSequence ≠ 0 ∧ header.lastCommittedTransaction ≠ uint64Max ∧
      header.nextTransactionId = header.lastCommittedTransaction+1 ∧
      header.lastCheckpointTransaction ≤ header.lastCommittedTransaction ∧ header.flags = 0 ∧
      (if header.lastCheckpointTransaction = header.lastCommittedTransaction then
        header.headRecord = header.tailRecord
      else header.lastCommittedTransaction-header.lastCheckpointTransaction = 1 ∧
        3 ≤ if header.headRecord ≥ header.tailRecord then header.headRecord-header.tailRecord
          else header.recordCapacity-(header.tailRecord-header.headRecord)) := by
  unfold journalHeaderIsValid
  split
  · next h =>
    simp only [Bool.false_eq_true,false_iff,not_and]
    intro h1 h2 h3 h4 h5 h6 h7 h8 h9 h10
    simp only [journalMinimumRecordCapacity] at h
    omega
  · next h =>
    simp only [not_or,not_lt,not_le,ge_iff_le,gt_iff_lt,ne_eq,not_not,
      journalMinimumRecordCapacity] at h
    obtain ⟨h1,h2,h3,h4,h5,h6,h7,h8,h9,h10⟩ := h
    have hring : journalRingSpace header.recordCapacity header.headRecord header.tailRecord =
        some (if header.headRecord ≥ header.tailRecord then header.headRecord-header.tailRecord
          else header.recordCapacity-(header.tailRecord-header.headRecord),
          header.recordCapacity-(if header.headRecord ≥ header.tailRecord then
            header.headRecord-header.tailRecord
          else header.recordCapacity-(header.tailRecord-header.headRecord))-1) := by
      rw [journalRingSpace,if_neg (by simp only [journalMinimumRecordCapacity]; omega)]
    rw [hring]
    simp only [h1,h2,h3,h4,h5,h6,h7,h8,h9,h10,ne_eq,not_false_eq_true,true_and,ge_iff_le]
    split
    · rw [decide_eq_true_iff]
      split <;> omega
    · rw [decide_eq_true_iff]

theorem ziFsJournalQuerySpace_ok (h : journalHeaderIsValid header = true) :
    ∃ occupied available, ziFsJournalQuerySpace header = .ok (occupied, available) ∧
      occupied+available+1 = header.recordCapacity ∧
      (header.tailRecord+occupied = header.headRecord ∨
        header.tailRecord+occupied = header.headRecord+header.recordCapacity) := by
  obtain ⟨-,-,hcap,hhead,htail,-⟩ := journalHeaderIsValid_iff.mp h
  rw [ziFsJournalQuerySpace,failIf_bind_neg (by simp [h]),journalRingSpace,
    if_neg (by simp only [journalMinimumRecordCapacity]; omega)]
  refine ⟨_,_,rfl,?_,?_⟩
  · simp only [journalReservedRecords]
    split <;> omega
  · split <;> omega

theorem ziFsJournalRecordBlock_ok {start blocks cap slot : ℕ} (hrange : start+blocks ≤ 2^64)
    (hcap : ziFsJournalRecordCapacity blocks = .ok cap) (hslot : slot < cap) :
    ziFsJournalRecordBlock start cap slot = .ok (start+(2+slot*2)) ∧
      start+(2+slot*2)+2 ≤ start+blocks := by
  simp only [ziFsJournalRecordCapacity,bind_ok_iff,failIf_ok_iff,exists_const,pure_ok_iff,
    journalHeaderCopies,journalRecordBlocks] at hcap
  obtain ⟨hblocks,-,rfl⟩ := hcap
  have hmax := uint64Max_eq
  refine ⟨?_,by omega⟩
  simp only [ziFsJournalRecordBlock,journalHeaderCopies,journalRecordBlocks]
  rw [failIf_bind_neg (by omega),failIf_bind_neg (by omega)]
  rfl

theorem ziFsJournalAdvanceRecord_eq {cap i : ℕ} (hi : i < cap) (n : ℕ) :
    ziFsJournalAdvanceRecord cap i n = .ok ((i+n)%cap) := by
  rw [ziFsJournalAdvanceRecord,failIf_bind_neg (by omega),Nat.add_mod_eq_ite,Nat.mod_eq_of_lt hi]
  by_cases hwrap : cap ≤ i+n%cap
  · rw [if_pos hwrap,if_pos (by omega),show n%cap-(cap-i) = i+n%cap-cap by omega]
    rfl
  · rw [if_neg hwrap,if_neg (by omega)]
    rfl

/-- The slots of `count` records, with an advance after each. -/
def visitedSlots (capacity : ℕ) : ℕ → ℕ → Result (List ℕ)
  | _, 0 => pure []
  | slot, count+1 => do
    let next ← ziFsJournalAdvanceRecord capacity slot 1
    let rest ← visitedSlots capacity next count
    pure (slot :: rest)

theorem visitedSlots_eq {cap slot : ℕ} (hslot : slot < cap) (count : ℕ) :
    visitedSlots cap slot count = .ok ((List.range count).map fun k => (slot+k)%cap) := by
  induction count generalizing slot with
  | zero => rfl
  | succ count ih =>
    rw [visitedSlots,ziFsJournalAdvanceRecord_eq hslot]
    change (visitedSlots cap ((slot+1)%cap) count >>= _) = _
    have hfirst : (slot+0)%cap = slot := Nat.mod_eq_of_lt hslot
    have hnext : ∀ k, ((slot+1)%cap+k)%cap = (slot+(k+1))%cap := by
      intro k
      rw [Nat.mod_add_mod,Nat.add_assoc,Nat.add_comm 1]
    rw [ih (Nat.mod_lt _ (by omega)),List.range_succ_eq_map,List.map_cons,List.map_map,hfirst]
    simp only [hnext]
    rfl

/-- The slot holds a record between tail and head. -/
def ZiFsJournalHeader.Occupies (header : ZiFsJournalHeader) (slot : ℕ) : Prop :=
  if header.tailRecord ≤ header.headRecord then
    header.tailRecord ≤ slot ∧ slot < header.headRecord
  else header.tailRecord ≤ slot ∨ slot < header.headRecord

/-- `ZiFsJournalAdvanceRecord` as the code computes it, on 64-bit words. -/
def journalAdvance64 (recordCapacity recordIndex recordCount : UInt64) : Result UInt64 := do
  failIf (recordCapacity = 0 ∨ recordIndex ≥ recordCapacity) .invalidArgument
  let remaining := recordCount%recordCapacity
  if remaining ≥ recordCapacity-recordIndex then
    pure (remaining-(recordCapacity-recordIndex))
  else pure (recordIndex+remaining)

theorem journalAdvance64_eq (capacity index count : UInt64) :
    (journalAdvance64 capacity index count).map UInt64.toNat =
      ziFsJournalAdvanceRecord capacity.toNat index.toNat count.toNat := by
  simp only [journalAdvance64,ziFsJournalAdvanceRecord,← UInt64.toNat_inj,ge_iff_le,
    UInt64.le_iff_toNat_le,UInt64.toNat_mod,UInt64.toNat_zero]
  by_cases hbad : capacity.toNat = 0 ∨ capacity.toNat ≤ index.toNat
  · rw [failIf_bind_pos hbad,failIf_bind_pos hbad]
    rfl
  rw [failIf_bind_neg hbad,failIf_bind_neg hbad,toNat_sub_of_toNat_le (by omega)]
  have hmax := capacity.toNat_lt
  split
  next hwrap =>
    show ok (count%capacity-(capacity-index)).toNat = .ok _
    rw [toNat_sub_of_toNat_le (by rwa [toNat_sub_of_toNat_le (by omega),UInt64.toNat_mod]),
      UInt64.toNat_mod,
      toNat_sub_of_toNat_le (by omega)]
  next hwrap =>
    show ok (index+count%capacity).toNat = .ok _
    rw [UInt64.toNat_add,UInt64.toNat_mod,Nat.mod_eq_of_lt (by omega)]

def journalRingSpace64 (recordCapacity headRecord tailRecord : UInt64) : Option (UInt64 × UInt64) :=
  if recordCapacity < 5 ∨ headRecord ≥ recordCapacity ∨ tailRecord ≥ recordCapacity then none
  else
    let occupied := if headRecord ≥ tailRecord then headRecord-tailRecord
      else recordCapacity-(tailRecord-headRecord)
    some (occupied, recordCapacity-occupied-1)

theorem journalRingSpace64_eq (capacity head tail : UInt64) :
    (journalRingSpace64 capacity head tail).map (Prod.map UInt64.toNat UInt64.toNat) =
      journalRingSpace capacity.toNat head.toNat tail.toNat := by
  simp only [journalRingSpace64,journalRingSpace,journalMinimumRecordCapacity,ge_iff_le,
    UInt64.le_iff_toNat_le,UInt64.lt_iff_toNat_lt,show (5 : UInt64).toNat = 5 from rfl]
  split
  · rfl
  have hrest : ∀ occupied : UInt64, occupied.toNat < capacity.toNat →
      (capacity-occupied-1).toNat = capacity.toNat-occupied.toNat-1 := by
    intro occupied hlt
    have hone : (1 : UInt64).toNat = 1 := rfl
    have hsub := toNat_sub_of_toNat_le hlt.le
    rw [toNat_sub_of_toNat_le (by omega),hsub,hone]
  split
  next hle =>
    have hocc := toNat_sub_of_toNat_le hle
    rw [Option.map_some,Prod.map,hrest _ (by omega),hocc]
  next hlt =>
    have hgap : (tail-head).toNat = _ := toNat_sub_of_toNat_le (by omega)
    have hocc : (capacity-(tail-head)).toNat = _ := toNat_sub_of_toNat_le (by omega)
    rw [Option.map_some,Prod.map,hrest _ (by omega),hocc,hgap]

/-- The record ring: a valid header leaves room for what the space query answers, a transaction of
that size visits distinct slots off the occupied ones, and slots are apart on the device. -/
theorem journal_ring_exact :
    (∀ header : ZiFsJournalHeader, journalHeaderIsValid header = true →
      ∃ occupied available, ziFsJournalQuerySpace header = .ok (occupied, available) ∧
        occupied+available+journalReservedRecords = header.recordCapacity ∧
        ∀ count ≤ available, ∃ slots,
          visitedSlots header.recordCapacity header.headRecord count = .ok slots ∧
          slots.length = count ∧ slots.Nodup ∧
          ∀ slot ∈ slots, slot < header.recordCapacity ∧ ¬header.Occupies slot) ∧
    (∀ journalStart journalBlocks capacity, journalStart+journalBlocks ≤ 2^64 →
      ziFsJournalRecordCapacity journalBlocks = .ok capacity →
      ∀ slot < capacity, ∃ block,
        ziFsJournalRecordBlock journalStart capacity slot = .ok block ∧
        journalStart+journalHeaderCopies ≤ block ∧
        block+journalRecordBlocks ≤ journalStart+journalBlocks ∧
        ∀ other block', slot < other →
          ziFsJournalRecordBlock journalStart capacity other = .ok block' →
          block+journalRecordBlocks ≤ block') ∧
    (∀ capacity index m n, (do
        let next ← ziFsJournalAdvanceRecord capacity index m
        ziFsJournalAdvanceRecord capacity next n) =
      ziFsJournalAdvanceRecord capacity index (m+n)) ∧
    (∀ capacity index count : UInt64, (journalAdvance64 capacity index count).map UInt64.toNat =
      ziFsJournalAdvanceRecord capacity.toNat index.toNat count.toNat) ∧
    ∀ capacity head tail : UInt64,
      (journalRingSpace64 capacity head tail).map (Prod.map UInt64.toNat UInt64.toNat) =
        journalRingSpace capacity.toNat head.toNat tail.toNat := by
  refine ⟨?_,?_,?_,journalAdvance64_eq,journalRingSpace64_eq⟩
  · intro header h
    obtain ⟨-,-,-,hhead,htail,-⟩ := journalHeaderIsValid_iff.mp h
    obtain ⟨occupied,available,hspace,htotal,htoHead⟩ := ziFsJournalQuerySpace_ok h
    refine ⟨occupied,available,hspace,htotal,fun count hcount => ?_⟩
    refine ⟨_,visitedSlots_eq hhead count,by simp,?_,?_⟩
    · refine List.Nodup.map_on ?_ List.nodup_range
      intro k hk k' hk' heq
      rw [List.mem_range] at hk hk'
      exact (Nat.ModEq.add_left_cancel' header.headRecord heq).eq_of_lt_of_lt (by omega) (by omega)
    · intro slot hslot
      obtain ⟨k,hk,rfl⟩ := List.mem_map.mp hslot
      rw [List.mem_range] at hk
      refine ⟨Nat.mod_lt _ (by omega),?_⟩
      rw [Nat.add_mod_eq_ite,Nat.mod_eq_of_lt hhead,Nat.mod_eq_of_lt (by omega : k < _),
        ZiFsJournalHeader.Occupies]
      split_ifs <;> omega
  · intro journalStart journalBlocks capacity hrange hcapacity slot hslot
    obtain ⟨hblock,hinside⟩ := ziFsJournalRecordBlock_ok hrange hcapacity hslot
    refine ⟨_,hblock,by simp only [journalHeaderCopies]; omega,hinside,?_⟩
    intro other block' hlt hother
    simp only [ziFsJournalRecordBlock,bind_ok_iff,failIf_ok_iff,exists_const,
      pure_ok_iff,journalHeaderCopies,journalRecordBlocks] at hother ⊢
    omega
  · intro capacity index m n
    by_cases hi : index < capacity
    · rw [ziFsJournalAdvanceRecord_eq hi,ziFsJournalAdvanceRecord_eq hi,ok_bind,
        ziFsJournalAdvanceRecord_eq (Nat.mod_lt _ (by omega)),Nat.mod_add_mod,Nat.add_assoc]
    · rw [ziFsJournalAdvanceRecord,ziFsJournalAdvanceRecord,failIf_bind_pos (by omega),
        failIf_bind_pos (by omega)]
      rfl

end Ring

/-! ### Headers -/

def journalHeaderMagic : List UInt8 := [0x5a,0x49,0x4a,0x52]

/-- The 124 bytes that precede the checksum. -/
def journalHeaderFields (header : ZiFsJournalHeader) : Mem :=
  let bytes := zero.put 0 journalHeaderMagic
  let bytes := ziWriteU16Le bytes 4 1
  let bytes := ziWriteU16Le bytes 6 journalHeaderSize
  let bytes := ziWriteU64Le bytes 8 header.headerSequence
  let bytes := ziWriteU64Le bytes 16 header.volumeGeneration
  let bytes := ziWriteU32Le bytes 24 journalRecordBlocks
  let bytes := ziWriteU32Le bytes 28 header.flags
  let bytes := ziWriteU64Le bytes 32 header.recordCapacity
  let bytes := ziWriteU64Le bytes 40 header.headRecord
  let bytes := ziWriteU64Le bytes 48 header.tailRecord
  let bytes := ziWriteU64Le bytes 56 header.nextSequence
  let bytes := ziWriteU64Le bytes 64 header.nextTransactionId
  let bytes := ziWriteU64Le bytes 72 header.lastCommittedTransaction
  ziWriteU64Le bytes 80 header.lastCheckpointTransaction

/-- The encoded header, zero-padded to a block. -/
def journalHeaderBlock (header : ZiFsJournalHeader) : Block :=
  let bytes := journalHeaderFields header
  .ofMem 4096 (ziWriteU32Le bytes 124 (checksum bytes 124))

def ziFsEncodeJournalHeader (header : ZiFsJournalHeader) : Result Block := do
  failIf (journalHeaderIsValid header = false) .invalidArgument
  pure (journalHeaderBlock header)

/-- The fields stored in a header, before any check of their values. -/
def journalHeaderOfBytes (data : Mem) : ZiFsJournalHeader where
  headerSequence := ziReadU64Le data 8
  volumeGeneration := ziReadU64Le data 16
  recordCapacity := ziReadU64Le data 32
  headRecord := ziReadU64Le data 40
  tailRecord := ziReadU64Le data 48
  nextSequence := ziReadU64Le data 56
  nextTransactionId := ziReadU64Le data 64
  lastCommittedTransaction := ziReadU64Le data 72
  lastCheckpointTransaction := ziReadU64Le data 80
  flags := ziReadU32Le data 28

def ziFsDecodeJournalHeader (data : Mem) : Result ZiFsJournalHeader := do
  failIf (data.slice 0 4 ≠ journalHeaderMagic ∨ ziReadU16Le data 4 ≠ 1 ∨
    ziReadU16Le data 6 ≠ journalHeaderSize ∨ ziReadU32Le data 24 ≠ journalRecordBlocks)
    .corruptFilesystem
  failIf (ziReadU32Le data 124 ≠ checksum data 124) .checksumMismatch
  let header := journalHeaderOfBytes data
  failIf (journalHeaderIsValid header = false) .corruptFilesystem
  pure header

/-- One header copy; its status is tolerated by the caller. -/
def readJournalHeaderCopy (device : ZiBlockDevice) (journalStart copyIndex : ℕ) :
    ReadIo ZiFsJournalHeader := do
  let block ← device.readBlock (journalStart+copyIndex)
  ReadM.ofExcept (ziFsDecodeJournalHeader block.mem)

/-- Load both copies and select the one with the larger sequence number. -/
def ziFsLoadJournalHeader (device : ZiBlockDevice) (journalStart : ℕ) :
    ReadIo (ZiFsJournalHeader × ℕ) := do
  failIf (journalStart > device.blockCount ∨
    journalHeaderCopies > device.blockCount-journalStart) .invalidArgument
  let first ← (readJournalHeaderCopy device journalStart 0).attempt
  let second ← (readJournalHeaderCopy device journalStart 1).attempt
  match first, second with
  | .error _, .error status => throw status
  | .ok header, .error _ => pure (header, 0)
  | .error _, .ok header => pure (header, 1)
  | .ok header, .ok candidate =>
    if candidate.headerSequence > header.headerSequence then pure (candidate, 1)
    else pure (header, 0)

def ziFsStoreJournalHeader (device : ZiBlockDevice) (journalStart copyIndex : ℕ)
    (header : ZiFsJournalHeader) : DeviceIo Unit := do
  failIf (copyIndex ≥ journalHeaderCopies ∨ journalStart > device.blockCount ∨
    journalHeaderCopies > device.blockCount-journalStart) .invalidArgument
  let block ← IoM.ofExcept (ziFsEncodeJournalHeader header)
  ziBlockWrite device (journalStart+copyIndex) [block]

/-! ### Records -/

def journalRecordMagic : List UInt8 := [0x5a,0x49,0x4a,0x45]

def journalRecordIsValid (record : ZiFsJournalRecord) : Bool :=
  if record.transactionId = 0 ∨ record.sequence = 0 ∨ record.sourceGeneration = 0 ∨
      record.sourceGeneration = uint64Max ∨
      record.targetGeneration ≠ record.sourceGeneration+1 ∨ record.flags ≠ 0 ∨
      record.payload.length > journalMaximumPayloadSize then false
  else if record.recordType = recordBlockImage then
    decide (record.targetBlock ≠ journalTargetNone ∧ record.payload.length = blockSize ∧
      record.imageCount = 0 ∧ record.transactionChecksum = 0)
  else if record.targetBlock ≠ journalTargetNone ∨ record.payload.length ≠ 0 ∨
      record.imageCount = 0 then false
  else if record.recordType = recordBegin then decide (record.transactionChecksum = 0)
  else if record.recordType = recordCommit ∨ record.recordType = recordCheckpoint then
    decide (record.transactionChecksum ≠ 0)
  else false

/-- The bytes of a record before its own checksum is stored. -/
def journalRecordFields (record : ZiFsJournalRecord) : Mem :=
  let bytes := zero.put 0 journalRecordMagic
  let bytes := ziWriteU16Le bytes 4 1
  let bytes := ziWriteU16Le bytes 6 journalRecordHeaderSize
  let bytes := ziWriteU16Le bytes 8 record.recordType
  let bytes := ziWriteU16Le bytes 10 record.flags
  let bytes := ziWriteU32Le bytes 12 record.payload.length
  let bytes := ziWriteU64Le bytes 16 record.transactionId
  let bytes := ziWriteU64Le bytes 24 record.sequence
  let bytes := ziWriteU64Le bytes 32 record.targetBlock
  let bytes := ziWriteU64Le bytes 40 record.sourceGeneration
  let bytes := ziWriteU64Le bytes 48 record.targetGeneration
  let bytes := ziWriteU32Le bytes 56 record.imageCount
  let bytes := ziWriteU32Le bytes 60 record.transactionChecksum
  let bytes := ziWriteU32Le bytes 64 (ziCrc32c 0 record.payload).toNat
  bytes.put 128 record.payload

def journalRecordChecksum (data : Mem) (payloadSize : ℕ) : UInt32 :=
  ziCrc32c (ziCrc32c 0 (data.slice 0 124)) (data.slice 128 payloadSize)

def journalRecordBytes (record : ZiFsJournalRecord) : Mem :=
  let bytes := journalRecordFields record
  ziWriteU32Le bytes 124 (journalRecordChecksum bytes record.payload.length).toNat

def journalRecordPair (record : ZiFsJournalRecord) : List Block :=
  [.ofMem 4096 (journalRecordBytes record),.ofMem 4096 ((journalRecordBytes record).shift 4096)]

def ziFsEncodeJournalRecord (record : ZiFsJournalRecord) : Result (List Block) := do
  failIf (journalRecordIsValid record = false) .invalidArgument
  pure (journalRecordPair record)

def journalRecordOfBytes (data : Mem) : ZiFsJournalRecord where
  transactionId := ziReadU64Le data 16
  sequence := ziReadU64Le data 24
  targetBlock := ziReadU64Le data 32
  sourceGeneration := ziReadU64Le data 40
  targetGeneration := ziReadU64Le data 48
  imageCount := ziReadU32Le data 56
  transactionChecksum := ziReadU32Le data 60
  recordType := ziReadU16Le data 8
  flags := ziReadU16Le data 10
  payload := data.slice 128 (ziReadU32Le data 12)

def ziFsDecodeJournalRecord (data : Mem) : Result ZiFsJournalRecord := do
  failIf (data.slice 0 4 ≠ journalRecordMagic ∨ ziReadU16Le data 4 ≠ 1 ∨
    ziReadU16Le data 6 ≠ journalRecordHeaderSize) .corruptFilesystem
  let payloadSize := ziReadU32Le data 12
  failIf (payloadSize > journalMaximumPayloadSize) .corruptFilesystem
  failIf ((ziCrc32c 0 (data.slice 128 payloadSize)).toNat ≠ ziReadU32Le data 64) .checksumMismatch
  failIf ((journalRecordChecksum data payloadSize).toNat ≠ ziReadU32Le data 124) .checksumMismatch
  let record := journalRecordOfBytes data
  failIf (journalRecordIsValid record = false) .corruptFilesystem
  pure record

/-- The 32 bytes about a block image that enter the transaction checksum. -/
def transactionDescriptor (record : ZiFsJournalRecord) : List UInt8 :=
  leBytes 8 record.transactionId ++ leBytes 8 record.sequence ++ leBytes 8 record.targetBlock ++
    leBytes 4 (ziCrc32c 0 record.payload).toNat ++ [0,0,0,0]

def ziFsJournalExtendTransactionChecksum (sum : UInt32) (blockImage : ZiFsJournalRecord) :
    Result UInt32 := do
  failIf (blockImage.recordType ≠ recordBlockImage ∨ journalRecordIsValid blockImage = false)
    .invalidArgument
  pure (ziCrc32c sum (transactionDescriptor blockImage))

/-- Zero marks a missing checksum, so a computed zero is stored as all ones. -/
def finaliseTransactionChecksum (sum : UInt32) : UInt32 := if sum = 0 then 0xffffffff else sum

/-- Consecutive blocks as one view. -/
def joinBlocks (blocks : ℕ → Block) : Mem := fun i => (blocks (i/4096)).mem (i%4096)

/-! ### Round trips -/

/-- The values of the fields are in the ranges of their C types. -/
structure ZiFsJournalHeader.Fits (h : ZiFsJournalHeader) : Prop where
  headerSequence : h.headerSequence < 256^8
  volumeGeneration : h.volumeGeneration < 256^8
  recordCapacity : h.recordCapacity < 256^8
  headRecord : h.headRecord < 256^8
  tailRecord : h.tailRecord < 256^8
  nextSequence : h.nextSequence < 256^8
  nextTransactionId : h.nextTransactionId < 256^8
  lastCommittedTransaction : h.lastCommittedTransaction < 256^8
  lastCheckpointTransaction : h.lastCheckpointTransaction < 256^8
  flags : h.flags < 256^4

structure ZiFsJournalRecord.Fits (r : ZiFsJournalRecord) : Prop where
  transactionId : r.transactionId < 256^8
  sequence : r.sequence < 256^8
  targetBlock : r.targetBlock < 256^8
  sourceGeneration : r.sourceGeneration < 256^8
  targetGeneration : r.targetGeneration < 256^8
  imageCount : r.imageCount < 256^4
  transactionChecksum : r.transactionChecksum < 256^4
  recordType : r.recordType < 256^2
  flags : r.flags < 256^2

variable {data : Mem} {header : ZiFsJournalHeader}

theorem ziFsDecodeJournalHeader_ok_iff : ziFsDecodeJournalHeader data = .ok header ↔
      (data.slice 0 4 = journalHeaderMagic ∧ ziReadU16Le data 4 = 1 ∧ ziReadU16Le data 6 = 128 ∧
        ziReadU32Le data 24 = 2) ∧
      ziReadU32Le data 124 = checksum data 124 ∧ header = journalHeaderOfBytes data ∧
      journalHeaderIsValid header = true := by
  simp only [ziFsDecodeJournalHeader,bind_ok_iff,failIf_ok_iff,
    pure_ok_iff,exists_const,ne_eq,not_not,not_or,Bool.not_eq_false]
  constructor
  · rintro ⟨h1,h2,h3,rfl⟩
    exact ⟨h1,h2,rfl,h3⟩
  · rintro ⟨h1,h2,rfl,h3⟩
    exact ⟨h1,h2,h3,rfl⟩

theorem ZiFsJournalHeader.fits_of_decode (h : ziFsDecodeJournalHeader data = .ok header) :
    header.Fits := by
  obtain ⟨-,-,rfl,-⟩ := ziFsDecodeJournalHeader_ok_iff.mp h
  constructor <;> exact readLe_lt _ _ _

theorem ziFsDecodeJournalHeader_journalHeaderBlock (hfits : header.Fits)
    (hvalid : journalHeaderIsValid header = true) :
    ziFsDecodeJournalHeader (journalHeaderBlock header).mem = .ok header := by
  obtain ⟨h1,h2,h3,h4,h5,h6,h7,h8,h9,h10⟩ := hfits
  have hbytes : ∀ i, i < 124 → (journalHeaderBlock header).mem i =
      journalHeaderFields header i := by
    intro i hi
    rw [journalHeaderBlock,Buffer.mem_ofMem_of_lt (by omega)]
    exact put_of_lt hi
  have hsum : ziReadU32Le (journalHeaderBlock header).mem 124 =
      checksum (journalHeaderBlock header).mem 124 := by
    rw [checksum_congr hbytes,ziReadU32Le,journalHeaderBlock,Buffer.readLe_ofMem (by omega)]
    exact readLe_put_self_of_lt (checksum_lt _ _)
  have hfields : journalHeaderOfBytes (journalHeaderBlock header).mem = header := by
    unfold journalHeaderOfBytes
    simp (disch := omega) only [ziReadU32Le,ziReadU64Le,readLe_agree hbytes]
    unfold journalHeaderFields
    simp (disch := omega) only [ziWriteU16Le,ziWriteU32Le,ziWriteU64Le,readLe_put_leBytes,
      readLe_put_self_of_lt]
  refine ziFsDecodeJournalHeader_ok_iff.mpr ⟨?_,hsum,hfields.symm,hvalid⟩
  simp (disch := omega) only [ziReadU16Le,ziReadU32Le,readLe_agree hbytes,slice_agree hbytes]
  unfold journalHeaderFields
  simp (disch := first | omega | decide) only [ziWriteU16Le,ziWriteU32Le,ziWriteU64Le,
    readLe_put_leBytes,readLe_put_self_of_lt,slice_put_of_disjoint,
    slice_put_self]
  simp

variable {record : ZiFsJournalRecord}

theorem ziFsDecodeJournalRecord_ok_iff : ziFsDecodeJournalRecord data = .ok record ↔
      (data.slice 0 4 = journalRecordMagic ∧ ziReadU16Le data 4 = 1 ∧
        ziReadU16Le data 6 = 128) ∧ ziReadU32Le data 12 ≤ 4096 ∧
      (ziCrc32c 0 (data.slice 128 (ziReadU32Le data 12))).toNat = ziReadU32Le data 64 ∧
      (journalRecordChecksum data (ziReadU32Le data 12)).toNat = ziReadU32Le data 124 ∧
      record = journalRecordOfBytes data ∧ journalRecordIsValid record = true := by
  simp only [ziFsDecodeJournalRecord,bind_ok_iff,failIf_ok_iff,
    pure_ok_iff,exists_const,ne_eq,not_not,not_or,not_lt,gt_iff_lt,
    Bool.not_eq_false]
  constructor
  · rintro ⟨h1,h2,h3,h4,h5,rfl⟩
    exact ⟨h1,h2,h3,h4,rfl,h5⟩
  · rintro ⟨h1,h2,h3,h4,rfl,h5⟩
    exact ⟨h1,h2,h3,h4,h5,rfl⟩

theorem journalRecordIsValid_payload (h : journalRecordIsValid record = true) :
    record.payload.length ≤ 4096 := by
  unfold journalRecordIsValid at h
  split at h
  · cases h
  · next hc =>
    simp only [not_or,gt_iff_lt,Nat.not_lt] at hc
    exact hc.2.2.2.2.2.2

theorem ziFsDecodeJournalRecord_journalRecordBytes (hfits : record.Fits)
    (hvalid : journalRecordIsValid record = true)
    (hdata : ∀ i, i < 128+record.payload.length → data i = journalRecordBytes record i) :
    ziFsDecodeJournalRecord data = .ok record := by
  have hpayload := journalRecordIsValid_payload hvalid
  obtain ⟨h1,h2,h3,h4,h5,h6,h7,h8,h9⟩ := hfits
  have hcrc : ∀ x : UInt32, x.toNat < 256^4 := fun x => x.toNat_lt
  have hfields : ∀ i, i < 124 ∨ 128 ≤ i → i < 128+record.payload.length →
      data i = journalRecordFields record i := by
    intro i hi hlt
    rw [hdata i hlt]
    rcases hi with hi | hi
    · exact put_of_lt hi
    · exact put_of_ge (by rw [length_leBytes]; omega)
  have hlow : ∀ i < 124, data i = journalRecordFields record i :=
    fun i hi => hfields i (.inl hi) (by omega)
  have hsize : ziReadU32Le data 12 = record.payload.length := by
    rw [ziReadU32Le,readLe_agree hlow (by omega)]
    unfold journalRecordFields
    simp (disch := omega) only [ziWriteU16Le,ziWriteU32Le,ziWriteU64Le,
      readLe_put_of_disjoint,readLe_put_self_of_lt]
  have hbody : data.slice 128 record.payload.length =
      (journalRecordFields record).slice 128 record.payload.length :=
    slice_congr fun i hi => hfields _ (by omega) (by omega)
  have hpay : (journalRecordFields record).slice 128 record.payload.length = record.payload :=
    slice_put_self rfl
  have hstored : ziReadU32Le data 124 =
      (journalRecordChecksum (journalRecordFields record) record.payload.length).toNat :=
    (readLe_congr fun i hi => hdata _ (by omega)).trans
      (readLe_put_self_of_lt (hcrc _))
  refine ziFsDecodeJournalRecord_ok_iff.mpr ⟨?_,by rw [hsize]; exact hpayload,?_,?_,?_,hvalid⟩
  · simp (disch := omega) only [ziReadU16Le,readLe_agree hlow,slice_agree hlow]
    unfold journalRecordFields
    simp (disch := first | omega | decide) only [ziWriteU16Le,ziWriteU32Le,ziWriteU64Le,
      readLe_put_of_disjoint,readLe_put_self_of_lt,
      slice_put_of_disjoint,slice_put_self]
    simp
  · rw [hsize,hbody,hpay,ziReadU32Le,readLe_agree hlow (by omega)]
    unfold journalRecordFields
    simp (disch := first | omega | exact hcrc _) only [ziWriteU32Le,readLe_put_of_disjoint,
      readLe_put_self_of_lt]
  · rw [hsize,hstored]
    unfold journalRecordChecksum
    rw [slice_agree hlow (by omega),hbody]
  · unfold journalRecordOfBytes
    rw [hsize,hbody,hpay]
    simp (disch := omega) only [ziReadU16Le,ziReadU32Le,ziReadU64Le,readLe_agree hlow]
    unfold journalRecordFields
    simp (disch := omega) only [ziWriteU16Le,ziWriteU32Le,ziWriteU64Le,
      readLe_put_of_disjoint,readLe_put_self_of_lt]

end Zizium
