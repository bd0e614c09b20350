import Zizium.Fs.Superblock

/-!
# File records

The fixed-size records of the file-record table in `kernel/fs/zifs/zifs.c`.  A record
keeps the extents in use; the unused inline extents of the on-disk form are zero.
-/

namespace Zizium

open Bytes BlockIO Mem Except List

variable {data data' : Mem}

abbrev fileTypeRegular : ℕ := 1
abbrev fileTypeDirectory : ℕ := 2
abbrev fileTypeDevice : ℕ := 4

abbrev inlineExtentCount : ℕ := 4
abbrev maxDirectoryBlocks : ℕ := 256

structure ZiFsExtent where
  logicalBlock : ℕ
  physicalBlock : ℕ
  blockCount : ℕ
  flags : ℕ
  reserved : ℕ
  deriving DecidableEq, Repr

def ZiFsExtent.unused : ZiFsExtent := ⟨0,0,0,0,0⟩

structure ZiFsFileRecord where
  fileId : ℕ
  parentFileId : ℕ
  flags : ℕ
  fileSize : ℕ
  allocatedSize : ℕ
  securityId : ℕ
  directoryBlock : ℕ
  createdTime : ℕ
  modifiedTime : ℕ
  changedTime : ℕ
  accessedTime : ℕ
  fileType : ℕ
  extents : List ZiFsExtent
  deriving DecidableEq, Repr

/-! ### Structural rules -/

/-- Walk the extents in order, checking that they continue each other; the result is the
number of blocks they cover. -/
def contiguousExtentBlocks (expectedLogicalBlock allocatedBlocks : ℕ) :
    List ZiFsExtent → Option ℕ
  | [] => some allocatedBlocks
  | extent :: extents =>
    if extent.blockCount = 0 ∨ extent.logicalBlock ≠ expectedLogicalBlock ∨ extent.flags ≠ 0 ∨
        extent.reserved ≠ 0 ∨ extent.blockCount > uint64Max-expectedLogicalBlock ∨
        extent.blockCount > uint64Max-allocatedBlocks then none
    else contiguousExtentBlocks (expectedLogicalBlock+extent.blockCount)
      (allocatedBlocks+extent.blockCount) extents

def directoryShapeIsValid (record : ZiFsFileRecord) : Bool :=
  if record.fileSize ≠ 0 ∨ record.directoryBlock = 0 ∨ record.allocatedSize%blockSize ≠ 0 then
    false
  else match contiguousExtentBlocks 1 0 record.extents with
    | none => false
    | some allocatedBlocks =>
      !decide (allocatedBlocks ≥ maxDirectoryBlocks ∨ allocatedBlocks > uint64Max/blockSize ∨
        record.allocatedSize ≠ allocatedBlocks*blockSize)

def regularShapeIsValid (record : ZiFsFileRecord) : Bool :=
  if record.directoryBlock ≠ 0 then false
  else if record.fileSize = 0 then
    decide (record.allocatedSize = 0 ∧ record.extents.length = 0)
  else if record.extents.length = 0 ∨ record.allocatedSize < record.fileSize ∨
      record.allocatedSize%blockSize ≠ 0 then false
  else match contiguousExtentBlocks 0 0 record.extents with
    | none => false
    | some allocatedBlocks =>
      !decide (allocatedBlocks > uint64Max/blockSize ∨
        record.allocatedSize ≠ allocatedBlocks*blockSize)

def validateFileRecordShape (record : ZiFsFileRecord) : Bool :=
  if record.fileId = 0 ∨ record.securityId = 0 ∨ record.fileType < fileTypeRegular ∨
      record.fileType > fileTypeDevice ∨ record.extents.length > inlineExtentCount then false
  else if record.fileType = fileTypeDirectory then directoryShapeIsValid record
  else if record.fileType ≠ fileTypeRegular then
    decide (record.fileSize = 0 ∧ record.allocatedSize = 0 ∧ record.extents.length = 0 ∧
      record.directoryBlock = 0)
  else regularShapeIsValid record

def Contiguous : (first : ℕ) → List ZiFsExtent → Prop
  | _, [] => True
  | first, extent :: extents =>
    0 < extent.blockCount ∧ extent.logicalBlock = first ∧ extent.flags = 0 ∧
      extent.reserved = 0 ∧ Contiguous (first+extent.blockCount) extents

def extentBlocks (extents : List ZiFsExtent) : ℕ := (extents.map ZiFsExtent.blockCount).sum

@[simp] theorem extentBlocks_nil : extentBlocks [] = 0 := rfl

@[simp] theorem extentBlocks_cons (e : ZiFsExtent) (es : List ZiFsExtent) :
    extentBlocks (e :: es) = e.blockCount+extentBlocks es := by simp [extentBlocks]

variable {extents : List ZiFsExtent}

theorem contiguousExtentBlocks_eq_some_iff {first allocated n : ℕ} (hle : allocated ≤ first)
    (hmax : first ≤ uint64Max) : contiguousExtentBlocks first allocated extents = some n ↔
      Contiguous first extents ∧ n = allocated+extentBlocks extents ∧
        first+extentBlocks extents ≤ uint64Max := by
  induction extents generalizing first allocated with
  | nil =>
    simp [contiguousExtentBlocks,Contiguous,eq_comm]
    omega
  | cons e es ih =>
    rw [contiguousExtentBlocks,Contiguous,extentBlocks_cons]
    split
    · next h =>
      constructor
      · intro h'
        cases h'
      · intro h'
        omega
    · next h =>
      rw [ih (by omega) (by omega)]
      constructor <;> intro h' <;> refine ⟨?_,?_,?_⟩ <;> simp_all <;> omega

variable {r : ZiFsFileRecord}

theorem directoryShapeIsValid_iff : directoryShapeIsValid r = true ↔
      r.fileSize = 0 ∧ r.directoryBlock ≠ 0 ∧ Contiguous 1 r.extents ∧
        extentBlocks r.extents < 256 ∧ r.allocatedSize = extentBlocks r.extents*4096 := by
  have hwalk := fun n => @contiguousExtentBlocks_eq_some_iff r.extents 1 0 n (by omega) (by decide)
  unfold directoryShapeIsValid blockSize maxDirectoryBlocks
  constructor
  · intro h
    split at h
    · cases h
    · next hhead =>
      split at h
      · cases h
      · next n hn =>
        obtain ⟨hc,rfl,-⟩ := (hwalk n).mp hn
        simp only [Nat.zero_add,Bool.not_eq_true',decide_eq_false_iff_not] at h
        push Not at h hhead
        exact ⟨hhead.1,hhead.2.1,hc,h.1,h.2.2⟩
  · rintro ⟨h1,h2,h3,h4,h5⟩
    rw [if_neg (by omega),(hwalk _).mpr ⟨h3,rfl,by unfold uint64Max; omega⟩]
    simp only [Nat.zero_add,Bool.not_eq_true',decide_eq_false_iff_not]
    unfold uint64Max
    omega

theorem regularShapeIsValid_iff : regularShapeIsValid r = true ↔
      r.directoryBlock = 0 ∧ Contiguous 0 r.extents ∧ r.fileSize ≤ r.allocatedSize ∧
        (r.fileSize = 0 → r.extents = []) ∧ r.allocatedSize = extentBlocks r.extents*4096 ∧
        r.allocatedSize ≤ uint64Max := by
  have hwalk := fun n => @contiguousExtentBlocks_eq_some_iff r.extents 0 0 n (by omega) (by decide)
  unfold regularShapeIsValid blockSize
  by_cases hdir : r.directoryBlock = 0
  swap
  · simp [hdir]
  rw [if_neg (by simpa using hdir)]
  by_cases hsize : r.fileSize = 0
  · rw [if_pos hsize,decide_eq_true_iff]
    constructor
    · rintro ⟨halloc,hlen⟩
      have hnil : r.extents = [] := length_eq_zero_iff.mp hlen
      exact ⟨hdir,by simp [hnil,Contiguous],by omega,fun _ => hnil,by simp [halloc,hnil],
        by simp [halloc]⟩
    · rintro ⟨-,-,-,hnil,halloc,-⟩
      simp [halloc,hnil hsize]
  rw [if_neg hsize]
  constructor
  · intro h
    split at h
    · cases h
    · next hhead =>
      split at h
      · cases h
      · next n hn =>
        obtain ⟨hc,rfl,-⟩ := (hwalk n).mp hn
        simp only [Nat.zero_add,Bool.not_eq_true',decide_eq_false_iff_not] at h
        push Not at h hhead
        refine ⟨hdir,hc,hhead.2.1,fun h => absurd h hsize,h.2,?_⟩
        omega
  · rintro ⟨-,hc,hle,-,halloc,hbound⟩
    have hne : r.extents.length ≠ 0 := by
      intro hlen
      simp only [length_eq_zero_iff.mp hlen,extentBlocks_nil] at halloc
      omega
    rw [if_neg (by omega),(hwalk _).mpr ⟨hc,rfl,by omega⟩]
    simp only [Nat.zero_add,Bool.not_eq_true',decide_eq_false_iff_not]
    omega

/-- The structural rules of a record, as the decoder enforces them. -/
structure ZiFsFileRecord.Shape (r : ZiFsFileRecord) : Prop where
  fileId : r.fileId ≠ 0
  securityId : r.securityId ≠ 0
  type : 1 ≤ r.fileType ∧ r.fileType ≤ 4
  count : r.extents.length ≤ 4
  allocated : r.allocatedSize = extentBlocks r.extents*4096
  bound : r.allocatedSize ≤ uint64Max
  directory : r.fileType = fileTypeDirectory → r.fileSize = 0 ∧ r.directoryBlock ≠ 0 ∧
    Contiguous 1 r.extents ∧ extentBlocks r.extents < 256
  special : r.fileType ≠ fileTypeRegular → r.fileType ≠ fileTypeDirectory →
    r.fileSize = 0 ∧ r.extents = [] ∧ r.directoryBlock = 0
  regular : r.fileType = fileTypeRegular → r.directoryBlock = 0 ∧ Contiguous 0 r.extents ∧
    r.fileSize ≤ r.allocatedSize ∧ (r.fileSize = 0 → r.extents = [])

theorem validateFileRecordShape_iff : validateFileRecordShape r = true ↔ r.Shape := by
  have hne : fileTypeRegular ≠ fileTypeDirectory := by decide
  unfold validateFileRecordShape inlineExtentCount
  split
  · next hhead =>
    refine ⟨nofun,fun h => ?_⟩
    have h1 := h.fileId
    have h2 := h.securityId
    have h3 := h.type
    have h4 := h.count
    unfold fileTypeRegular fileTypeDevice at hhead
    omega
  next hhead =>
  push Not at hhead
  obtain ⟨h1,h2,h3,h4,h5⟩ := hhead
  split
  · next hdir =>
    rw [directoryShapeIsValid_iff]
    constructor
    · rintro ⟨h6,h7,h8,h9,h10⟩
      exact ⟨h1,h2,⟨h3,h4⟩,h5,h10,by unfold uint64Max; omega,fun _ => ⟨h6,h7,h8,h9⟩,
        fun _ h => absurd hdir h,fun h => absurd (h.symm.trans hdir) hne⟩
    · intro h
      obtain ⟨h6,h7,h8,h9⟩ := h.directory hdir
      exact ⟨h6,h7,h8,h9,h.allocated⟩
  next hdir =>
  split
  · next hreg =>
    rw [decide_eq_true_iff]
    constructor
    · rintro ⟨h6,h7,h8,h9⟩
      have hnil : r.extents = [] := length_eq_zero_iff.mp h8
      exact ⟨h1,h2,⟨h3,h4⟩,h5,by simp [h7,hnil],by simp [h7],fun h => absurd h hdir,
        fun _ _ => ⟨h6,hnil,h9⟩,fun h => absurd h hreg⟩
    · intro h
      obtain ⟨h6,h7,h8⟩ := h.special hreg hdir
      exact ⟨h6,by simp [h.allocated,h7],by simp [h7],h8⟩
  · next hreg =>
    rw [not_not] at hreg
    rw [regularShapeIsValid_iff]
    constructor
    · rintro ⟨h6,h7,h8,h9,h10,h11⟩
      exact ⟨h1,h2,⟨h3,h4⟩,h5,h10,h11,fun h => absurd h hdir,fun h => absurd hreg h,
        fun _ => ⟨h6,h7,h8,h9⟩⟩
    · intro h
      obtain ⟨h6,h7,h8,h9⟩ := h.regular hreg
      exact ⟨h6,h7,h8,h9,h.allocated,h.bound⟩

/-! ### Encoding -/

def recordMagic : List UInt8 := [0x5a,0x49,0x46,0x52]

def writeExtent (bytes : Mem) (offset : ℕ) (extent : ZiFsExtent) : Mem :=
  let bytes := ziWriteU64Le bytes offset extent.logicalBlock
  let bytes := ziWriteU64Le bytes (offset+8) extent.physicalBlock
  let bytes := ziWriteU64Le bytes (offset+16) extent.blockCount
  let bytes := ziWriteU32Le bytes (offset+24) extent.flags
  ziWriteU32Le bytes (offset+28) extent.reserved

def readExtent (data : Mem) (offset : ℕ) : ZiFsExtent where
  logicalBlock := ziReadU64Le data offset
  physicalBlock := ziReadU64Le data (offset+8)
  blockCount := ziReadU64Le data (offset+16)
  flags := ziReadU32Le data (offset+24)
  reserved := ziReadU32Le data (offset+28)

def ZiFsFileRecord.extent (record : ZiFsFileRecord) (index : ℕ) : ZiFsExtent :=
  record.extents.getD index .unused

/-- The 252 bytes that precede the checksum. -/
def fileRecordFields (record : ZiFsFileRecord) : Mem :=
  let bytes := zero.put 0 recordMagic
  let bytes := ziWriteU16Le bytes 4 1
  let bytes := ziWriteU16Le bytes 6 record.fileType
  let bytes := ziWriteU64Le bytes 8 record.fileId
  let bytes := ziWriteU64Le bytes 16 record.parentFileId
  let bytes := ziWriteU64Le bytes 24 record.flags
  let bytes := ziWriteU64Le bytes 32 record.fileSize
  let bytes := ziWriteU64Le bytes 40 record.allocatedSize
  let bytes := ziWriteU64Le bytes 48 record.securityId
  let bytes := ziWriteU32Le bytes 56 record.extents.length
  let bytes := writeExtent bytes 64 (record.extent 0)
  let bytes := writeExtent bytes 96 (record.extent 1)
  let bytes := writeExtent bytes 128 (record.extent 2)
  let bytes := writeExtent bytes 160 (record.extent 3)
  let bytes := ziWriteU64Le bytes 192 record.createdTime
  let bytes := ziWriteU64Le bytes 200 record.modifiedTime
  let bytes := ziWriteU64Le bytes 208 record.changedTime
  let bytes := ziWriteU64Le bytes 216 record.accessedTime
  ziWriteU64Le bytes 224 record.directoryBlock

def fileRecordBytes (record : ZiFsFileRecord) : List UInt8 :=
  let bytes := fileRecordFields record
  (ziWriteU32Le bytes 252 (checksum bytes 252)).slice 0 fileRecordSize

def ziFsEncodeFileRecord (record : ZiFsFileRecord) : Result (List UInt8) := do
  failIf (validateFileRecordShape record = false) .invalidArgument
  pure (fileRecordBytes record)

/-- All four inline extents as stored. -/
def inlineExtents (data : Mem) : List ZiFsExtent :=
  [readExtent data 64,readExtent data 96,readExtent data 128,readExtent data 160]

/-- The fields stored in a record, before any check of their values. -/
def fileRecordOfBytes (data : Mem) : ZiFsFileRecord where
  fileId := ziReadU64Le data 8
  parentFileId := ziReadU64Le data 16
  flags := ziReadU64Le data 24
  fileSize := ziReadU64Le data 32
  allocatedSize := ziReadU64Le data 40
  securityId := ziReadU64Le data 48
  directoryBlock := ziReadU64Le data 224
  createdTime := ziReadU64Le data 192
  modifiedTime := ziReadU64Le data 200
  changedTime := ziReadU64Le data 208
  accessedTime := ziReadU64Le data 216
  fileType := ziReadU16Le data 6
  extents := (inlineExtents data).take (ziReadU32Le data 56)

def ziFsDecodeFileRecord (data : Mem) : Result ZiFsFileRecord := do
  failIf (data.slice 0 4 ≠ recordMagic ∨ ziReadU16Le data 4 ≠ 1) .corruptFilesystem
  failIf (ziReadU32Le data 252 ≠ checksum data 252) .checksumMismatch
  let record := fileRecordOfBytes data
  failIf (ziReadU32Le data 56 > inlineExtentCount) .corruptFilesystem
  failIf (record.fileId = 0 ∨ record.fileType < fileTypeRegular ∨
    record.fileType > fileTypeDevice) .corruptFilesystem
  -- the inline extents past the count must be zero
  failIf (((inlineExtents data).drop (ziReadU32Le data 56)).any (· ≠ .unused))
    .corruptFilesystem
  failIf (validateFileRecordShape record = false) .corruptFilesystem
  pure record

/-- The values of the fields are in the ranges of their C types. -/
structure ZiFsExtent.Fits (e : ZiFsExtent) : Prop where
  logicalBlock : e.logicalBlock < 256^8
  physicalBlock : e.physicalBlock < 256^8
  blockCount : e.blockCount < 256^8
  flags : e.flags < 256^4
  reserved : e.reserved < 256^4

structure ZiFsFileRecord.Fits (r : ZiFsFileRecord) : Prop where
  fileId : r.fileId < 256^8
  parentFileId : r.parentFileId < 256^8
  flags : r.flags < 256^8
  fileSize : r.fileSize < 256^8
  allocatedSize : r.allocatedSize < 256^8
  securityId : r.securityId < 256^8
  directoryBlock : r.directoryBlock < 256^8
  createdTime : r.createdTime < 256^8
  modifiedTime : r.modifiedTime < 256^8
  changedTime : r.changedTime < 256^8
  accessedTime : r.accessedTime < 256^8
  extents : ∀ e ∈ r.extents, e.Fits

theorem readExtent_fits (data : Mem) (off : ℕ) : (readExtent data off).Fits :=
  ⟨readLe_lt _ _ _,readLe_lt _ _ _,readLe_lt _ _ _,readLe_lt _ _ _,readLe_lt _ _ _⟩

theorem fileRecordOfBytes_fits (data : Mem) : (fileRecordOfBytes data).Fits := by
  constructor <;> try exact readLe_lt _ _ _
  intro e he
  have hmem := mem_of_mem_take he
  simp only [inlineExtents,mem_cons,not_mem_nil,or_false] at hmem
  rcases hmem with rfl | rfl | rfl | rfl <;> exact readExtent_fits _ _

theorem ziFsDecodeFileRecord_ok_iff : ziFsDecodeFileRecord data = .ok r ↔
      data.slice 0 4 = recordMagic ∧ ziReadU16Le data 4 = 1 ∧
        ziReadU32Le data 252 = checksum data 252 ∧ ziReadU32Le data 56 ≤ 4 ∧
        (∀ e ∈ (inlineExtents data).drop (ziReadU32Le data 56), e = .unused) ∧
        r = fileRecordOfBytes data ∧ r.Shape := by
  simp only [ziFsDecodeFileRecord,bind_ok_iff,failIf_ok_iff,pure_ok_iff,
    exists_const,ne_eq,not_not,not_or,not_lt,gt_iff_lt,inlineExtentCount,
    Bool.not_eq_false,validateFileRecordShape_iff,Bool.not_eq_true,any_eq_false,
    decide_eq_true_eq]
  constructor
  · rintro ⟨⟨h1,h2⟩,h3,h4,-,h5,h6,rfl⟩
    exact ⟨h1,h2,h3,h4,h5,rfl,h6⟩
  · rintro ⟨h1,h2,h3,h4,h5,rfl,h6⟩
    exact ⟨⟨h1,h2⟩,h3,h4,⟨h6.fileId,h6.type.1,h6.type.2⟩,h5,h6,rfl⟩

theorem ZiFsFileRecord.extent_fits (h : r.Fits) (i : ℕ) : (r.extent i).Fits := by
  unfold ZiFsFileRecord.extent
  by_cases hi : i < r.extents.length
  · rw [getD_eq_getElem?_getD,getElem?_eq_getElem hi]
    exact h.extents _ (getElem_mem hi)
  · rw [getD_eq_getElem?_getD,getElem?_eq_none (by omega)]
    exact ⟨by decide,by decide,by decide,by decide,by decide⟩

variable {bytes : Mem} {e : ZiFsExtent}

theorem readExtent_writeExtent_self {off : ℕ} (h : e.Fits) :
    readExtent (writeExtent bytes off e) off = e := by
  obtain ⟨h1,h2,h3,h4,h5⟩ := h
  unfold readExtent writeExtent
  simp (disch := omega) only [ziReadU64Le,ziReadU32Le,ziWriteU64Le,ziWriteU32Le,
    readLe_put_of_disjoint,readLe_put_self_of_lt]

theorem readLe_writeExtent {off pos n : ℕ} (h : pos+n ≤ off ∨ off+32 ≤ pos) :
    (writeExtent bytes off e).readLe n pos = bytes.readLe n pos := by
  unfold writeExtent
  simp (disch := (rw [length_leBytes]; omega)) only [ziWriteU64Le,ziWriteU32Le,
    readLe_put_of_disjoint]

theorem slice_writeExtent {off pos n : ℕ} (h : pos+n ≤ off ∨ off+32 ≤ pos) :
    (writeExtent bytes off e).slice pos n = bytes.slice pos n := by
  unfold writeExtent
  simp (disch := (rw [length_leBytes]; omega)) only [ziWriteU64Le,ziWriteU32Le,
    slice_put_of_disjoint]

theorem readExtent_congr {off : ℕ} (h : ∀ i, i < 32 → data (off+i) = data' (off+i)) :
    readExtent data off = readExtent data' off := by
  unfold readExtent
  simp (disch := omega) only [ziReadU64Le,ziReadU32Le,readLe_window h]

theorem readExtent_put_of_disjoint {off pos : ℕ} {l : List UInt8}
    (h : pos+32 ≤ off ∨ off+l.length ≤ pos) :
    readExtent (bytes.put off l) pos = readExtent bytes pos := by
  refine readExtent_congr fun i hi => ?_
  rcases h with h | h
  · exact put_of_lt (by omega)
  · exact put_of_ge (by omega)

theorem readExtent_writeExtent_of_disjoint {off pos : ℕ} (h : pos+32 ≤ off ∨ off+32 ≤ pos) :
    readExtent (writeExtent bytes off e) pos = readExtent bytes pos := by
  unfold writeExtent
  simp (disch := (rw [length_leBytes]; omega)) only [ziWriteU64Le,ziWriteU32Le,
    readExtent_put_of_disjoint]

theorem split_getD_four {l : List ZiFsExtent} (h : l.length ≤ 4) :
    let four := [l.getD 0 .unused,l.getD 1 .unused,l.getD 2 .unused,l.getD 3 .unused]
    four.take l.length = l ∧ ∀ e ∈ four.drop l.length, e = .unused := by
  match l, h with
  | [], _ | [_], _ | [_,_], _ | [_,_,_], _ | [_,_,_,_], _ => simp

theorem inlineExtents_fields (h : r.Fits) :
    inlineExtents (fileRecordFields r) = [r.extent 0,r.extent 1,r.extent 2,r.extent 3] := by
  have h0 := r.extent_fits h 0
  have h1 := r.extent_fits h 1
  have h2 := r.extent_fits h 2
  have h3 := r.extent_fits h 3
  unfold inlineExtents fileRecordFields
  simp (disch := first | omega | assumption) only [ziWriteU64Le,readExtent_put_of_disjoint,
    readExtent_writeExtent_of_disjoint,readExtent_writeExtent_self]

theorem read_extentCount (hshape : r.Shape) :
    ziReadU32Le (fileRecordFields r) 56 = r.extents.length := by
  have hcount := hshape.count
  unfold fileRecordFields
  simp (disch := omega) only [ziReadU32Le,ziWriteU32Le,ziWriteU64Le,
    readLe_put_of_disjoint,readLe_writeExtent,readLe_put_self_of_lt]

theorem fileRecordOfBytes_fields (hfits : r.Fits) (hshape : r.Shape) :
    fileRecordOfBytes (fileRecordFields r) = r := by
  have htype : r.fileType < 256^2 := by have := hshape.type; omega
  unfold fileRecordOfBytes
  rw [inlineExtents_fields hfits,read_extentCount hshape]
  unfold ZiFsFileRecord.extent
  rw [(split_getD_four hshape.count).1]
  obtain ⟨h1,h2,h3,h4,h5,h6,h7,h8,h9,h10,h11,-⟩ := hfits
  unfold fileRecordFields
  simp (disch := omega) only [ziReadU16Le,ziReadU64Le,ziWriteU16Le,ziWriteU32Le,ziWriteU64Le,
    readLe_writeExtent,readLe_put_of_disjoint,readLe_put_self_of_lt]

theorem inlineExtents_congr (h : ∀ i, i < 252 → data i = data' i) :
    inlineExtents data = inlineExtents data' := by
  have hextent : ∀ {off}, off+32 ≤ 252 → readExtent data off = readExtent data' off :=
    fun hle => readExtent_congr fun i hi => h _ (by omega)
  unfold inlineExtents
  simp (disch := omega) only [hextent]

theorem fileRecordOfBytes_congr (h : ∀ i, i < 252 → data i = data' i) :
    fileRecordOfBytes data = fileRecordOfBytes data' := by
  unfold fileRecordOfBytes
  rw [inlineExtents_congr h]
  simp (disch := omega) only [ziReadU16Le,ziReadU64Le,ziReadU32Le,readLe_agree h]

theorem ziFsDecodeFileRecord_congr (h : ∀ i, i < 256 → data i = data' i) :
    ziFsDecodeFileRecord data = ziFsDecodeFileRecord data' := by
  have h252 : ∀ i, i < 252 → data i = data' i := fun i hi => h i (by omega)
  have hslice : data.slice 0 4 = data'.slice 0 4 := slice_agree h (by omega)
  have hversion : ziReadU16Le data 4 = ziReadU16Le data' 4 := readLe_agree h (by omega)
  have hstored : ziReadU32Le data 252 = ziReadU32Le data' 252 := readLe_agree h (by omega)
  have hcount : ziReadU32Le data 56 = ziReadU32Le data' 56 := readLe_agree h (by omega)
  unfold ziFsDecodeFileRecord
  rw [hslice,hversion,hstored,checksum_congr h252,hcount,inlineExtents_congr h252,
    fileRecordOfBytes_congr h252]

theorem ziFsDecodeFileRecord_fileRecordBytes (hdata : data.slice 0 256 = fileRecordBytes r)
    (hfits : r.Fits) (hshape : r.Shape) : ziFsDecodeFileRecord data = .ok r := by
  have hbytes := slice_eq_iff.mp hdata
  simp only [Nat.zero_add] at hbytes
  have hfields : ∀ i, i < 252 → data i = fileRecordFields r i := fun i hi =>
    (hbytes i (by omega)).trans (put_of_lt hi)
  have hcount := hshape.count
  have hmagic : recordMagic.length = 4 := rfl
  have hnum : ziReadU32Le data 56 = r.extents.length :=
    (readLe_agree hfields (by omega)).trans (read_extentCount hshape)
  refine ziFsDecodeFileRecord_ok_iff.mpr ⟨?_,?_,?_,by omega,?_,?_,hshape⟩
  · rw [slice_agree hfields (by omega)]
    unfold fileRecordFields
    simp (disch := omega) only [ziWriteU16Le,ziWriteU32Le,ziWriteU64Le,slice_writeExtent,
      slice_put_of_disjoint,slice_put_self]
  · rw [ziReadU16Le,readLe_agree hfields (by omega)]
    unfold fileRecordFields
    simp (disch := omega) only [ziWriteU16Le,ziWriteU32Le,ziWriteU64Le,readLe_writeExtent,
      readLe_put_of_disjoint,readLe_put_self_of_lt]
  · have hstored : data.readLe 4 252 = (ziWriteU32Le (fileRecordFields r) 252
        (checksum (fileRecordFields r) 252)).readLe 4 252 :=
      readLe_congr fun i hi => hbytes (252+i) (by omega)
    rw [checksum_congr hfields,ziReadU32Le,hstored]
    exact readLe_put_self_of_lt (checksum_lt _ _)
  · rw [inlineExtents_congr hfields,inlineExtents_fields hfits,hnum]
    exact (split_getD_four hcount).2
  · rw [fileRecordOfBytes_congr hfields,fileRecordOfBytes_fields hfits hshape]

theorem ZiFsFileRecord.fits_of_decode (h : ziFsDecodeFileRecord data = .ok r) : r.Fits := by
  obtain ⟨-,-,-,-,-,rfl,-⟩ := ziFsDecodeFileRecord_ok_iff.mp h
  exact fileRecordOfBytes_fits data

theorem ZiFsFileRecord.shape_of_decode (h : ziFsDecodeFileRecord data = .ok r) : r.Shape :=
  (ziFsDecodeFileRecord_ok_iff.mp h).2.2.2.2.2.2

theorem ziFsEncodeFileRecord_ok_iff {bytes : List UInt8} :
    ziFsEncodeFileRecord r = .ok bytes ↔ r.Shape ∧ bytes = fileRecordBytes r := by
  simp only [ziFsEncodeFileRecord,bind_ok_iff,failIf_ok_iff,pure_ok_iff,
    exists_const,Bool.not_eq_false,validateFileRecordShape_iff]

@[simp] theorem length_fileRecordBytes (r : ZiFsFileRecord) : (fileRecordBytes r).length = 256 := by
  simp [fileRecordBytes,fileRecordSize]

/-! ### Records of a volume -/

def extentOverlapsMetadata (sb : ZiFsSuperblock) (firstBlock blockCount : ℕ) : Bool :=
  rangesOverlap firstBlock blockCount 0 1 ||
    sb.tables.any (fun table => rangesOverlap firstBlock blockCount table.1 table.2) ||
    rangesOverlap firstBlock blockCount sb.backupSuperblock 1

def validateFileRecordExtents (sb : ZiFsSuperblock) : List ZiFsExtent → Bool
  | [] => true
  | extent :: extents =>
    !decide (extent.physicalBlock ≥ sb.totalBlocks ∨
        extent.blockCount > sb.totalBlocks-extent.physicalBlock) &&
      !extentOverlapsMetadata sb extent.physicalBlock extent.blockCount &&
      extents.all (fun other => !rangesOverlap extent.physicalBlock extent.blockCount
        other.physicalBlock other.blockCount) &&
      validateFileRecordExtents sb extents

def ziFsValidateFileRecord (sb : ZiFsSuperblock) (record : ZiFsFileRecord) : Result Unit := do
  failIf (validateFileRecordShape record = false) .corruptFilesystem
  if record.fileType = fileTypeDirectory then do
    failIf (record.directoryBlock < sb.directoryTableStart ∨
      record.directoryBlock ≥ sb.directoryTableStart+sb.directoryTableBlocks ∨
      (record.extents.length ≠ 0 ∧ ¬sb.UsesDirectoryExtents)) .corruptFilesystem
    failIf (validateFileRecordExtents sb record.extents = false) .corruptFilesystem
  else if record.fileType ≠ fileTypeRegular then pure ()
  else failIf (validateFileRecordExtents sb record.extents = false) .corruptFilesystem

def ZiFsExtent.Covers (e : ZiFsExtent) (block : ℕ) : Prop :=
  e.physicalBlock ≤ block ∧ block < e.physicalBlock+e.blockCount

def ZiFsSuperblock.IsMetadata (sb : ZiFsSuperblock) (block : ℕ) : Prop :=
  block = 0 ∨ block = sb.backupSuperblock ∨ ∃ t ∈ sb.tables, t.1 ≤ block ∧ block < t.1+t.2

/-- A record that passes validation on a volume. -/
structure ZiFsFileRecord.ValidOn (sb : ZiFsSuperblock) (r : ZiFsFileRecord) : Prop where
  shape : r.Shape
  directory : r.fileType = fileTypeDirectory → sb.directoryTableStart ≤ r.directoryBlock ∧
    r.directoryBlock < sb.directoryTableStart+sb.directoryTableBlocks ∧
    (r.extents ≠ [] → sb.UsesDirectoryExtents)
  inside : ∀ e ∈ r.extents, e.physicalBlock+e.blockCount ≤ sb.totalBlocks
  data : ∀ e ∈ r.extents, ∀ b, e.Covers b → ¬sb.IsMetadata b
  disjoint : r.extents.Pairwise fun e f => ∀ b, e.Covers b → ¬f.Covers b

variable {sb : ZiFsSuperblock}

theorem extentOverlapsMetadata_eq_false_iff {first count : ℕ} :
    extentOverlapsMetadata sb first count = false ↔
      ∀ b, first ≤ b → b < first+count → ¬sb.IsMetadata b := by
  simp only [extentOverlapsMetadata,Bool.or_eq_false_iff,any_eq_false,Bool.not_eq_true,
    rangesOverlap_eq_false_iff]
  constructor
  · rintro ⟨⟨hzero,htables⟩,hbackup⟩ b h₁ h₂ (rfl | rfl | ⟨t,ht,h₃,h₄⟩)
    · exact hzero 0 h₁ h₂ (by omega) (by omega)
    · exact hbackup _ h₁ h₂ (by omega) (by omega)
    · exact htables t ht b h₁ h₂ h₃ h₄
  · intro h
    refine ⟨⟨fun x h₁ h₂ _ h₄ => h x h₁ h₂ (.inl (by omega)),fun t ht x h₁ h₂ h₃ h₄ =>
      h x h₁ h₂ (.inr (.inr ⟨t,ht,h₃,h₄⟩))⟩,fun x h₁ h₂ h₃ h₄ =>
      h x h₁ h₂ (.inr (.inl (by omega)))⟩

theorem validateFileRecordExtents_iff : validateFileRecordExtents sb extents = true ↔
      (∀ e ∈ extents, e.physicalBlock < sb.totalBlocks ∧
        e.physicalBlock+e.blockCount ≤ sb.totalBlocks) ∧
      (∀ e ∈ extents, ∀ b, e.Covers b → ¬sb.IsMetadata b) ∧
      extents.Pairwise fun e f => ∀ b, e.Covers b → ¬f.Covers b := by
  induction extents with
  | nil => simp [validateFileRecordExtents]
  | cons e es ih =>
    simp only [validateFileRecordExtents,Bool.and_eq_true,Bool.not_eq_true',
      decide_eq_false_iff_not,not_or,not_le,not_lt,ge_iff_le,gt_iff_lt,
      extentOverlapsMetadata_eq_false_iff,all_eq_true,rangesOverlap_eq_false_iff,ih,
      forall_mem_cons,pairwise_cons]
    constructor
    · rintro ⟨⟨⟨⟨h1,h2⟩,h3⟩,h4⟩,h5,h6,h7⟩
      exact ⟨⟨⟨h1,by omega⟩,h5⟩,⟨fun b hb => h3 b hb.1 hb.2,h6⟩,
        fun f hf b he hb => h4 f hf b he.1 he.2 hb.1 hb.2,h7⟩
    · rintro ⟨⟨⟨h1,h2⟩,h5⟩,⟨h3,h6⟩,h4,h7⟩
      exact ⟨⟨⟨⟨h1,by omega⟩,fun b hb1 hb2 => h3 b ⟨hb1,hb2⟩⟩,
        fun f hf b h₁ h₂ h₃ h₄ => h4 f hf b ⟨h₁,h₂⟩ ⟨h₃,h₄⟩⟩,h5,h6,h7⟩

theorem Contiguous.blockCount_pos {first : ℕ} (h : Contiguous first extents) (he : e ∈ extents) :
    0 < e.blockCount := by
  induction extents generalizing first with
  | nil => cases he
  | cons f es ih =>
    rcases mem_cons.mp he with rfl | he
    · exact h.1
    · exact ih h.2.2.2.2 he

theorem ZiFsFileRecord.Shape.blockCount_pos (h : r.Shape) (he : e ∈ r.extents) :
    0 < e.blockCount := by
  by_cases hdir : r.fileType = fileTypeDirectory
  · exact (h.directory hdir).2.2.1.blockCount_pos he
  · by_cases hreg : r.fileType = fileTypeRegular
    · exact (h.regular hreg).2.1.blockCount_pos he
    · rw [(h.special hreg hdir).2.1] at he
      cases he

theorem ziFsValidateFileRecord_ok_iff {u : Unit} :
    ziFsValidateFileRecord sb r = .ok u ↔ r.ValidOn sb := by
  simp only [ziFsValidateFileRecord,bind_ok_iff,failIf_ok_iff,exists_const,
    Bool.not_eq_false,validateFileRecordShape_iff]
  constructor
  · rintro ⟨hshape,h⟩
    split at h
    · next hdir =>
      simp only [bind_ok_iff,failIf_ok_iff,exists_const,Bool.not_eq_false,
        validateFileRecordExtents_iff] at h
      obtain ⟨hd,hin,hmeta,hpair⟩ := h
      push Not at hd
      refine ⟨hshape,fun _ => ⟨hd.1,hd.2.1,fun hne => hd.2.2 ?_⟩,fun e he => (hin e he).2,hmeta,
        hpair⟩
      exact fun h0 => hne (length_eq_zero_iff.mp h0)
    · next hdir =>
      split at h
      · next hreg =>
        have hnil := (hshape.special hreg hdir).2.1
        exact ⟨hshape,fun h => absurd h hdir,by simp [hnil],by simp [hnil],by simp [hnil]⟩
      · next hreg =>
        simp only [failIf_ok_iff,Bool.not_eq_false,validateFileRecordExtents_iff] at h
        exact ⟨hshape,fun h => absurd h hdir,fun e he => (h.1 e he).2,h.2.1,h.2.2⟩
  · rintro ⟨hshape,hd,hin,hmeta,hpair⟩
    have hin' : ∀ e ∈ r.extents, e.physicalBlock < sb.totalBlocks ∧
        e.physicalBlock+e.blockCount ≤ sb.totalBlocks := by
      intro e he
      have := hshape.blockCount_pos he
      have := hin e he
      omega
    refine ⟨hshape,?_⟩
    split
    · next hdir =>
      simp only [bind_ok_iff,failIf_ok_iff,exists_const,Bool.not_eq_false,
        validateFileRecordExtents_iff]
      refine ⟨?_,hin',hmeta,hpair⟩
      obtain ⟨h1,h2,h3⟩ := hd hdir
      push Not
      exact ⟨h1,h2,fun hne => h3 fun hnil => hne (by simp [hnil])⟩
    · split
      · rfl
      · simp only [failIf_ok_iff,Bool.not_eq_false,validateFileRecordExtents_iff]
        exact ⟨hin',hmeta,hpair⟩

end Zizium
