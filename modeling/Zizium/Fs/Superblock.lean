import Zizium.Unicode

/-!
# Superblocks

The volume descriptor of `kernel/fs/zifs/zifs.c`: its fields, the rules its block ranges
and state flags obey, and its 256-byte encoding.
-/

namespace Zizium

open Bytes BlockIO Mem Except

variable {i x : ℕ} {t : ℕ × ℕ} {data : Mem}

abbrev blockSize : ℕ := 4096

abbrev Block := Buffer 4096

abbrev fileRecordSize : ℕ := 256
abbrev superblockSize : ℕ := 256
abbrev recordsPerBlock : ℕ := 16
abbrev bitsPerBitmapBlock : ℕ := 32768
abbrev maxVolumeNameBytes : ℕ := 64
abbrev maximumSecurityTableBlocks : ℕ := 16

abbrev featureJournal : ℕ := 1
abbrev featureSecurity : ℕ := 2
abbrev featureDirectoryExtents : ℕ := 4
abbrev featureCleanUnmount : ℕ := 8
abbrev featuresSupported : ℕ := 15

abbrev stateNone : ℕ := 0
abbrev stateTransactionDirty : ℕ := 1
abbrev stateMounted : ℕ := 2
abbrev stateSupported : ℕ := 3

structure ZiFsSuperblock where
  formatMajor : ℕ
  formatMinor : ℕ
  blockShift : ℕ
  checksumType : ℕ
  compatibleFeatures : ℕ
  readOnlyCompatibleFeatures : ℕ
  incompatibleFeatures : ℕ
  volumeUuid : List UInt8
  generation : ℕ
  totalBlocks : ℕ
  rootRecordIndex : ℕ
  recordTableStart : ℕ
  recordTableBlocks : ℕ
  directoryTableStart : ℕ
  directoryTableBlocks : ℕ
  allocationBitmapStart : ℕ
  allocationBitmapBlocks : ℕ
  journalStart : ℕ
  journalBlocks : ℕ
  securityTableStart : ℕ
  securityTableBlocks : ℕ
  backupSuperblock : ℕ
  lastCommittedTransaction : ℕ
  stateFlags : ℕ
  volumeName : List UInt8
  deriving DecidableEq, Repr

variable {sb : ZiFsSuperblock}

/-! ### Block ranges and state flags -/

def rangesOverlap (firstStart firstCount secondStart secondCount : ℕ) : Bool :=
  if firstCount = 0 ∨ secondCount = 0 then false
  else if firstStart ≤ secondStart then decide (firstCount > secondStart-firstStart)
  else decide (secondCount > firstStart-secondStart)

theorem rangesOverlap_eq_false_iff {a n b m : ℕ} :
    rangesOverlap a n b m = false ↔ ∀ x, a ≤ x → x < a+n → b ≤ x → x < b+m → False := by
  unfold rangesOverlap
  constructor
  · intro h x h1 h2 h3 h4
    split at h
    · omega
    · split at h <;> simp at h <;> omega
  · intro h
    split
    · rfl
    · split
      · rw [decide_eq_false_iff_not]
        intro hlt
        exact h b (by omega) (by omega) (by omega) (by omega)
      · rw [decide_eq_false_iff_not]
        intro hlt
        exact h a (by omega) (by omega) (by omega) (by omega)

namespace ZiFsSuperblock

def tables (sb : ZiFsSuperblock) : List (ℕ × ℕ) :=
  [(sb.recordTableStart, sb.recordTableBlocks),(sb.directoryTableStart, sb.directoryTableBlocks),
    (sb.allocationBitmapStart, sb.allocationBitmapBlocks),
    (sb.journalStart, sb.journalBlocks),
    (sb.securityTableStart, sb.securityTableBlocks)]

def UsesJournal (sb : ZiFsSuperblock) : Prop := sb.incompatibleFeatures &&& featureJournal ≠ 0

def UsesSecurity (sb : ZiFsSuperblock) : Prop := sb.incompatibleFeatures &&& featureSecurity ≠ 0

def UsesDirectoryExtents (sb : ZiFsSuperblock) : Prop :=
  sb.incompatibleFeatures &&& featureDirectoryExtents ≠ 0

def UsesCleanUnmount (sb : ZiFsSuperblock) : Prop :=
  sb.incompatibleFeatures &&& featureCleanUnmount ≠ 0

instance (sb : ZiFsSuperblock) : Decidable sb.UsesJournal := inferInstanceAs (Decidable (_ ≠ _))
instance (sb : ZiFsSuperblock) : Decidable sb.UsesSecurity := inferInstanceAs (Decidable (_ ≠ _))
instance (sb : ZiFsSuperblock) : Decidable sb.UsesDirectoryExtents :=
  inferInstanceAs (Decidable (_ ≠ _))
instance (sb : ZiFsSuperblock) : Decidable sb.UsesCleanUnmount :=
  inferInstanceAs (Decidable (_ ≠ _))

end ZiFsSuperblock

/-- The pairwise comparison of tables, each also compared with both superblocks. -/
def tablesAreDisjoint (backup : ℕ) : List (ℕ × ℕ) → Bool
  | [] => true
  | table :: tables =>
    !rangesOverlap table.1 table.2 0 1 && !rangesOverlap table.1 table.2 backup 1 &&
      tables.all (fun other => !rangesOverlap table.1 table.2 other.1 other.2) &&
      tablesAreDisjoint backup tables

def superblockRangesAreValid (sb : ZiFsSuperblock) : Bool :=
  !decide (sb.totalBlocks < 2 ∨ sb.backupSuperblock ≠ sb.totalBlocks-1 ∨
    sb.recordTableStart ≥ sb.totalBlocks ∨ sb.recordTableBlocks = 0 ∨
    sb.recordTableBlocks > sb.totalBlocks-sb.recordTableStart ∨
    sb.directoryTableStart ≥ sb.totalBlocks ∨ sb.directoryTableBlocks = 0 ∨
    sb.directoryTableBlocks > sb.totalBlocks-sb.directoryTableStart ∨
    sb.allocationBitmapStart ≥ sb.totalBlocks ∨ sb.allocationBitmapBlocks = 0 ∨
    sb.allocationBitmapBlocks > sb.totalBlocks-sb.allocationBitmapStart ∨
    sb.journalStart ≥ sb.totalBlocks ∨ sb.journalBlocks > sb.totalBlocks-sb.journalStart ∨
    sb.securityTableStart ≥ sb.totalBlocks ∨
    sb.securityTableBlocks > sb.totalBlocks-sb.securityTableStart ∨
    (sb.UsesSecurity ∧
      (sb.securityTableBlocks = 0 ∨ sb.securityTableBlocks > maximumSecurityTableBlocks)) ∨
    sb.allocationBitmapBlocks < 1+(sb.totalBlocks-1)/bitsPerBitmapBlock ∨
    sb.recordTableBlocks > uint64Max/recordsPerBlock ∨
    sb.rootRecordIndex ≥ sb.recordTableBlocks*recordsPerBlock ∨
    (sb.UsesJournal ∧ (sb.journalBlocks ≤ 2 ∨ (sb.journalBlocks-2)%2 ≠ 0))) &&
  tablesAreDisjoint sb.backupSuperblock sb.tables

def superblockStateIsValid (sb : ZiFsSuperblock) : Bool :=
  if sb.stateFlags &&& (uint32Max-stateSupported) ≠ 0 then false
  else if ¬sb.UsesCleanUnmount then decide (sb.stateFlags &&& stateMounted = 0)
  else decide (sb.stateFlags ≠ stateTransactionDirty)

/-- What valid ranges mean: every table lies inside the volume, no two tables share a
block, and none contains a superblock. -/
structure ZiFsSuperblock.Layout (sb : ZiFsSuperblock) : Prop where
  total : 2 ≤ sb.totalBlocks
  backup : sb.backupSuperblock+1 = sb.totalBlocks
  inside : ∀ t ∈ sb.tables, t.1 < sb.totalBlocks ∧ t.1+t.2 ≤ sb.totalBlocks
  disjoint : tablesAreDisjoint sb.backupSuperblock sb.tables = true
  records : 0 < sb.recordTableBlocks ∧ sb.rootRecordIndex < sb.recordTableBlocks*16 ∧
    sb.recordTableBlocks*16 ≤ uint64Max
  directories : 0 < sb.directoryTableBlocks
  bitmap : sb.totalBlocks ≤ sb.allocationBitmapBlocks*32768
  security : sb.UsesSecurity → 0 < sb.securityTableBlocks ∧ sb.securityTableBlocks ≤ 16
  journal : sb.UsesJournal → 2 < sb.journalBlocks ∧ sb.journalBlocks%2 = 0

theorem superblockRangesAreValid_iff : superblockRangesAreValid sb = true ↔ sb.Layout := by
  simp only [superblockRangesAreValid,Bool.and_eq_true,Bool.not_eq_true',decide_eq_false_iff_not,
    not_or,not_and,not_lt,not_le,ge_iff_le,gt_iff_lt,ne_eq,not_not,maximumSecurityTableBlocks,
    bitsPerBitmapBlock,recordsPerBlock]
  constructor
  · rintro ⟨⟨h1,h2,-,-,h5,-,h7,h8,-,-,h11,h12,h13,h14,h15,h16,h17,h18,h19,h20⟩,hd⟩
    refine ⟨h1,by omega,?_,hd,?_,by omega,by omega,fun hs => ?_,fun hj => ?_⟩
    · simp only [ZiFsSuperblock.tables,List.forall_mem_cons,List.not_mem_nil]
      refine ⟨by omega,by omega,by omega,by omega,by omega,by simp⟩
    · omega
    · have := h16 hs
      omega
    · have := h20 hj
      omega
  · rintro ⟨ht,hb,hi,hd,hr,hdir,hbm,hs,hj⟩
    simp only [ZiFsSuperblock.tables,List.forall_mem_cons,List.not_mem_nil] at hi
    obtain ⟨i1,i2,i3,i4,i5,-⟩ := hi
    refine ⟨⟨ht,by omega,by omega,by omega,by omega,by omega,by omega,by omega,by omega,
      by omega,by omega,by omega,by omega,by omega,by omega,fun h => ?_,by omega,by omega,
      by omega,fun h => ?_⟩,hd⟩
    · have := hs h
      omega
    · have := hj h
      omega

theorem tablesAreDisjoint_iff {backup : ℕ} {ts : List (ℕ × ℕ)} :
    tablesAreDisjoint backup ts = true ↔
      (∀ t ∈ ts, ∀ x, t.1 ≤ x → x < t.1+t.2 → x ≠ 0 ∧ x ≠ backup) ∧
      ts.Pairwise fun t u => ∀ x, t.1 ≤ x → x < t.1+t.2 → u.1 ≤ x → x < u.1+u.2 → False := by
  induction ts with
  | nil => simp [tablesAreDisjoint]
  | cons t ts ih =>
    simp only [tablesAreDisjoint,Bool.and_eq_true,Bool.not_eq_true',List.all_eq_true,
      rangesOverlap_eq_false_iff,ih,List.forall_mem_cons,List.pairwise_cons]
    constructor
    · rintro ⟨⟨⟨hzero,hbackup⟩,hall⟩,hsuper,hpair⟩
      refine ⟨⟨fun x h1 h2 => ⟨?_,?_⟩,hsuper⟩,hall,hpair⟩
      · rintro rfl
        exact hzero 0 h1 h2 (by omega) (by omega)
      · rintro rfl
        exact hbackup x h1 h2 (by omega) (by omega)
    · rintro ⟨⟨hfirst,hsuper⟩,hall,hpair⟩
      refine ⟨⟨⟨fun x h1 h2 _ h4 => (hfirst x h1 h2).1 (by omega),
        fun x h1 h2 _ h4 => (hfirst x h1 h2).2 (by omega)⟩,hall⟩,hsuper,hpair⟩

namespace ZiFsSuperblock

/-- A block inside the volume that is neither a superblock nor part of the journal. -/
def IsHome (sb : ZiFsSuperblock) (block : ℕ) : Prop :=
  block < sb.totalBlocks ∧ block ≠ 0 ∧ block ≠ sb.backupSuperblock ∧
    ¬(sb.journalStart ≤ block ∧ block < sb.journalStart+sb.journalBlocks)

theorem Layout.separate (h : sb.Layout) {j : ℕ} {u : ℕ × ℕ} (hi : sb.tables[i]? = some t)
    (hj : sb.tables[j]? = some u) (hij : i ≠ j) (ht : t.1 ≤ x ∧ x < t.1+t.2)
    (hu : u.1 ≤ x ∧ x < u.1+u.2) : False := by
  have hpair := (tablesAreDisjoint_iff.mp h.disjoint).2
  rw [List.pairwise_iff_getElem] at hpair
  obtain ⟨hi',rfl⟩ := List.getElem?_eq_some_iff.mp hi
  obtain ⟨hj',rfl⟩ := List.getElem?_eq_some_iff.mp hj
  rcases Nat.lt_or_gt_of_ne hij with hlt | hlt
  · exact hpair i j hi' hj' hlt x ht.1 ht.2 hu.1 hu.2
  · exact hpair j i hj' hi' hlt x hu.1 hu.2 ht.1 ht.2

theorem Layout.apart (h : sb.Layout) (ht : t ∈ sb.tables) (hx : t.1 ≤ x ∧ x < t.1+t.2) :
    x ≠ 0 ∧ x ≠ sb.backupSuperblock :=
  (tablesAreDisjoint_iff.mp h.disjoint).1 t ht x hx.1 hx.2

theorem Layout.isHome (h : sb.Layout) (hi : sb.tables[i]? = some t) (hne : i ≠ 3)
    (hx : t.1 ≤ x ∧ x < t.1+t.2) : sb.IsHome x := by
  have ht : t ∈ sb.tables := List.mem_of_getElem? hi
  have hinside := (h.inside t ht).2
  obtain ⟨hzero,hbackup⟩ := h.apart ht hx
  exact ⟨by omega,hzero,hbackup,fun hj => h.separate hi rfl hne hx hj⟩

end ZiFsSuperblock
/-! ### Encoding -/

def superblockMagic : List UInt8 := [0x5a,0x69,0x46,0x53,0x0d,0x0a,0x1a,0x0a]

def superblockFields (sb : ZiFsSuperblock) : Mem :=
  let bytes := zero
  let bytes := bytes.put 0 superblockMagic
  let bytes := ziWriteU16Le bytes 8 sb.formatMajor
  let bytes := ziWriteU16Le bytes 10 sb.formatMinor
  let bytes := ziWriteU16Le bytes 12 superblockSize
  let bytes := ziWriteU8 bytes 14 sb.blockShift
  let bytes := ziWriteU8 bytes 15 sb.checksumType
  let bytes := ziWriteU64Le bytes 16 sb.compatibleFeatures
  let bytes := ziWriteU64Le bytes 24 sb.readOnlyCompatibleFeatures
  let bytes := ziWriteU64Le bytes 32 sb.incompatibleFeatures
  let bytes := bytes.put 40 sb.volumeUuid
  let bytes := ziWriteU64Le bytes 56 sb.generation
  let bytes := ziWriteU64Le bytes 64 sb.totalBlocks
  let bytes := ziWriteU64Le bytes 72 sb.rootRecordIndex
  let bytes := ziWriteU64Le bytes 80 sb.recordTableStart
  let bytes := ziWriteU64Le bytes 88 sb.recordTableBlocks
  let bytes := ziWriteU64Le bytes 96 sb.directoryTableStart
  let bytes := ziWriteU64Le bytes 104 sb.directoryTableBlocks
  let bytes := ziWriteU64Le bytes 112 sb.allocationBitmapStart
  let bytes := ziWriteU64Le bytes 120 sb.allocationBitmapBlocks
  let bytes := ziWriteU64Le bytes 128 sb.journalStart
  let bytes := ziWriteU64Le bytes 136 sb.journalBlocks
  let bytes := ziWriteU64Le bytes 144 sb.securityTableStart
  let bytes := ziWriteU64Le bytes 152 sb.securityTableBlocks
  let bytes := ziWriteU64Le bytes 160 sb.backupSuperblock
  let bytes := ziWriteU16Le bytes 168 sb.volumeName.length
  let bytes := bytes.put 172 sb.volumeName
  let bytes := ziWriteU64Le bytes 236 sb.lastCommittedTransaction
  ziWriteU32Le bytes 244 sb.stateFlags

/-- The encoded superblock, zero-padded to a block. -/
def superblockBlock (sb : ZiFsSuperblock) : Block :=
  let bytes := superblockFields sb
  .ofMem 4096 (ziWriteU32Le bytes 252 (checksum bytes 252))

def ziFsEncodeSuperblock (sb : ZiFsSuperblock) : Result Block := do
  failIf (sb.volumeName.length > maxVolumeNameBytes ∨ superblockStateIsValid sb = false ∨
    superblockRangesAreValid sb = false) .invalidArgument
  pure (superblockBlock sb)

/-- The fields stored in a superblock, before any check of their values. -/
def superblockOfBytes (data : Mem) : ZiFsSuperblock where
  formatMajor := ziReadU16Le data 8
  formatMinor := ziReadU16Le data 10
  blockShift := data.readLe 1 14
  checksumType := data.readLe 1 15
  compatibleFeatures := ziReadU64Le data 16
  readOnlyCompatibleFeatures := ziReadU64Le data 24
  incompatibleFeatures := ziReadU64Le data 32
  volumeUuid := data.slice 40 16
  generation := ziReadU64Le data 56
  totalBlocks := ziReadU64Le data 64
  rootRecordIndex := ziReadU64Le data 72
  recordTableStart := ziReadU64Le data 80
  recordTableBlocks := ziReadU64Le data 88
  directoryTableStart := ziReadU64Le data 96
  directoryTableBlocks := ziReadU64Le data 104
  allocationBitmapStart := ziReadU64Le data 112
  allocationBitmapBlocks := ziReadU64Le data 120
  journalStart := ziReadU64Le data 128
  journalBlocks := ziReadU64Le data 136
  securityTableStart := ziReadU64Le data 144
  securityTableBlocks := ziReadU64Le data 152
  backupSuperblock := ziReadU64Le data 160
  lastCommittedTransaction := ziReadU64Le data 236
  stateFlags := ziReadU32Le data 244
  volumeName := data.slice 172 (ziReadU16Le data 168)

def ziFsDecodeSuperblock (data : Mem) : Result ZiFsSuperblock := do
  failIf (data.slice 0 8 ≠ superblockMagic) .corruptFilesystem
  failIf (ziReadU16Le data 12 ≠ superblockSize) .corruptFilesystem
  failIf (ziReadU32Le data 252 ≠ checksum data 252) .checksumMismatch
  let sb := superblockOfBytes data
  failIf (ziReadU16Le data 168 > maxVolumeNameBytes) .corruptFilesystem
  failIf (sb.formatMajor ≠ 0 ∨ sb.formatMinor > 1 ∨ sb.blockShift ≠ 12 ∨ sb.checksumType ≠ 1 ∨
    sb.generation = 0 ∨ superblockStateIsValid sb = false ∨ superblockRangesAreValid sb = false)
    .corruptFilesystem
  ziUtf8Validate sb.volumeName
  pure sb

/-- The values of the fields are in the ranges of their C types. -/
structure ZiFsSuperblock.Fits (sb : ZiFsSuperblock) : Prop where
  formatMajor : sb.formatMajor < 256^2
  formatMinor : sb.formatMinor < 256^2
  blockShift : sb.blockShift < 256^1
  checksumType : sb.checksumType < 256^1
  compatibleFeatures : sb.compatibleFeatures < 256^8
  readOnlyCompatibleFeatures : sb.readOnlyCompatibleFeatures < 256^8
  incompatibleFeatures : sb.incompatibleFeatures < 256^8
  volumeUuid : sb.volumeUuid.length = 16
  generation : sb.generation < 256^8
  totalBlocks : sb.totalBlocks < 256^8
  rootRecordIndex : sb.rootRecordIndex < 256^8
  recordTableStart : sb.recordTableStart < 256^8
  recordTableBlocks : sb.recordTableBlocks < 256^8
  directoryTableStart : sb.directoryTableStart < 256^8
  directoryTableBlocks : sb.directoryTableBlocks < 256^8
  allocationBitmapStart : sb.allocationBitmapStart < 256^8
  allocationBitmapBlocks : sb.allocationBitmapBlocks < 256^8
  journalStart : sb.journalStart < 256^8
  journalBlocks : sb.journalBlocks < 256^8
  securityTableStart : sb.securityTableStart < 256^8
  securityTableBlocks : sb.securityTableBlocks < 256^8
  backupSuperblock : sb.backupSuperblock < 256^8
  lastCommittedTransaction : sb.lastCommittedTransaction < 256^8
  stateFlags : sb.stateFlags < 256^4
  volumeName : sb.volumeName.length ≤ 64

/-- The value checks of the decoder. -/
structure ZiFsSuperblock.Valid (sb : ZiFsSuperblock) : Prop where
  formatMajor : sb.formatMajor = 0
  formatMinor : sb.formatMinor ≤ 1
  blockShift : sb.blockShift = 12
  checksumType : sb.checksumType = 1
  generation : sb.generation ≠ 0
  state : superblockStateIsValid sb = true
  layout : sb.Layout
  name : ziUtf8Validate sb.volumeName = .ok ()

theorem superblockOfBytes_fits (h : ziReadU16Le data 168 ≤ 64) : (superblockOfBytes data).Fits := by
  constructor <;> first
    | exact readLe_lt _ _ _
    | simp [superblockOfBytes,h]

theorem ziFsDecodeSuperblock_ok_iff : ziFsDecodeSuperblock data = .ok sb ↔
      data.slice 0 8 = superblockMagic ∧ ziReadU16Le data 12 = superblockSize ∧
        ziReadU32Le data 252 = checksum data 252 ∧ ziReadU16Le data 168 ≤ 64 ∧
        sb = superblockOfBytes data ∧ sb.Valid := by
  simp only [ziFsDecodeSuperblock,bind_ok_iff,failIf_ok_iff,pure_ok_iff,
    exists_const,ne_eq,not_not,not_or,not_lt,gt_iff_lt,maxVolumeNameBytes,
    Bool.not_eq_false,superblockRangesAreValid_iff]
  constructor
  · rintro ⟨h1,h2,h3,h4,⟨h5,h6,h7,h8,h9,h10,h11⟩,u,h12,rfl⟩
    exact ⟨h1,h2,h3,h4,rfl,h5,h6,h7,h8,h9,h10,h11,h12⟩
  · rintro ⟨h1,h2,h3,h4,rfl,h5,h6,h7,h8,h9,h10,h11,h12⟩
    exact ⟨h1,h2,h3,h4,⟨h5,h6,h7,h8,h9,h10,h11⟩,(),h12,rfl⟩

theorem superblockOfBytes_fields (h : sb.Fits) : superblockOfBytes (superblockFields sb) = sb := by
  obtain ⟨h1,h2,h3,h4,h5,h6,h7,h8,h9,h10,h11,h12,h13,h14,h15,h16,h17,h18,h19,h20,
    h21,h22,h23,h24,h25⟩ := h
  have hmagic : superblockMagic.length = 8 := rfl
  have hname : sb.volumeName.length < 256^2 := by omega
  unfold superblockOfBytes superblockFields
  simp (disch := omega) only [ziReadU16Le,ziReadU64Le,ziReadU32Le,ziWriteU8,ziWriteU16Le,
    ziWriteU32Le,ziWriteU64Le,readLe_put_of_disjoint,slice_put_of_disjoint,
    readLe_put_self_of_lt,slice_put_self]

theorem superblockOfBytes_congr {data' : Mem} (h : ∀ i, i < 252 → data i = data' i)
    (hname : ziReadU16Le data 168 ≤ 64) : superblockOfBytes data = superblockOfBytes data' := by
  have hsize : ziReadU16Le data 168 = ziReadU16Le data' 168 := readLe_agree h (by omega)
  unfold superblockOfBytes
  rw [slice_agree h (by omega : 172+ziReadU16Le data 168 ≤ 252),hsize]
  simp (disch := omega) only [ziReadU16Le,ziReadU64Le,ziReadU32Le,readLe_agree h,slice_agree h]

theorem ziFsDecodeSuperblock_superblockBlock (hfits : sb.Fits) (hvalid : sb.Valid) :
    ziFsDecodeSuperblock (superblockBlock sb).mem = .ok sb := by
  have hbytes : ∀ i, i < 252 → (superblockBlock sb).mem i = superblockFields sb i := by
    intro i hi
    rw [superblockBlock,Buffer.mem_ofMem_of_lt (by omega)]
    exact put_of_lt hi
  have hmagic : superblockMagic.length = 8 := rfl
  have hnamele := hfits.volumeName
  have hsize : ziReadU16Le (superblockBlock sb).mem 168 = sb.volumeName.length := by
    rw [ziReadU16Le,readLe_agree hbytes (by omega)]
    unfold superblockFields
    simp (disch := omega) only [ziWriteU16Le,ziWriteU32Le,ziWriteU64Le,
      readLe_put_of_disjoint,readLe_put_self_of_lt]
  have hhead : ziReadU16Le (superblockBlock sb).mem 12 = superblockSize := by
    rw [ziReadU16Le,readLe_agree hbytes (by omega)]
    unfold superblockFields superblockSize
    simp (disch := omega) only [ziWriteU8,ziWriteU16Le,ziWriteU32Le,ziWriteU64Le,
      readLe_put_of_disjoint,readLe_put_self_of_lt]
  refine ziFsDecodeSuperblock_ok_iff.mpr ⟨?_,hhead,?_,by rw [hsize]; exact hnamele,?_,hvalid⟩
  · rw [slice_agree hbytes (by omega)]
    unfold superblockFields
    simp (disch := omega) only [ziWriteU8,ziWriteU16Le,ziWriteU32Le,ziWriteU64Le,
      slice_put_of_disjoint,slice_put_self]
  · rw [checksum_congr hbytes,ziReadU32Le,superblockBlock,Buffer.readLe_ofMem (by omega)]
    exact readLe_put_self_of_lt (checksum_lt _ _)
  · rw [superblockOfBytes_congr hbytes (by rw [hsize]; exact hnamele),
      superblockOfBytes_fields hfits]

theorem ZiFsSuperblock.fits_of_decode (h : ziFsDecodeSuperblock data = .ok sb) : sb.Fits := by
  obtain ⟨-,-,-,hname,rfl,-⟩ := ziFsDecodeSuperblock_ok_iff.mp h
  exact superblockOfBytes_fits hname

theorem ZiFsSuperblock.valid_of_decode (h : ziFsDecodeSuperblock data = .ok sb) : sb.Valid :=
  (ziFsDecodeSuperblock_ok_iff.mp h).2.2.2.2.2

/-! ### The layout of a decoded volume -/

/-- The comparison of two ranges as the code makes it, on 64-bit words. -/
def rangesOverlap64 (firstStart firstCount secondStart secondCount : UInt64) : Bool :=
  if firstCount = 0 ∨ secondCount = 0 then false
  else if firstStart ≤ secondStart then decide (firstCount > secondStart-firstStart)
  else decide (secondCount > firstStart-secondStart)

theorem rangesOverlap64_eq (a n b m : UInt64) :
    rangesOverlap64 a n b m = rangesOverlap a.toNat n.toNat b.toNat m.toNat := by
  simp only [rangesOverlap64,rangesOverlap,← UInt64.toNat_inj,UInt64.le_iff_toNat_le,
    UInt64.toNat_zero,gt_iff_lt,UInt64.lt_iff_toNat_lt]
  split
  · rfl
  · split
    next hle => rw [toNat_sub_of_toNat_le hle]
    next hlt => rw [toNat_sub_of_toNat_le (by omega)]

/-- The ranges of the two superblocks and of the tables. -/
def ZiFsSuperblock.metadata (sb : ZiFsSuperblock) : List (ℕ × ℕ) :=
  (0, 1) :: (sb.backupSuperblock, 1) :: sb.tables

theorem ZiFsSuperblock.Layout.metadata_disjoint (h : sb.Layout) : sb.metadata.Pairwise fun t u =>
      ∀ x, t.1 ≤ x → x < t.1+t.2 → u.1 ≤ x → x < u.1+u.2 → False := by
  obtain ⟨hsuper,htables⟩ := tablesAreDisjoint_iff.mp h.disjoint
  have htotal := h.total
  have hbackup := h.backup
  refine .cons (List.forall_mem_cons.mpr ⟨?_,?_⟩) (.cons ?_ htables)
  · intro x _ h1 h2 _
    omega
  · intro t ht x _ h1 h2 h3
    exact (hsuper t ht x h2 h3).1 (by omega)
  · intro t ht x h0 h1 h2 h3
    exact (hsuper t ht x h2 h3).2 (by omega)

theorem decoded_layout_disjoint :
    (∀ data sb, ziFsDecodeSuperblock data = .ok sb →
      (∀ range ∈ sb.metadata, range.1+range.2 ≤ sb.totalBlocks) ∧ sb.totalBlocks < 2^64 ∧
      (sb.metadata.Pairwise fun range other => ∀ block, range.1 ≤ block →
        block < range.1+range.2 → other.1 ≤ block → block < other.1+other.2 → False) ∧
      sb.totalBlocks ≤ sb.allocationBitmapBlocks*(blockSize*8)) ∧
    ∀ firstStart firstCount secondStart secondCount : UInt64,
      rangesOverlap64 firstStart firstCount secondStart secondCount = true ↔
        ∃ block, firstStart.toNat ≤ block ∧ block < firstStart.toNat+firstCount.toNat ∧
          secondStart.toNat ≤ block ∧ block < secondStart.toNat+secondCount.toNat := by
  constructor
  · intro data sb h
    have hlayout := (sb.valid_of_decode h).layout
    have htotal := hlayout.total
    have hbackup := hlayout.backup
    refine ⟨?_,(sb.fits_of_decode h).totalBlocks,hlayout.metadata_disjoint,hlayout.bitmap⟩
    simp only [ZiFsSuperblock.metadata,List.forall_mem_cons]
    exact ⟨by omega,by omega,fun t ht => (hlayout.inside t ht).2⟩
  · intro a n b m
    rw [rangesOverlap64_eq,← Bool.not_eq_false,rangesOverlap_eq_false_iff]
    simp only [not_forall,exists_prop,not_false_eq_true,and_true]

theorem ziFsEncodeSuperblock_ok_iff {block : Block} : ziFsEncodeSuperblock sb = .ok block ↔
      sb.volumeName.length ≤ 64 ∧ superblockStateIsValid sb = true ∧ sb.Layout ∧
        block = superblockBlock sb := by
  simp only [ziFsEncodeSuperblock,bind_ok_iff,failIf_ok_iff,pure_ok_iff,
    exists_const,not_or,not_lt,gt_iff_lt,maxVolumeNameBytes,Bool.not_eq_false,
    superblockRangesAreValid_iff,and_assoc]

/-! ### The fields that change during the life of a volume -/

namespace ZiFsSuperblock

def withState (sb : ZiFsSuperblock) (generation lastCommittedTransaction stateFlags : ℕ) :
    ZiFsSuperblock :=
  { sb with
    generation := generation
    lastCommittedTransaction := lastCommittedTransaction
    stateFlags := stateFlags }

variable {gen lastCommittedTransaction stateFlags : ℕ}

theorem Layout.withState (h : sb.Layout) :
    (sb.withState gen lastCommittedTransaction stateFlags).Layout :=
  ⟨h.total,h.backup,h.inside,h.disjoint,h.records,h.directories,h.bitmap,h.security,h.journal⟩

theorem Fits.withState (h : sb.Fits) (hg : gen < 256^8) (ht : lastCommittedTransaction < 256^8)
    (hs : stateFlags < 256^4) : (sb.withState gen lastCommittedTransaction stateFlags).Fits := by
  obtain ⟨h1,h2,h3,h4,h5,h6,h7,h8,-,h10,h11,h12,h13,h14,h15,h16,h17,h18,h19,h20,
    h21,h22,-,-,h25⟩ := h
  exact ⟨h1,h2,h3,h4,h5,h6,h7,h8,hg,h10,h11,h12,h13,h14,h15,h16,h17,h18,h19,h20,h21,h22,ht,hs,h25⟩

theorem Valid.withState (h : sb.Valid) (hg : gen ≠ 0)
    (hs : superblockStateIsValid (sb.withState gen lastCommittedTransaction stateFlags) = true) :
    (sb.withState gen lastCommittedTransaction stateFlags).Valid :=
  ⟨h.formatMajor,h.formatMinor,h.blockShift,h.checksumType,hg,hs,h.layout.withState,h.name⟩

end ZiFsSuperblock

end Zizium
