import Zizium.BlockIO.Reaches
import Zizium.Fs.Geometry
import Zizium.Fs.Targets

/-!
# The steps of a commit

The commit of `kernel/fs/zifs/transaction.c` as a sequence of device operations, and the image
after each step.
-/

namespace Zizium

open Bytes BlockIO Function List IoM

variable {copy n stateFlags : ℕ}

variable {header : ZiFsJournalHeader} {sb : ZiFsSuperblock} {record : ZiFsJournalRecord}
  {recs : List ZiFsJournalRecord} {device : ZiBlockDevice}

variable {volume : ZiFsVolume} {image : ℕ → Block} {tx : ZiFsTransaction}

/-! ### What the commit has checked -/

/-- What a commit asks for before its first write, of the volume object, of the transaction and of
the journal header that it loads from the disk. -/
structure CommitAccepts (volume : ZiFsVolume) (image : ℕ → Block) (tx : ZiFsTransaction)
    (header : ZiFsJournalHeader) (copy : ℕ) : Prop where
  mounted : volume.isMounted = true
  writable : volume.isReadOnly = false
  recovered : volume.needsRecovery = false
  device : deviceSupportsZifsWrites volume.device = true
  state : tx.state = .prepared
  room : 1 ≤ tx.blockImageCapacity ∧ tx.blockImageCapacity ≤ 28
  images : 0 < tx.blockImages.length ∧ tx.blockImages.length ≤ tx.blockImageCapacity
  deferred : tx.deferredExtents.length ≤ transactionMaximumDeferredExtents
  loads : LoadsHeader volume.superblock image header copy
  capacity : header.recordCapacity = ringCapacity volume.superblock
  generation : header.volumeGeneration = tx.sourceGeneration
  committed : header.lastCommittedTransaction = volume.superblock.lastCommittedTransaction
  checkpointed : header.lastCheckpointTransaction = header.lastCommittedTransaction
  tail : header.headRecord = header.tailRecord
  headerSequence : header.headerSequence < uint64Max
  nextSequence : header.nextSequence+tx.blockImages.length+3 ≤ uint64Max
  transactionId : header.nextTransactionId = tx.transactionId ∧ tx.transactionId < uint64Max
  space : tx.blockImages.length+4 ≤ ringCapacity volume.superblock

theorem CommitAccepts.transactionIsValid (h : CommitAccepts volume image tx header copy) :
    transactionIsValid tx = true := by
  rw [Zizium.transactionIsValid,decide_eq_true_eq,h.state]
  exact ⟨h.room.1,h.room.2,by decide,h.images.2,h.deferred⟩

theorem Geometry.checkCommit_ok_iff (hgeo : Geometry volume.device volume.superblock) :
    (checkCommit volume tx).eval image = .ok (header, copy) ↔
      CommitAccepts volume image tx header copy := by
  have hmax := uint64Max_eq
  simp only [checkCommit,ReadM.bind_ok_iff,ReadM.failIf_ok_iff,exists_const,ReadM.orFail_ok_iff,
    ReadM.eval_ofExcept,ReadM.pure_ok_iff,hgeo.eval_ziFsLoadJournalHeader,
    hgeo.recordCapacity_eq,Except.ok.injEq,exists_eq_left',not_or,Bool.not_eq_false,
    Bool.not_eq_true,ne_eq,not_not,gt_iff_lt,not_lt,Prod.mk.injEq]
  constructor
  · rintro ⟨hvalid,⟨hstate,hne⟩,hmounted,⟨hwritable,hrecovered,hdevice⟩,⟨header',copy'⟩,hloads,
      ⟨hcap,hgen,hlast,hckpt,hhead,hseq,hnext⟩,⟨hsequence,hid⟩,⟨occupied,available⟩,hspace,
      ⟨-,havail⟩,rfl,rfl⟩
    dsimp only at hcap hgen hlast hckpt hhead hseq hnext hsequence
    have hloads : LoadsHeader volume.superblock image header copy := hloads
    simp only [transactionIsValid,decide_eq_true_eq,transactionMaximumBlockImages,
      journalMaximumBlockImages] at hvalid
    obtain ⟨hmin,hmaximum,-,himages,hdeferred⟩ := hvalid
    have hfits := hloads.fits
    obtain ⟨_,_,hquery,htotal,-⟩ := ziFsJournalQuerySpace_ok hloads.valid
    cases hquery.symm.trans hspace
    have hseq' := hfits.headerSequence
    have hid' := hfits.nextTransactionId
    exact ⟨hmounted,hwritable,hrecovered,hdevice,hstate,⟨hmin,hmaximum⟩,⟨by omega,himages⟩,
      hdeferred,hloads,hcap,hgen,hlast,hckpt,hhead,by omega,by omega,⟨hnext,by omega⟩,by omega⟩
  · intro h
    obtain ⟨occupied,available,hquery,htotal,hring⟩ := ziFsJournalQuerySpace_ok h.loads.valid
    have hcap := h.capacity
    have htail := h.tail
    have hspace := h.space
    have hsequence := h.nextSequence
    exact ⟨h.transactionIsValid,⟨h.state,h.images.1.ne'⟩,h.mounted,
      ⟨h.writable,h.recovered,h.device⟩,(header, copy),h.loads,
      ⟨hcap,h.generation,h.committed,h.checkpointed,htail,h.headerSequence.ne,
        h.transactionId.1⟩,⟨by dsimp only; omega,h.transactionId.2.ne⟩,(occupied, available),hquery,
      ⟨by omega,by omega⟩,rfl,rfl⟩

/-- What is known when a commit starts to write. -/
structure CommitReady (volume : ZiFsVolume) (image : ℕ → Block) (tx : ZiFsTransaction)
    (header : ZiFsJournalHeader) (copy : ℕ) : Prop extends
    CommitAccepts volume image tx header copy where
  geometry : Geometry volume.device volume.superblock
  consecutive : tx.targetGeneration = tx.sourceGeneration+1 ∧ tx.sourceGeneration < uint64Max
  home : ∀ n ∈ tx.targets, volume.superblock.IsHome n
  nodup : tx.targets.Nodup

theorem CommitReady.check (h : CommitReady volume image tx header copy) :
    (checkCommit volume tx).eval image = .ok (header, copy) :=
  h.geometry.checkCommit_ok_iff.mpr h.toCommitAccepts

/-! ### Writing into the ring -/

def nextSlot (sb : ZiFsSuperblock) (slot : ℕ) : ℕ := (slot+1)%ringCapacity sb

def imageRecords (tx : ZiFsTransaction) : (sequence : ℕ) → List BlockImage → List ZiFsJournalRecord
  | _, [] => []
  | sequence, image :: images =>
    imageRecord tx sequence image :: imageRecords tx (sequence+1) images

def openingRecords (tx : ZiFsTransaction) (sequence : ℕ) : List ZiFsJournalRecord :=
  beginRecord tx sequence :: imageRecords tx (sequence+1) tx.blockImages

section

def recordWrites (sb : ZiFsSuperblock) : (slot : ℕ) → List ZiFsJournalRecord → List (ℕ × Block)
  | _, [] => []
  | slot, record :: records =>
    place (slotBlock sb slot) (journalRecordPair record) ++
      recordWrites sb (nextSlot sb slot) records

theorem applyWrites_recordWrites_cons (slot : ℕ) (record : ZiFsJournalRecord)
    (recs : List ZiFsJournalRecord) :
    applyWrites image (recordWrites sb slot (record :: recs)) =
      applyWrites (applyWrites image (recordWrites sb slot [record]))
        (recordWrites sb (nextSlot sb slot) recs) := by
  rw [recordWrites,recordWrites,recordWrites,append_nil,applyWrites_append]

variable {w : ℕ × Block}

theorem mem_place_pair (h : w ∈ place n (journalRecordPair record)) : w.1 = n ∨ w.1 = n+1 := by
  have := mem_place h
  simp only [journalRecordPair,length_cons,length_nil] at this
  omega

variable {slot : ℕ}

theorem iterate_nextSlot (h : slot < ringCapacity sb) (k : ℕ) :
    (nextSlot sb)^[k] slot = (slot+k)%ringCapacity sb := by
  induction k with
  | zero => exact (Nat.mod_eq_of_lt h).symm
  | succ k ih =>
    rw [iterate_succ_apply',ih,nextSlot,Nat.mod_add_mod]
    rfl

theorem mem_recordWrites (h : w ∈ recordWrites sb slot recs) :
    ∃ k, w.1 = slotBlock sb ((nextSlot sb)^[k] slot) ∨
      w.1 = slotBlock sb ((nextSlot sb)^[k] slot)+1 := by
  induction recs generalizing slot with
  | nil => cases h
  | cons record recs ih =>
    rcases mem_append.mp h with h | h
    · exact ⟨0,mem_place_pair h⟩
    · obtain ⟨k,hw⟩ := ih h
      exact ⟨k+1,hw⟩

theorem recordWrites_isRing (hgeo : Geometry device sb) (hslot : slot < ringCapacity sb)
    (h : w ∈ recordWrites sb slot recs) : sb.IsRing w.1 := by
  obtain ⟨k,hw⟩ := mem_recordWrites h
  rw [iterate_nextSlot hslot] at hw
  have hinside := hgeo.slot_inside (Nat.mod_lt (slot+k) (by omega : 0 < ringCapacity sb))
  simp only [ZiFsSuperblock.IsRing,slotBlock] at *
  omega

theorem applyWrites_recordWrites_of_notRing (hgeo : Geometry device sb)
    (hslot : slot < ringCapacity sb) (recs : List ZiFsJournalRecord) (hn : ¬sb.IsRing n) :
    applyWrites image (recordWrites sb slot recs) n = image n := by
  refine applyWrites_of_notMem fun w hw heq => hn ?_
  exact heq ▸ recordWrites_isRing hgeo hslot hw

theorem nextSlot_lt_capacity (hslot : slot < ringCapacity sb) (k : ℕ) :
    (nextSlot sb)^[k] slot < ringCapacity sb := by
  rw [iterate_nextSlot hslot]
  exact Nat.mod_lt _ (by omega)

end

section

variable (hgeo : Geometry volume.device volume.superblock)

include hgeo

variable {i : ℕ}

section

variable (hidx : i < ringCapacity volume.superblock)

include hidx

theorem writeJournalRecord_eq (hvalid : journalRecordIsValid record = true) :
    writeJournalRecord volume i record =
      IoM.write (slotBlock volume.superblock i) (journalRecordPair record) := by
  have hslot := hgeo.slot_inside hidx
  have hinside := hgeo.journal_inside
  have hencode : ziFsEncodeJournalRecord record = .ok (journalRecordPair record) :=
    Except.failIf_bind_neg (by rw [hvalid]; decide)
  rw [writeJournalRecord,hgeo.recordCapacity_eq]
  change (ofExcept (ziFsJournalRecordBlock _ _ i) >>= _) = _
  rw [hgeo.recordBlock_eq hidx]
  rw [hencode]
  exact hgeo.ziBlockWrite_eq (by simp [journalRecordPair]) (by simp [journalRecordPair]; omega)

theorem writeJournalRecord_completes (hvalid : journalRecordIsValid record = true) :
    (writeJournalRecord volume i record).Completes image ()
      (applyWrites image (recordWrites volume.superblock i [record])) := by
  rw [writeJournalRecord_eq hgeo hidx hvalid,recordWrites,recordWrites,append_nil]
  exact .write _ _

theorem writeJournalRecord_refused (hvalid : journalRecordIsValid record = false) :
    writeJournalRecord volume i record = IoM.ofExcept (.error .invalidArgument) := by
  have hencode : ziFsEncodeJournalRecord record = .error .invalidArgument :=
    Except.failIf_bind_pos hvalid
  rw [writeJournalRecord,hgeo.recordCapacity_eq]
  change (ofExcept (ziFsJournalRecordBlock _ _ i) >>= _) = _
  rw [hgeo.recordBlock_eq hidx]
  rw [hencode]
  rfl

end

theorem storeJournalHeader_completes (hcopy : copy < 2)
    (hvalid : journalHeaderIsValid header = true) :
    (storeJournalHeader volume copy header).Completes image ()
      (update image (volume.superblock.journalStart+copy)
        (journalHeaderBlock header)) := by
  have hblocks := hgeo.journalBlocks_eq
  have hinside := hgeo.journal_inside
  have htotal := hgeo.total
  have hencode : ziFsEncodeJournalHeader header = .ok (journalHeaderBlock header) :=
    Except.failIf_bind_neg (by rw [hvalid]; decide)
  rw [storeJournalHeader,ziFsStoreJournalHeader,hgeo.ziBlockBarrier_eq]
  refine IoM.Completes.bind (a := ()) ?_ .flush
  rw [failIf_bind_neg (by simp only [journalHeaderCopies]; omega)]
  refine (IoM.Completes.ofExcept hencode).bind ?_
  rw [hgeo.ziBlockWrite_eq (by simp) (by simp; omega)]
  exact .write _ _

theorem storeJournalHeader_refused (hcopy : copy < 2)
    (hvalid : journalHeaderIsValid header = false) :
    (storeJournalHeader volume copy header).result image = .error .invalidArgument := by
  have hblocks := hgeo.journalBlocks_eq
  have hinside := hgeo.journal_inside
  have htotal := hgeo.total
  have hencode : ziFsEncodeJournalHeader header = .error .invalidArgument :=
    Except.failIf_bind_pos hvalid
  rw [storeJournalHeader,ziFsStoreJournalHeader,
    failIf_bind_neg (by simp only [journalHeaderCopies]; omega)]
  rw [hencode]
  rfl

end

def putSuperblocks (image : ℕ → Block) (new : ZiFsSuperblock) : ℕ → Block :=
  update (update image new.backupSuperblock (superblockBlock new)) 0
    (superblockBlock new)

def targetSuperblock (volume : ZiFsVolume) (tx : ZiFsTransaction) (stateFlags : ℕ) :
    ZiFsSuperblock :=
  volume.superblock.withState tx.targetGeneration tx.transactionId stateFlags

theorem superblockStateIsValid_of_transaction
    (h : sb.UsesCleanUnmount ∧ (sb.stateFlags = stateMounted ∨
      sb.stateFlags = (stateMounted ||| stateTransactionDirty)) ∨ ¬sb.UsesCleanUnmount ∧
        (sb.stateFlags = stateNone ∨ sb.stateFlags = (stateNone ||| stateTransactionDirty))) :
    sb.stateFlags < 256^4 ∧ superblockStateIsValid sb = true := by
  rw [superblockStateIsValid]
  rcases h with ⟨hclean,h | h⟩ | ⟨hclean,h | h⟩ <;> simp only [hclean,h] <;> decide

theorem writeTransactionSuperblocks_completes
    (hgeo : Geometry volume.device (targetSuperblock volume tx stateFlags)) :
    (writeTransactionSuperblocks volume tx stateFlags).Completes image ()
      (putSuperblocks image (targetSuperblock volume tx stateFlags)) := by
  have hbackup := hgeo.valid.layout.backup
  refine (IoM.Completes.ofExcept hgeo.ziFsEncodeSuperblock_eq).bind ?_
  change (writeSuperblockCopy volume.device (targetSuperblock volume tx
    stateFlags).backupSuperblock _
    >>= fun _ => writeSuperblockCopy volume.device 0 _).Completes _ _ _
  rw [hgeo.writeSuperblockCopy_eq (by omega),hgeo.writeSuperblockCopy_eq (by omega)]
  exact ((IoM.Completes.write _ _).bind .flush).bind ((IoM.Completes.write _ _).bind .flush)

/-! ### The images a commit goes through -/

def imagesChecksum (tx : ZiFsTransaction) : (sequence : ℕ) → UInt32 → List BlockImage → UInt32
  | _, sum, [] => sum
  | sequence, sum, image :: images =>
    imagesChecksum tx (sequence+1)
      (ziCrc32c sum (transactionDescriptor (imageRecord tx sequence image))) images

section

variable (volume : ZiFsVolume) (tx : ZiFsTransaction) (header : ZiFsJournalHeader) (copy : ℕ)

def commitSlot : ℕ := (nextSlot volume.superblock)^[tx.blockImages.length+1] header.headRecord

/-- The checksum stored in the closing records. -/
def commitChecksum : UInt32 :=
  finaliseTransactionChecksum (imagesChecksum tx (header.nextSequence+1) 0 tx.blockImages)

def commitClosing (recordType offset : ℕ) : ZiFsJournalRecord :=
  closingRecord tx recordType (header.nextSequence+1+tx.blockImages.length+offset)
    (commitChecksum tx header)

/-- The header stored after the COMMIT record. -/
def commitHeader : ZiFsJournalHeader :=
  committedHeader header tx (nextSlot volume.superblock (commitSlot volume tx header))
    (header.nextSequence+1+tx.blockImages.length+1)

/-- The header stored after the CHECKPOINT record. -/
def finalHeader : ZiFsJournalHeader :=
  checkpointedHeader (commitHeader volume tx header) tx
    (nextSlot volume.superblock (nextSlot volume.superblock (commitSlot volume tx header)))
    (header.nextSequence+1+tx.blockImages.length+2)

variable (image : ℕ → Block)

def afterOpening : ℕ → Block :=
  applyWrites image
    (recordWrites volume.superblock header.headRecord (openingRecords tx header.nextSequence))

def afterDirty : ℕ → Block :=
  putSuperblocks (afterOpening volume tx header image)
    (targetSuperblock volume tx (transactionStableSuperblockState volume ||| stateTransactionDirty))

def afterCommit : ℕ → Block :=
  applyWrites (afterDirty volume tx header image) (recordWrites volume.superblock
    (commitSlot volume tx header) [commitClosing tx header recordCommit 0])

/-- After the header that announces the committed transaction. -/
def afterHeader : ℕ → Block :=
  update (afterCommit volume tx header image)
    (volume.superblock.journalStart+(copy+1)%2)
    (journalHeaderBlock (commitHeader volume tx header))

def afterHome : ℕ → Block := applyWrites (afterHeader volume tx header copy image) tx.blockImages

def afterStable : ℕ → Block :=
  putSuperblocks (afterHome volume tx header copy image)
    (targetSuperblock volume tx (transactionStableSuperblockState volume))

def afterCheckpoint : ℕ → Block :=
  applyWrites (afterStable volume tx header copy image) (recordWrites volume.superblock
    (nextSlot volume.superblock (commitSlot volume tx header))
    [commitClosing tx header recordCheckpoint 1])

def afterFinal : ℕ → Block :=
  update (afterCheckpoint volume tx header copy image)
    (volume.superblock.journalStart+copy)
    (journalHeaderBlock (finalHeader volume tx header))

end

namespace CommitReady

variable {image' : ℕ → Block} (h : CommitReady volume image tx header copy)

include h

theorem head_lt : header.headRecord < ringCapacity volume.superblock := by
  have := (journalHeaderIsValid_iff.mp h.loads.valid).2.2.2.1
  rwa [h.capacity] at this

theorem commitSlot_lt : commitSlot volume tx header < ringCapacity volume.superblock :=
  nextSlot_lt_capacity h.head_lt _

theorem nextSlot_lt : nextSlot volume.superblock (commitSlot volume tx header) <
    ringCapacity volume.superblock := nextSlot_lt_capacity h.commitSlot_lt 1

theorem sourceGeneration_ne : tx.sourceGeneration ≠ 0 := by
  have := (journalHeaderIsValid_iff.mp h.loads.valid).2.1
  rwa [h.generation] at this

theorem transactionId_ne : tx.transactionId ≠ 0 := by
  have := (journalHeaderIsValid_iff.mp h.loads.valid).2.2.2.2.2.2.2.1
  rw [h.transactionId.1] at this
  omega

theorem beginRecord_valid : journalRecordIsValid (beginRecord tx header.nextSequence) = true := by
  have hseq := (journalHeaderIsValid_iff.mp h.loads.valid).2.2.2.2.2.1
  have hid := h.transactionId_ne
  have hsource := h.sourceGeneration_ne
  obtain ⟨htarget,hsource'⟩ := h.consecutive
  have hne : tx.blockImages ≠ [] := length_pos_iff.mp h.images.1
  unfold journalRecordIsValid
  rw [if_neg (by simp [beginRecord]; omega),if_neg (by simp [beginRecord]),
    if_neg (by simp [beginRecord,hne]),
    if_pos (show (beginRecord tx header.nextSequence).recordType = recordBegin from rfl)]
  rfl

variable {i : BlockImage}

theorem imageRecord_valid (hi : i ∈ tx.blockImages) {sequence : ℕ} (hpos : 0 < sequence) :
    journalRecordIsValid (imageRecord tx sequence i) = true := by
  have hid := h.transactionId_ne
  have hsource := h.sourceGeneration_ne
  obtain ⟨htarget,hsource'⟩ := h.consecutive
  have hhome := (h.home i.1 (mem_map_of_mem hi)).1
  have htotal := h.geometry.fits.totalBlocks
  have hnone : journalTargetNone = 18446744073709551615 := rfl
  unfold journalRecordIsValid
  simp [imageRecord]
  omega

theorem closing_valid {recordType : ℕ} (off : ℕ)
    (htype : recordType = recordCommit ∨ recordType = recordCheckpoint) :
    journalRecordIsValid (commitClosing tx header recordType off) = true := by
  have hid := h.transactionId_ne
  have hsource := h.sourceGeneration_ne
  obtain ⟨htarget,hsource'⟩ := h.consecutive
  have hsum : (commitChecksum tx header).toNat ≠ 0 := by
    unfold commitChecksum finaliseTransactionChecksum
    split
    · decide
    · next hne =>
      intro hzero
      exact hne (UInt32.toNat_inj.mp hzero)
  have htypes : recordType ≠ recordBegin ∧ recordType ≠ recordBlockImage := by
    rcases htype with rfl | rfl
    · decide
    · decide
  have hne : tx.blockImages ≠ [] := length_pos_iff.mp h.images.1
  unfold journalRecordIsValid
  rw [if_neg (by simp [commitClosing,closingRecord,beginRecord]; omega),
    if_neg (by exact htypes.2),if_neg (by simp [commitClosing,closingRecord,beginRecord,hne]),
    if_neg (by exact htypes.1),if_pos (by exact htype)]
  exact decide_eq_true hsum

theorem targetGeometry (hstate : stateFlags = transactionStableSuperblockState volume ∨
      stateFlags = (transactionStableSuperblockState volume ||| stateTransactionDirty)) :
    Geometry volume.device (targetSuperblock volume tx stateFlags) := by
  have hmax := uint64Max_eq
  obtain ⟨htarget,hsource⟩ := h.consecutive
  have hid := h.transactionId.2
  have hflags : (targetSuperblock volume tx stateFlags).stateFlags < 256^4 ∧
      superblockStateIsValid (targetSuperblock volume tx stateFlags) = true := by
    refine superblockStateIsValid_of_transaction ?_
    rw [transactionStableSuperblockState] at hstate
    by_cases hclean : volume.superblock.UsesCleanUnmount
    · rw [if_pos ⟨hclean,h.writable⟩] at hstate
      exact .inl ⟨hclean,hstate⟩
    · rw [if_neg fun hc => hclean hc.1] at hstate
      exact .inr ⟨hclean,hstate⟩
  exact h.geometry.withState (by omega) (by omega) (by omega) hflags.1 hflags.2

theorem advance {i : ℕ} (hidx : i < ringCapacity volume.superblock) :
    ziFsJournalAdvanceRecord header.recordCapacity i 1 =
      .ok (nextSlot volume.superblock i) := by
  rw [h.capacity]
  exact ziFsJournalAdvanceRecord_eq hidx 1

theorem writeImageRecord_completes (hi : i ∈ tx.blockImages) (cursor : JournalCursor)
    (hidx : cursor.recordIndex < ringCapacity volume.superblock) (hpos : 0 < cursor.sequence) :
    (writeImageRecord volume tx header.recordCapacity cursor i).Completes image'
      ⟨nextSlot volume.superblock cursor.recordIndex,cursor.sequence+1,
        ziCrc32c cursor.checksum (transactionDescriptor (imageRecord tx cursor.sequence i))⟩
      (applyWrites image' (recordWrites volume.superblock cursor.recordIndex
        [imageRecord tx cursor.sequence i])) := by
  have hvalid := h.imageRecord_valid hi hpos
  have hextend : ziFsJournalExtendTransactionChecksum cursor.checksum
      (imageRecord tx cursor.sequence i) =
        .ok (ziCrc32c cursor.checksum (transactionDescriptor (imageRecord tx cursor.sequence i))) :=
    Except.failIf_bind_neg (by rw [hvalid]; simp [imageRecord])
  exact (writeJournalRecord_completes h.geometry hidx hvalid).bind
    ((IoM.Completes.ofExcept hextend).bind ((IoM.Completes.ofExcept (h.advance hidx)).bind
      (.pure _)))

theorem writeImageRecords_completes {images : List BlockImage} (hsub : images ⊆ tx.blockImages)
    (cursor : JournalCursor) (hidx : cursor.recordIndex < ringCapacity volume.superblock)
    (hpos : 0 < cursor.sequence) :
    (writeImageRecords volume tx header.recordCapacity images cursor).Completes image'
      ⟨(nextSlot volume.superblock)^[images.length] cursor.recordIndex,
        cursor.sequence+images.length,imagesChecksum tx cursor.sequence cursor.checksum images⟩
      (applyWrites image' (recordWrites volume.superblock cursor.recordIndex
        (imageRecords tx cursor.sequence images))) := by
  induction images generalizing cursor image' with
  | nil => exact .pure _
  | cons i images ih =>
    rw [length_cons,iterate_succ_apply,imageRecords,applyWrites_recordWrites_cons,
      show cursor.sequence+(images.length+1) = cursor.sequence+1+images.length by omega]
    exact (h.writeImageRecord_completes (hsub mem_cons_self) cursor hidx hpos).bind
      (ih (cons_subset.mp hsub).2 _ (nextSlot_lt_capacity hidx 1) (Nat.succ_pos _))

theorem homeWrites_completes :
    (forEach (fun i => ziBlockWrite volume.device i.1 [i.2]) tx.blockImages :
      DeviceIo Unit).Completes image' () (applyWrites image' tx.blockImages) := by
  have hwrites : ∀ images ⊆ tx.blockImages,
      (forEach (fun i => ziBlockWrite volume.device i.1 [i.2]) images : DeviceIo Unit) =
        forEach (fun i => write i.1 [i.2]) images := by
    intro images hsub
    induction images with
    | nil => rfl
    | cons i images ih =>
      have hhome := (h.home i.1 (mem_map_of_mem (hsub mem_cons_self))).1
      rw [forEach,forEach,ih (cons_subset.mp hsub).2,
        h.geometry.ziBlockWrite_eq (by simp) (by simp; omega)]
  rw [hwrites _ (List.Subset.refl _)]
  exact .forEach_write _

theorem commitHead_eq : nextSlot volume.superblock (commitSlot volume tx header) =
    (header.headRecord+(tx.blockImages.length+2))%ringCapacity volume.superblock := by
  rw [← iterate_nextSlot h.head_lt,commitSlot,iterate_succ_apply' _ (_ + 1)]

theorem commitHeader_valid : journalHeaderIsValid (commitHeader volume tx header) = true := by
  have hmax := uint64Max_eq
  obtain ⟨hid,hid'⟩ := h.transactionId
  obtain ⟨htarget,-⟩ := h.consecutive
  have hlast := h.checkpointed
  have htail := h.tail
  have hspace := h.space
  have himages := h.images.1
  have hcap := h.capacity
  have hseq := h.headerSequence
  obtain ⟨-,-,h3,-,h5,-,-,h8,-,h10,-⟩ := journalHeaderIsValid_iff.mp h.loads.valid
  rw [journalHeaderIsValid_iff,commitHeader,committedHeader,h.commitHead_eq]
  simp only
  have hmod := Nat.mod_lt (header.headRecord+(tx.blockImages.length+2))
    (show 0 < ringCapacity volume.superblock by omega)
  refine ⟨by omega,by omega,h3,by omega,h5,by omega,by omega,trivial,by omega,h10,?_⟩
  rw [if_neg (by omega)]
  refine ⟨by omega,?_⟩
  -- the ring holds one record more than the images need, so the head does not meet the tail
  rcases Nat.lt_or_ge (header.headRecord+(tx.blockImages.length+2))
    (ringCapacity volume.superblock) with hlt | hge
  · rw [Nat.mod_eq_of_lt hlt]
    split <;> omega
  · rw [Nat.mod_eq_sub_mod hge,Nat.mod_eq_of_lt (by omega)]
    split <;> omega

theorem finalHeader_valid_iff : journalHeaderIsValid (finalHeader volume tx header) = true ↔
    header.headerSequence ≠ uint64Max-1 := by
  have hmax := uint64Max_eq
  have hseq := h.headerSequence
  have hslot := nextSlot_lt_capacity h.commitSlot_lt 2
  have hcap := h.capacity
  obtain ⟨-,h2,h3,-,-,-,h7,h8,-,h10,-⟩ := journalHeaderIsValid_iff.mp h.commitHeader_valid
  rw [journalHeaderIsValid_iff,finalHeader,checkpointedHeader]
  simp only
  refine ⟨fun hvalid heq => hvalid.1 ?_,fun hne => ?_⟩
  · simp only [commitHeader,committedHeader,heq]
    decide
  · refine ⟨?_,h2,h3,hslot.trans_eq hcap.symm,hslot.trans_eq hcap.symm,by omega,h7,h8,le_rfl,
      h10,?_⟩
    · simp only [commitHeader,committedHeader]
      omega
    · rw [if_pos (by rfl)]
      trivial

theorem writeCommit_reaches : (writeCommit volume tx header copy).Reaches image
      (storeJournalHeader volume copy (finalHeader volume tx header))
      (afterCheckpoint volume tx header copy image) := by
  have hcopy : (copy+1)%journalHeaderCopies < 2 := Nat.mod_lt _ (by decide)
  have hslot := h.commitSlot_lt
  have hslot' := h.nextSlot_lt
  have hbarrier : ∀ image, (ziBlockBarrier volume.device).Completes image () image := by
    intro image
    rw [h.geometry.ziBlockBarrier_eq]
    exact .flush
  refine ((writeJournalRecord_completes h.geometry h.head_lt h.beginRecord_valid).reaches
    _).trans ?_
  refine ((IoM.Completes.ofExcept (h.advance h.head_lt)).reaches _).trans ?_
  refine ((h.writeImageRecords_completes (List.Subset.refl _)
    ⟨nextSlot volume.superblock header.headRecord,header.nextSequence+1,0⟩
    (nextSlot_lt_capacity h.head_lt 1) (Nat.succ_pos _)).reaches _).trans ?_
  refine ((hbarrier _).reaches _).trans ?_
  refine ((writeTransactionSuperblocks_completes (h.targetGeometry (.inr rfl))).reaches _).trans ?_
  refine ((writeJournalRecord_completes h.geometry hslot
    (h.closing_valid 0 (.inl rfl))).reaches _).trans ?_
  refine ((hbarrier _).reaches _).trans ?_
  refine ((IoM.Completes.ofExcept (h.advance hslot)).reaches _).trans ?_
  refine ((storeJournalHeader_completes h.geometry hcopy h.commitHeader_valid).reaches _).trans ?_
  refine (h.homeWrites_completes.reaches _).trans ?_
  refine ((hbarrier _).reaches _).trans ?_
  refine ((writeTransactionSuperblocks_completes (h.targetGeometry (.inl rfl))).reaches _).trans ?_
  refine ((writeJournalRecord_completes h.geometry hslot'
    (h.closing_valid 1 (.inr rfl))).reaches _).trans ?_
  refine ((hbarrier _).reaches _).trans ?_
  exact (IoM.Completes.ofExcept (h.advance hslot')).reaches _

/-! ### What the commit leaves behind -/

theorem journal_apart (hn : volume.superblock.journalStart ≤ n ∧
      n < volume.superblock.journalStart+volume.superblock.journalBlocks) :
    n ≠ 0 ∧ n ≠ volume.superblock.backupSuperblock := by
  have hmem : (volume.superblock.journalStart, volume.superblock.journalBlocks) ∈
      volume.superblock.tables := by simp [ZiFsSuperblock.tables]
  exact h.geometry.valid.layout.apart hmem hn

variable {c : ℕ}

theorem headerBlock_inside (hc : c < 2) :
    volume.superblock.journalStart ≤ volume.superblock.journalStart+c ∧
      volume.superblock.journalStart+c <
        volume.superblock.journalStart+volume.superblock.journalBlocks := by
  have hblocks := h.geometry.journalBlocks_eq
  omega

theorem afterFinal_of_notJournal (hn : ¬(volume.superblock.journalStart ≤ n ∧
      n < volume.superblock.journalStart+volume.superblock.journalBlocks)) :
    afterFinal volume tx header copy image n = afterStable volume tx header copy image n := by
  have hne : n ≠ volume.superblock.journalStart+copy := by
    rintro rfl
    exact hn (h.headerBlock_inside h.loads.decode.1)
  rw [afterFinal,update_of_ne hne,afterCheckpoint]
  exact applyWrites_recordWrites_of_notRing h.geometry h.nextSlot_lt _ fun hring =>
    hn ⟨(Nat.le_add_right _ 2).trans hring.1,hring.2⟩

theorem afterFinal_superblocks : afterFinal volume tx header copy image 0 =
        superblockBlock (targetSuperblock volume tx (transactionStableSuperblockState volume)) ∧
      afterFinal volume tx header copy image volume.superblock.backupSuperblock =
        superblockBlock (targetSuperblock volume tx (transactionStableSuperblockState volume)) := by
  have hbackup := h.geometry.valid.layout.backup
  have htotal := h.geometry.valid.layout.total
  have hne : volume.superblock.backupSuperblock ≠ 0 := by omega
  rw [h.afterFinal_of_notJournal fun hn => (h.journal_apart hn).1 rfl,
    h.afterFinal_of_notJournal fun hn => (h.journal_apart hn).2 rfl,afterStable,putSuperblocks]
  refine ⟨update_self _ _ _,?_⟩
  rw [update_of_ne hne]
  exact update_self _ _ _

theorem afterFinal_home (hi : i ∈ tx.blockImages) :
    afterFinal volume tx header copy image i.1 = i.2 := by
  obtain ⟨-,hzero,hbackup,hjournal⟩ := h.home i.1 (mem_map_of_mem hi)
  rw [h.afterFinal_of_notJournal hjournal,afterStable,putSuperblocks,
    update_of_ne hzero,update_of_ne (by exact hbackup)]
  exact applyWrites_of_mem h.nodup hi

theorem afterCommit_header (hc : c < 2) :
    afterCommit volume tx header image (volume.superblock.journalStart+c) =
      image (volume.superblock.journalStart+c) := by
  obtain ⟨hzero,hbackup⟩ := h.journal_apart (h.headerBlock_inside hc)
  have hring : ¬volume.superblock.IsRing (volume.superblock.journalStart+c) := fun hring => by
    have := hring.1
    omega
  rw [afterCommit,applyWrites_recordWrites_of_notRing h.geometry h.commitSlot_lt _ hring,
    afterDirty,putSuperblocks,update_of_ne hzero,
    update_of_ne (by exact hbackup),afterOpening,
    applyWrites_recordWrites_of_notRing h.geometry h.head_lt _ hring]

theorem afterCheckpoint_header (hc : c < 2) :
    afterCheckpoint volume tx header copy image (volume.superblock.journalStart+c) =
      afterHeader volume tx header copy image (volume.superblock.journalStart+c) := by
  have hinside := h.headerBlock_inside hc
  obtain ⟨hzero,hbackup⟩ := h.journal_apart hinside
  have hring : ¬volume.superblock.IsRing (volume.superblock.journalStart+c) := fun hring => by
    have := hring.1
    omega
  rw [afterCheckpoint,applyWrites_recordWrites_of_notRing h.geometry h.nextSlot_lt _ hring,
    afterStable,putSuperblocks,update_of_ne hzero,
    update_of_ne (by exact hbackup),afterHome]
  refine applyWrites_of_notMem fun w hw heq => ?_
  exact (h.home w.1 (mem_map_of_mem hw)).2.2.2 (heq ▸ hinside)

theorem commitHeader_fits : (commitHeader volume tx header).Fits := by
  have hmax := uint64Max_eq
  have hfits := h.loads.fits
  have hnext := h.nextSequence
  have hid := h.transactionId.2
  obtain ⟨htarget,hsource⟩ := h.consecutive
  exact {
    headerSequence := Nat.mod_lt _ (by decide)
    volumeGeneration := show tx.targetGeneration < _ by omega
    recordCapacity := hfits.recordCapacity
    headRecord := (h.nextSlot_lt.trans_eq h.capacity.symm).trans hfits.recordCapacity
    tailRecord := hfits.tailRecord
    nextSequence := show header.nextSequence+1+tx.blockImages.length+1 < _ by omega
    nextTransactionId := show tx.transactionId+1 < _ by omega
    lastCommittedTransaction := show tx.transactionId < _ by omega
    lastCheckpointTransaction := hfits.lastCheckpointTransaction
    flags := hfits.flags }

theorem finalHeader_fits : (finalHeader volume tx header).Fits := by
  have hmax := uint64Max_eq
  have hfits := h.commitHeader_fits
  have hslot := nextSlot_lt_capacity h.commitSlot_lt 2
  have hnext := h.nextSequence
  exact {
    headerSequence := Nat.mod_lt _ (by decide)
    volumeGeneration := hfits.volumeGeneration
    recordCapacity := hfits.recordCapacity
    headRecord := (hslot.trans_eq h.capacity.symm).trans hfits.recordCapacity
    tailRecord := (hslot.trans_eq h.capacity.symm).trans hfits.recordCapacity
    nextSequence := show header.nextSequence+1+tx.blockImages.length+2 < _ by omega
    nextTransactionId := hfits.nextTransactionId
    lastCommittedTransaction := hfits.lastCommittedTransaction
    lastCheckpointTransaction := hfits.lastCommittedTransaction
    flags := hfits.flags }

theorem loads_afterHeader : LoadsHeader volume.superblock (afterHeader volume tx header copy image)
    (commitHeader volume tx header) ((copy+1)%2) := by
  have hseq := h.headerSequence
  have hmax := uint64Max_eq
  refine (h.loads.congr (h.afterCommit_header (c := 0) (by decide))
    (h.afterCommit_header (c := 1) (by decide))).store h.commitHeader_fits h.commitHeader_valid ?_
  show header.headerSequence < (header.headerSequence+1)%2^64
  omega

theorem loads_afterFinal (hne : header.headerSequence ≠ uint64Max-1) :
    LoadsHeader volume.superblock (afterFinal volume tx header copy image)
      (finalHeader volume tx header) copy := by
  have hcopy := h.loads.decode.1
  have hseq := h.headerSequence
  have hmax := uint64Max_eq
  have hstored := (h.loads_afterHeader.congr (h.afterCheckpoint_header (c := 0) (by decide))
    (h.afterCheckpoint_header (c := 1) (by decide))).store h.finalHeader_fits
      (h.finalHeader_valid_iff.mpr hne) (show (header.headerSequence+1)%2^64 <
        ((header.headerSequence+1)%2^64+1)%2^64 by omega)
  rwa [show ((copy+1)%2+1)%2 = copy by omega] at hstored

end CommitReady

end Zizium
