import Zizium.Fs.Tables

/-!
# The prepare calls, taken apart

What a successful prepare call has read and checked, and the steps by which it staged its images.
-/

namespace Zizium

open Bytes BlockIO TaskM

variable {u : Unit} {req : ZiFsTruncateRequest} {plan : TruncatePlan}

variable {vol : ZiFsVolume} {img : ℕ → Block} {tx tx' : ZiFsTransaction}

/-- A transaction in which nothing is staged. -/
structure ZiFsTransaction.IsReady (tx : ZiFsTransaction) : Prop where
  valid : transactionIsValid tx = true
  state : tx.state = .ready
  images : tx.blockImages = []

theorem checkTransactionIsReady_ok (h : checkTransactionIsReady tx = .ok u) : tx.IsReady := by
  simp only [checkTransactionIsReady,Except.bind_ok_iff,Except.failIf_ok_iff,exists_const,
    Bool.not_eq_false,not_or,not_not,ne_eq,List.length_eq_zero_iff] at h
  exact ⟨h.1,h.2.1,h.2.2⟩

theorem checkTransactionIsEmpty_ok (h : checkTransactionIsEmpty tx = .ok u) :
    tx.IsReady ∧ tx.deferredExtents = [] := by
  simp only [checkTransactionIsEmpty,Except.bind_ok_iff,Except.failIf_ok_iff,exists_const,
    Bool.not_eq_false,not_or,not_not,ne_eq,List.length_eq_zero_iff] at h
  exact ⟨⟨h.1,h.2.1,h.2.2.1⟩,h.2.2.2⟩

theorem prepareWith_ok {π α : Type} {check : ZiFsTransaction → ReadIo π} {stage : π → Staging α}
    {a : α} (h : (prepareWith check stage).eval img tx = (.ok a, tx')) :
    ∃ plan s, (check tx).eval img = .ok plan ∧ (stage plan).eval img tx = (.ok a, s) ∧
      tx' = { s with state := .prepared } := by
  simp only [prepareWith,get_bind_ok_iff,lift_bind_ok_iff] at h
  obtain ⟨plan,hplan,h⟩ := h
  obtain ⟨a',s,hstage,h⟩ := bind_ok_iff.mp h
  rw [onFailure_ok_iff] at hstage
  obtain ⟨rfl,rfl⟩ := h
  exact ⟨plan,s,hplan,hstage,rfl⟩

theorem eval_prepareWith {π α : Type} {check : ZiFsTransaction → ReadIo π} {stage : π → Staging α}
    {plan : π} (h : (check tx).eval img = .ok plan) :
    (prepareWith check stage).eval img tx = match (stage plan).eval img tx with
      | (.ok a, s) => (.ok a, { s with state := .prepared })
      | (.error status, s) => (.error status, transactionDiscardImages s) := by
  show TaskM.eval img (lift (check tx) >>= _) tx = _
  rw [eval_bind,eval_lift,h]
  show TaskM.eval img ((stage plan).onFailure transactionDiscardImages >>= _) tx = _
  rw [eval_bind,eval_onFailure]
  rcases (stage plan).eval img tx with ⟨_ | _,_⟩ <;> rfl

/-! ### Truncate -/

structure TruncateChecked (volume : ZiFsVolume) (image : ℕ → Block) (tx : ZiFsTransaction)
    (request : ZiFsTruncateRequest) (plan : TruncatePlan) : Prop where
  ready : tx.IsReady
  deferred : tx.deferredExtents = []
  record : (ziFsReadFileRecord volume request.recordIndex).eval image = .ok plan.record
  notRoot : request.recordIndex ≠ volume.superblock.rootRecordIndex
  regular : plan.record.fileType = fileTypeRegular
  newSize : request.newSize ≤ plan.record.fileSize
  owned : (validateExtentOwnership volume request.recordIndex plan.record).eval image = .ok ()
  remaining : (splitExtents plan.record.extents (blocksFor request.newSize)).remainingBlocks = 0
  changed : plan.changed = ZiFsFileRecord.touch { plan.record with
    extents := (splitExtents plan.record.extents (blocksFor request.newSize)).kept
    fileSize := request.newSize
    allocatedSize := blocksFor request.newSize*blockSize } request.timestamp
  releases : plan.releases = (splitExtents plan.record.extents (blocksFor request.newSize)).releases

theorem checkTruncate_ok (h : (checkTruncate vol req tx).eval img = .ok plan) :
    TruncateChecked vol img tx req plan := by
  simp only [checkTruncate,ReadM.bind_ok_iff,ReadM.eval_ofExcept,ReadM.pure_ok_iff,
    ReadM.failIf_ok_iff,exists_const,not_or,ne_eq,not_not,gt_iff_lt,not_lt] at h
  obtain ⟨_,hempty,_,-,record,hrec,⟨hroot,hregular⟩,hsize,_,howned,-,⟨hremaining,-⟩,rfl⟩ := h
  obtain ⟨hready,hdeferred⟩ := checkTransactionIsEmpty_ok hempty
  exact ⟨hready,hdeferred,hrec,hroot,hregular,hsize,howned,hremaining,rfl,rfl⟩

theorem stageTruncate_ok {result : ZiFsTruncateResult}
    (h : (stageTruncate vol req plan).eval img tx = (.ok result, tx')) :
    ∃ s1 s2, (stageChangedFileRecord vol req.recordIndex plan.changed).eval img tx = (.ok (), s1) ∧
      (stageTailClear vol req.newSize plan.changed).eval img s1 = (.ok (), s2) ∧
      (stageReleases vol plan.releases).eval img s2 = (.ok (), tx') := by
  obtain ⟨_,s1,h1,h⟩ := bind_ok_iff.mp h
  obtain ⟨_,s2,h2,h⟩ := bind_ok_iff.mp h
  obtain ⟨_,s3,h3,h⟩ := bind_ok_iff.mp h
  obtain ⟨-,rfl⟩ := pure_ok_iff.mp h
  exact ⟨s1,s2,h1,h2,h3⟩

/-! ### Delete -/

structure DeleteChecked (volume : ZiFsVolume) (image : ℕ → Block) (tx : ZiFsTransaction)
    (request : ZiFsDeleteRequest) (plan : DeletePlan) : Prop where
  ready : tx.IsReady
  validRequest : validateDeleteRequest request = .ok ()
  parent : (readDirectoryRecord volume request.parentRecordIndex).eval image = .ok plan.parent
  located : (ziFsFindDirectoryEntryInRecord volume plan.parent request.name).eval image =
    .ok plan.located
  notRoot : plan.located.entry.recordIndex ≠ volume.superblock.rootRecordIndex
  notParent : plan.located.entry.recordIndex ≠ request.parentRecordIndex
  record : (ziFsReadFileRecord volume plan.located.entry.recordIndex).eval image = .ok plan.record
  fileId : plan.record.fileId = plan.located.entry.fileId
  fileType : plan.record.fileType = plan.located.entry.fileType
  parentFileId : plan.record.parentFileId = plan.parent.fileId
  regular : plan.record.fileType = fileTypeRegular
  owned : (validateExtentOwnership volume plan.located.entry.recordIndex plan.record).eval image =
    .ok ()

theorem checkDelete_ok {req : ZiFsDeleteRequest} {plan : DeletePlan}
    (h : (checkDelete vol req tx).eval img = .ok plan) : DeleteChecked vol img tx req plan := by
  simp only [checkDelete,ReadM.bind_ok_iff,ReadM.eval_ofExcept,ReadM.pure_ok_iff,
    ReadM.failIf_ok_iff,exists_const,not_or,ne_eq,not_not] at h
  obtain ⟨_,hempty,_,hreq,parent,hparent,located,hlocated,⟨hroot,hnot⟩,record,
    hrec,⟨hid,htype,hpid⟩,hregular,_,howned,rfl⟩ := h
  exact ⟨(checkTransactionIsEmpty_ok hempty).1,hreq,hparent,hlocated,hroot,hnot,hrec,
    hid,htype,hpid,hregular,howned⟩

theorem stageDelete_ok {req : ZiFsDeleteRequest} {plan : DeletePlan} {result : ZiFsDeleteResult}
    (h : (stageDelete vol req plan).eval img tx = (.ok result, tx')) : ∃ s1 s2 s3 removed,
      (stageDirectoryRemoval vol plan.parent plan.located.directoryBlock req.name).eval
        img tx = (.ok removed, s1) ∧
      (stageChangedFileRecord vol req.parentRecordIndex
        (plan.parent.touch req.timestamp)).eval img s1 = (.ok (), s2) ∧
      (editStagedBlock vol (recordTableBlock vol.superblock plan.located.entry.recordIndex)
        (clearFileRecord plan.located.entry.recordIndex)).eval img s2 = (.ok (), s3) ∧
      (stageReleases vol (extentReleases plan.record.extents)).eval img s3 = (.ok (), tx') := by
  obtain ⟨removed,s1,h1,h⟩ := bind_ok_iff.mp h
  rw [lift_bind_ok_iff] at h
  obtain ⟨_,-,h⟩ := h
  obtain ⟨_,s2,h2,h⟩ := bind_ok_iff.mp h
  obtain ⟨_,s3,h3,h⟩ := bind_ok_iff.mp h
  obtain ⟨_,s4,h4,h⟩ := bind_ok_iff.mp h
  obtain ⟨-,rfl⟩ := pure_ok_iff.mp h
  exact ⟨s1,s2,s3,removed,h1,h2,h3,h4⟩

/-! ### The five calls as one -/

/-- The arguments of a prepare call. -/
inductive PrepareRequest where
  | create (request : ZiFsCreateRequest)
  | move (request : ZiFsMoveRequest)
  | truncate (request : ZiFsTruncateRequest)
  | write (request : ZiFsWriteRequest)
  | delete (request : ZiFsDeleteRequest)

/-- Run the prepare call for a request and drop its result. -/
def ziFsTransactionPrepare (volume : ZiFsVolume) : PrepareRequest → Staging Unit
  | .create request => do let _ ← ziFsTransactionPrepareCreateFile volume request
  | .move request => do let _ ← ziFsTransactionPrepareMove volume request
  | .truncate request => do let _ ← ziFsTransactionPrepareTruncate volume request
  | .write request => do let _ ← ziFsTransactionPrepareWrite volume request
  | .delete request => do let _ ← ziFsTransactionPrepareDelete volume request

theorem eval_prepare_truncate (req : ZiFsTruncateRequest) :
    (ziFsTransactionPrepare vol (.truncate req)).eval img tx =
      match (ziFsTransactionPrepareTruncate vol req).eval img tx with
      | (.ok _, s) => (.ok (), s)
      | (.error status, s) => (.error status, s) := by
  rw [ziFsTransactionPrepare,eval_bind]
  rcases (ziFsTransactionPrepareTruncate vol req).eval img tx with ⟨_ | _,_⟩ <;> rfl

end Zizium
