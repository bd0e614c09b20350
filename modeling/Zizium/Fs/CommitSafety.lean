import Zizium.Fs.CommitSteps
import Zizium.Fs.Mounted
import Zizium.Fs.Ownership
import Zizium.Fs.PrepareSafety

/-!
# A commit refuses to start or finishes

On a device without failures, the commit of `kernel/fs/zifs/transaction.c` either returns an
error before its first write or carries the transaction to the end, unless one of two counters
is advanced to a value that a later step refuses.
-/

namespace Zizium

open Bytes BlockIO ReadM Prog List

variable {vol source : ZiFsVolume} {img : ℕ → Block} {tx before : ZiFsTransaction}
  {header : ZiFsJournalHeader} {copy : ℕ}

/-- The image after a complete commit: both superblocks are the stable ones of the target
generation, every staged image is in its home block, and the journal is empty behind the
checkpointed transaction. -/
structure CommitDone (volume : ZiFsVolume) (tx : ZiFsTransaction) (image : ℕ → Block) : Prop where
  primary : image 0 =
    superblockBlock (targetSuperblock volume tx (transactionStableSuperblockState volume))
  backup : image volume.superblock.backupSuperblock =
    superblockBlock (targetSuperblock volume tx (transactionStableSuperblockState volume))
  homes : ∀ i ∈ tx.blockImages, image i.1 = i.2
  journal : ∃ header copy, LoadsHeader volume.superblock image header copy ∧
    header.volumeGeneration = tx.targetGeneration ∧
    header.lastCommittedTransaction = tx.transactionId ∧
    header.lastCheckpointTransaction = tx.transactionId ∧ header.headRecord = header.tailRecord

/-- A commit returns an error and writes nothing, or returns success and has done everything. -/
def CommitSettles (volume : ZiFsVolume) (tx : ZiFsTransaction) (image : ℕ → Block) : Prop :=
  (∃ status, ((ziFsTransactionCommit volume tx).result image).status = .error status) ∧
      (∀ first blocks, .write first blocks ∉ (ziFsTransactionCommit volume tx).ops image) ∨
    ((ziFsTransactionCommit volume tx).result image).status = .ok () ∧
      CommitDone volume tx (applyOps image ((ziFsTransactionCommit volume tx).ops image))

/-- The commit starts although a counter is about to run out: the header sequence number wraps
around with its second increment, or the target generation is the last one. -/
def CounterExhausted (volume : ZiFsVolume) (tx : ZiFsTransaction) (image : ℕ → Block) : Prop :=
  ∃ header copy, CommitAccepts volume image tx header copy ∧
    tx.targetGeneration = tx.sourceGeneration+1 ∧ tx.sourceGeneration ≠ uint64Max ∧
    (header.headerSequence = uint64Max-1 ∨ tx.targetGeneration = uint64Max)

/-! ### The outcome of a commit -/

theorem commit_of_refused {status : ZiStatus} (h : (checkCommit vol tx).eval img = .error status) :
    CommitSettles vol tx img := by
  have hquery : (checkCommit vol tx).query.eval img = .error status := h
  refine .inl ⟨⟨status,?_⟩,?_⟩
  · rw [ziFsTransactionCommit,result_seq,result_ofQuery,hquery]
    rfl
  · rw [ziFsTransactionCommit,ops_seq,ops_ofQuery,result_ofQuery,hquery]
    exact fun _ _ hmem => not_mem_nil hmem

section

variable (h : (checkCommit vol tx).eval img = .ok (header, copy))

include h

theorem checkCommit_query : (checkCommit vol tx).query.eval img = .ok (header, copy) := h

theorem commit_ops :
    (ziFsTransactionCommit vol tx).ops img = (writeCommit vol tx header copy).ops img := by
  rw [ziFsTransactionCommit,ops_seq,ops_ofQuery,result_ofQuery,checkCommit_query h]
  rw [nil_append,ops_seq]
  cases (writeCommit vol tx header copy).prog.result (applyOps img []) with
  | error status => exact append_nil _
  | ok u => exact append_nil _

theorem commit_error {status : ZiStatus}
    (hwrite : (writeCommit vol tx header copy).result img = .error status) :
    ((ziFsTransactionCommit vol tx).result img).status = .error status := by
  have hwrite : (writeCommit vol tx header copy).prog.result img = .error status := hwrite
  rw [ziFsTransactionCommit,result_seq,ops_ofQuery,result_ofQuery,checkCommit_query h]
  rw [applyOps_nil,result_seq,hwrite]
  rfl

theorem commit_ok (hwrite : (writeCommit vol tx header copy).result img = .ok ()) :
    ((ziFsTransactionCommit vol tx).result img).status =
      (ziFsTransactionReset (committedVolume vol tx) tx).1 := by
  have hwrite : (writeCommit vol tx header copy).prog.result img = .ok () := hwrite
  rw [ziFsTransactionCommit,result_seq,ops_ofQuery,result_ofQuery,checkCommit_query h]
  rw [applyOps_nil,result_seq,hwrite]
  rfl

theorem commit_changes : ((ziFsTransactionCommit vol tx).result img).volume ≠ vol := by
  have hreturns := (checkCommit vol tx).returns_eval img
  rw [h] at hreturns
  obtain ⟨-,-,hwritable,hid,-⟩ := checkCommit_returns hreturns
  rw [ziFsTransactionCommit,result_seq,result_ofQuery,checkCommit_query h,result_seq]
  intro hsame
  split at hsame
  · cases (congrArg ZiFsVolume.isReadOnly hsame).trans hwritable
  · have hlast : tx.transactionId = vol.superblock.lastCommittedTransaction :=
      congrArg (·.superblock.lastCommittedTransaction) hsame
    omega

end

theorem ZiFsVolume.Sound.geometry (h : vol.Sound) (hwritable : vol.isReadOnly = false)
    (hdevice : deviceSupportsZifsWrites vol.device = true)
    (hcap : journalMinimumRecordCapacity ≤ ringCapacity vol.superblock) :
    Geometry vol.device vol.superblock :=
  ⟨h.contract,hdevice,h.total,h.valid,h.fits,h.journal hwritable,h.security,h.features,hcap⟩

theorem CommitAccepts.geometry (h : CommitAccepts vol img tx header copy) (hsound : vol.Sound) :
    Geometry vol.device vol.superblock := by
  obtain ⟨-,-,hminimum,-⟩ := journalHeaderIsValid_iff.mp h.loads.valid
  exact hsound.geometry h.writable h.device (h.capacity ▸ hminimum)

theorem CommitAccepts.of_check (hsound : vol.Sound)
    (h : (checkCommit vol tx).eval img = .ok (header, copy)) :
    CommitAccepts vol img tx header copy := by
  have hreturns := (checkCommit vol tx).returns_eval img
  rw [h] at hreturns
  obtain ⟨-,-,hwritable,-,hdevice,hcap⟩ := checkCommit_returns hreturns
  exact (hsound.geometry hwritable hdevice hcap).checkCommit_ok_iff.mp h

theorem CommitAccepts.reset (h : CommitAccepts vol img tx header copy) :
    (ziFsTransactionReset (committedVolume vol tx) tx).1 =
      if tx.targetGeneration = uint64Max then .error .invalidState else .ok () := by
  have hstable : (committedVolume vol tx).superblock.stateFlags =
      transactionStableSuperblockState (committedVolume vol tx) := rfl
  rw [ziFsTransactionReset,if_neg (by rw [h.transactionIsValid]; decide),if_neg (by
      rw [h.state]
      exact fun h => h.elim (fun h => by cases h) fun h => by cases h),
    if_neg (by
      rw [hstable,show (committedVolume vol tx).isMounted = vol.isMounted from rfl,h.mounted]
      simp)]
  by_cases hlast : tx.targetGeneration = uint64Max
  · rw [if_pos hlast]
    exact congrArg Prod.fst (if_pos (.inl hlast))
  · rw [if_neg hlast]
    exact congrArg Prod.fst (if_neg (not_or.mpr ⟨hlast,h.transactionId.2.ne⟩))

section

variable (h : CommitReady vol img tx header copy)

include h

theorem CommitReady.write_mem :
    ∃ first blocks, .write first blocks ∈ (writeCommit vol tx header copy).ops img := by
  refine ⟨slotBlock vol.superblock header.headRecord,
    journalRecordPair (beginRecord tx header.nextSequence),?_⟩
  rw [writeCommit,writeJournalRecord_eq h.geometry h.head_lt h.beginRecord_valid,
    IoM.ops_bind_ok (IoM.result_write _ _),IoM.ops_write]
  exact mem_append_left _ (mem_singleton_self _)

theorem CommitReady.writeCommit_completes (hseq : header.headerSequence ≠ uint64Max-1) :
    (writeCommit vol tx header copy).Completes img () (afterFinal vol tx header copy img) :=
  h.writeCommit_reaches.completes (storeJournalHeader_completes h.geometry h.loads.decode.1
    (h.finalHeader_valid_iff.mpr hseq))

theorem CommitReady.done (hseq : header.headerSequence ≠ uint64Max-1) :
    CommitDone vol tx (afterFinal vol tx header copy img) where
  primary := h.afterFinal_superblocks.1
  backup := h.afterFinal_superblocks.2
  homes := fun _ hi => h.afterFinal_home hi
  journal := ⟨_,_,h.loads_afterFinal hseq,rfl,rfl,rfl,rfl⟩

theorem CommitReady.not_settles
    (hcounter : header.headerSequence = uint64Max-1 ∨ tx.targetGeneration = uint64Max) :
    (∃ status, ((ziFsTransactionCommit vol tx).result img).status = .error status) ∧
      ∃ first blocks, .write first blocks ∈ (ziFsTransactionCommit vol tx).ops img := by
  refine ⟨?_,by rw [commit_ops h.check]; exact h.write_mem⟩
  by_cases hseq : header.headerSequence = uint64Max-1
  · have hinvalid : journalHeaderIsValid (finalHeader vol tx header) = false :=
      Bool.eq_false_iff.mpr fun hvalid => h.finalHeader_valid_iff.mp hvalid hseq
    refine ⟨.invalidArgument,commit_error h.check (h.writeCommit_reaches.result.trans ?_)⟩
    exact storeJournalHeader_refused h.geometry h.loads.decode.1 hinvalid
  · refine ⟨.invalidState,?_⟩
    rw [commit_ok h.check (h.writeCommit_completes hseq).result,h.reset,
      if_pos (hcounter.resolve_left hseq)]

theorem CommitReady.settles (hseq : header.headerSequence ≠ uint64Max-1)
    (hlast : tx.targetGeneration ≠ uint64Max) : CommitSettles vol tx img := by
  have hcompletes := h.writeCommit_completes hseq
  refine .inr ⟨?_,?_⟩
  · rw [commit_ok h.check hcompletes.result,h.reset,if_neg hlast]
  · rw [commit_ops h.check,hcompletes.image]
    exact h.done hseq

end

/-! ### A small volume -/

theorem blankVolume_sound : (blankVolume stateMounted).Sound where
  contract := by decide
  total := rfl
  valid := blankSuperblock_valid.withState (by decide) (by decide)
  fits := blankSuperblock_fits.withState (by decide) (by decide) (by decide)
  security := by show 15 &&& 2 ≠ 0; decide
  features := by show 15 &&& _ = 0; decide
  journal := fun _ => by show 15 &&& 1 ≠ 0; decide

theorem oneFileDisk_loads {s : ℕ} (hlow : 2 < s) (hs : s < uint64Max) :
    LoadsHeader (blankVolume stateMounted).superblock
      (oneFileDisk (journalHeaderBlock (blankHeader s))) (blankHeader s) 0 := by
  have hfirst := ziFsDecodeJournalHeader_journalHeaderBlock (blankHeader_fits hs)
    (blankHeader_valid (by omega))
  have hsecond := ziFsDecodeJournalHeader_journalHeaderBlock (blankHeader_fits (s := 2) (by decide))
    (blankHeader_valid (by decide))
  show selectHeader (ziFsDecodeJournalHeader (journalHeaderBlock (blankHeader s)).mem)
    (ziFsDecodeJournalHeader (journalHeaderBlock (blankHeader 2)).mem) = _
  rw [hfirst,hsecond]
  exact if_neg (by show ¬ s < 2; omega)

theorem oneFileDisk_ready {s : ℕ} (hlow : 2 < s) (hs : s < uint64Max) :
    ∃ tx, (ziFsTransactionPrepare (blankVolume stateMounted) (.truncate (cutFile 4097))).eval
        (oneFileDisk (journalHeaderBlock (blankHeader s))) freshTransaction = (.ok (), tx) ∧
      tx.transactionId = 1 ∧ tx.targetGeneration = 2 ∧ CommitReady (blankVolume stateMounted)
        (oneFileDisk (journalHeaderBlock (blankHeader s))) tx (blankHeader s) 0 := by
  have hloads := oneFileDisk_loads hlow hs
  generalize journalHeaderBlock (blankHeader s) = b at hloads ⊢
  obtain ⟨staged,hstage,hcap,hlen,hdeferred⟩ : ∃ staged, (stageTruncate (blankVolume stateMounted)
      (cutFile 4097) (cutPlan 4097)).eval (oneFileDisk b) freshTransaction =
        (.ok ⟨2,1,4100,4097,2,0⟩, staged) ∧ staged.blockImageCapacity = 2 ∧
        staged.blockImages.length = 2 ∧ staged.deferredExtents = [] := by
    refine ⟨_,rfl,?_⟩
    exact ⟨rfl,rfl,rfl⟩
  have hprepare : (ziFsTransactionPrepare (blankVolume stateMounted) (.truncate
      (cutFile 4097))).eval (oneFileDisk b) freshTransaction =
        (.ok (), { staged with state := .prepared }) := by
    rw [oneFileDisk_cut b (by decide),hstage]
  have hprepared := isPrepared_of_prepare blankVolume_sound.valid.layout hprepare
  have haccepts : CommitAccepts (blankVolume stateMounted) (oneFileDisk b)
      { staged with state := .prepared } (blankHeader s) 0 := {
    mounted := rfl
    writable := rfl
    recovered := rfl
    device := by decide
    state := rfl
    room := by rw [hcap]; decide
    images := by rw [hcap,hlen]; decide
    deferred := by rw [hdeferred]; decide
    loads := hloads
    capacity := rfl
    generation := hprepared.sourceGeneration.symm
    committed := rfl
    checkpointed := rfl
    tail := rfl
    headerSequence := hs
    nextSequence := by rw [hlen]; show 1+2+3 ≤ uint64Max; decide
    transactionId := ⟨hprepared.transactionId.symm,by rw [hprepared.transactionId]; decide⟩
    space := by rw [hlen]; decide }
  refine ⟨_,hprepare,hprepared.transactionId,hprepared.targetGeneration,haccepts,
    haccepts.geometry blankVolume_sound,?_,hprepared.home,hprepared.nodup⟩
  rw [hprepared.targetGeneration,hprepared.sourceGeneration]
  decide

/-! ### Refuse or finish -/

/-- On every sound volume and every image, the commit of a prepared transaction refuses before
its first write or finishes, unless the checks pass while a counter is exhausted. -/
theorem commit_settles_iff (sound : vol.Sound) {request : PrepareRequest}
    {events rest : List (Event ZiStatus)} {d d' : Disk Block} {g t s : ℕ}
    (layout : source.superblock = vol.superblock.withState g t s)
    (prepared : (prepareProg source request before).run events d = .done (.ok (), tx) d' rest)
    (img : ℕ → Block) : CommitSettles vol tx img ↔ ¬ CounterExhausted vol tx img := by
  have hlayout : source.superblock.Layout := by
    rw [layout]
    exact sound.valid.layout.withState
  have hprepared := (ziFsTransactionPrepare_returns hlayout (returns_of_run prepared)).isPrepared
  have hhome : ∀ n ∈ tx.targets, vol.superblock.IsHome n := fun n hn => by
    have := hprepared.home n hn
    rwa [layout] at this
  rcases hcheck : (checkCommit vol tx).eval img with status | ⟨header,copy⟩
  · refine iff_of_true (commit_of_refused hcheck) ?_
    rintro ⟨header,copy,haccepts,-⟩
    cases hcheck.symm.trans ((haccepts.geometry sound).checkCommit_ok_iff.mpr haccepts)
  have haccepts := CommitAccepts.of_check sound hcheck
  have hgeo := haccepts.geometry sound
  by_cases hconsecutive : tx.targetGeneration = tx.sourceGeneration+1 ∧
      tx.sourceGeneration < uint64Max
  · have hready : CommitReady vol img tx header copy :=
      ⟨haccepts,hgeo,hconsecutive,hhome,hprepared.nodup⟩
    by_cases hcounter : header.headerSequence = uint64Max-1 ∨ tx.targetGeneration = uint64Max
    · obtain ⟨⟨status,hstatus⟩,first,blocks,hwrite⟩ := hready.not_settles hcounter
      refine iff_of_false ?_ (not_not.mpr ⟨header,copy,haccepts,hconsecutive.1,
        hconsecutive.2.ne,hcounter⟩)
      rintro (⟨-,hnone⟩ | ⟨hok,-⟩)
      · exact hnone first blocks hwrite
      · cases hstatus.symm.trans hok
    · obtain ⟨hseq,hlast⟩ := not_or.mp hcounter
      refine iff_of_true (hready.settles hseq hlast) ?_
      rintro ⟨header',copy',haccepts',-,-,hcounter'⟩
      cases hcheck.symm.trans (hgeo.checkCommit_ok_iff.mpr haccepts')
      exact hcounter hcounter'
  · have hsource : tx.sourceGeneration < 256^8 :=
      haccepts.generation ▸ haccepts.loads.fits.volumeGeneration
    have hmax := uint64Max_eq
    have hinvalid : journalRecordIsValid (beginRecord tx header.nextSequence) = false := by
      refine Bool.eq_false_iff.mpr fun hvalid => hconsecutive ?_
      obtain ⟨htarget,hne⟩ := consecutive_of_valid hvalid
      exact ⟨htarget,by omega⟩
    have hhead : header.headRecord < ringCapacity vol.superblock := by
      obtain ⟨-,-,-,hhead,-⟩ := journalHeaderIsValid_iff.mp haccepts.loads.valid
      rwa [haccepts.capacity] at hhead
    -- Generations that do not follow each other are refused with the first record.
    obtain ⟨hresult,hops⟩ : (writeCommit vol tx header copy).result img = .error .invalidArgument ∧
        (writeCommit vol tx header copy).ops img = [] := by
      rw [writeCommit,writeJournalRecord_refused hgeo hhead hinvalid]
      exact IoM.bind_of_fails rfl rfl
    refine iff_of_true (.inl ⟨⟨_,commit_error hcheck hresult⟩,?_⟩) ?_
    · rw [commit_ops hcheck,hops]
      exact fun _ _ hmem => not_mem_nil hmem
    · rintro ⟨header',copy',-,htarget,hne,-⟩
      exact hconsecutive ⟨htarget,by omega⟩

/-- A small volume whose journal header has a sequence number of three. -/
theorem commit_settles_iff_oneFile : (blankVolume stateMounted).Sound ∧ ∃ tx d' rest,
      (prepareProg (blankVolume stateMounted) (.truncate (cutFile 4097)) freshTransaction).run []
        (.ofImage (oneFileDisk (journalHeaderBlock (blankHeader 3)))) = .done (.ok (), tx) d' rest ∧
      CommitSettles (blankVolume stateMounted) tx
        (oneFileDisk (journalHeaderBlock (blankHeader 3))) := by
  obtain ⟨tx,hprepare,-,htarget,hready⟩ := oneFileDisk_ready (s := 3) (by decide) (by decide)
  have hrun := prepareProg_run_nil hprepare
  refine ⟨blankVolume_sound,tx,_,_,hrun,(commit_settles_iff blankVolume_sound rfl hrun _).mpr ?_⟩
  rintro ⟨header,copy,haccepts,-,-,hcounter⟩
  cases haccepts.loads.symm.trans hready.loads
  rw [htarget] at hcounter
  revert hcounter
  decide

/-- With a header sequence number of `2 ^ 64 - 2` the commit fails after its first write. -/
theorem commit_fails_late : (blankVolume stateMounted).Sound ∧ ∃ tx,
      (ziFsTransactionPrepare (blankVolume stateMounted) (.truncate (cutFile 4097))).eval
        (oneFileDisk (journalHeaderBlock (blankHeader (2^64-2)))) freshTransaction = (.ok (), tx) ∧
      (∃ status, ((ziFsTransactionCommit (blankVolume stateMounted) tx).result
        (oneFileDisk (journalHeaderBlock (blankHeader (2^64-2))))).status = .error status) ∧
      ∃ first blocks, .write first blocks ∈ (ziFsTransactionCommit
        (blankVolume stateMounted) tx).ops
        (oneFileDisk (journalHeaderBlock (blankHeader (2^64-2)))) := by
  obtain ⟨tx,hprepare,-,-,hready⟩ := oneFileDisk_ready (s := 2^64-2) (by decide) (by decide)
  exact ⟨blankVolume_sound,tx,hprepare,hready.not_settles (.inl rfl)⟩

end Zizium
