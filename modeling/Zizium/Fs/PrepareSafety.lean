import Zizium.Fs.Ownership

/-!
# Preparing has no side effects

A prepare call that fails leaves the transaction object as it found it, and one that succeeds
leaves images of distinct blocks outside the superblocks and the journal.
-/

namespace Zizium

open Bytes BlockIO

def prepareProg (volume : ZiFsVolume) (request : PrepareRequest) (tx : ZiFsTransaction) :
    DeviceProg (Result Unit × ZiFsTransaction) :=
  .ofQuery ((ziFsTransactionPrepare volume request).query tx)

/-- The transaction objects that the calls on mounted volumes lead to, under any behaviour of
the device. -/
inductive ZiFsTransaction.Reachable : ZiFsTransaction → Prop where
  | initialise {volume workspaceSize tx}
      (call : ziFsTransactionInitialise volume workspaceSize = .ok tx) : Reachable tx
  | prepare {volume request tx result tx' events rest d d'} (before : Reachable tx)
      (ranges : superblockRangesAreValid volume.superblock = true)
      (call : (prepareProg volume request tx).run events d = .done (result, tx') d' rest) :
      Reachable tx'
  | commit {volume tx outcome events rest d d'} (before : Reachable tx)
      (call : (ziFsTransactionCommit volume tx).run events d = .done outcome d' rest) :
      Reachable outcome.transaction
  | reset {volume tx} (before : Reachable tx) : Reachable (ziFsTransactionReset volume tx).2

/-- The object holds no images and no extents to release. -/
structure ZiFsTransaction.IsEmpty (tx : ZiFsTransaction) : Prop where
  images : tx.blockImages = []
  deferred : tx.deferredExtents = []

variable {vol : ZiFsVolume} {tx tx' : ZiFsTransaction} {events rest : List (Event ZiStatus)}
  {d d' : Disk Block}

/-! ### What one call does to the object -/

theorem ziFsTransactionReset_snd (vol : ZiFsVolume) (tx : ZiFsTransaction) :
    (ziFsTransactionReset vol tx).2 = tx ∨ (ziFsTransactionReset vol tx).2.IsEmpty := by
  rw [ziFsTransactionReset]
  dsimp only
  split_ifs
  · exact .inl rfl
  · exact .inl rfl
  · exact .inl rfl
  · exact .inr ⟨rfl,rfl⟩
  · exact .inr ⟨rfl,rfl⟩

theorem ziFsTransactionCommit_transaction {outcome : TransactionOutcome}
    (h : (ziFsTransactionCommit vol tx).run events d = .done outcome d' rest) :
    outcome.transaction = tx ∨ outcome.transaction.state = .failed ∨
      outcome.transaction.IsEmpty := by
  obtain ⟨checked,d1,events1,-,h⟩ := Prog.run_bind_done h
  cases checked with
  | error status =>
    cases h
    exact .inl rfl
  | ok header =>
    obtain ⟨written,d2,events2,-,h⟩ := Prog.run_bind_done h
    cases written with
    | error status =>
      cases h
      exact .inr (.inl rfl)
    | ok u =>
      cases h
      exact (ziFsTransactionReset_snd _ tx).imp_right .inr

theorem prepareProg_run (hlayout : vol.superblock.Layout) (req : PrepareRequest)
    (tx : ZiFsTransaction) (events : List (Event ZiStatus)) (d : Disk Block) :
    (∃ result tx' rest, (prepareProg vol req tx).run events d = .done (result, tx') d rest ∧
      PrepareOutcome vol.superblock tx result tx') ∨
      ∃ rest, (prepareProg vol req tx).run events d = .crashed d rest := by
  rcases Prog.run_ofQuery ((ziFsTransactionPrepare vol req).query tx) events d with
    ⟨⟨result,tx'⟩,rest,hrun,hreturns⟩ | hcrashed
  · exact .inl ⟨result,tx',rest,hrun,ziFsTransactionPrepare_returns hlayout hreturns⟩
  · exact .inr hcrashed

theorem PrepareOutcome.eq_of_error {sb : ZiFsSuperblock} {status : ZiStatus}
    (h : PrepareOutcome sb tx (.error status : Result Unit) tx') (hempty : tx.IsEmpty) :
    tx' = tx := by
  cases h with
  | refused => rfl
  | @discarded s _ ready grows =>
    obtain ⟨sourceGeneration,targetGeneration,transactionId,state,cap,images,deferred⟩ :=
      tx
    simp only [transactionDiscardImages,ZiFsTransaction.mk.injEq]
    exact ⟨grows.sourceGeneration,grows.targetGeneration,grows.transactionId,ready.state.symm,
      grows.capacity,hempty.images.symm,hempty.deferred.symm⟩

theorem ZiFsTransaction.Reachable.isEmpty (h : tx.Reachable) (hready : tx.state = .ready) :
    tx.IsEmpty := by
  induction h with
  | initialise call =>
    simp only [ziFsTransactionInitialise,Except.bind_ok_iff,Except.failIf_ok_iff,exists_const,
      Except.pure_ok_iff] at call
    obtain ⟨-,-,-,rfl⟩ := call
    exact ⟨rfl,rfl⟩
  | @prepare vol req tx result tx' events rest d d' before ranges call ih =>
    rcases prepareProg_run (superblockRangesAreValid_iff.mp ranges) req tx events d with
      ⟨result',s,rest',hrun,houtcome⟩ | ⟨rest',hcrashed⟩
    · cases hrun.symm.trans call
      cases houtcome with
      | refused => exact ih hready
      | discarded => exact ⟨rfl,rfl⟩
      | prepared => cases hready
    · cases hcrashed.symm.trans call
  | commit before call ih =>
    rcases ziFsTransactionCommit_transaction call with heq | hfailed | hempty
    · rw [heq] at hready ⊢
      exact ih hready
    · rw [hfailed] at hready
      cases hready
    · exact hempty
  | @reset vol tx before ih =>
    rcases ziFsTransactionReset_snd vol tx with heq | hempty
    · rw [heq] at hready ⊢
      exact ih hready
    · exact hempty

/-! ### The calls as programs over the device -/

/-- A prepare call writes nothing.  When it fails the transaction is the empty ready one that
it got; when it succeeds the images belong to distinct blocks outside the superblocks and the
journal. -/
theorem prepare_failureAtomic (ranges : superblockRangesAreValid vol.superblock = true)
    (reachable : tx.Reachable) (ready : tx.state = .ready) (request : PrepareRequest)
    (events : List (Event ZiStatus)) (d : Disk Block) :
    (∃ result tx' rest, (prepareProg vol request tx).run events d = .done (result, tx') d rest ∧
      (∀ status, result = .error status →
        tx' = tx ∧ tx'.state = .ready ∧ tx'.blockImages = [] ∧ tx'.deferredExtents = []) ∧
      (result = .ok () → tx'.targets.Nodup ∧ ∀ block ∈ tx'.targets,
        block ≠ 0 ∧ block ≠ vol.superblock.backupSuperblock ∧
          ¬(vol.superblock.journalStart ≤ block ∧
            block < vol.superblock.journalStart+vol.superblock.journalBlocks))) ∨
      ∃ rest, (prepareProg vol request tx).run events d = .crashed d rest := by
  refine (prepareProg_run (superblockRangesAreValid_iff.mp ranges) request tx events d).imp_left ?_
  rintro ⟨result,tx',rest,hrun,houtcome⟩
  refine ⟨result,tx',rest,hrun,?_,?_⟩
  · rintro status rfl
    have hempty := reachable.isEmpty ready
    cases houtcome.eq_of_error hempty
    exact ⟨rfl,ready,hempty.images,hempty.deferred⟩
  · rintro rfl
    have hprepared := houtcome.isPrepared
    exact ⟨hprepared.nodup,fun block hblock => (hprepared.home block hblock).2⟩

theorem prepareProg_run_nil {img : ℕ → Block} {req : PrepareRequest} {r : Result Unit}
    (h : (ziFsTransactionPrepare vol req).eval img tx = (r, tx')) :
    (prepareProg vol req tx).run [] (.ofImage img) = .done (r, tx') (.ofImage img) [] := by
  have heval : ((ziFsTransactionPrepare vol req).query tx).eval img = (r, tx') := h
  rw [prepareProg,Prog.run_nil,Prog.result_ofQuery,Prog.ops_ofQuery,Disk.current_ofImage,heval]
  rfl

/-- Cutting the file to five bytes needs an image more than there is room for.  The two that were
staged before are discarded. -/
theorem prepare_failureAtomic_noRoom :
    superblockRangesAreValid (blankVolume stateMounted).superblock = true ∧
      ziFsTransactionInitialise (blankVolume stateMounted) (4*4096) = .ok freshTransaction ∧
      (∃ s, (stageTruncate (blankVolume stateMounted) (cutFile 5) (cutPlan 5)).eval
        (oneFileDisk Buffer.zero) freshTransaction = (.error .bufferTooSmall, s) ∧
          s.blockImages.length = 2) ∧
      ∃ tx', (prepareProg (blankVolume stateMounted) (.truncate (cutFile 5))
        freshTransaction).run []
        (.ofImage (oneFileDisk Buffer.zero)) =
          .done (.error .bufferTooSmall, tx') (.ofImage (oneFileDisk Buffer.zero)) [] ∧
        tx' = freshTransaction := by
  have hranges : superblockRangesAreValid (blankVolume stateMounted).superblock = true := by decide
  have hfresh : ziFsTransactionInitialise (blankVolume stateMounted) (4*4096) =
      .ok freshTransaction := rfl
  obtain ⟨s,hstage,himages⟩ : ∃ s, (stageTruncate (blankVolume stateMounted) (cutFile 5)
      (cutPlan 5)).eval (oneFileDisk Buffer.zero) freshTransaction = (.error .bufferTooSmall, s) ∧
        s.blockImages.length = 2 := ⟨_,rfl,rfl⟩
  have hfail := prepareProg_run_nil ((oneFileDisk_cut Buffer.zero (show 5 ≤ 4100 by decide)).trans
    (by rw [hstage]))
  refine ⟨hranges,hfresh,⟨s,hstage,himages⟩,_,hfail,?_⟩
  rcases prepare_failureAtomic hranges (.initialise hfresh) rfl (.truncate (cutFile 5)) []
    (.ofImage (oneFileDisk Buffer.zero)) with ⟨result,s',rest,hrun,hfailed,-⟩ | ⟨rest,hrun⟩
  · cases hfail.symm.trans hrun
    exact (hfailed _ rfl).1
  · cases hfail.symm.trans hrun

end Zizium
