import Zizium.Fs.CommitSafety
import Zizium.Fs.SecurityAgreement

/-!
# Runs of a volume object

What holds of a volume object from its mount on, after any sequence of commits, flushes and
unmounts, whatever the device answers.
-/

namespace Zizium

open Bytes BlockIO ReadM IoM Prog

variable {first vol : ZiFsVolume} {ids : List ℕ} {events rest : List (Event ZiStatus)}
  {d d' : Disk Block}

/-- Commits, flushes and unmounts of a volume object, under any behaviour of the device.  The list
has the IDs of the transactions whose commits changed the device or the object. -/
inductive VolumeRun (first : ZiFsVolume) : List ℕ → ZiFsVolume → Prop where
  | start : VolumeRun first [] first
  | commit {ids volume tx outcome events rest d d'} (before : VolumeRun first ids volume)
      (call : (ziFsTransactionCommit volume tx).run events d = .done outcome d' rest)
      (effect : d' ≠ d ∨ outcome.volume ≠ volume) :
      VolumeRun first (ids ++ [tx.transactionId]) outcome.volume
  | flush {ids volume outcome events rest d d'} (before : VolumeRun first ids volume)
      (call : (ziFsFlushVolume volume).run events d = .done outcome d' rest) :
      VolumeRun first ids outcome.volume
  | unmount {ids volume outcome events rest d d'} (before : VolumeRun first ids volume)
      (call : (ziFsUnmountVolume volume).run events d = .done outcome d' rest) :
      VolumeRun first ids outcome.volume

/-- What a mount checks is true of the object it returns, with any status, and stays true of it
whatever the device answers. -/
theorem volume_sound_throughout {device : ZiBlockDevice} {result : Result Unit}
    (mount : (ziFsMountVolume device).run events d = .done (result, some first) d' rest)
    (h : VolumeRun first ids vol) : vol.Sound := by
  induction h with
  | start => exact ziFsMountVolume_sound mount
  | commit before call effect ih => exact (ziFsTransactionCommit_effect call).1 ih
  | flush before call ih => exact (ziFsFlushVolume_carries call).1 ih
  | unmount before call ih => exact (ziFsUnmountVolume_carries call).1 ih

/-- The commits that have an effect carry consecutive transaction IDs, whatever the device answers.
So of all transactions prepared under one ID at most one reaches the device. -/
theorem commits_in_sequence (h : VolumeRun first ids vol) :
    ids = List.range' (first.superblock.lastCommittedTransaction+1) ids.length := by
  -- The object knows the last ID until it is frozen, and then it commits nothing.
  suffices hlast : ids = List.range' (first.superblock.lastCommittedTransaction+1) ids.length ∧
      (vol.isReadOnly = true ∨ vol.superblock.lastCommittedTransaction =
        first.superblock.lastCommittedTransaction+ids.length) from hlast.1
  induction h with
  | start => exact ⟨rfl,.inr rfl⟩
  | commit before call effect ih =>
    obtain ⟨hwritable,hid,hafter⟩ := (ziFsTransactionCommit_effect call).2 effect
    obtain ⟨hids,hlast⟩ := ih
    have hlast := hlast.resolve_left (by rw [hwritable]; decide)
    rw [List.length_append,List.length_singleton,List.range'_1_concat,← hids]
    rw [hid,hlast] at hafter ⊢
    exact ⟨by congr 2; omega,hafter.imp_right fun hafter => hafter.trans (Nat.add_assoc ..)⟩
  | flush before call ih =>
    obtain ⟨-,hfrozen,hlast⟩ := ziFsFlushVolume_carries call
    exact ⟨ih.1,ih.2.imp hfrozen hlast.trans⟩
  | unmount before call ih =>
    obtain ⟨-,hfrozen,hlast⟩ := ziFsUnmountVolume_carries call
    exact ⟨ih.1,ih.2.imp hfrozen hlast.trans⟩

theorem oneFileDisk_run : ∃ vol, VolumeRun (blankVolume stateMounted) [1] vol := by
  obtain ⟨tx,-,hid,-,hready⟩ := oneFileDisk_ready (s := 3) (by decide) (by decide)
  have hrun := VolumeRun.commit .start (run_nil _ (.ofImage _)) (.inr (commit_changes hready.check))
  rw [hid] at hrun
  exact ⟨_,hrun⟩

theorem volume_sound_throughout_oneFile :
    ∃ vol, VolumeRun (blankVolume stateMounted) [1] vol ∧ vol.Sound := by
  obtain ⟨d',hmount⟩ := blankImage_mounts
  exact oneFileDisk_run.imp fun _ h => ⟨h,volume_sound_throughout hmount h⟩

theorem commits_in_sequence_oneFile :
    ∃ vol, VolumeRun (blankVolume stateMounted) [1] vol ∧ [1] = List.range' 1 1 :=
  oneFileDisk_run.imp fun _ h => ⟨h,commits_in_sequence h⟩

end Zizium
