import Zizium.BlockIO.Answers
import Zizium.BlockIO.Success
import Zizium.Fs.Geometry

/-!
# Mounted volumes

What a mount establishes of a volume object, and what one commit, flush or unmount keeps of it,
whatever the device answers.
-/

namespace Zizium

open Bytes BlockIO ReadM IoM Prog

variable {outcome : VolumeOutcome} {header : ZiFsJournalHeader} {copy start : ℕ}

/-- A superblock that passed the checks of a mount on a device, and a journal if the volume is
writable. -/
structure ZiFsVolume.Sound (volume : ZiFsVolume) : Prop where
  contract : mountDeviceContractIsValid volume.device = true
  total : volume.superblock.totalBlocks = volume.device.blockCount
  valid : volume.superblock.Valid
  fits : volume.superblock.Fits
  security : volume.superblock.UsesSecurity
  features : volume.superblock.incompatibleFeatures &&& (uint64Max-featuresSupported) = 0
  journal : volume.isReadOnly = false → volume.superblock.UsesJournal

variable {vol volume' : ZiFsVolume} {device : ZiBlockDevice} {tx : ZiFsTransaction}
  {events rest : List (Event ZiStatus)} {d d' : Disk Block}

/-! ### Mounting -/

theorem readMountSuperblock_returns {n : ℕ} {sb : ZiFsSuperblock}
    (h : (readMountSuperblock device n).Returns (.ok sb)) : sb.Valid ∧ sb.Fits := by
  obtain ⟨block,-,h⟩ := returns_bind_ok_iff.mp h
  have hdec := (returns_ofExcept_iff.mp h).symm
  exact ⟨ZiFsSuperblock.valid_of_decode hdec,ZiFsSuperblock.fits_of_decode hdec⟩

theorem selectMountSuperblock_mem {primary backup : Result ZiFsSuperblock}
    {selection : MountSelection} (h : selectMountSuperblock primary backup = .ok selection) :
    primary = .ok selection.superblock ∨ backup = .ok selection.superblock := by
  cases primary with
  | error e =>
    cases backup with
    | error e' => cases h
    | ok b =>
      cases h
      exact .inr rfl
  | ok a =>
    cases backup with
    | error e' =>
      cases h
      exact .inl rfl
    | ok b =>
      obtain ⟨-,h⟩ := Except.failIf_bind_ok_iff.mp h
      split at h
      · cases h
        exact .inr rfl
      · cases h
        exact .inl rfl

theorem assessJournalMountState_returns (h : (assessJournalMountState vol).Returns (.ok volume')) :
    volume'.device = vol.device ∧ volume'.superblock = vol.superblock := by
  rw [assessJournalMountState] at h
  split at h
  · cases returns_pure_iff.mp h
    exact ⟨rfl,rfl⟩
  · obtain ⟨state,-,h⟩ := returns_bind_ok_iff.mp h
    cases state with
    | error e =>
      cases returns_pure_iff.mp h
      exact ⟨rfl,rfl⟩
    | ok state =>
      dsimp only at h
      split at h
      · cases returns_pure_iff.mp h
        exact ⟨rfl,rfl⟩
      · split at h
        · cases returns_pure_iff.mp h
          exact ⟨rfl,rfl⟩
        · cases returns_pure_iff.mp h
          exact ⟨rfl,rfl⟩

theorem examineVolume_returns (h : (examineVolume device).Returns (.ok vol)) : vol.Sound := by
  simp only [examineVolume,returns_bind_ok_iff,returns_failIf_ok_iff,exists_const,
    returns_attempt_iff,returns_ofExcept_iff,returns_pure_iff,not_or,
    not_not,ne_eq,Bool.not_eq_false] at h
  obtain ⟨hcontract,primary,hprimary,backup,hbackup,selection,hselect,
    ⟨htotal,hfeatures,hsecurity⟩,assessed,hassess,hvol⟩ := h
  obtain ⟨hdevice,hsb⟩ := assessJournalMountState_returns hassess
  cases hvol
  have hchecked : selection.superblock.Valid ∧ selection.superblock.Fits := by
    rcases selectMountSuperblock_mem hselect.symm with rfl | rfl
    · exact readMountSuperblock_returns hprimary
    · exact readMountSuperblock_returns hbackup
  exact {
    contract := by rw [hdevice]; exact hcontract
    total := by rw [hsb,hdevice]; exact htotal
    valid := by rw [hsb]; exact hchecked.1
    fits := by rw [hsb]; exact hchecked.2
    security := by rw [hsb]; exact hsecurity
    features := by rw [hsb]; exact hfeatures
    journal := by
      intro hwritable
      rw [hsb]
      simp only [Bool.or_eq_false_iff,decide_eq_false_iff_not,not_not] at hwritable
      exact hwritable.1.2 }

theorem ZiFsVolume.Sound.withState (h : vol.Sound) {g t s : ℕ} (hg : g ≠ 0) (hg' : g < 256^8)
    (ht : t < 256^8) (hs : s < 256^4)
    (hstate : superblockStateIsValid (vol.superblock.withState g t s) = true)
    (hdevice : volume'.device = vol.device)
    (hsb : volume'.superblock = vol.superblock.withState g t s)
    (hjournal : volume'.isReadOnly = false → vol.superblock.UsesJournal) : volume'.Sound where
  contract := by rw [hdevice]; exact h.contract
  total := by rw [hsb,hdevice]; exact h.total
  valid := by rw [hsb]; exact h.valid.withState hg hstate
  fits := by rw [hsb]; exact h.fits.withState hg' ht hs
  security := by rw [hsb]; exact h.security
  features := by rw [hsb]; exact h.features
  journal := by rw [hsb]; exact hjournal

theorem ZiFsVolume.Sound.congr (h : vol.Sound) (hdevice : volume'.device = vol.device)
    (hsb : volume'.superblock = vol.superblock)
    (hwritable : volume'.isReadOnly = false → vol.isReadOnly = false) : volume'.Sound := by
  obtain ⟨h1,h2,h3,h4,h5,h6,h7⟩ := h
  rw [← hdevice] at h1 h2
  rw [← hsb] at h2 h3 h4 h5 h6 h7
  exact ⟨h1,h2,h3,h4,h5,h6,fun hw => h7 (hwritable hw)⟩

/-- Soundness goes over to the second object, and what commits go by. -/
def ZiFsVolume.Carries (volume volume' : ZiFsVolume) : Prop :=
  (volume.Sound → volume'.Sound) ∧ (volume.isReadOnly = true → volume'.isReadOnly = true) ∧
    volume'.superblock.lastCommittedTransaction = volume.superblock.lastCommittedTransaction

theorem writeVolumeState_carries {stateFlags : ℕ} (hflags : stateFlags < 256^4)
    (hrun : (writeVolumeState vol stateFlags).prog.run events d = .done (.ok volume') d' rest) :
    vol.Carries volume' := by
  obtain ⟨block,hencode,hrun⟩ := run_ofExcept_bind_ok hrun
  obtain ⟨_,d2,events2,-,hrun⟩ := run_bind_ok hrun
  obtain ⟨_,d3,events3,-,hrun⟩ := run_bind_ok hrun
  cases hrun
  exact ⟨fun h => h.withState h.valid.generation h.fits.generation
    h.fits.lastCommittedTransaction hflags (ziFsEncodeSuperblock_ok_iff.mp hencode).2.1 rfl rfl
    h.journal,id,rfl⟩

theorem activateVolume_sound (h : vol.Sound)
    (hrun : (activateVolume vol).run events d = .done outcome d' rest) : outcome.volume.Sound := by
  rw [activateVolume] at hrun
  split at hrun
  · obtain ⟨r,d1,events1,hwrite,hrun⟩ := run_bind_done hrun
    cases r with
    | error e =>
      cases hrun
      exact h.congr rfl rfl nofun
    | ok volume' =>
      cases hrun
      exact (writeVolumeState_carries (by decide) hwrite).1 (h.congr rfl rfl id)
  · cases hrun
    exact h.congr rfl rfl id

theorem ziFsMountVolume_cases {result : Result Unit}
    (hrun : (ziFsMountVolume device).run events d = .done (result, some vol) d' rest) :
    ∃ examined, (examineVolume device).Returns (.ok examined) ∧
      ((∃ status generation count, result = .error status ∧ vol = { examined with
          securityGeneration := generation, securityRecordCount := count }) ∨
        ∃ security events1 events2 events3,
          (ofQuery (ziFsValidateSecurityState examined).query).run events1 d =
            .done (.ok security) d events2 ∧
          (activateVolume { examined with
              securityGeneration := security.1, securityRecordCount := security.2 }).run events3 d =
            .done ⟨result,vol⟩ d' rest) := by
  obtain ⟨examined,d1,events1,hexamine,hrun⟩ := run_bind_done hrun
  obtain rfl := disk_of_run hexamine
  have hreturns : (examineVolume device).Returns examined := returns_of_run hexamine
  cases examined with
  | error status => cases hrun
  | ok examined =>
    refine ⟨examined,hreturns,?_⟩
    dsimp only at hrun
    split at hrun
    · cases hrun
      exact .inl ⟨_,_,_,rfl,rfl⟩
    obtain ⟨security,d2,events2,hsecurity,hrun⟩ := run_bind_done hrun
    obtain rfl := disk_of_run hsecurity
    cases security with
    | error status =>
      cases hrun
      exact .inl ⟨_,_,_,rfl,rfl⟩
    | ok security =>
      obtain ⟨root,d3,events3,hroot,hrun⟩ := run_bind_done hrun
      obtain rfl := disk_of_run hroot
      cases root with
      | error status =>
        cases hrun
        exact .inl ⟨_,_,_,rfl,rfl⟩
      | ok u =>
        obtain ⟨outcome,d4,events4,hactivate,hrun⟩ := run_bind_done hrun
        cases hrun
        exact .inr ⟨security,_,_,_,hsecurity,hactivate⟩

theorem ziFsMountVolume_sound {result : Result Unit}
    (hrun : (ziFsMountVolume device).run events d = .done (result, some vol) d' rest) :
    vol.Sound := by
  obtain ⟨examined,hreturns,hcases⟩ := ziFsMountVolume_cases hrun
  have hsound := examineVolume_returns hreturns
  rcases hcases with ⟨_,_,_,-,rfl⟩ | ⟨_,_,_,_,-,hactivate⟩
  · exact hsound.congr rfl rfl id
  · refine activateVolume_sound ?_ hactivate
    exact hsound.congr rfl rfl id

/-! ### Commits and flushes -/

theorem ziFsFlushVolume_carries
    (hrun : (ziFsFlushVolume vol).run events d = .done outcome d' rest) :
    vol.Carries outcome.volume := by
  have hsame : vol.Carries vol := ⟨id,id,rfl⟩
  have hfrozen : vol.Carries (freezeVolume vol) :=
    ⟨fun h => h.congr rfl rfl nofun,fun _ => rfl,rfl⟩
  rw [ziFsFlushVolume] at hrun
  split at hrun
  · cases hrun
    exact hsame
  split at hrun
  · cases hrun
    exact hsame
  split at hrun
  · split at hrun
    · cases hrun
      exact hsame
    · cases hrun
      exact hsame
  extract_lets expectedState at hrun
  obtain ⟨checkpointed,d1,events1,-,hrun⟩ := run_bind_done hrun
  cases checkpointed with
  | error status =>
    cases hrun
    exact hfrozen
  | ok checkpointed =>
    dsimp only at hrun
    split at hrun
    · cases hrun
      exact hfrozen
    · obtain ⟨barrier,d2,events2,-,hrun⟩ := run_bind_done hrun
      cases barrier with
      | error status =>
        cases hrun
        exact hfrozen
      | ok u =>
        cases hrun
        exact hsame

theorem ziFsUnmountVolume_carries
    (hrun : (ziFsUnmountVolume vol).run events d = .done outcome d' rest) :
    vol.Carries outcome.volume := by
  rw [ziFsUnmountVolume] at hrun
  split at hrun
  · cases hrun
    exact ⟨id,id,rfl⟩
  obtain ⟨flushed,d1,events1,hflush,hrun⟩ := run_bind_done hrun
  obtain ⟨hsound,hfrozen,hlast⟩ := ziFsFlushVolume_carries hflush
  dsimp only at hrun
  split at hrun
  · cases hrun
    exact ⟨fun h => (hsound h).congr rfl rfl id,hfrozen,hlast⟩
  split at hrun
  · obtain ⟨written,d2,events2,hwrite,hrun⟩ := run_bind_done hrun
    cases written with
    | error status =>
      cases hrun
      exact ⟨fun h => (hsound h).congr rfl rfl nofun,fun _ => rfl,hlast⟩
    | ok volume' =>
      cases hrun
      obtain ⟨hwritten,-,hlast'⟩ := writeVolumeState_carries (by decide) hwrite
      exact ⟨fun h => (hwritten (hsound h)).congr rfl rfl nofun,fun _ => rfl,hlast'.trans hlast⟩
  · cases hrun
    exact ⟨fun h => (hsound h).congr rfl rfl nofun,fun _ => rfl,hlast⟩

theorem consecutive_of_valid {sequence : ℕ}
    (h : journalRecordIsValid (beginRecord tx sequence) = true) :
    tx.targetGeneration = tx.sourceGeneration+1 ∧ tx.sourceGeneration ≠ uint64Max := by
  rw [journalRecordIsValid] at h
  split at h
  · cases h
  · next hfields =>
    simp only [beginRecord,not_or,not_not] at hfields
    exact ⟨hfields.2.2.2.2.1,hfields.2.2.2.1⟩

theorem writeCommit_encoded
    (hrun : (writeCommit vol tx header copy).prog.run events d = .done (.ok ()) d' rest) :
    journalRecordIsValid (beginRecord tx header.nextSequence) = true ∧
      ∃ block, ziFsEncodeSuperblock (vol.superblock.withState tx.targetGeneration
        tx.transactionId (transactionStableSuperblockState vol)) = .ok block := by
  obtain ⟨_,d1,events1,hbegin,hrun⟩ := run_bind_ok hrun
  refine ⟨?_,?_⟩
  · obtain ⟨_,_,_,-,hbegin⟩ := run_bind_ok hbegin
    obtain ⟨_,_,_,-,hbegin⟩ := run_bind_ok hbegin
    obtain ⟨_,hbegin,-⟩ := run_ofExcept_bind_ok hbegin
    obtain ⟨hvalid,-⟩ := Except.failIf_bind_ok_iff.mp hbegin
    exact Bool.eq_true_of_not_eq_false hvalid
  · -- the superblock is written for the second time behind ten other commands
    iterate 10 obtain ⟨_,_,_,-,hrun⟩ := run_bind_ok hrun
    obtain ⟨_,_,_,hstable,-⟩ := run_bind_ok hrun
    obtain ⟨block,hencode,-⟩ := run_ofExcept_bind_ok hstable
    exact ⟨block,hencode⟩

theorem readJournalHeaderCopy_returns {i : ℕ}
    (h : (readJournalHeaderCopy device start i).Returns (.ok header)) :
    header.Fits ∧ journalHeaderIsValid header = true := by
  obtain ⟨block,-,h⟩ := returns_bind_ok_iff.mp h
  have hdec := (returns_ofExcept_iff.mp h).symm
  obtain ⟨-,-,-,hvalid⟩ := ziFsDecodeJournalHeader_ok_iff.mp hdec
  exact ⟨ZiFsJournalHeader.fits_of_decode hdec,hvalid⟩

theorem ziFsLoadJournalHeader_returns
    (h : (ziFsLoadJournalHeader device start).Returns (.ok (header, copy))) :
    header.Fits ∧ journalHeaderIsValid header = true := by
  simp only [ziFsLoadJournalHeader,returns_bind_ok_iff,returns_failIf_ok_iff,
    exists_const,returns_attempt_iff] at h
  obtain ⟨-,first,hfirst,second,hsecond,h⟩ := h
  cases first with
  | error e =>
    cases second with
    | error e' => cases returns_throw_iff.mp h
    | ok candidate =>
      cases returns_pure_iff.mp h
      exact readJournalHeaderCopy_returns hsecond
  | ok current =>
    cases second with
    | error e' =>
      cases returns_pure_iff.mp h
      exact readJournalHeaderCopy_returns hfirst
    | ok candidate =>
      dsimp only at h
      split at h
      · cases returns_pure_iff.mp h
        exact readJournalHeaderCopy_returns hsecond
      · cases returns_pure_iff.mp h
        exact readJournalHeaderCopy_returns hfirst

theorem checkCommit_returns (h : (checkCommit vol tx).Returns (.ok (header, copy))) :
    tx.sourceGeneration < 256^8 ∧ tx.transactionId < 256^8 ∧ vol.isReadOnly = false ∧
      tx.transactionId = vol.superblock.lastCommittedTransaction+1 ∧
      deviceSupportsZifsWrites vol.device = true ∧
      journalMinimumRecordCapacity ≤ ringCapacity vol.superblock := by
  simp only [checkCommit,returns_bind_ok_iff,returns_failIf_ok_iff,exists_const,
    returns_orFail_ok_iff,returns_ofExcept_iff,returns_pure_iff,not_or,
    ne_eq,not_not,Bool.not_eq_true,Bool.not_eq_false] at h
  obtain ⟨-,-,-,⟨hwritable,-,hdevice⟩,⟨header',copy'⟩,hloads,cap,hcap,
    ⟨hsame,hgen,hlast,-,-,-,hnext⟩,-⟩ := h
  obtain ⟨hfits,hvalid⟩ := ziFsLoadJournalHeader_returns hloads
  obtain ⟨-,-,hminimum,-,-,-,-,hid,-⟩ := journalHeaderIsValid_iff.mp hvalid
  obtain ⟨-,hcap⟩ := Except.failIf_bind_ok_iff.mp hcap.symm
  obtain ⟨-,hcap⟩ := Except.failIf_bind_ok_iff.mp hcap
  cases hcap
  rw [hsame] at hminimum
  exact ⟨hgen ▸ hfits.volumeGeneration,hnext ▸ hfits.nextTransactionId,hwritable,
    by rw [← hnext,hid,hlast],hdevice,hminimum⟩

theorem ziFsTransactionCommit_effect {outcome : TransactionOutcome}
    (hrun : (ziFsTransactionCommit vol tx).run events d = .done outcome d' rest) :
    (vol.Sound → outcome.volume.Sound) ∧ (d' ≠ d ∨ outcome.volume ≠ vol →
      vol.isReadOnly = false ∧ tx.transactionId = vol.superblock.lastCommittedTransaction+1 ∧
        (outcome.volume.isReadOnly = true ∨
          outcome.volume.superblock.lastCommittedTransaction = tx.transactionId)) := by
  obtain ⟨checked,d1,events1,hcheck,hrun⟩ := run_bind_done hrun
  obtain rfl := disk_of_run hcheck
  cases checked with
  | error status =>
    cases hrun
    exact ⟨id,by simp⟩
  | ok checked =>
    obtain ⟨hsource,hid,hwritable,hnext,-⟩ := checkCommit_returns (returns_of_run hcheck)
    obtain ⟨written,d2,events2,hwrite,hrun⟩ := run_bind_done hrun
    cases written with
    | error status =>
      cases hrun
      exact ⟨fun h => h.congr rfl rfl nofun,fun _ => ⟨hwritable,hnext,.inl rfl⟩⟩
    | ok u =>
      cases hrun
      refine ⟨fun h => ?_,fun _ => ⟨hwritable,hnext,.inr rfl⟩⟩
      obtain ⟨hbegin,block,hencode⟩ := writeCommit_encoded hwrite
      obtain ⟨htarget,hsource'⟩ := consecutive_of_valid hbegin
      have hmax := uint64Max_eq
      refine h.withState (by omega) (by omega) hid ?_ (ziFsEncodeSuperblock_ok_iff.mp hencode).2.1
        rfl rfl h.journal
      rw [transactionStableSuperblockState]
      split <;> decide

end Zizium
