import Zizium.Fs.Authorisation
import Zizium.Fs.Mounted

/-!
# Security descriptors of a mounted volume

On a mounted volume the descriptor of every file record can be loaded.
-/

namespace Zizium

open Bytes BlockIO ZiFsSuperblock ReadM Function

variable {device : ZiBlockDevice} {idx : ℕ} {record : ZiFsFileRecord}

variable {vol volume' : ZiFsVolume} {img : ℕ → Block} {events rest : List (Event ZiStatus)}
  {d d' : Disk Block}

theorem ZiFsVolume.Sound.hasSecurityTable (h : vol.Sound) : vol.HasSecurityTable := by
  have hinside := h.valid.layout.inside
    (vol.superblock.securityTableStart, vol.superblock.securityTableBlocks)
    (by simp [tables])
  exact ⟨h.security,h.valid.layout.security h.security,h.total ▸ hinside.2⟩

/-! ### What the mount has read -/

theorem ZiBlockDevice.strict_readBlock (device : ZiBlockDevice) (block : ℕ) :
    (device.readBlock block).Strict :=
  .bind (.bind .failIf fun _ => .readBlocks block 1) fun _ => .pure _

theorem strict_validateDeviceSecurityRecords (vol : ZiFsVolume)
    (header : ZiFsSecurityTableHeader) : (validateDeviceSecurityRecords vol header).Strict := by
  refine .bind (.loop (fun i scan => ?_) _ _ _) fun scan => .bind .failIf fun _ => .pure _
  exact .bind (vol.device.strict_readBlock _) fun block => .ofExcept _

theorem strict_calculateDeviceTableChecksum (vol : ZiFsVolume) :
    (calculateDeviceTableChecksum vol).Strict := by
  refine .loop (fun i sum => .bind (vol.device.strict_readBlock _) fun block => ?_) _ _ _
  split
  · exact .pure _
  · exact .pure _

theorem strict_validateFileSecurityReferences (vol : ZiFsVolume) (ids : List ℕ) :
    (validateFileSecurityReferences vol ids).Strict := by
  refine .loop (fun i _ => .bind (vol.device.strict_readBlock _) fun block => ?_) _ _ _
  exact .loop (fun slot _ => .ofExcept _) _ _ _

theorem strict_ziFsValidateSecurityState (vol : ZiFsVolume) :
    (ziFsValidateSecurityState vol).Strict := by
  refine .bind .failIf fun _ => .bind (vol.device.strict_readBlock _) fun block => ?_
  refine .bind (.ofExcept _) fun header => .bind .failIf fun _ => ?_
  refine .bind (strict_calculateDeviceTableChecksum vol) fun sum => .bind .failIf fun _ => ?_
  refine .bind (strict_validateDeviceSecurityRecords vol header) fun ids => ?_
  exact .bind (strict_validateFileSecurityReferences vol ids) fun _ => .pure _

/-! ### What the mount writes -/

theorem writeSuperblockCopy_run {n : ℕ} {block : Block} {u : Unit}
    (h : (writeSuperblockCopy device n block).prog.run events d = .done (.ok u) d' rest) :
    d'.current = update d.current n block := by
  obtain ⟨_,d1,events1,hwrite,hbarrier⟩ := IoM.run_bind_ok h
  obtain ⟨-,hwrite⟩ := IoM.run_failIf_bind_ok hwrite
  obtain ⟨-,hwrite⟩ := IoM.run_failIf_bind_ok hwrite
  obtain ⟨-,hwrite⟩ := IoM.run_failIf_bind_ok hwrite
  obtain ⟨-,hwrite⟩ := IoM.run_failIf_bind_ok hwrite
  obtain ⟨-,hbarrier⟩ := IoM.run_failIf_bind_ok hbarrier
  obtain ⟨-,hbarrier⟩ := IoM.run_failIf_bind_ok hbarrier
  rw [IoM.run_flush_ok hbarrier,Disk.current_sync,IoM.run_write_ok hwrite,Disk.current_write]
  rfl

theorem activateVolume_ok (h : (activateVolume vol).run events d = .done ⟨.ok (),volume'⟩ d' rest) :
    volume'.device = vol.device ∧ volume'.securityRecordCount = vol.securityRecordCount ∧
      (∃ state, volume'.superblock = { vol.superblock with stateFlags := state }) ∧
      ∀ n, n ≠ 0 → n ≠ vol.superblock.backupSuperblock → d'.current n = d.current n := by
  rw [activateVolume] at h
  split at h
  · obtain ⟨r,d1,events1,hwrite,h⟩ := Prog.run_bind_done h
    cases r with
    | error e => cases h
    | ok written =>
      cases h
      obtain ⟨block,-,hwrite⟩ := IoM.run_ofExcept_bind_ok hwrite
      obtain ⟨_,d3,events3,hbackup,hwrite⟩ := IoM.run_bind_ok hwrite
      obtain ⟨_,d4,events4,hprimary,hwrite⟩ := IoM.run_bind_ok hwrite
      cases hwrite
      refine ⟨rfl,rfl,⟨_,rfl⟩,fun n hzero hn => ?_⟩
      rw [writeSuperblockCopy_run hprimary,update_of_ne hzero,
        writeSuperblockCopy_run hbackup,update_of_ne hn]
  · cases h
    exact ⟨rfl,rfl,⟨vol.superblock.stateFlags,rfl⟩,fun _ _ _ => rfl⟩

/-! ### Loading descriptors -/

theorem ziFsDecodeFileRecord_zero {data : Mem} (h : ∀ i, i < 256 → data i = 0) :
    ziFsDecodeFileRecord data = .error .corruptFilesystem := by
  have hslice : data.slice 0 4 = Mem.zero.slice 0 4 := Mem.slice_congr fun i hi => h _ (by omega)
  have hne : Mem.zero.slice 0 4 ≠ recordMagic := by decide
  unfold ziFsDecodeFileRecord
  rw [hslice]
  simp [failIf,hne,bind,Except.bind,throw,throwThe,MonadExceptOf.throw]

theorem validateFileSecurityReferences_present {ids : List ℕ}
    (h : (validateFileSecurityReferences vol ids).eval img = .ok ())
    (hidx : idx/recordsPerBlock < vol.superblock.recordTableBlocks)
    (hdec : ziFsDecodeFileRecord
      ((img (vol.superblock.recordTableStart+idx/recordsPerBlock)).mem.shift
        (idx%recordsPerBlock*fileRecordSize)) = .ok record) :
    securityIdIsPresent ids record.securityId = true := by
  have hblock := loop_unit_ok_iff.mp h (idx/recordsPerBlock) (Nat.zero_le _) (by omega)
  obtain ⟨block,hread,hslots⟩ := bind_ok_iff.mp hblock
  obtain ⟨-,rfl⟩ := ZiBlockDevice.readBlock_ok_iff.mp hread
  have hslot := loop_unit_ok_iff.mp hslots (idx%recordsPerBlock) (Nat.zero_le _)
    (by rw [Nat.zero_add]; exact Nat.mod_lt _ (by decide))
  rw [eval_ofExcept,checkRecordSlot] at hslot
  split at hslot
  · next hzero =>
    have hbytes := bytesAreZero_iff.mp hzero
    rw [ziFsDecodeFileRecord_zero fun i hi => by simpa using hbytes i hi] at hdec
    cases hdec
  · rw [hdec,Except.ok_bind,Except.failIf_ok_iff,not_or,Bool.not_eq_false] at hslot
    exact hslot.2

theorem HoldsDescriptors.exists_decode {table : Mem} {storages : List ZiFsSecurityDescriptorStorage}
    {storage : ZiFsSecurityDescriptorStorage} {i prevId : ℕ}
    (h : HoldsDescriptors table i prevId storages)
    (hs : storage ∈ storages) : ∃ slot < i+storages.length,
      ziFsDecodeSecurityDescriptor (table.shift (256+slot*256)) = .ok storage := by
  induction storages generalizing i prevId with
  | nil => cases hs
  | cons first storages ih =>
    obtain ⟨hdec,-,h⟩ := h
    rw [List.length_cons]
    rcases List.mem_cons.mp hs with rfl | hs
    · exact ⟨i,by omega,hdec⟩
    · obtain ⟨slot,hslot,hdec⟩ := ih h hs
      exact ⟨slot,by omega,hdec⟩

theorem load_of_mount
    (hrun : (ziFsMountVolume device).run events d = .done (.ok (), some vol) d' rest)
    (hrec : (ziFsReadFileRecord vol idx).eval d'.current = .ok record) :
    ∃ slot < vol.securityRecordCount, ∃ storage,
      ziFsDecodeSecurityDescriptor ((vol.superblock.securityTable d'.current).shift
        (256+slot*256)) = .ok storage ∧ storage.securityId = record.securityId ∧
      (ziFsLoadSecurityDescriptor vol record.securityId).eval d'.current = .ok storage := by
  obtain ⟨examined,hreturns,⟨_,_,_,hfailed,-⟩ | ⟨⟨gen,count⟩,_,_,_,hsecurity,hactivate⟩⟩ :=
    ziFsMountVolume_cases hrun
  · cases hfailed
  have hsound := examineVolume_returns hreturns
  have harea := hsound.hasSecurityTable
  obtain ⟨-,heval⟩ := strict_ziFsValidateSecurityState examined hsecurity
  obtain ⟨header,htable,hne,-,rfl,hrefs⟩ := harea.validateState_ok_iff.mp heval
  obtain ⟨hhdr,-,storages,hlen,hholds,-⟩ := ziFsValidateSecurityTable_ok_iff.mp htable
  obtain ⟨hcap,hcount,-⟩ := decodeSecurityTableHeader_ok hhdr
  obtain ⟨hdevice,hrecs,⟨state,hsb⟩,hsame⟩ := activateVolume_ok hactivate
  dsimp only at hdevice hrecs hsb hsame
  have hlayout := hsound.valid.layout
  have htables : ∀ t ∈ examined.superblock.tables, ∀ n, t.1 ≤ n ∧ n < t.1+t.2 →
      d'.current n = d.current n := by
    intro t ht n hn
    obtain ⟨hzero,hbackup⟩ := hlayout.apart ht hn
    exact hsame n hzero hbackup
  -- the record was in the table when the references were checked
  have hpresent : securityIdIsPresent (securityIds (examined.superblock.securityTable d.current)
      header.recordCount) record.securityId = true := by
    rw [ziFsReadFileRecord,hsb] at hrec
    obtain ⟨_,hfail,hrec⟩ := bind_ok_iff.mp hrec
    have hidx := Nat.lt_of_not_le (failIf_ok_iff.mp hfail)
    obtain ⟨block,hread,hrec⟩ := bind_ok_iff.mp hrec
    obtain ⟨-,rfl⟩ := ZiBlockDevice.readBlock_ok_iff.mp hread
    obtain ⟨_,hdec,hrec⟩ := bind_ok_iff.mp hrec
    obtain ⟨_,-,hrec⟩ := bind_ok_iff.mp hrec
    cases hrec
    rw [htables (examined.superblock.recordTableStart, examined.superblock.recordTableBlocks)
      (by simp [tables]) _ ⟨Nat.le_add_right _ _,Nat.add_lt_add_left hidx _⟩]
      at hdec
    exact validateFileSecurityReferences_present hrefs hidx hdec
  rw [← hlen,hholds.securityIds_eq,securityIdIsPresent_iff hholds.pairwise] at hpresent
  obtain ⟨storage,hs,hid⟩ := List.mem_map.mp hpresent
  -- the table is still the one that was validated
  have hbound : storages.length < examined.superblock.securityTableBlocks*16 := by
    rw [hcap,securityTableCapacity] at hcount
    simp only [securityTableHeaderSize,securityRecordSize] at hcount
    omega
  have hholds' : HoldsDescriptors (vol.superblock.securityTable d'.current) 0 0 storages := by
    refine hholds.congr fun i hi => ?_
    rw [hsb,securityTable,securityTable,joinBlocks,joinBlocks]
    rw [htables (examined.superblock.securityTableStart, examined.superblock.securityTableBlocks)
      (by simp [tables]) _ ⟨Nat.le_add_right _ _,Nat.add_lt_add_left (by omega) _⟩]
  have harea' : vol.HasSecurityTable := by
    refine ⟨?_,?_,?_⟩
    · rw [hsb]
      exact harea.uses
    · rw [hsb]
      exact harea.blocks
    · rw [hsb,hdevice]
      exact harea.inside
  obtain ⟨slot,hslot,hdec⟩ := hholds'.exists_decode hs
  refine ⟨slot,by rw [hrecs]; omega,storage,hdec,hid,?_⟩
  have hpositive := hholds.lt hs
  have hload := harea'.loadLoop hholds' (by rw [hsb,Nat.zero_add]; exact hbound) hs
  rw [ziFsLoadSecurityDescriptor,hrecs,← hid,← hlen,eval_bind_failIf_neg,hload]
  have hblocks := harea.blocks
  simp only [securityMaximumRecords]
  omega

theorem security_validation_agrees :
    -- block by block and in memory
    (∀ (vol : ZiFsVolume) (img : ℕ → Block), vol.HasSecurityTable → ∀ generation count,
      (ziFsValidateSecurityState vol).eval img = .ok (generation, count) ↔
        ∃ header, ziFsValidateSecurityTable (vol.superblock.securityTable img)
            (vol.superblock.securityTableBlocks*4096) = .ok header ∧
          header.recordCount ≠ 0 ∧ generation = header.generation ∧ count = header.recordCount ∧
          (validateFileSecurityReferences vol (securityIds
            (vol.superblock.securityTable img) header.recordCount)).eval img = .ok ()) ∧
    -- the binary search among the IDs of an accepted table
    (∀ (table : Mem) (tableSize : ℕ) (header : ZiFsSecurityTableHeader),
      ziFsValidateSecurityTable table tableSize = .ok header → ∀ id,
        securityIdIsPresent (securityIds table header.recordCount) id = true ↔
          id ∈ securityIds table header.recordCount) ∧
    -- the descriptors of the file records of a mounted volume
    ∀ (device : ZiBlockDevice) (vol : ZiFsVolume) (events rest : List (Event ZiStatus))
      (d d' : Disk Block),
      (ziFsMountVolume device).run events d = .done (.ok (), some vol) d' rest →
      ∀ index record, (ziFsReadFileRecord vol index).eval d'.current = .ok record →
        ∃ slot < vol.securityRecordCount, ∃ storage,
          ziFsDecodeSecurityDescriptor ((vol.superblock.securityTable d'.current).shift
            (256+slot*256)) = .ok storage ∧ storage.securityId = record.securityId ∧
          (ziFsLoadSecurityDescriptor vol record.securityId).eval d'.current = .ok storage := by
  refine ⟨fun vol img h generation count => h.validateState_ok_iff,?_,?_⟩
  · intro table tableSize header h id
    obtain ⟨-,-,storages,hlength,hholds,-⟩ := ziFsValidateSecurityTable_ok_iff.mp h
    rw [← hlength,hholds.securityIds_eq]
    exact securityIdIsPresent_iff hholds.pairwise
  · intro device vol events rest d d' hrun index record hrecord
    exact load_of_mount hrun hrecord

/-! ### Two volumes -/

/-- The volume object of the mount before the security table is read. -/
def examinedBlank : ZiFsVolume := { blankVolume stateNone with
  isMounted := false, securityGeneration := 0, securityRecordCount := 0 }

theorem blankImage_examine :
    (examineVolume blankDevice).eval (blankImage stateNone) = .ok examinedBlank := by
  have hgeo : Geometry blankDevice (blankVolume stateNone).superblock :=
    ⟨by decide,by decide,rfl,blankSuperblock_valid,blankSuperblock_fits,
      by show 15 &&& 1 ≠ 0; decide,by show 15 &&& 2 ≠ 0; decide,by show 15 &&& _ = 0; decide,
      by decide⟩
  have hcopy : ∀ n, n < 32 → blankImage stateNone n = superblockBlock blankSuperblock →
      (readMountSuperblock blankDevice n).attempt.eval (blankImage stateNone) =
        .ok (.ok blankSuperblock) := by
    intro n hn hblock
    rw [eval_attempt,readMountSuperblock,eval_bind_of_ok (blankDevice_readBlock hn),hblock,
      eval_ofExcept,ziFsDecodeSuperblock_superblockBlock blankSuperblock_fits blankSuperblock_valid]
  have hjournal : (loadJournalState blankDevice (blankVolume stateNone).superblock).attempt.eval
      (blankImage stateNone) = .ok (.ok (8, blankHeader 2, 1)) := by
    have hload : (ziFsLoadJournalHeader blankDevice
        (blankVolume stateNone).superblock.journalStart).eval (blankImage stateNone) =
          .ok (blankHeader 2, 1) := by
      rw [hgeo.eval_ziFsLoadJournalHeader]
      show selectHeader (ziFsDecodeJournalHeader (journalHeaderBlock (blankHeader 1)).mem)
        (ziFsDecodeJournalHeader (journalHeaderBlock (blankHeader 2)).mem) = _
      rw [ziFsDecodeJournalHeader_journalHeaderBlock (blankHeader_fits (by decide))
          (blankHeader_valid (by decide)),
        ziFsDecodeJournalHeader_journalHeaderBlock (blankHeader_fits (by decide))
          (blankHeader_valid (by decide))]
      rfl
    rw [eval_attempt]
    exact congrArg _ (bind_ok_iff.mpr ⟨8,rfl,bind_ok_iff.mpr ⟨_,hload,rfl⟩⟩)
  refine failIf_bind_ok (by decide) ?_
  refine bind_ok_iff.mpr ⟨_,hcopy 0 (by decide) rfl,?_⟩
  refine bind_ok_iff.mpr ⟨_,hcopy 31 (by decide) rfl,?_⟩
  refine bind_ok_iff.mpr ⟨⟨blankSuperblock,false,false⟩,rfl,?_⟩
  refine failIf_bind_ok (by decide) ?_
  refine bind_ok_iff.mpr ⟨examinedBlank,?_,rfl⟩
  exact bind_ok_iff.mpr ⟨_,hjournal,rfl⟩

theorem blankImage_mounts : ∃ d',
    (ziFsMountVolume blankDevice).run [] (.ofImage (blankImage stateNone)) =
      .done (.ok (), some (blankVolume stateMounted)) d' [] := by
  have htables : BlankTables (blankImage stateNone) := blankImage_tables
  have hexamine : (examineVolume blankDevice).query.eval (blankImage stateNone) =
      .ok examinedBlank := blankImage_examine
  have hmounted : (blankVolume stateNone).MountedOn (blankImage stateNone) := htables.mountedOn
  have hsecurity : (ziFsValidateSecurityState examinedBlank).query.eval (blankImage stateNone) =
      .ok (1, 1) := hmounted.security
  have hroot : (checkRootDirectory { examinedBlank with
      securityGeneration := 1, securityRecordCount := 1 }).query.eval (blankImage stateNone) =
        .ok () := bind_ok_iff.mpr ⟨blankRoot,orFail_ok_iff.mpr htables.readRoot,rfl⟩
  have hresult : (ziFsMountVolume blankDevice).result (blankImage stateNone) =
      (.ok (), some (blankVolume stateMounted)) := by
    rw [ziFsMountVolume,Prog.result_seq,Prog.result_ofQuery,Prog.ops_ofQuery,hexamine]
    dsimp only
    rw [if_neg (by decide),applyOps_nil,Prog.result_seq,Prog.result_ofQuery,Prog.ops_ofQuery,
      hsecurity]
    dsimp only
    rw [applyOps_nil,Prog.result_seq,Prog.result_ofQuery,Prog.ops_ofQuery,hroot]
    rfl
  rw [Prog.run_nil,Disk.current_ofImage,hresult]
  exact ⟨_,rfl⟩

/-- The small volume mounts, and the descriptor of its root can be loaded. -/
theorem security_validation_agrees_blank : ∃ d',
    (ziFsMountVolume blankDevice).run [] (.ofImage (blankImage stateNone)) =
      .done (.ok (), some (blankVolume stateMounted)) d' [] ∧
    ∃ storage, storage.securityId = 1 ∧
      (ziFsLoadSecurityDescriptor (blankVolume stateMounted) 1).eval d'.current = .ok storage := by
  obtain ⟨d',hrun⟩ := blankImage_mounts
  refine ⟨d',hrun,?_⟩
  -- the superblocks are written, the tables are not
  obtain ⟨examined,-,⟨_,_,_,hfailed,-⟩ | ⟨_,_,_,_,-,hactivate⟩⟩ := ziFsMountVolume_cases hrun
  · cases hfailed
  obtain ⟨-,-,⟨state,hsb⟩,hsame⟩ := activateVolume_ok hactivate
  have hbackup : examined.superblock.backupSuperblock = 31 :=
    (congrArg ZiFsSuperblock.backupSuperblock hsb).symm
  dsimp only [Disk.current_ofImage] at hsame
  rw [hbackup] at hsame
  have htables' : BlankTables d'.current :=
    ⟨(hsame 1 (by decide) (by decide)).trans blankImage_tables.records,
      (hsame 22 (by decide) (by decide)).trans blankImage_tables.security⟩
  obtain ⟨-,-,storage,-,hid,hload⟩ :=
    security_validation_agrees.2.2 _ _ _ _ _ _ hrun 0 blankRoot htables'.readRoot
  exact ⟨storage,hid,hload⟩

/-- An initialised table without records on every block. -/
def emptyTableImage : ℕ → Block :=
  fun _ => .ofMem 4096 (updateSecurityTableChecksum (emptySecurityTable 4096 1) 4096)

/-- An empty table is accepted in memory and refused by the mount. -/
theorem security_validation_empty :
    ziFsValidateSecurityTable (blankSuperblock.securityTable emptyTableImage) 4096 =
      .ok ⟨1,1,0,15,256,0⟩ ∧
    (ziFsValidateSecurityState (blankVolume stateNone)).eval emptyTableImage =
      .error .corruptFilesystem := by
  have hblock : TableHolds (emptyTableImage 22).mem 1 [] :=
    (emptySecurityTable_holds Nat.one_ne_zero (by decide)).congr fun i hi =>
      (Buffer.mem_ofMem_of_lt hi).symm
  have htable : TableHolds (blankSuperblock.securityTable emptyTableImage) 1 [] := by
    refine hblock.congr fun i hi => ?_
    have hbyte := @securityTable_apply blankSuperblock emptyTableImage 0 i hi
    rw [Nat.zero_mul,Nat.zero_add,Nat.add_zero] at hbyte
    exact hbyte.symm
  refine ⟨htable.validate,?_⟩
  have hread : ((blankVolume stateNone).device.readBlock
      (blankVolume stateNone).superblock.securityTableStart).eval emptyTableImage =
        .ok (emptyTableImage 22) := ZiBlockDevice.readBlock_ok_iff.mpr ⟨by decide,rfl⟩
  rw [ziFsValidateSecurityState,eval_bind_failIf_neg (by decide),
    ReadM.eval_bind_of_ok hread]
  have hheader : (ReadM.ofExcept (decodeSecurityTableHeader (emptyTableImage 22).mem
      ((blankVolume stateNone).superblock.securityTableBlocks*blockSize)) :
        ReadIo ZiFsSecurityTableHeader).eval emptyTableImage = .ok ⟨1,1,0,15,256,0⟩ :=
    hblock.header
  rw [ReadM.eval_bind_of_ok hheader,ReadM.eval_bind_failIf_pos rfl]

end Zizium
