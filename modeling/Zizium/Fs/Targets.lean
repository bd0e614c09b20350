import Zizium.BlockIO.Answers
import Zizium.Fs.PrepareRules

/-!
# Where transactions write

Every image that a prepare call stages belongs to a home block: a block inside the volume that is
neither a superblock nor part of the journal.  No block is staged twice.
-/

namespace Zizium

open Bytes BlockIO TaskM.Keeps ReadM ZiFsSuperblock List Option

variable {sb : ZiFsSuperblock} {block logical i count first requested left : ℕ}
  {extents : List ZiFsExtent} {record dir : ZiFsFileRecord} {loaded : LoadedBitmap}
  {entry : ZiFsDirectoryEntry} {α : Type} {req : PrepareRequest} {r : Result Unit}

variable {vol : ZiFsVolume} {img : ℕ → Block} {tx tx' : ZiFsTransaction}

namespace ZiFsSuperblock

theorem Layout.isHome_recordTableBlock (h : sb.Layout) {idx : ℕ} (hi : idx < sb.recordSlots) :
    sb.IsHome (recordTableBlock sb idx) := by
  apply h.isHome (i := 0) rfl (by decide)
  simp only [recordTableBlock,recordSlots,recordsPerBlock] at hi ⊢
  omega

theorem Layout.isHome_bitmapBlock (h : sb.Layout) (hblock : block < sb.totalBlocks) :
    sb.IsHome (bitmapBlock sb block) := by
  have hbitmap := h.bitmap
  apply h.isHome (i := 2) rfl (by decide)
  simp only [bitmapBlock,bitsPerBitmapBlock]
  omega

theorem isHome_of_data (hlt : block < sb.totalBlocks) (hdata : ¬sb.IsMetadata block) :
    sb.IsHome block := by
  refine ⟨hlt,fun h => hdata (.inl h),fun h => hdata (.inr (.inl h)),fun h => ?_⟩
  exact hdata (.inr (.inr ⟨(sb.journalStart, sb.journalBlocks),by simp [tables],h⟩))

end ZiFsSuperblock

theorem extentBlockAt_covers (h : extentBlockAt logical extents = some block) :
    ∃ e ∈ extents, e.Covers block := by
  induction extents with
  | nil => cases h
  | cons e extents ih =>
    rw [extentBlockAt] at h
    split at h
    · cases h
      refine ⟨e,mem_cons_self,?_⟩
      simp only [ZiFsExtent.Covers]
      omega
    · obtain ⟨f,hf,hcovers⟩ := ih h
      exact ⟨f,mem_cons_of_mem _ hf,hcovers⟩

variable {e : ZiFsExtent}

theorem ZiFsFileRecord.ValidOn.isHome (h : record.ValidOn sb) (he : e ∈ record.extents)
    (hblock : e.Covers block) : sb.IsHome block := by
  have hinside := h.inside e he
  exact isHome_of_data (by have := hblock.2; omega) (h.data e he block hblock)

theorem ziFsDirectoryBlockAt_place (h : ziFsDirectoryBlockAt vol dir logical = .ok block) :
    (vol.superblock.directoryTableStart ≤ block ∧ block <
        vol.superblock.directoryTableStart+vol.superblock.directoryTableBlocks) ∨
      block < vol.superblock.totalBlocks ∧ ¬vol.superblock.IsMetadata block := by
  simp only [ziFsDirectoryBlockAt,ziFsDirectoryBlockCount,Except.bind_ok_iff,
    Except.failIf_ok_iff,exists_const,ziFsValidateFileRecord_ok_iff] at h
  obtain ⟨_,⟨hdir,hvalid,-⟩,-,h⟩ := h
  split at h
  · cases h
    obtain ⟨h1,h2,-⟩ := hvalid.directory (not_not.mp hdir)
    exact .inl ⟨h1,h2⟩
  · split at h
    · next hat =>
      cases h
      obtain ⟨e,he,hcovers⟩ := extentBlockAt_covers hat
      exact .inr ⟨(hvalid.isHome he hcovers).1,hvalid.data e he _ hcovers⟩
    · cases h

theorem ziFsDirectoryBlockAt_isHome (hlayout : vol.superblock.Layout)
    (h : ziFsDirectoryBlockAt vol dir logical = .ok block) : vol.superblock.IsHome block := by
  rcases ziFsDirectoryBlockAt_place h with htable | ⟨hlt,hdata⟩
  · exact hlayout.isHome (i := 1) rfl (by decide) htable
  · exact isHome_of_data hlt hdata

theorem ziFsReadFileRecord_ok (h : (ziFsReadFileRecord vol i).eval img = .ok record) :
    i < vol.superblock.recordSlots ∧
      ziFsDecodeFileRecord ((img (recordTableBlock vol.superblock i)).mem.shift
        (i%recordsPerBlock*fileRecordSize)) = .ok record ∧ record.ValidOn vol.superblock := by
  simp only [ziFsReadFileRecord,bind_ok_iff,failIf_ok_iff,exists_const,
    ZiBlockDevice.readBlock_ok_iff,eval_ofExcept,ziFsValidateFileRecord_ok_iff,
    pure_ok_iff] at h
  obtain ⟨hi,_,⟨-,rfl⟩,record',hdec,hvalid,rfl⟩ := h
  refine ⟨?_,hdec,hvalid⟩
  simp only [recordSlots,recordsPerBlock] at hi ⊢
  omega

theorem splitExtents_kept {remaining : ℕ} (he : e ∈ (splitExtents extents remaining).kept) :
    ∃ f ∈ extents, 0 < e.blockCount ∧ ∀ b, e.Covers b → f.Covers b := by
  induction extents generalizing remaining with
  | nil => cases he
  | cons f extents ih =>
    simp only [splitExtents] at he
    rw [exists_mem_cons_iff]
    split at he
    · next hne =>
      rcases mem_cons.mp he with rfl | he
      · refine .inl ⟨Nat.pos_of_ne_zero hne,fun b hb => ?_⟩
        simp only [ZiFsExtent.Covers] at hb ⊢
        omega
      · exact .inr (ih he)
    · exact .inr (ih he)

theorem appendRecordExtent_covers {grown : ZiFsFileRecord} {physical : ℕ}
    (h : appendRecordExtent record logical physical count = .ok grown) (he : e ∈ grown.extents)
    {b : ℕ} (hb : e.Covers b) :
    (∃ f ∈ record.extents, f.Covers b) ∨ physical ≤ b ∧ b < physical+count := by
  have hpush : pushExtent record logical physical count = .ok grown →
      (∃ f ∈ record.extents, f.Covers b) ∨ physical ≤ b ∧ b < physical+count := by
    intro h
    simp only [pushExtent,Except.bind_ok_iff,Except.failIf_ok_iff,exists_const,
      Except.pure_ok_iff] at h
    obtain ⟨-,rfl⟩ := h
    rcases mem_append.mp he with he | he
    · exact .inl ⟨e,he,hb⟩
    · cases mem_singleton.mp he
      exact .inr hb
  simp only [appendRecordExtent,Except.bind_ok_iff,Except.failIf_ok_iff,exists_const] at h
  obtain ⟨-,h⟩ := h
  split at h
  · exact hpush h
  · next last hlast =>
    split at h
    · next hjoin =>
      simp only [Except.bind_ok_iff,Except.failIf_ok_iff,exists_const,Except.pure_ok_iff] at h
      obtain ⟨-,rfl⟩ := h
      rcases mem_append.mp he with he | he
      · exact .inl ⟨e,dropLast_subset _ he,hb⟩
      · cases mem_singleton.mp he
        by_cases hold : b < last.physicalBlock+last.blockCount
        · exact .inl ⟨last,mem_of_getLast? hlast,hb.1,hold⟩
        · have := hb.2
          simp only at this
          exact .inr ⟨by omega,by omega⟩
    · exact hpush h

/-! ### What the checks find, whatever the device answers -/

/-- Consecutive home blocks. -/
def HomeRun (sb : ZiFsSuperblock) (first count : ℕ) : Prop :=
  ∀ b, first ≤ b → b < first+count → sb.IsHome b

theorem HomeRun.snoc (h : HomeRun sb first count) (hlast : sb.IsHome (first+count)) :
    HomeRun sb first (count+1) := by
  intro b h1 h2
  by_cases hb : b = first+count
  · exact hb ▸ hlast
  · exact h b h1 (by omega)

theorem HomeRun.le_totalBlocks (h : HomeRun sb first count) (hne : count ≠ 0) :
    first+count ≤ sb.totalBlocks := by
  have hlast : sb.IsHome (first+count-1) := h _ (by omega) (by omega)
  have := hlast.1
  omega

theorem ziFsReadFileRecord_returns (h : (ziFsReadFileRecord vol i).Returns (.ok record)) :
    i < vol.superblock.recordSlots ∧ record.ValidOn vol.superblock := by
  simp only [ziFsReadFileRecord,returns_bind_ok_iff,returns_failIf_ok_iff,
    exists_const,returns_ofExcept_iff,returns_pure_iff] at h
  obtain ⟨hi,-,-,record',-,u,hvalid,heq⟩ := h
  cases heq
  refine ⟨?_,ziFsValidateFileRecord_ok_iff.mp hvalid.symm⟩
  simp only [recordSlots,recordsPerBlock] at hi ⊢
  omega

theorem findFreeRecord_returns {free : ℕ × ℕ} (h : (findFreeRecord vol).Returns (.ok free)) :
    free.1 < vol.superblock.recordSlots := by
  simp only [findFreeRecord,returns_bind_ok_iff,returns_failIf_ok_iff,exists_const] at h
  obtain ⟨-,search,hsearch,h⟩ := h
  have hinside : ∀ i ∈ search.freeRecord, i < vol.superblock.recordSlots := by
    refine returns_loop (fun search : FreeRecordSearch =>
      ∀ i ∈ search.freeRecord, i < vol.superblock.recordSlots) ?_ (by simp) hsearch
    intro k s t hk hs hvisit
    obtain ⟨block,-,hvisit⟩ := returns_bind_ok_iff.mp hvisit
    have hslots := (returns_ofExcept_iff.mp hvisit).symm
    obtain ⟨img,himage⟩ : ∃ img : ℕ → Block,
        img (vol.superblock.recordTableStart+k) = block := ⟨fun _ => block,rfl⟩
    rw [← himage] at hslots
    refine visitRecordSlots_invariant (fun _ search =>
      ∀ i ∈ search.freeRecord, i < vol.superblock.recordSlots) ?_ (by omega) rfl hs hslots
    intro i s r s' hi hs _ hvisit
    cases r with
    | some record =>
      cases hvisit
      exact hs
    | none =>
      cases hvisit
      intro j hj
      cases hfree : s.freeRecord with
      | none =>
        simp only [hfree,none_or,mem_def,some.injEq] at hj
        exact hj ▸ hi
      | some found =>
        simp only [hfree,some_or,mem_def,some.injEq] at hj
        exact hs j (hj ▸ hfree)
  cases hfree : search.freeRecord with
  | none =>
    rw [hfree] at h
    cases h
  | some idx =>
    rw [hfree] at h
    simp only [returns_bind_ok_iff,returns_failIf_ok_iff,exists_const,returns_pure_iff] at h
    obtain ⟨-,heq⟩ := h
    cases heq
    exact hinside idx hfree

theorem findFreeExtentLoop_returns {runStart runSize : ℕ}
    (hleft : block+left = vol.superblock.totalBlocks)
    (hrun : HomeRun vol.superblock runStart runSize) (hend : runSize ≠ 0 → runStart+runSize = block)
    (h : (findFreeExtentLoop vol tx requested left block loaded runStart runSize).Returns
      (.ok first)) :
    HomeRun vol.superblock first requested := by
  have hempty : ∀ start, HomeRun vol.superblock start 0 :=
    fun start b h1 h2 => absurd h2 (by omega)
  induction left generalizing block loaded runStart runSize with
  | zero => cases h
  | succ left ih =>
    rw [findFreeExtentLoop] at h
    split at h
    · exact ih (by omega) (hempty _) (by simp) h
    · next hmeta =>
      rw [blockIsMetadata_iff] at hmeta
      have hhome := isHome_of_data (by omega) hmeta
      simp only [returns_bind_ok_iff] at h
      obtain ⟨data,-,bit,-,h⟩ := h
      cases bit with
      | true => exact ih (by omega) (hempty _) (by simp) h
      | false =>
        rw [if_neg (by simp)] at h
        have hnext : HomeRun vol.superblock (if runSize = 0 then block else runStart)
            (runSize+1) := by
          by_cases hzero : runSize = 0
          · subst hzero
            exact (hempty block).snoc hhome
          · rw [if_neg hzero]
            exact hrun.snoc (hend hzero ▸ hhome)
        split at h
        · next hsize =>
          cases returns_pure_iff.mp h
          rwa [hsize] at hnext
        · refine ih (by omega) hnext (fun _ => ?_) h
          split <;> omega

theorem findFreeExtent_returns (h : (findFreeExtent vol tx requested).Returns (.ok first)) :
    HomeRun vol.superblock first requested := by
  obtain ⟨-,-,h⟩ := returns_bind_ok_iff.mp h
  refine findFreeExtentLoop_returns (Nat.zero_add _) (fun b _ hb => ?_) (by simp) h
  omega

theorem rangeIsFreeLoop_returns (hleft : block+left ≤ vol.superblock.totalBlocks)
    (h : (rangeIsFreeLoop vol tx left block loaded).Returns (.ok true)) :
    HomeRun vol.superblock block left := by
  induction left generalizing block loaded with
  | zero =>
    intro b _ hb
    omega
  | succ left ih =>
    rw [rangeIsFreeLoop] at h
    split at h
    · cases h
    · next hmeta =>
      rw [blockIsMetadata_iff] at hmeta
      simp only [returns_bind_ok_iff] at h
      obtain ⟨data,-,bit,-,h⟩ := h
      cases bit with
      | true => cases h
      | false =>
        have hrest := ih (by omega) h
        intro b h1 h2
        by_cases hb : b = block
        · exact hb ▸ isHome_of_data (by omega) hmeta
        · exact hrest b (by omega) (by omega)

theorem findAppendExtent_returns
    (h : (findAppendExtent vol tx record requested).Returns (.ok first)) :
    HomeRun vol.superblock first requested := by
  obtain ⟨-,-,h⟩ := returns_bind_ok_iff.mp h
  split at h
  · exact findFreeExtent_returns h
  · split at h
    · obtain ⟨free,hfree,h⟩ := returns_bind_ok_iff.mp h
      cases free with
      | true =>
        cases returns_pure_iff.mp h
        obtain ⟨-,-,hfree⟩ := returns_bind_ok_iff.mp hfree
        split at hfree
        · cases hfree
        · exact rangeIsFreeLoop_returns (by omega) hfree
      | false => exact findFreeExtent_returns h
    · exact findFreeExtent_returns h

theorem growRecord_returns {grown : ZiFsFileRecord × ℕ} {existing required : ℕ}
    (h : (growRecord vol tx record existing required).Returns (.ok grown)) :
    HomeRun vol.superblock grown.2 (required-existing) ∧ ∀ e ∈ grown.1.extents, ∀ b, e.Covers b →
        (∃ f ∈ record.extents, f.Covers b) ∨ grown.2 ≤ b ∧ b < grown.2+(required-existing) := by
  simp only [growRecord] at h
  split at h
  · simp only [returns_bind_ok_iff,returns_ofExcept_iff,returns_failIf_ok_iff,
      exists_const,returns_pure_iff] at h
    obtain ⟨first,hfirst,changed,hchanged,-,heq⟩ := h
    cases heq
    exact ⟨findAppendExtent_returns hfirst,fun e he b hb =>
      appendRecordExtent_covers hchanged.symm he hb⟩
  · next hzero =>
    cases returns_pure_iff.mp h
    exact ⟨fun b _ hb => absurd hb (by omega),fun e he b hb => .inl ⟨e,he,hb⟩⟩

theorem findInsertionBlockLoop_returns (hlayout : vol.superblock.Layout)
    (h : (findInsertionBlockLoop vol tx dir entry left logical).Returns (.ok block)) :
    vol.superblock.IsHome block := by
  induction left generalizing logical with
  | zero => cases h
  | succ left ih =>
    simp only [findInsertionBlockLoop,returns_bind_ok_iff,returns_ofExcept_iff] at h
    obtain ⟨physical,hphys,_,-,_,-,fits,-,h⟩ := h
    cases fits with
    | true =>
      cases returns_pure_iff.mp h
      exact ziFsDirectoryBlockAt_isHome hlayout hphys.symm
    | false => exact ih h

theorem directoryHasBlock_at (h : directoryHasBlock vol dir block left logical = .ok true) :
    ∃ l, ziFsDirectoryBlockAt vol dir l = .ok block := by
  induction left generalizing logical with
  | zero => cases h
  | succ left ih =>
    obtain ⟨candidate,hcandidate,h⟩ := Except.bind_ok_iff.mp h
    split at h
    · next heq =>
      subst heq
      exact ⟨logical,hcandidate⟩
    · exact ih h

/-! ### Staging helpers -/

/-- A staging step adds images of home blocks only. -/
abbrev GrowsHome (sb : ZiFsSuperblock) (before after : ZiFsTransaction) : Prop :=
  before.Grows sb.IsHome after

instance (sb : ZiFsSuperblock) : Std.Refl (GrowsHome sb) := ⟨fun s => .refl _ s⟩

instance (sb : ZiFsSuperblock) : IsTrans ZiFsTransaction (GrowsHome sb) :=
  ⟨fun _ _ _ h h' => h.trans h'⟩

/-- The images grow by home blocks on every exit of a staging program. -/
abbrev StagesHome {α : Type} (sb : ZiFsSuperblock) (m : Staging α) : Prop :=
  TaskM.Keeps (GrowsHome sb) m

section

variable (hblock : vol.superblock.IsHome block)

include hblock

theorem transactionStageExistingBlock_stagesHome :
    StagesHome vol.superblock (transactionStageExistingBlock vol block) := by
  refine failIf_bind fun _ s r s' h => ?_
  rw [TaskM.returns_get_bind_iff] at h
  cases hstaged : s.stagedBlock block with
  | some data =>
    rw [hstaged] at h
    exact pure data h
  | none =>
    rw [hstaged] at h
    simp only [TaskM.returns_failIf_bind_iff,TaskM.returns_lift_bind_iff,
      TaskM.returns_modify_bind_iff,TaskM.returns_pure_iff] at h
    rcases h with ⟨-,-,rfl⟩ | ⟨-,⟨e,-,-,rfl⟩ | ⟨data,-,-,rfl⟩⟩
    · exact .refl _ _
    · exact .refl _ _
    · exact .addImage (ZiFsTransaction.stagedBlock_eq_none_iff.mp hstaged) hblock

theorem transactionStageEmptyBlock_stagesHome :
    StagesHome vol.superblock (transactionStageEmptyBlock vol block) := by
  refine failIf_bind fun _ s r s' h => ?_
  rw [TaskM.returns_get_bind_iff] at h
  cases hstaged : s.stagedBlock block with
  | some data =>
    rw [hstaged] at h
    exact throw _ h
  | none =>
    rw [hstaged] at h
    simp only [TaskM.returns_failIf_bind_iff,TaskM.returns_modify_iff] at h
    rcases h with ⟨-,-,rfl⟩ | ⟨-,-,rfl⟩
    · exact .refl _ _
    · exact .addImage (ZiFsTransaction.stagedBlock_eq_none_iff.mp hstaged) hblock

theorem editStagedBlock_stagesHome {edit : Block → Result (α × Block)} :
    StagesHome vol.superblock (editStagedBlock vol block edit) := by
  refine (transactionStageExistingBlock_stagesHome hblock).bind fun data _ => ?_
  refine TaskM.Keeps.lift_bind fun edited _ => ?_
  exact (TaskM.Keeps.modify fun s => .setImage).bind fun _ _ => .pure _

end

section

variable (hlayout : vol.superblock.Layout)

include hlayout

theorem stageExtentAllocation_stagesHome (hinside : first+count ≤ vol.superblock.totalBlocks) :
    StagesHome vol.superblock (stageExtentAllocation vol first count) :=
  loop fun off _ _ hoff => editStagedBlock_stagesHome (hlayout.isHome_bitmapBlock (by omega))

theorem stageExtentRelease_stagesHome :
    StagesHome vol.superblock (stageExtentRelease vol first count) := by
  refine get_bind fun tx => failIf_bind fun hrange =>
    failIf_bind fun _ => bind (loop ?_) fun _ _ =>
      modify fun s => ⟨rfl,rfl,rfl,rfl,rfl,fun _ h => .inl h,fun _ h => h,fun h => h⟩
  intro off _ _ hoff
  refine failIf_bind fun _ => failIf_bind fun _ => ?_
  exact editStagedBlock_stagesHome (hlayout.isHome_bitmapBlock (by omega))

theorem stageReleases_stagesHome {releases : List ZiFsDeferredExtent} :
    StagesHome vol.superblock (stageReleases vol releases) := by
  induction releases with
  | nil => exact .pure ()
  | cons release releases ih => exact (stageExtentRelease_stagesHome hlayout).bind fun _ _ => ih

theorem stageChangedFileRecord_stagesHome :
    StagesHome vol.superblock (stageChangedFileRecord vol i record) := by
  refine failIf_bind fun hi => editStagedBlock_stagesHome (hlayout.isHome_recordTableBlock ?_)
  simp only [recordSlots,recordsPerBlock] at hi ⊢
  omega

theorem stageNewDirectoryBlock_stagesHome :
    StagesHome vol.superblock (stageNewDirectoryBlock vol dir entry) := by
  refine failIf_bind fun _ => lift_bind fun count _ =>
    failIf_bind fun _ => get_bind fun tx =>
    lift_bind fun block hblock => lift_bind fun grown _ =>
    failIf_bind fun _ => ?_
  have hhome := findAppendExtent_returns hblock block (Nat.le_refl _) (by omega)
  refine (stageExtentAllocation_stagesHome hlayout (Nat.succ_le_of_lt hhome.1)).bind fun _ _ =>
    (transactionStageEmptyBlock_stagesHome hhome).bind fun _ _ =>
    TaskM.Keeps.lift_bind fun data _ => ?_
  exact (TaskM.Keeps.modify fun s => .setImage).bind fun _ _ => .pure _

theorem stageDirectoryEntry_stagesHome :
    StagesHome vol.superblock (stageDirectoryEntry vol dir entry) := by
  refine get_bind fun tx => lift_bind fun search hsearch => ?_
  rw [returns_attempt_iff] at hsearch
  split
  · exact stageNewDirectoryBlock_stagesHome hlayout
  · exact .throw _
  · obtain ⟨count,-,hloop⟩ := returns_bind_ok_iff.mp hsearch
    exact (editStagedBlock_stagesHome (findInsertionBlockLoop_returns hlayout hloop)).bind
      fun _ _ => .pure _

theorem stageDirectoryRemoval_stagesHome {name : List UInt8} :
    StagesHome vol.superblock (stageDirectoryRemoval vol dir block name) := by
  refine lift_bind fun belongs hbelongs => failIf_bind fun htrue =>
    get_bind fun tx => editStagedBlock_stagesHome ?_
  rw [returns_ofExcept_iff] at hbelongs
  obtain ⟨count,-,hhas⟩ := Except.bind_ok_iff.mp hbelongs.symm
  rw [Bool.not_eq_false] at htrue
  obtain ⟨l,hl⟩ := directoryHasBlock_at (htrue ▸ hhas)
  exact ziFsDirectoryBlockAt_isHome hlayout hl

omit hlayout in
theorem stageDataBlocks_stagesHome {data : List UInt8} (hrun : HomeRun vol.superblock block left) :
    StagesHome vol.superblock (stageDataBlocks vol left block data) := by
  induction left generalizing block data with
  | zero => exact .pure ()
  | succ left ih =>
    refine (transactionStageEmptyBlock_stagesHome (hrun block (Nat.le_refl _) (by omega))).bind
      fun _ _ => (TaskM.Keeps.modify fun s => .setImage).bind fun _ _ => ih ?_
    exact fun b h1 h2 => hrun b (by omega) (by omega)

omit hlayout in
theorem stageTailClear_stagesHome {newSize : ℕ} {changed : ZiFsFileRecord}
    (hhome : ∀ e ∈ changed.extents, 0 < e.blockCount ∧ ∀ b, e.Covers b → vol.superblock.IsHome b) :
    StagesHome vol.superblock (stageTailClear vol newSize changed) := by
  rw [stageTailClear]
  split
  · exact .pure ()
  · next e he =>
    split
    · obtain ⟨hpos,hcovers⟩ := hhome e (mem_of_getLast? he)
      refine editStagedBlock_stagesHome (hcovers _ ?_)
      simp only [ZiFsExtent.Covers]
      omega
    · exact .pure ()

omit hlayout in
theorem stageWriteLoop_stagesHome {changed : ZiFsFileRecord} {existing rounds off : ℕ}
    {data : List UInt8} (hhome : ∀ e ∈ changed.extents, ∀ b, e.Covers b → vol.superblock.IsHome b) :
    StagesHome vol.superblock (stageWriteLoop vol changed existing rounds off data) := by
  induction rounds generalizing off data with
  | zero => exact .pure ()
  | succ rounds ih =>
    rw [stageWriteLoop]
    split
    · exact .pure ()
    · refine lift_bind fun block hblock => ?_
      rw [returns_ofExcept_iff,recordPhysicalBlock] at hblock
      have hblockHome : vol.superblock.IsHome block := by
        split at hblock
        · next hat =>
          cases hblock
          obtain ⟨e,he,hcovers⟩ := extentBlockAt_covers hat
          exact hhome e he _ hcovers
        · cases hblock
      exact (when fun _ => transactionStageEmptyBlock_stagesHome hblockHome).bind
        fun _ _ => (editStagedBlock_stagesHome hblockHome).bind fun _ _ => ih

/-! ### The five calls -/

/-- How a prepare call can end: refused before it staged anything, with its images
discarded, or with the images of home blocks. -/
inductive PrepareOutcome {α : Type} (sb : ZiFsSuperblock) (tx : ZiFsTransaction) :
    Result α → ZiFsTransaction → Prop where
  | refused (status : ZiStatus) : PrepareOutcome sb tx (.error status) tx
  | discarded {s : ZiFsTransaction} (status : ZiStatus) (ready : tx.IsReady)
      (grows : GrowsHome sb tx s) :
      PrepareOutcome sb tx (.error status) (transactionDiscardImages s)
  | prepared {s : ZiFsTransaction} (result : α) (ready : tx.IsReady) (grows : GrowsHome sb tx s) :
      PrepareOutcome sb tx (.ok result) { s with state := .prepared }

omit hlayout in
theorem prepareWith_returns {π : Type} {check : ZiFsTransaction → ReadIo π}
    {stage : π → Staging α} {r : Result α} (hcheck : ∀ plan, (check tx).Returns (.ok plan) →
      tx.IsReady ∧ StagesHome vol.superblock (stage plan))
    (h : (prepareWith check stage).Returns tx r tx') : PrepareOutcome vol.superblock tx r tx' := by
  simp only [prepareWith,TaskM.returns_get_bind_iff,TaskM.returns_lift_bind_iff] at h
  rcases h with ⟨status,-,rfl,rfl⟩ | ⟨plan,hplan,h⟩
  · exact .refused status
  obtain ⟨hready,hstages⟩ := hcheck plan hplan
  rw [TaskM.returns_bind_iff] at h
  rcases h with ⟨status,h,rfl⟩ | ⟨result,s,h,hdone⟩
  · rcases TaskM.returns_onFailure_iff.mp h with ⟨e,s,hs,heq,rfl⟩ | ⟨result,-,heq⟩
    · exact .discarded status hready (hstages hs)
    · cases heq
  · rw [TaskM.returns_modify_bind_iff,TaskM.returns_pure_iff] at hdone
    obtain ⟨rfl,rfl⟩ := hdone
    rcases TaskM.returns_onFailure_iff.mp h with ⟨e,s',-,heq,-⟩ | ⟨result',hs,-⟩
    · cases heq
    · exact .prepared result hready (hstages hs)

theorem ziFsTransactionPrepareCreateFile_returns {req : ZiFsCreateRequest}
    {r : Result ZiFsCreateResult}
    (h : (ziFsTransactionPrepareCreateFile vol req).Returns tx r tx') :
    PrepareOutcome vol.superblock tx r tx' := by
  refine prepareWith_returns (fun plan hplan => ?_) h
  simp only [checkCreate,returns_bind_ok_iff,returns_ofExcept_iff,returns_pure_iff] at hplan
  obtain ⟨_,hready,-,-,-,-,parent,-,-,-,free,hfree,first,hfirst,heq⟩ := hplan
  cases heq
  have hrun : HomeRun vol.superblock first (blocksFor req.data.length) := by
    rw [chooseDataBlocks] at hfirst
    split at hfirst
    · exact findFreeExtent_returns hfirst
    · intro b _ hb
      omega
  refine ⟨checkTransactionIsReady_ok hready.symm,
    (when fun hne => stageExtentAllocation_stagesHome hlayout ?_).bind fun _ _ =>
    (editStagedBlock_stagesHome (hlayout.isHome_recordTableBlock
      (findFreeRecord_returns hfree))).bind fun _ _ =>
    (stageDirectoryEntry_stagesHome hlayout).bind fun staged _ =>
    (stageChangedFileRecord_stagesHome hlayout).bind fun _ _ =>
    (stageDataBlocks_stagesHome hrun).bind fun _ _ => .pure _⟩
  exact hrun.le_totalBlocks hne

theorem ziFsTransactionPrepareMove_returns {req : ZiFsMoveRequest} {r : Result ZiFsMoveResult}
    (h : (ziFsTransactionPrepareMove vol req).Returns tx r tx') :
    PrepareOutcome vol.superblock tx r tx' := by
  refine prepareWith_returns (fun plan hplan => ?_) h
  obtain ⟨_,hready,-⟩ := returns_bind_ok_iff.mp hplan
  rw [returns_ofExcept_iff] at hready
  exact ⟨checkTransactionIsReady_ok hready.symm,
    (stageDirectoryRemoval_stagesHome hlayout).bind fun removed _ =>
    lift_bind fun _ _ =>
    (stageDirectoryEntry_stagesHome hlayout).bind fun staged _ =>
    (stageChangedFileRecord_stagesHome hlayout).bind fun _ _ =>
    (when fun _ => stageChangedFileRecord_stagesHome hlayout).bind fun _ _ =>
    (stageChangedFileRecord_stagesHome hlayout).bind fun _ _ => .pure _⟩

theorem ziFsTransactionPrepareTruncate_returns {req : ZiFsTruncateRequest}
    {r : Result ZiFsTruncateResult}
    (h : (ziFsTransactionPrepareTruncate vol req).Returns tx r tx') :
    PrepareOutcome vol.superblock tx r tx' := by
  refine prepareWith_returns (fun plan hplan => ?_) h
  simp only [checkTruncate,returns_bind_ok_iff,returns_ofExcept_iff,
    returns_failIf_ok_iff,exists_const,returns_pure_iff] at hplan
  obtain ⟨_,hready,-,-,record,hrec,-,-,-,-,-,-,heq⟩ := hplan
  cases heq
  have hvalid := (ziFsReadFileRecord_returns hrec).2
  refine ⟨(checkTransactionIsEmpty_ok hready.symm).1,
    (stageChangedFileRecord_stagesHome hlayout).bind fun _ _ =>
    (stageTailClear_stagesHome fun e he => ?_).bind fun _ _ =>
    (stageReleases_stagesHome hlayout).bind fun _ _ => .pure _⟩
  obtain ⟨f,hf,hpos,hsub⟩ := splitExtents_kept he
  exact ⟨hpos,fun b hb => hvalid.isHome hf (hsub b hb)⟩

theorem ziFsTransactionPrepareWrite_returns {req : ZiFsWriteRequest} {r : Result ZiFsWriteResult}
    (h : (ziFsTransactionPrepareWrite vol req).Returns tx r tx') :
    PrepareOutcome vol.superblock tx r tx' := by
  refine prepareWith_returns (fun plan hplan => ?_) h
  simp only [checkWrite,returns_bind_ok_iff,returns_ofExcept_iff,
    returns_failIf_ok_iff,exists_const,returns_pure_iff] at hplan
  obtain ⟨_,hready,-,-,-,record,hrec,-,-,-,-,-,grown,hgrown,heq⟩ := hplan
  cases heq
  have hvalid := (ziFsReadFileRecord_returns hrec).2
  obtain ⟨hrun,hcovers⟩ := growRecord_returns hgrown
  refine ⟨(checkTransactionIsEmpty_ok hready.symm).1,
    (when fun hne => stageExtentAllocation_stagesHome hlayout ?_).bind fun _ _ =>
    (stageWriteLoop_stagesHome fun e he b hb => ?_).bind fun _ _ =>
    (stageChangedFileRecord_stagesHome hlayout).bind fun _ _ => .pure _⟩
  · exact hrun.le_totalBlocks hne
  · rcases hcovers e he b hb with ⟨f,hf,hfb⟩ | ⟨hle,hlt⟩
    · exact hvalid.isHome hf hfb
    · exact hrun b hle hlt

theorem ziFsTransactionPrepareDelete_returns {req : ZiFsDeleteRequest} {r : Result ZiFsDeleteResult}
    (h : (ziFsTransactionPrepareDelete vol req).Returns tx r tx') :
    PrepareOutcome vol.superblock tx r tx' := by
  refine prepareWith_returns (fun plan hplan => ?_) h
  simp only [checkDelete,returns_bind_ok_iff,returns_ofExcept_iff,
    returns_failIf_ok_iff,exists_const,returns_pure_iff] at hplan
  obtain ⟨_,hready,-,-,parent,-,located,-,-,record,hrec,-,-,-,-,heq⟩ := hplan
  cases heq
  have hi := (ziFsReadFileRecord_returns hrec).1
  exact ⟨(checkTransactionIsEmpty_ok hready.symm).1,
    (stageDirectoryRemoval_stagesHome hlayout).bind fun removed _ =>
    lift_bind fun _ _ =>
    (stageChangedFileRecord_stagesHome hlayout).bind fun _ _ =>
    (editStagedBlock_stagesHome (hlayout.isHome_recordTableBlock hi)).bind fun _ _ =>
    (stageReleases_stagesHome hlayout).bind fun _ _ => .pure _⟩

end

theorem PrepareOutcome.discard_result {call : Staging α}
    (hcall : ∀ r' : Result α, call.Returns tx r' tx' → PrepareOutcome sb tx r' tx')
    (h : (do let _ ← call : Staging Unit).Returns tx r tx') : PrepareOutcome sb tx r tx' := by
  rcases TaskM.returns_bind_iff.mp h with ⟨status,hfailed,rfl⟩ | ⟨a,t,hdone,hpure⟩
  · cases hcall _ hfailed with
    | refused => exact .refused status
    | discarded _ ready grows => exact .discarded status ready grows
  · obtain ⟨rfl,rfl⟩ := TaskM.returns_pure_iff.mp hpure
    cases hcall _ hdone with
    | prepared _ ready grows => exact .prepared () ready grows

theorem ziFsTransactionPrepare_returns (hlayout : vol.superblock.Layout)
    (h : (ziFsTransactionPrepare vol req).Returns tx r tx') :
    PrepareOutcome vol.superblock tx r tx' := by
  cases req with
  | create req =>
    exact .discard_result (fun _ => ziFsTransactionPrepareCreateFile_returns hlayout) h
  | move req => exact .discard_result (fun _ => ziFsTransactionPrepareMove_returns hlayout) h
  | truncate req =>
    exact .discard_result (fun _ => ziFsTransactionPrepareTruncate_returns hlayout) h
  | write req => exact .discard_result (fun _ => ziFsTransactionPrepareWrite_returns hlayout) h
  | delete req => exact .discard_result (fun _ => ziFsTransactionPrepareDelete_returns hlayout) h

/-- What a prepare call leaves in the transaction object. -/
structure ZiFsTransaction.IsPrepared (sb : ZiFsSuperblock) (before tx : ZiFsTransaction) :
    Prop where
  state : tx.state = .prepared
  sourceGeneration : tx.sourceGeneration = before.sourceGeneration
  targetGeneration : tx.targetGeneration = before.targetGeneration
  transactionId : tx.transactionId = before.transactionId
  home : ∀ n ∈ tx.targets, sb.IsHome n
  nodup : tx.targets.Nodup

theorem PrepareOutcome.isPrepared {a : α} (h : PrepareOutcome sb tx (.ok a : Result α) tx') :
    ZiFsTransaction.IsPrepared sb tx tx' := by
  cases h with
  | prepared _ ready grows =>
    have hempty : tx.targets = [] := by rw [ZiFsTransaction.targets,ready.images,map_nil]
    refine ⟨rfl,grows.sourceGeneration,grows.targetGeneration,grows.transactionId,
      fun n hn => ?_,grows.nodup ?_⟩
    · rcases grows.targets n hn with hn | hn
      · rw [hempty] at hn
        cases hn
      · exact hn
    · rw [hempty]
      exact nodup_nil

theorem isPrepared_of_prepare (hlayout : vol.superblock.Layout) {u : Unit}
    (h : (ziFsTransactionPrepare vol req).eval img tx = (.ok u, tx')) :
    ZiFsTransaction.IsPrepared vol.superblock tx tx' := by
  have hreturns := (ziFsTransactionPrepare vol req).returns_eval img tx
  rw [h] at hreturns
  exact (ziFsTransactionPrepare_returns hlayout hreturns).isPrepared

end Zizium
