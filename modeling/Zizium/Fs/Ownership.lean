import Zizium.Fs.FileMap

/-!
# Ownership of released blocks

Truncating and deleting a file give blocks back.  Before anything is staged the prepare call walks
over the whole record table, so that also on a damaged volume it releases no block of another
record.
-/

namespace Zizium

open Bytes BlockIO ReadM List Function

variable {idx left block i n slot : ℕ} {sb : ZiFsSuperblock} {loaded : LoadedBitmap}
  {extents : List ZiFsExtent} {u : Unit} {req : PrepareRequest} {σ : Type}

variable {vol : ZiFsVolume} {img : ℕ → Block} {tx tx' : ZiFsTransaction}

def slotEncoding (sb : ZiFsSuperblock) (image : ℕ → Block) (index : ℕ) : Mem :=
  (image (recordTableBlock sb index)).mem.shift (index%recordsPerBlock*fileRecordSize)

/-- A slot decodes to the record, which need not be valid otherwise. -/
structure LiveRecord (sb : ZiFsSuperblock) (image : ℕ → Block) (index : ℕ)
    (record : ZiFsFileRecord) : Prop where
  inside : index < sb.recordSlots
  decodes : ziFsDecodeFileRecord (slotEncoding sb image index) = .ok record

def ZiFsFileRecord.Owns (record : ZiFsFileRecord) (block : ℕ) : Prop :=
  ∃ e ∈ record.extents, e.Covers block

variable {record : ZiFsFileRecord} {r : Option ZiFsFileRecord}

/-- The blocks of the record in a slot are allocated and belong to no other record. -/
structure SoleOwner (sb : ZiFsSuperblock) (image : ℕ → Block) (index : ℕ)
    (record : ZiFsFileRecord) : Prop where
  live : LiveRecord sb image index record
  allocated : ∀ block, record.Owns block → blockAllocated sb image block = true
  alone : ∀ i other, LiveRecord sb image i other → i ≠ index →
    ∀ block, record.Owns block → ¬ other.Owns block

theorem bytesAreZero_of_decode {data : Mem} (h : ziFsDecodeFileRecord data = .ok record) :
    bytesAreZero data 0 fileRecordSize = false := by
  by_contra hzero
  rw [Bool.not_eq_false,bytesAreZero_iff] at hzero
  simp only [ziFsDecodeFileRecord,Except.failIf_bind_ok_iff,not_or,ne_eq,not_not] at h
  have hmagic : some (data (0+0)) = recordMagic.head? := congrArg head? h.1.1
  rw [hzero 0 (by decide)] at hmagic
  cases hmagic

theorem LiveRecord.slotRecord_eq (h : LiveRecord sb img idx record)
    (hr : slotRecord sb img idx = .ok r) : r = some record := by
  have hdecodes := h.decodes
  have hused := bytesAreZero_of_decode hdecodes
  rw [slotEncoding] at hused hdecodes
  rw [slotRecord] at hr
  rw [hused,if_neg Bool.false_ne_true,hdecodes] at hr
  simp only [Except.bind_ok_iff,Except.pure_ok_iff] at hr
  obtain ⟨-,-,rfl⟩ := hr
  rfl

/-! ### The checks before a release -/

theorem reloadBitmap_ok {data : Block} (hloaded : LoadedFrom vol.superblock img loaded)
    (h : (reloadBitmap vol loaded idx).eval img = .ok data) :
    data = img (vol.superblock.allocationBitmapStart+idx) := by
  cases loaded with
  | none => exact (ZiBlockDevice.readBlock_ok_iff.mp h).2
  | some p =>
    simp only [reloadBitmap,eval_ite] at h
    split at h
    · next hi =>
      cases h
      rw [← hi]
      exact hloaded p rfl
    · exact (ZiBlockDevice.readBlock_ok_iff.mp h).2

theorem validateAllocatedExtent_ok {loaded' : LoadedBitmap}
    (hloaded : LoadedFrom vol.superblock img loaded)
    (h : (validateAllocatedExtent vol left block loaded).eval img = .ok loaded') :
    LoadedFrom vol.superblock img loaded' ∧
      ∀ b, block ≤ b → b < block+left → blockAllocated vol.superblock img b = true := by
  induction left generalizing block loaded with
  | zero =>
    cases h
    exact ⟨hloaded,fun b _ hb => absurd hb (by omega)⟩
  | succ left ih =>
    simp only [validateAllocatedExtent,bind_ok_iff,failIf_ok_iff,exists_const] at h
    obtain ⟨-,data,hdata,allocated,hbit,halloc,h⟩ := h
    cases reloadBitmap_ok hloaded hdata
    obtain ⟨hlast,hrest⟩ := ih (.some block) h
    refine ⟨hlast,fun b h1 h2 => ?_⟩
    by_cases hb : b = block
    · subst hb
      rw [Bool.not_eq_false] at halloc
      exact (queryBit_ok hbit).symm.trans halloc
    · exact hrest b (by omega) (by omega)

theorem validateAllocatedExtents_ok (hloaded : LoadedFrom vol.superblock img loaded)
    (h : (validateAllocatedExtents vol extents loaded).eval img = .ok u) :
    ∀ e ∈ extents, ∀ b, e.Covers b → blockAllocated vol.superblock img b = true := by
  induction extents generalizing loaded with
  | nil =>
    intro e he
    cases he
  | cons e extents ih =>
    obtain ⟨loaded',hfirst,h⟩ := bind_ok_iff.mp h
    obtain ⟨hloaded',halloc⟩ := validateAllocatedExtent_ok hloaded hfirst
    exact forall_mem_cons.mpr ⟨fun b hb => halloc b hb.1 hb.2,ih hloaded' h⟩

theorem validateOwnerRecordCandidate_ok {seen seen' : Bool}
    (h : validateOwnerRecordCandidate idx record i r seen = .ok seen') (hne : i ≠ idx) :
    ∀ other ∈ r, ∀ block, record.Owns block → ¬ other.Owns block := by
  rintro other hother block ⟨e,he,hcovers⟩ ⟨f,hf,hcovers'⟩
  cases hother
  simp only [validateOwnerRecordCandidate,if_neg hne,Except.bind_ok_iff,Except.failIf_ok_iff,
    exists_const,any_eq_true,not_exists,not_and,Bool.not_eq_true,
    rangesOverlap_eq_false_iff] at h
  exact h.2.1 e he f hf block hcovers.1 hcovers.2 hcovers'.1 hcovers'.2

theorem validateExtentOwnership_ok (hrec : (ziFsReadFileRecord vol idx).eval img = .ok record)
    (h : (validateExtentOwnership vol idx record).eval img = .ok u) :
    SoleOwner vol.superblock img idx record := by
  obtain ⟨hidx,hdec,-⟩ := ziFsReadFileRecord_ok hrec
  simp only [validateExtentOwnership,bind_ok_iff,failIf_ok_iff,exists_const] at h
  obtain ⟨-,-,seen,hvisit,-,halloc⟩ := h
  refine ⟨⟨hidx,hdec⟩,?_,?_⟩
  · rintro block ⟨e,he,hcovers⟩
    refine validateAllocatedExtents_ok ?_ halloc e he block hcovers
    intro p hp
    cases hp
  -- the record in every slot that the walk has passed shares no block with the owner
  · have hslots := visitRecordTable_invariant (fun k (_ : Bool) =>
      ∀ i < k, ∃ r, slotRecord vol.superblock img i = .ok r ∧
        (i ≠ idx → ∀ other ∈ r, ∀ block, record.Owns block → ¬ other.Owns block)) ?_
      (fun i hi => absurd hi (Nat.not_lt_zero i)) hvisit
    · intro i other hother hne
      obtain ⟨r,hr,halone⟩ := hslots i hother.inside
      exact halone hne other (hother.slotRecord_eq hr)
    · intro i seen r seen' hi hslots hr hvisit j hj
      rcases Nat.lt_succ_iff_lt_or_eq.mp hj with hj | rfl
      · exact hslots j hj
      · exact ⟨r,hr,validateOwnerRecordCandidate_ok hvisit⟩

/-! ### The bits that staging changes -/

def ZiFsDeferredExtent.Covers (extent : ZiFsDeferredExtent) (block : ℕ) : Prop :=
  extent.firstBlock ≤ block ∧ block < extent.firstBlock+extent.blockCount

variable {releases : List ZiFsDeferredExtent} {e : ZiFsDeferredExtent}

def SameBitmap (sb : ZiFsSuperblock) (view view' : ℕ → Block) : Prop :=
  ∀ block < sb.totalBlocks, blockAllocated sb view' block = blockAllocated sb view block

namespace SameBitmap

variable {view view' view'' : ℕ → Block}

theorem refl : SameBitmap sb view view := fun _ _ => rfl

theorem trans (h : SameBitmap sb view view') (h' : SameBitmap sb view' view'') :
    SameBitmap sb view view'' := fun block hblock => (h' block hblock).trans (h block hblock)

theorem update (hn : ∀ block < sb.totalBlocks, bitmapBlock sb block ≠ n) (data : Block) :
    SameBitmap sb view (update view n data) := by
  intro block hblock
  rw [blockAllocated,update_of_ne (hn block hblock),← blockAllocated]

end SameBitmap

section

variable (hlayout : sb.Layout)

include hlayout

namespace ZiFsSuperblock.Layout

theorem bitmapBlock_mem (hblock : block < sb.totalBlocks) :
    sb.allocationBitmapStart ≤ bitmapBlock sb block ∧
      bitmapBlock sb block < sb.allocationBitmapStart+sb.allocationBitmapBlocks := by
  have hbitmap := hlayout.bitmap
  simp only [bitmapBlock,bitsPerBitmapBlock]
  omega

theorem bitmapBlock_ne_recordTableBlock (hi : idx < sb.recordSlots) :
    ∀ block < sb.totalBlocks, bitmapBlock sb block ≠ recordTableBlock sb idx := by
  intro block hblock heq
  refine hlayout.separate (i := 2) (j := 0) rfl rfl (by decide) (hlayout.bitmapBlock_mem hblock) ?_
  rw [heq]
  simp only [recordTableBlock,ZiFsSuperblock.recordSlots,recordsPerBlock] at hi ⊢
  omega

theorem bitmapBlock_ne_data (hn : ¬sb.IsMetadata n) :
    ∀ block < sb.totalBlocks, bitmapBlock sb block ≠ n := by
  rintro block hblock rfl
  exact hn (.inr (.inr ⟨(sb.allocationBitmapStart, sb.allocationBitmapBlocks),
    by simp [ZiFsSuperblock.tables],hlayout.bitmapBlock_mem hblock⟩))

theorem bitmapBlock_ne_directory
    (hn : sb.directoryTableStart ≤ n ∧ n < sb.directoryTableStart+sb.directoryTableBlocks) :
    ∀ block < sb.totalBlocks, bitmapBlock sb block ≠ n := by
  rintro block hblock rfl
  exact hlayout.separate (i := 2) (j := 1) rfl rfl (by decide) (hlayout.bitmapBlock_mem hblock) hn

end ZiFsSuperblock.Layout

end

theorem stageReleases_ok (h : (stageReleases vol releases).eval img tx = (.ok u, tx')) :
    (∀ e ∈ releases, ∀ b, e.Covers b → blockAllocated vol.superblock (tx.view img) b = true ∧
          blockAllocated vol.superblock (tx'.view img) b = false) ∧
      (∀ b, (∀ e ∈ releases, ¬ e.Covers b) → blockAllocated vol.superblock (tx'.view img) b =
        blockAllocated vol.superblock (tx.view img) b) ∧
      tx'.deferredExtents = tx.deferredExtents ++ releases := by
  induction releases generalizing tx with
  | nil =>
    cases h
    refine ⟨fun e he => ?_,fun b _ => rfl,(append_nil _).symm⟩
    cases he
  | cons release releases ih =>
    obtain ⟨_,s,hfirst,h⟩ := TaskM.bind_ok_iff.mp h
    obtain ⟨hbits,hdeferred⟩ := stageExtentRelease_ok hfirst
    obtain ⟨hcleared,hkept,hdeferred'⟩ := ih h
    have hfree : ∀ b, release.Covers b → blockAllocated vol.superblock (s.view img) b = false := by
      intro b hb
      rw [hbits.after,if_pos ⟨hb.1,hb.2⟩]
    refine ⟨fun e he b hb => ?_,fun b hb => ?_,?_⟩
    · rcases mem_cons.mp he with rfl | he
      · refine ⟨hbits.before b hb.1 hb.2,?_⟩
        -- no later extent has a bit of this one, which is clear already
        rw [hkept b fun f hf hcovers => ?_]
        · exact hfree b hb
        · have hset := (hcleared f hf b hcovers).1
          rw [hfree b hb] at hset
          cases hset
      · obtain ⟨hset,hclear⟩ := hcleared e he b hb
        refine ⟨?_,hclear⟩
        rw [hbits.after] at hset
        split at hset
        · cases hset
        · exact hset
    · rw [hkept b fun e he => hb e (mem_cons_of_mem _ he),hbits.after]
      exact if_neg (hb release mem_cons_self)
    · rw [hdeferred',hdeferred,append_assoc]
      rfl

theorem stageTailClear_ok (hlayout : vol.superblock.Layout) {newSize : ℕ} {changed : ZiFsFileRecord}
    (hdata : ∀ e ∈ changed.extents, 0 < e.blockCount ∧ ∀ b, e.Covers b →
      ¬vol.superblock.IsMetadata b)
    (h : (stageTailClear vol newSize changed).eval img tx = (.ok u, tx')) :
    SameBitmap vol.superblock (tx.view img) (tx'.view img) ∧
      tx'.deferredExtents = tx.deferredExtents := by
  rw [stageTailClear] at h
  split at h
  · cases h
    exact ⟨.refl,rfl⟩
  · next e he =>
    split at h
    · obtain ⟨data,-,hview,hdeferred⟩ := editStagedBlock_ok h
      refine ⟨?_,hdeferred⟩
      rw [hview]
      obtain ⟨hpos,hcovers⟩ := hdata e (mem_of_getLast? he)
      refine .update (hlayout.bitmapBlock_ne_data (hcovers _ ?_)) _
      simp only [ZiFsExtent.Covers]
      omega
    · cases h
      exact ⟨.refl,rfl⟩

theorem stageChangedFileRecord_sameBitmap (hlayout : vol.superblock.Layout)
    (h : (stageChangedFileRecord vol idx record).eval img tx = (.ok u, tx')) :
    SameBitmap vol.superblock (tx.view img) (tx'.view img) ∧
      tx'.deferredExtents = tx.deferredExtents := by
  obtain ⟨hi,bytes,hview,hdeferred⟩ := stageChangedFileRecord_ok h
  rw [hview]
  exact ⟨.update (hlayout.bitmapBlock_ne_recordTableBlock hi) _,hdeferred⟩

theorem stageDirectoryRemoval_sameBitmap (hlayout : vol.superblock.Layout) {dir : ZiFsFileRecord}
    {name : List UInt8} {removed : ZiFsDirectoryEntry}
    (h : (stageDirectoryRemoval vol dir block name).eval img tx = (.ok removed, tx')) :
    SameBitmap vol.superblock (tx.view img) (tx'.view img) ∧
      tx'.deferredExtents = tx.deferredExtents := by
  simp only [stageDirectoryRemoval,TaskM.lift_bind_ok_iff,eval_ofExcept,
    TaskM.failIf_bind_ok_iff,TaskM.get_bind_ok_iff,Bool.not_eq_false] at h
  obtain ⟨_,hbelongs,rfl,h⟩ := h
  obtain ⟨count,-,hhas⟩ := Except.bind_ok_iff.mp hbelongs
  obtain ⟨l,hl⟩ := directoryHasBlock_at hhas
  obtain ⟨data,-,hview,hdeferred⟩ := editStagedBlock_ok h
  rw [hview]
  refine ⟨.update ?_ _,hdeferred⟩
  rcases ziFsDirectoryBlockAt_place hl with htable | ⟨-,hdata⟩
  · exact hlayout.bitmapBlock_ne_directory htable
  · exact hlayout.bitmapBlock_ne_data hdata

theorem splitExtents_releases {remaining : ℕ} (he : e ∈ (splitExtents extents remaining).releases) :
    ∃ f ∈ extents, ∀ b, e.Covers b → f.Covers b := by
  induction extents generalizing remaining with
  | nil => cases he
  | cons f extents ih =>
    simp only [splitExtents] at he
    rw [exists_mem_cons_iff]
    split at he
    · rcases mem_cons.mp he with rfl | he
      · refine .inl fun b hb => ?_
        simp only [ZiFsDeferredExtent.Covers,ZiFsExtent.Covers] at hb ⊢
        omega
      · exact .inr (ih he)
    · exact .inr (ih he)

theorem mem_extentReleases (he : e ∈ extentReleases extents) :
    ∃ f ∈ extents, ∀ b, e.Covers b → f.Covers b := by
  obtain ⟨f,hf,rfl⟩ := mem_map.mp he
  exact ⟨f,hf,fun b hb => hb⟩

/-! ### Truncating and deleting -/

/-- The slot of the file that a request releases blocks of. -/
inductive ReleaseTarget (volume : ZiFsVolume) (image : ℕ → Block) : PrepareRequest → ℕ → Prop where
  | truncate (request : ZiFsTruncateRequest) :
      ReleaseTarget volume image (.truncate request) request.recordIndex
  | delete {request : ZiFsDeleteRequest} {parent : ZiFsFileRecord} {located : LocatedEntry}
      (directory : (readDirectoryRecord volume request.parentRecordIndex).eval image = .ok parent)
      (entry : (ziFsFindDirectoryEntryInRecord volume parent request.name).eval image =
        .ok located) :
      ReleaseTarget volume image (.delete request) located.entry.recordIndex

def ZiFsTransaction.Releases (tx : ZiFsTransaction) (block : ℕ) : Prop :=
  ∃ e ∈ tx.deferredExtents, e.Covers block

/-- What a transaction releases is owned by one record, and the bitmap changes accordingly. -/
structure ReleasesOwned (sb : ZiFsSuperblock) (image : ℕ → Block) (record : ZiFsFileRecord)
    (tx : ZiFsTransaction) : Prop where
  owned : ∀ block, tx.Releases block → record.Owns block ∧ ¬sb.IsMetadata block
  cleared : ∀ block, tx.Releases block → blockAllocated sb image block = true ∧
    blockAllocated sb (tx.view image) block = false
  kept : ∀ block < sb.totalBlocks, ¬ tx.Releases block →
    blockAllocated sb (tx.view image) block = blockAllocated sb image block

theorem ReleasesOwned.of_stageReleases {s : ZiFsTransaction}
    (hvalid : record.ValidOn vol.superblock)
    (hreleases : ∀ e ∈ releases, ∃ f ∈ record.extents, ∀ b, e.Covers b → f.Covers b)
    (hsame : SameBitmap vol.superblock img (s.view img)) (hnone : s.deferredExtents = [])
    (h : (stageReleases vol releases).eval img s = (.ok u, tx')) :
    ReleasesOwned vol.superblock img record tx' := by
  obtain ⟨hcleared,hkept,hdeferred⟩ := stageReleases_ok h
  rw [hnone,nil_append] at hdeferred
  have howned : ∀ block, tx'.Releases block → ∃ f ∈ record.extents, f.Covers block := by
    rintro block ⟨e,he,hb⟩
    obtain ⟨f,hf,hsub⟩ := hreleases e (hdeferred ▸ he)
    exact ⟨f,hf,hsub block hb⟩
  refine ⟨fun block hblock => ?_,?_,fun block hlt hblock => ?_⟩
  · obtain ⟨f,hf,hcovers⟩ := howned block hblock
    exact ⟨⟨f,hf,hcovers⟩,hvalid.data f hf block hcovers⟩
  · rintro block ⟨e,he,hb⟩
    obtain ⟨f,hf,hcovers⟩ := howned block ⟨e,he,hb⟩
    obtain ⟨hset,hclear⟩ := hcleared e (hdeferred ▸ he) block hb
    rw [hsame block (hvalid.isHome hf hcovers).1] at hset
    exact ⟨hset,hclear⟩
  · rw [hkept block fun e he hb => hblock ⟨e,hdeferred ▸ he,hb⟩,hsame block hlt]

theorem ReleasesOwned.withState (h : ReleasesOwned sb img record tx)
    (state : ZiFsTransactionState) : ReleasesOwned sb img record { tx with state := state } :=
  ⟨h.owned,h.cleared,h.kept⟩

theorem ZiFsTransaction.IsReady.view_eq (h : tx.IsReady) : tx.view img = img := by
  funext n
  refine ZiFsTransaction.view_of_notMem ?_
  rw [ZiFsTransaction.targets,h.images]
  exact not_mem_nil

section

variable (hlayout : vol.superblock.Layout)

include hlayout

theorem ziFsTransactionPrepareTruncate_releases {req : ZiFsTruncateRequest}
    {result : ZiFsTruncateResult}
    (h : (ziFsTransactionPrepareTruncate vol req).eval img tx = (.ok result, tx')) :
    ∃ idx record, ReleaseTarget vol img (.truncate req) idx ∧
      SoleOwner vol.superblock img idx record ∧ ReleasesOwned vol.superblock img record tx' := by
  obtain ⟨plan,s,hcheck,hstage,rfl⟩ := prepareWith_ok h
  have checked := checkTruncate_ok hcheck
  obtain ⟨s1,s2,h1,h2,h3⟩ := stageTruncate_ok hstage
  have hvalid := (ziFsReadFileRecord_ok checked.record).2.2
  have hkept : ∀ e ∈ plan.changed.extents, 0 < e.blockCount ∧
      ∀ b, e.Covers b → ¬vol.superblock.IsMetadata b := by
    intro e he
    rw [checked.changed] at he
    obtain ⟨f,hf,hpos,hsub⟩ := splitExtents_kept he
    exact ⟨hpos,fun b hb => hvalid.data f hf b (hsub b hb)⟩
  have hreleases : ∀ e ∈ plan.releases, ∃ f ∈ plan.record.extents, ∀ b, e.Covers b →
      f.Covers b := by
    rw [checked.releases]
    exact fun e he => splitExtents_releases he
  obtain ⟨hsame1,hdeferred1⟩ := stageChangedFileRecord_sameBitmap hlayout h1
  obtain ⟨hsame2,hdeferred2⟩ := stageTailClear_ok hlayout hkept h2
  rw [checked.ready.view_eq] at hsame1
  refine ⟨_,_,.truncate req,validateExtentOwnership_ok checked.record checked.owned,?_⟩
  exact (ReleasesOwned.of_stageReleases hvalid hreleases (hsame1.trans hsame2)
    (hdeferred2.trans (hdeferred1.trans checked.deferred)) h3).withState _

theorem ziFsTransactionPrepareDelete_releases {req : ZiFsDeleteRequest} {result : ZiFsDeleteResult}
    (h : (ziFsTransactionPrepareDelete vol req).eval img tx = (.ok result, tx')) :
    ∃ idx record, ReleaseTarget vol img (.delete req) idx ∧
      SoleOwner vol.superblock img idx record ∧ ReleasesOwned vol.superblock img record tx' := by
  obtain ⟨plan,s,hcheck,hstage,rfl⟩ := prepareWith_ok h
  have checked := checkDelete_ok hcheck
  obtain ⟨_,hempty,-⟩ := bind_ok_iff.mp hcheck
  obtain ⟨hready,hdeferred⟩ := checkTransactionIsEmpty_ok hempty
  obtain ⟨s1,s2,s3,removed,h1,h2,h3,h4⟩ := stageDelete_ok hstage
  obtain ⟨hi,-,hvalid⟩ := ziFsReadFileRecord_ok checked.record
  obtain ⟨hsame1,hdeferred1⟩ := stageDirectoryRemoval_sameBitmap hlayout h1
  obtain ⟨hsame2,hdeferred2⟩ := stageChangedFileRecord_sameBitmap hlayout h2
  obtain ⟨data,-,hview,hdeferred3⟩ := editStagedBlock_ok h3
  have hsame3 : SameBitmap vol.superblock (s2.view img) (s3.view img) := by
    rw [hview]
    exact .update (hlayout.bitmapBlock_ne_recordTableBlock hi) _
  rw [hready.view_eq] at hsame1
  refine ⟨_,_,.delete checked.parent checked.located,
    validateExtentOwnership_ok checked.record checked.owned,?_⟩
  exact (ReleasesOwned.of_stageReleases hvalid (fun e he => mem_extentReleases he)
    (hsame1.trans (hsame2.trans hsame3))
    (hdeferred3.trans (hdeferred2.trans (hdeferred1.trans hdeferred))) h4).withState _

theorem ziFsTransactionPrepare_releases (hreq : (∃ r, req = .truncate r) ∨ ∃ r, req = .delete r)
    (h : (ziFsTransactionPrepare vol req).eval img tx = (.ok u, tx')) :
    ∃ idx record, ReleaseTarget vol img req idx ∧ SoleOwner vol.superblock img idx record ∧
      ReleasesOwned vol.superblock img record tx' := by
  rcases hreq with ⟨req,rfl⟩ | ⟨req,rfl⟩
  · obtain ⟨result,s,h,hpure⟩ := TaskM.bind_ok_iff.mp h
    obtain ⟨-,rfl⟩ := TaskM.pure_ok_iff.mp hpure
    exact ziFsTransactionPrepareTruncate_releases hlayout h
  · obtain ⟨result,s,h,hpure⟩ := TaskM.bind_ok_iff.mp h
    obtain ⟨-,rfl⟩ := TaskM.pure_ok_iff.mp hpure
    exact ziFsTransactionPrepareDelete_releases hlayout h

end

theorem ReleaseTarget.unique {j : ℕ} (h : ReleaseTarget vol img req i)
    (h' : ReleaseTarget vol img req j) : i = j := by
  cases h with
  | truncate req =>
    cases h'
    rfl
  | delete dir entry =>
    cases h' with
    | delete directory' entry' =>
      cases dir.symm.trans directory'
      cases entry.symm.trans entry'
      rfl

/-! ### A volume with one file -/

/-- A fresh transaction on the small volume, with room for two images. -/
def freshTransaction : ZiFsTransaction where
  sourceGeneration := 1
  targetGeneration := 2
  transactionId := 1
  state := .ready
  blockImageCapacity := 2
  blockImages := []
  deferredExtents := []

/-- The small volume with a file of two blocks in the second slot of the record table, and any
content of the first journal header. -/
def oneFileDisk (b : Block) : ℕ → Block
  | 1 => .ofMem 4096
    ((Mem.zero.put 0 (fileRecordBytes blankRoot)).put 256 (fileRecordBytes twoBlockFile))
  | 3 => Buffer.zero.put 0 [0xff,0xff,0xff,0x82]
  | 4 => b
  | n => blankImage stateMounted n

theorem slotRecord_of_decode (hdec : ziFsDecodeFileRecord (slotEncoding sb img idx) = .ok record)
    (hvalid : ziFsValidateFileRecord sb record = .ok ()) :
    slotRecord sb img idx = .ok (some record) := by
  have hused := bytesAreZero_of_decode hdec
  rw [slotEncoding] at hused hdec
  rw [slotRecord,hused,if_neg Bool.false_ne_true,hdec]
  refine Except.failIf_bind_neg ?_
  rw [hvalid]
  decide

theorem visitRecordSlots_step {visit : ℕ → Option ZiFsFileRecord → σ → Result σ} {s s' : σ}
    (hslot : slot < 16) (hr : slotRecord sb img slot = .ok r) (hvisit : visit slot r s = .ok s') :
    visitRecordSlots sb visit (img sb.recordTableStart).mem 0 (left+1) slot s =
      visitRecordSlots sb visit (img sb.recordTableStart).mem 0 left (slot+1) s' := by
  rw [slotRecord,recordTableBlock,Nat.div_eq_of_lt hslot,Nat.mod_eq_of_lt hslot,Nat.add_zero] at hr
  rw [visitRecordSlots,Nat.zero_add]
  split at hr
  · next hzero =>
    cases hr
    rw [if_pos hzero,hvisit]
    rfl
  · next hzero =>
    rw [if_neg hzero]
    cases hdec : ziFsDecodeFileRecord
        ((img sb.recordTableStart).mem.shift (slot*fileRecordSize)) with
    | error e =>
      rw [hdec] at hr
      cases hr
    | ok record =>
      rw [hdec] at hr
      obtain ⟨hvalid,hr⟩ := Except.failIf_bind_ok_iff.mp hr
      cases hr
      dsimp only
      rw [Except.failIf_bind_neg hvalid,hvisit]
      rfl

theorem visitRecordSlots_empty {visit : ℕ → Option ZiFsFileRecord → σ → Result σ} {s : σ}
    (hvisit : ∀ i, visit i none s = .ok s) (hslot : slot+left = 16)
    (hempty : ∀ i < 16, slot ≤ i → slotRecord sb img i = .ok none) :
    visitRecordSlots sb visit (img sb.recordTableStart).mem 0 left slot s = .ok s := by
  induction left generalizing slot with
  | zero => rfl
  | succ left ih =>
    rw [visitRecordSlots_step (by omega) (hempty slot (by omega) (Nat.le_refl _)) (hvisit slot)]
    exact ih (by omega) fun i hi hle => hempty i hi (by omega)

theorem twoBlockFile_validate :
    ziFsValidateFileRecord (blankVolume stateMounted).superblock twoBlockFile = .ok () := by decide

section

variable (b : Block)

theorem oneFileDisk_slots :
    slotRecord (blankVolume stateMounted).superblock (oneFileDisk b) 0 = .ok (some blankRoot) ∧
      slotRecord (blankVolume stateMounted).superblock (oneFileDisk b) 1 = .ok (some twoBlockFile) ∧
      ∀ slot < 16, 2 ≤ slot →
        slotRecord (blankVolume stateMounted).superblock (oneFileDisk b) slot = .ok none := by
  have hshape : twoBlockFile.Shape := validateFileRecordShape_iff.mp (by decide)
  have hfits : twoBlockFile.Fits := by
    refine ⟨by decide,by decide,by decide,by decide,by decide,by decide,by decide,by decide,
      by decide,by decide,by decide,fun e he => ?_⟩
    rcases mem_pair.mp he with rfl | rfl <;> constructor <;> decide
  have hblock : ∀ i < 4096, (oneFileDisk b 1).mem i =
      ((Mem.zero.put 0 (fileRecordBytes blankRoot)).put 256 (fileRecordBytes twoBlockFile)) i := by
    intro i hi
    rw [show oneFileDisk b 1 = .ofMem 4096 ((Mem.zero.put 0 (fileRecordBytes blankRoot)).put 256
      (fileRecordBytes twoBlockFile)) from rfl]
    exact Buffer.mem_ofMem_of_lt hi
  refine ⟨slotRecord_of_decode ?_ blankRoot_validate,slotRecord_of_decode ?_
    twoBlockFile_validate,fun slot hlt hle => ?_⟩
  · refine ziFsDecodeFileRecord_fileRecordBytes ?_ blankRoot_fits blankRoot_shape
    show ((oneFileDisk b 1).mem.shift 0).slice 0 256 = _
    rw [Mem.slice_shift,Mem.slice_congr fun i hi => hblock _ (by omega),
      Mem.slice_put_of_disjoint (.inl (by decide))]
    exact Mem.slice_put_self (length_fileRecordBytes _)
  · refine ziFsDecodeFileRecord_fileRecordBytes ?_ hfits hshape
    show ((oneFileDisk b 1).mem.shift 256).slice 0 256 = _
    rw [Mem.slice_shift,Mem.slice_congr fun i hi => hblock _ (by omega)]
    exact Mem.slice_put_self (length_fileRecordBytes _)
  · rw [slotRecord,recordTableBlock,Nat.div_eq_of_lt hlt,Nat.mod_eq_of_lt hlt]
    refine if_pos (bytesAreZero_iff.mpr fun i (hi : i < 256) => ?_)
    show (oneFileDisk b 1).mem (slot*256+(0+i)) = 0
    have hlen := length_fileRecordBytes
    rw [hblock _ (by omega),Mem.put_of_ge (by rw [hlen]; omega),
      Mem.put_of_ge (by rw [hlen]; omega)]
    rfl

theorem oneFileDisk_read :
    (ziFsReadFileRecord (blankVolume stateMounted) 1).eval (oneFileDisk b) = .ok twoBlockFile := by
  refine failIf_bind_ok Nat.one_pos.not_ge ?_
  refine bind_ok_iff.mpr ⟨_,blankDevice_readBlock (by decide : 1 < 32),?_⟩
  refine bind_ok_iff.mpr ⟨_,(slotRecord_some (oneFileDisk_slots b).2.1).1,?_⟩
  exact bind_ok_iff.mpr ⟨(),twoBlockFile_validate,rfl⟩

theorem oneFileDisk_walk : visitRecordSlots (blankVolume stateMounted).superblock
      (validateOwnerRecordCandidate 1 twoBlockFile)
      (oneFileDisk b (blankVolume stateMounted).superblock.recordTableStart).mem 0 16 0 false =
        .ok true := by
  obtain ⟨hroot,hfile,hempty⟩ := oneFileDisk_slots b
  have hvisit : validateOwnerRecordCandidate 1 twoBlockFile 0 (some blankRoot) false = .ok false :=
    rfl
  have hvisit' : validateOwnerRecordCandidate 1 twoBlockFile 1 (some twoBlockFile) false =
      .ok true := rfl
  rw [visitRecordSlots_step (by decide) hroot hvisit,
    visitRecordSlots_step (by decide) hfile hvisit']
  exact visitRecordSlots_empty (fun _ => rfl) rfl hempty

theorem oneFileDisk_owned :
    (validateExtentOwnership (blankVolume stateMounted) 1 twoBlockFile).eval (oneFileDisk b) =
      .ok () := by
  refine failIf_bind_ok (by decide) ?_
  refine failIf_bind_ok (by decide) ?_
  refine bind_ok_iff.mpr ⟨true,?_,?_⟩
  · refine bind_ok_iff.mpr ⟨true,?_,rfl⟩
    refine bind_ok_iff.mpr ⟨_,blankDevice_readBlock (by decide : 1 < 32),?_⟩
    rw [eval_ofExcept]
    exact oneFileDisk_walk b
  · refine failIf_bind_ok (by decide) ?_
    have hbits : ∀ block ∈ [23,25],
        ziFsAllocationBitQuery (oneFileDisk b 3).mem blockSize block = .ok true := by
      show ∀ block ∈ [23,25],
        ziFsAllocationBitQuery (oneFileDisk Buffer.zero 3).mem blockSize block = .ok true
      decide +kernel
    refine bind_ok_iff.mpr ⟨some (0, oneFileDisk b 3),?_,
      bind_ok_iff.mpr ⟨some (0, oneFileDisk b 3),?_,rfl⟩⟩
    · refine failIf_bind_ok (by decide) ?_
      refine bind_ok_iff.mpr ⟨oneFileDisk b 3,blankDevice_readBlock (by decide : 3 < 32),?_⟩
      exact bind_ok_iff.mpr ⟨true,orFail_ok_iff.mpr (hbits 25 (by decide)),rfl⟩
    · refine failIf_bind_ok (by decide) ?_
      refine bind_ok_iff.mpr ⟨oneFileDisk b 3,rfl,?_⟩
      exact bind_ok_iff.mpr ⟨true,orFail_ok_iff.mpr (hbits 23 (by decide)),rfl⟩

/-- Cut the file to a number of bytes. -/
def cutFile (newSize : ℕ) : ZiFsTruncateRequest := ⟨40,1,1,newSize,0,0,0⟩

def cutPlan (newSize : ℕ) : TruncatePlan :=
  let split := splitExtents twoBlockFile.extents (blocksFor newSize)
  let changed := { twoBlockFile with
    extents := split.kept, fileSize := newSize, allocatedSize := blocksFor newSize*blockSize }
  ⟨twoBlockFile,changed.touch 0,split.releases⟩

theorem oneFileDisk_cut {newSize : ℕ} (hsize : newSize ≤ 4100) :
    (ziFsTransactionPrepare (blankVolume stateMounted) (.truncate (cutFile newSize))).eval
      (oneFileDisk b) freshTransaction =
        match (stageTruncate (blankVolume stateMounted) (cutFile newSize) (cutPlan newSize)).eval
          (oneFileDisk b) freshTransaction with
        | (.ok _, s) => (.ok (), { s with state := .prepared })
        | (.error status, s) => (.error status, transactionDiscardImages s) := by
  have hcheck : (checkTruncate (blankVolume stateMounted) (cutFile newSize) freshTransaction).eval
      (oneFileDisk b) = .ok (cutPlan newSize) := by
    refine bind_ok_iff.mpr ⟨(),rfl,?_⟩
    refine bind_ok_iff.mpr ⟨(),rfl,?_⟩
    refine bind_ok_iff.mpr ⟨_,oneFileDisk_read b,?_⟩
    refine failIf_bind_ok (by show ¬(1 = 0 ∨ ¬1 = 1); decide) ?_
    refine failIf_bind_ok (Nat.not_lt.mpr hsize) ?_
    refine bind_ok_iff.mpr ⟨(),oneFileDisk_owned b,?_⟩
    have hblocks : blocksFor newSize ≤ 2 := by
      rw [blocksFor]
      split
      · exact Nat.zero_le _
      · show 1+(newSize-1)/4096 ≤ 2
        omega
    have hsplit : ∀ n ≤ 2, (splitExtents twoBlockFile.extents n).releases.length ≤
        transactionMaximumDeferredExtents ∧ ¬((splitExtents twoBlockFile.extents n).remainingBlocks
          ≠ 0 ∨ n > uint64Max/blockSize) := by decide
    refine failIf_bind_ok (Nat.not_lt.mpr (hsplit _ hblocks).1) ?_
    exact failIf_bind_ok (hsplit _ hblocks).2 rfl
  rw [eval_prepare_truncate,ziFsTransactionPrepareTruncate,eval_prepareWith hcheck]
  rcases (stageTruncate _ _ _).eval _ _ with ⟨_ | _,_⟩ <;> rfl

end

/-! ### What is released on a damaged volume -/

theorem released_blocks_owned (ranges : superblockRangesAreValid vol.superblock = true)
    (img : ℕ → Block) (tx : ZiFsTransaction) {request : PrepareRequest}
    (releasing : (∃ r, request = .truncate r) ∨ ∃ r, request = .delete r) :
    (∀ tx', (ziFsTransactionPrepare vol request).eval img tx = (.ok (), tx') →
      ∃ idx record, ReleaseTarget vol img request idx ∧ LiveRecord vol.superblock img idx record ∧
        (∀ block, tx'.Releases block → blockAllocated vol.superblock img block = true ∧
          blockAllocated vol.superblock (tx'.view img) block = false ∧
          ¬vol.superblock.IsMetadata block ∧ record.Owns block ∧
          ∀ i other, LiveRecord vol.superblock img i other → i ≠ idx → ¬ other.Owns block) ∧
        ∀ block < vol.superblock.totalBlocks, ¬ tx'.Releases block →
          blockAllocated vol.superblock (tx'.view img) block =
            blockAllocated vol.superblock img block) ∧
      ∀ idx record block, ReleaseTarget vol img request idx →
        LiveRecord vol.superblock img idx record → record.Owns block →
        (blockAllocated vol.superblock img block = false ∨
          ∃ i other, LiveRecord vol.superblock img i other ∧ i ≠ idx ∧ other.Owns block) →
        ∃ status tx', (ziFsTransactionPrepare vol request).eval img tx = (.error status, tx') := by
  have hlayout := superblockRangesAreValid_iff.mp ranges
  refine ⟨fun tx' h => ?_,fun idx record block htarget hlive howns hbad => ?_⟩
  · obtain ⟨idx,record,htarget,hsole,hreleases⟩ :=
      ziFsTransactionPrepare_releases hlayout releasing h
    refine ⟨idx,record,htarget,hsole.live,fun block hblock => ?_,hreleases.kept⟩
    obtain ⟨howns,hdata⟩ := hreleases.owned block hblock
    obtain ⟨hset,hclear⟩ := hreleases.cleared block hblock
    exact ⟨hset,hclear,hdata,howns,fun i other hother hne => hsole.alone i other hother hne
      block howns⟩
  · rcases hrun : (ziFsTransactionPrepare vol request).eval img tx with ⟨r,tx'⟩
    cases r with
    | error status => exact ⟨status,tx',rfl⟩
    | ok u =>
      obtain ⟨index',record',htarget',hsole,-⟩ :=
        ziFsTransactionPrepare_releases hlayout releasing hrun
      cases htarget.unique htarget'
      cases hlive.decodes.symm.trans hsole.live.decodes
      rcases hbad with hfree | ⟨i,other,hother,hne,hshared⟩
      · rw [hsole.allocated block howns] at hfree
        cases hfree
      · exact absurd hshared (hsole.alone i other hother hne block howns)

theorem released_blocks_owned_oneFile :
    superblockRangesAreValid (blankVolume stateMounted).superblock = true ∧
      ∃ tx', (ziFsTransactionPrepare (blankVolume stateMounted) (.truncate (cutFile 0))).eval
        (oneFileDisk Buffer.zero) freshTransaction = (.ok (), tx') ∧ tx'.Releases 23 ∧
        blockAllocated (blankVolume stateMounted).superblock (oneFileDisk Buffer.zero) 23 = true ∧
        blockAllocated (blankVolume stateMounted).superblock (tx'.view (oneFileDisk Buffer.zero))
          23 = false := by
  have hranges : superblockRangesAreValid (blankVolume stateMounted).superblock = true := by decide
  obtain ⟨s,hstage,hdeferred⟩ : ∃ s, (stageTruncate (blankVolume stateMounted) (cutFile 0)
      (cutPlan 0)).eval (oneFileDisk Buffer.zero) freshTransaction = (.ok ⟨2,1,4100,0,0,2⟩, s) ∧
        s.deferredExtents = [⟨25,1⟩,⟨23,1⟩] := ⟨_,rfl,rfl⟩
  have hprepare : (ziFsTransactionPrepare (blankVolume stateMounted) (.truncate (cutFile 0))).eval
      (oneFileDisk Buffer.zero) freshTransaction = (.ok (), { s with state := .prepared }) := by
    rw [oneFileDisk_cut _ (by decide),hstage]
  have hreleases : ({ s with state := .prepared } : ZiFsTransaction).Releases 23 := by
    refine ⟨⟨23,1⟩,?_,by decide,by decide⟩
    show _ ∈ s.deferredExtents
    simp [hdeferred]
  obtain ⟨idx,record,-,-,hreleased,-⟩ := (released_blocks_owned hranges (oneFileDisk Buffer.zero)
    freshTransaction (.inl ⟨cutFile 0,rfl⟩)).1 _ hprepare
  obtain ⟨hset,hclear,-⟩ := hreleased 23 hreleases
  exact ⟨hranges,_,hprepare,hreleases,hset,hclear⟩

end Zizium
