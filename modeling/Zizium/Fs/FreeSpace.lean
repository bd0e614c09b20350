import Zizium.Fs.Authorisation
import Zizium.Fs.Tables

/-!
# The search for free space

What the searches of `transaction.c` find: the lowest free run of the requested length, or the
blocks behind the last extent of a record.
-/

namespace Zizium

open Bytes BlockIO ReadM

variable {sb : ZiFsSuperblock} {view : ℕ → Block} {requested first block left : ℕ}
  {loaded : LoadedBitmap}

variable {vol : ZiFsVolume} {img : ℕ → Block} {tx : ZiFsTransaction}

/-- The volume is laid out as its superblock says, and all of it is on the device. -/
structure ZiFsVolume.Readable (volume : ZiFsVolume) : Prop where
  layout : volume.superblock.Layout
  total : volume.superblock.totalBlocks ≤ volume.device.blockCount

def IsFirstRun (sb : ZiFsSuperblock) (view : ℕ → Block) (requested first : ℕ) : Prop :=
  FreeRun sb view first requested ∧ ∀ start < first, ¬ FreeRun sb view start requested

theorem IsFirstRun.unique {first' : ℕ} (h : IsFirstRun sb view requested first)
    (h' : IsFirstRun sb view requested first') : first = first' := by
  rcases Nat.lt_trichotomy first first' with hlt | heq | hlt
  · exact absurd h.1 (h'.2 first hlt)
  · exact heq
  · exact absurd h'.1 (h.2 first' hlt)

namespace ZiFsVolume.Readable

theorem eval_loadBitmap (h : vol.Readable)
    (hloaded : LoadedFrom vol.superblock (tx.view img) loaded)
    (hblock : block < vol.superblock.totalBlocks) : (loadBitmap vol tx loaded block).eval img =
      .ok (tx.view img (bitmapBlock vol.superblock block)) := by
  have hbitmap := h.layout.bitmap
  have hi : block/bitsPerBitmapBlock < vol.superblock.allocationBitmapBlocks := by
    rw [bitsPerBitmapBlock,Nat.div_lt_iff_lt_mul (by decide)]
    omega
  have hinside := (h.layout.inside
    (vol.superblock.allocationBitmapStart, vol.superblock.allocationBitmapBlocks)
    (by simp [ZiFsSuperblock.tables])).2
  have hread : (transactionReadBlockView vol tx
      (vol.superblock.allocationBitmapStart+block/bitsPerBitmapBlock)).eval img =
      .ok (tx.view img (bitmapBlock vol.superblock block)) := by
    have htotal := h.total
    rw [transactionReadBlockView,eval_bind_failIf_neg (by omega),ZiFsTransaction.view,
      bitmapBlock]
    cases tx.stagedBlock (vol.superblock.allocationBitmapStart+block/bitsPerBitmapBlock) with
    | some data => rfl
    | none =>
      rw [ZiBlockDevice.eval_readBlock,if_pos (by omega)]
      rfl
  rw [loadBitmap]
  rw [eval_bind_failIf_neg (by omega)]
  cases loaded with
  | none => exact hread
  | some p =>
    dsimp only
    split_ifs with heq
    · rw [eval_pure,hloaded p rfl,heq,bitmapBlock]
    · exact hread

end ZiFsVolume.Readable

theorem eval_queryBit (data : Block) (block : ℕ) : (queryBit data block).eval img =
      .ok (allocationBit data.mem (block%bitsPerBitmapBlock)) := by
  have hbyte : ¬ (blockSize = 0 ∨ block%bitsPerBitmapBlock/8 ≥ blockSize) := by
    have hmod := Nat.mod_lt block (show bitsPerBitmapBlock > 0 by decide)
    simp only [bitsPerBitmapBlock,blockSize] at hmod ⊢
    omega
  rw [queryBit,eval_orFail,eval_ofExcept,ziFsAllocationBitQuery,Except.failIf_bind_neg hbyte]
  rfl

theorem not_freeRun_of_mem {start : ℕ}
    (hnot : ¬ (¬ sb.IsMetadata block ∧ blockAllocated sb view block = false)) (hlow : start ≤ block)
    (hhigh : block < start+requested) :
    ¬ FreeRun sb view start requested := fun hrun => hnot (hrun block hlow hhigh).2

def IsSearchResult (sb : ZiFsSuperblock) (view : ℕ → Block) (requested : ℕ) (result : Result ℕ) :
    Prop :=
  (∃ first, result = .ok first ∧ IsFirstRun sb view requested first) ∨
    (result = .error .volumeFull ∧ ∀ start, ¬ FreeRun sb view start requested)

section

variable (h : vol.Readable)

include h

theorem eval_findFreeExtentLoop {runStart runSize : ℕ}
    (hloaded : LoadedFrom vol.superblock (tx.view img) loaded)
    (hleft : block+left = vol.superblock.totalBlocks)
    (hrun : FreeRun vol.superblock (tx.view img) runStart runSize)
    (hend : runSize ≠ 0 → runStart+runSize = block) (hsize : runSize < requested)
    (hbefore : ∀ start, start+runSize < block →
      ¬ FreeRun vol.superblock (tx.view img) start requested) :
    IsSearchResult vol.superblock (tx.view img) requested
      ((findFreeExtentLoop vol tx requested left block loaded runStart runSize).eval img) := by
  have hempty : ∀ start, FreeRun vol.superblock (tx.view img) start 0 :=
    fun start b h1 h2 => absurd h2 (by omega)
  induction left generalizing block loaded runStart runSize with
  | zero =>
    refine .inr ⟨rfl,fun start hfree => ?_⟩
    by_cases hstart : start+runSize < block
    · exact hbefore start hstart hfree
    · -- A run that starts later leaves the volume.
      have hlast := (hfree (start+(requested-1)) (by omega) (by omega)).1
      omega
  | succ left ih =>
    -- No run of the requested length passes a block that is not free.
    have hskip : ¬ (¬ vol.superblock.IsMetadata block ∧
        blockAllocated vol.superblock (tx.view img) block = false) → ∀ start,
        start+0 < block+1 → ¬ FreeRun vol.superblock (tx.view img) start requested := by
      intro hnot start hstart
      by_cases hearly : start+runSize < block
      · exact hbefore start hearly
      · exact not_freeRun_of_mem hnot (by omega) (by omega)
    rw [findFreeExtentLoop]
    by_cases hmeta : blockIsMetadata vol.superblock block = true
    · rw [if_pos hmeta]
      rw [blockIsMetadata_iff] at hmeta
      exact ih hloaded (by omega) (hempty _) (by simp) (by omega)
        (hskip fun hfree => hfree.1 hmeta)
    · rw [if_neg hmeta,eval_bind_of_ok (h.eval_loadBitmap hloaded (by omega))]
      rw [blockIsMetadata_iff] at hmeta
      rw [eval_bind_of_ok (eval_queryBit _ _)]
      change IsSearchResult _ _ _ (eval img
        (if blockAllocated vol.superblock (tx.view img) block = true then _ else _))
      cases hbit : blockAllocated vol.superblock (tx.view img) block with
      | true =>
        refine ih (.some block) (by omega) (hempty _) (by simp) (by omega) (hskip fun hfree => ?_)
        rw [hbit] at hfree
        exact absurd hfree.2 (by decide)
      | false =>
        have hlonger : FreeRun vol.superblock (tx.view img)
            (if runSize = 0 then block else runStart) (runSize+1) ∧
            (if runSize = 0 then block else runStart)+(runSize+1) = block+1 := by
          by_cases hzero : runSize = 0
          · subst hzero
            exact ⟨(hempty block).snoc (by omega) hmeta hbit,rfl⟩
          · have hat := hend hzero
            rw [if_neg hzero]
            refine ⟨hrun.snoc ?_ ?_ ?_,by omega⟩
            · omega
            · rwa [hat]
            · rwa [hat]
        obtain ⟨hnext,hat⟩ := hlonger
        rw [if_neg (by decide)]
        generalize (if runSize = 0 then block else runStart) = start at hnext hat ⊢
        split_ifs with hdone
        · rw [hdone] at hnext
          exact .inl ⟨start,rfl,hnext,fun earlier hearlier => hbefore earlier (by omega)⟩
        · exact ih (.some block) (by omega) hnext (fun _ => hat) (by omega)
            fun earlier hearlier => hbefore earlier (by omega)

theorem eval_findFreeExtent (hpos : requested ≠ 0) :
    IsSearchResult vol.superblock (tx.view img) requested
      ((findFreeExtent vol tx requested).eval img) := by
  rw [findFreeExtent,eval_bind_failIf_neg hpos]
  refine eval_findFreeExtentLoop h ?_ (Nat.zero_add _) ?_ (by simp) (by omega)
    fun start hstart => absurd hstart (by omega)
  · intro p hp
    cases hp
  · intro b _ hb
    omega

theorem eval_rangeIsFreeLoop (hloaded : LoadedFrom vol.superblock (tx.view img) loaded)
    (hleft : block+left ≤ vol.superblock.totalBlocks) :
    ∃ free, (rangeIsFreeLoop vol tx left block loaded).eval img = .ok free ∧
      (free = true ↔ FreeRun vol.superblock (tx.view img) block left) := by
  induction left generalizing block loaded with
  | zero =>
    refine ⟨true,rfl,fun _ b _ hb => ?_,fun _ => rfl⟩
    omega
  | succ left ih =>
    have hfails : ∀ {result : Result Bool}, result = .ok false →
        ¬ (¬ vol.superblock.IsMetadata block ∧
          blockAllocated vol.superblock (tx.view img) block = false) →
        ∃ free, result = .ok free ∧
          (free = true ↔ FreeRun vol.superblock (tx.view img) block (left+1)) := by
      intro result hres hnot
      refine ⟨false,hres,?_⟩
      simpa using not_freeRun_of_mem hnot (Nat.le_refl block) (by omega)
    rw [rangeIsFreeLoop]
    by_cases hmeta : blockIsMetadata vol.superblock block = true
    · rw [if_pos hmeta]
      exact hfails rfl fun hfree => hfree.1 (blockIsMetadata_iff.mp hmeta)
    · rw [if_neg hmeta,eval_bind_of_ok (h.eval_loadBitmap hloaded (by omega)),
        eval_bind_of_ok (eval_queryBit _ _)]
      rw [blockIsMetadata_iff] at hmeta
      change ∃ free, eval img
        (if blockAllocated vol.superblock (tx.view img) block = true then _ else _) = _ ∧ _
      cases hbit : blockAllocated vol.superblock (tx.view img) block with
      | true =>
        refine hfails rfl fun hfree => ?_
        rw [hbit] at hfree
        exact absurd hfree.2 (by decide)
      | false =>
        obtain ⟨free,heval,hfree⟩ := ih (LoadedFrom.some block)
          (show block+1+left ≤ vol.superblock.totalBlocks by omega)
        refine ⟨free,heval,hfree.trans ⟨fun hrun b hlow hhigh => ?_,fun hrun b hlow hhigh =>
          hrun b (by omega) (by omega)⟩⟩
        by_cases hfirst : b = block
        · subst hfirst
          exact ⟨by omega,hmeta,hbit⟩
        · exact hrun b (by omega) (by omega)

theorem eval_rangeIsFree {count : ℕ} (hpos : count ≠ 0) :
    ∃ free, (rangeIsFree vol tx first count).eval img = .ok free ∧
      (free = true ↔ FreeRun vol.superblock (tx.view img) first count) := by
  rw [rangeIsFree,eval_bind_failIf_neg hpos,eval_ite]
  split_ifs with houtside
  · refine ⟨false,rfl,?_⟩
    simp only [Bool.false_eq_true,false_iff]
    intro hrun
    have hlast := (hrun (first+(count-1)) (by omega) (by omega)).1
    omega
  · refine eval_rangeIsFreeLoop h ?_ (by omega)
    intro p hp
    cases hp

theorem eval_findAppendExtent (htotal : vol.superblock.totalBlocks ≤ uint64Max)
    {record : ZiFsFileRecord} (hpos : requested ≠ 0) :
    (∃ extent, record.extents.getLast? = some extent ∧
      FreeRun vol.superblock (tx.view img) (extent.physicalBlock+extent.blockCount) requested ∧
      (findAppendExtent vol tx record requested).eval img =
        .ok (extent.physicalBlock+extent.blockCount)) ∨
    ((∀ extent, record.extents.getLast? = some extent →
      ¬ FreeRun vol.superblock (tx.view img) (extent.physicalBlock+extent.blockCount) requested) ∧
      (findAppendExtent vol tx record requested).eval img =
        (findFreeExtent vol tx requested).eval img) := by
  rw [findAppendExtent,eval_bind_failIf_neg hpos]
  cases hlast : record.extents.getLast? with
  | none =>
    refine .inr ⟨fun extent hsome => ?_,rfl⟩
    cases hsome
  | some extent =>
    dsimp only
    split_ifs with hsmall
    · obtain ⟨free,heval,hfree⟩ :
          ∃ free, (rangeIsFree vol tx (extent.physicalBlock+extent.blockCount)
            requested).eval img = .ok free ∧ (free = true ↔ _) := eval_rangeIsFree h hpos
      rw [eval_bind_of_ok heval]
      cases free with
      | true => exact .inl ⟨extent,rfl,hfree.mp rfl,rfl⟩
      | false =>
        refine .inr ⟨fun other hother hrun => ?_,rfl⟩
        cases hother
        exact absurd (hfree.mpr hrun) (by decide)
    · refine .inr ⟨fun other hother hrun => ?_,rfl⟩
      cases hother
      have hfirst := (hrun _ (Nat.le_refl _) (by omega)).1
      omega

end

namespace IsSearchResult

variable {result : Result ℕ}

section

variable (h : IsSearchResult sb view requested result)

include h

theorem ok_iff (first : ℕ) : result = .ok first ↔ IsFirstRun sb view requested first := by
  rcases h with ⟨found,rfl,hfound⟩ | ⟨rfl,hnone⟩
  · rw [Except.ok.injEq]
    exact ⟨fun heq => heq ▸ hfound,fun hfirst => hfound.unique hfirst⟩
  · constructor
    · intro hok
      cases hok
    · intro hfirst
      exact absurd hfirst.1 (hnone first)

theorem full_iff : result = .error .volumeFull ↔ ∀ start, ¬ FreeRun sb view start requested := by
  rcases h with ⟨found,rfl,hfound⟩ | ⟨rfl,hnone⟩
  · constructor
    · intro hfull
      cases hfull
    · intro hnone
      exact absurd hfound.1 (hnone found)
  · exact ⟨fun _ => hnone,fun _ => rfl⟩

theorem status_eq {status : ZiStatus}
    (hstatus : result = .error status) : status = .volumeFull := by
  rcases h with ⟨found,rfl,-⟩ | ⟨rfl,-⟩
  · cases hstatus
  · cases hstatus
    rfl

end

end IsSearchResult

/-- The search takes the lowest free run there is, and fails if there is none.  For a record the
blocks behind its last extent are taken if they are free. -/
theorem freeSpaceSearch_exact (hranges : superblockRangesAreValid vol.superblock = true)
    (hfits : vol.superblock.totalBlocks ≤ uint64Max)
    (hdevice : vol.superblock.totalBlocks ≤ vol.device.blockCount) (tx : ZiFsTransaction)
    (img : ℕ → Block) (record : ZiFsFileRecord) (requested : ℕ) :
    let isFree := fun start => FreeRun vol.superblock (tx.view img) start requested
    let found := (findFreeExtent vol tx requested).eval img
    let appended := (findAppendExtent vol tx record requested).eval img
    (requested = 0 → found = .error .invalidArgument ∧ appended = .error .invalidArgument) ∧
    (requested ≠ 0 → (∀ first, found = .ok first ↔ isFree first ∧ ∀ start < first, ¬ isFree start) ∧
      (found = .error .volumeFull ↔ ∀ start, ¬ isFree start) ∧
      (∀ status, found = .error status → status = .volumeFull) ∧
      (record.extents = [] → appended = found) ∧
      (∀ extent, record.extents.getLast? = some extent →
        (appended = .ok (extent.physicalBlock+extent.blockCount) ↔
          isFree (extent.physicalBlock+extent.blockCount)) ∧
        (¬ isFree (extent.physicalBlock+extent.blockCount) → appended = found)) ∧
      (appended = .error .volumeFull ↔ ∀ start, ¬ isFree start) ∧
      ∀ status, appended = .error status → status = .volumeFull) := by
  intro isFree found appended
  have hreadable : vol.Readable := ⟨superblockRangesAreValid_iff.mp hranges,hdevice⟩
  refine ⟨?_,fun hpos => ?_⟩
  · rintro rfl
    exact ⟨eval_bind_failIf_pos rfl,eval_bind_failIf_pos rfl⟩
  · have hfound : IsSearchResult vol.superblock (tx.view img) requested found :=
      eval_findFreeExtent hreadable hpos
    have happended : (∃ extent, record.extents.getLast? = some extent ∧
          isFree (extent.physicalBlock+extent.blockCount) ∧
          appended = .ok (extent.physicalBlock+extent.blockCount)) ∨
        ((∀ extent, record.extents.getLast? = some extent →
          ¬ isFree (extent.physicalBlock+extent.blockCount)) ∧ appended = found) :=
      eval_findAppendExtent hreadable hfits hpos
    refine ⟨hfound.ok_iff,hfound.full_iff,fun status => hfound.status_eq,?_,?_,?_,?_⟩
    · intro hempty
      rcases happended with ⟨extent,hlast,-⟩ | ⟨-,hsame⟩
      · rw [hempty] at hlast
        cases hlast
      · exact hsame
    · intro extent hlast
      rcases happended with ⟨other,hother,hfree,hok⟩ | ⟨hnot,hsame⟩
      · rw [hlast] at hother
        cases hother
        exact ⟨⟨fun _ => hfree,fun _ => hok⟩,fun hnot => absurd hfree hnot⟩
      · refine ⟨⟨fun hok => ?_,fun hfree => absurd hfree (hnot extent hlast)⟩,fun _ => hsame⟩
        rw [hsame] at hok
        exact ((hfound.ok_iff _).mp hok).1
    · rcases happended with ⟨extent,-,hfree,hok⟩ | ⟨-,hsame⟩
      · rw [hok]
        constructor
        · intro hfull
          cases hfull
        · intro hnone
          exact absurd hfree (hnone _)
      · rw [hsame]
        exact hfound.full_iff
    · intro status hstatus
      rcases happended with ⟨extent,-,-,hok⟩ | ⟨-,hsame⟩
      · rw [hok] at hstatus
        cases hstatus
      · rw [hsame] at hstatus
        exact hfound.status_eq hstatus

theorem freeSpaceSearch_exact_blank : superblockRangesAreValid (blankVolume 0).superblock = true ∧
      (blankVolume 0).superblock.totalBlocks ≤ uint64Max ∧
      (blankVolume 0).superblock.totalBlocks ≤ (blankVolume 0).device.blockCount ∧
      (findFreeExtent (blankVolume 0) ⟨1,2,1,.ready,8,[],[]⟩ 8).eval (blankImage 0) =
        .ok 23 := by
  have hranges : superblockRangesAreValid (blankVolume 0).superblock = true := by decide
  have hfits : (blankVolume 0).superblock.totalBlocks ≤ uint64Max := by decide
  have hdevice : (blankVolume 0).superblock.totalBlocks ≤ (blankVolume 0).device.blockCount := by
    decide
  refine ⟨hranges,hfits,hdevice,?_⟩
  refine (((freeSpaceSearch_exact hranges hfits hdevice ⟨1,2,1,.ready,8,[],[]⟩ (blankImage 0)
    blankRoot 8).2 (by decide)).1 23).mpr ⟨fun b hlow hhigh => ?_,fun start hstart hrun => ?_⟩
  · have hfree : ∀ b < 31, 23 ≤ b → b < 32 ∧ blockIsMetadata (blankVolume 0).superblock b = false ∧
        allocationBit (blankImage 0 3).mem b = false := by decide
    obtain ⟨hinside,hmeta,hbit⟩ := hfree b hhigh hlow
    refine ⟨hinside,fun hmem => ?_,?_⟩
    · rw [blockIsMetadata_iff.mpr hmem] at hmeta
      cases hmeta
    · have hsmall : b < bitsPerBitmapBlock := Nat.lt_of_lt_of_le hhigh (by decide)
      rwa [blockAllocated,bitmapBlock,Nat.div_eq_of_lt hsmall,Nat.mod_eq_of_lt hsmall]
  · have hmeta : ∀ start < 23, blockIsMetadata (blankVolume 0).superblock start = true := by decide
    exact (hrun start (Nat.le_refl _) (by omega)).2.1 (blockIsMetadata_iff.mp (hmeta start hstart))

end Zizium
