import Zizium.Fs.View

/-!
# The record table and the bitmap as functions of an image

What the searches of `kernel/fs/zifs/transaction.c` over the record table and the
allocation bitmap find, stated about the content of the volume.
-/

namespace Zizium

open Bytes BlockIO Except Function

variable {view : ℕ → Block} {data : Block} {first count : ℕ}

def slotRecord (sb : ZiFsSuperblock) (image : ℕ → Block) (index : ℕ) :
    Result (Option ZiFsFileRecord) :=
  let encoded := (image (recordTableBlock sb index)).mem.shift
    (index%recordsPerBlock*fileRecordSize)
  if bytesAreZero encoded 0 fileRecordSize then pure none
  else match ziFsDecodeFileRecord encoded with
    | .error _ => throw .corruptFilesystem
    | .ok record => do
      failIf (ziFailed (ziFsValidateFileRecord sb record)) .corruptFilesystem
      pure (some record)

def ZiFsSuperblock.recordSlots (sb : ZiFsSuperblock) : ℕ := sb.recordTableBlocks*recordsPerBlock

def blockAllocated (sb : ZiFsSuperblock) (image : ℕ → Block) (block : ℕ) : Bool :=
  allocationBit (image (bitmapBlock sb block)).mem (block%bitsPerBitmapBlock)

/-- Consecutive blocks inside the volume that are free and hold no metadata. -/
def FreeRun (sb : ZiFsSuperblock) (image : ℕ → Block) (first count : ℕ) : Prop :=
  ∀ b, first ≤ b → b < first+count →
    b < sb.totalBlocks ∧ ¬sb.IsMetadata b ∧ blockAllocated sb image b = false

variable {vol : ZiFsVolume} {img : ℕ → Block} {tx tx' : ZiFsTransaction} {σ : Type}

variable {sb : ZiFsSuperblock} {i : ℕ} {record : ZiFsFileRecord}

theorem slotRecord_some (h : slotRecord sb img i = .ok (some record)) :
    ziFsDecodeFileRecord ((img (recordTableBlock sb i)).mem.shift
      (i%recordsPerBlock*fileRecordSize)) = .ok record ∧ record.Fits ∧ record.ValidOn sb := by
  simp only [slotRecord] at h
  split at h
  · cases h
  · split at h
    · cases h
    · next r hr =>
      simp only [bind_ok_iff,failIf_ok_iff,exists_const,pure_ok_iff,
        Option.some.injEq,Bool.not_eq_true,ziFailed_eq_false_iff] at h
      obtain ⟨⟨u,hvalid⟩,rfl⟩ := h
      exact ⟨hr,ZiFsFileRecord.fits_of_decode hr,ziFsValidateFileRecord_ok_iff.mp hvalid⟩

/-! ### Searches over the record table -/

section

variable {visit : ℕ → Option ZiFsFileRecord → σ → Result σ} {s t : σ} (P : ℕ → σ → Prop)
  (hstep : ∀ i s r s', i < vol.superblock.recordSlots → P i s →
    slotRecord vol.superblock img i = .ok r → visit i r s = .ok s' → P (i+1) s')

include P hstep

theorem visitRecordSlots_invariant {k : ℕ} (hk : k < vol.superblock.recordTableBlocks)
    {left slot : ℕ} (hslot : slot+left = 16) (hinit : P (k*16+slot) s)
    (h : visitRecordSlots vol.superblock visit (img (vol.superblock.recordTableStart+k)).mem (k*16)
      left slot s = .ok t) :
    P (k*16+16) t := by
  induction left generalizing slot s with
  | zero =>
    cases h
    rwa [show slot = 16 by omega] at hinit
  | succ left ih =>
    have hdiv : (k*16+slot)/16 = k := by omega
    have hmod : (k*16+slot)%16 = slot := by omega
    have hblock : recordTableBlock vol.superblock (k*16+slot) =
        vol.superblock.recordTableStart+k := by
      rw [recordTableBlock,hdiv]
    have hnext : ∃ r s', slotRecord vol.superblock img (k*16+slot) = .ok r ∧
        visit (k*16+slot) r s = .ok s' ∧ visitRecordSlots vol.superblock visit
          (img (vol.superblock.recordTableStart+k)).mem (k*16) left (slot+1) s' =
            .ok t := by
      rw [visitRecordSlots] at h
      split at h
      · next hzero =>
        obtain ⟨s',hs',h⟩ := bind_ok_iff.mp h
        refine ⟨none,s',?_,hs',h⟩
        simp only [slotRecord,hblock,hmod]
        exact if_pos hzero
      · next hzero =>
        split at h
        · cases h
        · next record hrec =>
          simp only [bind_ok_iff,failIf_ok_iff,exists_const] at h
          obtain ⟨hvalid,s',hs',h⟩ := h
          refine ⟨some record,s',?_,hs',h⟩
          simp only [slotRecord,hblock,hmod]
          rw [if_neg hzero,hrec]
          exact failIf_bind_neg hvalid
    obtain ⟨r,s',hr,hvisit,h⟩ := hnext
    have hi : k*16+slot < vol.superblock.recordSlots := by
      simp only [ZiFsSuperblock.recordSlots,recordsPerBlock]
      omega
    have hP : P (k*16+(slot+1)) s' := hstep (k*16+slot) s r s' hi hinit hr hvisit
    exact ih (by omega) hP h

theorem visitRecordTable_invariant (hinit : P 0 s)
    (h : (visitRecordTable vol visit s).eval img = .ok t) : P vol.superblock.recordSlots t := by
  have := ReadM.loop_invariant (fun k s => P (k*16) s) ?_ (by simpa using hinit) h
  · simpa [ZiFsSuperblock.recordSlots] using this
  · intro k s s' _ hk hP hs'
    simp only [ReadM.bind_ok_iff,ReadM.eval_ofExcept,ZiBlockDevice.readBlock_ok_iff] at hs'
    obtain ⟨_,⟨-,rfl⟩,hs'⟩ := hs'
    have := visitRecordSlots_invariant P hstep (by omega) rfl (by simpa using hP) hs'
    rwa [Nat.add_mul]

end

/-! ### Searches over the bitmap -/

variable {block : ℕ}

theorem blockIsMetadata_iff : blockIsMetadata sb block = true ↔ sb.IsMetadata block := by
  simp only [blockIsMetadata,Bool.or_eq_true,decide_eq_true_eq,List.any_eq_true,blockIsInRange,
    ZiFsSuperblock.IsMetadata,or_assoc]
  refine or_congr_right (or_congr_right (exists_congr fun t => and_congr_right fun _ => ?_))
  omega

def LoadedFrom (sb : ZiFsSuperblock) (view : ℕ → Block) (loaded : LoadedBitmap) : Prop :=
  ∀ p ∈ loaded, p.2 = view (sb.allocationBitmapStart+p.1)

theorem LoadedFrom.some (block : ℕ) :
    LoadedFrom sb view (some (block/bitsPerBitmapBlock, view (bitmapBlock sb block))) := by
  rintro p ⟨⟩
  rfl

theorem queryBit_ok {b : Bool} (h : (queryBit data block).eval img = .ok b) :
    b = allocationBit data.mem (block%bitsPerBitmapBlock) := by
  simp only [queryBit,ReadM.orFail_ok_iff,ReadM.eval_ofExcept,ziFsAllocationBitQuery,
    bind_ok_iff,failIf_ok_iff,exists_const,pure_ok_iff] at h
  exact h.2

theorem FreeRun.snoc (h : FreeRun sb view first count) (hlt : first+count < sb.totalBlocks)
    (hmeta : ¬sb.IsMetadata (first+count)) (hfree : blockAllocated sb view (first+count) = false) :
    FreeRun sb view first (count+1) := by
  intro b h1 h2
  by_cases hb : b < first+count
  · exact h b h1 hb
  · rw [show b = first+count by omega]
    exact ⟨hlt,hmeta,hfree⟩

/-! ### Staged changes of the tables -/

def putSlot (sb : ZiFsSuperblock) (view : ℕ → Block) (index : ℕ) (bytes : List UInt8) : ℕ → Block :=
  update view (recordTableBlock sb index)
    ((view (recordTableBlock sb index)).put (index%recordsPerBlock*fileRecordSize) bytes)

/-- The bits of consecutive blocks are changed, and nothing but bitmap blocks. -/
structure BitsChanged (sb : ZiFsSuperblock) (view view' : ℕ → Block) (first count : ℕ)
    (value : Bool) : Prop where
  others : ∀ n, (∀ b, first ≤ b → b < first+count → n ≠ bitmapBlock sb b) → view' n = view n
  before : ∀ b, first ≤ b → b < first+count → blockAllocated sb view b = !value
  after : ∀ b, blockAllocated sb view' b =
    if first ≤ b ∧ b < first+count then value else blockAllocated sb view b

variable {u : Unit}

theorem stageChangedFileRecord_ok
    (h : (stageChangedFileRecord vol i record).eval img tx = (.ok u, tx')) :
    i < vol.superblock.recordSlots ∧ ∃ bytes,
      tx'.view img = putSlot vol.superblock (tx.view img) i bytes ∧
      tx'.deferredExtents = tx.deferredExtents := by
  simp only [stageChangedFileRecord,TaskM.failIf_bind_ok_iff] at h
  obtain ⟨hi,hedit⟩ := h
  obtain ⟨data,hedit,hview,hdef⟩ := editStagedBlock_ok hedit
  simp only [putFileRecord,bind_ok_iff,pure_ok_iff,Prod.mk.injEq] at hedit
  obtain ⟨bytes,-,-,rfl⟩ := hedit
  refine ⟨?_,bytes,hview,hdef⟩
  simp only [ZiFsSuperblock.recordSlots,recordsPerBlock] at hi ⊢
  omega

variable {value : Bool} {failure : ZiStatus}

theorem flipAllocationBit_ok {data' : Block}
    (h : flipAllocationBit block value failure data = .ok (u, data')) :
    allocationBit data.mem (block%bitsPerBitmapBlock) = !value ∧
      ∀ k < bitsPerBitmapBlock, allocationBit data'.mem k =
        if k = block%bitsPerBitmapBlock then value else allocationBit data.mem k := by
  simp only [flipAllocationBit,ziFsAllocationBitQuery,ziFsAllocationBitSet] at h
  split at h
  · cases h
  · next allocated hquery =>
    simp only [bind_ok_iff,failIf_ok_iff,exists_const,pure_ok_iff,Prod.mk.injEq] at h hquery
    obtain ⟨hne,bytes,⟨-,rfl⟩,-,rfl⟩ := h
    obtain ⟨-,rfl⟩ := hquery
    refine ⟨Bool.eq_not.mpr hne,fun k hk => ?_⟩
    have hk' : k/8 < 4096 := by
      simp only [bitsPerBitmapBlock] at hk
      omega
    have hmem : (Buffer.ofMem 4096 (setAllocationBit data.mem (block%bitsPerBitmapBlock)
        value)).mem (k/8) = setAllocationBit data.mem (block%bitsPerBitmapBlock) value (k/8) :=
      Buffer.mem_ofMem_of_lt hk'
    rw [← allocationBit_setAllocationBit,allocationBit_eq,hmem,← allocationBit_eq]

theorem bitmapBlock_injOn {a b : ℕ} (h : bitmapBlock sb a = bitmapBlock sb b)
    (hmod : a%bitsPerBitmapBlock = b%bitsPerBitmapBlock) : a = b := by
  simp only [bitmapBlock,bitsPerBitmapBlock] at h hmod
  omega

theorem BitsChanged.snoc {view' : ℕ → Block} (h : BitsChanged sb view view' first count value)
    (hflip : flipAllocationBit (first+count) value failure (view' (bitmapBlock sb (first+count))) =
      .ok (u, data)) :
    BitsChanged sb view (update view' (bitmapBlock sb (first+count)) data) first
      (count+1) value := by
  obtain ⟨hold,hnew⟩ := flipAllocationBit_ok hflip
  refine ⟨fun n hn => ?_,fun b h1 h2 => ?_,fun b => ?_⟩
  · rw [update_of_ne (hn _ (by omega) (by omega))]
    exact h.others n fun b h1 h2 => hn b h1 (by omega)
  · by_cases hb : b < first+count
    · exact h.before b h1 hb
    · rw [show b = first+count by omega]
      have := h.after (first+count)
      rw [if_neg (by omega)] at this
      rwa [← this]
  · have hmod : b%bitsPerBitmapBlock < bitsPerBitmapBlock := Nat.mod_lt _ (by decide)
    by_cases hblock : bitmapBlock sb b = bitmapBlock sb (first+count)
    · rw [blockAllocated,hblock,update_self,hnew _ hmod]
      by_cases hb : b = first+count
      · subst hb
        rw [if_pos rfl,if_pos (by omega)]
      · rw [if_neg fun hm => hb (bitmapBlock_injOn hblock hm),← hblock]
        show blockAllocated sb view' b = _
        rw [h.after]
        by_cases hin : first ≤ b ∧ b < first+count
        · rw [if_pos hin,if_pos (by omega)]
        · rw [if_neg hin,if_neg (by omega)]
    · have hb : b ≠ first+count := fun heq => hblock (by rw [heq])
      rw [blockAllocated,update_of_ne hblock]
      show blockAllocated sb view' b = _
      rw [h.after]
      by_cases hin : first ≤ b ∧ b < first+count
      · rw [if_pos hin,if_pos (by omega)]
      · rw [if_neg hin,if_neg (by omega)]

theorem flipLoop_ok {body : ℕ → Unit → Staging Unit}
    (hbody : ∀ off s s', off < count → (body off ()).eval img s = (.ok (), s') →
      (editStagedBlock vol (bitmapBlock vol.superblock (first+off))
        (flipAllocationBit (first+off) value failure)).eval img s = (.ok (), s'))
    (h : (TaskM.loop body count 0 ()).eval img tx = (.ok u, tx')) :
    BitsChanged vol.superblock (tx.view img) (tx'.view img) first count value ∧
      tx'.deferredExtents = tx.deferredExtents := by
  have := TaskM.loop_invariant (fun off _ s =>
    BitsChanged vol.superblock (tx.view img) (s.view img) first off value ∧
      s.deferredExtents = tx.deferredExtents) ?_ ?_ h
  · simpa using this
  · rintro off _ s _ s' - hlt ⟨hbits,hdef⟩ hs'
    obtain ⟨data,hedit,hview,hdef'⟩ := editStagedBlock_ok (hbody off s s' (by omega) hs')
    refine ⟨?_,hdef'.trans hdef⟩
    rw [hview]
    exact hbits.snoc hedit
  · refine ⟨⟨fun n _ => rfl,fun b _ hb => absurd hb (by omega),fun b => ?_⟩,rfl⟩
    rw [if_neg (by omega)]

theorem stageExtentRelease_ok
    (h : (stageExtentRelease vol first count).eval img tx = (.ok u, tx')) :
    BitsChanged vol.superblock (tx.view img) (tx'.view img) first count false ∧
      tx'.deferredExtents = tx.deferredExtents ++ [⟨first,count⟩] := by
  simp only [stageExtentRelease,TaskM.get_bind_ok_iff,TaskM.failIf_bind_ok_iff] at h
  obtain ⟨_,s,hloop,h⟩ := TaskM.bind_ok_iff.mp h.2.2
  rw [TaskM.modify_ok_iff] at h
  subst h
  have hbody : ∀ off s s', off < count → TaskM.eval img (do
      failIf (blockIsMetadata vol.superblock (first+off)) .corruptFilesystem
      failIf ((first+off)/bitsPerBitmapBlock ≥ vol.superblock.allocationBitmapBlocks)
        .corruptFilesystem
      editStagedBlock vol (bitmapBlock vol.superblock (first+off))
        (flipAllocationBit (first+off) false .corruptFilesystem) : Staging Unit) s =
          (.ok (), s') →
      (editStagedBlock vol (bitmapBlock vol.superblock (first+off))
        (flipAllocationBit (first+off) false .corruptFilesystem)).eval img s = (.ok (), s') := by
    intro off s s' _ hs
    simp only [TaskM.failIf_bind_ok_iff] at hs
    exact hs.2.2
  obtain ⟨hbits,hdef⟩ := flipLoop_ok hbody hloop
  exact ⟨hbits,by simp [hdef]⟩

end Zizium
