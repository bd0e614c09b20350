import Zizium.Mm.Pool

/-!
# The blocks of a pool

A pool represents a list of abstract blocks: span, generation and, for an allocated block, the
requested size.  `Tiles` says that the arena holds these blocks one behind the other.
-/

namespace Zizium

open Bytes List Mem Option

variable {arena arena' : Mem} {off i size prev fuel : ℕ} {cookie : UInt64}

/-! ## Loading and storing headers -/

section Headers

variable {pos : ℕ} {block : ZiPoolBlockHeader}

/-- Every field fits its width. -/
structure ZiPoolBlockHeader.InRange (block : ZiPoolBlockHeader) : Prop where
  magic : block.magic < 256^8
  span : block.span < 256^8
  previousSpan : block.previousSpan < 256^8
  requestedSize : block.requestedSize < 256^8
  generation : block.generation < 256^8
  checksum : block.checksum < 256^8
  state : block.state < 256^4
  reserved32 : block.reserved32 < 256^4
  reserved64 : block.reserved64 < 256^8

theorem loadBlock_inRange (arena : Mem) (off : ℕ) : (loadBlock arena off).InRange :=
  ⟨readLe_lt ..,readLe_lt ..,readLe_lt ..,readLe_lt ..,readLe_lt ..,
    readLe_lt ..,readLe_lt ..,readLe_lt ..,readLe_lt ..⟩

theorem loadBlock_congr (h : ∀ i < 64, arena (off+i) = arena' (off+i)) :
    loadBlock arena off = loadBlock arena' off := by
  have hread : ∀ n k, k+n ≤ 64 → arena.readLe n (off+k) = arena'.readLe n (off+k) := by
    intro n k hk
    apply readLe_congr
    intro i hi
    rw [Nat.add_assoc]
    exact h (k+i) (by omega)
  have hfirst : arena.readLe 8 off = arena'.readLe 8 off := hread 8 0 (by omega)
  simp only [loadBlock,ziReadU64Le,ziReadU32Le,hfirst,hread 8 8 (by omega),
    hread 8 16 (by omega),hread 8 24 (by omega),hread 8 32 (by omega),hread 8 40 (by omega),
    hread 4 48 (by omega),hread 4 52 (by omega),hread 8 56 (by omega)]

theorem loadBlock_storeBlock (h : block.InRange) :
    loadBlock (storeBlock arena off block) off = block := by
  obtain ⟨h1,h2,h3,h4,h5,h6,h7,h8,h9⟩ := h
  cases block
  simp (disch := first | omega | assumption) only [loadBlock,storeBlock,ziReadU64Le,ziReadU32Le,
    ziWriteU64Le,ziWriteU32Le,readLe_put_leBytes,readLe_put_self_of_lt]

theorem storeBlock_of_disjoint (h : i < off ∨ off+64 ≤ i) :
    storeBlock arena off block i = arena i := by
  have hput : ∀ (m : Mem) k n value, k+n ≤ 64 → m.put (off+k) (leBytes n value) i = m i := by
    intro m k n value hk
    rcases h with h | h
    · exact put_of_lt (by omega)
    · exact put_of_ge (by rw [length_leBytes]; omega)
  have hfirst : ∀ (m : Mem) value, m.put off (leBytes 8 value) i = m i :=
    fun m value => hput m 0 8 value (by omega)
  simp only [storeBlock,ziWriteU64Le,ziWriteU32Le,hfirst,hput _ 8 8 _ (by omega),
    hput _ 16 8 _ (by omega),hput _ 24 8 _ (by omega),hput _ 32 8 _ (by omega),
    hput _ 40 8 _ (by omega),hput _ 48 4 _ (by omega),hput _ 52 4 _ (by omega),
    hput _ 56 8 _ (by omega)]

variable {change : ZiPoolBlockHeader → ZiPoolBlockHeader}

theorem updateBlock_of_disjoint (h : i < off ∨ off+64 ≤ i) :
    updateBlock arena off change i = arena i :=
  storeBlock_of_disjoint h

theorem loadBlock_updateBlock (h : (change (loadBlock arena off)).InRange) :
    loadBlock (updateBlock arena off change) off = change (loadBlock arena off) :=
  loadBlock_storeBlock h

/-- Replace the checksum by the right one. -/
def ZiPoolBlockHeader.seal (block : ZiPoolBlockHeader) (cookie : UInt64) (offset : ℕ) :
    ZiPoolBlockHeader :=
  { block with checksum := (calculateBlockChecksum cookie block offset).toNat }

theorem ZiPoolBlockHeader.InRange.seal (h : block.InRange) (cookie : UInt64) (off : ℕ) :
    (block.seal cookie off).InRange :=
  { h with checksum := UInt64.toNat_lt _ }

theorem loadBlock_refreshBlockChecksum :
    loadBlock (refreshBlockChecksum cookie arena off) off = (loadBlock arena off).seal cookie off :=
  loadBlock_updateBlock ((loadBlock_inRange arena off).seal cookie off)

theorem refreshBlockChecksum_of_disjoint (h : i < off ∨ off+64 ≤ i) :
    refreshBlockChecksum cookie arena off i = arena i :=
  updateBlock_of_disjoint h

theorem zeroBytes_apply :
    zeroBytes arena off size i = if off ≤ i ∧ i < off+size then 0 else arena i := by
  rw [zeroBytes,put,length_replicate]
  by_cases hin : off ≤ i ∧ i < off+size
  · rw [if_pos hin,if_pos hin]
    simp only [getD_eq_getElem?_getD,getElem?_replicate]
    split <;> rfl
  · rw [if_neg hin,if_neg hin]

end Headers

/-! ## Abstract blocks -/

structure PoolBlock where
  span : ℕ
  generation : ℕ
  /-- The requested size of an allocated block; `none` if the block is free. -/
  requested : Option ℕ

namespace PoolBlock

variable {b : PoolBlock}

def isFree (b : PoolBlock) : Bool := b.requested.isNone

def header (b : PoolBlock) (cookie : UInt64) (offset prev : ℕ) : ZiPoolBlockHeader :=
  ZiPoolBlockHeader.seal
    ⟨ziPoolBlockMagic,b.span,prev,b.requested.getD 0,b.generation,0,
      if b.isFree then ziPoolBlockFree else ziPoolBlockAllocated,0,0⟩ cookie offset

def tail (b : PoolBlock) (cookie : UInt64) (offset : ℕ) : UInt64 :=
  calculateBlockTail cookie (b.header cookie offset 0) offset

theorem calculateBlockTail_header :
    calculateBlockTail cookie (b.header cookie off prev) off = b.tail cookie off := rfl

@[simp] theorem header_span : (b.header cookie off prev).span = b.span := rfl

@[simp] theorem header_requestedSize :
    (b.header cookie off prev).requestedSize = b.requested.getD 0 := rfl

theorem header_state : (b.header cookie off prev).state =
    if b.isFree then ziPoolBlockFree else ziPoolBlockAllocated := rfl

/-- Sizes the scan accepts for any block: aligned, and large enough for the header, the request
and the tail. -/
structure WellSized (b : PoolBlock) : Prop where
  span_ge : 80 ≤ b.span
  aligned : b.span%16 = 0
  request : ∀ size, b.requested = some size → 0 < size ∧ size+72 ≤ b.span

/-- The block lies at `offset` of the arena, behind a block of span `prev`. -/
structure At (b : PoolBlock) (cookie : UInt64) (arena : Mem) (offset prev : ℕ) : Prop where
  header : loadBlock arena offset = b.header cookie offset prev
  body : b.requested = none → ∀ i, 64 ≤ i → i < b.span → arena (offset+i) = 0
  tail : ∀ size, b.requested = some size →
    ziReadU64Le arena (offset+64+size) = (b.tail cookie offset).toNat
  padding : ∀ size, b.requested = some size → ∀ i, 72+size ≤ i → i < b.span →
    arena (offset+i) = 0

theorem At.congr (hat : b.At cookie arena off prev) (hs : b.WellSized)
    (h : ∀ i < b.span, (∀ size, b.requested = some size → i < 64 ∨ 64+size ≤ i) →
      arena' (off+i) = arena (off+i)) : b.At cookie arena' off prev where
  header := by
    rw [← hat.header]
    have := hs.span_ge
    exact loadBlock_congr fun i hi => h i (by omega) fun _ _ => .inl hi
  body := by
    intro hnone i hi hlt
    rw [h i hlt fun size hsize => (by rw [hnone] at hsize; cases hsize)]
    exact hat.body hnone i hi hlt
  tail := by
    intro size hsize
    have hfit := (hs.request size hsize).2
    rw [← hat.tail size hsize]
    apply readLe_congr
    intro i hi
    rw [Nat.add_assoc,Nat.add_assoc]
    apply h _ (by omega)
    intro size' hsize'
    rw [hsize] at hsize'
    cases hsize'
    exact .inr (by omega)
  padding := by
    intro size hsize i hi hlt
    rw [h i hlt fun size' hsize' => by rw [hsize] at hsize'; cases hsize'; exact .inr (by omega)]
    exact hat.padding size hsize i hi hlt

end PoolBlock

/-! ## Sequences of blocks -/

def spanTotal (blocks : List PoolBlock) : ℕ := (blocks.map PoolBlock.span).sum

@[simp] theorem spanTotal_nil : spanTotal [] = 0 := rfl

@[simp] theorem spanTotal_cons (b : PoolBlock) (blocks : List PoolBlock) :
    spanTotal (b :: blocks) = b.span+spanTotal blocks := by
  simp [spanTotal]

@[simp] theorem spanTotal_append (blocks others : List PoolBlock) :
    spanTotal (blocks ++ others) = spanTotal blocks+spanTotal others := by
  simp [spanTotal]

def lastSpan (prev : ℕ) : List PoolBlock → ℕ
  | [] => prev
  | b :: blocks => lastSpan b.span blocks

theorem lastSpan_concat (prev : ℕ) (blocks : List PoolBlock) (b : PoolBlock) :
    lastSpan prev (blocks ++ [b]) = b.span := by
  induction blocks generalizing prev with
  | nil => rfl
  | cons c blocks ih => exact ih c.span

def Tiles (cookie : UInt64) (arena : Mem) : (offset prev : ℕ) → List PoolBlock → Prop
  | _, _, [] => True
  | offset, prev, b :: blocks =>
    b.At cookie arena offset prev ∧ Tiles cookie arena (offset+b.span) b.span blocks

section Tiles

variable {blocks others : List PoolBlock} {b : PoolBlock}

theorem tiles_cons : Tiles cookie arena off prev (b :: blocks) ↔
    b.At cookie arena off prev ∧ Tiles cookie arena (off+b.span) b.span blocks :=
  Iff.rfl

theorem tiles_append : Tiles cookie arena off prev (blocks ++ others) ↔
    Tiles cookie arena off prev blocks ∧
      Tiles cookie arena (off+spanTotal blocks) (lastSpan prev blocks) others := by
  induction blocks generalizing off prev with
  | nil => simp [Tiles,lastSpan]
  | cons b blocks ih =>
    rw [cons_append,Tiles,Tiles,ih,spanTotal_cons,lastSpan,Nat.add_assoc,and_assoc]

theorem Tiles.congr (ht : Tiles cookie arena off prev blocks) (hs : ∀ b ∈ blocks, b.WellSized)
    (h : ∀ i, off ≤ i → i < off+spanTotal blocks → arena' i = arena i) :
    Tiles cookie arena' off prev blocks := by
  induction blocks generalizing off prev with
  | nil => trivial
  | cons b blocks ih =>
    rw [spanTotal_cons] at h
    refine ⟨ht.1.congr (hs b mem_cons_self) fun i hi _ => h _ (by omega) (by omega),?_⟩
    apply ih ht.2 fun c hc => hs c (mem_cons_of_mem _ hc)
    intro i hlo hhi
    exact h i (by omega) (by omega)

end Tiles

/-! ## Spans -/

theorem allocationSpan_alignment : allocationSpan ziPoolAlignment = .ok 96 := by decide

theorem allocationSpan_ok {span : ℕ} (h : allocationSpan size = .ok span) :
    0 < size ∧ span = (size+87)/16*16 := by
  simp only [allocationSpan,poolHeaderSize,ziPoolTailSize,ziPoolAlignment] at h
  split at h
  · cases h
  split at h
  · cases h
  cases h
  exact ⟨by omega,by omega⟩

theorem allocationSpan_of_pos (hpos : 0 < size) (hle : size+87 ≤ uint64Max) :
    allocationSpan size = .ok ((size+87)/16*16) := by
  simp only [allocationSpan,poolHeaderSize,ziPoolTailSize,ziPoolAlignment]
  rw [if_neg (by omega),if_neg (by omega)]
  congr 2
  omega

theorem poolBytesAreZero_iff :
    poolBytesAreZero arena off size = true ↔ ∀ i < size, arena (off+i) = 0 := by
  simp [poolBytesAreZero]

/-! ## The scan -/

def requestedTotal (blocks : List PoolBlock) : ℕ :=
  (blocks.map fun b => b.requested.getD 0).sum

def allocatedCount (blocks : List PoolBlock) : ℕ := blocks.countP fun b => !b.isFree

@[simp] theorem requestedTotal_cons (b : PoolBlock) (blocks : List PoolBlock) :
    requestedTotal (b :: blocks) = b.requested.getD 0+requestedTotal blocks := by
  simp [requestedTotal]

@[simp] theorem requestedTotal_append (blocks others : List PoolBlock) :
    requestedTotal (blocks ++ others) = requestedTotal blocks+requestedTotal others := by
  simp [requestedTotal]

@[simp] theorem allocatedCount_cons (b : PoolBlock) (blocks : List PoolBlock) :
    allocatedCount (b :: blocks) = allocatedCount blocks+if b.isFree then 0 else 1 := by
  cases hb : b.isFree <;> simp [allocatedCount,hb]

@[simp] theorem allocatedCount_append (blocks others : List PoolBlock) :
    allocatedCount (blocks ++ others) = allocatedCount blocks+allocatedCount others := by
  simp [allocatedCount]

theorem requestedTotal_le {blocks : List PoolBlock} (hs : ∀ b ∈ blocks, b.WellSized) :
    requestedTotal blocks ≤ spanTotal blocks := by
  induction blocks with
  | nil => exact le_rfl
  | cons b blocks ih =>
    have hrest := ih fun c hc => hs c (mem_cons_of_mem _ hc)
    rw [requestedTotal_cons,spanTotal_cons]
    cases hb : b.requested with
    | none =>
      rw [getD_none]
      omega
    | some size =>
      have := ((hs b mem_cons_self).request size hb).2
      rw [getD_some]
      omega

section Scan

variable {pool : ZiPool} {b : PoolBlock} {blocks : List PoolBlock} {stats : ZiPoolStatistics}

section

variable (hat : b.At pool.cookie arena off prev)

include hat

theorem PoolBlock.At.isSound (hs : b.WellSized) (hfit : off+b.span ≤ pool.arenaSize) :
    blockIsSound pool (loadBlock arena off) off prev = true := by
  have hspan := hs.span_ge
  have halign := hs.aligned
  rw [hat.header,blockIsSound,decide_eq_true_iff]
  refine ⟨rfl,rfl,?_,halign,?_,rfl⟩
  · simp only [header_span,poolHeaderSize,ziPoolTailSize]
    omega
  · rw [header_span]
    omega

theorem PoolBlock.At.scanBlock_allocated (hs : b.WellSized) (hlt : b.span+15 ≤ uint64Max)
    (hb : b.requested = some size) (hbytes : stats.allocatedBytes+size ≤ uint64Max) :
    scanBlock pool arena (loadBlock arena off) off stats = .ok { stats with
            allocatedBytes := stats.allocatedBytes+size
            allocationCount := stats.allocationCount+1 } := by
  obtain ⟨hpos,hsize⟩ := hs.request size hb
  have halign := hs.aligned
  have hreq : (b.header pool.cookie off prev).requestedSize = size := by
    rw [header_requestedSize,hb,getD_some]
  have hzero : poolBytesAreZero arena (off+poolHeaderSize+size+ziPoolTailSize)
      (b.span-poolHeaderSize-size-ziPoolTailSize) = true := by
    rw [poolBytesAreZero_iff]
    intro i hi
    simp only [poolHeaderSize,ziPoolTailSize] at hi ⊢
    have := hat.padding size hb (64+size+8+i) (by omega) (by omega)
    rwa [show off+64+size+8+i = off+(64+size+8+i) by omega]
  have hstate : (b.header pool.cookie off prev).state = ziPoolBlockAllocated := by
    rw [header_state,isFree,hb]
    rfl
  rw [hat.header,scanBlock,if_pos hstate,scanAllocated,hreq,allocationSpan_of_pos hpos (by omega)]
  dsimp only
  rw [if_neg]
  push Not
  refine ⟨?_,?_,?_,?_⟩
  · rw [header_span]
    omega
  · exact hat.tail size hb
  · rw [header_span,hzero]
    decide
  · omega

theorem PoolBlock.At.scanBlock_free (hb : b.requested = none) :
    scanBlock pool arena (loadBlock arena off) off stats =
      if b.span < 96 then .error .memoryCorruption
      else .ok { stats with
                 freeSpanBytes := stats.freeSpanBytes+b.span
                 largestFreePayload := max stats.largestFreePayload (b.span-64-8) } := by
  have hzero : poolBytesAreZero arena (off+poolHeaderSize) (b.span-poolHeaderSize) = true := by
    rw [poolBytesAreZero_iff]
    intro i hi
    simp only [poolHeaderSize] at hi ⊢
    have := hat.body hb (64+i) (by omega) (by omega)
    rwa [show off+64+i = off+(64+i) by omega]
  have hstate : (b.header pool.cookie off prev).state = ziPoolBlockFree := by
    rw [header_state,isFree,hb]
    rfl
  rw [hat.header,scanBlock,if_neg (by rw [hstate]; decide),if_pos hstate,scanFree,
    allocationSpan_alignment]
  simp only [header_span,header_requestedSize,hb,getD_none,hzero]
  by_cases hspan : b.span < 96
  · rw [if_pos (.inl hspan),if_pos hspan]
  · rw [if_neg (by simp [hspan]),if_neg hspan]

end

/-- The blocks that the scan refuses although their headers are sound. -/
def PoolBlock.IsFragment (b : PoolBlock) : Prop := b.isFree = true ∧ b.span < 96

theorem PoolBlock.At.scanBlock_cases (hat : b.At pool.cookie arena off prev) (hs : b.WellSized)
    (hlt : b.span+15 ≤ uint64Max)
    (hbytes : stats.allocatedBytes+b.requested.getD 0 ≤ uint64Max) : b.IsFragment ∧
      scanBlock pool arena (loadBlock arena off) off stats = .error .memoryCorruption ∨
    ¬b.IsFragment ∧ ∃ scanned, scanBlock pool arena (loadBlock arena off) off stats = .ok scanned ∧
      scanned.allocatedBytes = stats.allocatedBytes+b.requested.getD 0 ∧
      scanned.allocationCount = stats.allocationCount+if b.isFree then 0 else 1 := by
  cases hb : b.requested with
  | none =>
    have hfree : b.isFree = true := by rw [isFree,hb]; rfl
    rw [hat.scanBlock_free hb]
    by_cases hspan : b.span < 96
    · exact .inl ⟨⟨hfree,hspan⟩,if_pos hspan⟩
    · refine .inr ⟨fun hfragment => hspan hfragment.2,_,if_neg hspan,rfl,?_⟩
      rw [if_pos hfree]
      rfl
  | some size =>
    have hfree : b.isFree = false := by rw [isFree,hb]; rfl
    rw [hb,getD_some] at hbytes
    refine .inr ⟨?_,_,hat.scanBlock_allocated hs hlt hb hbytes,rfl,?_⟩
    · rintro ⟨hfree',-⟩
      rw [hfree] at hfree'
      cases hfree'
    · rw [hfree]
      rfl

theorem poolScanLoop_step (hs : b.WellSized) (hat : b.At pool.cookie arena off prev)
    (hfit : off+b.span ≤ pool.arenaSize) :
    poolScanLoop pool arena (fuel+1) off prev stats =
      match scanBlock pool arena (loadBlock arena off) off stats with
      | .error status => .error status
      | .ok scanned =>
        poolScanLoop pool arena fuel (off+b.span) b.span
          { scanned with blockCount := scanned.blockCount+1 } := by
  have hspan := hs.span_ge
  rw [poolScanLoop,if_pos (by omega)]
  simp only [poolHeaderSize]
  rw [if_neg (by rw [hat.isSound hs hfit]; simp; omega),hat.header]
  rfl

theorem poolScanLoop_tiles (hs : ∀ b ∈ blocks, b.WellSized)
    (ht : Tiles pool.cookie arena off prev blocks) (htotal : off+spanTotal blocks = pool.arenaSize)
    (hfuel : blocks.length ≤ fuel) (hsize : pool.arenaSize+15 ≤ uint64Max)
    (hbytes : stats.allocatedBytes+requestedTotal blocks ≤ uint64Max) :
    (∀ b ∈ blocks, ¬b.IsFragment) ∧
      (∃ done, poolScanLoop pool arena fuel off prev stats = .ok (pool.arenaSize, done) ∧
        done.allocatedBytes = stats.allocatedBytes+requestedTotal blocks ∧
        done.allocationCount = stats.allocationCount+allocatedCount blocks) ∨
    (∃ b ∈ blocks, b.IsFragment) ∧
      poolScanLoop pool arena fuel off prev stats = .error .memoryCorruption := by
  induction blocks generalizing fuel off prev stats with
  | nil =>
    rw [spanTotal_nil,Nat.add_zero] at htotal
    refine .inl ⟨by simp,stats,?_,rfl,rfl⟩
    cases fuel with
    | zero => rw [poolScanLoop,htotal]
    | succ fuel => rw [poolScanLoop,if_neg (by omega),htotal]
  | cons b blocks ih =>
    cases fuel with
    | zero => simp at hfuel
    | succ fuel =>
      have hb := hs b mem_cons_self
      obtain ⟨hat,hrest⟩ := ht
      rw [spanTotal_cons] at htotal
      rw [requestedTotal_cons] at hbytes ⊢
      rw [allocatedCount_cons,poolScanLoop_step hb hat (by omega)]
      have hfirst : stats.allocatedBytes+b.requested.getD 0 ≤ uint64Max := by omega
      rcases hat.scanBlock_cases hb (by omega) hfirst with
        ⟨hfragment,hscan⟩ | ⟨hfragment,scanned,hscan,halloc,hcount⟩
      · rw [hscan]
        exact .inr ⟨⟨b,mem_cons_self,hfragment⟩,rfl⟩
      · rw [hscan]
        have hnext : scanned.allocatedBytes+requestedTotal blocks ≤ uint64Max := by omega
        rcases ih (fun c hc => hs c (mem_cons_of_mem _ hc)) hrest (by omega)
          (Nat.le_of_succ_le_succ hfuel)
          (show ({ scanned with blockCount := scanned.blockCount+1 } :
            ZiPoolStatistics).allocatedBytes+_ ≤ _ from hnext) with
          ⟨hall,done,hdone,hdoneBytes,hdoneCount⟩ | ⟨⟨c,hc,hcfragment⟩,herror⟩
        · exact .inl ⟨forall_mem_cons.mpr ⟨hfragment,hall⟩,done,hdone,
            by dsimp only at hdoneBytes; omega,by dsimp only at hdoneCount; omega⟩
        · exact .inr ⟨⟨c,mem_cons_of_mem _ hc,hcfragment⟩,herror⟩

/-! ## The searches -/

theorem findFreeBlock_tiles {requiredSpan : ℕ} (hs : ∀ b ∈ blocks, b.WellSized)
    (ht : Tiles pool.cookie arena off prev blocks) (htotal : off+spanTotal blocks = pool.arenaSize)
    (hfuel : blocks.length ≤ fuel) :
    findFreeBlock pool arena requiredSpan fuel off = none ∧
      (∀ b ∈ blocks, ¬(b.isFree = true ∧ requiredSpan ≤ b.span)) ∨
    ∃ before b after, blocks = before ++ b :: after ∧ b.isFree = true ∧ requiredSpan ≤ b.span ∧
      findFreeBlock pool arena requiredSpan fuel off = some (off+spanTotal before) := by
  induction blocks generalizing fuel off prev with
  | nil =>
    rw [spanTotal_nil,Nat.add_zero] at htotal
    refine .inl ⟨?_,by simp⟩
    cases fuel with
    | zero => rfl
    | succ fuel => rw [findFreeBlock,if_neg (by omega)]
  | cons b blocks ih =>
    cases fuel with
    | zero => simp at hfuel
    | succ fuel =>
      have hspan := (hs b mem_cons_self).span_ge
      obtain ⟨hat,hrest⟩ := ht
      rw [spanTotal_cons] at htotal
      have hstate : (b.header pool.cookie off prev).state = ziPoolBlockFree ↔ b.isFree = true := by
        rw [PoolBlock.header_state]
        cases b.isFree <;> decide
      rw [findFreeBlock,if_pos (by omega),hat.header]
      simp only [hstate,PoolBlock.header_span]
      by_cases hfit : b.isFree = true ∧ b.span ≥ requiredSpan
      · exact .inr ⟨[],b,blocks,rfl,hfit.1,hfit.2,by rw [if_pos hfit]; rfl⟩
      · rw [if_neg hfit]
        rcases ih (fun c hc => hs c (mem_cons_of_mem _ hc)) hrest (by omega)
          (Nat.le_of_succ_le_succ hfuel) with
          ⟨hnone,hall⟩ | ⟨before,c,after,hsplit,hfree,hc,hfind⟩
        · exact .inl ⟨hnone,forall_mem_cons.mpr ⟨hfit,hall⟩⟩
        · refine .inr ⟨b :: before,c,after,by rw [hsplit,cons_append],hfree,hc,?_⟩
          rw [hfind,spanTotal_cons,Nat.add_assoc]

theorem findAllocation_tiles {allocation : ℕ} {before after : List PoolBlock}
    (hs : ∀ c ∈ before ++ b :: after, c.WellSized)
    (ht : Tiles pool.cookie arena off prev (before ++ b :: after))
    (htotal : off+spanTotal (before ++ b :: after) = pool.arenaSize)
    (hfuel : (before ++ b :: after).length ≤ fuel)
    (haddress : allocation = pool.arena+(off+spanTotal before)+64) :
    findAllocation pool arena allocation fuel off = some (off+spanTotal before) := by
  induction before generalizing fuel off prev with
  | nil =>
    have hspan := (hs b mem_cons_self).span_ge
    cases fuel with
    | zero => simp at hfuel
    | succ fuel =>
      rw [nil_append,spanTotal_cons] at htotal
      rw [findAllocation,if_pos (by omega),if_pos (by rw [haddress]; rfl)]
      rfl
  | cons c before ih =>
    have hspan := (hs c mem_cons_self).span_ge
    cases fuel with
    | zero => simp at hfuel
    | succ fuel =>
      obtain ⟨hat,hrest⟩ := ht
      rw [cons_append,spanTotal_cons] at htotal
      rw [spanTotal_cons] at haddress
      rw [findAllocation,if_pos (by omega),if_neg,hat.header,PoolBlock.header_span,
        ih (fun d hd => hs d (mem_cons_of_mem _ hd)) hrest (by omega)
          (Nat.le_of_succ_le_succ hfuel) (by omega),spanTotal_cons,Nat.add_assoc]
      simp only [poolHeaderSize]
      omega

end Scan

end Zizium
