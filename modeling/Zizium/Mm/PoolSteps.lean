import Zizium.Mm.PoolBlocks

/-!
# What the pool operations do to the blocks

Handing out a block splits it or takes it whole; giving one back joins it with its free
neighbours.
-/

namespace Zizium

open Bytes PoolBlock List

variable {prev span gen prev' required size : ℕ}

variable {pool : ZiPool} {arena arena' : Mem} {off : ℕ} {b : PoolBlock}
  {before after blocks : List PoolBlock}

/-! ## Headers that change -/

theorem ZiPoolBlockHeader.InRange.of_fields {requested checksum state : ℕ} (hspan : span < 256^8)
    (hprev : prev < 256^8) (hreq : requested < 256^8) (hgen : gen < 256^8)
    (hchecksum : checksum < 256^8) (hstate : state < 256^4) :
    (⟨ziPoolBlockMagic,span,prev,requested,gen,checksum,state,0,0⟩ :
      ZiPoolBlockHeader).InRange :=
  ⟨show ziPoolBlockMagic < 256^8 by decide,hspan,hprev,hreq,hgen,hchecksum,
    hstate,show 0 < 256^4 by decide,show 0 < 256^8 by decide⟩

variable {cookie : UInt64}

theorem PoolBlock.At.of_header (hat : b.At cookie arena off prev) (hs : b.WellSized)
    (hhdr : loadBlock arena' off = b.header cookie off prev')
    (hbody : ∀ i, 64 ≤ i → i < b.span → arena' (off+i) = arena (off+i)) :
    b.At cookie arena' off prev' where
  header := hhdr
  body := by
    intro hnone i hi hlt
    rw [hbody i hi hlt]
    exact hat.body hnone i hi hlt
  tail := by
    intro size hsize
    have hfit := (hs.request size hsize).2
    rw [← hat.tail size hsize]
    apply Mem.readLe_congr
    intro i hi
    rw [Nat.add_assoc,Nat.add_assoc]
    exact hbody _ (by omega) (by omega)
  padding := by
    intro size hsize i hi hlt
    rw [hbody i (by omega) hlt]
    exact hat.padding size hsize i hi hlt

/-- The header at `offset` is that of `b`, up to its checksum. -/
structure PoolBlock.OpenAt (b : PoolBlock) (arena : Mem) (offset prev : ℕ) : Prop where
  magic : (loadBlock arena offset).magic = ziPoolBlockMagic
  span : (loadBlock arena offset).span = b.span
  previousSpan : (loadBlock arena offset).previousSpan = prev
  requestedSize : (loadBlock arena offset).requestedSize = b.requested.getD 0
  generation : (loadBlock arena offset).generation = b.generation
  state : (loadBlock arena offset).state =
    if b.isFree then ziPoolBlockFree else ziPoolBlockAllocated
  reserved32 : (loadBlock arena offset).reserved32 = 0
  reserved64 : (loadBlock arena offset).reserved64 = 0

theorem PoolBlock.At.openAt (hat : b.At cookie arena off prev) : b.OpenAt arena off prev := by
  have h := hat.header
  constructor <;> rw [h] <;> rfl

theorem PoolBlock.OpenAt.congr (h : b.OpenAt arena off prev)
    (hbytes : ∀ i < 64, arena' (off+i) = arena (off+i)) : b.OpenAt arena' off prev := by
  have hload : loadBlock arena' off = loadBlock arena off := loadBlock_congr hbytes
  obtain ⟨h1,h2,h3,h4,h5,h6,h7,h8⟩ := h
  rw [← hload] at h1 h2 h3 h4 h5 h6 h7 h8
  exact ⟨h1,h2,h3,h4,h5,h6,h7,h8⟩

theorem PoolBlock.OpenAt.state_free_iff (h : b.OpenAt arena off prev) :
    (loadBlock arena off).state = ziPoolBlockFree ↔ b.isFree = true := by
  rw [h.state]
  cases b.isFree <;> decide

theorem PoolBlock.OpenAt.refresh (h : b.OpenAt arena off prev) :
    loadBlock (refreshBlockChecksum cookie arena off) off = b.header cookie off prev := by
  rw [loadBlock_refreshBlockChecksum]
  obtain ⟨h1,h2,h3,h4,h5,h6,h7,h8⟩ := h
  generalize loadBlock arena off = block at *
  cases block
  subst h1 h2 h3 h4 h5 h6 h7 h8
  rfl

variable {block : ZiPoolBlockHeader}

theorem PoolBlock.openAt_of_load (h : loadBlock arena off = block)
    (hmagic : block.magic = ziPoolBlockMagic) (hspan : block.span = b.span)
    (hprev : block.previousSpan = prev) (hreq : block.requestedSize = b.requested.getD 0)
    (hgen : block.generation = b.generation)
    (hstate : block.state = if b.isFree then ziPoolBlockFree else ziPoolBlockAllocated)
    (h32 : block.reserved32 = 0) (h64 : block.reserved64 = 0) : b.OpenAt arena off prev := by
  subst h
  exact ⟨hmagic,hspan,hprev,hreq,hgen,hstate,h32,h64⟩

theorem nextBlock_of_last (h : off+block.span = pool.arenaSize) :
    nextBlock pool block off = none := by
  rw [nextBlock,if_pos (.inr h)]

theorem nextBlock_of_lt (h : off+block.span < pool.arenaSize) :
    nextBlock pool block off = some (off+block.span) := by
  rw [nextBlock,if_neg (by omega)]

theorem linkFollowing_spec (hspan : (loadBlock arena off).span = span)
    (hs : ∀ c ∈ after, c.WellSized) (ht : Tiles pool.cookie arena (off+span) prev after)
    (htotal : off+span+spanTotal after = pool.arenaSize) :
    Tiles pool.cookie (linkFollowing pool arena off) (off+span) span after ∧
      ∀ i, i < off+span ∨ off+span+64 ≤ i → linkFollowing pool arena off i = arena i := by
  cases after with
  | nil =>
    rw [spanTotal_nil,Nat.add_zero,← hspan] at htotal
    have hnone := nextBlock_of_last htotal
    refine ⟨trivial,fun i _ => ?_⟩
    rw [linkFollowing,hnone]
  | cons c after =>
    have hc := hs c mem_cons_self
    have hge := hc.span_ge
    rw [spanTotal_cons] at htotal
    have hnext : nextBlock pool (loadBlock arena off) off = some (off+span) := by
      rw [← hspan]
      exact nextBlock_of_lt (by omega)
    have hlink : linkFollowing pool arena off = refreshBlockChecksum pool.cookie
          (updateBlock arena (off+span) fun next => { next with previousSpan := span })
          (off+span) := by
      rw [linkFollowing,hnext,hspan]
    obtain ⟨hat,hrest⟩ := ht
    have hsame : ∀ i, i < off+span ∨ off+span+64 ≤ i →
        linkFollowing pool arena off i = arena i := by
      intro i hi
      rw [hlink,refreshBlockChecksum_of_disjoint hi,updateBlock_of_disjoint hi]
    have hrange : ({ loadBlock arena (off+span) with previousSpan := span } :
        ZiPoolBlockHeader).InRange := by
      obtain ⟨h1,h2,-,h4,h5,h6,h7,h8,h9⟩ := loadBlock_inRange arena (off+span)
      exact ⟨h1,h2,by rw [← hspan]; exact (loadBlock_inRange arena off).span,h4,h5,h6,h7,
        h8,h9⟩
    have hold := hat.openAt
    have hopen : c.OpenAt
        (updateBlock arena (off+span) fun next => { next with previousSpan := span })
        (off+span) span :=
      openAt_of_load (loadBlock_updateBlock hrange) hold.magic hold.span rfl
        hold.requestedSize hold.generation hold.state hold.reserved32 hold.reserved64
    refine ⟨tiles_cons.mpr ⟨?_,?_⟩,hsame⟩
    · apply hat.of_header hc
      · rw [hlink]
        exact hopen.refresh
      · intro i hi _
        exact hsame _ (.inr (by omega))
    · apply hrest.congr fun d hd => hs d (mem_cons_of_mem _ hd)
      intro i hi _
      exact hsame i (.inr (by omega))

theorem PoolBlock.OpenAt.close (h : b.OpenAt arena off prev) (hfree : b.requested = none)
    (hbody : ∀ i, 64 ≤ i → i < b.span → arena (off+i) = 0) :
    b.At cookie (refreshBlockChecksum cookie arena off) off prev where
  header := h.refresh
  body := by
    intro _ i hi hlt
    rw [refreshBlockChecksum_of_disjoint (.inr (by omega))]
    exact hbody i hi hlt
  tail := by
    intro size hsize
    rw [hfree] at hsize
    cases hsize
  padding := by
    intro size hsize
    rw [hfree] at hsize
    cases hsize

theorem initialiseFreeBlock_at (hspan : span < 256^8) (hprev : prev < 256^8) (hgen : gen < 256^8)
    (hbody : ∀ i, 64 ≤ i → i < span → arena (off+i) = 0) :
    (⟨span,gen,none⟩ : PoolBlock).At cookie
      (initialiseFreeBlock cookie arena off span prev gen) off prev := by
  have hload := loadBlock_inRange arena off
  apply PoolBlock.OpenAt.close
  · exact openAt_of_load
      (loadBlock_updateBlock (.of_fields hspan hprev (by decide) hgen hload.checksum (by decide)))
      rfl rfl rfl rfl rfl rfl rfl rfl
  · rfl
  · intro i hi hlt
    rw [updateBlock_of_disjoint (.inr (by omega))]
    exact hbody i hi hlt

theorem initialiseFreeBlock_of_disjoint {i : ℕ} (h : i < off ∨ off+64 ≤ i) :
    initialiseFreeBlock cookie arena off span prev gen i = arena i := by
  rw [initialiseFreeBlock,refreshBlockChecksum_of_disjoint h,updateBlock_of_disjoint h]

/-! ## Handing out a block -/

def takenBlocks (span required generation size : ℕ) : List PoolBlock :=
  if span-required ≥ 96 then
    [⟨required,generation,some size⟩,⟨span-required,generation,none⟩]
  else [⟨span,generation,some size⟩]

/-- The free block at `offset` was cut to `span` bytes, and `rest` follows. -/
structure CutAt (pool : ZiPool) (arena : Mem) (offset prev span : ℕ) (rest : List PoolBlock) :
    Prop where
  span_eq : (loadBlock arena offset).span = span
  previousSpan_eq : (loadBlock arena offset).previousSpan = prev
  body : ∀ i, 64 ≤ i → i < span → arena (offset+i) = 0
  rest : Tiles pool.cookie arena (offset+span) span rest

theorem PoolBlock.At.cutAt (hat : b.At pool.cookie arena off prev) (hfree : b.requested = none)
    (ht : Tiles pool.cookie arena (off+b.span) b.span after) :
    CutAt pool arena off prev b.span after :=
  ⟨hat.openAt.span,hat.openAt.previousSpan,hat.body hfree,ht⟩

theorem claimBlock_spec {rest : List PoolBlock} (hcut : CutAt pool arena off prev span rest)
    (hs : ∀ c ∈ rest, c.WellSized) (hfit : size+72 ≤ span) (hsize : span < 256^8)
    (hgen : pool.generation < 256^8) :
    Tiles pool.cookie (claimBlock pool arena off size) off prev
        (⟨span,pool.generation,some size⟩ :: rest) ∧
      (∀ i < size, claimBlock pool arena off size (off+64+i) = 0) ∧
      ∀ i, i < off ∨ off+span ≤ i → claimBlock pool arena off size i = arena i := by
  let block : PoolBlock := ⟨span,pool.generation,some size⟩
  let named := updateBlock arena off fun header =>
    { header with
      magic := ziPoolBlockMagic
      requestedSize := size
      generation := pool.generation
      state := ziPoolBlockAllocated
      reserved32 := 0
      reserved64 := 0 }
  let signed := refreshBlockChecksum pool.cookie named off
  have hload := loadBlock_inRange arena off
  have hopen : block.OpenAt named off prev := by
    refine openAt_of_load
      (loadBlock_updateBlock
        (.of_fields hload.span hload.previousSpan (by omega) hgen hload.checksum
          (by decide))) rfl ?_ ?_ rfl rfl rfl rfl rfl
    · exact hcut.span_eq
    · exact hcut.previousSpan_eq
  have hsigned : loadBlock signed off = block.header pool.cookie off prev := hopen.refresh
  have hclaim : claimBlock pool arena off size =
      ziWriteU64Le signed (off+64+size) (block.tail pool.cookie off).toNat := by
    show ziWriteU64Le signed (off+64+size)
      (calculateBlockTail pool.cookie (loadBlock signed off) off).toNat = _
    rw [hsigned,calculateBlockTail_header]
  -- Outside the header and the tail word nothing changes.
  have hsame : ∀ i, i < off ∨ off+64 ≤ i → i < off+64+size ∨
      off+72+size ≤ i → claimBlock pool arena off size i = arena i := by
    intro i hhdr htail
    have hstore : signed i = arena i :=
      (refreshBlockChecksum_of_disjoint hhdr).trans (updateBlock_of_disjoint hhdr)
    rw [hclaim,← hstore]
    rcases htail with h | h
    · exact Mem.put_of_lt h
    · exact Mem.put_of_ge (by rw [length_leBytes]; omega)
  refine ⟨tiles_cons.mpr ⟨?_,?_⟩,?_,?_⟩
  · constructor
    · rw [← hsigned]
      apply loadBlock_congr
      intro i hi
      rw [hclaim]
      exact Mem.put_of_lt (by omega)
    · nofun
    · intro size' hsize'
      cases hsize'
      rw [hclaim]
      exact Mem.readLe_put_self_of_lt (UInt64.toNat_lt _)
    · intro size' hsize' i hi hlt
      cases hsize'
      rw [hsame _ (.inr (by omega)) (.inr (by omega))]
      exact hcut.body i (by omega) hlt
  · apply hcut.rest.congr hs
    intro i hi _
    exact hsame i (.inr (by omega)) (.inr (by omega))
  · intro i hi
    rw [hsame _ (.inr (by omega)) (.inl (by omega)),Nat.add_assoc]
    exact hcut.body _ (by omega) (by omega)
  · intro i hi
    exact hsame i (by omega) (by omega)

variable (hsize : pool.arenaSize < 256^8) (hgen : pool.generation < 256^8)

include hsize hgen

theorem splitBlock_spec (hb : b.WellSized) (hat : b.At pool.cookie arena off prev)
    (hfree : b.requested = none) (hs : ∀ c ∈ after, c.WellSized)
    (ht : Tiles pool.cookie arena (off+b.span) b.span after)
    (htotal : off+b.span+spanTotal after = pool.arenaSize) (hrequired : 64 ≤ required)
    (halign : required%16 = 0) (hremainder : required+96 ≤ b.span) :
    CutAt pool (splitBlock pool arena off required (b.span-required)) off prev required
        (⟨b.span-required,pool.generation,none⟩ :: after) ∧
      ∀ i, i < off ∨ off+b.span+64 ≤ i →
        splitBlock pool arena off required (b.span-required) i = arena i := by
  -- The three stores: the shorter span, the header of the rest, the link of the block behind.
  let cut := updateBlock arena off fun block => { block with span := required }
  let rest := initialiseFreeBlock pool.cookie cut (off+required) (b.span-required) required
    pool.generation
  have hsplit : splitBlock pool arena off required (b.span-required) =
      linkFollowing pool rest (off+required) := rfl
  have hcut : ∀ i, i < off ∨ off+64 ≤ i → cut i = arena i := fun i hi => updateBlock_of_disjoint hi
  have hrest : ∀ i, i < off+required ∨ off+required+64 ≤ i → rest i = cut i :=
    fun i hi => initialiseFreeBlock_of_disjoint hi
  have hbody : ∀ i, 64 ≤ i → i < b.span → cut (off+i) = 0 := by
    intro i hi hlt
    rw [hcut _ (.inr (by omega))]
    exact hat.body hfree i hi hlt
  have hpiece : (⟨b.span-required,pool.generation,none⟩ : PoolBlock).At pool.cookie rest
      (off+required) required := by
    apply initialiseFreeBlock_at (by omega) (by omega) hgen
    intro i hi hlt
    rw [Nat.add_assoc]
    exact hbody _ (by omega) (by omega)
  have hend : off+required+(b.span-required) = off+b.span := by omega
  have hafter : Tiles pool.cookie rest (off+required+(b.span-required)) b.span after := by
    rw [hend]
    apply ht.congr hs
    intro i hi _
    rw [hrest i (.inr (by omega)),hcut i (.inr (by omega))]
  obtain ⟨hlinked,hlink⟩ := linkFollowing_spec hpiece.openAt.span hs hafter (by
    rw [hend]
    exact htotal)
  dsimp only at hlinked hlink
  have hload : loadBlock cut off = { loadBlock arena off with span := required } := by
    apply loadBlock_updateBlock
    obtain ⟨h1,-,h3,h4,h5,h6,h7,h8,h9⟩ := loadBlock_inRange arena off
    exact ⟨h1,by dsimp only; omega,h3,h4,h5,h6,h7,h8,h9⟩
  have hkeep : loadBlock (linkFollowing pool rest (off+required)) off = loadBlock cut off := by
    apply loadBlock_congr
    intro i hi
    rw [hlink _ (.inl (by omega)),hrest _ (.inl (by omega))]
  rw [hsplit]
  refine ⟨⟨?_,?_,?_,tiles_cons.mpr ⟨?_,hlinked⟩⟩,?_⟩
  · rw [hkeep,hload]
  · rw [hkeep,hload]
    exact hat.openAt.previousSpan
  · intro i hi hlt
    rw [hlink _ (.inl (by omega)),hrest _ (.inl (by omega))]
    exact hbody i hi (by omega)
  · have hbaligned := hb.aligned
    apply hpiece.congr ⟨by dsimp only; omega,by dsimp only; omega,nofun⟩
    intro i hi _
    exact hlink _ (.inl (by dsimp only at hi; omega))
  · intro i hi
    rw [hlink _ (by omega),hrest _ (by omega),hcut _ (by omega)]

theorem takeBlock_spec (hs : ∀ c ∈ before ++ b :: after, c.WellSized)
    (ht : Tiles pool.cookie arena 0 0 (before ++ b :: after))
    (htotal : spanTotal (before ++ b :: after) = pool.arenaSize) (hfree : b.requested = none)
    (halign : required%16 = 0) (hfit : size+72 ≤ required) (hrequired : required ≤ b.span) :
    Tiles pool.cookie (takeBlock pool arena (spanTotal before) size required 96) 0 0
        (before ++ (takenBlocks b.span required pool.generation size ++ after)) ∧
      (∀ i < size, takeBlock pool arena (spanTotal before) size required 96
        (spanTotal before+64+i) = 0) ∧
      ∀ i, i < spanTotal before ∨ spanTotal before+b.span+64 ≤ i →
        takeBlock pool arena (spanTotal before) size required 96 i = arena i := by
  have hb := hs b (by simp)
  have hbefore : ∀ c ∈ before, c.WellSized := fun c hc => hs c (by simp [hc])
  have hafter : ∀ c ∈ after, c.WellSized := fun c hc => hs c (by simp [hc])
  obtain ⟨hfront,hback⟩ := tiles_append.mp ht
  rw [Nat.zero_add] at hback
  obtain ⟨hat,hrest⟩ := tiles_cons.mp hback
  rw [spanTotal_append,spanTotal_cons] at htotal
  -- The body of a free block is zero already.
  have hzero : zeroBytes arena (spanTotal before+64) (b.span-64) = arena := by
    funext i
    rw [zeroBytes_apply]
    by_cases hin : spanTotal before+64 ≤ i ∧ i < spanTotal before+64+(b.span-64)
    · rw [if_pos hin]
      have := hat.body hfree (i-spanTotal before) (by omega) (by omega)
      rw [← this]
      congr 1
      omega
    · rw [if_neg hin]
  have htake : takeBlock pool arena (spanTotal before) size required 96 = claimBlock pool
        (if b.span-required ≥ 96 then
          splitBlock pool arena (spanTotal before) required (b.span-required)
        else arena) (spanTotal before) size := by
    simp only [takeBlock,hat.openAt.span,poolHeaderSize,hzero]
  have hlast : ∀ span : ℕ, ∀ rest : List PoolBlock, ∀ arena2 : Mem,
      CutAt pool arena2 (spanTotal before) (lastSpan 0 before) span rest →
      (∀ c ∈ rest, c.WellSized) → size+72 ≤ span → span ≤ b.span →
      (∀ i, i < spanTotal before ∨ spanTotal before+b.span+64 ≤ i → arena2 i = arena i) →
      Tiles pool.cookie (claimBlock pool arena2 (spanTotal before) size) 0 0
          (before ++ ⟨span,pool.generation,some size⟩ :: rest) ∧
        (∀ i < size, claimBlock pool arena2 (spanTotal before) size
          (spanTotal before+64+i) = 0) ∧
        ∀ i, i < spanTotal before ∨ spanTotal before+b.span+64 ≤ i →
          claimBlock pool arena2 (spanTotal before) size i = arena i := by
    intro span rest arena2 hcut hsr hsz hle hsame
    obtain ⟨htiles,hpayload,hframe⟩ := claimBlock_spec hcut hsr hsz (by omega) hgen
    refine ⟨tiles_append.mpr ⟨?_,?_⟩,hpayload,?_⟩
    · apply hfront.congr hbefore
      intro i _ hi
      rw [hframe i (.inl (by omega)),hsame i (.inl (by omega))]
    · rwa [Nat.zero_add]
    · intro i hi
      rw [hframe i (by omega),hsame i hi]
  rw [htake,takenBlocks]
  by_cases hsplit : b.span-required ≥ 96
  · obtain ⟨hcut,hsame⟩ := splitBlock_spec hsize hgen hb hat hfree hafter hrest (by omega)
      (show 64 ≤ required by omega) halign (by omega)
    rw [if_pos hsplit,if_pos hsplit]
    refine hlast required _ _ hcut (forall_mem_cons.mpr ⟨?_,hafter⟩) hfit hrequired hsame
    have := hb.aligned
    exact ⟨by dsimp only; omega,by dsimp only; omega,nofun⟩
  · rw [if_neg hsplit,if_neg hsplit]
    exact hlast b.span after arena (hat.cutAt hfree hrest) hafter (by omega) le_rfl fun _ _ => rfl

/-! ## Giving back a block -/

def mergeAfter (span : ℕ) : List PoolBlock → ℕ × List PoolBlock
  | [] => (span, [])
  | c :: rest => if c.isFree then (span+c.span, rest) else (span, c :: rest)

def mergeBefore (before : List PoolBlock) (span : ℕ) : List PoolBlock × ℕ :=
  match before.getLast? with
  | none => (before, span)
  | some c => if c.isFree then (before.dropLast, c.span+span) else (before, span)

theorem growBlock_spec {f : ZiPoolBlockHeader → ZiPoolBlockHeader} (hopen : b.OpenAt arena off prev)
    (hfree : b.isFree = true)
    (hf : f (loadBlock arena off) = { loadBlock arena off with
      span := span, generation := pool.generation })
    (hspan : 64 ≤ span) (hs : ∀ c ∈ after, c.WellSized)
    (ht : Tiles pool.cookie arena (off+span) prev' after)
    (htotal : off+span+spanTotal after = pool.arenaSize) :
    (⟨span,pool.generation,none⟩ : PoolBlock).OpenAt
        (linkFollowing pool (updateBlock arena off f) off) off prev ∧
      Tiles pool.cookie (linkFollowing pool (updateBlock arena off f) off) (off+span) span after ∧
      ∀ i, i < off ∨ off+span+64 ≤ i →
        linkFollowing pool (updateBlock arena off f) off i = arena i := by
  have hsame : ∀ i, i < off ∨ off+64 ≤ i → updateBlock arena off f i = arena i :=
    fun i hi => updateBlock_of_disjoint hi
  have hrange : (f (loadBlock arena off)).InRange := by
    obtain ⟨h1,-,h3,h4,-,h6,h7,h8,h9⟩ := loadBlock_inRange arena off
    rw [hf]
    exact ⟨h1,by dsimp only; omega,h3,h4,hgen,h6,h7,h8,h9⟩
  have hgrown : (⟨span,pool.generation,none⟩ : PoolBlock).OpenAt (updateBlock arena off f) off
      prev := by
    have hnone : b.requested = none := by simpa [isFree] using hfree
    refine openAt_of_load ((loadBlock_updateBlock hrange).trans hf) hopen.magic rfl
      hopen.previousSpan ?_ rfl (hopen.state_free_iff.mpr hfree) hopen.reserved32 hopen.reserved64
    have := hopen.requestedSize
    rwa [hnone] at this
  have hbehind : Tiles pool.cookie (updateBlock arena off f) (off+span) prev' after := by
    apply ht.congr hs
    intro i hi _
    exact hsame i (.inr (by omega))
  obtain ⟨hlinked,hlink⟩ := linkFollowing_spec hgrown.span hs hbehind htotal
  refine ⟨?_,hlinked,fun i hi => ?_⟩
  · apply hgrown.congr
    intro i hi
    exact hlink _ (.inl (by dsimp only; omega))
  · rw [hlink i (by dsimp only; omega),hsame i (by omega)]

theorem absorbFollowing_spec
    (hopen : (⟨span,pool.generation,none⟩ : PoolBlock).OpenAt arena off prev) (hspan : 64 ≤ span)
    (hs : ∀ c ∈ after, c.WellSized) (ht : Tiles pool.cookie arena (off+span) span after)
    (htotal : off+span+spanTotal after = pool.arenaSize) :
    (⟨(mergeAfter span after).1,pool.generation,none⟩ : PoolBlock).OpenAt
        (absorbFollowing pool arena off) off prev ∧
      Tiles pool.cookie (absorbFollowing pool arena off) (off+(mergeAfter span after).1)
        (mergeAfter span after).1 (mergeAfter span after).2 ∧
      ∀ i, i < off ∨ off+(mergeAfter span after).1+64 ≤ i →
        absorbFollowing pool arena off i = arena i := by
  have hload : (loadBlock arena off).span = span := hopen.span
  cases after with
  | nil =>
    rw [spanTotal_nil,Nat.add_zero,← hload] at htotal
    have habsorb : absorbFollowing pool arena off = arena := by
      rw [absorbFollowing,nextBlock_of_last htotal]
    rw [habsorb]
    exact ⟨hopen,ht,fun _ _ => rfl⟩
  | cons c rest =>
    have hc := hs c mem_cons_self
    have hge := hc.span_ge
    obtain ⟨hat,hrest⟩ := tiles_cons.mp ht
    rw [spanTotal_cons] at htotal
    have hnext : nextBlock pool (loadBlock arena off) off = some (off+span) := by
      rw [← hload]
      exact nextBlock_of_lt (by omega)
    have hstate := hat.openAt.state_free_iff
    by_cases hfree : c.isFree = true
    · have hmerge : mergeAfter span (c :: rest) = (span+c.span, rest) := by
        rw [mergeAfter,if_pos hfree]
      rw [absorbFollowing,hnext,hmerge]
      dsimp only
      rw [if_pos (hstate.mpr hfree),hat.openAt.span]
      rw [Nat.add_assoc] at hrest
      refine growBlock_spec hsize hgen hopen rfl ?_ (by omega)
        (fun d hd => hs d (mem_cons_of_mem _ hd)) hrest (by omega)
      rw [hload,show (loadBlock arena off).generation = pool.generation from hopen.generation]
    · have hmerge : mergeAfter span (c :: rest) = (span, c :: rest) := by
        rw [mergeAfter,if_neg hfree]
      have habsorb : absorbFollowing pool arena off = arena := by
        rw [absorbFollowing,hnext]
        dsimp only
        rw [if_neg fun h => hfree (hstate.mp h)]
      rw [habsorb,hmerge]
      exact ⟨hopen,ht,fun _ _ => rfl⟩

/-- The arena after a join with the block before: an open header of `span` bytes behind
`front`, up to `stop`, where `after` goes on. -/
structure JoinedTo (pool : ZiPool) (arena : Mem) (front : List PoolBlock) (span stop : ℕ)
    (after : List PoolBlock) (arena' : Mem) : Prop where
  header : (⟨span,pool.generation,none⟩ : PoolBlock).OpenAt arena' (spanTotal front)
    (lastSpan 0 front)
  ahead : Tiles pool.cookie arena' 0 0 front
  rest : Tiles pool.cookie arena' stop span after
  same : ∀ i, i < spanTotal front ∨ stop+64 ≤ i → arena' i = arena i

theorem absorbIntoPreceding_spec
    (hopen : (⟨span,pool.generation,none⟩ : PoolBlock).OpenAt arena (spanTotal before)
      (lastSpan 0 before))
    (hbefore : ∀ c ∈ before, c.WellSized) (hs : ∀ c ∈ after, c.WellSized)
    (hfront : Tiles pool.cookie arena 0 0 before)
    (ht : Tiles pool.cookie arena (spanTotal before+span) span after)
    (htotal : spanTotal before+span+spanTotal after = pool.arenaSize) :
    ∃ arena', absorbIntoPreceding pool arena (spanTotal before) =
        (arena', spanTotal (mergeBefore before span).1) ∧
      JoinedTo pool arena (mergeBefore before span).1 (mergeBefore before span).2
        (spanTotal before+span) after arena' := by
  have hkeep : mergeBefore before span = (before, span) →
      absorbIntoPreceding pool arena (spanTotal before) = (arena, spanTotal before) →
      ∃ arena', absorbIntoPreceding pool arena (spanTotal before) =
          (arena', spanTotal (mergeBefore before span).1) ∧
        JoinedTo pool arena (mergeBefore before span).1 (mergeBefore before span).2
          (spanTotal before+span) after arena' := by
    intro hmerge habsorb
    rw [hmerge]
    exact ⟨arena,habsorb,hopen,hfront,ht,fun _ _ => rfl⟩
  rcases eq_nil_or_concat before with rfl | ⟨front,c,rfl⟩
  · apply hkeep rfl
    rw [absorbIntoPreceding,previousBlock,
      if_pos (show (loadBlock arena (spanTotal [])).previousSpan = 0 from hopen.previousSpan)]
  · rw [concat_eq_append] at *
    obtain ⟨hfirst,hlast⟩ := tiles_append.mp hfront
    obtain ⟨hat,-⟩ := tiles_cons.mp hlast
    rw [Nat.zero_add] at hat
    have hc := hbefore c (by simp)
    have hge := hc.span_ge
    have hprev : (loadBlock arena (spanTotal (front ++ [c]))).previousSpan = c.span := by
      rw [hopen.previousSpan,lastSpan_concat]
    have hoff : spanTotal (front ++ [c]) = spanTotal front+c.span := by simp
    have hpreceding : previousBlock (loadBlock arena (spanTotal (front ++ [c])))
        (spanTotal (front ++ [c])) = some (spanTotal front) := by
      rw [previousBlock,hprev,if_neg (by omega),if_neg (by omega),hoff,
        Nat.add_sub_cancel]
    have hstate := hat.openAt.state_free_iff
    by_cases hfree : c.isFree = true
    · have hmerge : mergeBefore (front ++ [c]) span = (front, c.span+span) := by
        simp [mergeBefore,hfree]
      rw [hoff,Nat.add_assoc] at ht
      obtain ⟨hgrown,hrest,hsame⟩ := growBlock_spec (f := fun block =>
        { block with span := block.span+span, generation := pool.generation }) hsize hgen
        hat.openAt hfree (by rw [hat.openAt.span]) (by omega) hs ht (by omega)
      rw [hmerge,absorbIntoPreceding,hpreceding]
      dsimp only
      rw [if_pos (hstate.mpr hfree),hopen.span]
      rw [← Nat.add_assoc,← hoff] at hrest
      refine ⟨_,rfl,hgrown,?_,hrest,fun i (hi : i < spanTotal front ∨ _) => hsame i (by omega)⟩
      apply hfirst.congr fun d hd => hbefore d (by simp [hd])
      intro i _ hi
      exact hsame i (.inl (by omega))
    · apply hkeep
      · simp [mergeBefore,hfree]
      · rw [absorbIntoPreceding,hpreceding]
        dsimp only
        rw [if_neg fun h => hfree (hstate.mp h)]

def freedBlocks (before : List PoolBlock) (span generation : ℕ) (after : List PoolBlock) :
    List PoolBlock :=
  (mergeBefore before (mergeAfter span after).1).1 ++
    ⟨(mergeBefore before (mergeAfter span after).1).2,generation,none⟩ ::
      (mergeAfter span after).2

omit hsize hgen in
theorem mergeAfter_cases (span : ℕ) (after : List PoolBlock) : ∃ right back,
    after = right ++ back ∧ (∀ c ∈ right, c.isFree = true) ∧
    (right = [] → ∀ c ∈ after.head?, c.isFree = false) ∧
    mergeAfter span after = (span+spanTotal right, back) := by
  cases after with
  | nil => exact ⟨[],[],rfl,by simp,by simp,rfl⟩
  | cons c rest =>
    by_cases hfree : c.isFree = true
    · exact ⟨[c],rest,rfl,by simpa using hfree,by simp,by simp [mergeAfter,hfree]⟩
    · exact ⟨[],c :: rest,rfl,by simp,by simpa using hfree,by simp [mergeAfter,hfree]⟩

omit hsize hgen in
theorem mergeBefore_cases (before : List PoolBlock) : ∃ front left,
    before = front ++ left ∧ (∀ c ∈ left, c.isFree = true) ∧
    (left = [] → ∀ c ∈ before.getLast?, c.isFree = false) ∧
    ∀ span, mergeBefore before span = (front, spanTotal left+span) := by
  rcases eq_nil_or_concat before with rfl | ⟨front,c,rfl⟩
  · exact ⟨[],[],rfl,by simp,by simp,by simp [mergeBefore]⟩
  · rw [concat_eq_append]
    by_cases hfree : c.isFree = true
    · exact ⟨front,[c],rfl,by simpa using hfree,by simp,by simp [mergeBefore,hfree]⟩
    · exact ⟨front ++ [c],[],by simp,by simp,by simpa using hfree,by simp [mergeBefore,hfree]⟩

theorem releaseBlock_spec (hs : ∀ c ∈ before ++ b :: after, c.WellSized)
    (ht : Tiles pool.cookie arena 0 0 (before ++ b :: after))
    (htotal : spanTotal (before ++ b :: after) = pool.arenaSize) :
    Tiles pool.cookie (releaseBlock pool arena (spanTotal before)) 0 0
        (freedBlocks before b.span pool.generation after) ∧
      ∀ i, i < spanTotal (mergeBefore before (mergeAfter b.span after).1).1 ∨
          spanTotal before+(mergeAfter b.span after).1+64 ≤ i →
        releaseBlock pool arena (spanTotal before) i = arena i := by
  have hb := hs b (by simp)
  have hge := hb.span_ge
  have hbefore : ∀ c ∈ before, c.WellSized := fun c hc => hs c (by simp [hc])
  have hafter : ∀ c ∈ after, c.WellSized := fun c hc => hs c (by simp [hc])
  obtain ⟨hfront,hback⟩ := tiles_append.mp ht
  rw [Nat.zero_add] at hback
  obtain ⟨hat,hrest⟩ := tiles_cons.mp hback
  rw [spanTotal_append,spanTotal_cons] at htotal
  let freed := updateBlock arena (spanTotal before) fun block =>
    { block with
      requestedSize := 0, generation := pool.generation, state := ziPoolBlockFree }
  let marked := refreshBlockChecksum pool.cookie freed (spanTotal before)
  have hmarkedSame : ∀ i, i < spanTotal before ∨ spanTotal before+64 ≤ i →
      marked i = arena i := fun i hi =>
    (refreshBlockChecksum_of_disjoint hi).trans (updateBlock_of_disjoint hi)
  -- Mark the block free.
  have hrange : ({ loadBlock arena (spanTotal before) with
      requestedSize := 0, generation := pool.generation, state := ziPoolBlockFree } :
      ZiPoolBlockHeader).InRange := by
    obtain ⟨h1,h2,h3,-,-,h6,-,h8,h9⟩ := loadBlock_inRange arena (spanTotal before)
    exact ⟨h1,h2,h3,show 0 < 256^8 by decide,hgen,h6,
      show ziPoolBlockFree < 256^4 by decide,h8,h9⟩
  have hold := hat.openAt
  have hnamed : (⟨b.span,pool.generation,none⟩ : PoolBlock).OpenAt freed (spanTotal before)
      (lastSpan 0 before) :=
    openAt_of_load (loadBlock_updateBlock hrange) hold.magic hold.span hold.previousSpan
      rfl rfl rfl hold.reserved32 hold.reserved64
  have hmarked : (⟨b.span,pool.generation,none⟩ : PoolBlock).OpenAt marked (spanTotal before)
      (lastSpan 0 before) :=
    openAt_of_load hnamed.refresh rfl rfl rfl rfl rfl rfl rfl rfl
  have hmarkedRest : Tiles pool.cookie marked (spanTotal before+b.span) b.span after := by
    apply hrest.congr hafter
    intro i hi _
    exact hmarkedSame i (.inr (by omega))
  -- Join with the block behind.
  obtain ⟨hopen1,hrest1,hsame1⟩ :=
    absorbFollowing_spec hsize hgen hmarked (by omega) hafter hmarkedRest (by omega)
  obtain ⟨right,after1,rfl,-,-,hm⟩ := mergeAfter_cases b.span after
  rw [hm] at hopen1 hrest1 hsame1
  rw [freedBlocks,hm]
  rw [spanTotal_append] at htotal
  dsimp only at hopen1 hrest1 hsame1 ⊢
  have hafter1 : ∀ c ∈ after1, c.WellSized := fun c hc => hafter c (mem_append_right _ hc)
  have hfront1 : Tiles pool.cookie (absorbFollowing pool marked (spanTotal before)) 0 0 before := by
    apply hfront.congr hbefore
    intro i _ hi
    rw [hsame1 i (.inl (by omega)),hmarkedSame i (.inl (by omega))]
  -- Join with the block before.
  obtain ⟨arena2,habsorb,hjoined⟩ :=
    absorbIntoPreceding_spec hsize hgen hopen1 hbefore hafter1 hfront1 hrest1 (by omega)
  obtain ⟨front,left,hsplit,-,-,hjoin⟩ := mergeBefore_cases before
  have hmem2 : ∀ c ∈ front, c.WellSized := fun c hc => hbefore c (by simp [hsplit,hc])
  have htotal2 : spanTotal before+(b.span+spanTotal right) =
      spanTotal front+(spanTotal left+(b.span+spanTotal right)) := by
    rw [hsplit,spanTotal_append,Nat.add_assoc]
  have hle2 : b.span+spanTotal right ≤ spanTotal left+(b.span+spanTotal right) := by omega
  rw [hjoin] at habsorb hjoined ⊢
  dsimp only at habsorb hjoined ⊢
  generalize spanTotal left+(b.span+spanTotal right) = span2 at *
  obtain ⟨hopen2,hfront2,hrest2,hsame2⟩ := hjoined
  -- Wipe the joined block and seal its header.
  let wiped := zeroBytes arena2 (spanTotal front+64) (span2-64)
  have hbytes : ∀ i, wiped i = if spanTotal front+64 ≤ i ∧ i < spanTotal front+64+(span2-64) then 0
      else arena2 i := fun _ => zeroBytes_apply
  have hrelease : releaseBlock pool arena (spanTotal before) =
      refreshBlockChecksum pool.cookie wiped (spanTotal front) := by
    have hspan := hopen2.span
    rw [releaseBlock,habsorb]
    simp only [hspan,wiped,poolHeaderSize]
  have hwiped : ∀ i, i < spanTotal front+64 ∨ spanTotal front+span2 ≤ i → wiped i = arena2 i := by
    intro i hi
    rw [hbytes,if_neg (by omega)]
  have hfinal : ∀ i, i < spanTotal front ∨ spanTotal front+span2 ≤ i →
      refreshBlockChecksum pool.cookie wiped (spanTotal front) i = arena2 i := by
    intro i hi
    rw [refreshBlockChecksum_of_disjoint (by omega),hwiped i (by omega)]
  rw [hrelease]
  constructor
  · rw [tiles_append,tiles_cons,Nat.zero_add]
    refine ⟨?_,?_,?_⟩
    · apply hfront2.congr hmem2
      intro i _ hi
      exact hfinal i (.inl (by omega))
    · apply PoolBlock.OpenAt.close _ rfl
      · intro i hi hlt
        dsimp only at hlt
        rw [hbytes,if_pos (by omega)]
      · apply hopen2.congr
        intro i hi
        exact hwiped _ (.inl (by omega))
    · rw [← htotal2]
      apply hrest2.congr hafter1
      intro i hi _
      exact hfinal i (.inr (by omega))
  · intro i hi
    rw [hfinal i (by omega),hsame2 i (by omega),hsame1 i (by omega),hmarkedSame i (by omega)]

end Zizium
