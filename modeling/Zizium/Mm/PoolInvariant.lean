import Mathlib.Data.List.Chain
import Zizium.Mm.PoolSteps

/-!
# The invariant of a pool

Between two calls a pool is described by the list of its blocks, also after a call that leaves a
free block too small for `pool_scan`.
-/

namespace Zizium

open Bytes List

variable {base off size required : ℕ}

/-! ## Payloads -/

/-- An allocation as its client knows it. -/
structure PoolAllocation where
  address : ℕ
  size : ℕ
  deriving DecidableEq, Repr

namespace PoolAllocation

/-- The address lies in the payload. -/
def Covers (p : PoolAllocation) (address : ℕ) : Prop :=
  p.address ≤ address ∧ address < p.address+p.size

/-- The payloads share no byte. -/
def Apart (p q : PoolAllocation) : Prop := ∀ address, ¬(p.Covers address ∧ q.Covers address)

theorem Apart.symm {p q : PoolAllocation} (h : p.Apart q) : q.Apart p := fun address hboth =>
  h address hboth.symm

end PoolAllocation

def payloads (base : ℕ) : (offset : ℕ) → List PoolBlock → List PoolAllocation
  | _, [] => []
  | offset, b :: blocks =>
    b.requested.toList.map (fun size => ⟨base+offset+64,size⟩) ++
      payloads base (offset+b.span) blocks

section Payloads

variable {blocks others : List PoolBlock} {p : PoolAllocation}

theorem payloads_append : payloads base off (blocks ++ others) =
    payloads base off blocks ++ payloads base (off+spanTotal blocks) others := by
  induction blocks generalizing off with
  | nil => rfl
  | cons b blocks ih =>
    rw [cons_append,payloads,payloads,ih,spanTotal_cons,append_assoc,Nat.add_assoc off]

theorem payloads_cons_free {b : PoolBlock} (h : b.requested = none) :
    payloads base off (b :: blocks) = payloads base (off+b.span) blocks := by
  rw [payloads,h]
  rfl

theorem payloads_cons_allocated {b : PoolBlock} (h : b.requested = some size) :
    payloads base off (b :: blocks) =
      ⟨base+off+64,size⟩ :: payloads base (off+b.span) blocks := by
  rw [payloads,h]
  rfl

theorem requested_eq_none_of_isFree {b : PoolBlock} (h : b.isFree = true) : b.requested = none := by
  simpa [PoolBlock.isFree] using h

theorem payloads_of_free (h : ∀ b ∈ blocks, b.isFree = true) : payloads base off blocks = [] := by
  induction blocks generalizing off with
  | nil => rfl
  | cons b blocks ih =>
    rw [payloads_cons_free (requested_eq_none_of_isFree (h b mem_cons_self))]
    exact ih fun c hc => h c (mem_cons_of_mem _ hc)

theorem mem_payloads : p ∈ payloads base off blocks ↔
    ∃ before b after, blocks = before ++ b :: after ∧ b.requested = some p.size ∧
      p.address = base+(off+spanTotal before)+64 := by
  constructor
  · intro h
    induction blocks generalizing off with
    | nil => cases h
    | cons b blocks ih =>
      rw [payloads,mem_append] at h
      rcases h with h | h
      · simp only [mem_map,Option.mem_toList] at h
        obtain ⟨size,hsize,rfl⟩ := h
        exact ⟨[],b,blocks,rfl,hsize,rfl⟩
      · obtain ⟨before,c,after,rfl,hc,haddress⟩ := ih h
        refine ⟨b :: before,c,after,rfl,hc,?_⟩
        rw [haddress,spanTotal_cons,Nat.add_assoc off]
  · rintro ⟨before,b,after,rfl,hb,haddress⟩
    rw [payloads_append,mem_append,payloads_cons_allocated hb]
    right
    rw [mem_cons]
    left
    rw [← haddress]

theorem payload_bounds (hs : ∀ b ∈ blocks, b.WellSized) (h : p ∈ payloads base off blocks) :
    base+off+64 ≤ p.address ∧ p.address+p.size+8 ≤ base+off+spanTotal blocks := by
  obtain ⟨before,b,after,rfl,hb,haddress⟩ := mem_payloads.mp h
  have hfit := ((hs b (by simp)).request _ hb).2
  rw [spanTotal_append,spanTotal_cons]
  omega

theorem payloads_apart (hs : ∀ b ∈ blocks, b.WellSized) :
    (payloads base off blocks).Pairwise PoolAllocation.Apart := by
  induction blocks generalizing off with
  | nil => exact List.Pairwise.nil
  | cons b blocks ih =>
    have hrest : (payloads base (off+b.span) blocks).Pairwise PoolAllocation.Apart :=
      ih fun c hc => hs c (mem_cons_of_mem _ hc)
    cases hb : b.requested with
    | none => rwa [payloads_cons_free hb]
    | some size =>
      rw [payloads_cons_allocated hb]
      refine pairwise_cons.mpr ⟨?_,hrest⟩
      intro q hq address hboth
      have hlow := (payload_bounds (fun c hc => hs c (mem_cons_of_mem _ hc)) hq).1
      have hfit := ((hs b mem_cons_self).request _ hb).2
      have hp := hboth.1.2
      have hq := hboth.2.1
      dsimp only at hp
      omega

theorem spanTotal_aligned (hs : ∀ b ∈ blocks, b.WellSized) : spanTotal blocks%16 = 0 := by
  induction blocks with
  | nil => rfl
  | cons b blocks ih =>
    have hb := (hs b mem_cons_self).aligned
    have hrest := ih fun c hc => hs c (mem_cons_of_mem _ hc)
    rw [spanTotal_cons]
    omega

end Payloads

/-! ## Blocks after a call -/

def PoolBlock.Separate (b c : PoolBlock) : Prop := ¬(b.isFree = true ∧ c.isFree = true)

variable {before after blocks : List PoolBlock} {b : PoolBlock}

section Blocks

variable {span gen : ℕ}

theorem requestedTotal_of_free (h : ∀ b ∈ blocks, b.isFree = true) : requestedTotal blocks = 0 := by
  induction blocks with
  | nil => rfl
  | cons b blocks ih =>
    rw [requestedTotal_cons,requested_eq_none_of_isFree (h b mem_cons_self),
      ih fun c hc => h c (mem_cons_of_mem _ hc)]
    rfl

theorem allocatedCount_of_free (h : ∀ b ∈ blocks, b.isFree = true) : allocatedCount blocks = 0 := by
  rw [allocatedCount,countP_eq_zero]
  intro b hb
  simp [h b hb]

theorem freedBlocks_cases (before : List PoolBlock) (span gen : ℕ) (after : List PoolBlock) :
    ∃ front left right back, before = front ++ left ∧ after = right ++ back ∧
      (∀ c ∈ left, c.isFree = true) ∧ (∀ c ∈ right, c.isFree = true) ∧
      (left = [] → ∀ c ∈ before.getLast?, c.isFree = false) ∧
      (right = [] → ∀ c ∈ after.head?, c.isFree = false) ∧
      freedBlocks before span gen after =
        front ++ ⟨spanTotal left+(span+spanTotal right),gen,none⟩ :: back := by
  obtain ⟨right,back,hafter,hright,hrightNil,hmergeAfter⟩ := mergeAfter_cases span after
  obtain ⟨front,left,hbefore,hleft,hleftNil,hmergeBefore⟩ := mergeBefore_cases before
  refine ⟨front,left,right,back,hbefore,hafter,hleft,hright,hleftNil,hrightNil,?_⟩
  rw [freedBlocks,hmergeAfter,hmergeBefore]

theorem spanTotal_freedBlocks : spanTotal (freedBlocks before span gen after) =
    spanTotal before+span+spanTotal after := by
  obtain ⟨front,left,right,back,rfl,rfl,-,-,-,-,hfreed⟩ :=
    freedBlocks_cases before span gen after
  rw [hfreed]
  simp only [spanTotal_append,spanTotal_cons]
  omega

theorem requestedTotal_freedBlocks : requestedTotal (freedBlocks before span gen after) =
    requestedTotal before+requestedTotal after := by
  obtain ⟨front,left,right,back,rfl,rfl,hleft,hright,-,-,hfreed⟩ :=
    freedBlocks_cases before span gen after
  rw [hfreed]
  simp [requestedTotal_of_free hleft,requestedTotal_of_free hright]

theorem allocatedCount_freedBlocks : allocatedCount (freedBlocks before span gen after) =
    allocatedCount before+allocatedCount after := by
  obtain ⟨front,left,right,back,rfl,rfl,hleft,hright,-,-,hfreed⟩ :=
    freedBlocks_cases before span gen after
  rw [hfreed]
  simp [allocatedCount_of_free hleft,allocatedCount_of_free hright,PoolBlock.isFree]

theorem payloads_freedBlocks : payloads base 0 (freedBlocks before span gen after) =
      payloads base 0 before ++ payloads base (spanTotal before+span) after := by
  obtain ⟨front,left,right,back,rfl,rfl,hleft,hright,-,-,hfreed⟩ :=
    freedBlocks_cases before span gen after
  rw [hfreed,payloads_append,payloads_append,payloads_append,payloads_cons_free rfl,
    payloads_of_free hleft,payloads_of_free hright,append_nil,nil_append,
    spanTotal_append]
  dsimp only
  congr 2
  omega

theorem payloads_mergeAfter :
    payloads base (off+(mergeAfter span after).1) (mergeAfter span after).2 =
      payloads base (off+span) after := by
  obtain ⟨right,back,rfl,hright,-,hmerge⟩ := mergeAfter_cases span after
  rw [hmerge,payloads_append,payloads_of_free hright,nil_append,Nat.add_assoc]

theorem payloads_mergeBefore :
    payloads base 0 (mergeBefore before span).1 = payloads base 0 before := by
  obtain ⟨front,left,rfl,hleft,-,hmerge⟩ := mergeBefore_cases before
  rw [hmerge,payloads_append,payloads_of_free hleft,append_nil]

theorem mem_of_mem_mergeAfter (h : b ∈ (mergeAfter span after).2) : b ∈ after := by
  obtain ⟨right,back,rfl,-,-,hmerge⟩ := mergeAfter_cases span after
  rw [hmerge] at h
  exact mem_append_right _ h

theorem mem_of_mem_mergeBefore (h : b ∈ (mergeBefore before span).1) : b ∈ before := by
  obtain ⟨front,left,rfl,-,-,hmerge⟩ := mergeBefore_cases before
  rw [hmerge] at h
  exact mem_append_left _ h

theorem sized_freedBlocks (hs : ∀ c ∈ before ++ b :: after, c.WellSized) :
    ∀ c ∈ freedBlocks before b.span gen after, c.WellSized := by
  obtain ⟨front,left,right,back,rfl,rfl,-,-,-,-,hfreed⟩ :=
    freedBlocks_cases before b.span gen after
  rw [hfreed]
  intro c hc
  rw [mem_append,mem_cons] at hc
  rcases hc with hc | rfl | hc
  · exact hs c (by simp [hc])
  · have hb := hs b (by simp)
    have hl : spanTotal left%16 = 0 := spanTotal_aligned fun c hc => hs c (by simp [hc])
    have hr : spanTotal right%16 = 0 := spanTotal_aligned fun c hc => hs c (by simp [hc])
    have hge := hb.span_ge
    have halign := hb.aligned
    exact ⟨by dsimp only; omega,by dsimp only; omega,nofun⟩
  · exact hs c (by simp [hc])

theorem separate_freedBlocks (hapart : (before ++ b :: after).IsChain PoolBlock.Separate) :
    (freedBlocks before span gen after).IsChain PoolBlock.Separate := by
  obtain ⟨front,left,right,back,rfl,rfl,hleft,hright,hleftNil,hrightNil,hfreed⟩ :=
    freedBlocks_cases before span gen after
  rw [hfreed]
  simp only [isChain_append,isChain_cons] at hapart ⊢
  obtain ⟨⟨hfront,-,hcross⟩,⟨-,-,hback,hcross'⟩,-⟩ := hapart
  have hlast : ∀ c ∈ front.getLast?, c.isFree = false := by
    intro c hc
    cases left with
    | nil => exact hleftNil rfl c (by simpa using hc)
    | cons d left =>
      have hsep := hcross c hc d rfl
      have hd := hleft d mem_cons_self
      exact Bool.eq_false_iff.mpr fun hfree => hsep ⟨hfree,hd⟩
  have hhead : ∀ c ∈ back.head?, c.isFree = false := by
    intro c hc
    rcases eq_nil_or_concat right with rfl | ⟨right,d,rfl⟩
    · exact hrightNil rfl c (by simpa using hc)
    · have hsep := hcross' d (by simp) c hc
      have hd := hright d (by simp)
      exact Bool.eq_false_iff.mpr fun hfree => hsep ⟨hd,hfree⟩
  refine ⟨hfront,⟨?_,hback⟩,?_⟩
  · intro c hc hboth
    rw [hhead c hc] at hboth
    exact Bool.false_ne_true hboth.2
  · intro c hc d _ hboth
    rw [hlast c hc] at hboth
    exact Bool.false_ne_true hboth.1

theorem fragment_freedBlocks (hwhole : ∀ c ∈ before ++ b :: after, ¬c.IsFragment) :
    (∃ c ∈ freedBlocks before b.span gen after, c.IsFragment) ↔
      ¬(96 ≤ b.span ∨ (∃ c ∈ after.head?, c.isFree = true) ∨
        ∃ c ∈ before.getLast?, c.isFree = true) := by
  obtain ⟨front,left,right,back,rfl,rfl,hleft,hright,hleftNil,hrightNil,hfreed⟩ :=
    freedBlocks_cases before b.span gen after
  rw [hfreed]
  -- A free neighbour is no fragment, so that the joined block is none.
  have hlarge : ∀ blocks : List PoolBlock, (∀ c ∈ blocks, c.isFree = true) →
      (∀ c ∈ blocks, ¬c.IsFragment) → blocks ≠ [] → 96 ≤ spanTotal blocks := by
    intro blocks hfree hnone hne
    cases blocks with
    | nil => exact absurd rfl hne
    | cons c rest =>
      have hc : ¬c.span < 96 := fun hlt => hnone c mem_cons_self ⟨hfree c mem_cons_self,hlt⟩
      rw [spanTotal_cons]
      omega
  have hleftLarge := hlarge left hleft fun c hc => hwhole c (by simp [hc])
  have hrightLarge := hlarge right hright fun c hc => hwhole c (by simp [hc])
  constructor
  · rintro ⟨c,hc,hfragment⟩ hclean
    rw [mem_append,mem_cons] at hc
    rcases hc with hc | rfl | hc
    · exact hwhole c (by simp [hc]) hfragment
    · have hspan : spanTotal left+(b.span+spanTotal right) < 96 := hfragment.2
      have hl : left = [] := by
        by_contra hne
        have := hleftLarge hne
        omega
      have hr : right = [] := by
        by_contra hne
        have := hrightLarge hne
        omega
      rcases hclean with h | ⟨c,hc,hfree⟩ | ⟨c,hc,hfree⟩
      · omega
      · rw [hrightNil hr c hc] at hfree
        cases hfree
      · rw [hleftNil hl c hc] at hfree
        cases hfree
    · exact hwhole c (by simp [hc]) hfragment
  · intro hclean
    refine ⟨_,mem_append_right _ mem_cons_self,rfl,?_⟩
    have hspan : b.span < 96 := by
      by_contra h
      exact hclean (.inl (by omega))
    have hl : left = [] := by
      by_contra hne
      refine hclean (.inr (.inr ⟨left.getLast hne,?_,hleft _ (getLast_mem hne)⟩))
      rw [getLast?_append_of_ne_nil _ hne,getLast?_eq_getLast_of_ne_nil hne]
      rfl
    have hr : right = [] := by
      by_contra hne
      refine hclean (.inr (.inl ⟨right.head hne,?_,hright _ (head_mem hne)⟩))
      rw [head?_append_of_ne_nil _ hne,head?_eq_some_head hne]
      rfl
    subst hl hr
    simpa using hspan

theorem spanTotal_takenBlocks (h : required ≤ span) :
    spanTotal (takenBlocks span required gen size) = span := by
  rw [takenBlocks]
  split
  · simp only [spanTotal_cons,spanTotal_nil]
    omega
  · simp

theorem requestedTotal_takenBlocks :
    requestedTotal (takenBlocks span required gen size) = size := by
  rw [takenBlocks]
  split <;> simp [requestedTotal]

theorem allocatedCount_takenBlocks : allocatedCount (takenBlocks span required gen size) = 1 := by
  rw [takenBlocks]
  split <;> simp [allocatedCount,PoolBlock.isFree]

theorem payloads_takenBlocks : payloads base off (takenBlocks span required gen size) =
      [⟨base+off+64,size⟩] := by
  rw [takenBlocks]
  split <;> rfl

theorem sized_takenBlocks (hspan : span%16 = 0) (hrequired : required%16 = 0)
    (hle : required ≤ span) (hpos : 0 < size) (hfit : size+72 ≤ required) :
    ∀ c ∈ takenBlocks span required gen size, c.WellSized := by
  rw [takenBlocks]
  split
  · intro c hc
    simp only [mem_cons,not_mem_nil,or_false] at hc
    rcases hc with rfl | rfl
    · refine ⟨by dsimp only; omega,hrequired,?_⟩
      intro size' hsize'
      cases hsize'
      exact ⟨hpos,hfit⟩
    · exact ⟨by dsimp only; omega,by dsimp only; omega,fun size' hsize' => by cases hsize'⟩
  · intro c hc
    rw [mem_singleton] at hc
    subst hc
    refine ⟨by dsimp only; omega,hspan,?_⟩
    intro size' hsize'
    cases hsize'
    exact ⟨hpos,hfit.trans hle⟩

theorem whole_takenBlocks : ∀ c ∈ takenBlocks span required gen size, ¬c.IsFragment := by
  rw [takenBlocks]
  split
  · intro c hc hfragment
    simp only [mem_cons,not_mem_nil,or_false] at hc
    rcases hc with rfl | rfl
    · exact Bool.false_ne_true hfragment.1
    · have := hfragment.2
      dsimp only at this
      omega
  · intro c hc hfragment
    rw [mem_singleton] at hc
    subst hc
    exact Bool.false_ne_true hfragment.1

theorem separate_takenBlocks (hb : b.isFree = true)
    (hapart : (before ++ b :: after).IsChain PoolBlock.Separate) :
    (before ++ (takenBlocks b.span required gen size ++ after)).IsChain
      PoolBlock.Separate := by
  simp only [isChain_append,isChain_cons] at hapart
  obtain ⟨hbefore,⟨hnext,hafter⟩,-⟩ := hapart
  have htaken : ∀ span rest, rest.IsChain PoolBlock.Separate →
      (before ++ ⟨span,gen,some size⟩ :: rest).IsChain PoolBlock.Separate := by
    intro span rest hrest
    simp only [isChain_append,isChain_cons]
    refine ⟨hbefore,⟨?_,hrest⟩,?_⟩
    · intro c _ hboth
      exact Bool.false_ne_true hboth.1
    · intro c _ d hd hboth
      cases hd
      exact Bool.false_ne_true hboth.2
  rw [takenBlocks]
  split
  · refine htaken _ (_ :: after) (isChain_cons.mpr ⟨?_,hafter⟩)
    intro c hc hboth
    exact hnext c hc ⟨hb,hboth.2⟩
  · exact htaken _ _ hafter

end Blocks

/-! ## The invariant -/

/-- Storage that `zi_pool_initialise` accepts. -/
structure PoolArena.Usable (arena : PoolArena) : Prop where
  address_ne_zero : arena.address ≠ 0
  address_aligned : arena.address%16 = 0
  size_aligned : arena.size%16 = 0
  size_ge : 96 ≤ arena.size

variable {arena : PoolArena}

/-- The pool on `arena` consists of `blocks`. -/
structure PoolState.Holds (arena : PoolArena) (s : PoolState) (blocks : List PoolBlock) :
    Prop where
  structSize : s.pool.structSize = poolStructSize
  version : s.pool.version = ziPoolVersion
  address : s.pool.arena = arena.address
  size : s.pool.arenaSize = arena.size
  cookie : s.pool.cookie = calculatePoolCookie s.pool.arena s.pool.arenaSize
  generation : 0 < s.pool.generation
  peak : s.pool.allocatedBytes ≤ s.pool.peakAllocatedBytes
  count : s.pool.activeAllocations = allocatedCount blocks
  bytes : s.pool.allocatedBytes = requestedTotal blocks
  tiles : Tiles s.pool.cookie s.arena 0 0 blocks
  sized : ∀ b ∈ blocks, b.WellSized
  total : spanTotal blocks = s.pool.arenaSize
  apart : blocks.IsChain PoolBlock.Separate

namespace PoolState.Holds

variable {s : PoolState}

section

variable (husable : arena.Usable)

include husable

section

variable (h : s.Holds arena blocks)

include h

theorem size_bound : s.pool.arenaSize+16 ≤ uint64Max+1 := by
  have hfits := arena.fits
  have hne := husable.address_ne_zero
  have halign := husable.address_aligned
  have hmax := uint64Max_eq
  rw [h.size]
  omega

omit husable in
theorem length_le : blocks.length ≤ s.pool.arenaSize := by
  rw [← h.total]
  have hs := h.sized
  clear h
  induction blocks with
  | nil => exact le_rfl
  | cons b blocks ih =>
    have hspan := (hs b mem_cons_self).span_ge
    have hrest := ih fun c hc => hs c (mem_cons_of_mem _ hc)
    rw [length_cons,spanTotal_cons]
    omega

theorem descriptor_ok : poolDescriptorValidate s.pool = .ok () := by
  have haddress := husable.address_ne_zero
  have halign := husable.address_aligned
  have hsize := husable.size_aligned
  have hge := husable.size_ge
  have hgen := h.generation
  have hpeak := h.peak
  have hcookie := h.cookie
  rw [← h.address] at haddress halign
  rw [← h.size] at hsize hge
  simp only [poolDescriptorValidate,poolHeaderSize,ziPoolTailSize,ziPoolAlignment]
  rw [if_neg,if_neg]
  · rintro (hne | hzero | hlt)
    · exact hne hcookie
    · omega
    · omega
  · rintro (hne | hne | hzero | hodd | hodd | hlt)
    · exact hne h.structSize
    · exact hne h.version
    · exact haddress hzero
    · exact hodd halign
    · exact hodd hsize
    · omega

theorem validate_cases : (∀ b ∈ blocks, ¬b.IsFragment) ∧ ziPoolValidate s = .ok () ∨
    (∃ b ∈ blocks, b.IsFragment) ∧ ziPoolValidate s = .error .memoryCorruption := by
  have hbound := h.size_bound husable
  have hbytes := requestedTotal_le h.sized
  rw [h.total] at hbytes
  rw [ziPoolValidate,h.descriptor_ok husable]
  rw [poolScan]
  rcases poolScanLoop_tiles h.sized h.tiles (by rw [h.total,Nat.zero_add]) h.length_le
    (by omega) (show (⟨s.pool.arenaSize,0,0,0,0,0,s.pool.peakAllocatedBytes,
      s.pool.generation⟩ : ZiPoolStatistics).allocatedBytes+_ ≤ _ by dsimp only; omega) with
    ⟨hwhole,done,hscan,halloc,hcount⟩ | ⟨hfragment,hscan⟩
  · rw [hscan]
    dsimp only at halloc hcount ⊢
    refine .inl ⟨hwhole,?_⟩
    rw [halloc,hcount,h.count,h.bytes,if_neg (by simp)]
  · rw [hscan]
    exact .inr ⟨hfragment,rfl⟩

theorem validate_ok (hwhole : ∀ b ∈ blocks, ¬b.IsFragment) : ziPoolValidate s = .ok () := by
  rcases h.validate_cases husable with ⟨-,hok⟩ | ⟨⟨b,hb,hfragment⟩,-⟩
  · exact hok
  · exact absurd hfragment (hwhole b hb)

theorem validate_fragment (hb : b ∈ blocks)
    (hfragment : b.IsFragment) : ziPoolValidate s = .error .memoryCorruption := by
  rcases h.validate_cases husable with ⟨hwhole,-⟩ | ⟨-,herror⟩
  · exact absurd hfragment (hwhole b hb)
  · exact herror

end

end

end PoolState.Holds

variable {s : PoolState}

theorem ziPoolInitialise_holds (h : ziPoolInitialise arena = .ok s) :
    arena.Usable ∧ s.Holds arena [⟨arena.size,1,none⟩] ∧ s.pool.generation = 1 := by
  have hfits := arena.fits
  rw [ziPoolInitialise,allocationSpan_alignment] at h
  simp only [ziPoolAlignment] at h
  split at h
  · cases h
  next hargument =>
  split at h
  · cases h
  next hsize =>
  have husable : arena.Usable := ⟨by omega,by omega,by omega,by omega⟩
  let cookie := calculatePoolCookie arena.address arena.size
  have hat : (⟨arena.size,1,none⟩ : PoolBlock).At cookie
      (initialiseFreeBlock cookie (zeroBytes arena.bytes 0 arena.size) 0 arena.size 0 1) 0 0 := by
    apply initialiseFreeBlock_at (by omega) (by decide) (by decide)
    intro i _ hi
    rw [zeroBytes_apply,if_pos (by omega)]
  cases h
  refine ⟨husable,?_,rfl⟩
  refine ⟨rfl,rfl,rfl,rfl,rfl,Nat.one_pos,le_rfl,rfl,rfl,⟨hat,trivial⟩,?_,?_,?_⟩
  · intro b hb
    rw [mem_singleton] at hb
    subst hb
    exact ⟨by dsimp only; omega,by dsimp only; omega,nofun⟩
  · exact Nat.add_zero _
  · exact isChain_singleton _

/-! ## Calls -/

/-- The pool after `size` bytes were taken from the free block `b`. -/
structure PoolState.Took (arena : PoolArena) (s : PoolState) (before : List PoolBlock)
    (b : PoolBlock) (after : List PoolBlock) (required size : ℕ) (s' : PoolState) : Prop where
  holds : s'.Holds arena
    (before ++ (takenBlocks b.span required s'.pool.generation size ++ after))
  generation : s'.pool.generation = s.pool.generation+1
  zero : ∀ i < size, s'.arena (spanTotal before+64+i) = 0
  same : ∀ i, i < spanTotal before ∨ spanTotal before+b.span+64 ≤ i → s'.arena i = s.arena i

/-- The pool after the block `b` was given back. -/
structure PoolState.Gave (arena : PoolArena) (s : PoolState) (before : List PoolBlock)
    (b : PoolBlock) (after : List PoolBlock) (s' : PoolState) : Prop where
  holds : s'.Holds arena (freedBlocks before b.span s'.pool.generation after)
  generation : s'.pool.generation = s.pool.generation+1
  same : ∀ i, i < spanTotal (mergeBefore before (mergeAfter b.span after).1).1 ∨
    spanTotal before+(mergeAfter b.span after).1+64 ≤ i → s'.arena i = s.arena i

namespace PoolState.Holds

theorem took (husable : arena.Usable) (h : s.Holds arena (before ++ b :: after))
    (hfree : b.isFree = true) (hspan : allocationSpan size = .ok required)
    (hfit : required ≤ b.span) (hgen : s.pool.generation < uint64Max) :
    s.Took arena before b after required size
      { pool :=
          { s.pool with
            generation := s.pool.generation+1
            activeAllocations := s.pool.activeAllocations+1
            allocatedBytes := s.pool.allocatedBytes+size
            peakAllocatedBytes := max s.pool.peakAllocatedBytes (s.pool.allocatedBytes+size) }
        arena := takeBlock { s.pool with generation := s.pool.generation+1 } s.arena
          (spanTotal before) size required 96 } := by
  have hmax := uint64Max_eq
  have hbound := h.size_bound husable
  obtain ⟨hpos,hrequired⟩ := allocationSpan_ok hspan
  have hnone := requested_eq_none_of_isFree hfree
  let pool : ZiPool := { s.pool with generation := s.pool.generation+1 }
  obtain ⟨htiles,hzero,hsame⟩ :
      Tiles pool.cookie (takeBlock pool s.arena (spanTotal before) size required 96) 0 0
          (before ++ (takenBlocks b.span required pool.generation size ++ after)) ∧ _ ∧ _ :=
    takeBlock_spec (by dsimp only [pool]; omega) (by dsimp only [pool]; omega) h.sized h.tiles
      h.total hnone (by omega) (by omega) hfit
  have hcount := h.count
  have hbytes := h.bytes
  have htotal := h.total
  rw [allocatedCount_append,allocatedCount_cons,hfree] at hcount
  rw [requestedTotal_append,requestedTotal_cons,hnone] at hbytes
  rw [spanTotal_append,spanTotal_cons] at htotal
  refine ⟨?_,rfl,hzero,hsame⟩
  refine ⟨h.structSize,h.version,h.address,h.size,h.cookie,Nat.succ_pos _,
    le_max_right _ _,?_,?_,htiles,?_,?_,separate_takenBlocks hfree h.apart⟩
  · rw [allocatedCount_append,allocatedCount_append,allocatedCount_takenBlocks]
    dsimp only
    simp only [if_true] at hcount
    omega
  · rw [requestedTotal_append,requestedTotal_append,requestedTotal_takenBlocks]
    dsimp only
    rw [Option.getD_none] at hbytes
    omega
  · intro c hc
    rw [mem_append,mem_append] at hc
    rcases hc with hc | hc | hc
    · exact h.sized c (by simp [hc])
    · exact sized_takenBlocks (h.sized b (by simp)).aligned (by omega) hfit hpos (by omega) c hc
    · exact h.sized c (by simp [hc])
  · rwa [spanTotal_append,spanTotal_append,spanTotal_takenBlocks hfit]

theorem search (h : s.Holds arena blocks) (required : ℕ) :
    findFreeBlock s.pool s.arena required s.pool.arenaSize 0 = none ∧
      (∀ b ∈ blocks, ¬(b.isFree = true ∧ required ≤ b.span)) ∨
    ∃ before b after, blocks = before ++ b :: after ∧ b.isFree = true ∧ required ≤ b.span ∧
      findFreeBlock s.pool s.arena required s.pool.arenaSize 0 = some (spanTotal before) := by
  simpa only [Nat.zero_add] using
    findFreeBlock_tiles h.sized h.tiles (by rw [h.total,Nat.zero_add]) h.length_le

theorem allocate_of_fit (husable : arena.Usable) (h : s.Holds arena blocks)
    (hwhole : ∀ b ∈ blocks, ¬b.IsFragment) (hgen : s.pool.generation < uint64Max)
    (hspan : allocationSpan size = .ok required)
    (hfit : ∃ b ∈ blocks, b.isFree = true ∧ required ≤ b.span) :
    ∃ before b after s', blocks = before ++ b :: after ∧ b.isFree = true ∧ required ≤ b.span ∧
      ziPoolAllocate s size = (.ok (arena.address+spanTotal before+64), s') ∧
      s.Took arena before b after required size s' := by
  have hbound := h.size_bound husable
  obtain ⟨hpos,hrequired⟩ := allocationSpan_ok hspan
  rcases h.search required with
    ⟨-,hall⟩ | ⟨before,b,after,rfl,hfree,hle,hfind⟩
  · obtain ⟨b,hb,hserves⟩ := hfit
    exact absurd hserves (hall b hb)
  · refine ⟨before,b,after,_,rfl,hfree,hle,?_,h.took husable hfree hspan hle hgen⟩
    have hnone := requested_eq_none_of_isFree hfree
    have hlen := h.length_le
    have hcount := h.count
    have hactive : s.pool.activeAllocations ≤ s.pool.arenaSize := by
      rw [hcount,allocatedCount]
      exact countP_le_length.trans hlen
    have hroom : s.pool.allocatedBytes+size ≤ uint64Max := by
      have htotal := h.total
      have hrest : requestedTotal (before ++ after) ≤ spanTotal (before ++ after) :=
        requestedTotal_le fun c hc => h.sized c (by
          rw [mem_append] at hc
          rcases hc with hc | hc <;> simp [hc])
      have hold := h.bytes
      simp only [requestedTotal_append,requestedTotal_cons,hnone,Option.getD_none,
        spanTotal_append,spanTotal_cons] at htotal hrest hold
      omega
    rw [ziPoolAllocate,if_neg (by omega),h.validate_ok husable hwhole,hspan,
      allocationSpan_alignment]
    dsimp only
    rw [hfind]
    dsimp only
    rw [if_neg (by omega),nextGeneration,if_neg (by omega)]
    simp only [h.address,poolHeaderSize]

theorem allocate (husable : arena.Usable) (h : s.Holds arena blocks)
    (hwhole : ∀ b ∈ blocks, ¬b.IsFragment) (hgen : s.pool.generation < uint64Max) (size : ℕ) :
    (∃ status, status ≠ .memoryCorruption ∧ ziPoolAllocate s size = (.error status, s)) ∨
    ∃ before b after required s', blocks = before ++ b :: after ∧ b.isFree = true ∧
      allocationSpan size = .ok required ∧ required ≤ b.span ∧
      ziPoolAllocate s size = (.ok (arena.address+spanTotal before+64), s') ∧
      s.Took arena before b after required size s' := by
  by_cases hzero : size = 0
  · exact .inl ⟨.invalidArgument,by decide,by rw [ziPoolAllocate,if_pos hzero]⟩
  cases hspan : allocationSpan size with
  | error status =>
    refine .inl ⟨status,?_,?_⟩
    · rw [allocationSpan] at hspan
      split at hspan
      · cases hspan
        decide
      · simp only at hspan
        split at hspan
        · cases hspan
          decide
        · cases hspan
    · rw [ziPoolAllocate,if_neg hzero,h.validate_ok husable hwhole,hspan]
  | ok required =>
    by_cases hfit : ∃ b ∈ blocks, b.isFree = true ∧ required ≤ b.span
    · obtain ⟨before,b,after,s',hsplit,hfree,hle,hres,htook⟩ :=
        h.allocate_of_fit husable hwhole hgen hspan hfit
      exact .inr ⟨before,b,after,required,s',hsplit,hfree,rfl,hle,hres,htook⟩
    · refine .inl ⟨.noMemory,by decide,?_⟩
      rcases h.search required with
        ⟨hnone,-⟩ | ⟨before,b,after,rfl,hfree,hle,-⟩
      · rw [ziPoolAllocate,if_neg hzero,h.validate_ok husable hwhole,hspan,allocationSpan_alignment]
        dsimp only
        rw [hnone]
      · exact absurd ⟨b,by simp,hfree,hle⟩ hfit

theorem free (husable : arena.Usable) (h : s.Holds arena (before ++ b :: after))
    (hwhole : ∀ c ∈ before ++ b :: after, ¬c.IsFragment) (hgen : s.pool.generation < uint64Max)
    (hb : b.requested = some size) :
    ∃ s', ziPoolFree s (arena.address+spanTotal before+64) = (.ok (), s') ∧
      s.Gave arena before b after s' := by
  have hmax := uint64Max_eq
  have hbound := h.size_bound husable
  have hge := (h.sized b (by simp)).span_ge
  have halign : spanTotal before%16 = 0 := spanTotal_aligned fun c hc => h.sized c (by simp [hc])
  have haddress := husable.address_aligned
  have halloc : b.isFree = false := by simp [PoolBlock.isFree,hb]
  have hcount := h.count
  have hbytes := h.bytes
  have htotal := h.total
  rw [allocatedCount_append,allocatedCount_cons,halloc,if_neg (by decide)] at hcount
  rw [requestedTotal_append,requestedTotal_cons,hb,Option.getD_some] at hbytes
  rw [spanTotal_append,spanTotal_cons] at htotal
  obtain ⟨hat,-⟩ := tiles_cons.mp (tiles_append.mp h.tiles).2
  rw [Nat.zero_add] at hat
  have hfind : findAllocation s.pool s.arena (arena.address+spanTotal before+64)
      s.pool.arenaSize 0 = some (spanTotal before) := by
    rw [← Nat.zero_add (spanTotal before),← h.address]
    exact findAllocation_tiles h.sized h.tiles (by rw [h.total,Nat.zero_add]) h.length_le rfl
  have hstate : (loadBlock s.arena (spanTotal before)).state = ziPoolBlockAllocated := by
    rw [hat.header,PoolBlock.header_state,halloc]
    rfl
  have hreq : (loadBlock s.arena (spanTotal before)).requestedSize = size := by
    rw [hat.header,PoolBlock.header_requestedSize,hb]
    rfl
  let pool : ZiPool :=
    { s.pool with
      generation := s.pool.generation+1
      allocatedBytes := s.pool.allocatedBytes-size
      activeAllocations := s.pool.activeAllocations-1 }
  obtain ⟨htiles,hsame⟩ : Tiles pool.cookie (releaseBlock pool s.arena (spanTotal before)) 0 0
        (freedBlocks before b.span pool.generation after) ∧ _ :=
    releaseBlock_spec (by dsimp only [pool]; omega) (by dsimp only [pool]; omega) h.sized h.tiles
      h.total
  refine ⟨⟨pool,releaseBlock pool s.arena (spanTotal before)⟩,?_,?_,rfl,hsame⟩
  · rw [ziPoolFree,if_neg (by omega),h.validate_ok husable hwhole]
    rw [if_neg (by simp only [h.address,poolHeaderSize,ziPoolAlignment]; omega),hfind]
    dsimp only
    rw [hstate,hreq,if_neg (by decide),if_neg (by simp only [ne_eq,not_true,false_or]; omega),
      nextGeneration,if_neg (by omega)]
  · refine ⟨h.structSize,h.version,h.address,h.size,h.cookie,Nat.succ_pos _,
      (Nat.sub_le _ _).trans h.peak,?_,?_,htiles,sized_freedBlocks h.sized,?_,
      separate_freedBlocks h.apart⟩
    · rw [allocatedCount_freedBlocks]
      dsimp only [pool]
      omega
    · rw [requestedTotal_freedBlocks]
      dsimp only [pool]
      omega
    · rw [spanTotal_freedBlocks]
      dsimp only [pool]
      omega

end PoolState.Holds

end Zizium
