import Zizium.Mm.PoolInvariant

/-!
# Runs of a pool

A client allocates, frees what it holds and writes inside the payloads it was given.

The smallest request takes a block of 80 bytes, but `pool_scan` accepts a free block only from 96
bytes on.  Giving an 80 byte block back corrupts the pool when it joins no free neighbour.
-/

namespace Zizium

open Bytes List

/-- A pool and what its client holds. -/
structure PoolHistory where
  state : PoolState
  live : List PoolAllocation

/-- What a client does: the two calls, and a byte written to its memory. -/
inductive PoolCall where
  | allocate (size : ℕ)
  | free (allocation : ℕ)
  | write (address : ℕ) (value : UInt8)

def PoolState.byteAt (s : PoolState) (address : ℕ) : UInt8 := s.arena (address-s.pool.arena)

namespace PoolHistory

/-- The client frees what it holds and writes inside its payloads. -/
def Legal (h : PoolHistory) : PoolCall → Prop
  | .allocate _ => True
  | .free allocation => ∃ p ∈ h.live, p.address = allocation
  | .write address _ => ∃ p ∈ h.live, p.Covers address

def step (h : PoolHistory) : PoolCall → PoolHistory
  | .allocate size =>
    match ziPoolAllocate h.state size with
    | (.ok address, state) => ⟨state,⟨address,size⟩ :: h.live⟩
    | (.error _, state) => ⟨state,h.live⟩
  | .free allocation =>
    match ziPoolFree h.state allocation with
    | (.ok (), state) => ⟨state,h.live.filter fun p => p.address ≠ allocation⟩
    | (.error _, state) => ⟨state,h.live⟩
  | .write address value =>
    ⟨{ h.state with arena := h.state.arena.put (address-h.state.pool.arena) [value] },h.live⟩

/-- What a pool promises in every state. -/
structure Sound (arena : PoolArena) (h : PoolHistory) : Prop where
  validates : ziPoolValidate h.state = .ok ()
  tiled : ∃ blocks, Tiles h.state.pool.cookie h.state.arena 0 0 blocks ∧
    spanTotal blocks = arena.size ∧ blocks.IsChain PoolBlock.Separate ∧
    (h.live = [] → ∃ generation, blocks = [⟨arena.size,generation,none⟩])
  apart : h.live.Pairwise PoolAllocation.Apart
  inside : ∀ p ∈ h.live, arena.address ≤ p.address ∧ p.address+p.size ≤ arena.address+arena.size
  aligned : ∀ p ∈ h.live, p.address%ziPoolAlignment = 0

def Keeps (h : PoolHistory) (p : PoolAllocation) (s : PoolState) : Prop :=
  ∀ address, p.Covers address → s.byteAt address = h.state.byteAt address

/-- What a pool promises of every call: no report of corruption, zeroed payloads, frees that
succeed, and the contents of the other allocations untouched. -/
def Answers (h : PoolHistory) : PoolCall → Prop
  | .allocate size =>
    (ziPoolAllocate h.state size).1 ≠ .error .memoryCorruption ∧
      (∀ address, (ziPoolAllocate h.state size).1 = .ok address →
        ∀ i < size, (ziPoolAllocate h.state size).2.byteAt (address+i) = 0) ∧
      ∀ p ∈ h.live, h.Keeps p (ziPoolAllocate h.state size).2
  | .free allocation =>
    (ziPoolFree h.state allocation).1 = .ok () ∧
      ∀ p ∈ h.live, p.address ≠ allocation → h.Keeps p (ziPoolFree h.state allocation).2
  | .write _ _ => True

/-- Every step of the run is one the client may take. -/
def LegalRun (h : PoolHistory) : List PoolCall → Prop
  | [] => True
  | call :: calls => h.Legal call ∧ (h.step call).LegalRun calls

/-- The pool keeps its promises throughout the run. -/
def SafeRun (arena : PoolArena) (h : PoolHistory) : List PoolCall → Prop
  | [] => h.Sound arena
  | call :: calls => h.Sound arena ∧ h.Answers call ∧ (h.step call).SafeRun arena calls

end PoolHistory

def PoolCall.isCall : PoolCall → Bool
  | .allocate _ => true
  | .free _ => true
  | .write _ _ => false

def PoolState.FreesWhole (s : PoolState) (allocation : ℕ) : Prop :=
  let offset := allocation-s.pool.arena-poolHeaderSize
  let block := loadBlock s.arena offset
  96 ≤ block.span ∨
    (∃ following ∈ nextBlock s.pool block offset,
      (loadBlock s.arena following).state = ziPoolBlockFree) ∨
    ∃ preceding ∈ previousBlock block offset,
      (loadBlock s.arena preceding).state = ziPoolBlockFree

/-- Every block that the run frees can be given back. -/
def PoolHistory.FreesWholeRun (h : PoolHistory) : List PoolCall → Prop
  | [] => True
  | call :: calls =>
    (∀ allocation, call = .free allocation → h.state.FreesWhole allocation) ∧
      (h.step call).FreesWholeRun calls

/-! ## Steps -/

/-- The pool consists of blocks, and the client holds what they stand for. -/
structure PoolHistory.Describes (arena : PoolArena) (h : PoolHistory) (blocks : List PoolBlock) :
    Prop where
  holds : h.state.Holds arena blocks
  live : h.live.Perm (payloads arena.address 0 blocks)

namespace PoolHistory.Describes

variable {arena : PoolArena} {h : PoolHistory} {blocks before after : List PoolBlock}
  {b : PoolBlock} {p : PoolAllocation}

section

variable (hd : h.Describes arena blocks)

include hd

theorem block_of_live (hp : p ∈ h.live) :
    ∃ before b after, blocks = before ++ b :: after ∧ b.requested = some p.size ∧
      p.address = arena.address+spanTotal before+64 := by
  obtain ⟨before,b,after,hsplit,hb,haddress⟩ := mem_payloads.mp (hd.live.mem_iff.mp hp)
  rw [Nat.zero_add] at haddress
  exact ⟨before,b,after,hsplit,hb,haddress⟩

theorem single (husable : arena.Usable) (hlive : h.live = []) :
    ∃ gen, blocks = [⟨arena.size,gen,none⟩] := by
  have hnone : ∀ b ∈ blocks, b.requested = none := by
    intro b hb
    obtain ⟨before,after,rfl⟩ := append_of_mem hb
    cases hreq : b.requested with
    | none => rfl
    | some size =>
      have hmem : (⟨arena.address+(0+spanTotal before)+64,size⟩ : PoolAllocation) ∈ h.live :=
        hd.live.mem_iff.mpr (mem_payloads.mpr ⟨before,b,after,rfl,hreq,rfl⟩)
      rw [hlive] at hmem
      cases hmem
  have htotal := hd.holds.total
  rw [hd.holds.size] at htotal
  have hge := husable.size_ge
  have hfree : ∀ b ∈ blocks, b.isFree = true := by
    intro b hb
    rw [PoolBlock.isFree,hnone b hb]
    rfl
  have hapart := hd.holds.apart
  rcases blocks with _ | ⟨b,_ | ⟨c,rest⟩⟩
  · rw [spanTotal_nil] at htotal
    omega
  · obtain ⟨span,gen,requested⟩ := b
    have hr : requested = none := hnone _ (mem_singleton.mpr rfl)
    have hs : span = arena.size := htotal
    rw [hr,hs]
    exact ⟨gen,rfl⟩
  · have hsep := (isChain_cons_cons.mp hapart).1
    exact absurd ⟨hfree b (by simp),hfree c (by simp)⟩ hsep

theorem sound (husable : arena.Usable) (hwhole : ∀ b ∈ blocks, ¬b.IsFragment) : h.Sound arena where
  validates := hd.holds.validate_ok husable hwhole
  tiled := ⟨blocks,hd.holds.tiles,hd.holds.total.trans hd.holds.size,hd.holds.apart,
    hd.single husable⟩
  apart := (hd.live.pairwise_iff fun h => PoolAllocation.Apart.symm h).mpr
    (payloads_apart hd.holds.sized)
  inside := by
    intro p hp
    have hbounds := payload_bounds hd.holds.sized (hd.live.mem_iff.mp hp)
    have htotal := hd.holds.total
    rw [hd.holds.size] at htotal
    omega
  aligned := by
    intro p hp
    obtain ⟨before,b,after,rfl,-,haddress⟩ := hd.block_of_live hp
    have halign : spanTotal before%16 = 0 :=
      spanTotal_aligned fun c hc => hd.holds.sized c (by simp [hc])
    have hbase := husable.address_aligned
    simp only [ziPoolAlignment]
    omega

theorem not_sound (husable : arena.Usable) (hb : b ∈ blocks)
    (hfragment : b.IsFragment) : ¬h.Sound arena := by
  intro hsound
  have herror := hd.holds.validate_fragment husable hb hfragment
  rw [hsound.validates] at herror
  cases herror

theorem keeps_of_same (hlive : p ∈ h.live) {s : PoolState} {low high : ℕ}
    (hbase : s.pool.arena = arena.address)
    (hsame : ∀ i, i < low ∨ high ≤ i → s.arena i = h.state.arena i)
    (hp : p.address+p.size ≤ arena.address+low ∨ arena.address+high ≤ p.address) : h.Keeps p s := by
  intro address hcovers
  rw [PoolState.byteAt,PoolState.byteAt,hbase,hd.holds.address]
  apply hsame
  have hinside := payload_bounds hd.holds.sized (hd.live.mem_iff.mp hlive)
  have hlow := hcovers.1
  have hhigh := hcovers.2
  omega

omit hd in
theorem took (hd : h.Describes arena (before ++ b :: after)) (hfree : b.isFree = true)
    {required size : ℕ} (hfit : required ≤ b.span) {s' : PoolState}
    (htook : h.state.Took arena before b after required size s') :
    (⟨s',⟨arena.address+spanTotal before+64,size⟩ :: h.live⟩ : PoolHistory).Describes arena
      (before ++ (takenBlocks b.span required s'.pool.generation size ++ after)) := by
  refine ⟨htook.holds,?_⟩
  have hlive := hd.live
  rw [payloads_append,payloads_cons_free (requested_eq_none_of_isFree hfree),Nat.zero_add]
    at hlive
  rw [payloads_append,payloads_append,payloads_takenBlocks,spanTotal_takenBlocks hfit,Nat.zero_add]
  exact (hlive.cons _).trans perm_middle.symm

theorem allocate (husable : arena.Usable) (hwhole : ∀ b ∈ blocks, ¬b.IsFragment)
    (hgen : h.state.pool.generation < uint64Max) (size : ℕ) :
    h.Answers (.allocate size) ∧ ∃ blocks', (h.step (.allocate size)).Describes arena blocks' ∧
      (∀ b ∈ blocks', ¬b.IsFragment) ∧
      (h.step (.allocate size)).state.pool.generation ≤ h.state.pool.generation+1 := by
  rcases hd.holds.allocate husable hwhole hgen size with
    ⟨status,hstatus,hres⟩ |
      ⟨before,b,after,required,s',rfl,hfree,-,hfit,hres,htook⟩
  · rw [Answers,step,hres]
    refine ⟨⟨?_,?_,?_⟩,blocks,hd,hwhole,Nat.le_succ _⟩
    · intro heq
      exact hstatus (Except.error.inj heq)
    · nofun
    · intro p _ address _
      rfl
  · have hnone := requested_eq_none_of_isFree hfree
    have hbase := htook.holds.address
    rw [Answers,step,hres]
    refine ⟨⟨nofun,?_,?_⟩,_,hd.took hfree hfit htook,?_,htook.generation.le⟩
    · intro address haddress i hi
      cases haddress
      rw [PoolState.byteAt,hbase]
      have := htook.zero i hi
      rw [← this]
      congr 1
      omega
    · intro p hp
      apply hd.keeps_of_same hp hbase htook.same
      have hmem := hd.live.mem_iff.mp hp
      rw [payloads_append,payloads_cons_free hnone,Nat.zero_add,mem_append] at hmem
      rcases hmem with hmem | hmem
      · have := payload_bounds (fun c hc => hd.holds.sized c (by simp [hc])) hmem
        omega
      · have := payload_bounds (fun c hc => hd.holds.sized c (by simp [hc])) hmem
        omega
    · intro c hc
      rw [mem_append,mem_append] at hc
      rcases hc with hc | hc | hc
      · exact hwhole c (by simp [hc])
      · exact whole_takenBlocks c hc
      · exact hwhole c (by simp [hc])

end

theorem allocate_last (hd : h.Describes arena (before ++ [b])) (husable : arena.Usable)
    (hwhole : ∀ c ∈ before ++ [b], ¬c.IsFragment) (hgen : h.state.pool.generation < uint64Max)
    (hbefore : ∀ c ∈ before, c.isFree = false) (hfree : b.isFree = true) {size required : ℕ}
    (hspan : allocationSpan size = .ok required)
    (hfit : required ≤ b.span) : (h.step (.allocate size)).Describes arena
        (before ++ takenBlocks b.span required (h.state.pool.generation+1) size) ∧
      (h.step (.allocate size)).state.pool.generation = h.state.pool.generation+1 := by
  obtain ⟨before',b',after',s',hsplit,hfree',-,hres,htook⟩ :=
    hd.holds.allocate_of_fit husable hwhole hgen hspan ⟨b,by simp,hfree,hfit⟩
  rcases eq_nil_or_concat after' with rfl | ⟨rest,last,rfl⟩
  · obtain ⟨rfl,heq⟩ := append_inj' hsplit rfl
    cases heq
    have hdescribes := hd.took hfree hfit htook
    rw [append_nil,htook.generation] at hdescribes
    rw [step,hres]
    exact ⟨hdescribes,htook.generation⟩
  · -- A free block before the last one would be among `before`.
    rw [concat_eq_append,← cons_append,← append_assoc] at hsplit
    obtain ⟨rfl,-⟩ := append_inj' hsplit rfl
    have := hbefore b' (by simp)
    rw [hfree'] at this
    cases this

theorem live_filter (hd : h.Describes arena (before ++ b :: after)) {size : ℕ}
    (hb : b.requested = some size) :
    (h.live.filter fun p => p.address ≠ arena.address+spanTotal before+64).Perm
      (payloads arena.address 0 before ++
        payloads arena.address (spanTotal before+b.span) after) := by
  have hsized := hd.holds.sized
  have hge := (hsized b (by simp)).span_ge
  have hlive := hd.live
  rw [payloads_append,payloads_cons_allocated hb,Nat.zero_add] at hlive
  refine (hlive.filter _).trans ?_
  rw [filter_append,filter_cons_of_neg (by simp),filter_eq_self.mpr,
    filter_eq_self.mpr]
  · intro p hp
    have := payload_bounds (fun c hc => hsized c (by simp [hc])) hp
    simp only [decide_eq_true_eq]
    omega
  · intro p hp
    have := payload_bounds (fun c hc => hsized c (by simp [hc])) hp
    simp only [decide_eq_true_eq]
    omega

theorem freesWhole_iff (hd : h.Describes arena (before ++ b :: after)) :
    h.state.FreesWhole (arena.address+spanTotal before+64) ↔
      96 ≤ b.span ∨ (∃ c ∈ after.head?, c.isFree = true) ∨
        ∃ c ∈ before.getLast?, c.isFree = true := by
  obtain ⟨hfront,hback⟩ := tiles_append.mp hd.holds.tiles
  obtain ⟨hat,hrest⟩ := tiles_cons.mp hback
  rw [Nat.zero_add] at hat hrest
  have htotal := hd.holds.total
  have hsized := hd.holds.sized
  rw [spanTotal_append,spanTotal_cons] at htotal
  have hoff : arena.address+spanTotal before+64-h.state.pool.arena-64 = spanTotal before := by
    rw [hd.holds.address]
    omega
  have hfollowing : (∃ following ∈ nextBlock h.state.pool
        (loadBlock h.state.arena (spanTotal before)) (spanTotal before),
      (loadBlock h.state.arena following).state = ziPoolBlockFree) ↔
      ∃ c ∈ after.head?, c.isFree = true := by
    have hspan := hat.openAt.span
    cases after with
    | nil =>
      rw [spanTotal_nil] at htotal
      rw [nextBlock_of_last (by omega)]
      simp
    | cons c rest =>
      have hc := (hsized c (by simp)).span_ge
      rw [spanTotal_cons] at htotal
      rw [nextBlock_of_lt (by omega),hspan]
      have hstate := (tiles_cons.mp hrest).1.openAt.state_free_iff
      simpa using hstate
  have hpreceding : (∃ preceding ∈ previousBlock (loadBlock h.state.arena (spanTotal before))
        (spanTotal before), (loadBlock h.state.arena preceding).state = ziPoolBlockFree) ↔
      ∃ c ∈ before.getLast?, c.isFree = true := by
    have hprev := hat.openAt.previousSpan
    rcases eq_nil_or_concat before with rfl | ⟨front,c,rfl⟩
    · rw [previousBlock,if_pos (by rw [hprev]; rfl)]
      simp
    · rw [concat_eq_append] at *
      have hc := (hsized c (by simp)).span_ge
      have hstate := (tiles_cons.mp (tiles_append.mp hfront).2).1.openAt.state_free_iff
      rw [lastSpan_concat] at hprev
      rw [previousBlock,hprev,if_neg (by omega),if_neg (by simp),spanTotal_append,
        spanTotal_cons,spanTotal_nil,Nat.add_zero,Nat.add_sub_cancel]
      simpa using hstate
  simp only [PoolState.FreesWhole,poolHeaderSize,hoff]
  rw [hfollowing,hpreceding,hat.openAt.span]

theorem free (hd : h.Describes arena blocks) (husable : arena.Usable)
    (hwhole : ∀ b ∈ blocks, ¬b.IsFragment) (hgen : h.state.pool.generation < uint64Max)
    {allocation : ℕ} (hlegal : h.Legal (.free allocation)) :
    h.Answers (.free allocation) ∧ ∃ blocks', (h.step (.free allocation)).Describes arena blocks' ∧
      ((∃ b ∈ blocks', b.IsFragment) ↔ ¬h.state.FreesWhole allocation) ∧
      (h.step (.free allocation)).state.pool.generation ≤ h.state.pool.generation+1 := by
  obtain ⟨p,hp,rfl⟩ := hlegal
  obtain ⟨before,b,after,rfl,hb,haddress⟩ := hd.block_of_live hp
  obtain ⟨s',hres,hgave⟩ := hd.holds.free husable hwhole hgen hb
  have hbase := hgave.holds.address
  rw [Answers,step,haddress,hres]
  refine ⟨⟨rfl,?_⟩,_,⟨hgave.holds,?_⟩,?_,hgave.generation.le⟩
  · intro q hq hne
    apply hd.keeps_of_same hq hbase hgave.same
    have hmem : q ∈ h.live.filter fun p => p.address ≠ arena.address+spanTotal before+64 := by
      simpa using ⟨hq,hne⟩
    have hkept := (hd.live_filter hb).mem_iff.mp hmem
    rw [mem_append] at hkept
    rcases hkept with hkept | hkept
    · have hfront : q ∈ payloads arena.address 0
          (mergeBefore before (mergeAfter b.span after).1).1 := by
        rwa [payloads_mergeBefore]
      have := payload_bounds
        (fun c hc => hd.holds.sized c (by simp [mem_of_mem_mergeBefore hc])) hfront
      omega
    · rw [← payloads_mergeAfter] at hkept
      have := payload_bounds
        (fun c hc => hd.holds.sized c (by simp [mem_of_mem_mergeAfter hc])) hkept
      omega
  · rw [payloads_freedBlocks]
    exact hd.live_filter hb
  · rw [fragment_freedBlocks hwhole,hd.freesWhole_iff]

theorem write (hd : h.Describes arena blocks) {address : ℕ} {value : UInt8}
    (hlegal : h.Legal (.write address value)) :
    (h.step (.write address value)).Describes arena blocks := by
  obtain ⟨p,hp,hlow,hhigh⟩ := hlegal
  obtain ⟨before,b,after,rfl,hb,haddress⟩ := hd.block_of_live hp
  have hsized := hd.holds.sized
  have hfit := ((hsized b (by simp)).request _ hb).2
  have hbase := hd.holds.address
  obtain ⟨hfront,hback⟩ := tiles_append.mp hd.holds.tiles
  obtain ⟨hat,hrest⟩ := tiles_cons.mp hback
  rw [Nat.zero_add] at hat hrest
  have hsame : ∀ i, i < spanTotal before+64 ∨ spanTotal before+64+p.size ≤ i →
      h.state.arena.put (address-h.state.pool.arena) [value] i = h.state.arena i := by
    intro i hi
    rcases hi with hi | hi
    · exact Mem.put_of_lt (by omega)
    · exact Mem.put_of_ge (by rw [length_singleton]; omega)
  refine ⟨?_,hd.live⟩
  obtain ⟨h1,h2,h3,h4,h5,h6,h7,h8,h9,-,h11,h12,h13⟩ := hd.holds
  refine ⟨h1,h2,h3,h4,h5,h6,h7,h8,h9,?_,h11,h12,h13⟩
  refine tiles_append.mpr ⟨?_,?_⟩
  · apply hfront.congr fun c hc => hsized c (by simp [hc])
    intro i _ hi
    exact hsame i (.inl (by omega))
  · rw [Nat.zero_add]
    refine tiles_cons.mpr ⟨?_,?_⟩
    · apply hat.congr (hsized b (by simp))
      intro i _ hi
      have := hi _ hb
      exact hsame _ (by omega)
    · apply hrest.congr fun c hc => hsized c (by simp [hc])
      intro i hi _
      exact hsame i (.inr (by omega))

end PoolHistory.Describes

/-! ## Runs -/

theorem PoolHistory.Describes.safeRun_iff {arena : PoolArena} (husable : arena.Usable)
    {h : PoolHistory} {blocks : List PoolBlock} (hd : h.Describes arena blocks)
    (hwhole : ∀ b ∈ blocks, ¬b.IsFragment) {calls : List PoolCall} (hlegal : h.LegalRun calls)
    (hcount : h.state.pool.generation+calls.countP PoolCall.isCall ≤ uint64Max) :
    h.SafeRun arena calls ↔ h.FreesWholeRun calls := by
  induction calls generalizing h blocks with
  | nil => exact ⟨fun _ => trivial,fun _ => hd.sound husable hwhole⟩
  | cons call calls ih =>
    obtain ⟨hfirst,hrest⟩ := hlegal
    have hsound := hd.sound husable hwhole
    rw [countP_cons] at hcount
    cases call with
    | allocate size =>
      rw [PoolCall.isCall,if_pos rfl] at hcount
      obtain ⟨hanswers,blocks',hd',hwhole',hgen⟩ :=
        hd.allocate husable hwhole (by omega) size
      have hnext := ih hd' hwhole' hrest (by omega)
      exact ⟨fun ⟨_,_,hsafe⟩ => ⟨nofun,hnext.mp hsafe⟩,
        fun ⟨_,hclean⟩ => ⟨hsound,hanswers,hnext.mpr hclean⟩⟩
    | free allocation =>
      rw [PoolCall.isCall,if_pos rfl] at hcount
      obtain ⟨hanswers,blocks',hd',hfragment,hgen⟩ :=
        hd.free husable hwhole (by omega) hfirst
      by_cases hclean : h.state.FreesWhole allocation
      · have hwhole' : ∀ b ∈ blocks', ¬b.IsFragment := fun b hb hb' =>
          hfragment.mp ⟨b,hb,hb'⟩ hclean
        have hnext := ih hd' hwhole' hrest (by omega)
        constructor
        · rintro ⟨-,-,hsafe⟩
          refine ⟨?_,hnext.mp hsafe⟩
          intro allocation' heq
          cases heq
          exact hclean
        · rintro ⟨-,hrun⟩
          exact ⟨hsound,hanswers,hnext.mpr hrun⟩
      · -- The block left behind is too small, and the next validation says so.
        obtain ⟨b,hb,hb'⟩ := hfragment.mpr hclean
        constructor
        · rintro ⟨-,-,hsafe⟩
          refine absurd ?_ (hd'.not_sound husable hb hb')
          cases calls with
          | nil => exact hsafe
          | cons => exact hsafe.1
        · rintro ⟨hfrees,-⟩
          exact absurd (hfrees allocation rfl) hclean
    | write address value =>
      have hnext := ih (hd.write hfirst) hwhole hrest hcount
      exact ⟨fun ⟨_,_,hsafe⟩ => ⟨nofun,hnext.mp hsafe⟩,
        fun ⟨_,hclean⟩ => ⟨hsound,trivial,hnext.mpr hclean⟩⟩

theorem describes_initial {arena : PoolArena} {s : PoolState} (h : ziPoolInitialise arena = .ok s) :
    arena.Usable ∧ (⟨s,[]⟩ : PoolHistory).Describes arena [⟨arena.size,1,none⟩] ∧
      (∀ b ∈ [(⟨arena.size,1,none⟩ : PoolBlock)], ¬b.IsFragment) ∧ s.pool.generation = 1 := by
  obtain ⟨husable,hholds,hgen⟩ := ziPoolInitialise_holds h
  refine ⟨husable,⟨hholds,List.Perm.nil⟩,?_,hgen⟩
  intro b hb hfragment
  rw [mem_singleton] at hb
  subst hb
  have := husable.size_ge
  have := hfragment.2
  dsimp only at this
  omega

/-- The pool keeps its promises in a run of fewer than `2 ^ 64 - 1` calls exactly when each
block that the run frees spans at least 96 bytes or has a free neighbour at that time. -/
theorem pool_safe_iff_freesWhole (arena : PoolArena) (s : PoolState)
    (hs : ziPoolInitialise arena = .ok s) (calls : List PoolCall)
    (hlegal : (⟨s,[]⟩ : PoolHistory).LegalRun calls)
    (hcount : calls.countP PoolCall.isCall < 2^64-1) :
    (⟨s,[]⟩ : PoolHistory).SafeRun arena calls ↔ (⟨s,[]⟩ : PoolHistory).FreesWholeRun calls := by
  obtain ⟨husable,hd,hwhole,hgeneration⟩ := describes_initial hs
  have hmax : uint64Max = 2^64-1 := rfl
  apply hd.safeRun_iff husable hwhole hlegal
  dsimp only
  omega

def smallArena : PoolArena := ⟨4096,512,Mem.zero,by decide⟩

def smallPool : PoolState where
  pool := ⟨poolStructSize,ziPoolVersion,4096,512,0,0,0,1,calculatePoolCookie 4096 512⟩
  arena := initialiseFreeBlock (calculatePoolCookie 4096 512) (zeroBytes Mem.zero 0 512) 0 512 0 1

theorem smallPool_initial : ziPoolInitialise smallArena = .ok smallPool := by rfl

theorem smallPool_one : ((⟨smallPool,[]⟩ : PoolHistory).step (.allocate 1)).Describes smallArena
        ([⟨80,2,some 1⟩] ++ [⟨432,2,none⟩]) ∧
      ((⟨smallPool,[]⟩ : PoolHistory).step (.allocate 1)).state.pool.generation = 2 := by
  obtain ⟨husable,hd,hwhole,-⟩ := describes_initial smallPool_initial
  have hd0 : (⟨smallPool,[]⟩ : PoolHistory).Describes smallArena ([] ++ [⟨512,1,none⟩]) := hd
  exact hd0.allocate_last husable hwhole (by decide) (by simp) rfl
    (show allocationSpan 1 = .ok 80 by decide) (by decide)

theorem smallPool_two :
    (((⟨smallPool,[]⟩ : PoolHistory).step (.allocate 1)).step (.allocate 1)).Describes smallArena
        ([] ++ ⟨80,2,some 1⟩ :: [⟨80,3,some 1⟩,⟨352,3,none⟩]) ∧
      (((⟨smallPool,[]⟩ : PoolHistory).step (.allocate 1)).step
        (.allocate 1)).state.pool.generation = 3 := by
  obtain ⟨husable,-⟩ := describes_initial smallPool_initial
  obtain ⟨hd,hgen⟩ := smallPool_one
  have hnext := hd.allocate_last husable (by simp [PoolBlock.IsFragment,PoolBlock.isFree])
    (by rw [hgen]; decide) (by simp [PoolBlock.isFree]) rfl
    (show allocationSpan 1 = .ok 80 by decide) (by decide)
  rwa [hgen] at hnext

theorem pool_safe_iff_freesWhole_small :
    (⟨smallPool,[]⟩ : PoolHistory).SafeRun smallArena [.allocate 1,.free 4160] := by
  have hd := smallPool_one.1
  refine (pool_safe_iff_freesWhole smallArena smallPool smallPool_initial _ ?_ (by decide)).mpr ?_
  · exact ⟨trivial,⟨⟨4160,1⟩,hd.live.mem_iff.mpr (by decide),rfl⟩,trivial⟩
  · refine ⟨nofun,?_,trivial⟩
    intro allocation heq
    cases heq
    have hd' : ((⟨smallPool,[]⟩ : PoolHistory).step (.allocate 1)).Describes smallArena
        ([] ++ ⟨80,2,some 1⟩ :: [⟨432,2,none⟩]) := hd
    exact hd'.freesWhole_iff.mpr (.inr (.inl ⟨_,rfl,rfl⟩))

/-- The first of two blocks of 80 bytes is given back next to the second, and the pool does not
validate any more. -/
theorem pool_corrupted_by_free : ziPoolInitialise smallArena = .ok smallPool ∧
      (⟨smallPool,[]⟩ : PoolHistory).LegalRun [.allocate 1,.allocate 1,.free 4160] ∧
      ziPoolValidate ((((⟨smallPool,[]⟩ : PoolHistory).step (.allocate 1)).step
        (.allocate 1)).step (.free 4160)).state = .error .memoryCorruption ∧
      ¬(⟨smallPool,[]⟩ : PoolHistory).SafeRun smallArena
        [.allocate 1,.allocate 1,.free 4160] := by
  obtain ⟨husable,-⟩ := describes_initial smallPool_initial
  obtain ⟨hd,hgeneration⟩ := smallPool_two
  have hheld : (((⟨smallPool,[]⟩ : PoolHistory).step (.allocate 1)).step (.allocate 1)).Legal
      (.free 4160) := ⟨⟨4160,1⟩,hd.live.mem_iff.mpr (by decide),rfl⟩
  obtain ⟨-,blocks,hd',hfragment,-⟩ := hd.free husable
    (by simp [PoolBlock.IsFragment,PoolBlock.isFree]) (by rw [hgeneration]; decide) hheld
  have hsmall : ¬(((⟨smallPool,[]⟩ : PoolHistory).step (.allocate 1)).step
      (.allocate 1)).state.FreesWhole 4160 := by
    intro hwhole
    have := hd.freesWhole_iff.mp hwhole
    simp [PoolBlock.isFree] at this
  obtain ⟨b,hb,hb'⟩ := hfragment.mpr hsmall
  refine ⟨smallPool_initial,⟨trivial,trivial,hheld,trivial⟩,
    hd'.holds.validate_fragment husable hb hb',?_⟩
  rintro ⟨-,-,-,-,-,-,hsound⟩
  exact hd'.not_sound husable hb hb' hsound

end Zizium
