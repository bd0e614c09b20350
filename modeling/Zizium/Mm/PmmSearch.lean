import Mathlib.Order.Lattice.Nat
import Zizium.Aligned
import Zizium.Mm.PmmInvariant

/-!
# The search for free pages

`zi_pmm_allocate_below` finds the lowest run of free pages that fits a request.
-/

namespace Zizium

open List

/-- A run of free pages in a usable range, aligned and with its last byte at or below a limit. -/
structure FreePages (manager : ZiPhysicalMemoryManager) (pageCount alignmentPages limit base : ℕ) :
    Prop where
  nonempty : 0 < pageCount
  usable : ∃ range ∈ manager.inventory.ranges, range.type = ziBootMemoryUsable ∧
    ∀ page ∈ pagesFrom base pageCount, page ∈ pagesFrom range.physicalBase range.pageCount
  free : ∀ page ∈ pagesFrom base pageCount, ∃ metadata,
    ziPmmQuery manager page = .ok metadata ∧ metadata.state = .free
  aligned : alignmentPages ∣ base/ziMemoryPageSize
  below : base+pageCount*ziMemoryPageSize-1 ≤ limit

variable {mgr : ZiPhysicalMemoryManager} {range : ZiMemoryRange} {metadataStart : ℕ}
  {req : ZiPmmAllocationRequest} {off physicalPage : ℕ}

/-! ### One range -/

section Range

variable {base : ℕ}

structure Takes (manager : ZiPhysicalMemoryManager) (range : ZiMemoryRange) (metadataStart : ℕ)
    (request : ZiPmmAllocationRequest) (page : ℕ) : Prop where
  aligned : request.alignmentPages ∣ page
  inside : range.physicalBase/4096 ≤ page ∧
    page-range.physicalBase/4096+request.pageCount ≤ range.pageCount
  below : page*4096+request.pageCount*4096-1 ≤ request.maximumPhysicalAddress
  free : runIsFree manager (metadataStart+(page-range.physicalBase/4096))
    request.pageCount = true

/-- The addresses at which a request can be met from some page on. -/
def takenFrom (manager : ZiPhysicalMemoryManager) (range : ZiMemoryRange) (metadataStart : ℕ)
    (request : ZiPmmAllocationRequest) (page : ℕ) : Set ℕ :=
  {base | ∃ q, base = q*4096 ∧ page ≤ q ∧ Takes manager range metadataStart request q}

theorem exists_isLeast_of_nonempty {s : Set ℕ} (h : s.Nonempty) : ∃ x, IsLeast s x :=
  ⟨sInf s,Nat.sInf_mem h,fun _ hy => Nat.sInf_le hy⟩

theorem not_isLeast_of_forall {s : Set ℕ} (h : ∀ x, x ∉ s) : ¬IsLeast s base :=
  fun hleast => h base hleast.1

theorem shift_page (hv : range.Valid) (hoff : off < range.pageCount)
    (hpage : range.physicalBase/4096+off = physicalPage) :
    physicalPage*ziMemoryPageSize%2^64 = physicalPage*4096 := by
  have hfits := hv.fits
  exact Nat.mod_eq_of_lt (show physicalPage*4096 < 2^64 by omega)

theorem shift_count (hv : range.Valid) {count : ℕ} (hcount : count ≤ range.pageCount) :
    count*ziMemoryPageSize%2^64 = count*4096 := by
  have hfits := hv.fits
  exact Nat.mod_eq_of_lt (show count*4096 < 2^64 by omega)

theorem allocateAt_iff (hv : range.Valid) (hpos : 0 < req.pageCount)
    (hdvd : req.alignmentPages ∣ physicalPage)
    (hpage : range.physicalBase/4096+off = physicalPage) :
    (allocateAt mgr range metadataStart req off physicalPage).map Prod.fst = some base ↔
      IsLeast (takenFrom mgr range metadataStart req physicalPage) base := by
  fun_induction allocateAt with
  | case1 off physicalPage hin candidateBase allocationSize hlimit =>
    -- later pages are further above the limit
    have hbase : candidateBase = physicalPage*4096 := shift_page hv hin.1 hpage
    have hsize : allocationSize = req.pageCount*4096 := shift_count hv (by omega)
    refine iff_of_false (by simp) (not_isLeast_of_forall ?_)
    rintro _ ⟨q,rfl,hle,htakes⟩
    have := htakes.below
    omega
  | case2 off physicalPage hin candidateMetadata candidateBase allocationSize hlimit hfree =>
    have hbase : candidateBase = physicalPage*4096 := shift_page hv hin.1 hpage
    have hsize : allocationSize = req.pageCount*4096 := shift_count hv (by omega)
    have hoff : physicalPage-range.physicalBase/4096 = off := by omega
    have hleast : IsLeast (takenFrom mgr range metadataStart req physicalPage)
        (physicalPage*4096) := by
      refine ⟨⟨physicalPage,rfl,le_rfl,hdvd,by omega,by omega,?_⟩,?_⟩
      · rwa [hoff]
      · rintro _ ⟨q,rfl,hle,-⟩
        omega
    rw [Option.map_some,Option.some.injEq,hbase]
    constructor
    · rintro rfl
      exact hleast
    · exact fun h => hleast.unique h
  | case3 off physicalPage hin candidateMetadata candidateBase allocationSize hlimit hfree ih =>
    have hsame : takenFrom mgr range metadataStart req physicalPage =
        takenFrom mgr range metadataStart req (physicalPage+req.alignmentPages) := by
      have hoff : physicalPage-range.physicalBase/4096 = off := by omega
      ext address
      constructor
      · rintro ⟨q,rfl,hle,htakes⟩
        have hne : physicalPage ≠ q := by
          rintro rfl
          have := htakes.free
          rw [hoff] at this
          exact hfree this
        exact ⟨q,rfl,add_le_of_dvd_of_lt hdvd htakes.aligned (by omega),htakes⟩
      · rintro ⟨q,rfl,hle,htakes⟩
        exact ⟨q,rfl,by omega,htakes⟩
    rw [hsame]
    exact ih (Nat.dvd_add hdvd dvd_rfl) (by omega)
  | case4 off physicalPage hout =>
    refine iff_of_false (by simp) (not_isLeast_of_forall ?_)
    rintro _ ⟨q,rfl,hle,htakes⟩
    have := htakes.inside
    omega

/-- The addresses in a range at which a request can be met. -/
def takenIn (manager : ZiPhysicalMemoryManager) (range : ZiMemoryRange) (metadataStart : ℕ)
    (request : ZiPmmAllocationRequest) : Set ℕ :=
  {base | range.type = ziBootMemoryUsable ∧
    ∃ q, base = q*4096 ∧ Takes manager range metadataStart request q}

theorem takenFrom_firstAligned (htype : range.type = ziBootMemoryUsable)
    (h : IsFirstAligned req.alignmentPages (range.physicalBase/4096) physicalPage) :
    takenFrom mgr range metadataStart req physicalPage = takenIn mgr range metadataStart req := by
  ext address
  constructor
  · rintro ⟨q,hq,-,htakes⟩
    exact ⟨htype,q,hq,htakes⟩
  · rintro ⟨-,q,hq,htakes⟩
    exact ⟨q,hq,h.le_of_dvd htakes.aligned htakes.inside.1,htakes⟩

theorem allocateFromRange_iff (hv : range.Valid) (hpos : 0 < req.pageCount) {k : ℕ} (hk : k < 64)
    (halignment : req.alignmentPages = 2^k) :
    (allocateFromRange mgr range metadataStart req).map Prod.fst = some base ↔
      IsLeast (takenIn mgr range metadataStart req) base := by
  have hfits := hv.fits
  have hmax := uint64Max_eq
  have hpower : 2^k ≤ 2^63 := Nat.pow_le_pow_right (by decide) (by omega)
  have hfirst := isFirstAligned_mask k (range.physicalBase/4096)
  simp only [allocateFromRange,ziMemoryPageSize,halignment]
  split
  · next hskip =>
    refine iff_of_false (by simp) (not_isLeast_of_forall ?_)
    rintro _ ⟨htype,q,rfl,htakes⟩
    have := htakes.inside
    omega
  next hskip =>
  rw [if_neg (by omega)]
  generalize range.physicalBase/4096+(2^k-1) -
    (range.physicalBase/4096+(2^k-1) &&& 2^k-1) = page at hfirst ⊢
  have hoff : (page+2^64-range.physicalBase/4096)%2^64 = page-range.physicalBase/4096 := by
    have := hfirst.le
    have := hfirst.lt
    omega
  rw [hoff,allocateAt_iff hv hpos (halignment ▸ hfirst.dvd)
    (by have := hfirst.le; omega),takenFrom_firstAligned (by omega) (halignment ▸ hfirst)]

end Range

/-! ### All ranges -/

section Ranges

variable {before ranges : List ZiMemoryRange} {base : ℕ}

/-- The addresses in some ranges at which a request can be met, the entries of the ranges
standing behind those of `before`. -/
def takenInRanges (manager : ZiPhysicalMemoryManager) (request : ZiPmmAllocationRequest)
    (before ranges : List ZiMemoryRange) : Set ℕ :=
  {base | ∃ middle range after, ranges = middle ++ range :: after ∧
    base ∈ takenIn manager range (pageTotal (before ++ middle)) request}

theorem takenInRanges_cons :
    takenInRanges mgr req before (range :: ranges) = takenIn mgr range (pageTotal before) req ∪
        takenInRanges mgr req (before ++ [range]) ranges := by
  ext address
  constructor
  · rintro ⟨middle,r,after,hranges,htaken⟩
    cases middle with
    | nil =>
      obtain ⟨rfl,rfl⟩ := hranges
      rw [append_nil] at htaken
      exact .inl htaken
    | cons first middle =>
      obtain ⟨rfl,rfl⟩ := hranges
      exact .inr ⟨middle,r,after,rfl,by simpa using htaken⟩
  · rintro (htaken | ⟨middle,r,after,rfl,htaken⟩)
    · exact ⟨[],range,ranges,rfl,by simpa using htaken⟩
    · exact ⟨range :: middle,r,after,rfl,by simpa using htaken⟩

theorem mem_takenIn_bounds (hv : range.Valid) (hpos : 0 < req.pageCount)
    (h : base ∈ takenIn mgr range metadataStart req) :
    range.physicalBase ≤ base ∧ base < range.physicalBase+range.pageCount*4096 := by
  obtain ⟨-,q,rfl,htakes⟩ := h
  have := htakes.inside
  have := hv.aligned
  omega

theorem takenIn_lt_takenInRanges {base' : ℕ} (hpos : 0 < req.pageCount)
    (hv : ∀ r ∈ range :: ranges, r.Valid)
    (hordered : (range :: ranges).Pairwise ZiMemoryRange.Before)
    (h : base ∈ takenIn mgr range metadataStart req)
    (h' : base' ∈ takenInRanges mgr req before ranges) : base ≤ base' := by
  obtain ⟨middle,r,after,hranges,htaken⟩ := h'
  have hr : r ∈ ranges := by simp [hranges]
  have hbefore : range.Before r := rel_of_pairwise_cons hordered hr
  have hbounds := mem_takenIn_bounds (hv range mem_cons_self) hpos h
  have hbounds' := mem_takenIn_bounds (hv r (mem_cons_of_mem _ hr)) hpos htaken
  rw [ZiMemoryRange.Before] at hbefore
  omega

theorem allocateFromRanges_iff (hpos : 0 < req.pageCount) {k : ℕ} (hk : k < 64)
    (halignment : req.alignmentPages = 2^k) (hv : ∀ r ∈ ranges, r.Valid)
    (hordered : ranges.Pairwise ZiMemoryRange.Before)
    (htotal : pageTotal (before ++ ranges) < 2^64) :
    (allocateFromRanges mgr req (pageTotal before) ranges).1 = .ok base ↔
      IsLeast (takenInRanges mgr req before ranges) base := by
  induction ranges generalizing before with
  | nil =>
    refine iff_of_false (by simp [allocateFromRanges]) (not_isLeast_of_forall ?_)
    rintro _ ⟨middle,range,after,hranges,-⟩
    simp at hranges
  | cons range ranges ih =>
    have hrange := @allocateFromRange_iff mgr range (pageTotal before) req
    have hhead := fun found => @hrange found (hv range mem_cons_self) hpos k hk halignment
    rw [allocateFromRanges,takenInRanges_cons]
    cases hfrom : allocateFromRange mgr range (pageTotal before) req with
    | some taken =>
      obtain ⟨found,manager'⟩ := taken
      have hleast := (hhead found).mp (by rw [hfrom]; rfl)
      have hunion : IsLeast (takenIn mgr range (pageTotal before) req ∪
          takenInRanges mgr req (before ++ [range]) ranges) found := by
        refine ⟨.inl hleast.1,?_⟩
        rintro address (htaken | htaken)
        · exact hleast.2 htaken
        · exact takenIn_lt_takenInRanges hpos hv hordered hleast.1 htaken
      rw [Except.ok.injEq]
      constructor
      · rintro rfl
        exact hunion
      · exact fun h => hunion.unique h
    | none =>
      have hempty : takenIn mgr range (pageTotal before) req = ∅ := by
        by_contra hne
        obtain ⟨found,hleast⟩ := exists_isLeast_of_nonempty (Set.nonempty_iff_ne_empty.mpr hne)
        have hsome := (hhead found).mpr hleast
        rw [hfrom] at hsome
        cases hsome
      have hstart : (pageTotal before+range.pageCount)%2^64 = pageTotal (before ++ [range]) := by
        simp only [pageTotal_append,pageTotal_cons,pageTotal_nil] at htotal ⊢
        exact Nat.mod_eq_of_lt (by omega)
      rw [hstart,hempty,Set.empty_union]
      exact ih (fun r hr => hv r (mem_cons_of_mem _ hr)) hordered.of_cons
        (by simpa using htotal)

theorem runIsFree_iff_query (hwf : mgr.inventory.WellFormed) {count first : ℕ}
    (hrun : IsRun mgr.inventory.ranges range base count first) :
    runIsFree mgr first count = true ↔ ∀ page ∈ pagesFrom base count, ∃ metadata,
        ziPmmQuery mgr page = .ok metadata ∧ metadata.state = .free := by
  have hquery : ∀ i < count, ziPmmQuery mgr (base+i*4096) = .ok (mgr.pages (first+i)) := by
    intro i hi
    have hlocate := locatePage_of_getElem? hwf (hrun.slots i hi) (show 0 < 4096 by decide)
    rw [Nat.add_zero] at hlocate
    rw [ziPmmQuery_eq_map,hlocate]
    rfl
  rw [runIsFree,runIs_iff]
  constructor
  · intro hfree page hpage
    obtain ⟨i,hi,rfl⟩ := mem_pagesFrom.mp hpage
    exact ⟨_,hquery i hi,of_decide_eq_true (hfree i hi)⟩
  · intro hfree i hi
    obtain ⟨metadata,hmetadata,hstate⟩ := hfree _ (mem_pagesFrom.mpr ⟨i,hi,rfl⟩)
    rw [hquery i hi,Except.ok.injEq] at hmetadata
    rw [hmetadata]
    exact decide_eq_true hstate

theorem mem_takenInRanges_iff (hwf : mgr.inventory.WellFormed) (hpos : 0 < req.pageCount) :
    base ∈ takenInRanges mgr req [] mgr.inventory.ranges ↔
      FreePages mgr req.pageCount req.alignmentPages req.maximumPhysicalAddress base := by
  constructor
  · rintro ⟨middle,range,after,hranges,htype,q,rfl,htakes⟩
    have hv := hwf.range_valid hranges
    have halign := hv.aligned
    have hinside := htakes.inside
    have hrun := IsRun.of_range hranges hinside.2
    have hbase : range.physicalBase+(q-range.physicalBase/4096)*4096 = q*4096 := by omega
    rw [hbase] at hrun
    refine ⟨hpos,⟨range,hrun.mem,htype,hrun.inside⟩,
      (runIsFree_iff_query hwf hrun).mp htakes.free,?_,htakes.below⟩
    rw [Nat.mul_div_cancel _ (by decide)]
    exact htakes.aligned
  · rintro ⟨-,⟨range,hmem,htype,hinside⟩,hfree,hdvd,hbelow⟩
    obtain ⟨middle,after,hranges⟩ := append_of_mem hmem
    have hv := hwf.valid range hmem
    have halign := hv.aligned
    obtain ⟨i,-,rfl⟩ := mem_pagesFrom.mp (hinside base (mem_pagesFrom.mpr ⟨0,hpos,by omega⟩))
    obtain ⟨j,hj,hlast⟩ := mem_pagesFrom.mp (hinside _
      (mem_pagesFrom.mpr ⟨req.pageCount-1,by omega,rfl⟩))
    have hrun : IsRun mgr.inventory.ranges range (range.physicalBase+i*4096)
        req.pageCount (pageTotal middle+i) := IsRun.of_range hranges (by omega)
    have hpage : (range.physicalBase+i*4096)/4096 = range.physicalBase/4096+i := by omega
    rw [hpage] at hdvd
    refine ⟨middle,range,after,hranges,htype,range.physicalBase/4096+i,by omega,hdvd,
      by omega,by simp only [ziMemoryPageSize] at hbelow; omega,?_⟩
    rw [Nat.add_sub_cancel_left]
    exact (runIsFree_iff_query hwf hrun).mpr hfree

end Ranges

/-! ### The counters -/

theorem le_entryCount {pages : ℕ → ZiPhysicalPageMetadata} {n first count : ℕ}
    {state : ZiMemoryPageState} (hlast : first+count ≤ n)
    (h : ∀ i < count, (pages (first+i)).state = state) : count ≤ entryCount pages n state := by
  have hdrop : (range' 0 (first+count)).drop first = range' first count := by
    rw [drop_range',Nat.mul_one,Nat.zero_add,Nat.add_sub_cancel_left]
  have hsublist : (range' first count).Sublist (range n) := by
    rw [← hdrop,range_eq_range']
    exact (drop_sublist _ _).trans (range'_sublist_right.mpr hlast)
  have hall : (range' first count).countP (fun slot => (pages slot).state = state) =
      (range' first count).length := by
    rw [countP_eq_length]
    intro slot hslot
    rw [mem_range'_1] at hslot
    have hstate := h (slot-first) (by omega)
    rw [Nat.add_sub_cancel' hslot.1] at hstate
    exact decide_eq_true hstate
  calc count = (range' first count).countP (fun slot => (pages slot).state = state) := by
        rw [hall,length_range']
    _ ≤ entryCount pages n state := hsublist.countP_le

theorem FreePages.le_counters {h : PmmHistory} (ha : h.Agrees) {count alignment limit base : ℕ}
    (hrun : FreePages h.manager count alignment limit base) :
    count ≤ h.manager.statistics.freePages ∧ count ≤ h.manager.metadataPageCount := by
  obtain ⟨hpos,⟨range,hmem,-,hinside⟩,hfree,-,-⟩ := hrun
  obtain ⟨before,after,hranges⟩ := append_of_mem hmem
  obtain ⟨i,-,rfl⟩ := mem_pagesFrom.mp (hinside base (mem_pagesFrom.mpr ⟨0,hpos,by omega⟩))
  obtain ⟨j,hj,hlast⟩ := mem_pagesFrom.mp (hinside _
    (mem_pagesFrom.mpr ⟨count-1,by omega,rfl⟩))
  have hisRun : IsRun h.manager.inventory.ranges range (range.physicalBase+i*4096) count
      (pageTotal before+i) := IsRun.of_range hranges (by omega)
  have hentries := hisRun.last_le hpos
  have hstates := (runIsFree_iff_query ha.wellFormed hisRun).mpr hfree
  rw [runIsFree,runIs_iff] at hstates
  rw [ha.statistics,ha.total]
  exact ⟨le_entryCount hentries fun k hk => of_decide_eq_true (hstates k hk),by omega⟩

theorem ziPmmAllocateBelow_ok_iff {h : PmmHistory} (ha : h.Agrees) {k : ℕ} (hk : k < 64)
    (pageCount maxPhysical owner base : ℕ) :
    (ziPmmAllocateBelow h.manager pageCount (2^k) maxPhysical owner).1 = .ok base ↔
      allocationOwnerIsValid owner = true ∧
        IsLeast {b | FreePages h.manager pageCount (2^k) maxPhysical b} base := by
  have hpower : 2^k &&& (2^k-1) = 0 := by rw [Nat.and_two_pow_sub_one_eq_mod,Nat.mod_self]
  have hone : 0 < 2^k := Nat.two_pow_pos k
  rw [ziPmmAllocateBelow]
  split
  · next hargs =>
    refine iff_of_false (by simp) ?_
    rintro ⟨howner,hleast⟩
    have hrun : FreePages h.manager pageCount (2^k) maxPhysical base := hleast.1
    have hpos := hrun.nonempty
    have hbelow := hrun.below
    simp only [ziMemoryPageSize] at hargs hbelow
    rcases hargs with hargs | hargs | hargs | hargs | hargs
    · omega
    · omega
    · exact hargs hpower
    · rw [howner] at hargs
      cases hargs
    · omega
  next hargs =>
  push Not at hargs
  obtain ⟨hcount,-,-,howner,-⟩ := hargs
  rw [Bool.ne_false_iff] at howner
  rw [and_iff_right howner]
  split
  · next hfew =>
    refine iff_of_false (by simp) fun hleast => ?_
    have := FreePages.le_counters ha hleast.1
    omega
  have hlt := ha.wellFormed.pageTotal_lt
  have hset : {b | FreePages h.manager pageCount (2^k) maxPhysical b} =
      takenInRanges h.manager ⟨pageCount,2^k,maxPhysical,owner,hone⟩ []
        h.manager.inventory.ranges := by
    ext b
    exact (@mem_takenInRanges_iff h.manager ⟨pageCount,2^k,maxPhysical,owner,hone⟩
      b ha.wellFormed (Nat.pos_of_ne_zero hcount)).symm
  rw [hset]
  exact @allocateFromRanges_iff h.manager _ [] _ base (Nat.pos_of_ne_zero hcount) k hk rfl
    ha.wellFormed.valid ha.wellFormed.ordered (by rw [nil_append]; omega)

/-! ### Termination with 64-bit sums -/

/-- The loop of `allocate_from_range` with its sums taken modulo `2 ^ 64`, for a number of
rounds; `none` if it is still running. -/
def allocateRounds (manager : ZiPhysicalMemoryManager) (range : ZiMemoryRange) (metadataStart : ℕ)
    (request : ZiPmmAllocationRequest) :
    (rounds offset physicalPage : ℕ) → Option (Option (ℕ × ZiPhysicalMemoryManager))
  | 0, _, _ => none
  | rounds+1, offset, physicalPage =>
    if offset < range.pageCount ∧ request.pageCount ≤ range.pageCount-offset then
      let candidateMetadata := (metadataStart+offset)%2^64
      let candidateBase := physicalPage*ziMemoryPageSize%2^64
      let allocationSize := request.pageCount*ziMemoryPageSize%2^64
      if candidateBase > request.maximumPhysicalAddress ∨
          allocationSize-1 > request.maximumPhysicalAddress-candidateBase then
        some none
      else if runIsFree manager candidateMetadata request.pageCount then
        some (some (candidateBase, { manager with
            pages := setPages manager.pages candidateMetadata ⟨.allocated,request.owner%256⟩
              request.pageCount
            statistics := manager.statistics.allocate request.pageCount }))
      else
        allocateRounds manager range metadataStart request rounds
          ((offset+request.alignmentPages)%2^64)
          ((physicalPage+request.alignmentPages)%2^64)
    else some none

theorem allocateRounds_eq {rounds : ℕ} (hv : range.Valid)
    (hstart : metadataStart+range.pageCount < 2^64)
    (halignment : req.alignmentPages ≤ 2^63) (hpage : range.physicalBase/4096+off = physicalPage)
    (hrounds : range.pageCount < rounds+off) (hrounds' : 0 < rounds) :
    allocateRounds mgr range metadataStart req rounds off physicalPage =
      some (allocateAt mgr range metadataStart req off physicalPage) := by
  have hfits := hv.fits
  have hpos := req.alignmentPages_pos
  induction rounds generalizing off physicalPage with
  | zero => omega
  | succ rounds ih =>
    rw [allocateRounds,allocateAt]
    split
    · next hin =>
      have hmetadata : (metadataStart+off)%2^64 = metadataStart+off :=
        Nat.mod_eq_of_lt (by omega)
      simp only [hmetadata]
      split
      · rfl
      split
      · rfl
      have hoff : (off+req.alignmentPages)%2^64 =
          off+req.alignmentPages := Nat.mod_eq_of_lt (by omega)
      have hnext : (physicalPage+req.alignmentPages)%2^64 =
          physicalPage+req.alignmentPages := Nat.mod_eq_of_lt (by omega)
      rw [hoff,hnext]
      exact ih (by omega) (by omega) (by omega)
    · rfl

/-- `allocate_from_range` with that loop. -/
def allocateFromRangeRounds (rounds : ℕ) (manager : ZiPhysicalMemoryManager) (range : ZiMemoryRange)
    (metadataStart : ℕ) (request : ZiPmmAllocationRequest) :
    Option (Option (ℕ × ZiPhysicalMemoryManager)) :=
  let firstPhysicalPage := range.physicalBase/ziMemoryPageSize
  let mask := request.alignmentPages-1
  if range.type ≠ ziBootMemoryUsable ∨ request.pageCount > range.pageCount then some none
  else if firstPhysicalPage > uint64Max-mask then some none
  else
    let candidatePhysicalPage := (firstPhysicalPage+mask)-((firstPhysicalPage+mask) &&& mask)
    allocateRounds manager range metadataStart request rounds
      ((candidatePhysicalPage+2^64-firstPhysicalPage)%2^64) candidatePhysicalPage

theorem allocateFromRangeRounds_eq (hv : range.Valid)
    (hstart : metadataStart+range.pageCount < 2^64) {k : ℕ} (hk : k < 64)
    (halignment : req.alignmentPages = 2^k) :
    allocateFromRangeRounds (range.pageCount+1) mgr range metadataStart req =
      some (allocateFromRange mgr range metadataStart req) := by
  have hfits := hv.fits
  have hmax := uint64Max_eq
  have hpower : 2^k ≤ 2^63 := Nat.pow_le_pow_right (by decide) (by omega)
  have hfirst := isFirstAligned_mask k (range.physicalBase/4096)
  simp only [allocateFromRangeRounds,allocateFromRange,ziMemoryPageSize,halignment]
  split
  · rfl
  rw [if_neg (by omega),if_neg (by omega)]
  have hle := hfirst.le
  have hlt := hfirst.lt
  exact allocateRounds_eq hv hstart (by omega) (by omega) (by omega) (by omega)

/-- In every state that the calls reach, the search for pages stops, it succeeds exactly when
there is a free run, and it returns the lowest one. -/
theorem pmm_allocate_below_exact {bootRanges : List ZiBootMemoryRange}
    {storageCapacity metadataSize : ℕ} {inventory : ZiMemoryInventory}
    {mgr : ZiPhysicalMemoryManager}
    (hbuild : ziMemoryInventoryBuild bootRanges storageCapacity = .ok inventory)
    (hinitialise : ziPmmInitialise inventory metadataSize = .ok mgr) (calls : List PmmCall) {k : ℕ}
    (hk : k < 64) (pageCount maximumPhysicalAddress owner : ℕ) :
    (∀ before range after req, ((PmmHistory.start mgr).run calls).manager.inventory.ranges =
        before ++ range :: after → req.alignmentPages = 2^k →
      allocateFromRangeRounds (range.pageCount+1)
          ((PmmHistory.start mgr).run calls).manager range (pageTotal before) req =
        some (allocateFromRange ((PmmHistory.start mgr).run calls).manager range
          (pageTotal before) req)) ∧
    ((∃ base, (ziPmmAllocateBelow ((PmmHistory.start mgr).run calls).manager pageCount
        (2^k) maximumPhysicalAddress owner).1 = .ok base) ↔ allocationOwnerIsValid owner = true ∧
        ∃ base, FreePages ((PmmHistory.start mgr).run calls).manager pageCount (2^k)
          maximumPhysicalAddress base) ∧
    ∀ base, (ziPmmAllocateBelow ((PmmHistory.start mgr).run calls).manager pageCount
        (2^k) maximumPhysicalAddress owner).1 = .ok base →
      IsLeast {b | FreePages ((PmmHistory.start mgr).run calls).manager pageCount (2^k)
        maximumPhysicalAddress b} base := by
  have hagrees := (PmmHistory.agrees_start (wellFormed_of_build hbuild) hinitialise).run calls
  have hwf := hagrees.wellFormed
  have hexact := ziPmmAllocateBelow_ok_iff hagrees hk pageCount maximumPhysicalAddress owner
  refine ⟨?_,?_,fun base hok => ((hexact base).mp hok).2⟩
  · intro before range after req hranges halignment
    have hlt := hwf.pageTotal_lt
    rw [hranges,pageTotal_append,pageTotal_cons] at hlt
    exact allocateFromRangeRounds_eq (hwf.range_valid hranges) (by omega) hk halignment
  · constructor
    · rintro ⟨base,hok⟩
      obtain ⟨howner,hleast⟩ := (hexact base).mp hok
      exact ⟨howner,base,hleast.1⟩
    · rintro ⟨howner,base,hrun⟩
      obtain ⟨lowest,hleast⟩ := exists_isLeast_of_nonempty
        (s := {b | FreePages ((PmmHistory.start mgr).run calls).manager pageCount (2^k)
          maximumPhysicalAddress b}) ⟨base,hrun⟩
      exact ⟨lowest,(hexact lowest).mpr ⟨howner,hleast⟩⟩

/-- On a map of three usable pages, the first of them allocated, an aligned page below
`0x3000` is found at `0x2000`. -/
theorem pmm_allocate_below_exact_three_pages : ∃ inventory mgr,
    ziMemoryInventoryBuild [⟨0x1000,0x3000,0⟩] 1 = .ok inventory ∧
    ziPmmInitialise inventory 6 = .ok mgr ∧
    IsLeast {b | FreePages ((PmmHistory.start mgr).run [.allocate 1 1 9]).manager 1 (2^1)
      0x2fff b} 0x2000 := by
  have hbuild : ziMemoryInventoryBuild [⟨0x1000,0x3000,0⟩] 1 =
      .ok ⟨[⟨0x1000,3,0,0⟩],1,0x4000,3,3⟩ := by decide +kernel
  obtain ⟨mgr,hmanager,hfound⟩ : ∃ mgr,
      ziPmmInitialise ⟨[⟨0x1000,3,0,0⟩],1,0x4000,3,3⟩ 6 = .ok mgr ∧
        (ziPmmAllocateBelow ((PmmHistory.start mgr).run [.allocate 1 1 9]).manager 1 (2^1)
          0x2fff 9).1 = .ok 0x2000 := ⟨_,rfl,by decide +kernel⟩
  exact ⟨_,mgr,hbuild,hmanager,
    (pmm_allocate_below_exact hbuild hmanager _ (by decide) 1 0x2fff 9).2.2 _ hfound⟩

end Zizium
