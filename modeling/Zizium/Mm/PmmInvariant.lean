import Zizium.Mm.PmmIndex
import Mathlib.Data.List.Induction

/-!
# Runs of the physical memory manager

Beside the manager a run keeps what the calls said: the metadata last set for each page, and the
pages of each allocation that were not freed since.
-/

namespace Zizium

open List Function

variable {mgr manager' : ZiPhysicalMemoryManager} {range : ZiMemoryRange}
  {req : ZiPmmAllocationRequest} {ranges before : List ZiMemoryRange} {inv : ZiMemoryInventory}

variable {first count n owner page metadataStart base : ℕ}

/-! ## Setting a run of entries -/

section Entries

variable {pages : ℕ → ZiPhysicalPageMetadata} {value : ZiPhysicalPageMetadata} {slot : ℕ}
  {state : ZiMemoryPageState}

theorem setPages_apply : setPages pages first value count slot =
    if first ≤ slot ∧ slot < first+count then value else pages slot := by
  induction count with
  | zero =>
    rw [if_neg (by omega)]
    rfl
  | succ count ih =>
    rw [setPages,update_apply,ih]
    by_cases hslot : slot = first+count
    · rw [if_pos hslot,if_pos (by omega)]
    · rw [if_neg hslot]
      by_cases hin : first ≤ slot ∧ slot < first+count
      · rw [if_pos hin,if_pos (by omega)]
      · rw [if_neg hin,if_neg (by omega)]

theorem setOwners_eq_setPages (h : ∀ k < count, (pages (first+k)).state = .reserved) :
    setOwners pages first owner count = setPages pages first ⟨.reserved,owner⟩ count := by
  induction count with
  | zero => rfl
  | succ count ih =>
    have hdone := ih fun k hk => h k (by omega)
    have hlast : setPages pages first ⟨.reserved,owner⟩ count (first+count) =
        pages (first+count) := by
      rw [setPages_apply,if_neg (by omega)]
    have hstate := h count (by omega)
    simp only [setOwners,setPages,hdone,hlast,hstate]

/-- The number of the first `n` entries in a state. -/
def entryCount (pages : ℕ → ZiPhysicalPageMetadata) (n : ℕ) (state : ZiMemoryPageState) : ℕ :=
  (List.range n).countP fun slot => (pages slot).state = state

theorem entryCount_le : entryCount pages n state ≤ n := by
  have h := countP_le_length (p := fun slot => decide ((pages slot).state = state))
    (l := range n)
  rwa [length_range] at h

theorem entryCount_update (h : slot < n) : entryCount (update pages slot value) n state +
        (if (pages slot).state = state then 1 else 0) =
      entryCount pages n state+(if value.state = state then 1 else 0) := by
  induction n with
  | zero => omega
  | succ n ih =>
    have hsucc : ∀ f : ℕ → ZiPhysicalPageMetadata, entryCount f (n+1) state =
        entryCount f n state+if (f n).state = state then 1 else 0 := by
      intro f
      simp [entryCount,range_succ]
    rw [hsucc,hsucc]
    by_cases hn : slot = n
    · subst hn
      have hsame : entryCount (update pages slot value) slot state =
          entryCount pages slot state := by
        apply countP_congr
        intro i hi
        rw [update_of_ne (mem_range.mp hi).ne]
      rw [hsame,update_self]
      omega
    · rw [update_of_ne (Ne.symm hn)]
      omega

theorem entryCount_setPages {old : ZiMemoryPageState}
    (hold : ∀ k < count, (pages (first+k)).state = old) (hn : first+count ≤ n) :
    entryCount (setPages pages first value count) n state+(if old = state then count else 0) =
      entryCount pages n state+(if value.state = state then count else 0) := by
  induction count with
  | zero => simp [setPages]
  | succ count ih =>
    have hlast : (setPages pages first value count (first+count)).state = old := by
      rw [setPages_apply,if_neg (by omega)]
      exact hold count (by omega)
    have hupdate : entryCount (setPages pages first value (count+1)) n state +
          (if (setPages pages first value count (first+count)).state = state then 1 else 0) =
        entryCount (setPages pages first value count) n state +
          (if value.state = state then 1 else 0) :=
      entryCount_update (by omega)
    rw [hlast] at hupdate
    have hdone := ih (fun k hk => hold k (by omega)) (by omega)
    by_cases ho : old = state <;> by_cases hv : value.state = state <;> simp only [ho,hv,if_true,
      if_false] at hupdate hdone ⊢ <;> omega

end Entries

/-! ## Calls -/

/-- The calls that change a manager. -/
inductive PmmCall where
  | reserve (physicalBase pageCount owner : ℕ)
  | reassignReserved (physicalBase pageCount expectedOwner newOwner : ℕ)
  | allocate (pageCount alignmentPages owner : ℕ)
  | allocateBelow (pageCount alignmentPages maximumPhysicalAddress owner : ℕ)
  | free (physicalBase pageCount expectedOwner : ℕ)

namespace PmmCall

def run (manager : ZiPhysicalMemoryManager) : PmmCall → Result ℕ × ZiPhysicalMemoryManager
  | reserve base count owner =>
    ((ziPmmReserve manager base count owner).1.map fun _ => base,
      (ziPmmReserve manager base count owner).2)
  | reassignReserved base count expectedOwner newOwner =>
    ((ziPmmReassignReserved manager base count expectedOwner newOwner).1.map fun _ => base,
      (ziPmmReassignReserved manager base count expectedOwner newOwner).2)
  | allocate count alignment owner => ziPmmAllocate manager count alignment owner
  | allocateBelow count alignment maximum owner =>
    ziPmmAllocateBelow manager count alignment maximum owner
  | free base count expectedOwner =>
    ((ziPmmFree manager base count expectedOwner).1.map fun _ => base,
      (ziPmmFree manager base count expectedOwner).2)

/-- The length of the interval a call concerns. -/
def pageCount : PmmCall → ℕ
  | reserve _ count _ => count
  | reassignReserved _ count _ _ => count
  | allocate count _ _ => count
  | allocateBelow count _ _ _ => count
  | free _ count _ => count

/-- The metadata a successful call sets for every page of its interval. -/
def newMetadata : PmmCall → ZiPhysicalPageMetadata
  | reserve _ _ owner => ⟨.reserved,owner⟩
  | reassignReserved _ _ _ newOwner => ⟨.reserved,newOwner⟩
  | allocate _ _ owner => ⟨.allocated,owner⟩
  | allocateBelow _ _ _ owner => ⟨.allocated,owner⟩
  | free _ _ _ => ⟨.free,ziMemoryOwnerNone⟩

def allocates : PmmCall → Bool
  | allocate .. => true
  | allocateBelow .. => true
  | _ => false

/-- What every page of the interval must be for the call to succeed. -/
def Requires : PmmCall → ZiPhysicalPageMetadata → Prop
  | reassignReserved _ _ expectedOwner _, page => page = ⟨.reserved,expectedOwner⟩
  | free _ _ expectedOwner, page => page = ⟨.allocated,expectedOwner⟩
  | _, page => page.state = .free

def oldState : PmmCall → ZiMemoryPageState
  | reassignReserved .. => .reserved
  | free .. => .allocated
  | _ => .free

def account (statistics : ZiPhysicalMemoryStatistics) : PmmCall → ZiPhysicalMemoryStatistics
  | reserve _ count _ => statistics.reserve count
  | reassignReserved .. => statistics
  | allocate count _ _ => statistics.allocate count
  | allocateBelow count _ _ _ => statistics.allocate count
  | free _ count _ => statistics.free count

theorem Requires.state {call : PmmCall} {page : ZiPhysicalPageMetadata} (h : call.Requires page) :
    page.state = call.oldState := by
  cases call with
  | reassignReserved => exact congrArg ZiPhysicalPageMetadata.state h
  | free => exact congrArg ZiPhysicalPageMetadata.state h
  | _ => exact h

/-- A call that succeeded: one run of pages was found as required and set. -/
structure Accepted (call : PmmCall) (manager : ZiPhysicalMemoryManager) (base : ℕ)
    (range : ZiMemoryRange) (first : ℕ) : Prop where
  isRun : IsRun manager.inventory.ranges range base call.pageCount first
  nonempty : 0 < call.pageCount
  usable : call.allocates = true → range.type = ziBootMemoryUsable
  required : ∀ k < call.pageCount, call.Requires (manager.pages (first+k))

def applied (call : PmmCall) (manager : ZiPhysicalMemoryManager) (first : ℕ) :
    ZiPhysicalMemoryManager :=
  { manager with
    pages := setPages manager.pages first call.newMetadata call.pageCount
    statistics := call.account manager.statistics }

/-- What a call answered and left: the manager as it was, or with one run found as required and
set. -/
def Returns (call : PmmCall) (manager : ZiPhysicalMemoryManager)
    (answer : Result ℕ × ZiPhysicalMemoryManager) : Prop :=
  (∃ status, answer = (.error status, manager)) ∨
  ∃ base range first, call.Accepted manager base range first ∧
    answer = (.ok base, call.applied manager first)

/-- The same for a function that is given the base and answers nothing else. -/
def Does (call : PmmCall) (manager : ZiPhysicalMemoryManager) (base : ℕ)
    (answer : Result Unit × ZiPhysicalMemoryManager) : Prop :=
  (∃ status, answer = (.error status, manager)) ∨
  ∃ range first, call.Accepted manager base range first ∧
    answer = (.ok (), call.applied manager first)

theorem Does.returns {call : PmmCall} {answer : Result Unit × ZiPhysicalMemoryManager}
    (h : call.Does mgr base answer) : call.Returns mgr (answer.1.map fun _ => base, answer.2) := by
  rcases h with ⟨status,rfl⟩ | ⟨range,first,hacc,rfl⟩
  · exact .inl ⟨status,rfl⟩
  · exact .inr ⟨base,range,first,hacc,rfl⟩

end PmmCall

section Inversion

theorem runIs_iff {test : ZiPhysicalPageMetadata → Bool} : runIs test mgr first count = true ↔
      ∀ k < count, test (mgr.pages (first+k)) = true := by
  simp [runIs]

theorem owner_mod_of_allocation (h : allocationOwnerIsValid owner = true) : owner%256 = owner := by
  simp only [allocationOwnerIsValid,ziMemoryOwnerAllocatorMetadata,ziMemoryOwnerTest,
    ziMemoryOwnerProcessImage,ziMemoryOwnerDma,decide_eq_true_iff] at h
  omega

theorem owner_mod_of_reservation (h : reservationOwnerIsValid owner = true) :
    owner%256 = owner := by
  simp only [reservationOwnerIsValid,Bool.or_eq_true,decide_eq_true_iff] at h
  rcases h with h | rfl
  · exact owner_mod_of_allocation h
  · rfl

theorem runIsFree_iff :
    runIsFree mgr first count = true ↔ ∀ k < count, (mgr.pages (first+k)).state = .free := by
  rw [runIsFree,runIs_iff]
  simp only [decide_eq_true_iff]

theorem pages_eq_of_runIs {state : ZiMemoryPageState}
    (h : runIs (fun page => page.state = state ∧ page.owner = owner) mgr first count = true) :
    ∀ k < count, mgr.pages (first+k) = ⟨state,owner⟩ := by
  intro k hk
  obtain ⟨hstate,howner⟩ := of_decide_eq_true (runIs_iff.mp h k hk)
  ext
  · exact hstate
  · exact howner

theorem PmmCall.ziPmmReserve_does (hwf : mgr.inventory.WellFormed) (base count owner : ℕ) :
    (reserve base count owner).Does mgr base (ziPmmReserve mgr base count owner) := by
  rw [ziPmmReserve]
  split
  · exact .inl ⟨_,rfl⟩
  next howner =>
  rw [Bool.not_eq_false] at howner
  split
  · exact .inl ⟨_,rfl⟩
  next first hlocate =>
  split
  · exact .inl ⟨_,rfl⟩
  next hfree =>
  obtain ⟨hpos,range,hrun⟩ := locatePageInterval_ok hwf hlocate
  rw [Bool.not_eq_false,runIsFree_iff] at hfree
  refine .inr ⟨range,first,⟨hrun,hpos,nofun,hfree⟩,?_⟩
  rw [owner_mod_of_reservation howner]
  rfl

theorem PmmCall.ziPmmReassignReserved_does (hwf : mgr.inventory.WellFormed)
    (base count expectedOwner newOwner : ℕ) :
    (reassignReserved base count expectedOwner newOwner).Does mgr base
      (ziPmmReassignReserved mgr base count expectedOwner newOwner) := by
  rw [ziPmmReassignReserved]
  split
  · exact .inl ⟨_,rfl⟩
  next howner =>
  split
  · exact .inl ⟨_,rfl⟩
  next first hlocate =>
  split
  · exact .inl ⟨_,rfl⟩
  next hrsv =>
  obtain ⟨hpos,range,hrun⟩ := locatePageInterval_ok hwf hlocate
  have hpages := pages_eq_of_runIs (Bool.not_eq_false _ ▸ hrsv)
  refine .inr ⟨range,first,⟨hrun,hpos,nofun,hpages⟩,?_⟩
  have hnew : newOwner%256 = newOwner := by
    have htest : ziMemoryOwnerTest = 11 := rfl
    omega
  rw [hnew,setOwners_eq_setPages fun k hk => congrArg ZiPhysicalPageMetadata.state (hpages k hk)]
  rfl

theorem PmmCall.ziPmmFree_does (hwf : mgr.inventory.WellFormed) (base count expectedOwner : ℕ) :
    (free base count expectedOwner).Does mgr base (ziPmmFree mgr base count expectedOwner) := by
  rw [ziPmmFree]
  split
  · exact .inl ⟨_,rfl⟩
  split
  · exact .inl ⟨_,rfl⟩
  next first hlocate =>
  split
  · exact .inl ⟨_,rfl⟩
  next halloc =>
  obtain ⟨hpos,range,hrun⟩ := locatePageInterval_ok hwf hlocate
  exact .inr ⟨range,first,⟨hrun,hpos,nofun,pages_eq_of_runIs (Bool.not_eq_false _ ▸ halloc)⟩,rfl⟩

/-- The manager after `allocate_from_range` took the run at an entry. -/
def ZiPhysicalMemoryManager.take (manager : ZiPhysicalMemoryManager) (slot : ℕ)
    (req : ZiPmmAllocationRequest) : ZiPhysicalMemoryManager :=
  { manager with
    pages := setPages manager.pages slot ⟨.allocated,req.owner%256⟩ req.pageCount
    statistics := manager.statistics.allocate req.pageCount }

theorem allocateAt_some (hv : range.Valid) {off physicalPage : ℕ}
    (hpage : off < range.pageCount → physicalPage*4096 = range.physicalBase+off*4096)
    (h : allocateAt mgr range metadataStart req off physicalPage = some (base, manager')) :
    ∃ found, found+req.pageCount ≤ range.pageCount ∧
      base = range.physicalBase+found*4096 ∧
      runIsFree mgr (metadataStart+found) req.pageCount = true ∧
      manager' = mgr.take (metadataStart+found) req := by
  fun_induction allocateAt with
  | case1 => cases h
  | case2 off physicalPage hin candidateMetadata candidateBase allocationSize hlimit hfree =>
    obtain ⟨hcandidate,hmanager⟩ := Prod.mk.inj (Option.some.inj h)
    have hlt : range.physicalBase+off*4096 < 2^64 :=
      (Nat.add_le_add_left (Nat.mul_le_mul_right _ hin.1.le) _).trans_lt hv.fits
    refine ⟨off,by omega,?_,hfree,hmanager.symm⟩
    rw [← hcandidate]
    simp only [candidateBase,ziMemoryPageSize,hpage hin.1]
    exact Nat.mod_eq_of_lt hlt
  | case3 off physicalPage hin _ _ _ _ _ ih =>
    apply ih _ h
    intro _
    rw [Nat.add_mul,Nat.add_mul,hpage hin.1,Nat.add_assoc]
  | case4 => cases h

theorem allocateFromRange_some (hv : range.Valid)
    (h : allocateFromRange mgr range metadataStart req = some (base, manager')) :
    range.type = ziBootMemoryUsable ∧
    ∃ found, found+req.pageCount ≤ range.pageCount ∧
      base = range.physicalBase+found*4096 ∧
      runIsFree mgr (metadataStart+found) req.pageCount = true ∧
      manager' = mgr.take (metadataStart+found) req := by
  simp only [allocateFromRange,ziMemoryPageSize] at h
  split at h
  · cases h
  next htype =>
  split at h
  · cases h
  next hfirst =>
  refine ⟨by omega,allocateAt_some hv ?_ h⟩
  -- The off is the difference of two page numbers below `2 ^ 64`, taken modulo `2 ^ 64`.
  have hmax := uint64Max_eq
  have := hv.aligned
  have := hv.fits
  omega

theorem allocateFromRanges_cases (hv : ∀ r ∈ ranges, r.Valid)
    (htotal : pageTotal (before ++ ranges) < 2^64) :
    (∃ status, allocateFromRanges mgr req (pageTotal before) ranges =
      (.error status, mgr)) ∨
    ∃ range after middle found, ranges = middle ++ range :: after ∧
      range.type = ziBootMemoryUsable ∧ found+req.pageCount ≤ range.pageCount ∧
      runIsFree mgr (pageTotal (before ++ middle)+found) req.pageCount = true ∧
      allocateFromRanges mgr req (pageTotal before) ranges =
        (.ok (range.physicalBase+found*4096),
          mgr.take (pageTotal (before ++ middle)+found) req) := by
  induction ranges generalizing before with
  | nil => exact .inl ⟨_,rfl⟩
  | cons range ranges ih =>
    rw [allocateFromRanges]
    split
    · next base manager' hsome =>
      obtain ⟨htype,found,hfound,rfl,hfree,rfl⟩ :=
        allocateFromRange_some (hv range mem_cons_self) hsome
      refine .inr ⟨range,ranges,[],found,rfl,htype,hfound,?_,?_⟩
      · rwa [append_nil]
      · rw [append_nil]
    · have hstart : (pageTotal before+range.pageCount)%2^64 = pageTotal (before ++ [range]) := by
        simp only [pageTotal_append,pageTotal_cons,pageTotal_nil] at htotal ⊢
        exact Nat.mod_eq_of_lt (by omega)
      rw [hstart]
      have hrest : pageTotal ((before ++ [range]) ++ ranges) < 2^64 := by simpa using htotal
      rcases ih (fun r hr => hv r (mem_cons_of_mem _ hr)) hrest with
        herr | ⟨r,after,middle,found,hr,htype,hfound,hfree,he⟩
      · exact .inl herr
      · rw [append_assoc,singleton_append] at hfree he
        exact .inr ⟨r,after,range :: middle,found,by rw [hr,cons_append],htype,hfound,
          hfree,he⟩

theorem PmmCall.ziPmmAllocateBelow_returns (hwf : mgr.inventory.WellFormed)
    (count alignment maximum owner : ℕ) :
    (allocateBelow count alignment maximum owner).Returns mgr
      (ziPmmAllocateBelow mgr count alignment maximum owner) := by
  rw [ziPmmAllocateBelow]
  split
  · exact .inl ⟨_,rfl⟩
  next hargs =>
  split
  · exact .inl ⟨_,rfl⟩
  push Not at hargs
  obtain ⟨hcount,-,-,howner,-⟩ := hargs
  rw [Bool.ne_false_iff] at howner
  have hlt := hwf.pageTotal_lt
  have htotal : pageTotal ([] ++ mgr.inventory.ranges) < 2^64 := by
    rw [nil_append]
    omega
  rcases allocateFromRanges_cases hwf.valid htotal with
    herr | ⟨range,after,before,found,hr,htype,hfound,hfree,he⟩
  · exact .inl herr
  · refine .inr ⟨_,range,_,⟨IsRun.of_range hr hfound,Nat.pos_of_ne_zero hcount,
      fun _ => htype,runIsFree_iff.mp hfree⟩,?_⟩
    rwa [ZiPhysicalMemoryManager.take,owner_mod_of_allocation howner] at he

theorem PmmCall.run_cases (hwf : mgr.inventory.WellFormed) (call : PmmCall) :
    call.Returns mgr (call.run mgr) := by
  cases call with
  | reserve base count owner => exact (ziPmmReserve_does hwf base count owner).returns
  | reassignReserved base count expectedOwner newOwner =>
    exact (ziPmmReassignReserved_does hwf base count expectedOwner newOwner).returns
  | allocate count alignment owner =>
    rcases ziPmmAllocateBelow_returns hwf count alignment uint64Max owner with
      herr | ⟨base,range,first,hacc,h⟩
    · exact .inl herr
    · exact .inr ⟨base,range,first,
        ⟨hacc.isRun,hacc.nonempty,fun _ => hacc.usable rfl,hacc.required⟩,h⟩
  | allocateBelow count alignment maximum owner =>
    exact ziPmmAllocateBelow_returns hwf count alignment maximum owner
  | free base count expectedOwner => exact (ziPmmFree_does hwf base count expectedOwner).returns

end Inversion

/-! ## The start of a run -/

def startMetadata (ranges : List ZiMemoryRange) (page : ℕ) : ZiPhysicalPageMetadata :=
  match ranges.find? (containsAddress page) with
  | some range => initialMetadata range
  | none => ⟨.unmanaged,0⟩

theorem startMetadata_eq (hwf : inv.WellFormed) {after : List ZiMemoryRange} {k : ℕ}
    (hr : inv.ranges = before ++ range :: after) (hk : k < range.pageCount) :
    startMetadata inv.ranges (range.physicalBase+k*4096) = initialMetadata range := by
  have hfind : inv.ranges.find? (containsAddress (range.physicalBase+k*4096)) = some range := by
    rw [hr,find?_append]
    have hnone : before.find? (containsAddress (range.physicalBase+k*4096)) = none := by
      apply find?_eq_none.mpr
      intro r hmem
      have hbefore : r.Before range := hwf.range_before hr hmem
      rw [ZiMemoryRange.Before] at hbefore
      rw [containsAddress_iff (hwf.valid r (by simp [hr,hmem]))]
      omega
    rw [hnone,find?_cons_of_pos]
    · rfl
    · rw [containsAddress_iff (hwf.range_valid hr)]
      omega
  rw [startMetadata,hfind]

/-- The loop of `zi_pmm_initialise` after it has visited `ranges`, of `n` pages in all. -/
structure InitialisedTo (n : ℕ) (ranges : List ZiMemoryRange) (acc : PmmInitialisation) :
    Prop where
  index : acc.metadataIndex = pageTotal ranges
  rest : ∀ slot, pageTotal ranges ≤ slot → acc.pages slot = ⟨.unmanaged,0⟩
  entries : ∀ before range after k, ranges = before ++ range :: after → k < range.pageCount →
    acc.pages (pageTotal before+k) = initialMetadata range
  statistics : acc.statistics = ⟨pageTotal ranges,entryCount acc.pages n .free,
    entryCount acc.pages n .reserved,entryCount acc.pages n .allocated⟩

theorem initialisedTo_nil (n : ℕ) : InitialisedTo n [] ⟨fun _ => ⟨.unmanaged,0⟩,⟨0,0,0,0⟩,0⟩ := by
  have hcount : ∀ state, state ≠ .unmanaged → entryCount (fun _ => ⟨.unmanaged,0⟩) n state = 0 := by
    intro state hne
    apply countP_eq_zero.mpr
    intro slot _
    simpa using hne.symm
  refine ⟨rfl,fun _ _ => rfl,?_,?_⟩
  · intro before range after k hr
    exact absurd hr (by simp)
  · show _ = ZiPhysicalMemoryStatistics.mk 0 (entryCount _ n .free) (entryCount _ n .reserved)
      (entryCount _ n .allocated)
    rw [hcount .free (by decide),hcount .reserved (by decide),hcount .allocated (by decide)]

theorem InitialisedTo.initialiseRange {acc : PmmInitialisation} (h : InitialisedTo n ranges acc)
    (range : ZiMemoryRange) (hn : pageTotal (ranges ++ [range]) ≤ n) (hlt : n < 2^64) :
    InitialisedTo n (ranges ++ [range]) (initialiseRange acc range) := by
  have htotal : pageTotal (ranges ++ [range]) = pageTotal ranges+range.pageCount := by simp
  rw [htotal] at hn
  have hcount : ∀ state, entryCount (Zizium.initialiseRange acc range).pages n state +
          (if ZiMemoryPageState.unmanaged = state then range.pageCount else 0) =
        entryCount acc.pages n state +
          (if (initialMetadata range).state = state then range.pageCount else 0) := by
    intro state
    apply entryCount_setPages
    · intro k _
      rw [h.index,h.rest _ (by omega)]
    · rwa [h.index]
  have hfree := hcount .free
  have hrsv := hcount .reserved
  have halloc := hcount .allocated
  have hle : ∀ state, entryCount (Zizium.initialiseRange acc range).pages n state ≤ n :=
    fun _ => entryCount_le
  have hlef := hle .free
  have hler := hle .reserved
  refine ⟨?_,?_,?_,?_⟩
  · show (acc.metadataIndex+range.pageCount)%2^64 = _
    rw [htotal,h.index]
    exact Nat.mod_eq_of_lt (by omega)
  · intro slot hslot
    show setPages _ _ _ _ slot = _
    rw [setPages_apply,h.index,if_neg (by omega)]
    exact h.rest slot (by omega)
  · intro before r after k hr hk
    show setPages _ _ _ _ _ = _
    rw [setPages_apply,h.index]
    rcases eq_nil_or_concat after with rfl | ⟨after',last,rfl⟩
    · obtain ⟨rfl,hlast⟩ := append_inj' hr rfl
      cases hlast
      rw [if_pos (by omega)]
    · -- The page belongs to a range visited before.
      have hconcat : ranges ++ [range] = (before ++ r :: after') ++ [last] := by
        rw [hr,concat_eq_append,append_assoc,cons_append]
      have hr' : ranges = before ++ r :: after' := (append_inj' hconcat rfl).1
      have hk' : pageTotal before+k < pageTotal ranges := by
        rw [hr',pageTotal_append,pageTotal_cons]
        omega
      rw [if_neg (by omega)]
      exact h.entries before r after' k hr' hk
  · have hstat := h.statistics
    by_cases htype : range.type = ziBootMemoryUsable
    · have hstate : (initialMetadata range).state = .free := by simp [initialMetadata,htype]
      simp only [hstate,reduceCtorEq,if_false,if_true] at hfree hrsv halloc
      simp only [Zizium.initialiseRange,htype,if_true,hstat,htotal] at *
      congr 1 <;> omega
    · have hstate : (initialMetadata range).state = .reserved := by simp [initialMetadata,htype]
      simp only [hstate,reduceCtorEq,if_false,if_true] at hfree hrsv halloc
      simp only [Zizium.initialiseRange,htype,if_false,hstat,htotal] at *
      congr 1 <;> omega

theorem initialisedTo_foldl (hlt : n < 2^64) (hn : pageTotal ranges ≤ n) : InitialisedTo n ranges
      (ranges.foldl initialiseRange ⟨fun _ => ⟨.unmanaged,0⟩,⟨0,0,0,0⟩,0⟩) := by
  induction ranges using reverseRecOn with
  | nil => exact initialisedTo_nil n
  | append_singleton ranges range ih =>
    rw [foldl_append]
    refine (ih ?_).initialiseRange range hn hlt
    rw [pageTotal_append] at hn
    omega

/-! ## Runs -/

/-- A manager with the record of its run: the metadata last set for each page, and for each
allocation its pages that were not freed since. -/
structure PmmHistory where
  manager : ZiPhysicalMemoryManager
  lastSet : ℕ → ZiPhysicalPageMetadata
  live : List (List ℕ)

namespace PmmHistory

/-- The history of a manager on which no call was made yet. -/
def start (manager : ZiPhysicalMemoryManager) : PmmHistory :=
  ⟨manager,startMetadata manager.inventory.ranges,[]⟩

def liveAfter (call : PmmCall) (interval : List ℕ) (live : List (List ℕ)) : List (List ℕ) :=
  match call with
  | .allocate .. => interval :: live
  | .allocateBelow .. => interval :: live
  | .free .. => live.map fun pages => pages.filter fun page => page ∉ interval
  | _ => live

def step (h : PmmHistory) (call : PmmCall) : PmmHistory :=
  match call.run h.manager with
  | (.error _, manager) => { h with manager }
  | (.ok base, manager) =>
    { manager
      lastSet := fun page =>
        if page ∈ pagesFrom base call.pageCount then call.newMetadata else h.lastSet page
      live := liveAfter call (pagesFrom base call.pageCount) h.live }

def run (h : PmmHistory) (calls : List PmmCall) : PmmHistory := calls.foldl step h

end PmmHistory

def IsUsable (ranges : List ZiMemoryRange) (page : ℕ) : Prop :=
  ∃ range ∈ ranges, range.type = ziBootMemoryUsable ∧
    page ∈ pagesFrom range.physicalBase range.pageCount

def stateCount (manager : ZiPhysicalMemoryManager) (state : ZiMemoryPageState) : ℕ :=
  (managedPages manager.inventory.ranges).countP fun page =>
    (ziPmmQuery manager page).toOption.map ZiPhysicalPageMetadata.state = some state

/-- The manager agrees with the record of its run. -/
structure PmmHistory.Sound (h : PmmHistory) : Prop where
  /-- The statistics are the numbers of managed pages in each state. -/
  statistics : ziPmmStatistics h.manager =
    ⟨(managedPages h.manager.inventory.ranges).length,stateCount h.manager .free,
      stateCount h.manager .reserved,stateCount h.manager .allocated⟩
  /-- The managed pages are distinct, and the index enumerates the entries. -/
  distinct : (managedPages h.manager.inventory.ranges).Nodup
  index : (managedPages h.manager.inventory.ranges).map (locatePage h.manager.inventory) =
    (List.range h.manager.metadataPageCount).map Except.ok
  /-- A query reports what was last set for the page of the address. -/
  query : ∀ address, ziPmmQuery h.manager address =
    if address-address%ziMemoryPageSize ∈ managedPages h.manager.inventory.ranges then
      .ok (h.lastSet (address-address%ziMemoryPageSize))
    else .error .outOfBounds
  /-- Live allocations do not overlap, and consist of usable pages in the allocated state. -/
  disjoint : h.live.Pairwise List.Disjoint
  allocated : ∀ pages ∈ h.live, ∀ page ∈ pages,
    page ∈ managedPages h.manager.inventory.ranges ∧
      IsUsable h.manager.inventory.ranges page ∧ (h.lastSet page).state = .allocated

structure PmmCall.Exact (call : PmmCall) (manager : ZiPhysicalMemoryManager) : Prop where
  /-- A failing call changes neither the pages nor the statistics. -/
  failed : ∀ status manager', call.run manager = (.error status, manager') → manager' = manager
  /-- An allocation returns pages that were free and lie in usable ranges. -/
  allocated : ∀ base manager', call.allocates = true → call.run manager = (.ok base, manager') →
    ∀ page ∈ pagesFrom base call.pageCount, IsUsable manager.inventory.ranges page ∧
      ∃ metadata, ziPmmQuery manager page = .ok metadata ∧ metadata.state = .free
  /-- A free call succeeds only on pages that are all allocated to the owner. -/
  freed : ∀ base count owner manager', call = .free base count owner →
    call.run manager = (.ok base, manager') →
      ∀ page ∈ pagesFrom base count, ziPmmQuery manager page = .ok ⟨.allocated,owner⟩
  /-- A successful call sets the pages of its interval and no others; a free call frees them. -/
  changed : ∀ base manager', call.run manager = (.ok base, manager') →
    ∀ address, ziPmmQuery manager' address =
      if address-address%ziMemoryPageSize ∈ pagesFrom base call.pageCount then
        .ok call.newMetadata
      else ziPmmQuery manager address

/-- The invariant of a run: entries and counters agree with the record. -/
structure PmmHistory.Agrees (h : PmmHistory) : Prop where
  wellFormed : h.manager.inventory.WellFormed
  total : h.manager.metadataPageCount = pageTotal h.manager.inventory.ranges
  statistics : h.manager.statistics =
    ⟨pageTotal h.manager.inventory.ranges,
      entryCount h.manager.pages (pageTotal h.manager.inventory.ranges) .free,
      entryCount h.manager.pages (pageTotal h.manager.inventory.ranges) .reserved,
      entryCount h.manager.pages (pageTotal h.manager.inventory.ranges) .allocated⟩
  recorded : ∀ slot page, (managedPages h.manager.inventory.ranges)[slot]? = some page →
    h.manager.pages slot = h.lastSet page
  disjoint : h.live.Pairwise List.Disjoint
  allocated : ∀ pages ∈ h.live, ∀ page ∈ pages,
    page ∈ managedPages h.manager.inventory.ranges ∧
      IsUsable h.manager.inventory.ranges page ∧ (h.lastSet page).state = .allocated

theorem PmmHistory.agrees_start (hwf : inv.WellFormed) {metadataSize : ℕ}
    (h : ziPmmInitialise inv metadataSize = .ok mgr) : (start mgr).Agrees := by
  rw [ziPmmInitialise] at h
  split at h
  · cases h
  split at h
  · cases h
  split at h
  · cases h
  cases h
  have hlt := hwf.pageTotal_lt
  have hinit := initialisedTo_foldl (show pageTotal inv.ranges < 2^64 by omega) le_rfl
  refine ⟨hwf,hwf.managed,hinit.statistics,?_,List.Pairwise.nil,nofun⟩
  intro slot page hslot
  obtain ⟨hbound,-⟩ := List.getElem?_eq_some_iff.mp hslot
  rw [length_managedPages] at hbound
  obtain ⟨before,range,after,k,hr,hk,rfl⟩ := exists_range_of_lt hbound
  have hpage : (managedPages (before ++ range :: after))[pageTotal before+k]? =
      some (range.physicalBase+k*4096) := getElem?_managedPages hk
  rw [← hr] at hpage
  cases Option.some.inj (hslot.symm.trans hpage)
  exact (hinit.entries before range after k hr hk).trans (startMetadata_eq hwf hr hk).symm

section Step

variable {h : PmmHistory} {call : PmmCall}

theorem PmmCall.account_eq {total free reserved allocated free' reserved' allocated' : ℕ}
    (hlt : total < 2^52) (hf : free ≤ total ∧ free' ≤ total)
    (hr : reserved ≤ total ∧ reserved' ≤ total) (ha : allocated ≤ total ∧ allocated' ≤ total)
    (hfree : free'+(if call.oldState = .free then call.pageCount else 0) =
      free+(if call.newMetadata.state = .free then call.pageCount else 0))
    (hrsv : reserved'+(if call.oldState = .reserved then call.pageCount else 0) =
      reserved+(if call.newMetadata.state = .reserved then call.pageCount else 0))
    (halloc : allocated'+(if call.oldState = .allocated then call.pageCount else 0) =
      allocated+(if call.newMetadata.state = .allocated then call.pageCount else 0)) :
    call.account ⟨total,free,reserved,allocated⟩ = ⟨total,free',reserved',allocated'⟩ := by
  cases call with
  | reassignReserved =>
    simp only [oldState,newMetadata,pageCount,reduceCtorEq,if_false,if_true] at *
    rw [account,show free' = free by omega,show reserved' = reserved by omega,
      show allocated' = allocated by omega]
  | _ =>
    simp only [oldState,newMetadata,pageCount,reduceCtorEq,if_false,if_true] at *
    simp only [account,ZiPhysicalMemoryStatistics.reserve,ZiPhysicalMemoryStatistics.allocate,
      ZiPhysicalMemoryStatistics.free,ZiPhysicalMemoryStatistics.mk.injEq,true_and]
    refine ⟨?_,?_,?_⟩ <;> omega

def PmmHistory.accepted (h : PmmHistory) (call : PmmCall) (base first : ℕ) : PmmHistory where
  manager := call.applied h.manager first
  lastSet := fun page =>
    if page ∈ pagesFrom base call.pageCount then call.newMetadata else h.lastSet page
  live := liveAfter call (pagesFrom base call.pageCount) h.live

theorem PmmHistory.usable_of_accepted (hacc : call.Accepted h.manager base range first)
    (hcall : call.allocates = true) (hpage : page ∈ pagesFrom base call.pageCount) :
    IsUsable h.manager.inventory.ranges page :=
  ⟨range,hacc.isRun.mem,hacc.usable hcall,hacc.isRun.inside page hpage⟩

/-- The live allocations after a call, with the record the call leaves. -/
structure PmmHistory.LiveSound (h : PmmHistory) (lastSet : ℕ → ZiPhysicalPageMetadata)
    (live : List (List ℕ)) : Prop where
  disjoint : live.Pairwise List.Disjoint
  allocated : ∀ pages ∈ live, ∀ page ∈ pages,
    page ∈ managedPages h.manager.inventory.ranges ∧
      IsUsable h.manager.inventory.ranges page ∧ (lastSet page).state = .allocated

namespace PmmHistory.Agrees

theorem live_free (ha : h.Agrees) : h.LiveSound (h.accepted call base first).lastSet
      (h.live.map fun pages => pages.filter fun page => page ∉ pagesFrom base call.pageCount) := by
  constructor
  · apply pairwise_map.mpr
    refine ha.disjoint.imp ?_
    intro pages others hdisjoint page hpage hother
    exact hdisjoint (mem_of_mem_filter hpage) (mem_of_mem_filter hother)
  · intro pages hpages page hpage
    obtain ⟨old,hold,rfl⟩ := mem_map.mp hpages
    obtain ⟨hmem,hout⟩ := mem_filter.mp hpage
    obtain ⟨hmanaged,husable,hstate⟩ := ha.allocated old hold page hmem
    refine ⟨hmanaged,husable,?_⟩
    show (if _ then _ else _ : ZiPhysicalPageMetadata).state = _
    rwa [if_neg (of_decide_eq_true hout)]

section

variable (ha : h.Agrees) (hacc : call.Accepted h.manager base range first)

include ha hacc

theorem lastSet_of_accepted (hpage : page ∈ pagesFrom base call.pageCount) :
    page ∈ managedPages h.manager.inventory.ranges ∧ call.Requires (h.lastSet page) := by
  obtain ⟨k,hk,rfl⟩ := mem_pagesFrom.mp hpage
  have hslot := hacc.isRun.slots k hk
  refine ⟨mem_of_getElem? hslot,?_⟩
  rw [← ha.recorded _ _ hslot]
  exact hacc.required k hk

theorem account : call.account h.manager.statistics = ⟨pageTotal h.manager.inventory.ranges,
        entryCount (call.applied h.manager first).pages (pageTotal h.manager.inventory.ranges)
          .free,
        entryCount (call.applied h.manager first).pages (pageTotal h.manager.inventory.ranges)
          .reserved,
        entryCount (call.applied h.manager first).pages (pageTotal h.manager.inventory.ranges)
          .allocated⟩ := by
  have hlt := ha.wellFormed.pageTotal_lt
  have hcount : ∀ state,
      entryCount (call.applied h.manager first).pages (pageTotal h.manager.inventory.ranges) state +
          (if call.oldState = state then call.pageCount else 0) =
        entryCount h.manager.pages (pageTotal h.manager.inventory.ranges) state +
          (if call.newMetadata.state = state then call.pageCount else 0) :=
    fun state => entryCount_setPages (fun k hk => (hacc.required k hk).state)
      (hacc.isRun.last_le hacc.nonempty)
  rw [ha.statistics]
  exact PmmCall.account_eq (by omega) ⟨entryCount_le,entryCount_le⟩
    ⟨entryCount_le,entryCount_le⟩ ⟨entryCount_le,entryCount_le⟩ (hcount .free)
    (hcount .reserved) (hcount .allocated)

theorem recorded_accepted (slot page : ℕ)
    (hslot : (managedPages h.manager.inventory.ranges)[slot]? = some page) :
    (call.applied h.manager first).pages slot = (h.accepted call base first).lastSet page := by
  show setPages _ _ _ _ slot = if _ then _ else _
  have hmem := hacc.isRun.mem_iff ha.wellFormed hslot
  rw [setPages_apply]
  by_cases hpage : page ∈ pagesFrom base call.pageCount
  · rw [if_pos (hmem.mp hpage),if_pos hpage]
  · rw [if_neg fun hin => hpage (hmem.mpr hin),if_neg hpage]
    exact ha.recorded slot page hslot

theorem live_untouched (hold : call.oldState ≠ .allocated) {pages : List ℕ}
    (hpages : pages ∈ h.live) : (pagesFrom base call.pageCount).Disjoint pages := by
  intro page hpage hlive
  have hstate := (ha.lastSet_of_accepted hacc hpage).2.state
  rw [(ha.allocated pages hpages page hlive).2.2] at hstate
  exact hold hstate.symm

theorem live_keep (hold : call.oldState ≠ .allocated) :
    h.LiveSound (h.accepted call base first).lastSet h.live := by
  refine ⟨ha.disjoint,?_⟩
  intro pages hpages page hpage
  obtain ⟨hmanaged,husable,hstate⟩ := ha.allocated pages hpages page hpage
  refine ⟨hmanaged,husable,?_⟩
  show (if _ then _ else _ : ZiPhysicalPageMetadata).state = _
  rwa [if_neg fun hin => ha.live_untouched hacc hold hpages hin hpage]

theorem live_allocate (hcall : call.allocates = true) (hold : call.oldState ≠ .allocated)
    (hnew : call.newMetadata.state = .allocated) :
    h.LiveSound (h.accepted call base first).lastSet
      (pagesFrom base call.pageCount :: h.live) := by
  have hkeep := ha.live_keep hacc hold
  refine ⟨pairwise_cons.mpr ⟨fun pages hp => ha.live_untouched hacc hold hp,hkeep.disjoint⟩,
    ?_⟩
  intro pages hpages page hpage
  rcases mem_cons.mp hpages with rfl | hpages
  · refine ⟨(ha.lastSet_of_accepted hacc hpage).1,usable_of_accepted hacc hcall hpage,?_⟩
    show (if _ then _ else _ : ZiPhysicalPageMetadata).state = _
    rwa [if_pos hpage]
  · exact hkeep.allocated pages hpages page hpage

theorem accepted : (h.accepted call base first).Agrees := by
  have hlive : h.LiveSound (h.accepted call base first).lastSet
      (h.accepted call base first).live := by
    cases call with
    | reserve => exact ha.live_keep hacc (by simp [PmmCall.oldState])
    | reassignReserved => exact ha.live_keep hacc (by simp [PmmCall.oldState])
    | allocate => exact ha.live_allocate hacc rfl (by simp [PmmCall.oldState]) rfl
    | allocateBelow => exact ha.live_allocate hacc rfl (by simp [PmmCall.oldState]) rfl
    | free => exact ha.live_free
  exact ⟨ha.wellFormed,ha.total,ha.account hacc,ha.recorded_accepted hacc,hlive.disjoint,
    hlive.allocated⟩

end

theorem step (ha : h.Agrees) (call : PmmCall) : (h.step call).Agrees := by
  rcases call.run_cases ha.wellFormed with ⟨status,hrun⟩ | ⟨base,range,first,hacc,hrun⟩
  · rwa [PmmHistory.step,hrun]
  · rw [PmmHistory.step,hrun]
    exact ha.accepted hacc

theorem run (ha : h.Agrees) (calls : List PmmCall) : (h.run calls).Agrees := by
  induction calls generalizing h with
  | nil => exact ha
  | cons call calls ih => exact ih (ha.step call)

end PmmHistory.Agrees

/-! ## What the invariant says -/

theorem ziPmmQuery_eq_map (mgr : ZiPhysicalMemoryManager) (address : ℕ) :
    ziPmmQuery mgr address = (locatePage mgr.inventory address).map mgr.pages := by
  rw [ziPmmQuery]
  split
  · next hlocate => rw [hlocate]; rfl
  · next hlocate => rw [hlocate]; rfl

namespace PmmHistory.Agrees

theorem query (ha : h.Agrees) (address : ℕ) : ziPmmQuery h.manager address =
      if address-address%4096 ∈ managedPages h.manager.inventory.ranges then
        .ok (h.lastSet (address-address%4096))
      else .error .outOfBounds := by
  rw [ziPmmQuery]
  by_cases hpage : address-address%4096 ∈ managedPages h.manager.inventory.ranges
  · obtain ⟨slot,hslot⟩ := mem_iff_getElem?.mp hpage
    have hlocate := locatePage_of_getElem? ha.wellFormed hslot
      (Nat.mod_lt address (show 4096 > 0 by decide))
    rw [Nat.sub_add_cancel (Nat.mod_le _ _)] at hlocate
    rw [if_pos hpage,hlocate]
    exact congrArg Except.ok (ha.recorded slot _ hslot)
  · rw [if_neg hpage]
    cases hlocate : locatePage h.manager.inventory address with
    | ok slot => exact absurd (mem_of_getElem? (locatePage_ok ha.wellFormed hlocate)) hpage
    | error status =>
      rw [locatePage,locateIn] at hlocate
      split at hlocate
      · cases hlocate
        rfl
      · cases hlocate

theorem query_page (ha : h.Agrees) (hpage : page ∈ managedPages h.manager.inventory.ranges) :
    ziPmmQuery h.manager page = .ok (h.lastSet page) := by
  have halign := managedPages_aligned ha.wellFormed hpage
  rw [ha.query page,halign,Nat.sub_zero,if_pos hpage]

theorem stateCount_eq (ha : h.Agrees) (state : ZiMemoryPageState) : stateCount h.manager state =
      entryCount h.manager.pages (pageTotal h.manager.inventory.ranges) state := by
  let test : Result ℕ → Bool := fun located =>
    (located.map h.manager.pages).toOption.map ZiPhysicalPageMetadata.state = some state
  have hleft : stateCount h.manager state = ((managedPages h.manager.inventory.ranges).map
        (locatePage h.manager.inventory)).countP test := by
    rw [countP_map,stateCount]
    apply countP_congr
    intro page _
    rw [ziPmmQuery_eq_map]
    rfl
  rw [hleft,locatePage_managedPages ha.wellFormed,countP_map,ha.wellFormed.managed]
  apply countP_congr
  intro slot _
  simp [test,Except.map,Except.toOption]

theorem sound (ha : h.Agrees) : h.Sound where
  statistics := by
    rw [ha.stateCount_eq,ha.stateCount_eq,ha.stateCount_eq,length_managedPages]
    exact ha.statistics
  distinct := nodup_managedPages ha.wellFormed
  index := by
    rw [ha.total,← ha.wellFormed.managed]
    exact locatePage_managedPages ha.wellFormed
  query := ha.query
  disjoint := ha.disjoint
  allocated := ha.allocated

theorem query_accepted (ha : h.Agrees) (hacc : call.Accepted h.manager base range first)
    (address : ℕ) :
    ziPmmQuery (call.applied h.manager first) address =
      if address-address%4096 ∈ pagesFrom base call.pageCount then .ok call.newMetadata
      else ziPmmQuery h.manager address := by
  have hquery := (ha.accepted hacc).query address
  simp only [PmmHistory.accepted] at hquery
  rw [hquery,ha.query address]
  by_cases hin : address-address%4096 ∈ pagesFrom base call.pageCount
  · rw [if_pos hin,if_pos hin]
    exact if_pos (ha.lastSet_of_accepted hacc hin).1
  · rw [if_neg hin,if_neg hin]
    rfl

theorem exact (ha : h.Agrees) (call : PmmCall) : call.Exact h.manager := by
  rcases call.run_cases ha.wellFormed with ⟨status,hrun⟩ | ⟨base,range,first,hacc,hrun⟩
  · refine ⟨?_,?_,?_,?_⟩
    · intro status' manager' h'
      exact (Prod.mk.inj (h'.symm.trans hrun)).2
    · intro base manager' _ h'
      cases h'.symm.trans hrun
    · intro base count owner manager' _ h'
      cases h'.symm.trans hrun
    · intro base manager' h'
      cases h'.symm.trans hrun
  · have hpages : ∀ page ∈ pagesFrom base call.pageCount, ∃ metadata,
        ziPmmQuery h.manager page = .ok metadata ∧ call.Requires metadata := by
      intro page hpage
      obtain ⟨hmanaged,hrequired⟩ := ha.lastSet_of_accepted hacc hpage
      exact ⟨_,ha.query_page hmanaged,hrequired⟩
    refine ⟨?_,?_,?_,?_⟩
    · intro status manager' h'
      cases h'.symm.trans hrun
    · intro base' manager' hcall h' page hpage
      cases h'.symm.trans hrun
      obtain ⟨metadata,hquery,hrequired⟩ := hpages page hpage
      refine ⟨PmmHistory.usable_of_accepted hacc hcall hpage,metadata,hquery,?_⟩
      cases call with
      | allocate => exact hrequired
      | allocateBelow => exact hrequired
      | _ => cases hcall
    · intro base' count owner manager' hcall h' page hpage
      cases h'.symm.trans hrun
      subst hcall
      obtain ⟨metadata,hquery,hrequired⟩ := hpages page hpage
      rw [hquery,show metadata = _ from hrequired]
    · intro base' manager' h'
      cases h'.symm.trans hrun
      exact ha.query_accepted hacc

end PmmHistory.Agrees

end Step

/-- Every state of every run agrees with its record, and every call from it does exactly what
its result says. -/
theorem pmm_invariant {bootRanges : List ZiBootMemoryRange} {storageCapacity metadataSize : ℕ}
    {inventory : ZiMemoryInventory} {mgr : ZiPhysicalMemoryManager}
    (hbuild : ziMemoryInventoryBuild bootRanges storageCapacity = .ok inventory)
    (hinitialise : ziPmmInitialise inventory metadataSize = .ok mgr) (calls : List PmmCall) :
    ((PmmHistory.start mgr).run calls).Sound ∧
      ∀ call : PmmCall, call.Exact ((PmmHistory.start mgr).run calls).manager := by
  have hstart := PmmHistory.agrees_start (wellFormed_of_build hbuild) hinitialise
  have hagrees := hstart.run calls
  exact ⟨hagrees.sound,hagrees.exact⟩

/-- A boot map of one reserved and three usable pages, given in the wrong order. -/
theorem pmm_invariant_four_pages : ∃ inventory mgr,
    ziMemoryInventoryBuild [⟨0x1000,0x3000,0⟩,⟨0,0x1000,1⟩] 2 = .ok inventory ∧
    ziPmmInitialise inventory 8 = .ok mgr ∧
    managedPages mgr.inventory.ranges = [0,0x1000,0x2000,0x3000] ∧
    ((PmmHistory.start mgr).run
      [.allocate 2 1 9,.free 0x1000 1 9,.reserve 0x1000 1 12]).Sound := by
  have hbuild : ziMemoryInventoryBuild [⟨0x1000,0x3000,0⟩,⟨0,0x1000,1⟩] 2 =
      .ok ⟨[⟨0,1,1,1⟩,⟨0x1000,3,0,0⟩],2,0x4000,4,3⟩ := by decide +kernel
  obtain ⟨mgr,hmanager,hinventory⟩ : ∃ mgr,
      ziPmmInitialise ⟨[⟨0,1,1,1⟩,⟨0x1000,3,0,0⟩],2,0x4000,4,3⟩ 8 = .ok mgr ∧
        mgr.inventory.ranges = [⟨0,1,1,1⟩,⟨0x1000,3,0,0⟩] := ⟨_,rfl,rfl⟩
  refine ⟨_,mgr,hbuild,hmanager,?_,(pmm_invariant hbuild hmanager _).1⟩
  rw [hinventory]
  rfl

end Zizium
