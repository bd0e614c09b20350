import Zizium.Mm.Pmm

/-!
# The page index of the physical memory manager

Every inventory that `ziMemoryInventoryBuild` returns has page-aligned ranges in the order of their
addresses, so that the translation from a page to its metadata entry is a bijection.
-/

namespace Zizium

open List

/-! ## Well-formed inventories -/

/-- Page-aligned, not empty, and inside the 64-bit address space. -/
structure ZiMemoryRange.Valid (range : ZiMemoryRange) : Prop where
  aligned : range.physicalBase%4096 = 0
  nonempty : 0 < range.pageCount
  fits : range.physicalBase+range.pageCount*4096 < 2^64

variable {range : ZiMemoryRange} {ranges before after : List ZiMemoryRange}
  {merged : List ZiMemoryRange × ZiMemoryInventoryTotals} {test : ZiMemoryRange → Bool}

/-- The first range ends where the second begins, or earlier. -/
def ZiMemoryRange.Before (range other : ZiMemoryRange) : Prop :=
  range.physicalBase+range.pageCount*4096 ≤ other.physicalBase

theorem ZiMemoryRange.Valid.size_eq (h : range.Valid) : range.size = range.pageCount*4096 := by
  have := h.fits
  exact Nat.mod_eq_of_lt (show range.pageCount*4096 < 2^64 by omega)

theorem ZiMemoryRange.Valid.endAddress_eq (h : range.Valid) :
    range.endAddress = range.physicalBase+range.pageCount*4096 := by
  rw [endAddress,h.size_eq]
  exact Nat.mod_eq_of_lt h.fits

def pageTotal (ranges : List ZiMemoryRange) : ℕ := (ranges.map ZiMemoryRange.pageCount).sum

@[simp] theorem pageTotal_nil : pageTotal [] = 0 := rfl

@[simp] theorem pageTotal_cons (range : ZiMemoryRange) (ranges : List ZiMemoryRange) :
    pageTotal (range :: ranges) = range.pageCount+pageTotal ranges := by
  simp [pageTotal]

@[simp] theorem pageTotal_append (ranges others : List ZiMemoryRange) :
    pageTotal (ranges ++ others) = pageTotal ranges+pageTotal others := by
  simp [pageTotal]

@[simp] theorem pageTotal_reverse (ranges : List ZiMemoryRange) :
    pageTotal ranges.reverse = pageTotal ranges := by
  simp [pageTotal]

structure ZiMemoryInventory.WellFormed (inventory : ZiMemoryInventory) : Prop where
  valid : ∀ range ∈ inventory.ranges, range.Valid
  ordered : inventory.ranges.Pairwise ZiMemoryRange.Before
  managed : inventory.managedPageCount = pageTotal inventory.ranges

variable {inv : ZiMemoryInventory}

theorem pageTotal_le_of_ordered {earlier : List ZiMemoryRange}
    (h : (range :: earlier).Pairwise fun later r => r.Before later) :
    pageTotal (range :: earlier)*4096 ≤ range.physicalBase+range.pageCount*4096 := by
  induction earlier generalizing range with
  | nil => simp
  | cons previous earlier ih =>
    have hbefore : previous.Before range := rel_of_pairwise_cons h mem_cons_self
    have hlast : pageTotal (previous :: earlier)*4096 ≤ range.physicalBase :=
      (ih h.of_cons).trans hbefore
    rw [pageTotal_cons,Nat.add_mul,Nat.add_comm]
    exact Nat.add_le_add_right hlast _

theorem pageTotal_lt_of_ordered (hv : ∀ r ∈ ranges, r.Valid)
    (ho : ranges.Pairwise fun later r => r.Before later) : pageTotal ranges*4096 < 2^64 := by
  cases ranges with
  | nil => exact Nat.two_pow_pos 64
  | cons range earlier =>
    have hfits := (hv range mem_cons_self).fits
    have hle := pageTotal_le_of_ordered ho
    omega

theorem ZiMemoryInventory.WellFormed.pageTotal_lt (h : inv.WellFormed) :
    pageTotal inv.ranges*4096 < 2^64 := by
  rw [← pageTotal_reverse]
  apply pageTotal_lt_of_ordered
  · intro range hr
    exact h.valid range (mem_reverse.mp hr)
  · exact pairwise_reverse.mpr h.ordered

/-! ## The build -/

theorem copyBootRange_ok {source : ZiBootMemoryRange} (h : copyBootRange source = .ok range) :
    range.Valid := by
  rw [copyBootRange] at h
  split at h
  · cases h
  · next hc =>
    cases h
    push Not at hc
    simp only [ziMemoryPageSize] at hc ⊢
    obtain ⟨hsize,-,hbase,halign,hfits⟩ := hc
    have hmax := uint64Max_eq
    have hlt := source.size.toNat_lt
    refine ⟨hbase,?_,?_⟩ <;> dsimp only <;> omega

theorem mapM_ok_mem {α β : Type} {f : α → Result β} {l : List α} {out : List β}
    (h : l.mapM f = .ok out) : ∀ b ∈ out, ∃ a, f a = .ok b := by
  induction l generalizing out with
  | nil =>
    cases h
    simp
  | cons a l ih =>
    rw [mapM_cons] at h
    obtain ⟨b,hb,h⟩ := BlockIO.Except.bind_ok_iff.mp h
    obtain ⟨rest,hrest,h⟩ := BlockIO.Except.bind_ok_iff.mp h
    cases h
    exact forall_mem_cons.mpr ⟨⟨a,hb⟩,ih hrest⟩

theorem mem_sortRanges (h : range ∈ sortRanges ranges) : range ∈ ranges := by
  suffices ∀ sorted : List ZiMemoryRange, range ∈ ranges.foldl
    (fun (sorted : List ZiMemoryRange) value =>
      sorted.orderedInsert (fun a b => b.physicalBase ≤ a.physicalBase) value) sorted →
        range ∈ sorted ∨ range ∈ ranges by
    rcases this [] (mem_reverse.mp h) with hnil | hmem
    · cases hnil
    · exact hmem
  clear h
  induction ranges with
  | nil =>
    intro sorted hs
    exact .inl hs
  | cons value ranges ih =>
    intro sorted hs
    rcases ih _ hs with hs | hs
    · rcases (mem_orderedInsert _).mp hs with rfl | hs
      · exact .inr mem_cons_self
      · exact .inl hs
    · exact .inr (mem_cons_of_mem _ hs)

/-- What the merged prefix satisfies: the entries, from the last one back, and the totals. -/
structure MergedRanges (merged : List ZiMemoryRange × ZiMemoryInventoryTotals) : Prop where
  valid : ∀ range ∈ merged.1, range.Valid
  ordered : merged.1.Pairwise fun later range => range.Before later
  managed : merged.2.managedPages = pageTotal merged.1

theorem appendInventoryRange_ok {storage storage' : List ZiMemoryRange} (hrange : range.Valid)
    (hv : ∀ r ∈ storage, r.Valid) (ho : storage.Pairwise fun later r => r.Before later)
    (h : appendInventoryRange storage range = .ok storage') :
    (∀ r ∈ storage', r.Valid) ∧ (storage'.Pairwise fun later r => r.Before later) ∧
      pageTotal storage' = pageTotal storage+range.pageCount := by
  cases storage with
  | nil =>
    cases h
    exact ⟨by simpa using hrange,pairwise_singleton _ _,by simp⟩
  | cons previous earlier =>
    have hprev := hv previous mem_cons_self
    have hbefore : ∀ r ∈ earlier, r.Before previous := fun r hr => rel_of_pairwise_cons ho hr
    rw [appendInventoryRange,hprev.endAddress_eq] at h
    split at h
    · cases h
    next hlow =>
    split at h
    · next hjoin =>
      split at h <;> cases h
      refine ⟨?_,?_,by simp only [pageTotal_cons]; omega⟩
      · -- The joined range ends where the appended one did.
        refine forall_mem_cons.mpr ⟨⟨hprev.aligned,Nat.add_pos_left hprev.nonempty _,?_⟩,
          (forall_mem_cons.mp hv).2⟩
        have := hrange.fits
        dsimp only
        omega
      · exact pairwise_cons.mpr ⟨hbefore,ho.of_cons⟩
    · cases h
      refine ⟨?_,?_,by simp only [pageTotal_cons]; omega⟩
      · exact forall_mem_cons.mpr ⟨hrange,hv⟩
      · have hp : previous.Before range := Nat.le_of_not_lt hlow
        refine pairwise_cons.mpr ⟨forall_mem_cons.mpr ⟨hp,fun r hr => ?_⟩,ho⟩
        have := hbefore r hr
        rw [ZiMemoryRange.Before] at this hp ⊢
        omega

theorem mergeInventoryRange_ok {merged' : List ZiMemoryRange × ZiMemoryInventoryTotals}
    (hrange : range.Valid) (hm : MergedRanges merged)
    (h : mergeInventoryRange merged range = .ok merged') : MergedRanges merged' := by
  rw [mergeInventoryRange] at h
  split at h
  · cases h
  next storage hstorage =>
  split at h
  · cases h
  next totals htotals =>
  cases h
  obtain ⟨hv,ho,ht⟩ := appendInventoryRange_ok hrange hm.valid hm.ordered hstorage
  refine ⟨hv,ho,?_⟩
  rw [accountInventoryRange] at htotals
  split at htotals
  · cases htotals
  split at htotals
  · cases htotals
  · cases htotals
    exact (congrArg (· + range.pageCount) hm.managed).trans ht.symm

theorem mergeInventoryRanges_ok (hv : ∀ r ∈ ranges, r.Valid)
    (h : mergeInventoryRanges ranges = .ok merged) : MergedRanges merged := by
  suffices ∀ start, MergedRanges start → ranges.foldlM mergeInventoryRange start = .ok merged →
      MergedRanges merged from
    this _ ⟨by simp,List.Pairwise.nil,rfl⟩ h
  clear h
  induction ranges with
  | nil =>
    intro start hstart h
    cases h
    exact hstart
  | cons range ranges ih =>
    intro start hstart h
    obtain ⟨next,hnext,h⟩ := BlockIO.Except.bind_ok_iff.mp h
    apply ih (fun r hr => hv r (mem_cons_of_mem _ hr)) next _ h
    exact mergeInventoryRange_ok (hv range mem_cons_self) hstart hnext

theorem wellFormed_of_build {bootRanges : List ZiBootMemoryRange} {storageCapacity : ℕ}
    (h : ziMemoryInventoryBuild bootRanges storageCapacity = .ok inv) : inv.WellFormed := by
  rw [ziMemoryInventoryBuild] at h
  split at h
  · cases h
  split at h
  · cases h
  next copied hcopied =>
  split at h
  · cases h
  next storage totals hmerge =>
  cases h
  have hv : ∀ r ∈ sortRanges copied, r.Valid := by
    intro r hr
    obtain ⟨source,hsource⟩ := mapM_ok_mem hcopied r (mem_sortRanges hr)
    exact copyBootRange_ok hsource
  have hmerged := mergeInventoryRanges_ok hv hmerge
  refine ⟨?_,?_,?_⟩
  · intro range hr
    exact hmerged.valid range (mem_reverse.mp hr)
  · exact pairwise_reverse.mpr hmerged.ordered
  · exact hmerged.managed.trans (pageTotal_reverse _).symm

/-! ## Pages and entries -/

def pagesFrom (base count : ℕ) : List ℕ := (List.range count).map fun k => base+k*4096

theorem mem_pagesFrom {base count page : ℕ} :
    page ∈ pagesFrom base count ↔ ∃ k < count, page = base+k*4096 := by
  simp only [pagesFrom,mem_map,mem_range]
  constructor
  · rintro ⟨k,hk,rfl⟩
    exact ⟨k,hk,rfl⟩
  · rintro ⟨k,hk,rfl⟩
    exact ⟨k,hk,rfl⟩

def managedPages (ranges : List ZiMemoryRange) : List ℕ :=
  ranges.flatMap fun range => pagesFrom range.physicalBase range.pageCount

@[simp] theorem length_managedPages (ranges : List ZiMemoryRange) :
    (managedPages ranges).length = pageTotal ranges := by
  simp [managedPages,pageTotal,pagesFrom]

theorem getElem?_managedPages {k : ℕ} (hk : k < range.pageCount) :
    (managedPages (before ++ range :: after))[pageTotal before+k]? =
      some (range.physicalBase+k*4096) := by
  have hsplit : managedPages (before ++ range :: after) =
      managedPages before ++ (pagesFrom range.physicalBase range.pageCount ++
        managedPages after) := by
    simp [managedPages]
  rw [hsplit,getElem?_append_right (by simp),length_managedPages,Nat.add_sub_cancel_left,
    getElem?_append_left (by simpa [pagesFrom] using hk)]
  simp [pagesFrom,hk]

theorem exists_range_of_lt {slot : ℕ} (h : slot < pageTotal ranges) :
    ∃ before range after k, ranges = before ++ range :: after ∧ k < range.pageCount ∧
      slot = pageTotal before+k := by
  induction ranges generalizing slot with
  | nil => cases h
  | cons range ranges ih =>
    by_cases hslot : slot < range.pageCount
    · exact ⟨[],range,ranges,slot,rfl,hslot,by simp⟩
    · rw [pageTotal_cons] at h
      have hlt : slot-range.pageCount < pageTotal ranges := by omega
      obtain ⟨before,r,after,k,rfl,hk,hs⟩ := ih hlt
      refine ⟨range :: before,r,after,k,rfl,hk,?_⟩
      rw [pageTotal_cons]
      omega

section Locate

variable {base count address first slot page : ℕ}

section

variable (hwf : inv.WellFormed)

include hwf

section

variable (hr : inv.ranges = before ++ range :: after)

include hr

theorem rangeMetadataStart_eq : rangeMetadataStart inv before.length = pageTotal before := by
  have hlt := hwf.pageTotal_lt
  rw [hr,pageTotal_append] at hlt
  rw [rangeMetadataStart,hr,take_left]
  exact Nat.mod_eq_of_lt (show pageTotal before < 2^64 by omega)

theorem ZiMemoryInventory.WellFormed.range_valid : range.Valid :=
  hwf.valid range (by simp [hr])

theorem slot_mod {k : ℕ} (hk : k < range.pageCount) :
    (pageTotal before+k)%2^64 = pageTotal before+k := by
  have hlt := hwf.pageTotal_lt
  rw [hr,pageTotal_append,pageTotal_cons] at hlt
  exact Nat.mod_eq_of_lt (by omega)

theorem locateIn_eq (hrange : test range = true) (hbefore : ∀ r ∈ before, test r = false)
    (hk : (address-range.physicalBase)/4096 < range.pageCount) : locateIn inv address test =
      .ok (pageTotal before+(address-range.physicalBase)/4096) := by
  have hfind : (inv.ranges.zipIdx.find? fun entry => test entry.1) =
      some (range, before.length) := by
    rw [hr,zipIdx_append,find?_append,zipIdx_cons]
    have hnone : (before.zipIdx.find? fun entry => test entry.1) = none := by
      apply find?_eq_none.mpr
      intro entry hentry
      rw [hbefore entry.1 (fst_mem_of_mem_zipIdx hentry)]
      simp
    rw [hnone,find?_cons_of_pos (by exact hrange)]
    simp
  rw [locateIn,hfind]
  dsimp only
  rw [rangeMetadataStart_eq hwf hr,slot_mod hwf hr hk]

end

theorem locateIn_ok (h : locateIn inv address test = .ok first)
    (hk : ∀ r ∈ inv.ranges, test r = true → (address-r.physicalBase)/4096 < r.pageCount) :
    ∃ before range after, inv.ranges = before ++ range :: after ∧ test range = true ∧
      first = pageTotal before+(address-range.physicalBase)/4096 := by
  rw [locateIn] at h
  split at h
  · cases h
  next range i hfind =>
  cases h
  have hmem := mem_of_find?_eq_some hfind
  have htest : test range = true := by simpa using List.find?_some hfind
  obtain ⟨hlt,hget⟩ := List.getElem?_eq_some_iff.mp (List.mk_mem_zipIdx_iff_getElem?.mp hmem)
  have hr : inv.ranges = inv.ranges.take i ++ range :: inv.ranges.drop (i+1) := by
    rw [← hget,← drop_eq_getElem_cons hlt,take_append_drop]
  have hlen : (inv.ranges.take i).length = i := by
    simp only [length_take]
    omega
  refine ⟨_,range,_,hr,htest,?_⟩
  have hstart := rangeMetadataStart_eq hwf hr
  rw [hlen] at hstart
  rw [hstart]
  exact slot_mod hwf hr (hk range (by rw [← hget]; exact getElem_mem hlt) htest)

omit hwf in
theorem containsAddress_iff (hv : range.Valid) : containsAddress address range = true ↔
    range.physicalBase ≤ address ∧ address < range.physicalBase+range.pageCount*4096 := by
  rw [containsAddress,decide_eq_true_iff,hv.size_eq]
  omega

omit hwf in
theorem containsInterval_iff (hv : range.Valid) : containsInterval base count range = true ↔
    range.physicalBase ≤ base ∧ base+count ≤ range.physicalBase+range.pageCount*4096 := by
  rw [containsInterval,decide_eq_true_iff,hv.size_eq]
  omega

theorem ZiMemoryInventory.WellFormed.range_before (hr : inv.ranges = before ++ range :: after)
    {r : ZiMemoryRange} (h : r ∈ before) : r.Before range := by
  have ho := hwf.ordered
  rw [hr,pairwise_append] at ho
  exact ho.2.2 r h range mem_cons_self

end

/-- A run of pages inside one range, and the entries it has. -/
structure IsRun (ranges : List ZiMemoryRange) (range : ZiMemoryRange)
    (base count first : ℕ) : Prop where
  mem : range ∈ ranges
  inside : ∀ page ∈ pagesFrom base count, page ∈ pagesFrom range.physicalBase range.pageCount
  slots : ∀ k < count, (managedPages ranges)[first+k]? = some (base+k*4096)

theorem IsRun.of_range {off : ℕ} (hr : ranges = before ++ range :: after)
    (hcount : off+count ≤ range.pageCount) :
    IsRun ranges range (range.physicalBase+off*4096) count (pageTotal before+off) := by
  refine ⟨by simp [hr],?_,?_⟩
  · intro page hpage
    obtain ⟨k,hk,rfl⟩ := mem_pagesFrom.mp hpage
    exact mem_pagesFrom.mpr ⟨off+k,by omega,by omega⟩
  · intro k hk
    rw [hr,Nat.add_assoc,getElem?_managedPages (by omega)]
    congr 1
    omega

theorem IsRun.last_le (h : IsRun ranges range base count first) (hpos : 0 < count) :
    first+count ≤ pageTotal ranges := by
  obtain ⟨hlt,-⟩ := List.getElem?_eq_some_iff.mp (h.slots (count-1) (by omega))
  rw [length_managedPages] at hlt
  omega

section

variable (hwf : inv.WellFormed)

include hwf

theorem pairwise_managedPages : (managedPages inv.ranges).Pairwise (· < ·) := by
  rw [managedPages,pairwise_flatMap]
  constructor
  · intro range _
    rw [pagesFrom,pairwise_map]
    refine pairwise_lt_range.imp ?_
    intro i j hij
    omega
  · refine hwf.ordered.imp ?_
    intro range other hbefore page hpage page' hpage'
    obtain ⟨k,hk,rfl⟩ := mem_pagesFrom.mp hpage
    obtain ⟨k',-,rfl⟩ := mem_pagesFrom.mp hpage'
    rw [ZiMemoryRange.Before] at hbefore
    omega

theorem nodup_managedPages : (managedPages inv.ranges).Nodup :=
  (pairwise_managedPages hwf).imp Nat.ne_of_lt

theorem IsRun.mem_iff (h : IsRun inv.ranges range base count first)
    (hslot : (managedPages inv.ranges)[slot]? = some page) :
    page ∈ pagesFrom base count ↔ first ≤ slot ∧ slot < first+count := by
  obtain ⟨hlt,-⟩ := List.getElem?_eq_some_iff.mp hslot
  constructor
  · intro hpage
    obtain ⟨k,hk,rfl⟩ := mem_pagesFrom.mp hpage
    have heq : slot = first+k :=
      (getElem?_inj hlt (nodup_managedPages hwf)).mp (hslot.trans (h.slots k hk).symm)
    omega
  · rintro ⟨hle,hlast⟩
    have hrun := h.slots (slot-first) (by omega)
    rw [Nat.add_sub_cancel' hle,hslot] at hrun
    exact mem_pagesFrom.mpr ⟨slot-first,by omega,Option.some.inj hrun⟩

theorem managedPages_aligned (h : page ∈ managedPages inv.ranges) : page%4096 = 0 := by
  obtain ⟨range,hr,hpage⟩ := mem_flatMap.mp h
  obtain ⟨k,-,rfl⟩ := mem_pagesFrom.mp hpage
  have := (hwf.valid range hr).aligned
  omega

theorem locatePage_of_getElem? (h : (managedPages inv.ranges)[slot]? = some page) {d : ℕ}
    (hd : d < 4096) : locatePage inv (page+d) = .ok slot := by
  obtain ⟨hlt,-⟩ := List.getElem?_eq_some_iff.mp h
  rw [length_managedPages] at hlt
  obtain ⟨before,range,after,k,hr,hk,rfl⟩ := exists_range_of_lt hlt
  rw [hr,getElem?_managedPages hk] at h
  cases h
  have hv := hwf.range_valid hr
  have hi : (range.physicalBase+k*4096+d-range.physicalBase)/4096 = k := by omega
  rw [locatePage,locateIn_eq hwf hr _ _ (by omega),hi]
  · rw [containsAddress_iff hv]
    omega
  · intro r hmem
    have hbefore : r.Before range := hwf.range_before hr hmem
    rw [ZiMemoryRange.Before] at hbefore
    rw [Bool.eq_false_iff,Ne,containsAddress_iff (hwf.valid r (by simp [hr,hmem]))]
    omega

theorem locatePage_ok (h : locatePage inv address = .ok slot) :
    (managedPages inv.ranges)[slot]? = some (address-address%4096) := by
  have htest : ∀ r ∈ inv.ranges, containsAddress address r = true →
      (address-r.physicalBase)/4096 < r.pageCount := by
    intro r hr hc
    rw [containsAddress_iff (hwf.valid r hr)] at hc
    omega
  obtain ⟨before,range,after,hr,hc,rfl⟩ := locateIn_ok hwf h htest
  have hv := hwf.range_valid hr
  have halign := hv.aligned
  rw [containsAddress_iff hv] at hc
  rw [hr,getElem?_managedPages (by omega)]
  congr 1
  omega

theorem locatePageInterval_ok (h : locatePageInterval inv base count = .ok first) :
    0 < count ∧ ∃ range, IsRun inv.ranges range base count first := by
  rw [locatePageInterval] at h
  simp only [ziMemoryPageSize] at h
  split at h
  · cases h
  next hargs =>
  split at h
  · cases h
  push Not at hargs
  obtain ⟨hpos,halign,-⟩ := hargs
  have htest : ∀ r ∈ inv.ranges, containsInterval base (count*4096) r = true →
      (base-r.physicalBase)/4096 < r.pageCount := by
    intro r hr hc
    rw [containsInterval_iff (hwf.valid r hr)] at hc
    omega
  obtain ⟨before,range,after,hr,hc,rfl⟩ := locateIn_ok hwf h htest
  have hv := hwf.range_valid hr
  have hbase := hv.aligned
  rw [containsInterval_iff hv] at hc
  have hrun : IsRun inv.ranges range
      (range.physicalBase+(base-range.physicalBase)/4096*4096) count _ :=
    IsRun.of_range hr (by omega)
  have hpage : range.physicalBase+(base-range.physicalBase)/4096*4096 = base := by omega
  rw [hpage] at hrun
  exact ⟨by omega,range,hrun⟩

theorem locatePage_managedPages : (managedPages inv.ranges).map (locatePage inv) =
      (List.range inv.managedPageCount).map Except.ok := by
  apply ext_getElem?
  intro slot
  rw [getElem?_map,getElem?_map,hwf.managed]
  by_cases hslot : slot < pageTotal inv.ranges
  · have hlt : slot < (managedPages inv.ranges).length := by simpa using hslot
    have hget := getElem?_eq_getElem hlt
    have hlocate := locatePage_of_getElem? hwf hget (show 0 < 4096 by decide)
    rw [hget,getElem?_range hslot]
    exact congrArg some hlocate
  · rw [getElem?_eq_none (by simpa using hslot),getElem?_eq_none (by simpa using hslot)]
    rfl

end

end Locate

end Zizium
