import Zizium.Executive.AddressSpaceRegions

/-!
# What an address space owns

The regions, the page tables and the pages had from the backing, held together by one invariant.
-/

namespace Zizium

open BlockIO List

/-- Only reserved pages have been written to. -/
structure PagingState.Scribbles (st st' : PagingState) : Prop where
  tables : ∀ page, page ∉ st.reserved → st'.tables page = st.tables page
  held : st'.held = st.held
  reserved : st'.reserved = st.reserved
  stray : st'.stray = st.stray

/-- The pages behind the regions of a table. -/
def regionsBacking (regions : List ZiAddressSpaceRegion) : List ℕ :=
  regions.flatMap ZiAddressSpaceRegion.backing

/-- `others` are the pages held for something else and `outside` the reserved pages that no region
has. -/
structure AddressSpaceOwns (backing : ZiAddressSpaceBacking) (kernel : ZiX64PagingContext)
    (others : Set ℕ) (outside : List ℕ) (space : ZiAddressSpace) (st : PagingState)
    (m : PageMap) : Prop where
  active : addressSpaceIsActive backing space = true
  template : space.kernelTemplate = kernel
  nx : space.paging.nxEnabled = true
  maps : st.Maps space.paging.rootPhysicalBase UserHalf others m
  regions : RegionsMap space.regions m
  kernelRoot : kernel.rootPhysicalBase ∈ others
  kernelFrame : IsFrame kernel.rootPhysicalBase ∧ kernel.rootPhysicalBase ≠ 0
  shares : SharesKernelHalf st.tables space.paging.rootPhysicalBase kernel.rootPhysicalBase
  reserved : st.reserved.Perm (regionsBacking space.regions ++ outside)
  once : (regionsBacking space.regions).Nodup

section

variable {cb : ZiX64PagingCallbacks} {backing : ZiAddressSpaceBacking} {kernel : ZiX64PagingContext}
  {others : Set ℕ} {outside pages : List ℕ} {space : ZiAddressSpace} {st st' st'' : PagingState}
  {m : PageMap} {region : ZiAddressSpaceRegion} {before after : List ZiAddressSpaceRegion}
  {root kernelRoot pbase pageCount vbase size owner i : ℕ} {prot : UInt32}

theorem PagingState.Scribbles.refl : st.Scribbles st :=
  ⟨fun _ _ => rfl,rfl,rfl,rfl⟩

theorem PagingState.Scribbles.trans (h : st.Scribbles st') (h' : st'.Scribbles st'') :
    st.Scribbles st'' := by
  refine ⟨?_,h'.held.trans h.held,h'.reserved.trans h.reserved,h'.stray.trans h.stray⟩
  intro page hpage
  rw [h'.tables page (h.reserved ▸ hpage),h.tables page hpage]

theorem scribbles_write (hpage : pbase ∈ st.reserved) (words : Fin 512 → ℕ) :
    st.Scribbles { st with tables := Function.update st.tables pbase words } := by
  refine ⟨?_,rfl,rfl,rfl⟩
  intro page hother
  have hne : page ≠ pbase := by
    rintro rfl
    exact hother hpage
  exact Function.update_of_ne hne _ _

theorem zeroPhysicalPagesFrom_scribbles (backing : ZiAddressSpaceBacking) (indices : List ℕ)
    (st : PagingState) (hrsv : ∀ i ∈ indices, pbase+i*4096 ∈ st.reserved) :
    st.Scribbles (zeroPhysicalPagesFrom backing pbase indices st).2 ∧
      ((∀ i ∈ indices, pbase+i*4096 ≤ uint64Max) →
        (zeroPhysicalPagesFrom backing pbase indices st).1 = .ok ()) := by
  induction indices generalizing st with
  | nil => exact ⟨.refl,fun _ => rfl⟩
  | cons i rest ih =>
    have hpage := hrsv i mem_cons_self
    rw [zeroPhysicalPagesFrom]
    by_cases hover : uint64Max-i*x64PageSize < pbase
    · rw [if_pos hover]
      refine ⟨.refl,?_⟩
      intro hfits
      have hfit := hfits i mem_cons_self
      simp only [uint64Max,x64PageSize] at hover hfit
      omega
    · rw [if_neg hover,backing.accessible _ _ hpage]
      have hwrite := scribbles_write hpage fun _ => 0
      obtain ⟨hrest,hok⟩ := ih (st.zeroPage (pbase+i*x64PageSize))
        fun other hother => hrsv other (mem_cons_of_mem i hother)
      exact ⟨hwrite.trans hrest,
        fun hfits => hok fun other hother => hfits other (mem_cons_of_mem i hother)⟩

theorem zeroPhysicalPages_scribbles (backing : ZiAddressSpaceBacking)
    (hrsv : ∀ page ∈ backingPages pbase pageCount, page ∈ st.reserved) :
    st.Scribbles (zeroPhysicalPages backing pbase pageCount st).2 ∧
      (pbase+pageCount*4096 ≤ x64MaxPhysicalAddress →
        (zeroPhysicalPages backing pbase pageCount st).1 = .ok ()) := by
  obtain ⟨hscribbles,hok⟩ := zeroPhysicalPagesFrom_scribbles backing (range pageCount) st
    fun i hi => hrsv _ (mem_backingPages.mpr ⟨i,mem_range.mp hi,rfl⟩)
  refine ⟨hscribbles,fun hfits => hok ?_⟩
  intro i hi
  have hle : pbase+i*4096 ≤ pbase+pageCount*4096 :=
    Nat.add_le_add_left (Nat.mul_le_mul_right 4096 (mem_range.mp hi).le) pbase
  exact hle.trans (hfits.trans (by decide))

theorem unreserve_spec (hrsv : st.reserved.Perm (pages ++ outside)) :
    (st.unreserve pages).tables = st.tables ∧ (st.unreserve pages).held = st.held ∧
      (st.unreserve pages).stray = st.stray ∧ (st.unreserve pages).reserved.Perm outside := by
  induction pages generalizing st with
  | nil => exact ⟨rfl,rfl,rfl,hrsv⟩
  | cons page pages ih =>
    have hmem : page ∈ st.reserved := hrsv.mem_iff.mpr mem_cons_self
    rw [PagingState.unreserve,if_pos hmem]
    apply ih
    have herase := hrsv.erase page
    rwa [cons_append,erase_cons_head] at herase

theorem SharesKernelHalf.keeps (h : SharesKernelHalf st.tables root kernelRoot)
    (hkeeps : st.Keeps st' root UserHalf others) (hkernel : kernelRoot ∈ others) :
    SharesKernelHalf st'.tables root kernelRoot := by
  intro i hi
  rw [hkeeps.root i hi,hkeeps.tables kernelRoot (.inl hkernel)]
  exact h i hi

theorem SharesKernelHalf.congr (h : SharesKernelHalf st.tables root kernelRoot)
    (hroot : st'.tables root = st.tables root)
    (hkernel : st'.tables kernelRoot = st.tables kernelRoot) :
    SharesKernelHalf st'.tables root kernelRoot := by
  intro i hi
  rw [hroot,hkernel]
  exact h i hi

theorem addressSpaceIsActive_regions {regions : List ZiAddressSpaceRegion}
    (h : addressSpaceIsActive backing space = true)
    (hlen : regions.length ≤ addressSpaceRegionCapacity) :
    addressSpaceIsActive backing { space with regions := regions } = true := by
  simp only [addressSpaceIsActive,decide_eq_true_eq] at h ⊢
  exact ⟨h.1,h.2.1,h.2.2.1,h.2.2.2.1,h.2.2.2.2.1,hlen⟩

theorem ZiAddressSpaceRegion.covers_of_contains (region : ZiAddressSpaceRegion)
    (h : region.contains vbase (pageCount*x64PageSize) = true) :
    ∀ v, InRange vbase pageCount v → region.Covers v := by
  have hcontains := of_decide_eq_true h
  simp only [ZiAddressSpaceRegion.size,x64PageSize] at hcontains
  rintro v ⟨hle,hlt,hmod⟩
  exact ⟨by omega,by omega,hmod⟩

theorem mem_regionsBacking {regions : List ZiAddressSpaceRegion} {page : ℕ} :
    page ∈ regionsBacking regions ↔ ∃ region ∈ regions, page ∈ region.backing :=
  mem_flatMap

theorem regionsBacking_split : (regionsBacking (before ++ region :: after)).Perm
      (region.backing ++ regionsBacking (before ++ after)) := by
  rw [regionsBacking,regionsBacking,flatMap_append,flatMap_cons,flatMap_append]
  exact perm_append_comm_assoc _ _ _

namespace AddressSpaceOwns

section

variable (h : AddressSpaceOwns backing kernel others outside space st m)

include h

theorem congr (htables : ∀ page ∈ st.held, st'.tables page = st.tables page)
    (hheld : st'.held = st.held) (hstray : st'.stray = st.stray)
    (hapart : ∀ page ∈ st'.reserved, page ∉ st.held) {pages : List ℕ}
    (hrsv : st'.reserved.Perm (regionsBacking space.regions ++ pages)) :
    AddressSpaceOwns backing kernel others pages space st' m where
  active := h.active
  template := h.template
  nx := h.nx
  maps := h.maps.congr htables hheld hapart hstray
  regions := h.regions
  kernelRoot := h.kernelRoot
  kernelFrame := h.kernelFrame
  shares := h.shares.congr (htables _ h.maps.root_mem_held)
    (htables _ (h.maps.mem_held_of_others h.kernelRoot))
  reserved := hrsv
  once := h.once

theorem scribbles (hscribbles : st.Scribbles st') :
    AddressSpaceOwns backing kernel others outside space st' m := by
  refine h.congr ?_ hscribbles.held hscribbles.stray ?_ ?_
  · intro page hpage
    exact hscribbles.tables page fun hmem => h.maps.reserved_apart page hmem hpage
  · rw [hscribbles.reserved]
    exact h.maps.reserved_apart
  · rw [hscribbles.reserved]
    exact h.reserved

theorem keeps {m' : PageMap} (regions : List ZiAddressSpaceRegion) (pages : List ℕ)
    (hmaps : st'.Maps space.paging.rootPhysicalBase UserHalf others m')
    (hkeeps : st.Keeps st' space.paging.rootPhysicalBase UserHalf others)
    (hregions : RegionsMap regions m') (hlen : regions.length ≤ addressSpaceRegionCapacity)
    (hrsv : st.reserved.Perm (regionsBacking regions ++ pages))
    (honce : (regionsBacking regions).Nodup) :
    AddressSpaceOwns backing kernel others pages { space with regions := regions } st' m' where
  active := addressSpaceIsActive_regions h.active hlen
  template := h.template
  nx := h.nx
  maps := hmaps
  regions := hregions
  kernelRoot := h.kernelRoot
  kernelFrame := h.kernelFrame
  shares := h.shares.keeps hkeeps h.kernelRoot
  reserved := by
    rw [hkeeps.reserved]
    exact hrsv
  once := honce

theorem length_le : space.regions.length ≤ addressSpaceRegionCapacity := by
  have hactive := h.active
  simp only [addressSpaceIsActive,decide_eq_true_eq] at hactive
  exact hactive.2.2.2.2.2

theorem allocate (pageCount owner : ℕ) :
    (∃ status st', backingAllocatePages backing pageCount owner st = (.error status, st') ∧
      AddressSpaceOwns backing kernel others outside space st' m ∧ st'.held = st.held) ∨
    ∃ base st', backingAllocatePages backing pageCount owner st = (.ok base, st') ∧
      AddressSpaceOwns backing kernel others (backingPages base pageCount ++ outside) space st' m ∧
      st'.held = st.held ∧ base%4096 = 0 ∧
      ∀ page ∈ backingPages base pageCount, page ∉ regionsBacking space.regions := by
  rw [backingAllocatePages]
  cases hask : backing.allocatePages st.asked (st.held ++ st.reserved) pageCount owner with
  | error status =>
    refine .inl ⟨status,_,rfl,?_,rfl⟩
    exact h.scribbles ⟨fun _ _ => rfl,rfl,rfl,rfl⟩
  | ok base =>
    obtain ⟨halign,hfree⟩ := backing.allocated _ _ _ _ _ hask
    rw [and_offsetMask] at halign
    refine .inr ⟨base,_,rfl,?_,rfl,halign,?_⟩
    · refine h.congr ?_ ?_ ?_ ?_ ?_
      · exact fun _ _ => rfl
      · rfl
      · rfl
      · intro page hpage hheld
        rcases mem_append.mp hpage with hpage | hpage
        · exact hfree page hpage (mem_append_left _ hheld)
        · exact h.maps.reserved_apart page hpage hheld
      · exact (h.reserved.append_left _).trans (perm_append_comm_assoc _ _ _)
    · intro page hpage hmem
      exact hfree page hpage (mem_append_right _ (h.reserved.mem_iff.mpr (mem_append_left _ hmem)))

end

theorem release (h : AddressSpaceOwns backing kernel others
      (backingPages pbase pageCount ++ outside) space st m) (owner : ℕ) :
    ∃ st', backingReleasePages backing pbase pageCount owner st = (.ok (), st') ∧
      AddressSpaceOwns backing kernel others outside space st' m ∧ st'.held = st.held := by
  have hrsv : st.reserved.Perm
      (backingPages pbase pageCount ++ (regionsBacking space.regions ++ outside)) :=
    h.reserved.trans (perm_append_comm_assoc _ _ _)
  have hmem : ∀ page ∈ backingPages pbase pageCount, page ∈ st.reserved :=
    fun page hpage => hrsv.mem_iff.mpr (mem_append_left _ hpage)
  obtain ⟨htables,hheld,hstray,hback⟩ := unreserve_spec hrsv
  refine ⟨_,by rw [backingReleasePages,backing.released _ _ _ _ hmem],
    h.congr (fun _ _ => by rw [htables]) hheld hstray ?_ hback,hheld⟩
  intro page hpage
  exact h.maps.reserved_apart page (hrsv.mem_iff.mpr (mem_append_right _ (hback.mem_iff.mp hpage)))

theorem userHalf_of_lt {limit : ℕ} (hlimit : limit ≤ 0x800000000000) :
    ∀ v, v < limit → ziX64AddressIsCanonical v = true → UserHalf (rootSlot v) := by
  intro v hv hcanon
  rw [userHalf_rootSlot hcanon]
  omega

theorem mapOwnedPages (h : AddressSpaceOwns backing kernel others
      (backingPages pbase (size/4096) ++ outside) space st m) (cb : ZiX64PagingCallbacks)
    (hargs : OwnedArguments vbase size prot)
    (hroom : space.regions.length < addressSpaceRegionCapacity) (hapart : ∀ other ∈ space.regions,
      (⟨vbase,pbase,size/4096,prot,owner⟩ : ZiAddressSpaceRegion).Apart other)
    (hfresh : ∀ page ∈ backingPages pbase (size/4096), page ∉ regionsBacking space.regions) :
    (∃ status st', Zizium.mapOwnedPages cb backing space vbase size prot owner
        pbase st = (.error status, space, st') ∧
      AddressSpaceOwns backing kernel others outside space st' m ∧
      ∀ page, page ∈ st'.held ↔ page ∈ st.held) ∨
    ∃ st', Zizium.mapOwnedPages cb backing space vbase size prot owner
        pbase st = (.ok (), { space with regions := space.regions ++
          [⟨vbase,pbase,size/4096,prot,owner⟩] }, st') ∧
      AddressSpaceOwns backing kernel others outside { space with regions := space.regions ++
          [⟨vbase,pbase,size/4096,prot,owner⟩] } st'
        (m.add vbase pbase prot (size/4096)) := by
  have hmem : ∀ page ∈ backingPages pbase (size/4096), page ∈ st.reserved := fun page hpage =>
    h.reserved.mem_iff.mpr (mem_append_right _ (mem_append_left _ hpage))
  have hsize : size/4096*4096 = size :=
    Nat.div_mul_cancel (Nat.dvd_of_mod_eq_zero hargs.size_mod)
  have hzero := zeroPhysicalPages_scribbles backing hmem
  rw [Zizium.mapOwnedPages]
  cases hdone : zeroPhysicalPages backing pbase (size/x64PageSize) st with
  | mk result zeroed =>
    rw [hdone] at hzero
    have hzeroed := h.scribbles hzero.1
    cases result with
    | error status =>
      obtain ⟨st',hrelease,howns,hheld⟩ := hzeroed.release owner
      dsimp only
      rw [hrelease]
      refine .inl ⟨status,st',rfl,howns,?_⟩
      intro page
      rw [hheld,hzero.1.held]
    | ok _ =>
      dsimp only
      have howned : ∀ v, InRange vbase (size/4096) v → ziX64AddressIsCanonical v = true →
          UserHalf (rootSlot v) := by
        intro v hv
        have hhigh : vbase+size ≤ 0x800000000000 := hargs.high
        have hlt := hv.2.1
        rw [hsize] at hlt
        exact userHalf_of_lt hhigh v hlt
      rcases hzeroed.maps.mapRange cb rfl hzeroed.nx howned pbase prot with
        ⟨status,st',hmap,-,hmaps,hkeeps,hheld⟩ | ⟨st',hmap,hrange,-,hmaps,hkeeps⟩
      · have hkept := hzeroed.keeps _ _ hmaps hkeeps hzeroed.regions hzeroed.length_le
          hzeroed.reserved hzeroed.once
        obtain ⟨st'',hrelease,howns,hheld'⟩ := hkept.release owner
        rw [hmap]
        dsimp only
        rw [hrelease]
        refine .inl ⟨status,st'',rfl,howns,?_⟩
        intro page
        rw [hheld',hheld,hzero.1.held]
      · rw [hmap]
        refine .inr ⟨st',rfl,?_⟩
        have hbacking : regionsBacking (space.regions ++ [⟨vbase,pbase,size/4096,prot,owner⟩]) =
            regionsBacking space.regions ++ backingPages pbase (size/4096) := by
          rw [regionsBacking,flatMap_append,flatMap_singleton]
          rfl
        refine hzeroed.keeps _ _ hmaps hkeeps ?_ ?_ ?_ ?_
        · refine hzeroed.regions.append ⟨?_,hargs.low,?_,hargs.base_mod,
            hrange.physical_mod,?_⟩ hargs.protection hapart
          · have hpos := hargs.pos
            show size/4096 ≠ 0
            omega
          · show vbase+size/4096*4096 ≤ userAddressMaxExclusive
            rw [hsize]
            exact hargs.high
          · show pbase+size/4096*4096 ≤ x64MaxPhysicalAddress
            rw [hsize]
            exact hrange.physical_fits
        · rwa [length_append,length_singleton]
        · rw [hbacking,append_assoc]
          exact hzeroed.reserved
        · rw [hbacking,nodup_append]
          refine ⟨h.once,nodup_backingPages,?_⟩
          rintro page hpage other hother rfl
          exact hfresh page hother hpage

section

variable (cb) (h : AddressSpaceOwns backing kernel others outside space st m)

include h

theorem mapOwned (vbase size : ℕ) (prot : UInt32) (owner : ℕ) :
    (∃ status st', ziAddressSpaceMapOwned cb backing space vbase size prot owner
        st = (.error status, space, st') ∧
      AddressSpaceOwns backing kernel others outside space st' m ∧
      ∀ page, page ∈ st'.held ↔ page ∈ st.held) ∨
    ∃ space' st' m', ziAddressSpaceMapOwned cb backing space vbase size prot
        owner st = (.ok (), space', st') ∧
      AddressSpaceOwns backing kernel others outside space' st' m' := by
  rw [ziAddressSpaceMapOwned]
  by_cases hguard : addressSpaceIsActive backing space = false ∨ owner = 0
  · rw [if_pos hguard]
    exact .inl ⟨_,st,rfl,h,fun _ => Iff.rfl⟩
  rw [if_neg hguard]
  cases hcheck : validateOwnedMapping vbase size prot with
  | error status => exact .inl ⟨status,st,rfl,h,fun _ => Iff.rfl⟩
  | ok _ =>
    have hargs := validateOwnedMapping_ok_iff.mp hcheck
    dsimp only
    by_cases hroom : addressSpaceRegionCapacity ≤ space.regions.length
    · rw [if_pos hroom]
      exact .inl ⟨_,st,rfl,h,fun _ => Iff.rfl⟩
    rw [if_neg hroom]
    split
    · exact .inl ⟨_,st,rfl,h,fun _ => Iff.rfl⟩
    next hoverlap =>
    rcases h.allocate (size/x64PageSize) owner with
      ⟨status,st',hask,howns,hheld⟩ | ⟨base,st',hask,howns,hheld,-,hfresh⟩
    · rw [hask]
      exact .inl ⟨status,st',rfl,howns,fun page => by rw [hheld]⟩
    rw [hask]
    dsimp only
    by_cases hbase : base = 0 ∨ base &&& x64PageOffsetMask ≠ 0
    · rw [if_pos hbase]
      obtain ⟨st'',hrelease,howns',hheld'⟩ := howns.release owner
      rw [hrelease]
      exact .inl ⟨_,st'',rfl,howns',fun page => by rw [hheld',hheld]⟩
    rw [if_neg hbase]
    have hapart : ∀ other ∈ space.regions,
        (⟨vbase,base,size/4096,prot,owner⟩ : ZiAddressSpaceRegion).Apart other := by
      intro other hother
      rw [Bool.not_eq_true,any_eq_false] at hoverlap
      have hnone := hoverlap other hother
      simp only [regionsOverlap,decide_eq_true_eq] at hnone
      simp only [ZiAddressSpaceRegion.Apart,ZiAddressSpaceRegion.size,x64PageSize] at hnone ⊢
      omega
    rcases howns.mapOwnedPages cb hargs (Nat.lt_of_not_le hroom) hapart hfresh with
      ⟨status,st'',hmap,howns',hheld'⟩ | ⟨st'',hmap,howns'⟩
    · refine .inl ⟨status,st'',hmap,howns',?_⟩
      intro page
      rw [hheld',hheld]
    · exact .inr ⟨_,st'',_,hmap,howns'⟩

theorem howned_region (hregion : region ∈ space.regions) :
    ∀ v, region.Covers v → ziX64AddressIsCanonical v = true → UserHalf (rootSlot v) :=
  fun v hv => userHalf_of_lt le_rfl v ((h.regions.placed region hregion).covers_lt hv)

theorem protectOwned (vbase size : ℕ) (prot : UInt32) :
    (∃ status, ziAddressSpaceProtectOwned cb backing space vbase size prot st =
      (.error status, space, st)) ∨
    ∃ space' st' m', ziAddressSpaceProtectOwned cb backing space vbase size
        prot st = (.ok (), space', st') ∧
      AddressSpaceOwns backing kernel others outside space' st' m' := by
  rw [ziAddressSpaceProtectOwned]
  split
  · exact .inl ⟨_,rfl⟩
  cases hcheck : validateOwnedMapping vbase size prot with
  | error status => exact .inl ⟨status,rfl⟩
  | ok _ =>
    have hargs := validateOwnedMapping_ok_iff.mp hcheck
    cases hfind : findContainingRegion space vbase (size/x64PageSize) with
    | none => exact .inl ⟨_,rfl⟩
    | some i =>
      obtain ⟨hi,hcontains,-⟩ := findIdx?_eq_some_iff_getElem.mp hfind
      generalize hregion : space.regions[i] = region at hcontains
      have hsplit : space.regions = space.regions.take i ++ region :: space.regions.drop (i+1) := by
        rw [← hregion,getElem_cons_drop,take_append_drop]
      have hmem : region ∈ space.regions := hregion ▸ getElem_mem hi
      have hinside := region.covers_of_contains hcontains
      have howned : ∀ v, InRange vbase (size/4096) v → ziX64AddressIsCanonical v = true →
          UserHalf (rootSlot v) := fun v hv => h.howned_region hmem v (hinside v hv)
      rcases h.maps.protectRange cb rfl h.nx howned prot with
        ⟨status,hrun,-⟩ | ⟨st',hrun,-,-,-,hmaps,hkeeps⟩
      · rw [hrun]
        exact .inl ⟨status,rfl⟩
      · rw [hrun]
        refine .inr ⟨_,st',m.protect vbase prot (size/4096),rfl,?_⟩
        rw [modify_eq_take_cons_drop hi,hregion]
        have hregions := h.regions
        have hrsv := h.reserved
        have honce := h.once
        have hlen := h.length_le
        rw [hsplit] at hregions hrsv honce hlen
        -- the prot recorded is not part of what backs a region
        have hbacking : ∀ recorded : UInt32, regionsBacking (space.regions.take i ++
            { region with protection := recorded } :: space.regions.drop (i+1)) =
            regionsBacking (space.regions.take i ++ region :: space.regions.drop (i+1)) := by
          intro recorded
          simp only [regionsBacking,flatMap_append,flatMap_cons]
          rfl
        refine h.keeps _ _ hmaps hkeeps (hregions.protect hinside hargs.protection ?_) ?_ ?_ ?_
        · intro hrecorded
          by_cases hexact : region.virtualBase = vbase ∧ region.pageCount = size/x64PageSize
          · rw [if_pos hexact]
            refine ⟨rfl,?_⟩
            rintro v hv
            rwa [← hexact.1,← show region.pageCount = size/4096 from hexact.2]
          · rw [if_neg hexact] at hrecorded
            exact absurd rfl hrecorded
        · simpa using hlen
        · rwa [hbacking]
        · rwa [hbacking]

theorem releaseRegion (hi : i < space.regions.length) :
    ∃ st' m', Zizium.releaseRegion cb backing space i st =
        (.ok (), { space with regions := space.regions.eraseIdx i }, st') ∧
      AddressSpaceOwns backing kernel others outside
        { space with regions := space.regions.eraseIdx i } st' m' := by
  generalize hregion : space.regions[i] = region
  have hmem : region ∈ space.regions := hregion ▸ getElem_mem hi
  have hplaced := h.regions.placed region hmem
  have hrsv : ∀ page ∈ backingPages region.physicalBase region.pageCount,
      page ∈ st.reserved := fun page hpage =>
    h.reserved.mem_iff.mpr (mem_append_left _ (mem_regionsBacking.mpr ⟨region,hmem,hpage⟩))
  obtain ⟨hscribbles,hzero⟩ := zeroPhysicalPages_scribbles backing hrsv
  have hzero := hzero hplaced.physical_fits
  rw [Zizium.releaseRegion,getElem?_eq_getElem hi,hregion]
  dsimp only
  cases hdone : zeroPhysicalPages backing region.physicalBase region.pageCount st with
  | mk result zeroed =>
    rw [hdone] at hscribbles hzero
    subst hzero
    have hzeroed := h.scribbles hscribbles
    have hpages : region.size/4096 = region.pageCount :=
      Nat.mul_div_cancel region.pageCount (by decide)
    dsimp only
    rcases hzeroed.maps.unmapRange cb rfl
      (by rw [hpages]; exact h.howned_region hmem) with
      ⟨status,-,hreason⟩ | ⟨st',hunmap,-,-,hmaps,hkeeps⟩
    · exfalso
      rcases hreason with hrange | ⟨v,hv,hnone⟩
      · apply hrange
        have hhigh : region.virtualBase+region.pageCount*4096 ≤ 0x800000000000 := hplaced.high
        have hpos := hplaced.pos
        refine ⟨?_,?_,?_,hplaced.base_mod,?_,?_⟩
        · omega
        · rw [ziX64AddressIsCanonical_iff]
          omega
        · exact Nat.mul_mod_left region.pageCount 4096
        · omega
        · rw [ziX64AddressIsCanonical_iff]
          simp only [ZiAddressSpaceRegion.size,x64PageSize]
          omega
      · rw [hpages] at hv
        obtain ⟨prot,hsome,-⟩ := h.regions.mapped region hmem v hv
        rw [hsome] at hnone
        cases hnone
    · rw [hunmap]
      dsimp only
      have hsplit : space.regions = space.regions.take i ++ region :: space.regions.drop (i+1) := by
        rw [← hregion,getElem_cons_drop,take_append_drop]
      have herase : space.regions.eraseIdx i = space.regions.take i ++ space.regions.drop (i+1) :=
        eraseIdx_eq_take_drop_succ _ _
      have hregions := h.regions
      have honce := h.once
      have hperm := hzeroed.reserved
      rw [hpages] at hmaps
      rw [hsplit] at hregions honce hperm
      have hwithout := hzeroed.keeps (space.regions.eraseIdx i)
        (backingPages region.physicalBase region.pageCount ++ outside) hmaps hkeeps
        (by rw [herase]; exact hregions.erase)
        ((length_eraseIdx_le _ _).trans h.length_le)
        (by
          rw [herase]
          refine hperm.trans ((regionsBacking_split.append_right outside).trans ?_)
          rw [append_assoc]
          exact perm_append_comm_assoc _ _ _)
        (by
          rw [herase]
          exact (nodup_append.mp (regionsBacking_split.nodup_iff.mp honce)).2.1)
      obtain ⟨st'',hrelease,howns,-⟩ := hwithout.release region.owner
      rw [hrelease]
      exact ⟨st'',_,rfl,howns⟩

theorem unmapOwned (vbase size : ℕ) :
    (∃ status, ziAddressSpaceUnmapOwned cb backing space vbase size st =
      (.error status, space, st)) ∨
    ∃ space' st' m', ziAddressSpaceUnmapOwned cb backing space vbase size st =
        (.ok (), space', st') ∧ AddressSpaceOwns backing kernel others outside space' st' m' := by
  rw [ziAddressSpaceUnmapOwned]
  split
  · exact .inl ⟨_,rfl⟩
  cases hfind : findExactRegion space vbase (size/x64PageSize) with
  | none => exact .inl ⟨_,rfl⟩
  | some i =>
    obtain ⟨hi,-⟩ := findIdx?_eq_some_iff_getElem.mp hfind
    obtain ⟨st',m',hrun,howns⟩ := h.releaseRegion cb hi
    exact .inr ⟨_,st',m',hrun,howns⟩

theorem mapped_backing {v : ℕ} {mapping : ZiX64PageMapping} (hmapped : m v = some mapping) :
    mapping.physicalBase ∈ st.reserved ∧ mapping.physicalBase%4096 = 0 ∧
      mapping.protection &&& x64PageUser ≠ 0 := by
  obtain ⟨region,hregion,hcovers⟩ := h.regions.only v (by simp [hmapped])
  obtain ⟨prot,hsome,howned,-⟩ := h.regions.mapped region hregion v hcovers
  have hplaced := h.regions.placed region hregion
  cases hmapped.symm.trans hsome
  refine ⟨h.reserved.mem_iff.mpr (mem_append_left _ (mem_regionsBacking.mpr
    ⟨region,hregion,hplaced.mem_backing.mpr ⟨v,hcovers,rfl⟩⟩)),?_,howned.user⟩
  have hbase := hplaced.base_mod
  have hphys := hplaced.physical_mod
  have hpage : IsPage v := h.maps.isPage (by simp [hmapped])
  have hmod := hpage.2
  dsimp only [ZiAddressSpaceRegion.backingOf]
  omega

theorem copyTarget_ok_iff {cursor : ℕ} {target : ℕ × ℕ × ℕ} :
    copyTarget cb backing space cursor userAccessWrite st = .ok target ↔
      ziUserRangeIsValid cursor 1 = true ∧ ∃ mapping, m (cursor-cursor%4096) = some mapping ∧
        mapping.protection &&& x64PageWrite ≠ 0 ∧
        target = (mapping.physicalBase, cursor%4096, x64PageSize-cursor%4096) := by
  rw [copyTarget,ziAddressSpaceQuery]
  cases hvalid : ziUserRangeIsValid cursor 1 with
  | false => simp
  | true =>
    have hlt : cursor < userAddressMaxExclusive := (ziUserRangeIsValid_iff.mp hvalid).2.2
    rw [if_neg (by rw [h.active]; decide),h.maps.query cb rfl (userHalf_of_lt le_rfl cursor hlt),
      PageMap.query,if_neg (by simp [ziX64AddressIsCanonical_iff.mpr (.inl hlt)])]
    cases hmapped : m (cursor-cursor%4096) with
    | none => simp
    | some mapping =>
      obtain ⟨hmem,hmod,huser⟩ := h.mapped_backing hmapped
      have hoffset : (mapping.physicalBase+cursor%4096)%4096 = cursor%4096 := by omega
      by_cases hwrite : mapping.protection &&& x64PageWrite = 0
      · simp [hwrite,show userAccessWrite ≠ 0 by decide]
      · dsimp only
        rw [if_neg (by simp [huser,hwrite,show userAccessWrite &&& userAccessRead = 0 by decide,
          show userAccessWrite &&& userAccessExecute = 0 by decide])]
        dsimp only
        rw [and_offsetMask,hoffset,Nat.add_sub_cancel,backing.accessible _ _ hmem]
        constructor
        · rintro ⟨⟩
          exact ⟨rfl,mapping,rfl,hwrite,rfl⟩
        · rintro ⟨-,_,⟨⟩,-,rfl⟩
          rfl

theorem copyToUserLoop_scribbles (rounds cursor : ℕ) (bytes : List ℕ) :
    st.Scribbles (copyToUserLoop cb backing space rounds cursor bytes st).2 := by
  induction rounds generalizing cursor bytes st with
  | zero => exact .refl
  | succ rounds ih =>
    rw [copyToUserLoop]
    split
    · exact .refl
    split
    · exact .refl
    next page off room htarget =>
    obtain ⟨-,mapping,hmapped,-,htarget⟩ := (h.copyTarget_ok_iff cb).mp htarget
    cases htarget
    have hwrite := scribbles_write (h.mapped_backing hmapped).1
      (writePageBytes (st.tables mapping.physicalBase) (cursor%4096)
        (bytes.take (x64PageSize-cursor%4096)))
    exact hwrite.trans (ih (h.scribbles hwrite) _ _)

theorem copyToUser (userDestination : ℕ) (bytes : List ℕ) :
    AddressSpaceOwns backing kernel others outside space
      (ziCopyToUser cb backing space userDestination bytes st).2 m := by
  rw [ziCopyToUser]
  split
  · exact h
  · exact h.scribbles (h.copyToUserLoop_scribbles cb _ _ _)

theorem releaseRegions {count : ℕ} (hcount : space.regions.length = count) :
    ∃ st' m', Zizium.releaseRegions cb backing count space st =
        (.ok (), { space with regions := [] }, st') ∧
      AddressSpaceOwns backing kernel others outside { space with regions := [] } st' m' := by
  induction count generalizing space st m with
  | zero =>
    rw [← length_eq_zero_iff.mp hcount]
    exact ⟨st,m,rfl,h⟩
  | succ count ih =>
    obtain ⟨st',m',hrun,howns⟩ := h.releaseRegion cb (by omega : count < _)
    obtain ⟨st'',m'',hrest,howns'⟩ := ih howns (by
      rw [length_eraseIdx_of_lt (by omega)]
      omega)
    rw [Zizium.releaseRegions,hrun]
    exact ⟨st'',m'',hrest,howns'⟩

theorem destroy : ∃ st', ziAddressSpaceDestroy cb backing space st = (.ok (), .zero, st') ∧
      (∀ page, page ∈ st'.held ↔ page ∈ others) ∧ st'.held.Nodup ∧
      st'.reserved.Perm outside ∧ st'.stray = [] := by
  obtain ⟨st',m',hregions,howns⟩ := h.releaseRegions cb rfl
  have hempty : ∀ v, m' v = none := by
    intro v
    by_contra hmapped
    obtain ⟨region,hregion,-⟩ := howns.regions.only v hmapped
    cases hregion
  have htemplate : space.kernelTemplate = kernel := howns.template
  obtain ⟨hrelease,hheld,hnodup⟩ :=
    howns.maps.releaseEmpty hempty rfl howns.kernelRoot howns.kernelFrame howns.shares cb
  rw [ziAddressSpaceDestroy,if_neg (by rw [h.active]; decide),hregions]
  dsimp only at hrelease ⊢
  rw [htemplate,hrelease]
  exact ⟨_,rfl,hheld,hnodup,howns.reserved,howns.maps.stray⟩

end

end AddressSpaceOwns

end

end Zizium
