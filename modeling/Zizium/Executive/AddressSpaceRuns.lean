import Zizium.Executive.AddressSpaceOwnership
import Mathlib.Data.List.Pairwise

/-!
# Runs of calls on an address space

Whatever is called and whichever allocation fails, an address space owns what its regions say, and
all of it goes back when it is destroyed.
-/

namespace Zizium

open BlockIO List

inductive AddressSpaceCall where
  | mapOwned (virtualBase size : ℕ) (protection : UInt32) (owner : ℕ)
  | protectOwned (virtualBase size : ℕ) (protection : UInt32)
  | unmapOwned (virtualBase size : ℕ)
  | findFreeRange (searchBase searchEnd size alignment : ℕ)
  | copyFromUser (userSource size : ℕ)
  | copyToUser (userDestination : ℕ) (bytes : List ℕ)
  | destroy

structure AddressSpaceRun where
  space : ZiAddressSpace
  st : PagingState

namespace AddressSpaceRun

def step (callbacks : ZiX64PagingCallbacks) (backing : ZiAddressSpaceBacking)
    (run : AddressSpaceRun) : AddressSpaceCall → AddressSpaceRun
  | .mapOwned virtualBase size protection owner =>
    let done := ziAddressSpaceMapOwned callbacks backing run.space virtualBase size protection owner
      run.st
    ⟨done.2.1,done.2.2⟩
  | .protectOwned virtualBase size protection =>
    let done := ziAddressSpaceProtectOwned callbacks backing run.space virtualBase size protection
      run.st
    ⟨done.2.1,done.2.2⟩
  | .unmapOwned virtualBase size =>
    let done := ziAddressSpaceUnmapOwned callbacks backing run.space virtualBase size run.st
    ⟨done.2.1,done.2.2⟩
  -- these two only read
  | .findFreeRange .. => run
  | .copyFromUser .. => run
  | .copyToUser userDestination bytes =>
    ⟨run.space,(ziCopyToUser callbacks backing run.space userDestination bytes run.st).2⟩
  | .destroy =>
    let done := ziAddressSpaceDestroy callbacks backing run.space run.st
    ⟨done.2.1,done.2.2⟩

def after (callbacks : ZiX64PagingCallbacks) (backing : ZiAddressSpaceBacking)
    (run : AddressSpaceRun) (calls : List AddressSpaceCall) : AddressSpaceRun :=
  calls.foldl (step callbacks backing) run

end AddressSpaceRun

variable {run : AddressSpaceRun}

def UserAccessible (st : PagingState) (root virtualAddress : ℕ) : Prop :=
  ∀ above next below, tableIndices virtualAddress = above ++ next :: below →
    ∃ table, tableAt st.tables root above = some table ∧
      st.tables table next &&& x64EntryPresent ≠ 0 ∧ st.tables table next &&& x64EntryUser ≠ 0

/-- The regions are apart and in the user half, its pages present are theirs, and the reserved
pages are those of the regions, each behind one page, and those of others. -/
structure AddressSpaceSound (callbacks : ZiX64PagingCallbacks) (space : ZiAddressSpace)
    (st : PagingState) (outside : List ℕ) : Prop where
  inside : ∀ region ∈ space.regions, userAddressMin ≤ region.virtualBase ∧
    region.virtualBase+region.size ≤ userAddressMaxExclusive
  apart : space.regions.Pairwise ZiAddressSpaceRegion.Apart
  present : ∀ v, v < userAddressMaxExclusive → v%4096 = 0 →
    ((∃ mapping, ziX64PagingQuery callbacks space.paging v st = .ok mapping) ↔
      ∃ region ∈ space.regions, region.Covers v)
  mapped : ∀ region ∈ space.regions, ∀ v, region.Covers v →
    UserAccessible st space.paging.rootPhysicalBase v ∧
    ∃ protection,
      ziX64PagingQuery callbacks space.paging v st = .ok ⟨region.backingOf v,protection⟩ ∧
      protection &&& x64PageUser ≠ 0 ∧
      ¬(protection &&& x64PageWrite ≠ 0 ∧ protection &&& x64PageExecute ≠ 0) ∧
      (region.protection ≠ 0 → protection = region.protection)
  reserved : st.reserved.Perm (regionsBacking space.regions ++ outside)
  once : (regionsBacking space.regions).Nodup ∧ ∀ page ∈ regionsBacking space.regions,
    ∃! place : ZiAddressSpaceRegion × ℕ,
      place.1 ∈ space.regions ∧ place.1.Covers place.2 ∧ place.1.backingOf place.2 = page

section

variable {cb : ZiX64PagingCallbacks} {backing : ZiAddressSpaceBacking} {kernel : ZiX64PagingContext}
  {owns : Fin 512 → Prop} {others : Set ℕ} {outside : List ℕ} {space : ZiAddressSpace}
  {st : PagingState} {root : ℕ} {m : PageMap}

theorem PagingState.Maps.userAccessible (h : st.Maps root owns others m) {v : ℕ}
    {mapping : ZiX64PageMapping} (hmapped : m v = some mapping)
    (huser : mapping.protection &&& x64PageUser ≠ 0) : UserAccessible st root v := by
  have hpage := h.isPage (by rw [hmapped]; exact Option.some_ne_none mapping)
  obtain ⟨t,hholds,-,rfl⟩ := h
  rw [PageTree.pageMap_of_isPage hpage] at hmapped
  intro above next below hpath
  have hlen : above.length+(below.length+1) = 4 := by
    have hfull : (tableIndices v).length = 4 := rfl
    rwa [hpath,length_append,length_cons] at hfull
  rw [hpath] at hmapped
  obtain ⟨table,htable⟩ := hholds.sound.wellFormed.node_of_leaf hmapped (by simp)
  have howns : above = [] → owns next := by
    rintro rfl
    exact hholds.sound.ownsLeaf hmapped
  refine ⟨table,(hholds.tableAt_eq (by omega) (hholds.head_owns htable)).trans htable,?_⟩
  have hentry := hholds.memory above table next htable howns
  cases below with
  | nil =>
    rw [PageTree.matches_leaf_iff (by simpa using hlen),hmapped] at hentry
    exact ⟨hentry.present,hentry.user.mpr huser⟩
  | cons last below =>
    rw [append_cons] at hmapped
    obtain ⟨page,hnode⟩ := hholds.sound.wellFormed.node_of_leaf hmapped (by simp)
    have hmark := hholds.sound.userPath hmapped huser (by simp) (by simp)
    have hlink := hentry.links (by rw [length_cons] at hlen; omega) hnode
    exact ⟨hlink.present,hlink.user.mpr hmark⟩

theorem RegionsMap.backing_unique {regions : List ZiAddressSpaceRegion} (h : RegionsMap regions m)
    (honce : (regionsBacking regions).Nodup) {page : ℕ} (hpage : page ∈ regionsBacking regions) :
    ∃! place : ZiAddressSpaceRegion × ℕ,
      place.1 ∈ regions ∧ place.1.Covers place.2 ∧ place.1.backingOf place.2 = page := by
  obtain ⟨region,hregion,hmem⟩ := mem_regionsBacking.mp hpage
  obtain ⟨v,hv,rfl⟩ := (h.placed region hregion).mem_backing.mp hmem
  refine ⟨(region, v),⟨hregion,hv,rfl⟩,?_⟩
  rintro ⟨other,w⟩ ⟨hother,hw,hsame⟩
  dsimp only at hother hw hsame
  have heq : other = region := by
    by_contra hne
    have hmem' : region.backingOf v ∈ other.backing :=
      (h.placed other hother).mem_backing.mpr ⟨w,hw,hsame.symm⟩
    have hsymm : Std.Symm (Function.onFun List.Disjoint ZiAddressSpaceRegion.backing) :=
      ⟨fun _ _ hdisjoint _ hleft hright => hdisjoint hright hleft⟩
    have hdisjoint := List.Pairwise.forall (nodup_flatMap.mp honce).2 hother hregion hne
    exact hdisjoint hmem' hmem
  subst heq
  have hle := hw.1
  have hle' := hv.1
  have hshift : w-other.virtualBase = v-other.virtualBase := Nat.add_left_cancel hsame
  have hplace : w = v := by omega
  rw [hplace]

theorem PageMap.query_of_some {v : ℕ} {mapping : ZiX64PageMapping} (hpage : IsPage v)
    (h : m v = some mapping) : m.query v = .ok mapping := by
  rw [PageMap.query,if_neg (by rw [hpage.1]; decide),hpage.2,Nat.sub_zero,h]
  rfl

theorem PageMap.query_of_none {v : ℕ} (hpage : IsPage v) (h : m v = none) :
    m.query v = .error .pageNotMapped := by
  rw [PageMap.query,if_neg (by rw [hpage.1]; decide),hpage.2,Nat.sub_zero,h]

section

variable (cb) (h : AddressSpaceOwns backing kernel others outside space st m)

include h

theorem AddressSpaceOwns.query_eq {v : ℕ} (hv : v < userAddressMaxExclusive) :
    ziX64PagingQuery cb space.paging v st = m.query v :=
  h.maps.query cb rfl (AddressSpaceOwns.userHalf_of_lt le_rfl v hv)

theorem AddressSpaceOwns.sound : AddressSpaceSound cb space st outside := by
  refine ⟨?_,h.regions.apart,?_,?_,h.reserved,h.once,
    fun page hpage => h.regions.backing_unique h.once hpage⟩
  · intro region hregion
    have hplaced := h.regions.placed region hregion
    exact ⟨hplaced.low,hplaced.high⟩
  · intro v hv hmod
    have hpage : IsPage v := ⟨ziX64AddressIsCanonical_iff.mpr (.inl hv),hmod⟩
    rw [h.query_eq cb hv]
    constructor
    · rintro ⟨mapping,hmapping⟩
      apply h.regions.only
      intro hnone
      rw [PageMap.query_of_none hpage hnone] at hmapping
      cases hmapping
    · rintro ⟨region,hregion,hcovers⟩
      obtain ⟨prot,hsome,-⟩ := h.regions.mapped region hregion v hcovers
      exact ⟨_,PageMap.query_of_some hpage hsome⟩
  · intro region hregion v hcovers
    obtain ⟨prot,hsome,howned,hrecorded⟩ := h.regions.mapped region hregion v hcovers
    have hv := (h.regions.placed region hregion).covers_lt hcovers
    refine ⟨h.maps.userAccessible hsome howned.user,prot,?_,howned.user,howned.2.2,hrecorded⟩
    rw [h.query_eq cb hv]
    exact PageMap.query_of_some
      (h.maps.isPage (by rw [hsome]; exact Option.some_ne_none _)) hsome

end

/-- An address space that has been given back, with the memory as it was before it. -/
structure AddressSpaceGone (others : Set ℕ) (outside : List ℕ) (run : AddressSpaceRun) : Prop where
  space : run.space = .zero
  held : ∀ page, page ∈ run.st.held ↔ page ∈ others
  nodup : run.st.held.Nodup
  reserved : run.st.reserved.Perm outside
  stray : run.st.stray = []

def AddressSpaceRun.Sound (backing : ZiAddressSpaceBacking) (kernel : ZiX64PagingContext)
    (others : Set ℕ) (outside : List ℕ) (run : AddressSpaceRun) : Prop :=
  (∃ m, AddressSpaceOwns backing kernel others outside run.space run.st m) ∨
    AddressSpaceGone others outside run

theorem addressSpaceIsActive_zero : addressSpaceIsActive backing .zero = false := by
  simp [addressSpaceIsActive,ZiAddressSpace.zero]

theorem AddressSpaceGone.step (h : AddressSpaceGone others outside run) (cb : ZiX64PagingCallbacks)
    (backing : ZiAddressSpaceBacking) (call : AddressSpaceCall) :
    run.step cb backing call = run := by
  obtain ⟨space,st⟩ := run
  obtain rfl : space = .zero := h.space
  have hrefused := (addressSpaceIsActive_zero : addressSpaceIsActive backing .zero = false)
  cases call with
  | mapOwned vbase size prot owner =>
    rw [AddressSpaceRun.step,ziAddressSpaceMapOwned,if_pos (.inl hrefused)]
  | protectOwned vbase size prot =>
    rw [AddressSpaceRun.step,ziAddressSpaceProtectOwned,if_pos hrefused]
  | unmapOwned vbase size =>
    rw [AddressSpaceRun.step,ziAddressSpaceUnmapOwned,if_pos (.inl hrefused)]
  | findFreeRange searchBase searchEnd size alignment => rfl
  | copyFromUser userSource size => rfl
  | copyToUser userDestination bytes =>
    rw [AddressSpaceRun.step,ziCopyToUser,if_pos (.inl hrefused)]
  | destroy => rw [AddressSpaceRun.step,ziAddressSpaceDestroy,if_pos hrefused]

theorem AddressSpaceRun.Sound.step (h : run.Sound backing kernel others outside)
    (cb : ZiX64PagingCallbacks) (call : AddressSpaceCall) :
    (run.step cb backing call).Sound backing kernel others outside := by
  rcases h with ⟨m,howns⟩ | hgone
  swap
  · rw [hgone.step]
    exact .inr hgone
  cases call with
  | mapOwned vbase size prot owner =>
    rw [AddressSpaceRun.step]
    rcases howns.mapOwned cb vbase size prot owner with
      ⟨status,st',hrun,howns',-⟩ | ⟨space',st',m',hrun,howns'⟩
    · rw [hrun]
      exact .inl ⟨m,howns'⟩
    · rw [hrun]
      exact .inl ⟨m',howns'⟩
  | protectOwned vbase size prot =>
    rw [AddressSpaceRun.step]
    rcases howns.protectOwned cb vbase size prot with
      ⟨status,hrun⟩ | ⟨space',st',m',hrun,howns'⟩
    · rw [hrun]
      exact .inl ⟨m,howns⟩
    · rw [hrun]
      exact .inl ⟨m',howns'⟩
  | unmapOwned vbase size =>
    rw [AddressSpaceRun.step]
    rcases howns.unmapOwned cb vbase size with
      ⟨status,hrun⟩ | ⟨space',st',m',hrun,howns'⟩
    · rw [hrun]
      exact .inl ⟨m,howns⟩
    · rw [hrun]
      exact .inl ⟨m',howns'⟩
  | findFreeRange searchBase searchEnd size alignment => exact .inl ⟨m,howns⟩
  | copyFromUser userSource size => exact .inl ⟨m,howns⟩
  | copyToUser userDestination bytes => exact .inl ⟨m,howns.copyToUser cb userDestination bytes⟩
  | destroy =>
    rw [AddressSpaceRun.step]
    obtain ⟨st',hrun,hheld,hnodup,hrsv,hstray⟩ := howns.destroy cb
    rw [hrun]
    exact .inr ⟨rfl,hheld,hnodup,hrsv,hstray⟩

theorem AddressSpaceRun.Sound.after (h : run.Sound backing kernel others outside)
    (cb : ZiX64PagingCallbacks) (calls : List AddressSpaceCall) :
    (run.after cb backing calls).Sound backing kernel others outside := by
  induction calls generalizing run with
  | nil => exact h
  | cons call calls ih => exact ih (h.step cb call)

theorem initialise_owns {st0 : PagingState} (hnodup : st0.held.Nodup)
    (hapart : ∀ page ∈ st0.reserved, page ∉ st0.held) (hstray : st0.stray = [])
    (hkernel : kernel.rootPhysicalBase ∈ st0.held)
    (hinit : ziAddressSpaceInitialise cb backing kernel st0 = (.ok space, st)) :
    AddressSpaceOwns backing kernel {page | page ∈ st0.held} st0.reserved space st
      fun _ => none := by
  rw [ziAddressSpaceInitialise] at hinit
  split at hinit
  · cases hinit
  next hvalid =>
  rw [Bool.not_eq_false] at hvalid
  rcases clone_cases cb hkernel with ⟨status,st',hrun⟩ | ⟨root,st',hrun,hframe,hclone⟩
  · rw [hrun] at hinit
    cases hinit
  rw [hrun] at hinit
  cases hinit
  refine ⟨?_,rfl,rfl,hclone.maps hnodup hapart hstray,.nil,hkernel,hframe,hclone.upper,?_,nodup_nil⟩
  · rw [addressSpaceIsActive,decide_eq_true_eq]
    exact ⟨rfl,rfl,rfl,hvalid,hclone.frame.2,Nat.zero_le _⟩
  · rw [hclone.reserved]
    exact .refl _

/-- From its initialisation on, an address space owns what its regions say until it is destroyed.
A mapping that fails leaves the regions, the user half of the page map and the pages as they
were.  Destroying an active address space succeeds, and after it the pages held and reserved are
those of before the initialisation, none of them given back twice. -/
theorem addressSpace_owns_regions (cb : ZiX64PagingCallbacks) (backing : ZiAddressSpaceBacking)
    (kernel : ZiX64PagingContext) (st0 st1 : PagingState) (space1 : ZiAddressSpace)
    (hnodup : st0.held.Nodup) (hapart : ∀ page ∈ st0.reserved, page ∉ st0.held)
    (hstray : st0.stray = []) (hkernel : kernel.rootPhysicalBase ∈ st0.held)
    (hinit : ziAddressSpaceInitialise cb backing kernel st0 = (.ok space1, st1))
    (calls : List AddressSpaceCall) :
    let run := (AddressSpaceRun.mk space1 st1).after cb backing calls
    run.st.held.Nodup ∧ run.st.stray = [] ∧
    (run.space.state = .active → AddressSpaceSound cb run.space run.st st0.reserved) ∧
    (run.space.state ≠ .active → run.st.held.Perm st0.held ∧ run.st.reserved.Perm st0.reserved) ∧
    (∀ virtualBase size protection owner status space' st',
      ziAddressSpaceMapOwned cb backing run.space virtualBase size protection owner run.st =
        (.error status, space', st') →
      space' = run.space ∧ st'.held.Perm run.st.held ∧ st'.reserved.Perm run.st.reserved ∧
      ∀ v, v < userAddressMaxExclusive → ziX64PagingQuery cb space'.paging v st' =
        ziX64PagingQuery cb run.space.paging v run.st) ∧
    (run.space.state = .active →
      ∃ st', ziAddressSpaceDestroy cb backing run.space run.st = (.ok (), .zero, st') ∧
        st'.held.Perm st0.held ∧ st'.reserved.Perm st0.reserved ∧ st'.stray = []) := by
  intro run
  have hrun : run.Sound backing kernel {page | page ∈ st0.held} st0.reserved :=
    AddressSpaceRun.Sound.after
      (.inl ⟨_,initialise_owns hnodup hapart hstray hkernel hinit⟩) cb calls
  rcases hrun with ⟨m,howns⟩ | hgone
  · have hactive : run.space.state = .active := by
      have hactive := howns.active
      rw [addressSpaceIsActive,decide_eq_true_eq] at hactive
      exact hactive.2.2.1
    refine ⟨howns.maps.nodup,howns.maps.stray,fun _ => howns.sound cb,
      fun hne => absurd hactive hne,?_,?_⟩
    · intro virtualBase size protection owner status space' st' hmap
      rcases howns.mapOwned cb virtualBase size protection owner with
        ⟨status',st'',hrun,howns',hheld⟩ | ⟨space'',st'',m',hrun,-⟩
      · rw [hrun] at hmap
        cases hmap
        refine ⟨rfl,(perm_ext_iff_of_nodup howns'.maps.nodup howns.maps.nodup).mpr hheld,
          howns'.reserved.trans howns.reserved.symm,?_⟩
        intro v hv
        rw [howns'.query_eq cb hv,howns.query_eq cb hv]
      · rw [hrun] at hmap
        cases hmap
    · intro _
      obtain ⟨st',hdestroy,hheld,hnodup',hreserved,hstray'⟩ := howns.destroy cb
      exact ⟨st',hdestroy,(perm_ext_iff_of_nodup hnodup' hnodup).mpr hheld,hreserved,hstray'⟩
  · have hinactive : run.space.state ≠ .active := by
      rw [hgone.space]
      decide
    refine ⟨hgone.nodup,hgone.stray,fun h => absurd h hinactive,fun _ =>
      ⟨(perm_ext_iff_of_nodup hgone.nodup hnodup).mpr hgone.held,hgone.reserved⟩,?_,
      fun h => absurd h hinactive⟩
    intro virtualBase size protection owner status space' st' hmap
    rw [ziAddressSpaceMapOwned,if_pos] at hmap
    · cases hmap
      exact ⟨rfl,.refl _,.refl _,fun _ _ => rfl⟩
    · rw [hgone.space]
      exact .inl addressSpaceIsActive_zero

/-- A backing that gives out a fresh megabyte at each request. -/
def megabyteBacking : ZiAddressSpaceBacking where
  structSize := addressSpaceBackingSize
  version := addressSpaceBackingVersion
  allocatePages asked inUse pageCount _ :=
    if (backingPages (0x100000*(asked+1)) pageCount).all fun page => !inUse.contains page then
      .ok (0x100000*(asked+1)) else .error .noMemory
  releasePages _ _ _ _ := .ok ()
  physicalPointer reserved page := .ok (reserved.contains page)
  allocated := by
    intro asked inUse pageCount owner base h
    split at h
    next hfree =>
      cases h
      refine ⟨by rw [and_offsetMask]; omega,?_⟩
      intro page hpage hused
      have hnot := all_eq_true.mp hfree page hpage
      rw [contains_iff_mem.mpr hused] at hnot
      cases hnot
    · cases h
  released := fun _ _ _ _ _ => rfl
  accessible := by
    intro reserved page h
    rw [contains_iff_mem.mpr h]

def kernelMemory : PagingState := ⟨fun _ _ => 0,[0x80000],[],0,[]⟩

/-- The kernel's root is the page held, and the first page given out is the new root. -/
def sampleSpace : ZiAddressSpace :=
  ⟨addressSpaceSize,addressSpaceVersion,.active,⟨0x1000,true⟩,⟨0x80000,true⟩,[]⟩

def sampleMemory : PagingState :=
  (ziAddressSpaceInitialise countingCallbacks megabyteBacking ⟨0x80000,true⟩ kernelMemory).2

theorem sampleSpace_init : ziAddressSpaceInitialise countingCallbacks megabyteBacking ⟨0x80000,true⟩
    kernelMemory = (.ok sampleSpace, sampleMemory) := by
  have hspace : (ziAddressSpaceInitialise countingCallbacks megabyteBacking ⟨0x80000,true⟩
      kernelMemory).1 = .ok sampleSpace := by decide +kernel
  rw [← hspace,sampleMemory]

theorem sampleSpace_sound (calls : List AddressSpaceCall) :
    ((AddressSpaceRun.mk sampleSpace sampleMemory).after countingCallbacks megabyteBacking
      calls).Sound megabyteBacking ⟨0x80000,true⟩ {page | page ∈ kernelMemory.held}
      kernelMemory.reserved := by
  have howns := initialise_owns (show kernelMemory.held.Nodup by decide)
    (show ∀ page ∈ kernelMemory.reserved, page ∉ kernelMemory.held by decide) rfl
    (by decide : 0x80000 ∈ kernelMemory.held) sampleSpace_init
  generalize sampleMemory = memory at howns ⊢
  exact AddressSpaceRun.Sound.after (.inl ⟨_,howns⟩) _ calls

theorem addressSpace_owns_regions_mapped :
    let run := (AddressSpaceRun.mk sampleSpace sampleMemory).after countingCallbacks
      megabyteBacking [.mapOwned 0x400000 0x2000 (x64PageRead ||| x64PageUser) 7]
    run.space.regions = [⟨0x400000,0x200000,2,x64PageRead ||| x64PageUser,7⟩] ∧
      AddressSpaceSound countingCallbacks run.space run.st [] := by
  have h := addressSpace_owns_regions countingCallbacks megabyteBacking ⟨0x80000,true⟩
    kernelMemory sampleMemory sampleSpace (by decide) (by decide) rfl (by decide)
    sampleSpace_init
    [.mapOwned 0x400000 0x2000 (x64PageRead ||| x64PageUser) 7]
  exact ⟨by decide +kernel,h.2.2.1 (by decide +kernel)⟩

end

end Zizium
