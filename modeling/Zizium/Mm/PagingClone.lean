import Zizium.Mm.PagingRefinement

/-!
# Clones of the kernel half

`zi_x64_paging_clone_kernel_half` makes a root whose upper half has the entries of the kernel's
root.  A clone owns the lower half of its root.
-/

namespace Zizium

open BlockIO PageTree List Except

/-- The slots that a clone owns. -/
def UserHalf (index : Fin 512) : Prop := index.val < x64KernelPml4Start

instance (index : Fin 512) : Decidable (UserHalf index) := by
  unfold UserHalf
  infer_instance

def SharesKernelHalf (tables : ℕ → Fin 512 → ℕ) (root kernelRoot : ℕ) : Prop :=
  ∀ index, ¬UserHalf index →
    tables root index = tables kernelRoot index ∧ tables root index &&& x64EntryUser = 0

/-- The second state has one more page, a root with the kernel's upper half. -/
structure PagingState.Cloned (st st' : PagingState) (root kernelRoot : ℕ) : Prop where
  frame : IsFrame root ∧ root ≠ 0
  fresh : root ∉ st.held
  unreserved : root ∉ st.reserved
  tables : ∀ page, page ≠ root → st'.tables page = st.tables page
  lower : ∀ index, UserHalf index → st'.tables root index = 0
  upper : SharesKernelHalf st'.tables root kernelRoot
  held : st'.held = root :: st.held
  reserved : st'.reserved = st.reserved
  stray : st'.stray = st.stray

section

variable {st st' : PagingState} {root kernelRoot : ℕ} {owns : Fin 512 → Prop} {others : Set ℕ}
  {m : PageMap} {i : Fin 512} {cb : ZiX64PagingCallbacks} {ctx kctx : ZiX64PagingContext}

theorem mem_kernelSlots : i ∈ kernelSlots ↔ ¬UserHalf i := by simp [kernelSlots,UserHalf]

theorem mem_userSlots : i ∈ userSlots ↔ UserHalf i := by simp [userSlots,UserHalf]

theorem userHalf_rootSlot {va : ℕ} (hcanon : ziX64AddressIsCanonical va = true) :
    UserHalf (rootSlot va) ↔ va < 2^47 :=
  tableIndex_lt_iff hcanon

theorem copyKernelHalf_cases (hne : kernelRoot ≠ root) (slots : List (Fin 512)) (st : PagingState) :
    (∃ status st', copyKernelHalf kernelRoot root slots st = (.error status, st')) ∨
    ∃ tables, copyKernelHalf kernelRoot root slots st = (.ok (), { st with tables := tables }) ∧
      (∀ page, page ≠ root → tables page = st.tables page) ∧
      (∀ i ∈ slots, st.tables kernelRoot i &&& x64EntryUser = 0) ∧
      ∀ i, tables root i = if i ∈ slots then st.tables kernelRoot i else st.tables root i := by
  induction slots generalizing st with
  | nil => exact .inr ⟨st.tables,rfl,fun _ _ => rfl,by simp,by simp⟩
  | cons slot slots ih =>
    rw [copyKernelHalf]
    by_cases huser : st.tables kernelRoot slot &&& x64EntryUser ≠ 0
    · rw [if_pos huser]
      exact .inl ⟨_,_,rfl⟩
    · rw [if_neg huser]
      rw [ne_eq,not_not] at huser
      rcases ih (st.store ⟨root,slot⟩ (st.tables kernelRoot slot)) with
        herror | ⟨tables,hdone,hframe,hnone,hcopied⟩
      · exact .inl herror
      have hstore : ∀ page, page ≠ root →
          (st.store ⟨root,slot⟩ (st.tables kernelRoot slot)).tables page = st.tables page := by
        intro page hpage
        funext j
        rw [tables_store,if_neg (fun heq => hpage heq.1)]
      rw [hstore kernelRoot hne] at hnone hcopied
      refine .inr ⟨tables,hdone,fun page hpage => (hframe page hpage).trans (hstore page hpage),
        forall_mem_cons.mpr ⟨huser,hnone⟩,?_⟩
      intro j
      rw [hcopied j,tables_store]
      by_cases hj : j ∈ slots
      · rw [if_pos hj,if_pos (mem_cons_of_mem slot hj)]
      · rw [if_neg hj]
        by_cases heq : j = slot
        · rw [heq,if_pos ⟨rfl,rfl⟩,if_pos mem_cons_self]
        · rw [if_neg (fun h => heq h.2),if_neg (by simp [heq,hj])]

theorem physicalTable_ok_iff (hheld : root ∈ st.held) :
    physicalTable cb st root = .ok () ↔ IsFrame root := by
  rw [physicalTable,failIf_bind_ok_iff,failIf_bind_ok_iff,
    cb.accessible _ _ hheld,not_not,Nat.not_le,← and_assoc]
  exact and_iff_left rfl

theorem clone_cases (cb : ZiX64PagingCallbacks) (hkernel : kctx.rootPhysicalBase ∈ st.held) :
    (∃ status st', ziX64PagingCloneKernelHalf cb kctx st = (.error status, st')) ∨
    ∃ root st', ziX64PagingCloneKernelHalf cb kctx st = (.ok ⟨root,true⟩, st') ∧
      (IsFrame kctx.rootPhysicalBase ∧ kctx.rootPhysicalBase ≠ 0) ∧
      st.Cloned st' root kctx.rootPhysicalBase := by
  rw [ziX64PagingCloneKernelHalf]
  by_cases hinvalid : kctx.rootPhysicalBase = 0 ∨ kctx.nxEnabled = false
  · rw [if_pos hinvalid]
    exact .inl ⟨_,st,rfl⟩
  rw [if_neg hinvalid]
  rw [not_or,Bool.not_eq_false] at hinvalid
  rcases allocateTable_cases cb st with ⟨status,hask,-⟩ | ⟨root,hask,hframe,hfresh,hrsv,-⟩
  · rw [hask]
    exact .inl ⟨status,_,rfl⟩
  rw [hask]
  have hne : kctx.rootPhysicalBase ≠ root := by
    rintro heq
    exact hfresh (heq ▸ hkernel)
  have hzero : ∀ page, page ≠ root → (st.zeroPage root).tables page = st.tables page :=
    fun page hpage => tables_zeroPage hpage
  dsimp only
  by_cases hkernelFrame : IsFrame kctx.rootPhysicalBase
  swap
  · cases htable : physicalTable cb (PagingState.zeroPage
      { st with asked := st.asked+1, held := root :: st.held } root)
      kctx.rootPhysicalBase with
    | error status => exact .inl ⟨status,_,rfl⟩
    | ok _ =>
      exact absurd ((physicalTable_ok_iff (mem_cons_of_mem root hkernel)).mp htable)
        hkernelFrame
  rw [(physicalTable_ok_iff (mem_cons_of_mem root hkernel)).mpr hkernelFrame]
  rcases copyKernelHalf_cases hne kernelSlots (PagingState.zeroPage
      { st with asked := st.asked+1, held := root :: st.held } root) with
    ⟨status,st',hcopy⟩ | ⟨tables,hcopy,hothers,hnone,hcopied⟩
  · rw [hcopy]
    exact .inl ⟨status,st',rfl⟩
  · rw [hcopy]
    rw [hinvalid.2]
    refine .inr ⟨root,_,rfl,⟨hkernelFrame,hinvalid.1⟩,hframe,hfresh,
      hrsv,fun page hpage => (hothers page hpage).trans (hzero page hpage),?_,?_,rfl,rfl,
      rfl⟩
    · intro i hi
      show tables root i = 0
      rw [hcopied i,if_neg (fun hmem => mem_kernelSlots.mp hmem hi),
        tables_zeroPage_self]
    · intro i hi
      have hmem := mem_kernelSlots.mpr hi
      have hsame : tables root i = tables kctx.rootPhysicalBase i := by
        rw [hcopied i,if_pos hmem,hothers _ hne]
      refine ⟨hsame,?_⟩
      show tables root i &&& x64EntryUser = 0
      rw [hsame,hothers _ hne]
      exact hnone i hmem

theorem PagingState.Cloned.maps (h : st.Cloned st' root kernelRoot) (hnodup : st.held.Nodup)
    (hapart : ∀ page ∈ st.reserved, page ∉ st.held) (hstray : st.stray = []) :
    st'.Maps root UserHalf {page | page ∈ st.held} fun _ => none := by
  refine ⟨leafless root,⟨leafless_sound h.frame,?_,?_,?_,?_,?_,?_⟩,?_,?_⟩
  · intro path page i hpath howns
    obtain ⟨rfl,rfl⟩ := node_leafless_iff.mp hpath
    rw [h.lower i (howns rfl)]
    rfl
  · intro page
    rw [h.held,mem_cons,has_leafless_iff,or_comm]
    rfl
  · intro page hpage hhas
    exact h.fresh (has_leafless_iff.mp hhas ▸ hpage)
  · rw [h.held]
    exact nodup_cons.mpr ⟨h.fresh,hnodup⟩
  · intro page hpage
    rw [h.reserved] at hpage
    rw [h.held,mem_cons,not_or]
    exact ⟨fun heq => h.unreserved (heq ▸ hpage),hapart page hpage⟩
  · rw [h.stray,hstray]
  · intro path page hpath hne
    exact absurd (node_leafless_iff.mp hpath).1 hne
  · funext v
    exact (ite_self none).symm

theorem validateEmptyAddressSpace_ok_iff : validateEmptyAddressSpace root kernelRoot st = .ok () ↔
      (∀ i, UserHalf i → st.tables root i &&& x64EntryPresent = 0) ∧
        SharesKernelHalf st.tables root kernelRoot := by
  simp only [validateEmptyAddressSpace,unit_bind_ok_iff,forM_ok_iff,
    failIf_ok_iff,not_or,not_not,ne_eq,mem_userSlots,mem_kernelSlots,
    SharesKernelHalf]

theorem PagingState.Maps.releaseEmpty (h : st.Maps root UserHalf others m)
    (hempty : ∀ v, m v = none) (hroot : ctx.rootPhysicalBase = root)
    (hkernel : kctx.rootPhysicalBase ∈ others)
    (hframe : IsFrame kctx.rootPhysicalBase ∧ kctx.rootPhysicalBase ≠ 0)
    (hshares : SharesKernelHalf st.tables root kctx.rootPhysicalBase) (cb : ZiX64PagingCallbacks) :
    ziX64PagingReleaseEmptyAddressSpace cb ctx kctx st =
      (.ok (), ⟨0,false⟩, { st with held := st.held.erase root }) ∧
    (∀ page, page ∈ st.held.erase root ↔ page ∈ others) ∧ (st.held.erase root).Nodup := by
  have hunused : ∀ i, UserHalf i → st.tables root i &&& x64EntryPresent = 0 := by
    intro i hi
    by_contra hpresent
    obtain ⟨v,hv,-⟩ := h.exists_of_present hi hpresent
    exact hv (hempty v)
  obtain ⟨t,hholds,hpop,rfl⟩ := h
  have hheld : root ∈ st.held := hholds.mem_held hholds.sound.root
  have hkernelHeld := (hholds.held kctx.rootPhysicalBase).mpr (.inl hkernel)
  obtain ⟨hrootFrame,hzero⟩ := hholds.sound.frame hholds.sound.root
  refine ⟨?_,?_,hholds.nodup.erase root⟩
  · rw [ziX64PagingReleaseEmptyAddressSpace,hroot,if_neg (by rw [not_or]; exact ⟨hzero,hframe.2⟩),
      (physicalTable_ok_iff hheld).mpr hrootFrame,
      (physicalTable_ok_iff hkernelHeld).mpr hframe.1,
      validateEmptyAddressSpace_ok_iff.mpr ⟨hunused,hshares⟩,PagingState.releasePage,
      if_pos hheld]
  · -- the root is the only table, as every other leads to a mapping
    have hroots : ∀ page, t.Has page → page = root := by
      rintro page ⟨path,hpath⟩
      by_cases hne : path = []
      · rw [hne,hholds.sound.root] at hpath
        exact (Option.some.inj hpath).symm
      · obtain ⟨rest,mapping,hleaf⟩ := hpop.exists_leaf hholds.sound.wellFormed hpath hne
        obtain ⟨v,hpage,hindices⟩ := exists_page _ (hholds.sound.wellFormed.full hleaf)
        have hmapped := hempty v
        rw [pageMap_of_isPage hpage,hindices,hleaf] at hmapped
        cases hmapped
    intro page
    rw [hholds.nodup.mem_erase_iff,hholds.held]
    constructor
    · rintro ⟨hne,hmem | hhas⟩
      · exact hmem
      · exact absurd (hroots page hhas) hne
    · intro hmem
      refine ⟨?_,.inl hmem⟩
      rintro rfl
      exact hholds.apart page hmem ⟨[],hholds.sound.root⟩

end

end Zizium
