import Zizium.Mm.PagingWalk

/-!
# Page tables as a page map

A partial map from canonical pages to frames with a protection, and what each call on one page does
to it and to the memory of everyone else.
-/

namespace Zizium

open BlockIO Radix PageTree PagingState List Function Option

variable {path : TablePath} {page table : ℕ} {above : List EntryPointer}

/-- A page address that the tables can have an entry for. -/
def IsPage (virtualAddress : ℕ) : Prop :=
  ziX64AddressIsCanonical virtualAddress = true ∧ virtualAddress%4096 = 0

instance (virtualAddress : ℕ) : Decidable (IsPage virtualAddress) := by
  unfold IsPage
  infer_instance

abbrev PageMap : Type := ℕ → Option ZiX64PageMapping

def PageMap.query (m : PageMap) (virtualAddress : ℕ) : Result ZiX64PageMapping :=
  if ziX64AddressIsCanonical virtualAddress = false then .error .invalidArgument
  else
    match m (virtualAddress-virtualAddress%4096) with
    | none => .error .pageNotMapped
    | some mapping => .ok ⟨mapping.physicalBase+virtualAddress%4096,mapping.protection⟩

/-- What a mapping of one page may be asked with. -/
def MapArguments (virtualAddress physicalAddress : ℕ) (protection : UInt32) : Prop :=
  IsPage virtualAddress ∧ IsFrame physicalAddress ∧ ValidProtection protection

abbrev rootSlot (virtualAddress : ℕ) : Fin 512 := tableIndex virtualAddress 39

def tablePath (virtualAddress : ℕ) : TablePath :=
  [tableIndex virtualAddress 39,tableIndex virtualAddress 30,tableIndex virtualAddress 21]

theorem tableIndices_eq (va : ℕ) : tableIndices va = tablePath va ++ [tableIndex va 12] := rfl

theorem exists_page (path : TablePath) (h : path.length = 4) :
    ∃ va, IsPage va ∧ tableIndices va = path := by
  obtain ⟨i0,i1,i2,i3,rfl⟩ := length_eq_four.mp h
  have hpage : ∀ high : ℕ, (high = 0 ∧ i0.val < 256 ∨ high = 0xffff ∧ 256 ≤ i0.val) →
      ∃ va, IsPage va ∧ tableIndices va = [i0,i1,i2,i3] := by
    intro high hhigh
    refine ⟨high*2^48+i0.val*2^39+i1.val*2^30+i2.val*2^21+i3.val*2^12,⟨?_,?_⟩,?_⟩
    · rw [ziX64AddressIsCanonical_iff]
      omega
    · omega
    · simp only [tableIndices,cons.injEq,and_true,Fin.ext_iff,tableIndex_val]
      omega
  by_cases hlow : i0.val < 256
  · exact hpage 0 (.inl ⟨rfl,hlow⟩)
  · exact hpage 0xffff (.inr ⟨rfl,by omega⟩)

def PageTree.pageMap (t : PageTree) : PageMap := fun virtualAddress =>
  if IsPage virtualAddress then t.leaf (tableIndices virtualAddress) else none

/-- The tables of the root stand for the page map, with no table in vain. -/
def PagingState.Maps (st : PagingState) (root : ℕ) (owns : Fin 512 → Prop) (others : Set ℕ)
    (m : PageMap) : Prop :=
  ∃ t : PageTree, t.Holds st root owns others ∧ t.Populated ∧ m = t.pageMap

def tableAt (tables : ℕ → Fin 512 → ℕ) (root : ℕ) (path : TablePath) : Option ℕ :=
  path.foldlM (fun table index =>
    if tables table index &&& x64EntryPresent = 0 then none
    else some (tables table index &&& x64EntryPhysicalMask)) root

def PagingState.Below (st st' : PagingState) (root : ℕ) (owns : Fin 512 → Prop) : Prop :=
  ∀ path page, path.length ≤ 3 → (∀ index ∈ path.head?, owns index) →
    tableAt st.tables root path = some page → tableAt st'.tables root path = some page

section Calls

variable {st st' : PagingState} {root : ℕ} {owns : Fin 512 → Prop} {others : Set ℕ}
  {t t' : PageTree} {m : PageMap} {va pa : ℕ} {prot : UInt32} {cb : ZiX64PagingCallbacks}
  {ctx : ZiX64PagingContext} {idx : Fin 512}

theorem PageTree.pageMap_congr (h : t'.leaf = t.leaf) : t'.pageMap = t.pageMap := by
  funext v
  rw [pageMap,pageMap,h]

theorem PageTree.pageMap_setLeaf (hpage : IsPage va) (mapping : Option ZiX64PageMapping) :
    (t.setLeaf (tableIndices va) mapping).pageMap = update t.pageMap va mapping := by
  funext v
  by_cases hv : v = va
  · subst hv
    rw [update_self,pageMap,if_pos hpage]
    exact Tree.leaf_setLeaf_self
  · rw [update_of_ne hv,pageMap,pageMap]
    by_cases hcanon : IsPage v
    · rw [if_pos hcanon,if_pos hcanon]
      apply Tree.leaf_setLeaf_of_ne
      intro heq
      exact hv (tableIndices_injective hcanon.1 hpage.1 hcanon.2 hpage.2 heq)
    · rw [if_neg hcanon,if_neg hcanon]

theorem PageTree.pageMap_of_isPage (hpage : IsPage va) : t.pageMap va = t.leaf (tableIndices va) :=
  if_pos hpage

section

variable (h : t.Holds st root owns others)

include h

theorem PageTree.Holds.tableAt_eq (hpath : path.length ≤ 3) (howns : ∀ idx ∈ path.head?, owns idx) :
    tableAt st.tables root path = t.node path := by
  induction path using reverseRecOn with
  | nil => exact h.sound.root.symm
  | append_singleton path idx ih =>
    rw [length_append,length_singleton] at hpath
    have hshort : path.length ≤ 3 := by omega
    have hfirst : ∀ i ∈ path.head?, owns i := by
      intro i hi
      apply howns
      rw [head?_append,hi]
      rfl
    have hidx : path = [] → owns idx := by
      rintro rfl
      exact howns idx rfl
    rw [tableAt,foldlM_append,← tableAt,ih hshort hfirst]
    cases hnode : t.node path with
    | none =>
      show none = t.node (path ++ [idx])
      rw [eq_comm,eq_none_iff_forall_ne_some]
      intro page hpage
      obtain ⟨above,habove⟩ := h.sound.wellFormed.closed hpage
      rw [hnode] at habove
      cases habove
    | some table =>
      have hlen : path.length ≠ 3 := by omega
      have hentry := h.memory path table idx hnode hidx
      simp only [bind_eq_bind,bind_some,foldlM_cons,foldlM_nil]
      cases hnext : t.node (path ++ [idx]) with
      | none =>
        rw [if_pos (hentry.absent hlen hnext)]
        rfl
      | some page =>
        have hlink := hentry.links hlen hnext
        rw [if_neg hlink.present,hlink.mask]
        rfl

theorem PageTree.Holds.below (h' : t'.Holds st' root owns others)
    (hnode : ∀ path page, t.node path = some page → t'.node path = some page) :
    st.Below st' root owns := by
  intro path page hlen howns htable
  rw [h.tableAt_eq hlen howns] at htable
  rw [h'.tableAt_eq hlen howns]
  exact hnode path page htable

theorem PageTree.Holds.head_owns (hnode : t.node path = some page) :
    ∀ idx ∈ path.head?, owns idx := by
  intro idx hi
  cases path with
  | nil => cases hi
  | cons first path =>
    cases hi
    exact h.sound.ownsNode hnode

omit h in
theorem PagingState.Below.trans {st'' : PagingState} (h : st.Below st' root owns)
    (h' : st'.Below st'' root owns) : st.Below st'' root owns :=
  fun path page hlen howns htable => h' path page hlen howns (h path page hlen howns htable)

theorem PageTree.Holds.root_present_iff (howns : owns idx) :
    st.tables root idx &&& x64EntryPresent ≠ 0 ↔ ∃ page, t.node [idx] = some page := by
  rw [h.sound.present_iff (h.memory [] root idx h.sound.root fun _ => howns),nil_append]
  apply or_iff_left
  rintro ⟨mapping,hmapping⟩
  have := h.sound.wellFormed.full hmapping
  simp at this

end

namespace PageTree.Holds

theorem trail_tableIndices {walk : List EntryPointer} (h : t.Trail ([] ++ tableIndices va) walk) :
    ∃ table above, walk = ⟨table,tableIndex va 12⟩ :: above ∧ t.node (tablePath va) = some table ∧
      t.Trail (tablePath va) above := by
  rw [nil_append,tableIndices_eq] at h
  cases walk with
  | nil => simp [Trail] at h
  | cons leaf above =>
    obtain ⟨path,heq,hnode,htrail⟩ := h
    obtain ⟨hpath,hi⟩ := append_inj' heq rfl
    rw [← hpath] at hnode htrail
    obtain ⟨table,idx⟩ := leaf
    cases hi
    exact ⟨table,above,rfl,hnode,htrail⟩

section

variable (h : t.Holds st root owns others)

include h

section

variable (hroot : ctx.rootPhysicalBase = root) (hcanon : ziX64AddressIsCanonical va = true)

include hroot hcanon

theorem walkToLeaf_eq (create : Bool) : walkToLeaf cb ctx va create prot st =
    walkLevels cb create prot (tableIndices va) root [] [] st := by
  have hzero : root ≠ 0 := (h.sound.frame h.sound.root).2
  rw [walkToLeaf,if_neg (by rw [hcanon]; decide),hroot,if_neg hzero,
    h.physicalTable_ok h.sound.root]

theorem walkToLeaf_create (howns : owns (rootSlot va)) (cb : ZiX64PagingCallbacks) (prot : UInt32) :
    (∃ status st', walkToLeaf cb ctx va true prot st =
        (.error status, st') ∧ st.GivesUp cb st' 3 False ∧ t.Holds st' root owns others ∧
        st.Keeps st' root owns others) ∨ ∃ table above st' t', walkToLeaf cb ctx va true prot st =
        (.ok (⟨table,tableIndex va 12⟩ :: above), st') ∧
        t'.Holds st' root owns others ∧ t.Grows t' (tableIndices va) ∧
        t'.node (tablePath va) = some table ∧ t'.Trail (tablePath va) above ∧
        (t.Populated → t'.PopulatedBut (tablePath va)) ∧ st.Keeps st' root owns others ∧
        st.Asks cb st' 3 := by
  rw [h.walkToLeaf_eq hroot hcanon]
  have htrail : t.Trail [] [] := rfl
  have hlen : ([] : TablePath).length+(tableIndices va).length = 4 := rfl
  rcases h.walkLevels_create cb prot h.sound.root htrail hlen (by simp [tableIndices])
    (by rintro _ ⟨⟩ -; exact howns) with
    herror | ⟨walk,st',t',hwalk,hholds,hgrows,htrail,hpop,hkept⟩
  · exact .inl herror
  · obtain ⟨table,above,rfl,hnode,htrail⟩ := trail_tableIndices htrail
    exact .inr ⟨table,above,st',t',hwalk,hholds,hgrows,hnode,htrail,
      fun hall => hpop (hall.but _),hkept⟩

theorem walkToLeaf_lookup (howns : owns (rootSlot va)) (cb : ZiX64PagingCallbacks) (prot : UInt32) :
    (t.leaf (tableIndices va) = none ∧ walkToLeaf cb ctx va false prot st =
        (.error .pageNotMapped, st)) ∨ ∃ table above, walkToLeaf cb ctx va false prot st =
        (.ok (⟨table,tableIndex va 12⟩ :: above), st) ∧ t.node (tablePath va) = some table ∧
        t.Trail (tablePath va) above := by
  rw [h.walkToLeaf_eq hroot hcanon]
  have htrail : t.Trail [] [] := rfl
  have hlen : ([] : TablePath).length+(tableIndices va).length = 4 := rfl
  rcases h.walkLevels_lookup cb prot h.sound.root htrail hlen (by simp [tableIndices])
    (by rintro _ ⟨⟩ -; exact howns) with
    ⟨hnone,hwalk⟩ | ⟨walk,hwalk,htrail⟩
  · refine .inl ⟨?_,hwalk⟩
    rw [eq_none_iff_forall_ne_some]
    intro mapping hmapping
    rw [tableIndices_eq] at hmapping
    obtain ⟨n,hn⟩ := h.sound.wellFormed.rooted hmapping
    rw [nil_append,tableIndices_eq,dropLast_concat,hn] at hnone
    cases hnone
  · obtain ⟨table,above,rfl,hnode,htrail⟩ := trail_tableIndices htrail
    exact .inr ⟨table,above,hwalk,hnode,htrail⟩

end

theorem promoteUserPath (hpath : t.node path = some table) (htrail : t.Trail path above)
    (leaf : EntryPointer) (prot : UInt32) :
    ∃ t' : PageTree, t'.Holds (Zizium.promoteUserPath (leaf :: above) prot st) root owns others ∧
      t'.toTree = t.toTree ∧
      (prot &&& x64PageUser ≠ 0 → ∀ p q, p ++ q = path → p ≠ [] → t'.user p = true) ∧
      st.Keeps (Zizium.promoteUserPath (leaf :: above) prot st) root owns others := by
  rw [Zizium.promoteUserPath]
  split
  next hnone => exact ⟨t,h,rfl,fun hsome => absurd hnone hsome,.refl⟩
  next hsome =>
    obtain ⟨t',hholds,htree,huser,hkeeps⟩ := h.promote hpath htrail
    exact ⟨t',hholds,htree,fun _ => huser,hkeeps⟩

theorem load_absent (hnode : t.node (tablePath va) = some table)
    (hleaf : t.leaf (tableIndices va) = none) :
    st.load ⟨table,tableIndex va 12⟩ &&& x64EntryPresent = 0 := by
  have hload := (matches_leaf_iff rfl).mp
    (h.load hnode (i := tableIndex va 12) (by simp [tablePath]))
  rwa [← tableIndices_eq,hleaf] at hload

theorem load_mapped (hnode : t.node (tablePath va) = some table) {mapping : ZiX64PageMapping}
    (hleaf : t.leaf (tableIndices va) = some mapping) :
    MapsTo (st.load ⟨table,tableIndex va 12⟩) mapping := by
  have hload := (matches_leaf_iff rfl).mp
    (h.load hnode (i := tableIndex va 12) (by simp [tablePath]))
  rwa [← tableIndices_eq,hleaf] at hload

end

theorem writeLeaf (mapping : ZiX64PageMapping) {value : ℕ} (h : t.Holds st root owns others)
    (hpage : IsPage va) (hnode : t.node (tablePath va) = some table)
    (htrail : t.Trail (tablePath va) above) (hpop : t.PopulatedBut (tablePath va))
    (hvalid : mapping.Valid) (hvalue : MapsTo value mapping) :
    ∃ t' : PageTree, t'.Holds ((Zizium.promoteUserPath (⟨table,tableIndex va 12⟩ :: above)
        mapping.protection st).store ⟨table,tableIndex va 12⟩ value)
        root owns others ∧ t'.Populated ∧ t'.pageMap = update t.pageMap va (some mapping) ∧
      t'.node = t.node ∧ st.Keeps ((Zizium.promoteUserPath (⟨table,tableIndex va 12⟩ :: above)
        mapping.protection st).store ⟨table,tableIndex va 12⟩ value) root owns others := by
  obtain ⟨t',hholds,htree,huser,hkeeps⟩ :=
    h.promoteUserPath hnode htrail ⟨table,tableIndex va 12⟩ mapping.protection
  have hnode' : t'.node (tablePath va) = some table := by rw [htree,hnode]
  have hset : (t'.setLeaf (tableIndices va) (some mapping)).Holds _ root owns others :=
    hholds.setLeaf hnode' rfl (tableIndex va 12) (some mapping)
      (fun other hother => some.inj hother ▸ hvalid)
      (fun other hother => some.inj hother ▸ huser) hvalue
  refine ⟨_,hset,?_,?_,?_,hkeeps.trans (hholds.keeps_store hnode' (by simp [tablePath]) _)⟩
  · rw [← htree] at hpop
    exact hpop.setLeaf
  · have hmap : t'.pageMap = t.pageMap := pageMap_congr (congrArg Radix.Tree.leaf htree)
    rw [pageMap_setLeaf hpage,hmap]
  · show t'.node = t.node
    exact congrArg Radix.Tree.node htree

end PageTree.Holds

theorem promoteUserPath_eq (walk : List EntryPointer) (prot : UInt32) (st : PagingState) :
    ∃ tables, promoteUserPath walk prot st = { st with tables := tables } := by
  rw [promoteUserPath]
  split
  · exact ⟨_,rfl⟩
  induction walk.tail with
  | nil => exact ⟨_,rfl⟩
  | cons entry rest ih =>
    obtain ⟨tables,htables⟩ := ih
    rw [foldr_cons,htables]
    exact ⟨_,rfl⟩

theorem validatePageArguments_ok_iff : validatePageArguments va pa prot = .ok () ↔
      IsPage va ∧ IsFrame pa ∧ prot &&& x64PageRead ≠ 0 := by
  simp only [validatePageArguments,Except.failIf_bind_ok_iff,Except.failIf_ok_iff,not_or,
    Bool.not_eq_false,ne_eq,not_not,not_le,IsPage,IsFrame,and_offsetMask]
  tauto

namespace PagingState.Maps

section

variable (h : st.Maps root owns others m)

include h

theorem isPage (hmapped : m va ≠ none) : IsPage va := by
  obtain ⟨t,-,-,rfl⟩ := h
  by_contra hpage
  exact hmapped (if_neg hpage)

theorem mem_held_of_others (hpage : page ∈ others) : page ∈ st.held := by
  obtain ⟨t,hholds,-,-⟩ := h
  exact (hholds.held page).mpr (.inl hpage)

theorem root_mem_held : root ∈ st.held := by
  obtain ⟨t,hholds,-,-⟩ := h
  exact hholds.mem_held hholds.sound.root

theorem nodup : st.held.Nodup := by
  obtain ⟨t,hholds,-,-⟩ := h
  exact hholds.nodup

theorem reserved_apart : ∀ page ∈ st.reserved, page ∉ st.held := by
  obtain ⟨t,hholds,-,-⟩ := h
  exact hholds.reserved

theorem stray : st.stray = [] := by
  obtain ⟨t,hholds,-,-⟩ := h
  exact hholds.stray

theorem congr (htables : ∀ page ∈ st.held, st'.tables page = st.tables page)
    (hheld : st'.held = st.held) (hrsv : ∀ page ∈ st'.reserved, page ∉ st.held)
    (hstray : st'.stray = st.stray) : st'.Maps root owns others m := by
  obtain ⟨t,hholds,hpop,hmap⟩ := h
  refine ⟨t,⟨hholds.sound,?_,?_,hholds.apart,?_,?_,?_⟩,hpop,hmap⟩
  · intro path page idx hpath howns
    rw [htables page (hholds.mem_held hpath)]
    exact hholds.memory path page idx hpath howns
  · intro page
    rw [hheld,hholds.held]
  · rw [hheld]
    exact hholds.nodup
  · intro page hpage
    rw [hheld]
    exact hrsv page hpage
  · rw [hstray,hholds.stray]

theorem exists_of_present (howns : owns idx)
    (hpresent : st.tables root idx &&& x64EntryPresent ≠ 0) :
    ∃ other, m other ≠ none ∧ rootSlot other = idx := by
  obtain ⟨t,hholds,hpop,rfl⟩ := h
  obtain ⟨page,hslot⟩ := (hholds.root_present_iff howns).mp hpresent
  obtain ⟨rest,mapping,hleaf⟩ := hpop.exists_leaf hholds.sound.wellFormed hslot (by simp)
  obtain ⟨other,hpage,hindices⟩ := exists_page _ (hholds.sound.wellFormed.full hleaf)
  refine ⟨other,?_,?_⟩
  · rw [pageMap_of_isPage hpage,hindices,hleaf]
    exact some_ne_none mapping
  · exact (cons.inj hindices).1

omit h in
theorem below_of_below {st0 : PagingState} {m0 : PageMap} (h0 : st0.Maps root owns others m0)
    (h : st.Maps root owns others m) (hmapped : ∀ v, m0 v ≠ none → m v ≠ none)
    (hst0 : st0.Below st' root owns) (hst : st.Below st' root owns) : st0.Below st root owns := by
  obtain ⟨t0,hholds0,hpopulated0,rfl⟩ := h0
  obtain ⟨t,hholds,-,rfl⟩ := h
  intro path page hlen howns htable
  have hreached := hst0 path page hlen howns htable
  rw [hholds0.tableAt_eq hlen howns] at htable
  have hnode : ∃ other, t.node path = some other := by
    by_cases hne : path = []
    · subst hne
      exact ⟨root,hholds.sound.root⟩
    · obtain ⟨rest,mapping,hleaf⟩ :=
        hpopulated0.exists_leaf hholds0.sound.wellFormed htable hne
      have hfull := hholds0.sound.wellFormed.full hleaf
      obtain ⟨v,hpage,hindices⟩ := exists_page _ hfull
      have hrest : rest ≠ [] := by
        rintro rfl
        rw [append_nil] at hfull
        omega
      have hkept := hmapped v (by
        rw [pageMap_of_isPage hpage,hindices,hleaf]
        exact some_ne_none mapping)
      rw [pageMap_of_isPage hpage,hindices] at hkept
      obtain ⟨found,hfound⟩ := ne_none_iff_exists'.mp hkept
      exact hholds.sound.wellFormed.node_of_leaf hfound hrest
  obtain ⟨other,hother⟩ := hnode
  rw [← hholds.tableAt_eq hlen howns] at hother
  rw [hst path other hlen howns hother] at hreached
  rwa [hother]

theorem held_iff (h' : st'.Maps root owns others m) (hbelow : st.Below st' root owns)
    (page : ℕ) : page ∈ st'.held ↔ page ∈ st.held := by
  have hback : st'.Below st root owns :=
    h'.below_of_below h (fun _ hv => hv) (fun _ _ _ _ htable => htable) hbelow
  obtain ⟨t,hholds,-,-⟩ := h
  obtain ⟨t',hholds',-,-⟩ := h'
  have hhas : ∀ {u u' : PageTree} {s s' : PagingState}, u.Holds s root owns others →
      u'.Holds s' root owns others → s.Below s' root owns → u.Has page → u'.Has page := by
    rintro u u' s s' hu hu' hs ⟨path,hpath⟩
    have hlen : path.length ≤ 3 := Nat.le_of_lt_succ (hu.sound.wellFormed.short hpath)
    have howns := hu.head_owns hpath
    rw [← hu.tableAt_eq hlen howns] at hpath
    have hpath' := hs path page hlen howns hpath
    rw [hu'.tableAt_eq hlen howns] at hpath'
    exact ⟨path,hpath'⟩
  rw [hholds.held,hholds'.held]
  exact or_congr_right ⟨hhas hholds' hholds hback,hhas hholds hholds' hbelow⟩

section

variable (cb) (hroot : ctx.rootPhysicalBase = root)

include cb hroot

theorem mapPage (hnx : ctx.nxEnabled = true)
    (howns : ziX64AddressIsCanonical va = true → owns (rootSlot va)) (pa : ℕ) (prot : UInt32) :
    (∃ status st', ziX64PagingMapPage cb ctx va pa prot st = (.error status, st') ∧
      st.GivesUp cb st' 3 (¬MapArguments va pa prot ∨ m va ≠ none) ∧
      st'.Maps root owns others m ∧ st.Keeps st' root owns others ∧ st.Below st' root owns) ∨
    ∃ st', ziX64PagingMapPage cb ctx va pa prot st = (.ok (), st') ∧
      MapArguments va pa prot ∧ m va = none ∧ st'.Maps root owns others
        (update m va (some ⟨pa,prot⟩)) ∧
      st.Keeps st' root owns others ∧ st.Below st' root owns ∧ st.Asks cb st' 3 := by
  obtain ⟨t,hholds,hpop,rfl⟩ := h
  rw [ziX64PagingMapPage]
  have hsame : st.Below st root owns := fun _ _ _ _ htable => htable
  rcases Except.cases_of_ok_iff validatePageArguments_ok_iff with
    ⟨status,hcheck,hbad⟩ | ⟨hcheck,hpage,hframe,-⟩
  · rw [hcheck]
    refine .inl ⟨status,st,rfl,.of_reason (.inl ?_),⟨t,hholds,hpop,rfl⟩,.refl,hsame⟩
    exact fun hargs => hbad ⟨hargs.1,hargs.2.1,hargs.2.2.1⟩
  rw [hcheck]
  rcases validateProtection_cases hnx prot with ⟨status,hprot,hbad⟩ | ⟨hprot,hvalid⟩
  · rw [hprot]
    refine .inl ⟨status,st,rfl,.of_reason (.inl ?_),⟨t,hholds,hpop,rfl⟩,.refl,hsame⟩
    exact fun hargs => hbad hargs.2.2
  rw [hprot]
  rcases hholds.walkToLeaf_create hroot hpage.1 (howns hpage.1) cb prot with
      ⟨status,st',hwalk,hrefuses,hholds',hkeeps⟩ |
      ⟨table,above,st',t',hwalk,hholds',hgrows,hnode,htrail,hbut,hkeeps,hasks⟩
  · rw [hwalk]
    exact .inl ⟨status,st',rfl,Asks.refl.givesUp hrefuses (Nat.zero_add 3).le False.elim,
      ⟨t,hholds',hpop,rfl⟩,hkeeps,hholds.below hholds' fun _ _ hp => hp⟩
  rw [hwalk]
  dsimp only
  cases hleaf : t.leaf (tableIndices va) with
  | some mapping =>
    -- every table was there, so the walk created none
    obtain rfl := hgrows.eq_of_leaf hholds.sound hholds'.sound hleaf
    rw [if_pos (hholds'.load_mapped hnode hleaf).present]
    refine .inl ⟨_,st',rfl,hasks.stops (.inr ?_),⟨_,hholds',hpop,rfl⟩,hkeeps,
      hholds.below hholds' fun _ _ hp => hp⟩
    rw [pageMap_of_isPage hpage,hleaf]
    exact some_ne_none mapping
  | none =>
    rw [if_neg (not_not.mpr (hholds'.load_absent hnode (hgrows.leaf ▸ hleaf))),hnx]
    obtain ⟨t'',hholds'',hpopulated',hmap,hnodes,hkeeps'⟩ :=
      hholds'.writeLeaf ⟨pa,prot⟩ hpage hnode htrail (hbut hpop) ⟨hframe,hvalid⟩
        (hframe.mapsTo hvalid)
    refine .inr ⟨_,rfl,⟨hpage,hframe,hvalid⟩,?_,⟨t'',hholds'',hpopulated',?_⟩,
      hkeeps.trans hkeeps',?_,?_⟩
    · rw [pageMap_of_isPage hpage,hleaf]
    · rw [hmap,pageMap_congr hgrows.leaf]
    · apply hholds.below hholds''
      intro path page hpath
      rw [hnodes]
      exact hgrows.node hpath
    · obtain ⟨tables,htables⟩ := promoteUserPath_eq (⟨table,tableIndex va 12⟩ :: above) prot st'
      rw [htables]
      exact hasks

theorem unmapPage (howns : ziX64AddressIsCanonical va = true → owns (rootSlot va)) :
    (∃ status, ziX64PagingUnmapPage cb ctx va st = (.error status, st) ∧
      (¬IsPage va ∨ m va = none)) ∨ ∃ st', ziX64PagingUnmapPage cb ctx va st = (.ok (), st') ∧
      IsPage va ∧ m va ≠ none ∧ st'.Maps root owns others (update m va none) ∧
      st.Keeps st' root owns others ∧ st'.Below st root owns ∧ st'.asked = st.asked := by
  obtain ⟨t,hholds,hpop,rfl⟩ := h
  rw [ziX64PagingUnmapPage,and_offsetMask]
  by_cases hpage : IsPage va
  swap
  · refine .inl ⟨_,if_pos ?_,.inl hpage⟩
    rwa [IsPage,not_and_or,Bool.not_eq_true] at hpage
  rw [if_neg (by simp [hpage.1,hpage.2])]
  rcases hholds.walkToLeaf_lookup hroot hpage.1 (howns hpage.1) cb x64PageRead with
    ⟨hnone,hwalk⟩ | ⟨table,above,hwalk,hnode,htrail⟩
  · rw [hwalk]
    exact .inl ⟨_,rfl,.inr ((pageMap_of_isPage hpage).trans hnone)⟩
  rw [hwalk]
  dsimp only
  cases hleaf : t.leaf (tableIndices va) with
  | none =>
    exact .inl ⟨_,if_pos (hholds.load_absent hnode hleaf),
      .inr ((pageMap_of_isPage hpage).trans hleaf)⟩
  | some mapping =>
    rw [if_neg (hholds.load_mapped hnode hleaf).present]
    have hclear : (t.setLeaf (tableIndices va) none).Holds
        (st.store ⟨table,tableIndex va 12⟩ 0) root owns others :=
      hholds.setLeaf hnode rfl (tableIndex va 12) none
        (fun _ hother => by cases hother) (fun _ hother => by cases hother) (Nat.zero_and _)
    have htrail' : (t.setLeaf (tableIndices va) none).Trail (tablePath va)
        above := htrail.congr fun _ _ _ hp => hp
    obtain ⟨t',hholds',hpopulated',hleaf',hsub,hkeeps'⟩ :=
      hclear.prune ⟨table,tableIndex va 12⟩ hnode htrail' hpop.clearLeaf
    have hkeeps := (hholds.keeps_store hnode (fun hnil => by cases hnil) 0).trans hkeeps'
    have hmap : t'.pageMap = update t.pageMap va none := by
      rw [pageMap_congr hleaf',pageMap_setLeaf hpage]
    refine .inr ⟨_,rfl,hpage,?_,⟨t',hholds',hpopulated',hmap.symm⟩,hkeeps,
      hholds'.below hholds hsub,asked_pruneTables _ _⟩
    rw [pageMap_of_isPage hpage,hleaf]
    exact some_ne_none mapping

theorem protectPage (hnx : ctx.nxEnabled = true)
    (howns : ziX64AddressIsCanonical va = true → owns (rootSlot va)) (prot : UInt32) :
    (∃ status, ziX64PagingProtectPage cb ctx va prot st = (.error status, st) ∧
      (¬IsPage va ∨ ¬ValidProtection prot ∨ m va = none)) ∨
    ∃ st' mapping, ziX64PagingProtectPage cb ctx va prot st = (.ok (), st') ∧
      IsPage va ∧ ValidProtection prot ∧ m va = some mapping ∧ st'.Maps root owns others
        (update m va (some ⟨mapping.physicalBase,prot⟩)) ∧ st.Keeps st' root owns others := by
  obtain ⟨t,hholds,hpop,rfl⟩ := h
  rw [ziX64PagingProtectPage,and_offsetMask]
  by_cases hpage : IsPage va
  swap
  · refine .inl ⟨_,if_pos ?_,.inl hpage⟩
    rwa [IsPage,not_and_or,Bool.not_eq_true] at hpage
  rw [if_neg (by simp [hpage.1,hpage.2])]
  rcases validateProtection_cases hnx prot with ⟨status,hprot,hbad⟩ | ⟨hprot,hvalid⟩
  · rw [hprot]
    exact .inl ⟨status,rfl,.inr (.inl hbad)⟩
  rw [hprot]
  rcases hholds.walkToLeaf_lookup hroot hpage.1 (howns hpage.1) cb prot with
    ⟨hnone,hwalk⟩ | ⟨table,above,hwalk,hnode,htrail⟩
  · rw [hwalk]
    exact .inl ⟨_,rfl,.inr (.inr ((pageMap_of_isPage hpage).trans hnone))⟩
  rw [hwalk]
  dsimp only
  cases hleaf : t.leaf (tableIndices va) with
  | none =>
    exact .inl ⟨_,if_pos (hholds.load_absent hnode hleaf),
      .inr (.inr ((pageMap_of_isPage hpage).trans hleaf))⟩
  | some mapping =>
    have hload := hholds.load_mapped hnode hleaf
    rw [if_neg hload.present,hnx]
    obtain ⟨t',hholds',hpopulated',hmap,-,hkeeps⟩ :=
      hholds.writeLeaf ⟨mapping.physicalBase,prot⟩ hpage hnode htrail (hpop.but _)
        ⟨(hholds.sound.valid hleaf).1,hvalid⟩ (hload.protect hvalid)
    exact .inr ⟨_,mapping,rfl,hpage,hvalid,(pageMap_of_isPage hpage).trans hleaf,
      ⟨t',hholds',hpopulated',hmap.symm⟩,hkeeps⟩

theorem query (howns : ziX64AddressIsCanonical va = true → owns (rootSlot va)) :
    ziX64PagingQuery cb ctx va st = m.query va := by
  obtain ⟨t,hholds,-,rfl⟩ := h
  rw [ziX64PagingQuery,PageMap.query]
  by_cases hcanon : ziX64AddressIsCanonical va = false
  · rw [if_pos hcanon,if_pos hcanon]
  rw [Bool.not_eq_false] at hcanon
  have hpage : IsPage (pageAddress va) :=
    ⟨pageAddress_canonical hcanon,pageAddress_mod⟩
  have hslot : owns (rootSlot (pageAddress va)) := by
    rw [rootSlot,tableIndex_pageAddress]
    exact howns hcanon
  rw [← pageAddress_eq,pageMap_of_isPage hpage,and_offsetMask]
  rcases hholds.walkToLeaf_lookup hroot hpage.1 hslot cb x64PageRead with
    ⟨hnone,hwalk⟩ | ⟨table,above,hwalk,hnode,-⟩
  · rw [hwalk,hnone]
  rw [hwalk]
  dsimp only
  cases hleaf : t.leaf (tableIndices (pageAddress va)) with
  | none => rw [if_pos (hholds.load_absent hnode hleaf)]
  | some mapping =>
    have hload := hholds.load_mapped hnode hleaf
    rw [if_neg hload.present,hload.mask,hload.protection,
      (hholds.sound.valid hleaf).1.or_offset (Nat.mod_lt _ (by decide))]

end

end

end PagingState.Maps

end Calls

end Zizium
