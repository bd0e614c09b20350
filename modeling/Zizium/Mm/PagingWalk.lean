import Zizium.Mm.PagingTree

/-!
# Walks through page tables

What `walk_to_leaf` does to the tree, and what promoting the user path and giving up empty tables
do.
-/

namespace Zizium

open BlockIO Radix List Function PagingState

variable {rest : List (Fin 512)} {above : List EntryPointer}

namespace PageTree

/-- `t'` is `t` with tables added on the way to a leaf. -/
structure Grows (t t' : PageTree) (target : TablePath) : Prop where
  node : ∀ {path page}, t.node path = some page → t'.node path = some page
  user : ∀ {path page}, t.node path = some page → t'.user path = t.user path
  leaf : t'.leaf = t.leaf
  elsewhere : ∀ {path}, ¬path <+: target → t'.node path = t.node path

/-- The entries on the way to the end of the path, the last one first. -/
def Trail (t : PageTree) : TablePath → List EntryPointer → Prop
  | path, [] => path = []
  | path, entry :: walked =>
    ∃ above, path = above ++ [entry.index] ∧ t.node above = some entry.table ∧ Trail t above walked

section Walks

variable {st : PagingState} {root : ℕ} {owns : Fin 512 → Prop} {others : Set ℕ}
  {t t' t'' : PageTree} {path target : TablePath} {idx : Fin 512} {table : ℕ}
  {walked : List EntryPointer} {cb : ZiX64PagingCallbacks}

theorem Grows.refl (t : PageTree) (target : TablePath) : t.Grows t target :=
  ⟨fun h => h,fun _ => rfl,rfl,fun _ => rfl⟩

theorem Grows.trans (h : t.Grows t' target) (h' : t'.Grows t'' target) : t.Grows t'' target := by
  refine ⟨fun hp => h'.node (h.node hp),?_,h'.leaf.trans h.leaf,
    fun hpath => (h'.elsewhere hpath).trans (h.elsewhere hpath)⟩
  intro path page hp
  rw [h'.user (h.node hp),h.user hp]

theorem Grows.link (hnone : t.node (path ++ [idx]) = none) (hpre : path ++ [idx] <+: target)
    (base : ℕ) (user : Bool) : t.Grows (t.link (path ++ [idx]) base user) target := by
  have hne : ∀ {p page}, t.node p = some page → p ≠ path ++ [idx] := by
    rintro p page hp rfl
    rw [hnone] at hp
    cases hp
  refine ⟨?_,?_,rfl,?_⟩
  · intro p page hp
    exact (Tree.node_link_of_ne (hne hp)).trans hp
  · intro p page hp
    exact update_of_ne (hne hp) _ _
  · intro p hp
    have hother : p ≠ path ++ [idx] := by
      rintro rfl
      exact hp hpre
    exact Tree.node_link_of_ne hother

theorem Grows.eq_of_leaf (h : t.Grows t' target) (ht : t.Sound root owns) (ht' : t'.Sound root owns)
    {mapping : ZiX64PageMapping} (hleaf : t.leaf target = some mapping) : t' = t := by
  have hnode : t'.node = t.node := by
    funext p
    by_cases hp : p <+: target
    · obtain ⟨q,rfl⟩ := hp
      by_cases hq : q = []
      · -- the leaf itself lies below the last level of tables
        subst hq
        have hfull := ht.wellFormed.full hleaf
        rw [append_nil] at hfull
        have hnone : ∀ {u : PageTree}, u.Sound root owns → u.node p = none := by
          intro u hu
          rw [Option.eq_none_iff_forall_ne_some]
          intro n hn
          have := hu.wellFormed.short hn
          omega
        rw [hnone ht',hnone ht]
      · obtain ⟨n,hn⟩ := ht.wellFormed.node_of_leaf hleaf hq
        rw [hn,h.node hn]
    · exact h.elsewhere hp
  have huser : t'.user = t.user := by
    funext p
    cases hp : t.node p with
    | none => rw [ht.userNode hp,ht'.userNode (by rw [hnode,hp])]
    | some n => exact h.user hp
  have hleaf' := h.leaf
  obtain ⟨⟨node,leaf⟩,user⟩ := t
  obtain ⟨⟨node',leaf'⟩,user'⟩ := t'
  dsimp only at hnode huser hleaf'
  rw [hnode,huser,hleaf']

theorem Trail.snoc (h : t.Trail path walked) (hpath : t.node path = some table) (idx : Fin 512) :
    t.Trail (path ++ [idx]) (⟨table,idx⟩ :: walked) :=
  ⟨path,rfl,hpath,h⟩

theorem Trail.congr (h : t.Trail path walked)
    (hnode : ∀ p page, p.length < path.length → t.node p = some page → t'.node p = some page) :
    t'.Trail path walked := by
  induction walked generalizing path with
  | nil => exact h
  | cons entry walked ih =>
    obtain ⟨above,rfl,habove,htrail⟩ := h
    have hlen : above.length < (above ++ [entry.index]).length := by simp
    refine ⟨above,rfl,hnode above _ hlen habove,ih htrail ?_⟩
    intro p page hp
    exact hnode p page (hp.trans hlen)

theorem Trail.grows (h : t.Trail path walked) (hgrows : t.Grows t' target) : t'.Trail path walked :=
  h.congr fun _ _ _ hp => hgrows.node hp

theorem Sound.present_iff (h : t.Sound root owns) {entry : ℕ} (hentry : t.Matches path idx entry) :
    entry &&& x64EntryPresent ≠ 0 ↔ (∃ page, t.node (path ++ [idx]) = some page) ∨
      ∃ mapping, t.leaf (path ++ [idx]) = some mapping := by
  by_cases hlen : path.length = 3
  · have hnode : ¬∃ page, t.node (path ++ [idx]) = some page := by
      rintro ⟨page,hpage⟩
      have := h.wellFormed.short hpage
      simp [hlen] at this
    rw [or_iff_right hnode]
    rw [matches_leaf_iff hlen] at hentry
    cases hleaf : t.leaf (path ++ [idx]) with
    | none =>
      rw [hleaf] at hentry
      exact iff_of_false (not_not.mpr hentry) nofun
    | some mapping =>
      rw [hleaf] at hentry
      exact iff_of_true hentry.present ⟨mapping,rfl⟩
  · have hleaf : ¬∃ mapping, t.leaf (path ++ [idx]) = some mapping := by
      rintro ⟨mapping,hmapping⟩
      have := h.wellFormed.full hmapping
      simp at this
      omega
    rw [or_iff_left hleaf]
    cases hnode : t.node (path ++ [idx]) with
    | none => exact iff_of_false (not_not.mpr (hentry.absent hlen hnode)) nofun
    | some page => exact iff_of_true (hentry.links hlen hnode).present ⟨page,rfl⟩

theorem Sound.parent (h : t.Sound root owns) (hpath : t.node (path ++ [idx]) = some table) :
    path.length < 3 ∧ (path = [] → owns idx) := by
  constructor
  · have := h.wellFormed.short hpath
    rw [length_append,length_singleton] at this
    omega
  · rintro rfl
    exact h.ownsNode hpath

theorem allocateTable_cases (cb : ZiX64PagingCallbacks) (st : PagingState) :
    (∃ status, allocateTable cb st = (.error status, { st with asked := st.asked+1 }) ∧
      ¬st.Meets cb 1) ∨
    ∃ base, allocateTable cb st = (.ok base,
        PagingState.zeroPage { st with asked := st.asked+1, held := base :: st.held } base) ∧
      (IsFrame base ∧ base ≠ 0) ∧ base ∉ st.held ∧ base ∉ st.reserved ∧
      ∀ more, st.Meets cb (1+more) →
        cb.Meets (st.asked+1) (base :: (st.held ++ st.reserved)) more := by
  rw [allocateTable]
  cases hask : cb.allocatePage st.asked (st.held ++ st.reserved) with
  | error status =>
    refine .inl ⟨status,rfl,?_⟩
    rintro ⟨page,hpage,-⟩
    rw [hask] at hpage
    cases hpage
  | ok base =>
    obtain ⟨hzero,halign,hfree⟩ := cb.allocated _ _ _ hask
    rw [mem_append,not_or] at hfree
    dsimp only
    by_cases hlarge : x64MaxPhysicalAddress ≤ base
    · rw [if_pos (.inr hlarge),PagingState.releasePage,if_pos mem_cons_self]
      refine .inl ⟨_,by rw [erase_cons_head],?_⟩
      rintro ⟨page,hpage,hlt,-⟩
      rw [hask] at hpage
      cases hpage
      omega
    · rw [if_neg (by rw [not_or]; exact ⟨not_not.mpr halign,hlarge⟩),physicalTable,
        Except.failIf_bind_neg (not_not.mpr halign),Except.failIf_bind_neg hlarge,
        cb.accessible _ _ mem_cons_self]
      refine .inr ⟨base,rfl,⟨⟨halign,Nat.lt_of_not_le hlarge⟩,hzero⟩,hfree.1,hfree.2,?_⟩
      intro more hmeets
      rw [Nat.add_comm] at hmeets
      obtain ⟨page,hpage,-,hrest⟩ := hmeets
      rw [hask] at hpage
      cases hpage
      exact hrest

namespace Holds

theorem allocateTable (h : Holds st root owns others t) (cb : ZiX64PagingCallbacks) :
    (∃ status st', Zizium.allocateTable cb st = (.error status, st') ∧ st.GivesUp cb st' 1 False ∧
      Holds st' root owns others t ∧ st.Keeps st' root owns others) ∨
    ∃ base st', Zizium.allocateTable cb st = (.ok base, st') ∧
      Holds st' root owns (insert base others) t ∧ base ∉ others ∧ (IsFrame base ∧ base ≠ 0) ∧
      (∀ idx, st'.tables base idx = 0) ∧ st.Keeps st' root owns others ∧ st.Asks cb st' 1 := by
  rcases allocateTable_cases cb st with
    ⟨status,hask,hrefuses⟩ | ⟨base,hask,hframe,hheld,hrsv,hmeets⟩
  · exact .inl ⟨status,_,hask,⟨1,le_rfl,rfl,.inr hrefuses⟩,
      ⟨h.sound,h.memory,h.held,h.apart,h.nodup,h.reserved,h.stray⟩,
      ⟨fun _ _ => rfl,fun _ _ => rfl,rfl⟩⟩
  have hothers : base ∉ others := fun hmem => hheld ((h.held base).mpr (.inl hmem))
  have htree : ¬t.Has base := fun hmem => hheld ((h.held base).mpr (.inr hmem))
  refine .inr ⟨base,_,hask,⟨h.sound,?_,?_,?_,nodup_cons.mpr ⟨hheld,h.nodup⟩,?_,
    h.stray⟩,hothers,hframe,fun _ => tables_zeroPage_self,⟨?_,?_,rfl⟩,⟨1,le_rfl,rfl,hmeets⟩⟩
  · intro path page idx hpath howns
    have hne : page ≠ base := by
      rintro rfl
      exact htree ⟨path,hpath⟩
    rw [tables_zeroPage hne]
    exact h.memory path page idx hpath howns
  · intro page
    rw [PagingState.zeroPage,mem_cons,h.held,Set.mem_insert_iff,or_assoc]
  · intro page hpage
    rcases Set.mem_insert_iff.mp hpage with rfl | hpage
    · exact htree
    · exact h.apart page hpage
  · intro page hpage hmem
    rcases mem_cons.mp hmem with rfl | hmem
    · exact hrsv hpage
    · exact h.reserved page hpage hmem
  · intro page hpage
    apply tables_zeroPage
    rintro rfl
    rcases hpage with hpage | hpage
    · exact hothers hpage
    · exact hrsv hpage
  · intro idx _
    rw [tables_zeroPage]
    rintro rfl
    exact htree ⟨[],h.sound.root⟩

end Holds

theorem rollbackTables_append (created more : List ZiX64CreatedTable) (st : PagingState) :
    rollbackTables (created ++ more) st = rollbackTables more (rollbackTables created st) := by
  induction created generalizing st with
  | nil => rfl
  | cons table created ih => exact ih _

theorem asked_pruneTables (walk : List EntryPointer) (st : PagingState) :
    (pruneTables walk st).asked = st.asked := by
  fun_induction pruneTables walk st with
  | case1 st entry parent above hkept => rfl
  | case2 st entry parent above hempty ih => exact ih.trans asked_releasePage
  | case3 => rfl

theorem walkLevels_created (create : Bool) (prot : UInt32) (more : List ZiX64CreatedTable)
    {created : List ZiX64CreatedTable} {result : Result (List EntryPointer)} {st' : PagingState}
    (h : walkLevels cb create prot rest table created walked st = (result, st')) :
    walkLevels cb create prot rest table (created ++ more) walked st =
      (result, if result.toBool then st' else rollbackTables more st') := by
  induction rest generalizing table created walked st with
  | nil =>
    cases h
    rfl
  | cons idx rest ih =>
    cases rest with
    | nil =>
      cases h
      rfl
    | cons next rest =>
      rw [walkLevels] at h ⊢
      dsimp only at h ⊢
      split
      next habsent =>
        rw [if_pos habsent] at h
        split
        next hcreate =>
          rw [if_pos hcreate] at h
          cases h
          rw [rollbackTables_append]
          rfl
        next hcreate =>
          rw [if_neg hcreate] at h
          split at h
          next status st1 hask =>
            cases h
            rw [rollbackTables_append]
            rfl
          next base st1 hask => exact ih h
      next hpresent =>
        rw [if_neg hpresent] at h
        split
        next hlarge =>
          rw [if_pos hlarge] at h
          cases h
          rw [rollbackTables_append]
          rfl
        next hlarge =>
          rw [if_neg hlarge] at h
          split at h
          next status htable =>
            cases h
            rw [rollbackTables_append]
            rfl
          next htable => exact ih h

theorem walk_further {next : Fin 512} (hlen : path.length+(idx :: next :: rest).length = 4) :
    path.length < 3 ∧ (path ++ [idx]).length+(next :: rest).length = 4 ∧
      path ++ idx :: next :: rest = path ++ [idx] ++ next :: rest ∧
      ∀ i ∈ (next :: rest).head?, path ++ [idx] = [] → owns i := by
  simp only [length_append,length_cons,length_nil] at hlen ⊢
  exact ⟨by omega,by omega,by simp,fun _ _ hnil => by simp at hnil⟩

namespace Holds

section

variable (cb) (prot : UInt32) (h : Holds st root owns others t) (hpath : t.node path = some table)
  (htrail : t.Trail path walked) (hlen : path.length+rest.length = 4) (hrest : rest ≠ [])
  (howns : ∀ idx ∈ rest.head?, path = [] → owns idx)

include cb prot h hpath htrail hlen hrest howns

theorem walkLevels_create : (∃ status st', walkLevels cb true prot rest table [] walked st =
        (.error status, st') ∧ st.GivesUp cb st' (rest.length-1) False ∧
        Holds st' root owns others t ∧ st.Keeps st' root owns others) ∨
    ∃ walk st' t', walkLevels cb true prot rest table [] walked st =
        (.ok walk, st') ∧ Holds st' root owns others t' ∧ t.Grows t' (path ++ rest) ∧
        t'.Trail (path ++ rest) walk ∧
        (t.PopulatedBut path → t'.PopulatedBut (path ++ rest).dropLast) ∧
        st.Keeps st' root owns others ∧ st.Asks cb st' (rest.length-1) := by
  -- along the remaining indices, the tree growing by one table at a time
  induction rest generalizing path table walked st t with
  | nil => exact absurd rfl hrest
  | cons idx rest ih =>
    cases rest with
    | nil =>
      refine .inr ⟨_,st,t,rfl,h,.refl t _,(htrail.snoc hpath idx),?_,.refl,.refl⟩
      intro hpop
      rwa [dropLast_concat]
    | cons next rest =>
      obtain ⟨hshort,hlength',happend,hdeeper⟩ := walk_further hlen
      have hown : path = [] → owns idx := howns idx rfl
      have hpre : path ++ [idx] <+: path ++ idx :: next :: rest := by
        rw [happend]
        exact prefix_append _ _
      have hmore' : 1+((next :: rest).length-1) ≤ (idx :: next :: rest).length-1 := by simp; omega
      have hmore : 0+1 ≤ (idx :: next :: rest).length-1 := by simp
      have hless : 0+((next :: rest).length-1) ≤ (idx :: next :: rest).length-1 := by simp
      have hentry := h.load hpath hown
      rw [walkLevels]
      dsimp only
      rw [happend]
      cases hnode : t.node (path ++ [idx]) with
      | none =>
        rw [if_pos (hentry.absent (by omega) hnode),if_neg (by decide)]
        rcases h.allocateTable cb with
          ⟨status,st1,hask,hrefuses,hholds,hkeeps⟩ |
          ⟨base,st1,hask,hholds,hothers,hframe,hblank,hkeeps,hasks⟩
        · rw [hask]
          exact .inl ⟨status,st1,rfl,Asks.refl.givesUp hrefuses hmore id,hholds,hkeeps⟩
        rw [hask]
        dsimp only
        have hvalue := hframe.1.linksTo prot
        generalize base ||| tableFlags prot = value at hvalue ⊢
        generalize decide (prot &&& x64PageUser ≠ 0) = user at hvalue
        have hlink := hholds.link hothers hframe hblank hpath hshort hown hnode hvalue
        have hgrows := Grows.link hnode hpre base user
        have hkeeps' := hkeeps.trans
          ((hholds.keeps_store hpath hown value).mono (Set.subset_insert base others))
        have hasks' : st.Asks cb (st1.store ⟨table,idx⟩ value) 1 := hasks
        have hself : (t.link (path ++ [idx]) base user).node (path ++ [idx]) = some base :=
          Tree.node_link_self
        have hroot : (t.link (path ++ [idx]) base user).node path = some table :=
          hgrows.node hpath
        rcases ih hlink hself ((htrail.grows hgrows).snoc hroot idx) hlength' (by simp) hdeeper with
          ⟨status,st2,hwalk,hrefuses,hholds',hkeeps''⟩ |
          ⟨walk,st2,t',hwalk,hholds',hgrows',htrail',hpop,hkeeps'',hasks''⟩
        · -- the table just linked is still empty, and is given back
          have hempty : ¬(t.link (path ++ [idx]) base user).Occupied (path ++ [idx]) := by
            rintro ⟨i,hi⟩
            have hnew : (t.link (path ++ [idx]) base user).Matches (path ++ [idx]) i 0 :=
              matches_link_new h.sound.wellFormed hnode i
            exact (hlink.sound.present_iff hnew).mpr hi (Nat.zero_and _)
          have hunlink := hholds'.unlink hroot hshort hself hempty
          rw [unlink_link h.sound hnode] at hunlink
          have hcreated := walkLevels_created true prot [⟨⟨table,idx⟩,base⟩] hwalk
          refine .inl ⟨status,_,hcreated,?_,hunlink.release hothers,?_⟩
          · obtain ⟨n,hn,hasked,hreason⟩ := hasks'.givesUp hrefuses hmore' id
            exact ⟨n,hn,asked_releasePage.trans hasked,hreason⟩
          · exact (hkeeps'.trans hkeeps'').trans
              ((hholds'.keeps_store hroot hown 0).trans Keeps.release)
        · have hcreated := walkLevels_created true prot [⟨⟨table,idx⟩,base⟩] hwalk
          refine .inr ⟨walk,st2,t',hcreated,hholds',?_,htrail',?_,hkeeps'.trans hkeeps'',
            hasks'.trans hasks'' hmore'⟩
          · rw [← happend] at hgrows' ⊢
            exact hgrows.trans hgrows'
          · intro hbut
            exact hpop hbut.link
      | some base =>
        have hlink := hentry.links (by omega) hnode
        rw [if_neg hlink.present,if_neg (not_not.mpr hlink.small),hlink.mask,
          h.physicalTable_ok hnode]
        rcases ih h hnode (htrail.snoc hpath idx) hlength' (by simp) hdeeper with
          ⟨status,st2,hwalk,hrefuses,hkept⟩ |
          ⟨walk,st2,t',hwalk,hholds',hgrows',htrail',hpop,hkeeps,hasks⟩
        · exact .inl ⟨status,st2,hwalk,Asks.refl.givesUp hrefuses hless id,hkept⟩
        · refine .inr ⟨walk,st2,t',hwalk,hholds',hgrows',htrail',?_,hkeeps,
            Asks.refl.trans hasks hless⟩
          intro hbut
          exact hpop ((hbut.populated (.inr ⟨idx,.inl ⟨base,hnode⟩⟩)).but _)

theorem walkLevels_lookup : (t.node (path ++ rest).dropLast = none ∧
      walkLevels cb false prot rest table [] walked st = (.error .pageNotMapped, st)) ∨
    ∃ walk, walkLevels cb false prot rest table [] walked st = (.ok walk, st) ∧
      t.Trail (path ++ rest) walk := by
  induction rest generalizing path table walked with
  | nil => exact absurd rfl hrest
  | cons idx rest ih =>
    cases rest with
    | nil => exact .inr ⟨_,rfl,(htrail.snoc hpath idx)⟩
    | cons next rest =>
      obtain ⟨hshort,hlength',happend,hdeeper⟩ := walk_further hlen
      have hown : path = [] → owns idx := howns idx rfl
      have hentry := h.load hpath hown
      rw [walkLevels]
      dsimp only
      rw [happend]
      cases hnode : t.node (path ++ [idx]) with
      | none =>
        rw [if_pos (hentry.absent (by omega) hnode),if_pos rfl]
        refine .inl ⟨?_,rfl⟩
        rw [Option.eq_none_iff_forall_ne_some]
        intro page hpage
        rw [dropLast_append_of_ne_nil (by simp)] at hpage
        obtain ⟨m,hm⟩ := h.sound.wellFormed.node_of_prefix hpage
        rw [hnode] at hm
        cases hm
      | some base =>
        have hlink := hentry.links (by omega) hnode
        rw [if_neg hlink.present,if_neg (not_not.mpr hlink.small),hlink.mask,
          h.physicalTable_ok hnode]
        exact ih hnode (htrail.snoc hpath idx) hlength' (by simp) hdeeper

end

theorem promote (h : Holds st root owns others t) (hpath : t.node path = some table)
    (htrail : t.Trail path above) :
    ∃ t', Holds (above.foldr (fun entry st => st.store entry (st.load entry ||| x64EntryUser)) st)
        root owns others t' ∧
      t'.toTree = t.toTree ∧ (∀ p q, p ++ q = path → p ≠ [] → t'.user p = true) ∧
      st.Keeps (above.foldr (fun entry st => st.store entry (st.load entry ||| x64EntryUser)) st)
        root owns others := by
  induction above generalizing path table with
  | nil =>
    refine ⟨t,h,rfl,?_,.refl⟩
    intro p q hp hne
    rw [htrail] at hp
    exact absurd (append_eq_nil_iff.mp hp).1 hne
  | cons entry above ih =>
    obtain ⟨up,rfl,hup,htrail⟩ := htrail
    obtain ⟨t',hholds,htree,huser,hkeeps⟩ := ih hup htrail
    obtain ⟨hshort,howns⟩ := h.sound.parent hpath
    have hup' : t'.node up = some entry.table := by rw [htree,hup]
    have hpath' : t'.node (up ++ [entry.index]) = some table := by rw [htree,hpath]
    refine ⟨t'.setUser (up ++ [entry.index]),hholds.setUser hup' hshort howns hpath',htree,?_,
      hkeeps.trans (hholds.keeps_store hup' howns _)⟩
    intro p q hp hne
    rw [PageTree.setUser]
    dsimp only
    by_cases heq : p = up ++ [entry.index]
    · rw [heq,update_self]
    · rw [update_of_ne heq]
      obtain ⟨q,j,rfl⟩ := (eq_nil_or_concat q).resolve_left (by
        rintro rfl
        exact heq (by rw [← hp,append_nil]))
      rw [concat_eq_append,← append_assoc] at hp
      exact huser p q (append_inj' hp rfl).1 hne

theorem tableIsEmpty_iff (h : Holds st root owns others t) (hpath : t.node path = some table)
    (hne : path ≠ []) : tableIsEmpty st table = true ↔ ¬t.Occupied path := by
  rw [tableIsEmpty,all_eq_true]
  constructor
  · rintro hall ⟨idx,hi⟩
    have hentry := h.memory path table idx hpath (fun hnil => absurd hnil hne)
    exact (h.sound.present_iff hentry).mpr hi (of_decide_eq_true (hall idx (mem_finRange idx)))
  · intro hempty idx _
    rw [decide_eq_true_iff]
    by_contra hpresent
    have hentry := h.memory path table idx hpath (fun hnil => absurd hnil hne)
    exact hempty ⟨idx,(h.sound.present_iff hentry).mp hpresent⟩

theorem prune (leaf : EntryPointer) (h : Holds st root owns others t)
    (hpath : t.node path = some leaf.table) (htrail : t.Trail path above)
    (hpop : t.PopulatedBut path) :
    ∃ t', Holds (pruneTables (leaf :: above) st) root owns others t' ∧ t'.Populated ∧
      t'.leaf = t.leaf ∧
      (∀ p page, t'.node p = some page → t.node p = some page) ∧
      st.Keeps (pruneTables (leaf :: above) st) root owns others := by
  -- up the trail, the one table that may be empty moving with it
  induction above generalizing leaf path st t with
  | nil => exact ⟨t,h,hpop.populated (.inl htrail),rfl,fun _ _ hp => hp,.refl⟩
  | cons parent above ih =>
    obtain ⟨up,rfl,hup,htrail⟩ := htrail
    rw [pruneTables]
    split
    next hoccupied =>
      have hfull : t.Occupied (up ++ [parent.index]) := by
        by_contra hempty
        rw [(h.tableIsEmpty_iff hpath (by simp)).mpr hempty] at hoccupied
        cases hoccupied
      exact ⟨t,h,hpop.populated (.inr hfull),rfl,fun _ _ hp => hp,.refl⟩
    next hempty =>
      rw [Bool.not_eq_false,h.tableIsEmpty_iff hpath (by simp)] at hempty
      obtain ⟨hshort,howns⟩ := h.sound.parent hpath
      have hothers : leaf.table ∉ others := fun hmem => h.apart _ hmem ⟨_,hpath⟩
      have hholds := (h.unlink hup hshort hpath hempty).release hothers
      have hother : ∀ {p : TablePath}, p.length < (up ++ [parent.index]).length →
          p ≠ up ++ [parent.index] := by
        rintro p hlt rfl
        exact absurd hlt (lt_irrefl _)
      have hup' : (t.unlink (up ++ [parent.index])).node up = some parent.table :=
        (Tree.node_unlink_of_ne (hother (by simp))).trans hup
      have htrail' : (t.unlink (up ++ [parent.index])).Trail up above := by
        apply htrail.congr
        intro p page hlt hp
        exact (Tree.node_unlink_of_ne (hother (by simp; omega))).trans hp
      have hbut : (t.unlink (up ++ [parent.index])).PopulatedBut up := hpop.unlink
      obtain ⟨t',hholds',hpopulated',hleaf,hsub,hkeeps⟩ :=
        ih parent hholds hup' htrail' hbut
      exact ⟨t',hholds',hpopulated',hleaf,
        fun p page hp => (Tree.node_unlink_eq_some_iff.mp (hsub p page hp)).2,
        ((h.keeps_store hup howns 0).trans Keeps.release).trans hkeeps⟩

end Holds

end Walks

end PageTree

end Zizium
