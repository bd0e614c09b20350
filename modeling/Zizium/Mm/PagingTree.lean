import Zizium.Mm.PagingEntries
import Zizium.Radix.Tree

/-!
# Page tables as a tree

The tables of a context form a radix tree, whose nodes are the pages of the tables and whose
leaves are the mappings.  A context may own only some slots of its root: the others can refer to
tables that belong to another context.
-/

namespace Zizium

open BlockIO Radix Function Tree List

variable {root page : ℕ} {owns : Fin 512 → Prop} {others : Set ℕ} {i j : Fin 512}
  {mapping : Option ZiX64PageMapping}

/-- The path to a table; that of a leaf has four steps. -/
abbrev TablePath : Type := List (Fin 512)

variable {path p : TablePath}

/-- `user` says whether the entry that leads to a table has the user bit. -/
structure PageTree extends Tree (Fin 512) ℕ ZiX64PageMapping where
  user : TablePath → Bool

namespace PageTree

/-- What an entry of the last level says. -/
def LeafIs (entry : ℕ) : Option ZiX64PageMapping → Prop
  | none => entry &&& x64EntryPresent = 0
  | some mapping => MapsTo entry mapping

/-- What an entry above the last level says. -/
def LinkIs (entry : ℕ) (user : Bool) : Option ℕ → Prop
  | none => entry &&& x64EntryPresent = 0
  | some page => LinksTo entry page user

def Matches (t : PageTree) (path : TablePath) (index : Fin 512) (entry : ℕ) : Prop :=
  if path.length = 3 then LeafIs entry (t.leaf (path ++ [index]))
  else LinkIs entry (t.user (path ++ [index])) (t.node (path ++ [index]))

/-- The tree of a root that owns the slots `owns`.  A user page has the user bit on its path. -/
structure Sound (t : PageTree) (root : ℕ) (owns : Fin 512 → Prop) : Prop where
  wellFormed : t.WellFormed 4
  root : t.node [] = some root
  frame : ∀ {path page}, t.node path = some page → IsFrame page ∧ page ≠ 0
  ownsNode : ∀ {index path page}, t.node (index :: path) = some page → owns index
  ownsLeaf : ∀ {index path mapping}, t.leaf (index :: path) = some mapping → owns index
  valid : ∀ {path mapping}, t.leaf path = some mapping → mapping.Valid
  userPath : ∀ {p q mapping}, t.leaf (p ++ q) = some mapping →
    mapping.protection &&& x64PageUser ≠ 0 → p ≠ [] → q ≠ [] → t.user p = true
  userNode : ∀ {path}, t.node path = none → t.user path = false

def InMemory (t : PageTree) (owns : Fin 512 → Prop) (tables : ℕ → Fin 512 → ℕ) : Prop :=
  ∀ path page index, t.node path = some page → (path = [] → owns index) →
    t.Matches path index (tables page index)

/-- The state holds the tree among the pages `others` that are held for something else. -/
structure Holds (st : PagingState) (root : ℕ) (owns : Fin 512 → Prop) (others : Set ℕ)
    (t : PageTree) : Prop where
  sound : t.Sound root owns
  memory : t.InMemory owns st.tables
  held : ∀ page, page ∈ st.held ↔ page ∈ others ∨ t.Has page
  apart : ∀ page ∈ others, ¬t.Has page
  nodup : st.held.Nodup
  reserved : ∀ page ∈ st.reserved, page ∉ st.held
  stray : st.stray = []

end PageTree

variable {t : PageTree}

/-- The pages of others, the reserved pages and the slots of the root that are not owned are as
they were. -/
structure PagingState.Keeps (st st' : PagingState) (root : ℕ) (owns : Fin 512 → Prop)
    (others : Set ℕ) : Prop where
  tables : ∀ page, page ∈ others ∨ page ∈ st.reserved → st'.tables page = st.tables page
  root : ∀ index, ¬owns index → st'.tables root index = st.tables root index
  reserved : st'.reserved = st.reserved

/-- The next requests for a table, one after the other, are all met. -/
def ZiX64PagingCallbacks.Meets (callbacks : ZiX64PagingCallbacks) (asked : ℕ) (inUse : List ℕ) :
    ℕ → Prop
  | 0 => True
  | requests+1 => ∃ page, callbacks.allocatePage asked inUse = .ok page ∧
    page < x64MaxPhysicalAddress ∧ callbacks.Meets (asked+1) (page :: inUse) requests

namespace PagingState

def Meets (st : PagingState) (callbacks : ZiX64PagingCallbacks) (requests : ℕ) : Prop :=
  callbacks.Meets st.asked (st.held ++ st.reserved) requests

/-- A few requests, all of them met, lead to the second state. -/
def Asks (st : PagingState) (callbacks : ZiX64PagingCallbacks) (st' : PagingState) (limit : ℕ) :
    Prop :=
  ∃ requests ≤ limit, st'.asked = st.asked+requests ∧
    ∀ more, st.Meets callbacks (requests+more) → st'.Meets callbacks more

/-- A few requests lead to the second state.  Without the reason, not all of them were met. -/
def GivesUp (st : PagingState) (callbacks : ZiX64PagingCallbacks) (st' : PagingState)
    (limit : ℕ) (reason : Prop) : Prop :=
  ∃ requests ≤ limit, st'.asked = st.asked+requests ∧ (reason ∨ ¬st.Meets callbacks requests)

end PagingState

section Basics

variable {st st' st'' : PagingState} {value : ℕ} {entry : EntryPointer} {cb : ZiX64PagingCallbacks}

theorem PagingState.Keeps.refl : st.Keeps st root owns others :=
  ⟨fun _ _ => rfl,fun _ _ => rfl,rfl⟩

theorem PagingState.Keeps.trans (h : st.Keeps st' root owns others)
    (h' : st'.Keeps st'' root owns others) : st.Keeps st'' root owns others := by
  refine ⟨?_,?_,h'.reserved.trans h.reserved⟩
  · intro page hpage
    rw [h'.tables page (h.reserved ▸ hpage),h.tables page hpage]
  · intro i hi
    rw [h'.root i hi,h.root i hi]

theorem PagingState.Keeps.mono {more : Set ℕ} (h : st.Keeps st' root owns more)
    (hmore : others ⊆ more) : st.Keeps st' root owns others :=
  ⟨fun page hpage => h.tables page (hpage.imp_left fun hmem => hmore hmem),h.root,h.reserved⟩

section

variable {limit limit' more : ℕ} {reason reason' : Prop}

theorem PagingState.Asks.refl : st.Asks cb st limit :=
  ⟨0,Nat.zero_le limit,rfl,fun more h => by rwa [Nat.zero_add] at h⟩

theorem PagingState.Asks.trans (h : st.Asks cb st' limit) (h' : st'.Asks cb st'' limit')
    (hle : limit+limit' ≤ more) : st.Asks cb st'' more := by
  obtain ⟨n,hn,hasked,hmeets⟩ := h
  obtain ⟨n',hn',hasked',hmeets'⟩ := h'
  refine ⟨n+n',by omega,by omega,fun k hk => hmeets' k (hmeets _ ?_)⟩
  rwa [← Nat.add_assoc]

theorem PagingState.GivesUp.of_reason (h : reason) : st.GivesUp cb st limit reason :=
  ⟨0,Nat.zero_le limit,rfl,.inl h⟩

theorem PagingState.Asks.givesUp (h : st.Asks cb st' limit) (h' : st'.GivesUp cb st'' limit' reason)
    (hle : limit+limit' ≤ more) (himp : reason → reason') : st.GivesUp cb st'' more reason' := by
  obtain ⟨n,hn,hasked,hmeets⟩ := h
  obtain ⟨n',hn',hasked',hreason⟩ := h'
  exact ⟨n+n',by omega,by omega,hreason.imp himp fun hnot hall => hnot (hmeets n' hall)⟩

theorem PagingState.Asks.stops (h : st.Asks cb st' limit) (hreason : reason) :
    st.GivesUp cb st' limit reason := by
  obtain ⟨n,hn,hasked,-⟩ := h
  exact ⟨n,hn,hasked,.inl hreason⟩

end

theorem tables_store : (st.store entry value).tables page i =
      if page = entry.table ∧ i = entry.index then value else st.tables page i := by
  rw [PagingState.store]
  dsimp only
  by_cases hpage : page = entry.table
  · subst hpage
    rw [update_self]
    by_cases hi : i = entry.index
    · subst hi
      rw [update_self,if_pos ⟨rfl,rfl⟩]
    · rw [update_of_ne hi,if_neg (fun h => hi h.2)]
  · rw [update_of_ne hpage,if_neg (fun h => hpage h.1)]

theorem tables_zeroPage (hpage : page ≠ value) : (st.zeroPage value).tables page = st.tables page :=
  update_of_ne hpage _ _

theorem tables_zeroPage_self : (st.zeroPage page).tables page i = 0 := by
  rw [PagingState.zeroPage]
  dsimp only
  rw [update_self]

@[simp] theorem tables_releasePage : (st.releasePage page).tables = st.tables := by
  rw [PagingState.releasePage]
  split
  · rfl
  · rfl

@[simp] theorem asked_releasePage : (st.releasePage page).asked = st.asked := by
  rw [PagingState.releasePage]
  split
  · rfl
  · rfl

@[simp] theorem reserved_releasePage : (st.releasePage page).reserved = st.reserved := by
  rw [PagingState.releasePage]
  split
  · rfl
  · rfl

theorem Keeps.release : st.Keeps (st.releasePage page) root owns others := by
  refine ⟨?_,?_,reserved_releasePage⟩
  · intro other _
    rw [tables_releasePage]
  · intro i _
    rw [tables_releasePage]

namespace PageTree

theorem matches_leaf_iff (hlen : path.length = 3) :
    t.Matches path i value ↔ LeafIs value (t.leaf (path ++ [i])) := by
  rw [Matches,if_pos hlen]

theorem matches_link_iff (hlen : path.length ≠ 3) :
    t.Matches path i value ↔ LinkIs value (t.user (path ++ [i])) (t.node (path ++ [i])) := by
  rw [Matches,if_neg hlen]

theorem Matches.links (h : t.Matches path i value) (hlen : path.length ≠ 3)
    (hnode : t.node (path ++ [i]) = some page) : LinksTo value page (t.user (path ++ [i])) := by
  rwa [matches_link_iff hlen,hnode] at h

theorem Matches.absent (h : t.Matches path i value) (hlen : path.length ≠ 3)
    (hnode : t.node (path ++ [i]) = none) : value &&& x64EntryPresent = 0 := by
  rwa [matches_link_iff hlen,hnode] at h

theorem Matches.mark (h : t.Matches path i value) {bits : ℕ}
    (hbits : bits &&& (x64EntryAccessed ||| x64EntryDirty) = bits) :
    t.Matches path i (value ||| bits) := by
  by_cases hlen : path.length = 3
  · rw [matches_leaf_iff hlen] at h ⊢
    cases hleaf : t.leaf (path ++ [i]) with
    | none =>
      rw [hleaf] at h
      exact (or_marks hbits (by decide)).trans h
    | some mapping =>
      rw [hleaf] at h
      exact MapsTo.mark hbits h
  · rw [matches_link_iff hlen] at h ⊢
    cases hnode : t.node (path ++ [i]) with
    | none =>
      rw [hnode] at h
      exact (or_marks hbits (by decide)).trans h
    | some page =>
      rw [hnode] at h
      exact LinksTo.mark hbits h

namespace Holds

section

variable (h : Holds st root owns others t)

include h

section

variable (hpath : t.node path = some page)

include hpath

theorem load (howns : path = [] → owns i) : t.Matches path i (st.load ⟨page,i⟩) :=
  h.memory path page i hpath howns

theorem mem_held : page ∈ st.held :=
  (h.held page).mpr (.inr ⟨path,hpath⟩)

theorem physicalTable_ok : physicalTable cb st page = .ok () := by
  obtain ⟨⟨halign,hlt⟩,-⟩ := h.sound.frame hpath
  rw [physicalTable,Except.failIf_bind_neg (not_not.mpr halign),
    Except.failIf_bind_neg (Nat.not_le.mpr hlt),cb.accessible _ _ (h.mem_held hpath)]
  rfl

theorem keeps_store (howns : path = [] → owns i) (value : ℕ) :
    st.Keeps (st.store ⟨page,i⟩ value) root owns others := by
  refine ⟨?_,?_,rfl⟩
  · intro other hother
    have hne : other ≠ page := by
      rintro rfl
      rcases hother with hother | hother
      · exact h.apart other hother ⟨path,hpath⟩
      · exact h.reserved other hother (h.mem_held hpath)
    funext j
    rw [tables_store,if_neg (fun heq => hne heq.1)]
  · intro j hj
    rw [tables_store,if_neg]
    rintro ⟨hroot,rfl⟩
    subst hroot
    exact hj (howns (h.sound.wellFormed.injective hpath h.sound.root))

end

end

end Holds

theorem InMemory.store {t' : PageTree} (h : t.InMemory owns st.tables) (ht : t.WellFormed 4)
    (hpath : t.node path = some page)
    (hnode : ∀ {p other}, t'.node p = some other → t.node p = some other ∨
      (other ≠ page ∧ ∀ j, t'.Matches p j (st.tables other j)))
    (hentry : ∀ {p j}, ¬(p = path ∧ j = i) → t'.Matches p j = t.Matches p j)
    (hvalue : t'.Matches path i value) : t'.InMemory owns (st.store ⟨page,i⟩ value).tables := by
  intro p other j hp howns
  rw [tables_store]
  split
  next heq =>
    obtain ⟨hother,rfl⟩ := heq
    subst hother
    rcases hnode hp with hold | ⟨hne,-⟩
    · rwa [ht.injective hold hpath]
    · exact absurd rfl hne
  next hne =>
    rcases hnode hp with hold | ⟨-,hnew⟩
    · rw [hentry]
      · exact h p other j hold howns
      rintro ⟨rfl,rfl⟩
      rw [hpath] at hold
      exact hne ⟨(Option.some.inj hold).symm,rfl⟩
    · exact hnew j

end PageTree

end Basics

/-! ## Changes of one entry -/

namespace PageTree

def link (t : PageTree) (path : TablePath) (page : ℕ) (user : Bool) : PageTree :=
  ⟨t.toTree.link path page,update t.user path user⟩

def unlink (t : PageTree) (path : TablePath) : PageTree :=
  ⟨t.toTree.unlink path,update t.user path false⟩

def setLeaf (t : PageTree) (path : TablePath) (mapping : Option ZiX64PageMapping) : PageTree :=
  ⟨t.toTree.setLeaf path mapping,t.user⟩

def setUser (t : PageTree) (path : TablePath) : PageTree :=
  ⟨t.toTree,update t.user path true⟩

section Changes

variable {st : PagingState} {base value : ℕ} {user : Bool}

section

variable (h : ¬(p = path ∧ j = i))

include h

theorem append_singleton_ne : p ++ [j] ≠ path ++ [i] := by
  intro heq
  obtain ⟨hp,hj⟩ := append_inj' heq rfl
  exact h ⟨hp,singleton_inj.mp hj⟩

theorem matches_link : (t.link (path ++ [i]) base user).Matches p j = t.Matches p j := by
  funext value
  rw [Matches,Matches,link]
  dsimp only
  rw [leaf_link,node_link_of_ne (append_singleton_ne h),update_of_ne (append_singleton_ne h)]

theorem matches_unlink : (t.unlink (path ++ [i])).Matches p j = t.Matches p j := by
  funext value
  rw [Matches,Matches,unlink]
  dsimp only
  rw [leaf_unlink,node_unlink_of_ne (append_singleton_ne h),update_of_ne (append_singleton_ne h)]

theorem matches_setLeaf : (t.setLeaf (path ++ [i]) mapping).Matches p j = t.Matches p j := by
  funext value
  rw [Matches,Matches,setLeaf]
  rw [node_setLeaf,leaf_setLeaf_of_ne (append_singleton_ne h)]

theorem matches_setUser : (t.setUser (path ++ [i])).Matches p j = t.Matches p j := by
  funext value
  rw [Matches,Matches,setUser]
  dsimp only
  rw [update_of_ne (append_singleton_ne h)]

end

section

variable (h : t.Sound root owns)

include h

theorem unlink_link (hnone : t.node path = none) : (t.link path base user).unlink path = t := by
  have huser := h.userNode hnone
  obtain ⟨⟨node,leaf⟩,users⟩ := t
  simp only [link,unlink,Tree.link,Tree.unlink,update_idem]
  rw [← hnone,← huser,update_eq_self,update_eq_self]

omit h in
theorem matches_link_new (ht : t.WellFormed 4) (hnone : t.node (path ++ [i]) = none)
    (j : Fin 512) : (t.link (path ++ [i]) base user).Matches (path ++ [i]) j 0 := by
  rw [matches_link]
  · by_cases hlen : (path ++ [i]).length = 3
    · rw [matches_leaf_iff hlen]
      cases hleaf : t.leaf (path ++ [i] ++ [j]) with
      | none => exact Nat.zero_and _
      | some mapping =>
        obtain ⟨n,hn⟩ := ht.rooted hleaf
        rw [hnone] at hn
        cases hn
    · rw [matches_link_iff hlen]
      cases hnode : t.node (path ++ [i] ++ [j]) with
      | none => exact Nat.zero_and _
      | some n =>
        obtain ⟨m,hm⟩ := ht.closed hnode
        rw [hnone] at hm
        cases hm
  · rintro ⟨heq,-⟩
    have := congrArg length heq
    simp at this

theorem Sound.unlink (hempty : ¬t.Occupied (path ++ [i])) :
    (t.unlink (path ++ [i])).Sound root owns where
  wellFormed := h.wellFormed.unlink hempty
  root := by
    rw [PageTree.unlink]
    dsimp only
    rw [node_unlink_of_ne (by simp),h.root]
  frame := fun hp => h.frame (node_unlink_eq_some_iff.mp hp).2
  ownsNode := fun hp => h.ownsNode (node_unlink_eq_some_iff.mp hp).2
  ownsLeaf := h.ownsLeaf
  valid := h.valid
  userPath := by
    intro p q mapping hleaf huser hp hq
    obtain ⟨n,hn⟩ := (h.wellFormed.unlink hempty).node_of_leaf hleaf hq
    rw [PageTree.unlink]
    dsimp only
    rw [update_of_ne (node_unlink_eq_some_iff.mp hn).1]
    exact h.userPath hleaf huser hp hq
  userNode := by
    intro p hp
    rw [PageTree.unlink] at hp ⊢
    dsimp only at hp ⊢
    by_cases heq : p = path ++ [i]
    · rw [heq,update_self]
    · rw [node_unlink_of_ne heq] at hp
      rw [update_of_ne heq]
      exact h.userNode hp

variable (hpath : t.node path = some page)

include hpath

theorem Sound.link (hlen : path.length < 3)
    (howns : path = [] → owns i) (hnone : t.node (path ++ [i]) = none) (hbase : ¬t.Has base)
    (hframe : IsFrame base ∧ base ≠ 0) :
    (t.link (path ++ [i]) base user).Sound root owns where
  wellFormed := h.wellFormed.link hpath hnone (by omega) hbase
  root := by
    rw [PageTree.link]
    dsimp only
    rw [node_link_of_ne (by simp),h.root]
  frame := by
    intro p other hp
    rcases node_link_eq_some_iff.mp hp with ⟨-,rfl⟩ | ⟨-,hp⟩
    · exact hframe
    · exact h.frame hp
  ownsNode := by
    intro j p other hp
    rcases node_link_eq_some_iff.mp hp with ⟨heq,-⟩ | ⟨-,hp⟩
    · cases path with
      | nil =>
        cases heq
        exact howns rfl
      | cons k path =>
        cases heq
        exact h.ownsNode hpath
    · exact h.ownsNode hp
  ownsLeaf := h.ownsLeaf
  valid := h.valid
  userPath := by
    intro p q mapping hleaf huser hp hq
    obtain ⟨n,hn⟩ := h.wellFormed.node_of_leaf hleaf hq
    have hne : p ≠ path ++ [i] := by
      rintro rfl
      rw [hnone] at hn
      cases hn
    rw [PageTree.link]
    dsimp only
    rw [update_of_ne hne]
    exact h.userPath hleaf huser hp hq
  userNode := by
    intro p hp
    rw [PageTree.link] at hp ⊢
    dsimp only at hp ⊢
    by_cases heq : p = path ++ [i]
    · rw [heq,node_link_self] at hp
      cases hp
    · rw [node_link_of_ne heq] at hp
      rw [update_of_ne heq]
      exact h.userNode hp

theorem Sound.setUser : (t.setUser path).Sound root owns where
  wellFormed := h.wellFormed
  root := h.root
  frame := h.frame
  ownsNode := h.ownsNode
  ownsLeaf := h.ownsLeaf
  valid := h.valid
  userPath := by
    intro p q mapping hleaf huser hp hq
    rw [PageTree.setUser]
    dsimp only
    by_cases heq : p = path
    · rw [heq,update_self]
    · rw [update_of_ne heq]
      exact h.userPath hleaf huser hp hq
  userNode := by
    intro p hp
    rw [PageTree.setUser] at hp ⊢
    dsimp only at hp ⊢
    have hne : p ≠ path := by
      rintro rfl
      rw [hpath] at hp
      cases hp
    rw [update_of_ne hne]
    exact h.userNode hp

theorem Sound.setLeaf (hlen : path.length = 3)
    (hvalid : ∀ m ∈ mapping, m.Valid)
    (huser : ∀ m ∈ mapping, m.protection &&& x64PageUser ≠ 0 → ∀ p q, p ++ q = path → p ≠ [] →
      t.user p = true) :
    (t.setLeaf (path ++ [i]) mapping).Sound root owns where
  wellFormed := h.wellFormed.setLeaf hpath (by omega) mapping
  root := h.root
  frame := h.frame
  ownsNode := h.ownsNode
  ownsLeaf := by
    intro j p m hleaf
    by_cases heq : j :: p = path ++ [i]
    · cases path with
      | nil => cases hlen
      | cons k path =>
        cases heq
        exact h.ownsNode hpath
    · rw [PageTree.setLeaf] at hleaf
      dsimp only at hleaf
      rw [leaf_setLeaf_of_ne heq] at hleaf
      exact h.ownsLeaf hleaf
  valid := by
    intro p m hleaf
    rw [PageTree.setLeaf] at hleaf
    dsimp only at hleaf
    by_cases heq : p = path ++ [i]
    · rw [heq,leaf_setLeaf_self] at hleaf
      exact hvalid m hleaf
    · rw [leaf_setLeaf_of_ne heq] at hleaf
      exact h.valid hleaf
  userPath := by
    intro p q m hleaf hprot hp hq
    rw [PageTree.setLeaf] at hleaf ⊢
    dsimp only at hleaf ⊢
    by_cases heq : p ++ q = path ++ [i]
    · rw [heq,leaf_setLeaf_self] at hleaf
      obtain ⟨q,j,rfl⟩ := (eq_nil_or_concat q).resolve_left hq
      rw [concat_eq_append,← append_assoc] at heq
      exact huser m hleaf hprot p q (append_inj' heq rfl).1 hp
    · rw [leaf_setLeaf_of_ne heq] at hleaf
      exact h.userPath hleaf hprot hp hq
  userNode := h.userNode

end

namespace Holds

theorem link (h : Holds st root owns (insert base others) t) (hothers : base ∉ others)
    (hframe : IsFrame base ∧ base ≠ 0) (hzero : ∀ j, st.tables base j = 0)
    (hpath : t.node path = some page) (hlen : path.length < 3) (howns : path = [] → owns i)
    (hnone : t.node (path ++ [i]) = none) (hvalue : LinksTo value base user) :
    Holds (st.store ⟨page,i⟩ value) root owns others (t.link (path ++ [i]) base user) := by
  have hbase : ¬t.Has base := h.apart base (Set.mem_insert base others)
  have hhas : ∀ {other}, (t.link (path ++ [i]) base user).Has other ↔
      base = other ∨ t.Has other := has_link hnone
  refine ⟨h.sound.link hpath hlen howns hnone hbase hframe,?_,?_,?_,h.nodup,h.reserved,h.stray⟩
  · apply h.memory.store h.sound.wellFormed hpath
    · intro p other hp
      rcases node_link_eq_some_iff.mp hp with ⟨rfl,rfl⟩ | ⟨-,hp⟩
      · refine .inr ⟨?_,?_⟩
        · rintro rfl
          exact hbase ⟨path,hpath⟩
        · intro j
          rw [hzero]
          exact matches_link_new h.sound.wellFormed hnone j
      · exact .inl hp
    · exact matches_link
    · rw [matches_link_iff (by omega),PageTree.link]
      dsimp only
      rwa [node_link_self,update_self]
  · intro other
    rw [hhas,PagingState.store]
    rw [h.held,Set.mem_insert_iff,eq_comm (a := other)]
    tauto
  · intro other hother
    rw [hhas]
    rintro (rfl | hin)
    · exact hothers hother
    · exact h.apart other (Set.mem_insert_of_mem base hother) hin

theorem release (h : Holds st root owns (insert base others) t) (hothers : base ∉ others) :
    Holds (st.releasePage base) root owns others t := by
  have hmem : base ∈ st.held := (h.held base).mpr (.inl (Set.mem_insert base others))
  have hbase : ¬t.Has base := h.apart base (Set.mem_insert base others)
  rw [PagingState.releasePage,if_pos hmem]
  refine ⟨h.sound,h.memory,?_,?_,h.nodup.erase base,?_,h.stray⟩
  · intro other
    rw [h.nodup.mem_erase_iff,h.held,Set.mem_insert_iff]
    by_cases heq : other = base
    · subst heq
      simp only [ne_eq,not_true_eq_false,false_and,false_iff,not_or]
      exact ⟨hothers,hbase⟩
    · simp only [heq,false_or,ne_eq,not_false_eq_true,true_and]
  · intro other hother
    exact h.apart other (Set.mem_insert_of_mem base hother)
  · intro other hother hheld
    exact h.reserved other hother (mem_of_mem_erase hheld)

variable (h : Holds st root owns others t) (hpath : t.node path = some page)

include h hpath

theorem unlink (hlen : path.length < 3) (hbase : t.node (path ++ [i]) = some base)
    (hempty : ¬t.Occupied (path ++ [i])) :
    Holds (st.store ⟨page,i⟩ 0) root owns (insert base others) (t.unlink (path ++ [i])) := by
  have hhas : ∀ {other}, (t.unlink (path ++ [i])).Has other ↔ other ≠ base ∧ t.Has other :=
    h.sound.wellFormed.has_unlink hbase
  refine ⟨h.sound.unlink hempty,?_,?_,?_,h.nodup,h.reserved,h.stray⟩
  · apply h.memory.store h.sound.wellFormed hpath
    · intro p other hp
      exact .inl (node_unlink_eq_some_iff.mp hp).2
    · exact matches_unlink
    · rw [matches_link_iff (by omega),PageTree.unlink]
      dsimp only
      rw [node_unlink_self]
      exact Nat.zero_and _
  · intro other
    rw [hhas,PagingState.store]
    rw [h.held,Set.mem_insert_iff]
    by_cases heq : other = base
    · subst heq
      simp only [true_or,iff_true]
      exact .inr ⟨_,hbase⟩
    · simp only [heq,false_or,ne_eq,not_false_eq_true,true_and]
  · intro other hother
    rw [hhas]
    rintro ⟨hne,hin⟩
    exact h.apart other (Set.mem_of_mem_insert_of_ne hother hne) hin

theorem setLeaf (hlen : path.length = 3) (i : Fin 512) (mapping : Option ZiX64PageMapping)
    (hvalid : ∀ m ∈ mapping, m.Valid) (huser : ∀ m ∈ mapping, m.protection &&& x64PageUser ≠ 0 →
      ∀ p q, p ++ q = path → p ≠ [] → t.user p = true) (hvalue : LeafIs value mapping) :
    Holds (st.store ⟨page,i⟩ value) root owns others (t.setLeaf (path ++ [i]) mapping) := by
  refine ⟨h.sound.setLeaf hpath hlen hvalid huser,?_,h.held,h.apart,h.nodup,h.reserved,h.stray⟩
  apply h.memory.store h.sound.wellFormed hpath
  · intro p other hp
    exact .inl hp
  · exact matches_setLeaf
  · rw [matches_leaf_iff hlen,PageTree.setLeaf]
    dsimp only
    rwa [leaf_setLeaf_self]

theorem setUser (hlen : path.length < 3) (howns : path = [] → owns i)
    (hbase : t.node (path ++ [i]) = some base) :
    Holds (st.store ⟨page,i⟩ (st.load ⟨page,i⟩ ||| x64EntryUser)) root owns others
      (t.setUser (path ++ [i])) := by
  refine ⟨h.sound.setUser hbase,?_,h.held,h.apart,h.nodup,h.reserved,h.stray⟩
  apply h.memory.store h.sound.wellFormed hpath
  · intro p other hp
    exact .inl hp
  · exact matches_setUser
  · rw [matches_link_iff (by omega),PageTree.setUser]
    dsimp only
    rw [hbase,update_self]
    exact ((h.load hpath howns).links (by omega) hbase).or_user

end Holds

end Changes

end PageTree

end Zizium
