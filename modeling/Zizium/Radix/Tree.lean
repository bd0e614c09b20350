import Mathlib.Data.List.Induction

/-!
# Radix trees of fixed depth

A tree whose nodes are named by the paths that lead to them, with its leaves one step below the
nodes of the last level.
-/

namespace Radix

structure Tree (ι ν α : Type) where
  node : List ι → Option ν
  leaf : List ι → Option α

namespace Tree

variable {ι ν α : Type} {t t' : Tree ι ν α} {path p q : List ι} {i : ι} {n m : ν} {a : α}
  {depth : ℕ}

def Has (t : Tree ι ν α) (n : ν) : Prop :=
  ∃ path, t.node path = some n

structure WellFormed (t : Tree ι ν α) (depth : ℕ) : Prop where
  short : ∀ {path n}, t.node path = some n → path.length < depth
  closed : ∀ {path i n}, t.node (path ++ [i]) = some n → ∃ m, t.node path = some m
  injective : ∀ {p q n}, t.node p = some n → t.node q = some n → p = q
  full : ∀ {path a}, t.leaf path = some a → path.length = depth
  rooted : ∀ {path i a}, t.leaf (path ++ [i]) = some a → ∃ n, t.node path = some n

theorem WellFormed.node_of_prefix (h : t.WellFormed depth) (hn : t.node (p ++ q) = some n) :
    ∃ m, t.node p = some m := by
  induction q using List.reverseRecOn generalizing n with
  | nil =>
    rw [List.append_nil] at hn
    exact ⟨n,hn⟩
  | append_singleton q i ih =>
    rw [← List.append_assoc] at hn
    obtain ⟨m,hm⟩ := h.closed hn
    exact ih hm

theorem WellFormed.node_of_leaf (h : t.WellFormed depth) (ha : t.leaf (p ++ q) = some a)
    (hq : q ≠ []) : ∃ m, t.node p = some m := by
  obtain ⟨q,i,rfl⟩ := List.eq_nil_or_concat q |>.resolve_left hq
  rw [List.concat_eq_append,← List.append_assoc] at ha
  obtain ⟨n,hn⟩ := h.rooted ha
  exact h.node_of_prefix hn

/-- Something lies right below the path. -/
def Occupied (t : Tree ι ν α) (path : List ι) : Prop :=
  ∃ i, (∃ n, t.node (path ++ [i]) = some n) ∨ ∃ a, t.leaf (path ++ [i]) = some a

/-- Every node but the root and the one at the path has something below it. -/
def PopulatedBut (t : Tree ι ν α) (path : List ι) : Prop :=
  ∀ p n, t.node p = some n → p ≠ [] → p ≠ path → t.Occupied p

/-- Every node but the root has something below it. -/
def Populated (t : Tree ι ν α) : Prop :=
  ∀ p n, t.node p = some n → p ≠ [] → t.Occupied p

theorem Populated.but (h : t.Populated) (path : List ι) : t.PopulatedBut path :=
  fun p n hp hne _ => h p n hp hne

theorem PopulatedBut.populated (h : t.PopulatedBut path) (hpath : path = [] ∨ t.Occupied path) :
    t.Populated := by
  intro p n hp hne
  by_cases heq : p = path
  · subst heq
    exact hpath.resolve_left hne
  · exact h p n hp hne heq

theorem Populated.exists_leaf (h : t.Populated) (ht : t.WellFormed depth)
    (hn : t.node path = some n) (hne : path ≠ []) : ∃ q a, t.leaf (path ++ q) = some a := by
  -- on the number of levels below the node
  obtain ⟨levels,hlevels⟩ : ∃ levels, path.length+levels = depth :=
    ⟨depth-path.length,Nat.add_sub_cancel' (Nat.le_of_lt (ht.short hn))⟩
  induction levels generalizing path n with
  | zero => exact absurd (ht.short hn) (by omega)
  | succ levels ih =>
    obtain ⟨i,⟨m,hm⟩ | ⟨a,ha⟩⟩ := h path n hn hne
    · obtain ⟨q,a,ha⟩ := ih hm (by simp) (by simp; omega)
      exact ⟨i :: q,a,by simpa using ha⟩
    · exact ⟨[i],a,ha⟩

section Changes

variable [DecidableEq ι]

def link (t : Tree ι ν α) (path : List ι) (n : ν) : Tree ι ν α :=
  { t with node := Function.update t.node path (some n) }

def unlink (t : Tree ι ν α) (path : List ι) : Tree ι ν α :=
  { t with node := Function.update t.node path none }

def setLeaf (t : Tree ι ν α) (path : List ι) (a : Option α) : Tree ι ν α :=
  { t with leaf := Function.update t.leaf path a }

@[simp] theorem leaf_link : (t.link path n).leaf = t.leaf := rfl

@[simp] theorem leaf_unlink : (t.unlink path).leaf = t.leaf := rfl

@[simp] theorem node_setLeaf {x : Option α} : (t.setLeaf path x).node = t.node := rfl

@[simp] theorem node_link_self : (t.link path n).node path = some n :=
  Function.update_self _ _ _

theorem node_link_of_ne (h : p ≠ path) : (t.link path n).node p = t.node p :=
  Function.update_of_ne h _ _

@[simp] theorem node_unlink_self : (t.unlink path).node path = none :=
  Function.update_self _ _ _

theorem node_unlink_of_ne (h : p ≠ path) : (t.unlink path).node p = t.node p :=
  Function.update_of_ne h _ _

@[simp] theorem leaf_setLeaf_self {x : Option α} : (t.setLeaf path x).leaf path = x :=
  Function.update_self _ _ _

theorem leaf_setLeaf_of_ne {x : Option α} (h : p ≠ path) : (t.setLeaf path x).leaf p = t.leaf p :=
  Function.update_of_ne h _ _

theorem node_unlink_eq_some_iff :
    (t.unlink path).node p = some n ↔ p ≠ path ∧ t.node p = some n := by
  by_cases h : p = path
  · subst h
    simp
  · rw [node_unlink_of_ne h]
    simp [h]

theorem node_link_eq_some_iff :
    (t.link path n).node p = some m ↔ (p = path ∧ n = m) ∨ (p ≠ path ∧ t.node p = some m) := by
  by_cases h : p = path
  · subst h
    simp
  · rw [node_link_of_ne h]
    simp [h]

theorem WellFormed.link (h : t.WellFormed depth) (hm : t.node path = some m)
    (hnone : t.node (path ++ [i]) = none) (hshort : path.length+1 < depth) (hn : ¬t.Has n) :
    (t.link (path ++ [i]) n).WellFormed depth where
  short := by
    intro p k hp
    rcases node_link_eq_some_iff.mp hp with ⟨rfl,-⟩ | ⟨-,hp⟩
    · simpa using hshort
    · exact h.short hp
  closed := by
    intro p j k hp
    have hbelow : ∃ k, t.node p = some k := by
      rcases node_link_eq_some_iff.mp hp with ⟨heq,-⟩ | ⟨-,hp⟩
      · rw [(List.append_inj' heq rfl).1]
        exact ⟨m,hm⟩
      · exact h.closed hp
    obtain ⟨k,hk⟩ := hbelow
    refine ⟨k,node_link_eq_some_iff.mpr (.inr ⟨?_,hk⟩)⟩
    rintro rfl
    rw [hnone] at hk
    cases hk
  injective := by
    intro p q k hp hq
    rcases node_link_eq_some_iff.mp hp with ⟨rfl,rfl⟩ | ⟨-,hp'⟩
    · rcases node_link_eq_some_iff.mp hq with ⟨rfl,-⟩ | ⟨-,hq'⟩
      · rfl
      · exact absurd ⟨q,hq'⟩ hn
    · rcases node_link_eq_some_iff.mp hq with ⟨rfl,rfl⟩ | ⟨-,hq'⟩
      · exact absurd ⟨p,hp'⟩ hn
      · exact h.injective hp' hq'
  full := h.full
  rooted := by
    intro p j a ha
    obtain ⟨k,hk⟩ := h.rooted ha
    refine ⟨k,node_link_eq_some_iff.mpr (.inr ⟨?_,hk⟩)⟩
    rintro rfl
    rw [hnone] at hk
    cases hk

theorem WellFormed.unlink (h : t.WellFormed depth) (hempty : ¬t.Occupied path) :
    (t.unlink path).WellFormed depth where
  short := fun hp => h.short (node_unlink_eq_some_iff.mp hp).2
  closed := by
    intro p i n hp
    have hn := (node_unlink_eq_some_iff.mp hp).2
    obtain ⟨m,hm⟩ := h.closed hn
    refine ⟨m,node_unlink_eq_some_iff.mpr ⟨?_,hm⟩⟩
    rintro rfl
    exact hempty ⟨i,.inl ⟨n,hn⟩⟩
  injective := fun hp hq =>
    h.injective (node_unlink_eq_some_iff.mp hp).2 (node_unlink_eq_some_iff.mp hq).2
  full := h.full
  rooted := by
    intro p i a ha
    obtain ⟨m,hm⟩ := h.rooted ha
    refine ⟨m,node_unlink_eq_some_iff.mpr ⟨?_,hm⟩⟩
    rintro rfl
    exact hempty ⟨i,.inr ⟨a,ha⟩⟩

theorem WellFormed.setLeaf (h : t.WellFormed depth) (hn : t.node path = some n)
    (hlast : path.length+1 = depth) (x : Option α) :
    (t.setLeaf (path ++ [i]) x).WellFormed depth where
  short := h.short
  closed := h.closed
  injective := h.injective
  full := by
    intro p a ha
    by_cases hp : p = path ++ [i]
    · subst hp
      simpa using hlast
    · rw [leaf_setLeaf_of_ne hp] at ha
      exact h.full ha
  rooted := by
    intro p j a ha
    by_cases hp : p ++ [j] = path ++ [i]
    · rw [node_setLeaf,(List.append_inj' hp rfl).1]
      exact ⟨n,hn⟩
    · rw [leaf_setLeaf_of_ne hp] at ha
      exact h.rooted ha

theorem has_link (hnone : t.node path = none) : (t.link path n).Has m ↔ n = m ∨ t.Has m := by
  constructor
  · rintro ⟨p,hp⟩
    rcases node_link_eq_some_iff.mp hp with ⟨-,hm⟩ | ⟨-,hp⟩
    · exact .inl hm
    · exact .inr ⟨p,hp⟩
  · rintro (rfl | ⟨p,hp⟩)
    · exact ⟨path,node_link_self⟩
    · refine ⟨p,node_link_eq_some_iff.mpr (.inr ⟨?_,hp⟩)⟩
      rintro rfl
      rw [hnone] at hp
      cases hp

theorem WellFormed.has_unlink (h : t.WellFormed depth) (hn : t.node path = some n) :
    (t.unlink path).Has m ↔ m ≠ n ∧ t.Has m := by
  constructor
  · rintro ⟨p,hp⟩
    obtain ⟨hne,hp⟩ := node_unlink_eq_some_iff.mp hp
    refine ⟨?_,p,hp⟩
    rintro rfl
    exact hne (h.injective hp hn)
  · rintro ⟨hne,p,hp⟩
    refine ⟨p,node_unlink_eq_some_iff.mpr ⟨?_,hp⟩⟩
    rintro rfl
    rw [hn] at hp
    exact hne (Option.some.inj hp).symm

theorem Occupied.link (h : t.Occupied p) : (t.link path n).Occupied p := by
  obtain ⟨i,⟨m,hm⟩ | ⟨a,ha⟩⟩ := h
  · by_cases heq : p ++ [i] = path
    · exact ⟨i,.inl ⟨n,heq ▸ node_link_self⟩⟩
    · exact ⟨i,.inl ⟨m,(node_link_of_ne heq).trans hm⟩⟩
  · exact ⟨i,.inr ⟨a,ha⟩⟩

theorem PopulatedBut.link (h : t.PopulatedBut path) :
    (t.link (path ++ [i]) n).PopulatedBut (path ++ [i]) := by
  intro p m hp hne hother
  rw [node_link_of_ne hother] at hp
  by_cases heq : p = path
  · subst heq
    exact ⟨i,.inl ⟨n,node_link_self⟩⟩
  · exact (h p m hp hne heq).link

theorem PopulatedBut.unlink (h : t.PopulatedBut (path ++ [i])) :
    (t.unlink (path ++ [i])).PopulatedBut path := by
  intro p n hp hne hother
  obtain ⟨hpath,hp⟩ := node_unlink_eq_some_iff.mp hp
  obtain ⟨j,⟨m,hm⟩ | ⟨a,ha⟩⟩ := h p n hp hne hpath
  · refine ⟨j,.inl ⟨m,node_unlink_eq_some_iff.mpr ⟨?_,hm⟩⟩⟩
    intro heq
    exact hother (List.append_inj' heq rfl).1
  · exact ⟨j,.inr ⟨a,ha⟩⟩

theorem PopulatedBut.setLeaf (h : t.PopulatedBut path) :
    (t.setLeaf (path ++ [i]) (some a)).Populated := by
  intro p n hp hne
  by_cases heq : p = path
  · subst heq
    exact ⟨i,.inr ⟨a,leaf_setLeaf_self⟩⟩
  · obtain ⟨j,hn | ⟨b,hb⟩⟩ := h p n hp hne heq
    · exact ⟨j,.inl hn⟩
    · refine ⟨j,.inr ⟨b,?_⟩⟩
      rw [leaf_setLeaf_of_ne,hb]
      intro hpath
      exact heq (List.append_inj' hpath rfl).1

theorem Populated.clearLeaf (h : t.Populated) :
    (t.setLeaf (path ++ [i]) none).PopulatedBut path := by
  intro p n hp hne hother
  obtain ⟨j,hn | ⟨b,hb⟩⟩ := h p n hp hne
  · exact ⟨j,.inl hn⟩
  · refine ⟨j,.inr ⟨b,?_⟩⟩
    rw [leaf_setLeaf_of_ne,hb]
    intro hpath
    exact hother (List.append_inj' hpath rfl).1

end Changes

end Tree

end Radix
