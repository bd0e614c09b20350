import Mathlib.Order.WellFoundedSet

/-!
# Greedy orders of a dependency relation

Items that need one another are placed one by one: the least by a key among those whose needs are
placed.  Such an order is determined by the items, and it places all of them exactly when the
relation has no cycle.
-/

namespace Greedy

open List

variable {α κ : Type*} [LinearOrder κ]

section Relation

variable (items : List α) (needs : α → α → Prop) (key : α → κ)

/-- An item that is not placed yet, unlike all the items it needs. -/
structure Ready (placed : List α) (a : α) : Prop where
  mem : a ∈ items
  notPlaced : a ∉ placed
  needed : ∀ d ∈ items, needs a d → d ∈ placed

structure LeastReady (placed : List α) (a : α) : Prop extends Ready items needs placed a where
  least : ∀ b, Ready items needs placed b → key a ≤ key b

def IsOrder (order : List α) : Prop :=
  ∀ before a after, order = before ++ a :: after → LeastReady items needs key before a

/-- The relation between items. -/
def Within (a d : α) : Prop := a ∈ items ∧ d ∈ items ∧ needs a d

def Acyclic : Prop := ∀ a, ¬Relation.TransGen (Within items needs) a a

variable {items needs key} {order placed other : List α} {a b d : α}

theorem isOrder_nil : IsOrder items needs key [] := by
  intro before a after h
  simp at h

theorem IsOrder.concat (h : IsOrder items needs key order)
    (ha : LeastReady items needs key order a) : IsOrder items needs key (order ++ [a]) := by
  intro before b after hsplit
  rcases eq_nil_or_concat after with rfl | ⟨after,c,rfl⟩
  · obtain ⟨rfl,hb⟩ := append_inj' hsplit rfl
    rw [cons.inj hb |>.1] at ha
    exact ha
  · rw [concat_eq_append,← cons_append,← append_assoc] at hsplit
    exact h before b after (append_inj' hsplit rfl).1

theorem IsOrder.least (h : IsOrder items needs key (placed ++ a :: other)) :
    LeastReady items needs key placed a :=
  h placed a other rfl

section

variable (hkey : ∀ x ∈ items, ∀ y ∈ items, key x = key y → x = y)

include hkey

theorem LeastReady.unique (ha : LeastReady items needs key placed a)
    (hb : LeastReady items needs key placed b) : a = b :=
  hkey a ha.mem b hb.mem (le_antisymm (ha.least b hb.toReady) (hb.least a ha.toReady))

theorem IsOrder.eq_of_append (h : IsOrder items needs key (placed ++ order))
    (h' : IsOrder items needs key (placed ++ other)) (hlen : order.length = other.length) :
    order = other := by
  induction order generalizing placed other with
  | nil => exact (length_eq_zero_iff.mp hlen.symm).symm
  | cons a order ih =>
    cases other with
    | nil => simp at hlen
    | cons b other =>
      obtain rfl : a = b := LeastReady.unique hkey h.least h'.least
      have htail : order = other := by
        apply @ih (placed ++ [a]) other
        · simpa using h
        · simpa using h'
        · simpa using hlen
      rw [htail]

theorem IsOrder.eq_of_length_eq (h : IsOrder items needs key order)
    (h' : IsOrder items needs key other) (hlen : order.length = other.length) : order = other :=
  @IsOrder.eq_of_append _ _ _ _ _ _ _ [] _ hkey h h' hlen

end

theorem isOrder_congr {items' : List α} (hmem : ∀ x, x ∈ items ↔ x ∈ items') :
    IsOrder items needs key order ↔ IsOrder items' needs key order := by
  have hready : ∀ before x, Ready items needs before x ↔ Ready items' needs before x := by
    intro before x
    constructor
    · exact fun h => ⟨(hmem x).mp h.mem,h.notPlaced,fun d hd => h.needed d ((hmem d).mpr hd)⟩
    · exact fun h => ⟨(hmem x).mpr h.mem,h.notPlaced,fun d hd => h.needed d ((hmem d).mp hd)⟩
  constructor
  · intro h before x after hsplit
    have hx := h before x after hsplit
    exact ⟨(hready _ _).mp hx.toReady,fun b hb => hx.least b ((hready _ _).mpr hb)⟩
  · intro h before x after hsplit
    have hx := h before x after hsplit
    exact ⟨(hready _ _).mpr hx.toReady,fun b hb => hx.least b ((hready _ _).mp hb)⟩

theorem acyclic_congr {items' : List α} (hmem : ∀ x, x ∈ items ↔ x ∈ items') :
    Acyclic items needs ↔ Acyclic items' needs := by
  have hwithin : Within items needs = Within items' needs := by
    funext x y
    simp only [Within,hmem]
  rw [Acyclic,Acyclic,hwithin]

theorem exists_ready (hacyclic : Acyclic items needs) (hmissing : ∃ a ∈ items, a ∉ placed) :
    ∃ a, Ready items needs placed a := by
  let reach : α → α → Prop := fun d a => Relation.TransGen (Within items needs) a d
  have : IsStrictOrder α reach :=
    { irrefl := hacyclic, trans := fun _ _ _ h h' => h'.trans h }
  have hfinite : {a | a ∈ items ∧ a ∉ placed}.Finite :=
    (finite_toSet items).subset fun _ h => h.1
  have hwf : {a | a ∈ items ∧ a ∉ placed}.WellFoundedOn reach := hfinite.wellFoundedOn
  obtain ⟨a,ha⟩ := hmissing
  by_contra hnone
  -- a missing item that is not ready needs another missing item, and so on for ever
  refine @Set.WellFoundedOn.induction _ _ _ a hwf ha (fun _ => False) fun x hx ih =>
    hnone ⟨x,hx.1,hx.2,?_⟩
  intro d hd hneeds
  by_contra hplaced
  exact ih d ⟨hd,hplaced⟩ (.single ⟨hx.1,hd,hneeds⟩)

theorem IsOrder.mem_before (h : IsOrder items needs key (placed ++ a :: other))
    (hreach : Relation.TransGen (Within items needs) a d) : d ∈ placed := by
  induction hreach with
  | single hstep => exact h.least.needed _ hstep.2.1 hstep.2.2
  | @tail c d _ hstep ih =>
    obtain ⟨before,after,rfl⟩ := append_of_mem ih
    have hc : LeastReady items needs key before c := h before c (after ++ a :: other) (by simp)
    exact mem_append_left _ (hc.needed d hstep.2.1 hstep.2.2)

theorem IsOrder.acyclic (h : IsOrder items needs key order) (hall : ∀ a ∈ items, a ∈ order) :
    Acyclic items needs := by
  intro a hcycle
  obtain ⟨d,hstep,-⟩ := Relation.TransGen.head'_iff.mp hcycle
  obtain ⟨before,after,rfl⟩ := append_of_mem (hall a hstep.1)
  exact h.least.notPlaced (h.mem_before hcycle)

end Relation

section Scan

variable (key : α → κ) (eligible : α → Bool)

/-- Keep the first least eligible item seen so far. -/
def keepLeast (best : Option α) (a : α) : Option α :=
  if eligible a then
    match best with
    | none => some a
    | some b => if key a < key b then some a else some b
  else best

/-- What the scan of a list has found. -/
def IsBest (seen : List α) (best : Option α) : Prop :=
  (best = none ∧ ∀ a ∈ seen, eligible a = false) ∨
  ∃ a ∈ seen, best = some a ∧ eligible a = true ∧
    ∀ b ∈ seen, eligible b = true → key a ≤ key b

variable {key eligible} {seen : List α} {best : Option α} {a b : α}

theorem IsBest.keepLeast (h : IsBest key eligible seen best) (a : α) :
    IsBest key eligible (seen ++ [a]) (keepLeast key eligible best a) := by
  by_cases ha : eligible a = true
  · rcases h with ⟨rfl,hnone⟩ | ⟨b,hb,rfl,hbe,hleast⟩
    · refine .inr ⟨a,by simp,by simp [Greedy.keepLeast,ha],ha,?_⟩
      intro c hc hce
      rcases mem_append.mp hc with hc | hc
      · simp [hnone c hc] at hce
      · rw [mem_singleton.mp hc]
    · by_cases hlt : key a < key b
      · refine .inr ⟨a,by simp,by simp [Greedy.keepLeast,ha,hlt],ha,?_⟩
        intro c hc hce
        rcases mem_append.mp hc with hc | hc
        · exact hlt.le.trans (hleast c hc hce)
        · rw [mem_singleton.mp hc]
      · refine .inr ⟨b,by simp [hb],by simp [Greedy.keepLeast,ha,hlt],hbe,?_⟩
        intro c hc hce
        rcases mem_append.mp hc with hc | hc
        · exact hleast c hc hce
        · rw [mem_singleton.mp hc]
          exact not_lt.mp hlt
  · have hkeep : Greedy.keepLeast key eligible best a = best := by simp [Greedy.keepLeast,ha]
    rw [hkeep]
    rcases h with ⟨rfl,hnone⟩ | ⟨b,hb,rfl,hbe,hleast⟩
    · refine .inl ⟨rfl,?_⟩
      intro c hc
      rcases mem_append.mp hc with hc | hc
      · exact hnone c hc
      · simpa [mem_singleton.mp hc] using ha
    · refine .inr ⟨b,by simp [hb],rfl,hbe,?_⟩
      intro c hc hce
      rcases mem_append.mp hc with hc | hc
      · exact hleast c hc hce
      · exact absurd (mem_singleton.mp hc ▸ hce) ha

variable (key eligible) in
theorem isBest_foldl_keepLeast (l : List α) :
    IsBest key eligible l (l.foldl (Greedy.keepLeast key eligible) none) := by
  induction l using reverseRecOn with
  | nil => exact .inl ⟨rfl,by simp⟩
  | append_singleton l a ih =>
    rw [foldl_append]
    exact ih.keepLeast a

end Scan

end Greedy
