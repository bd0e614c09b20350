import Mathlib.Data.List.Nodup

/-!
# Doubly linked lists

Nodes that carry links to the node before and the node after them.  A segment is a list of nodes
whose links lead from one to the next, between the nodes on its two sides.
-/

namespace Linked

open List

variable {α : Type} {prev next prev' next' : α → Option α} {p n : Option α} {x y : α}
  {xs ys before after : List α}

/-- `p` and `n` are what the first node has before it and the last one after it. -/
def Segment (prev next : α → Option α) : Option α → List α → Option α → Prop
  | _, [], _ => True
  | p, x :: xs, n => prev x = p ∧ next x = xs.head?.or n ∧ Segment prev next (some x) xs n

theorem Segment.congr (hprev : ∀ x ∈ xs, prev' x = prev x) (hnext : ∀ x ∈ xs, next' x = next x)
    (h : Segment prev next p xs n) : Segment prev' next' p xs n := by
  induction xs generalizing p with
  | nil => exact h
  | cons x xs ih =>
    obtain ⟨hp,hn,hrest⟩ := h
    refine ⟨(hprev x mem_cons_self).trans hp,(hnext x mem_cons_self).trans hn,?_⟩
    exact ih (fun y hy => hprev y (mem_cons_of_mem x hy))
      (fun y hy => hnext y (mem_cons_of_mem x hy)) hrest

theorem segment_append : Segment prev next p (xs ++ ys) n ↔
    Segment prev next p xs (ys.head?.or n) ∧ Segment prev next (xs.getLast?.or p) ys n := by
  induction xs generalizing p with
  | nil => simp [Segment]
  | cons x xs ih =>
    have hlast : (x :: xs).getLast?.or p = xs.getLast?.or (some x) := by
      rw [getLast?_cons]
      cases xs.getLast? with
      | none => rfl
      | some y => rfl
    rw [cons_append,Segment,Segment,ih,head?_append,Option.or_assoc,hlast,and_assoc,and_assoc]

theorem segment_singleton : Segment prev next p [x] n ↔ prev x = p ∧ next x = n := by simp [Segment]

theorem Segment.neighbours (h : Segment prev next none (before ++ x :: after) none) :
    prev x = before.getLast? ∧ next x = after.head? := by
  obtain ⟨hprev,hnext,-⟩ := (segment_append.mp h).2
  rw [Option.or_none] at hprev hnext
  exact ⟨hprev,hnext⟩

theorem Segment.setLast (h : Segment prev next p xs n) (hnodup : xs.Nodup) {m : Option α}
    (hprev : ∀ x ∈ xs, prev' x = prev x) (hlast : ∀ x, xs.getLast? = some x → next' x = m)
    (hnext : ∀ x ∈ xs, xs.getLast? ≠ some x → next' x = next x) : Segment prev' next' p xs m := by
  rcases eq_nil_or_concat xs with rfl | ⟨init,last,rfl⟩
  · trivial
  rw [concat_eq_append] at *
  rw [getLast?_append,getLast?_singleton,Option.some_or] at hlast hnext
  obtain ⟨hinit,hlink⟩ := segment_append.mp h
  have hne : ∀ x ∈ init, some last ≠ some x := by
    intro x hx heq
    cases heq
    exact (nodup_append.mp hnodup).2.2 last hx last (mem_singleton.mpr rfl) rfl
  refine segment_append.mpr ⟨?_,?_⟩
  · refine Segment.congr (fun x hx => hprev x (mem_append_left _ hx))
      (fun x hx => hnext x (mem_append_left _ hx) (hne x hx)) hinit
  · rw [segment_singleton]
    exact ⟨(hprev last (by simp)).trans hlink.1,hlast last rfl⟩

theorem Segment.setFirst (h : Segment prev next p xs n) (hnodup : xs.Nodup) {m : Option α}
    (hfirst : ∀ x, xs.head? = some x → prev' x = m)
    (hprev : ∀ x ∈ xs, xs.head? ≠ some x → prev' x = prev x)
    (hnext : ∀ x ∈ xs, next' x = next x) : Segment prev' next' m xs n := by
  cases xs with
  | nil => trivial
  | cons x xs =>
    obtain ⟨-,hn,hrest⟩ := h
    refine ⟨hfirst x rfl,(hnext x mem_cons_self).trans hn,?_⟩
    refine Segment.congr ?_ (fun y hy => hnext y (mem_cons_of_mem x hy)) hrest
    intro y hy
    apply hprev y (mem_cons_of_mem x hy)
    intro heq
    cases heq
    exact (nodup_cons.mp hnodup).1 hy

theorem Segment.push (h : Segment prev next none xs none) (hnodup : xs.Nodup)
    (hprevX : prev' x = xs.getLast?) (hnextX : next' x = none) (hprev : ∀ y ∈ xs, prev' y = prev y)
    (hlast : ∀ y, xs.getLast? = some y → next' y = some x)
    (hnext : ∀ y ∈ xs, xs.getLast? ≠ some y → next' y = next y) :
    Segment prev' next' none (xs ++ [x]) none := by
  refine segment_append.mpr ⟨h.setLast hnodup hprev hlast hnext,?_⟩
  rw [segment_singleton,Option.or_none]
  exact ⟨hprevX,hnextX⟩

theorem Segment.unlink (h : Segment prev next none (before ++ x :: after) none)
    (hnodup : (before ++ x :: after).Nodup)
    (hfirst : ∀ y, after.head? = some y → prev' y = before.getLast?)
    (hprev : ∀ y ∈ before ++ after, after.head? ≠ some y → prev' y = prev y)
    (hlast : ∀ y, before.getLast? = some y → next' y = after.head?)
    (hnext : ∀ y ∈ before ++ after, before.getLast? ≠ some y → next' y = next y) :
    Segment prev' next' none (before ++ after) none := by
  obtain ⟨hbefore,hrest⟩ := segment_append.mp h
  obtain ⟨-,-,hafter⟩ := hrest
  obtain ⟨hnodupBefore,hnodupRest,hdisjoint⟩ := nodup_append.mp hnodup
  have hnodupAfter := (nodup_cons.mp hnodupRest).2
  have hapart : ∀ y ∈ before, y ∉ after := fun y hy hy' =>
    hdisjoint y hy y (mem_cons_of_mem x hy') rfl
  refine segment_append.mpr ⟨?_,?_⟩
  · rw [Option.or_none]
    refine hbefore.setLast hnodupBefore ?_ hlast ?_
    · intro y hy
      exact hprev y (mem_append_left _ hy)
        fun heq => hapart y hy (mem_of_mem_head? heq)
    · exact fun y hy hne => hnext y (mem_append_left _ hy) hne
  · rw [Option.or_none]
    refine hafter.setFirst hnodupAfter hfirst ?_ ?_
    · exact fun y hy hne => hprev y (mem_append_right _ hy) hne
    · intro y hy
      exact hnext y (mem_append_right _ hy)
        fun heq => hapart y (mem_of_getLast? heq) hy

theorem Segment.unique (h : Segment prev next p xs none) (h' : Segment prev' next p ys none)
    (hhead : xs.head? = ys.head?) : xs = ys := by
  induction xs generalizing p ys with
  | nil =>
    cases ys with
    | nil => rfl
    | cons y ys => cases hhead
  | cons x xs ih =>
    cases ys with
    | nil => cases hhead
    | cons y ys =>
      cases hhead
      obtain ⟨-,hnext,hrest⟩ := h
      obtain ⟨-,hnext',hrest'⟩ := h'
      rw [Option.or_none] at hnext hnext'
      rw [ih hrest hrest' (hnext.symm.trans hnext')]

end Linked
