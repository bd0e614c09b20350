import Mathlib.Tactic.Common

/-!
# Counting references and handles

The books kept on one object: its two counters, and what they are meant to count.  An object whose
last reference goes while no handle is counted is destroyed, and its destruction runs later.  A
handle is closed in three steps: its entry goes, then the handle is no longer counted, then its
reference is released.
-/

namespace RefCount

@[ext]
structure Account where
  /-- The counters. -/
  references : ℕ
  handles : ℕ
  isDestroyed : Bool
  /-- Whether the destruction has something to run. -/
  destroys : Bool
  /-- The entries that name the object. -/
  entries : ℕ
  /-- The entries that are gone while their handles are still counted. -/
  removing : ℕ
  /-- The references held by steps to come. -/
  held : ℕ
  /-- The references held by clients. -/
  outstanding : ℕ
  toDestroy : ℕ
  destroyed : ℕ

namespace Account

def CanRelease (a : Account) : Prop :=
  a.isDestroyed = false ∧ a.references ≠ 0 ∧ (a.references = 1 → a.handles = 0)

def release (a : Account) : Account :=
  if a.references = 1 then
    { a with references := 0, isDestroyed := true, toDestroy := a.toDestroy+a.destroys.toNat }
  else { a with references := a.references-1 }

/-- One step.  If the clients are `matched`, they give back only what they hold. -/
inductive Step (matched : Prop) : Account → Account → Prop where
  | stay (a : Account) : Step matched a a
  | take (a : Account) : a.isDestroyed = false →
      Step matched a { a with references := a.references+1, outstanding := a.outstanding+1 }
  | borrow (a : Account) : a.isDestroyed = false →
      Step matched a { a with references := a.references+1, held := a.held+1 }
  | give (a : Account) : a.CanRelease → (matched → 0 < a.outstanding) →
      Step matched a { a.release with outstanding := a.outstanding-1 }
  | enter (a : Account) : a.isDestroyed = false →
      Step matched a
        { a with references := a.references+1, handles := a.handles+1,entries := a.entries+1 }
  | clear (a : Account) :
      Step matched { a with entries := a.entries+1 } { a with removing := a.removing+1 }
  | remove (a : Account) : a.isDestroyed = false →
      Step matched { a with handles := a.handles+1, removing := a.removing+1 }
        { a with held := a.held+1 }
  | refuse (a : Account) : (a.isDestroyed = true ∨ a.handles = 0 ∨ a.references = 0) →
      Step matched { a with removing := a.removing+1 } a
  | settle (a : Account) : a.CanRelease → Step matched { a with held := a.held+1 } a.release
  | forfeit (a : Account) : ¬a.CanRelease → Step matched { a with held := a.held+1 } a
  | run (a : Account) :
      Step matched { a with toDestroy := a.toDestroy+1 } { a with destroyed := a.destroyed+1 }

/-- The handles counted are the entries and those about to be removed, and an object is destroyed
once, when its references are gone. -/
structure Sound (a : Account) : Prop where
  handles : a.handles = a.entries+a.removing
  alive : a.isDestroyed = true ↔ a.references = 0
  unnamed : a.isDestroyed = true → a.handles = 0
  once : a.destroyed+a.toDestroy = (a.isDestroyed && a.destroys).toNat

/-- Every reference counted is held by somebody. -/
def Balanced (a : Account) : Prop :=
  a.references = a.outstanding+a.entries+a.removing+a.held

variable {matched : Prop} {a b : Account}

namespace Sound

variable (h : a.Sound)

include h

theorem references_pos (halive : a.isDestroyed = false) : 0 < a.references := by
  refine Nat.pos_of_ne_zero fun hzero => ?_
  rw [h.alive.mpr hzero] at halive
  exact absurd halive (by decide)

theorem alive_of_handles (hhandles : a.handles ≠ 0) : a.isDestroyed = false :=
  Bool.eq_false_iff.mpr fun hdestroyed => hhandles (h.unnamed hdestroyed)

theorem not_refused (hremoving : 0 < a.removing) :
    ¬(a.isDestroyed = true ∨ a.handles = 0 ∨ a.references = 0) := by
  have hhandles := h.handles
  have hcounted : a.handles ≠ 0 := by omega
  have halive := h.alive_of_handles hcounted
  have hrefs := h.references_pos halive
  rintro (hdestroyed | hzero | hzero)
  · rw [halive] at hdestroyed
    exact absurd hdestroyed (by decide)
  · exact hcounted hzero
  · omega

theorem of_alive (hwas : a.isDestroyed = false) (halive : b.isDestroyed = false)
    (hhandles : b.handles = b.entries+b.removing) (hrefs : b.references ≠ 0)
    (hdestroyed : b.destroyed = a.destroyed) (htoDestroy : b.toDestroy = a.toDestroy) :
    b.Sound where
  handles := hhandles
  alive := by
    rw [halive]
    exact ⟨fun hfalse => absurd hfalse (by decide),fun hzero => absurd hzero hrefs⟩
  unnamed := by
    rw [halive]
    exact fun hfalse => absurd hfalse (by decide)
  once := by
    rw [hdestroyed,htoDestroy,h.once,halive,hwas]
    rfl

theorem release (hrelease : a.CanRelease) : a.release.Sound := by
  obtain ⟨halive,hrefs,hlast⟩ := hrelease
  rw [Account.release]
  split_ifs with hone
  · refine ⟨h.handles,by simp,fun _ => hlast hone,?_⟩
    have honce := h.once
    rw [halive] at honce
    simp only [Bool.false_and,Bool.toNat_false] at honce
    simp only [Bool.true_and]
    omega
  · refine h.of_alive halive halive h.handles ?_ rfl rfl
    show a.references-1 ≠ 0
    omega

theorem step (hstep : Step matched a b) : b.Sound := by
  have hhandles := h.handles
  cases hstep with
  | stay => exact h
  | take _ halive => exact h.of_alive halive halive h.handles (Nat.succ_ne_zero _) rfl rfl
  | borrow _ halive => exact h.of_alive halive halive h.handles (Nat.succ_ne_zero _) rfl rfl
  | give _ hrelease _ =>
    have hsound := h.release hrelease
    exact ⟨hsound.handles,hsound.alive,hsound.unnamed,hsound.once⟩
  | enter _ halive =>
    refine h.of_alive halive halive ?_ (Nat.succ_ne_zero _) rfl rfl
    show a.handles+1 = a.entries+1+a.removing
    omega
  | clear base =>
    refine ⟨?_,h.alive,h.unnamed,h.once⟩
    dsimp only at hhandles ⊢
    omega
  | remove base halive =>
    have hrefs := Nat.pos_iff_ne_zero.mp (h.references_pos halive)
    refine h.of_alive halive halive ?_ hrefs rfl rfl
    dsimp only at hhandles ⊢
    omega
  | refuse base hrefused => exact absurd hrefused (h.not_refused (Nat.succ_pos _))
  | settle base hrelease =>
    have hsound : base.Sound := ⟨h.handles,h.alive,h.unnamed,h.once⟩
    exact hsound.release hrelease
  | forfeit => exact ⟨h.handles,h.alive,h.unnamed,h.once⟩
  | run base =>
    refine ⟨h.handles,h.alive,h.unnamed,?_⟩
    have honce := h.once
    dsimp only at honce ⊢
    omega

end Sound

theorem Balanced.canRelease (hbalanced : a.Balanced) (h : a.Sound)
    (hheld : 0 < a.outstanding+a.held) : a.CanRelease := by
  have hhandles := h.handles
  rw [Balanced] at hbalanced
  have hrefs : a.references ≠ 0 := by omega
  refine ⟨?_,hrefs,fun hone => by omega⟩
  exact Bool.eq_false_iff.mpr fun hdestroyed => hrefs (h.alive.mp hdestroyed)

theorem release_counts (hrefs : a.references ≠ 0) :
    a.release.references+1 = a.references ∧ a.release.outstanding = a.outstanding ∧
      a.release.entries = a.entries ∧ a.release.removing = a.removing ∧
      a.release.held = a.held := by
  rw [release]
  split_ifs with hone
  · exact ⟨by simp [hone],rfl,rfl,rfl,rfl⟩
  · refine ⟨?_,rfl,rfl,rfl,rfl⟩
    dsimp only
    omega

theorem Balanced.step (hbalanced : a.Balanced) (h : a.Sound) (hstep : Step True a b) :
    b.Balanced := by
  have hbalance := hbalanced
  rw [Balanced] at hbalance ⊢
  cases hstep with
  | stay => exact hbalance
  | take => dsimp only; omega
  | borrow => dsimp only; omega
  | give _ hrelease hmatched =>
    obtain ⟨hrefs,-,hentries,hremoving,hheld⟩ := release_counts hrelease.2.1
    have hpos := hmatched trivial
    dsimp only
    omega
  | enter => dsimp only; omega
  | clear => dsimp only at hbalance ⊢; omega
  | remove => dsimp only at hbalance ⊢; omega
  | refuse base hrefused => exact absurd hrefused (h.not_refused (Nat.succ_pos _))
  | settle base hrelease =>
    obtain ⟨hrefs,houtstanding,hentries,hremoving,hheld⟩ := release_counts hrelease.2.1
    dsimp only at hbalance
    omega
  | forfeit base hrelease =>
    have hcan := hbalanced.canRelease h (Nat.succ_pos _)
    exact absurd hcan hrelease
  | run => exact hbalance

theorem Balanced.destroyed_iff (hbalanced : a.Balanced) (h : a.Sound)
    (hdestroys : a.destroys = true) (hremoving : a.removing = 0) (hheld : a.held = 0)
    (hnone : a.toDestroy = 0) : a.destroyed = 1 ↔ a.outstanding = 0 ∧ a.entries = 0 := by
  have honce := h.once
  rw [Balanced] at hbalanced
  rw [hdestroys,Bool.and_true] at honce
  cases hdestroyed : a.isDestroyed with
  | true =>
    have hzero := h.alive.mp hdestroyed
    rw [hdestroyed,Bool.toNat_true] at honce
    omega
  | false =>
    have hrefs := h.references_pos hdestroyed
    rw [hdestroyed,Bool.toNat_false] at honce
    omega

end Account

end RefCount
