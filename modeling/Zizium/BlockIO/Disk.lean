import Mathlib.Data.List.Basic

/-!
# Write-back block devices

A block device holds a durable image and the writes issued since the last barrier; a crash keeps
an arbitrary subset of the latter.
-/

namespace BlockIO

variable {B : Type}

/-- Perform single-block writes in order on an image. -/
def applyWrites (image : ℕ → B) : List (ℕ × B) → ℕ → B
  | [] => image
  | w :: ws => applyWrites (Function.update image w.1 w.2) ws

/-- The single-block writes that make up a write of consecutive blocks. -/
def place (first : ℕ) : List B → List (ℕ × B)
  | [] => []
  | b :: bs => (first, b) :: place (first+1) bs

@[simp] theorem applyWrites_cons (img : ℕ → B) (w : ℕ × B) (ws : List (ℕ × B)) :
    applyWrites img (w :: ws) = applyWrites (Function.update img w.1 w.2) ws := rfl

theorem applyWrites_append (img : ℕ → B) (ws vs : List (ℕ × B)) :
    applyWrites img (ws ++ vs) = applyWrites (applyWrites img ws) vs := by
  induction ws generalizing img with
  | nil => rfl
  | cons w ws ih => exact ih _

theorem applyWrites_of_notMem {img : ℕ → B} {ws : List (ℕ × B)} {n : ℕ}
    (h : ∀ w ∈ ws, w.1 ≠ n) : applyWrites img ws n = img n := by
  induction ws generalizing img with
  | nil => rfl
  | cons w ws ih =>
    rw [applyWrites_cons,ih fun v hv => h v (List.mem_cons_of_mem _ hv)]
    exact Function.update_of_ne (h w List.mem_cons_self).symm _ _

theorem applyWrites_of_mem {img : ℕ → B} {ws : List (ℕ × B)} (hnodup : (ws.map Prod.fst).Nodup)
    {w : ℕ × B} (hw : w ∈ ws) : applyWrites img ws w.1 = w.2 := by
  induction ws generalizing img with
  | nil => cases hw
  | cons v ws ih =>
    rw [List.map_cons,List.nodup_cons] at hnodup
    rw [applyWrites_cons]
    rcases List.mem_cons.mp hw with rfl | hw
    · rw [applyWrites_of_notMem,Function.update_self]
      intro u hu heq
      exact hnodup.1 (heq ▸ List.mem_map_of_mem hu)
    · exact ih hnodup.2 hw

theorem mem_place {first : ℕ} {blocks : List B} {w : ℕ × B} (h : w ∈ place first blocks) :
    first ≤ w.1 ∧ w.1 < first+blocks.length := by
  induction blocks generalizing first with
  | nil => cases h
  | cons b bs ih =>
    rcases List.mem_cons.mp h with rfl | h
    · simp
    · have := ih h
      simp only [List.length_cons]
      omega

/-- A device with a write-back cache: what is certainly durable, and the writes issued
since the last barrier in the order in which they were issued. -/
structure Disk (B : Type) where
  durable : ℕ → B
  pending : List (ℕ × B)

namespace Disk

variable (d : Disk B)

/-- What reads return: every issued write is visible. -/
def current : ℕ → B := applyWrites d.durable d.pending

def write (first : ℕ) (blocks : List B) : Disk B :=
  { d with pending := d.pending ++ place first blocks }

/-- A completed barrier makes every issued write durable. -/
def sync : Disk B := { durable := d.current, pending := [] }

def ofImage (image : ℕ → B) : Disk B := { durable := image, pending := [] }

@[simp] theorem current_ofImage (img : ℕ → B) : (ofImage img).current = img := rfl

@[simp] theorem current_write (first : ℕ) (blocks : List B) :
    (d.write first blocks).current = applyWrites d.current (place first blocks) :=
  applyWrites_append _ _ _

@[simp] theorem current_sync : d.sync.current = d.current := rfl

end Disk

/-- The writes of a list selected by a mask; writes beyond the mask are dropped. -/
def keep : List Bool → List (ℕ × B) → List (ℕ × B)
  | true :: mask, w :: ws => w :: keep mask ws
  | false :: mask, _ :: ws => keep mask ws
  | _, _ => []

end BlockIO
