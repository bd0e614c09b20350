import Zizium.BlockIO.Disk

/-!
# Programs over a block device

Code that talks to a block device is a tree of device operations: a `Query` only reads, a `Prog`
may also write and issue barriers.  It runs under a script in which every operation succeeds,
fails with a status, or is interrupted by a crash.
-/

namespace BlockIO

variable {B E α β γ : Type}

/-- A program that only reads from the device.  The answer to a read of `count` blocks
from `first` gives block `first + i` at index `i`. -/
inductive Query (B E α : Type) where
  | ret (a : α)
  | read (first count : ℕ) (next : Except E (ℕ → B) → Query B E α)

namespace Query

def bind : Query B E α → (α → Query B E β) → Query B E β
  | ret a, f => f a
  | read first count next, f => read first count fun r => (next r).bind f

/-- The value computed on an image when no read fails. -/
def eval : Query B E α → (ℕ → B) → α
  | ret a, _ => a
  | read first _ next, image => (next (.ok fun i => image (first+i))).eval image

@[simp] theorem eval_ret (a : α) (img : ℕ → B) : (ret a : Query B E α).eval img = a := rfl

@[simp] theorem eval_bind (q : Query B E α) (f : α → Query B E β) (img : ℕ → B) :
    (q.bind f).eval img = (f (q.eval img)).eval img := by
  induction q with
  | ret a => rfl
  | read first count next ih => exact ih _

end Query

/-- A program over the device. -/
inductive Prog (B E α : Type) where
  | ret (a : α)
  | read (first count : ℕ) (next : Except E (ℕ → B) → Prog B E α)
  | write (first : ℕ) (blocks : List B) (next : Except E Unit → Prog B E α)
  | flush (next : Except E Unit → Prog B E α)

/-- What the device does with one operation.  A failed or interrupted write may still
have put some of its blocks in the cache. -/
inductive Event (E : Type) where
  | ok
  | fail (status : E) (reached : List Bool)
  | crash
  deriving Repr

/-- How a run ends, with the events that were not consumed. -/
inductive Outcome (B E α : Type) where
  | done (a : α) (d : Disk B) (rest : List (Event E))
  | crashed (d : Disk B) (rest : List (Event E))

/-- Writes and barriers, the operations that matter to the medium. -/
inductive Op (B : Type) where
  | write (first : ℕ) (blocks : List B)
  | flush

/-- The disk once an operation has completed. -/
def Disk.step (d : Disk B) : Op B → Disk B
  | .write first blocks => d.write first blocks
  | .flush => d.sync

def Disk.steps (d : Disk B) (ops : List (Op B)) : Disk B := ops.foldl Disk.step d

/-- The effect of operations on what reads return. -/
def applyOps (image : ℕ → B) : List (Op B) → ℕ → B
  | [] => image
  | .write first blocks :: ops => applyOps (applyWrites image (place first blocks)) ops
  | .flush :: ops => applyOps image ops

@[simp] theorem applyOps_nil (img : ℕ → B) : applyOps img [] = img := rfl

theorem applyOps_append (img : ℕ → B) (xs ys : List (Op B)) :
    applyOps img (xs ++ ys) = applyOps (applyOps img xs) ys := by
  induction xs generalizing img with
  | nil => rfl
  | cons x xs ih => cases x <;> exact ih _

namespace Prog

def bind : Prog B E α → (α → Prog B E β) → Prog B E β
  | ret a, f => f a
  | read first count next, f => read first count fun r => (next r).bind f
  | write first blocks next, f => write first blocks fun r => (next r).bind f
  | flush next, f => flush fun r => (next r).bind f

def ofQuery : Query B E α → Prog B E α
  | .ret a => ret a
  | .read first count next => read first count fun r => ofQuery (next r)

/-- Run a program under a script of events; once the script is used up every
operation succeeds. -/
def run : Prog B E α → List (Event E) → Disk B → Outcome B E α
  | ret a, evs, d => .done a d evs
  | read first _ next, evs, d =>
    match evs with
    | [] => (next (.ok fun i => d.current (first+i))).run [] d
    | .ok :: evs => (next (.ok fun i => d.current (first+i))).run evs d
    | .fail e _ :: evs => (next (.error e)).run evs d
    | .crash :: evs => .crashed d evs
  | write first blocks next, evs, d =>
    match evs with
    | [] => (next (.ok ())).run [] (d.write first blocks)
    | .ok :: evs => (next (.ok ())).run evs (d.write first blocks)
    | .fail e reached :: evs =>
      (next (.error e)).run evs
        { d with pending := d.pending ++ keep reached (place first blocks) }
    | .crash :: evs => .crashed (d.write first blocks) evs
  | flush next, evs, d =>
    match evs with
    | [] => (next (.ok ())).run [] d.sync
    | .ok :: evs => (next (.ok ())).run evs d.sync
    | .fail e _ :: evs => (next (.error e)).run evs d
    | .crash :: evs => .crashed d evs

/-- The value computed when every operation succeeds. -/
def result : Prog B E α → (ℕ → B) → α
  | ret a, _ => a
  | read first _ next, image => (next (.ok fun i => image (first+i))).result image
  | write first blocks next, image =>
    (next (.ok ())).result (applyWrites image (place first blocks))
  | flush next, image => (next (.ok ())).result image

/-- The writes and barriers issued when every operation succeeds. -/
def ops : Prog B E α → (ℕ → B) → List (Op B)
  | ret _, _ => []
  | read first _ next, image => (next (.ok fun i => image (first+i))).ops image
  | write first blocks next, image =>
    .write first blocks :: (next (.ok ())).ops (applyWrites image (place first blocks))
  | flush next, image => .flush :: (next (.ok ())).ops image

@[simp] theorem result_bind (p : Prog B E α) (f : α → Prog B E β) (img : ℕ → B) :
    (p.bind f).result img = (f (p.result img)).result (applyOps img (p.ops img)) := by
  induction p generalizing img with
  | ret a => rfl
  | read first count next ih => exact ih _ _
  | write first blocks next ih => exact ih _ _
  | flush next ih => exact ih _ _

@[simp] theorem ops_bind (p : Prog B E α) (f : α → Prog B E β) (img : ℕ → B) : (p.bind f).ops img =
      p.ops img ++ (f (p.result img)).ops (applyOps img (p.ops img)) := by
  induction p generalizing img with
  | ret a => rfl
  | read first count next ih => exact ih _ _
  | write first blocks next ih => exact congrArg _ (ih _ _)
  | flush next ih => exact congrArg _ (ih _ _)

@[simp] theorem result_ofQuery (q : Query B E α) (img : ℕ → B) :
    (ofQuery q).result img = q.eval img := by
  induction q with
  | ret a => rfl
  | read first count next ih => exact ih _

@[simp] theorem ops_ofQuery (q : Query B E α) (img : ℕ → B) : (ofQuery q).ops img = [] := by
  induction q with
  | ret a => rfl
  | read first count next ih => exact ih _

instance : Monad (Prog B E) where
  pure := ret
  bind := bind

@[simp] theorem result_seq (p : Prog B E α) (f : α → Prog B E β) (img : ℕ → B) :
    (p >>= f).result img = (f (p.result img)).result (applyOps img (p.ops img)) :=
  result_bind p f img

@[simp] theorem ops_seq (p : Prog B E α) (f : α → Prog B E β) (img : ℕ → B) : (p >>= f).ops img =
      p.ops img ++ (f (p.result img)).ops (applyOps img (p.ops img)) :=
  ops_bind p f img

theorem run_nil (p : Prog B E α) (d : Disk B) :
    p.run [] d = .done (p.result d.current) (d.steps (p.ops d.current)) [] := by
  induction p generalizing d with
  | ret a => rfl
  | read first count next ih => exact ih _ _
  | write first blocks next ih =>
    rw [run,ih,Disk.current_write]
    rfl
  | flush next ih =>
    rw [run,ih]
    rfl

theorem run_bind_done {p : Prog B E α} {f : α → Prog B E β} {evs rest : List (Event E)}
    {d d' : Disk B} {b : β} (h : (p.bind f).run evs d = .done b d' rest) :
    ∃ a d1 evs1, p.run evs d = .done a d1 evs1 ∧ (f a).run evs1 d1 = .done b d' rest := by
  induction p generalizing evs d with
  | ret a => exact ⟨a,d,evs,rfl,h⟩
  | read first count next ih =>
    rcases evs with _ | ⟨_ | _ | _,evs⟩
    · exact ih _ h
    · exact ih _ h
    · exact ih _ h
    · cases h
  | write first blocks next ih =>
    rcases evs with _ | ⟨_ | _ | _,evs⟩
    · exact ih _ h
    · exact ih _ h
    · exact ih _ h
    · cases h
  | flush next ih =>
    rcases evs with _ | ⟨_ | _ | _,evs⟩
    · exact ih _ h
    · exact ih _ h
    · exact ih _ h
    · cases h

end Prog

end BlockIO
