import Zizium.BlockIO.Reaches

/-!
# Runs that end in success

A command that handles no failure ends in success only if every operation it issued did.
-/

namespace BlockIO

variable {B E σ α β : Type} {events rest : List (Event E)} {d d' : Disk B}

theorem Prog.ofQuery_bind (q : Query B E α) (f : α → Query B E β) :
    ofQuery (q.bind f) = (ofQuery q).bind fun a => ofQuery (f a) := by
  induction q with
  | ret a => rfl
  | read first count next ih =>
    simp only [Query.bind,ofQuery,bind]
    congr 1
    funext answer
    exact ih answer

namespace ReadM

/-- A success is what the command computes on the image that the device shows. -/
def Strict (m : ReadM B E α) : Prop :=
  ∀ ⦃events d a d' rest⦄, (Prog.ofQuery m.query).run events d = .done (.ok a) d' rest →
    d' = d ∧ m.eval d.current = .ok a

namespace Strict

theorem ofExcept (x : Except E α) : Strict (ofExcept x : ReadM B E α) := by
  intro events d a d' rest h
  cases x with
  | error e => cases h
  | ok b =>
    cases h
    exact ⟨rfl,rfl⟩

theorem pure (a : α) : Strict (pure a : ReadM B E α) := ofExcept (.ok a)

theorem throw (e : E) : Strict (throw e : ReadM B E α) := ofExcept (.error e)

theorem failIf {c : Prop} {_ : Decidable c} {e : E} : Strict (failIf c e : ReadM B E Unit) := by
  by_cases hc : c
  · rw [failIf_pos hc]
    exact throw e
  · rw [failIf_neg hc]
    exact pure ()

theorem readBlocks (first count : ℕ) : Strict (readBlocks first count : ReadM B E _) := by
  intro events d a d' rest h
  rcases events with _ | ⟨_ | _ | _,events⟩ <;> cases h <;> exact ⟨rfl,rfl⟩

theorem bind {m : ReadM B E α} {f : α → ReadM B E β} (hm : Strict m) (hf : ∀ a, Strict (f a)) :
    Strict (m >>= f) := by
  intro events d b d' rest h
  have hquery : Prog.ofQuery (m >>= f).query = _ := Prog.ofQuery_bind m.query _
  rw [hquery] at h
  obtain ⟨r,d1,events1,hfirst,hsecond⟩ := Prog.run_bind_done h
  cases r with
  | error e => cases hsecond
  | ok a =>
    obtain ⟨rfl,ha⟩ := hm hfirst
    obtain ⟨rfl,hb⟩ := hf a hsecond
    exact ⟨rfl,bind_ok_iff.mpr ⟨a,ha,hb⟩⟩

theorem loop {body : ℕ → σ → ReadM B E σ} (hbody : ∀ i s, Strict (body i s)) (n i : ℕ) (s : σ) :
    Strict (loop body n i s) := by
  induction n generalizing i s with
  | zero => exact pure s
  | succ n ih => exact (hbody i s).bind fun s' => ih (i+1) s'

end Strict

end ReadM

namespace IoM

theorem run_failIf_bind_ok {c : Prop} {_ : Decidable c} {e : E} {f : Unit → IoM B E β} {b : β}
    (h : (failIf c e >>= f).prog.run events d = .done (.ok b) d' rest) :
    ¬c ∧ (f ()).prog.run events d = .done (.ok b) d' rest := by
  by_cases hc : c
  · rw [failIf_pos hc] at h
    cases h
  · rw [failIf_bind_neg hc] at h
    exact ⟨hc,h⟩

theorem run_ofExcept_bind_ok {x : Except E α} {f : α → IoM B E β} {b : β}
    (h : (ofExcept x >>= f).prog.run events d = .done (.ok b) d' rest) :
    ∃ a, x = .ok a ∧ (f a).prog.run events d = .done (.ok b) d' rest := by
  cases x with
  | error e => cases h
  | ok a => exact ⟨a,rfl,h⟩

theorem run_write_ok {first : ℕ} {blocks : List B} {u : Unit}
    (h : (write first blocks : IoM B E Unit).prog.run events d = .done (.ok u) d' rest) :
    d' = d.write first blocks := by
  rcases events with _ | ⟨_ | _ | _,events⟩ <;> cases h <;> rfl

theorem run_flush_ok {u : Unit}
    (h : (flush : IoM B E Unit).prog.run events d = .done (.ok u) d' rest) : d' = d.sync := by
  rcases events with _ | ⟨_ | _ | _,events⟩ <;> cases h <;> rfl

end IoM

end BlockIO
