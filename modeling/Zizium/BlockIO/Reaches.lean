import Zizium.BlockIO.Command

/-!
# Commands on a device without failures

On a device that does what it is asked, `Completes` gives the result and the final image of a
command, and `Reaches` what is left of it once its first steps are done.
-/

namespace BlockIO

variable {B E α β τ : Type}

namespace IoM

/-- The command completes with a value and leaves an image behind. -/
structure Completes (m : IoM B E α) (image : ℕ → B) (a : α) (image' : ℕ → B) : Prop where
  result : m.result image = .ok a
  image : applyOps image (m.ops image) = image'

/-- What is left of a command once its first steps have led to another image. -/
structure Reaches (m : IoM B E α) (image : ℕ → B) (m' : IoM B E α) (image' : ℕ → B) : Prop where
  result : m.result image = m'.result image'
  image : applyOps image (m.ops image) = applyOps image' (m'.ops image')

variable {img image' image'' : ℕ → B} {m m' m'' : IoM B E α} {a : α}

namespace Completes

theorem pure (a : α) : Completes (pure a : IoM B E α) img a img := ⟨rfl,rfl⟩

theorem ofExcept {x : Except E α} (h : x = .ok a) : Completes (ofExcept x) img a img := ⟨h,rfl⟩

theorem write (first : ℕ) (blocks : List B) : Completes (write first blocks : IoM B E Unit) img ()
      (applyWrites img (place first blocks)) := ⟨rfl,rfl⟩

theorem flush : Completes (flush : IoM B E Unit) img () img := ⟨rfl,rfl⟩

theorem reaches (h : Completes m img a image') (f : α → IoM B E β) :
    Reaches (m >>= f) img (f a) image' := by
  refine ⟨?_,?_⟩
  · rw [result_bind_ok h.result,h.image]
  · rw [ops_bind_ok h.result,applyOps_append,h.image]

theorem bind {f : α → IoM B E β} {b : β} (h : Completes m img a image')
    (h' : Completes (f a) image' b image'') : Completes (m >>= f) img b image'' := by
  have hreaches := h.reaches f
  exact ⟨hreaches.result.trans h'.result,hreaches.image.trans h'.image⟩

theorem forEach_write (ws : List (ℕ × B)) :
    Completes (forEach (fun w => IoM.write w.1 [w.2]) ws : IoM B E Unit) img ()
      (applyWrites img ws) := by
  induction ws generalizing img with
  | nil => exact .pure ()
  | cons w ws ih => exact (write w.1 [w.2]).bind ih

end Completes

namespace Reaches

theorem trans (h : Reaches m img m' image') (h' : Reaches m' image' m'' image'') :
    Reaches m img m'' image'' := ⟨h.result.trans h'.result,h.image.trans h'.image⟩

theorem completes (h : Reaches m img m' image') (h' : Completes m' image' a image'') :
    Completes m img a image'' := ⟨h.result.trans h'.result,h.image.trans h'.image⟩

end Reaches

theorem run_bind_ok {f : α → IoM B E β} {events rest : List (Event E)} {d d' : Disk B} {b : β}
    (h : (m >>= f).prog.run events d = .done (.ok b) d' rest) :
    ∃ a d1 events1, m.prog.run events d = .done (.ok a) d1 events1 ∧
      (f a).prog.run events1 d1 = .done (.ok b) d' rest := by
  obtain ⟨r,d1,events1,hfirst,h⟩ := Prog.run_bind_done h
  cases r with
  | error e => cases h
  | ok a => exact ⟨a,d1,events1,hfirst,h⟩

theorem bind_of_fails {f : α → IoM B E β} {e : E} (h : m.result img = .error e)
    (hops : m.ops img = []) : (m >>= f).result img = .error e ∧ (m >>= f).ops img = [] := by
  refine ⟨?_,?_⟩
  · rw [result_bind,h]
    rfl
  · rw [ops_bind,h,hops]
    rfl

end IoM

end BlockIO
