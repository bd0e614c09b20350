import Zizium.BlockIO.Program

/-!
# Fallible commands

Status-returning code over a block device: `ReadM` only reads, `TaskM` also updates an in-memory
object that survives a failure, `IoM` may write.
-/

namespace BlockIO

variable {c : Prop} {m : Type → Type} {u : Unit} {n i : ℕ}

variable {B E σ α β : Type}

/-- A reading command: a value or the status of the first failed step. -/
structure ReadM (B E α : Type) where
  query : Query B E (Except E α)

/-- A reading command on an in-memory object; the object is kept when the command fails. -/
structure TaskM (B E σ α : Type) where
  query : σ → Query B E (Except E α × σ)

/-- A command that may write to the device. -/
structure IoM (B E α : Type) where
  prog : Prog B E (Except E α)

/-- Return a failure status when a condition holds. -/
def failIf {m : Type → Type} [Monad m] [MonadExcept E m] (c : Prop) [Decidable c] (e : E) :
    m Unit :=
  if c then throw e else pure ()

variable {_ : Decidable c} {e : E}

theorem failIf_neg [Monad m] [MonadExcept E m] (h : ¬c) :
    (failIf c e : m Unit) = pure () := if_neg h

theorem failIf_pos [Monad m] [MonadExcept E m] (h : c) : (failIf c e : m Unit) = throw e := if_pos h

/-! ### Status values -/

variable {a : α} {b : β}

theorem Except.bind_ok_iff {x : Except E α} {f : α → Except E β} :
    (x >>= f) = .ok b ↔ ∃ a, x = .ok a ∧ f a = .ok b := by
  cases x with
  | error e => simp [bind,Except.bind]
  | ok a => simp [bind,Except.bind]

theorem Except.failIf_ok_iff : (failIf c e : Except E Unit) = .ok u ↔ ¬c := by
  unfold failIf
  split
  · simp [*,throw,throwThe,MonadExceptOf.throw]
  · simp [*,pure,Except.pure]

theorem Except.ok_bind {f : α → Except E β} : ((.ok a : Except E α) >>= f) = f a := rfl

variable {f : Unit → Except E β}

theorem Except.failIf_bind_neg (h : ¬c) : (failIf c e >>= f) = f () := by
  rw [failIf_neg h]
  rfl

theorem Except.failIf_bind_pos (h : c) : (failIf c e >>= f) = .error e := by
  rw [failIf_pos h]
  rfl

theorem Except.unit_bind_ok_iff {x : Except E Unit} :
    (x >>= f) = .ok b ↔ x = .ok () ∧ f () = .ok b := by
  rw [bind_ok_iff]
  exact ⟨fun ⟨_,hx,hf⟩ => ⟨hx,hf⟩,fun ⟨hx,hf⟩ => ⟨(),hx,hf⟩⟩

theorem Except.failIf_bind_ok_iff : (failIf c e >>= f) = .ok b ↔ ¬c ∧ f () = .ok b := by
  rw [unit_bind_ok_iff,failIf_ok_iff]

theorem Except.cases_of_ok_iff {x : Except E Unit} {p : Prop} (h : x = .ok () ↔ p) :
    (∃ e, x = .error e ∧ ¬p) ∨ x = .ok () ∧ p := by
  cases x with
  | ok _ => exact .inr ⟨rfl,h.mp rfl⟩
  | error e => exact .inl ⟨e,rfl,fun hp => by cases h.mpr hp⟩

theorem Except.forM_ok_iff {f : α → Except E Unit} {l : List α} :
    l.forM f = .ok () ↔ ∀ a ∈ l, f a = .ok () := by
  induction l with
  | nil => simp [pure,Except.pure]
  | cons a l ih =>
    rw [List.forall_mem_cons,← ih]
    exact unit_bind_ok_iff

theorem Except.pure_ok_iff {b : α} : (pure a : Except E α) = .ok b ↔ b = a := by
  simp [pure,Except.pure,eq_comm]

@[simp] theorem Except.throw_ok_iff : ¬ (throw e : Except E α) = .ok a := by
  intro h
  cases h

/-! ### Reading commands -/

namespace ReadM

def eval (image : ℕ → B) (m : ReadM B E α) : Except E α := m.query.eval image

instance : Monad (ReadM B E) where
  pure a := ⟨.ret (.ok a)⟩
  bind m f := ⟨m.query.bind fun
    | .ok a => (f a).query
    | .error e => .ret (.error e)⟩

instance : MonadExceptOf E (ReadM B E) where
  throw e := ⟨.ret (.error e)⟩
  tryCatch m h := ⟨m.query.bind fun
    | .ok a => .ret (.ok a)
    | .error e => (h e).query⟩

/-- A computed status or value as a command. -/
def ofExcept (x : Except E α) : ReadM B E α := ⟨.ret x⟩

/-- Run a command and hand over its status instead of failing. -/
def attempt (m : ReadM B E α) : ReadM B E (Except E α) := ⟨m.query.bind fun r => .ret (.ok r)⟩

/-- Replace any failure status. -/
def orFail (m : ReadM B E α) (e : E) : ReadM B E α :=
  ⟨m.query.bind fun
    | .ok a => .ret (.ok a)
    | .error _ => .ret (.error e)⟩

def readBlocks (first count : ℕ) : ReadM B E (ℕ → B) := ⟨.read first count .ret⟩

/-- Run a command if a condition holds. -/
def when (c : Prop) [Decidable c] (m : ReadM B E Unit) : ReadM B E Unit := if c then m else pure ()

def loop (body : ℕ → σ → ReadM B E σ) : (n i : ℕ) → σ → ReadM B E σ
  | 0, _, s => pure s
  | n+1, i, s => do
    let s ← body i s
    loop body n (i+1) s

variable {img : ℕ → B}

@[simp] theorem eval_pure (a : α) : eval img (pure a : ReadM B E α) = .ok a := rfl

@[simp] theorem eval_throw (e : E) : eval img (throw e : ReadM B E α) = .error e := rfl

@[simp] theorem eval_ofExcept (x : Except E α) : eval img (ofExcept x : ReadM B E α) = x := rfl

theorem eval_bind (m : ReadM B E α) (f : α → ReadM B E β) :
    eval img (m >>= f) = (eval img m >>= fun a => eval img (f a)) := by
  show Query.eval (Query.bind _ _) img = _
  rw [Query.eval_bind]
  unfold eval
  cases m.query.eval img <;> rfl

@[simp] theorem eval_readBlocks (first count : ℕ) :
    eval img (readBlocks first count : ReadM B E _) = .ok fun i => img (first+i) := rfl

@[simp] theorem eval_attempt (m : ReadM B E α) :
    eval img (attempt m) = .ok (eval img m) := Query.eval_bind _ _ _

theorem eval_failIf : eval img (failIf c e : ReadM B E Unit) = if c then .error e else .ok () := by
  unfold failIf
  split <;> rfl

variable {m : ReadM B E α}

theorem eval_bind_of_ok {f : α → ReadM B E β} (h : eval img m = .ok a) :
    eval img (m >>= f) = eval img (f a) := by
  rw [eval_bind,h,Except.ok_bind]

theorem eval_bind_failIf_neg {f : Unit → ReadM B E β} (h : ¬c) :
    eval img (failIf c e >>= f) = eval img (f ()) :=
  eval_bind_of_ok (by rw [eval_failIf,if_neg h])

theorem eval_bind_failIf_pos {f : Unit → ReadM B E β} (h : c) :
    eval img (failIf c e >>= f) = .error e := by
  rw [eval_bind,eval_failIf,if_pos h]
  rfl

@[simp] theorem eval_ite (m n : ReadM B E α) :
    eval img (if c then m else n) = if c then eval img m else eval img n :=
  apply_ite _ _ _ _

theorem eval_orFail (m : ReadM B E α) (e : E) : eval img (m.orFail e) = match eval img m with
      | .ok a => .ok a
      | .error _ => .error e := by
  show Query.eval (Query.bind _ _) img = _
  rw [Query.eval_bind]
  unfold eval
  cases m.query.eval img <;> rfl

theorem bind_ok_iff {f : α → ReadM B E β} :
    eval img (m >>= f) = .ok b ↔ ∃ a, eval img m = .ok a ∧ eval img (f a) = .ok b := by
  rw [eval_bind,Except.bind_ok_iff]

theorem pure_ok_iff {b : α} : eval img (pure a : ReadM B E α) = .ok b ↔ b = a := by simp [eq_comm]

theorem failIf_ok_iff : eval img (failIf c e : ReadM B E Unit) = .ok u ↔ ¬c := by
  rw [eval_failIf]
  split <;> simp [*]

theorem failIf_bind_ok {f : Unit → ReadM B E β} (hc : ¬c)
    (h : eval img (f ()) = .ok b) : eval img (failIf c e >>= f) = .ok b :=
  bind_ok_iff.mpr ⟨(),failIf_ok_iff.mpr hc,h⟩

theorem orFail_ok_iff : eval img (m.orFail e) = .ok a ↔ eval img m = .ok a := by
  rw [eval_orFail]
  cases eval img m <;> simp

theorem loop_invariant {body : ℕ → σ → ReadM B E σ} (P : ℕ → σ → Prop) {s r : σ}
    (hstep : ∀ j s s', i ≤ j → j < i+n → P j s → eval img (body j s) = .ok s' → P (j+1) s')
    (hinit : P i s) (h : eval img (loop body n i s) = .ok r) : P (i+n) r := by
  induction n generalizing i s with
  | zero =>
    cases h
    exact hinit
  | succ n ih =>
    obtain ⟨s',hs',h⟩ := bind_ok_iff.mp h
    have hnext := hstep i s s' (Nat.le_refl _) (by omega) hinit hs'
    have := ih (fun j s s' hj hlt => hstep j s s' (by omega) (by omega)) hnext h
    rwa [Nat.add_right_comm] at this

theorem loop_unit_ok_iff {body : ℕ → ReadM B E Unit} :
    eval img (loop (fun j _ => body j) n i ()) = .ok () ↔
      ∀ j, i ≤ j → j < i+n → eval img (body j) = .ok () := by
  induction n generalizing i with
  | zero => exact ⟨fun _ j _ _ => by omega,fun _ => rfl⟩
  | succ n ih =>
    rw [loop,bind_ok_iff]
    constructor
    · rintro ⟨_,hfirst,hrest⟩ j hij hjn
      rcases Nat.eq_or_lt_of_le hij with rfl | hlt
      · exact hfirst
      · exact ih.mp hrest j hlt (by omega)
    · intro h
      refine ⟨(),h i (Nat.le_refl i) (by omega),ih.mpr fun j hij hjn => h j (by omega) (by omega)⟩

theorem eval_bind_congr {image' : ℕ → B} {m' : ReadM B E α} {f f' : α → ReadM B E β}
    (hm : eval img m = eval image' m')
    (hf : ∀ a, eval img m = .ok a → eval img (f a) = eval image' (f' a)) :
    eval img (m >>= f) = eval image' (m' >>= f') := by
  rw [eval_bind,eval_bind,← hm]
  cases ha : eval img m with
  | error e => rfl
  | ok a => exact hf a ha

theorem eval_loop_congr {image' : ℕ → B} {body body' : ℕ → σ → ReadM B E σ} {s : σ}
    (h : ∀ j s, i ≤ j → j < i+n → eval img (body j s) = eval image' (body' j s)) :
    eval img (loop body n i s) = eval image' (loop body' n i s) := by
  induction n generalizing i s with
  | zero => rfl
  | succ n ih =>
    exact eval_bind_congr (h i s (Nat.le_refl _) (by omega)) fun _ _ =>
      ih fun j s hij hjn => h j s (by omega) (by omega)

end ReadM

/-! ### Commands on an in-memory object -/

namespace TaskM

/-- The outcome and the final object on an image when no read fails. -/
def eval (image : ℕ → B) (m : TaskM B E σ α) (s : σ) : Except E α × σ := (m.query s).eval image

instance : Monad (TaskM B E σ) where
  pure a := ⟨fun s => .ret (.ok a, s)⟩
  bind m f := ⟨fun s => (m.query s).bind fun
    | (.ok a, s') => (f a).query s'
    | (.error e, s') => .ret (.error e, s')⟩

instance : MonadExceptOf E (TaskM B E σ) where
  throw e := ⟨fun s => .ret (.error e, s)⟩
  tryCatch m h := ⟨fun s => (m.query s).bind fun
    | (.ok a, s') => .ret (.ok a, s')
    | (.error e, s') => (h e).query s'⟩

/-- A reading command that leaves the object alone. -/
def lift (m : ReadM B E α) : TaskM B E σ α := ⟨fun s => m.query.bind fun r => .ret (r, s)⟩

def get : TaskM B E σ σ := ⟨fun s => .ret (.ok s, s)⟩

def modify (f : σ → σ) : TaskM B E σ Unit := ⟨fun s => .ret (.ok (), f s)⟩

/-- On failure apply a clean-up to the object and keep the status. -/
def onFailure (m : TaskM B E σ α) (cleanup : σ → σ) : TaskM B E σ α :=
  ⟨fun s => (m.query s).bind fun
    | (.ok a, s') => .ret (.ok a, s')
    | (.error e, s') => .ret (.error e, cleanup s')⟩

/-- Run a command if a condition holds. -/
def when (c : Prop) [Decidable c] (m : TaskM B E σ Unit) : TaskM B E σ Unit :=
  if c then m else pure ()

def loop {τ : Type} (body : ℕ → τ → TaskM B E σ τ) : (n i : ℕ) → τ → TaskM B E σ τ
  | 0, _, t => pure t
  | n+1, i, t => do
    let t ← body i t
    loop body n (i+1) t

variable {img : ℕ → B} {s s' : σ}

@[simp] theorem eval_pure (a : α) : eval img (pure a : TaskM B E σ α) s = (.ok a, s) := rfl

@[simp] theorem eval_throw (e : E) : eval img (throw e : TaskM B E σ α) s = (.error e, s) := rfl

@[simp] theorem eval_lift (m : ReadM B E α) :
    eval img (lift m : TaskM B E σ α) s = (ReadM.eval img m, s) := Query.eval_bind _ _ _

@[simp] theorem eval_modify (f : σ → σ) :
    eval img (modify f : TaskM B E σ Unit) s = (.ok (), f s) := rfl

theorem eval_bind (m : TaskM B E σ α) (f : α → TaskM B E σ β) :
    eval img (m >>= f) s = match eval img m s with
      | (.ok a, s') => eval img (f a) s'
      | (.error e, s') => (.error e, s') := by
  show Query.eval (Query.bind _ _) img = _
  rw [Query.eval_bind]
  unfold eval
  rcases (m.query s).eval img with ⟨_ | _,_⟩ <;> rfl

theorem bind_ok_iff {m : TaskM B E σ α} {f : α → TaskM B E σ β} :
    eval img (m >>= f) s = (.ok b, s') ↔
      ∃ a t, eval img m s = (.ok a, t) ∧ eval img (f a) t = (.ok b, s') := by
  rw [eval_bind]
  rcases eval img m s with ⟨_ | _,_⟩ <;> simp

theorem failIf_ok_iff : eval img (failIf c e : TaskM B E σ Unit) s = (.ok u, s') ↔ ¬c ∧ s' = s := by
  unfold failIf
  split <;> simp [*,eq_comm]

theorem lift_ok_iff {m : ReadM B E α} : eval img (lift m : TaskM B E σ α) s = (.ok a, s') ↔
      ReadM.eval img m = .ok a ∧ s' = s := by
  rw [eval_lift,Prod.mk.injEq,eq_comm (a := s)]

theorem modify_ok_iff {f : σ → σ} :
    eval img (modify f : TaskM B E σ Unit) s = (.ok u, s') ↔ s' = f s := by
  simp [eq_comm]

theorem pure_ok_iff {b : α} :
    eval img (pure a : TaskM B E σ α) s = (.ok b, s') ↔ b = a ∧ s' = s := by
  simp [eq_comm]

theorem get_bind_ok_iff {f : σ → TaskM B E σ β} :
    eval img (get >>= f) s = (.ok b, s') ↔ eval img (f s) s = (.ok b, s') := Iff.rfl

theorem modify_bind_ok_iff {g : σ → σ} {f : Unit → TaskM B E σ β} :
    eval img (modify g >>= f) s = (.ok b, s') ↔ eval img (f ()) (g s) = (.ok b, s') := Iff.rfl

theorem failIf_bind_ok_iff {f : Unit → TaskM B E σ β} :
    eval img (failIf c e >>= f) s = (.ok b, s') ↔ ¬c ∧ eval img (f ()) s = (.ok b, s') := by
  rw [bind_ok_iff]
  simp only [failIf_ok_iff]
  constructor
  · rintro ⟨_,_,⟨hc,rfl⟩,h⟩
    exact ⟨hc,h⟩
  · rintro ⟨hc,h⟩
    exact ⟨(),s,⟨hc,rfl⟩,h⟩

theorem lift_bind_ok_iff {m : ReadM B E α} {f : α → TaskM B E σ β} :
    eval img (lift m >>= f) s = (.ok b, s') ↔
      ∃ a, ReadM.eval img m = .ok a ∧ eval img (f a) s = (.ok b, s') := by
  rw [bind_ok_iff]
  simp only [lift_ok_iff]
  constructor
  · rintro ⟨a,_,⟨ha,rfl⟩,h⟩
    exact ⟨a,ha,h⟩
  · rintro ⟨a,ha,h⟩
    exact ⟨a,s,⟨ha,rfl⟩,h⟩

theorem eval_onFailure (m : TaskM B E σ α) (cleanup : σ → σ) :
    eval img (m.onFailure cleanup) s = match eval img m s with
      | (.ok a, s') => (.ok a, s')
      | (.error e, s') => (.error e, cleanup s') := by
  show Query.eval (Query.bind _ _) img = _
  rw [Query.eval_bind]
  unfold eval
  rcases (m.query s).eval img with ⟨_ | _,_⟩ <;> rfl

theorem onFailure_ok_iff {m : TaskM B E σ α} {cleanup : σ → σ} :
    eval img (m.onFailure cleanup) s = (.ok a, s') ↔ eval img m s = (.ok a, s') := by
  rw [eval_onFailure]
  rcases eval img m s with ⟨_ | _,_⟩ <;> simp

theorem loop_invariant {τ : Type} {body : ℕ → τ → TaskM B E σ τ} (P : ℕ → τ → σ → Prop) {t r : τ}
    (hstep : ∀ j t s t' s', i ≤ j → j < i+n → P j t s → eval img (body j t) s = (.ok t', s') →
      P (j+1) t' s')
    (hinit : P i t s) (h : eval img (loop body n i t) s = (.ok r, s')) : P (i+n) r s' := by
  induction n generalizing i t s with
  | zero =>
    cases h
    exact hinit
  | succ n ih =>
    obtain ⟨t',s'',ht',h⟩ := bind_ok_iff.mp h
    have hnext := hstep i t s t' s'' (Nat.le_refl _) (by omega) hinit ht'
    have := ih (fun j t s t' s' hj hlt => hstep j t s t' s' (by omega) (by omega)) hnext h
    rwa [Nat.add_right_comm] at this

end TaskM

/-! ### Commands that write -/

namespace IoM

instance : Monad (IoM B E) where
  pure a := ⟨.ret (.ok a)⟩
  bind m f := ⟨m.prog.bind fun
    | .ok a => (f a).prog
    | .error e => .ret (.error e)⟩

instance : MonadExceptOf E (IoM B E) where
  throw e := ⟨.ret (.error e)⟩
  tryCatch m h := ⟨m.prog.bind fun
    | .ok a => .ret (.ok a)
    | .error e => (h e).prog⟩

/-- A computed status or value as a command. -/
def ofExcept (x : Except E α) : IoM B E α := ⟨.ret x⟩

def write (first : ℕ) (blocks : List B) : IoM B E Unit := ⟨.write first blocks .ret⟩

def flush : IoM B E Unit := ⟨.flush .ret⟩

/-- Run a command for each element of a list. -/
def forEach {τ : Type} (body : τ → IoM B E Unit) : List τ → IoM B E Unit
  | [] => pure ()
  | t :: ts => do
    body t
    forEach body ts

/-- The outcome when every device operation succeeds. -/
def result (m : IoM B E α) (image : ℕ → B) : Except E α := m.prog.result image

/-- The operations issued when every device operation succeeds. -/
def ops (m : IoM B E α) (image : ℕ → B) : List (Op B) := m.prog.ops image

variable {img : ℕ → B}

@[simp] theorem result_write (first : ℕ) (blocks : List B) :
    (write first blocks : IoM B E Unit).result img = .ok () := rfl

@[simp] theorem ops_write (first : ℕ) (blocks : List B) :
    (write first blocks : IoM B E Unit).ops img = [.write first blocks] := rfl

theorem result_bind (m : IoM B E α) (f : α → IoM B E β) : (m >>= f).result img =
      (m.result img >>= fun a => (f a).result (applyOps img (m.ops img))) := by
  show Prog.result (Prog.bind _ _) img = _
  rw [Prog.result_bind]
  unfold result ops
  cases m.prog.result img <;> rfl

theorem ops_bind (m : IoM B E α) (f : α → IoM B E β) :
    (m >>= f).ops img = m.ops img ++ match m.result img with
      | .ok a => (f a).ops (applyOps img (m.ops img))
      | .error _ => [] := by
  show Prog.ops (Prog.bind _ _) img = _
  rw [Prog.ops_bind]
  unfold result ops
  cases m.prog.result img <;> rfl

theorem ops_bind_ok {m : IoM B E α} {f : α → IoM B E β} (h : m.result img = .ok a) :
    (m >>= f).ops img = m.ops img ++ (f a).ops (applyOps img (m.ops img)) := by
  rw [ops_bind,h]

theorem result_bind_ok {m : IoM B E α} {f : α → IoM B E β} (h : m.result img = .ok a) :
    (m >>= f).result img = (f a).result (applyOps img (m.ops img)) := by
  rw [result_bind,h]
  rfl

theorem failIf_bind_neg {f : Unit → IoM B E β} (h : ¬c) : (failIf c e >>= f) = f () := by
  rw [failIf_neg h]
  rfl

end IoM

end BlockIO
