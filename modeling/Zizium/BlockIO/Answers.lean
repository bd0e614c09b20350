import Zizium.BlockIO.Command

/-!
# Arbitrary answers of the device

What reading commands can return when the device answers every read as it likes, with failures
included.
-/

namespace BlockIO

variable {B E σ τ α β : Type} {a : α} {b : β} {c : Prop} {_ : Decidable c} {e : E}

namespace Query

/-- Some answers of the device lead to the value. -/
inductive Returns : Query B E α → α → Prop where
  | ret (a : α) : Returns (.ret a) a
  | read {first count : ℕ} {next : Except E (ℕ → B) → Query B E α} {a : α}
      (answer : Except E (ℕ → B)) (h : Returns (next answer) a) : Returns (.read first count next) a

theorem returns_ret_iff {b : α} : (ret a : Query B E α).Returns b ↔ b = a := by
  constructor
  · intro h
    cases h
    rfl
  · rintro rfl
    exact .ret b

theorem returns_read_iff {first count : ℕ} {next : Except E (ℕ → B) → Query B E α} :
    (read first count next).Returns a ↔ ∃ answer, (next answer).Returns a := by
  constructor
  · intro h
    cases h with
    | read answer h => exact ⟨answer,h⟩
  · rintro ⟨answer,h⟩
    exact .read answer h

theorem returns_bind_iff {q : Query B E α} {f : α → Query B E β} :
    (q.bind f).Returns b ↔ ∃ a, q.Returns a ∧ (f a).Returns b := by
  induction q with
  | ret a => simp [bind,returns_ret_iff]
  | read first count next ih =>
    rw [bind,returns_read_iff]
    constructor
    · rintro ⟨answer,h⟩
      obtain ⟨a,ha,hb⟩ := (ih answer).mp h
      exact ⟨a,.read answer ha,hb⟩
    · rintro ⟨a,ha,hb⟩
      obtain ⟨answer,ha⟩ := returns_read_iff.mp ha
      exact ⟨answer,(ih answer).mpr ⟨a,ha,hb⟩⟩

theorem returns_eval (q : Query B E α) (img : ℕ → B) : q.Returns (q.eval img) := by
  induction q with
  | ret a => exact .ret a
  | read first count next ih => exact .read _ (ih _)

end Query

theorem Prog.run_ofQuery (q : Query B E α) (events : List (Event E)) (d : Disk B) :
    (∃ a rest, (ofQuery q).run events d = .done a d rest ∧ q.Returns a) ∨
      ∃ rest, (ofQuery q).run events d = .crashed d rest := by
  induction q generalizing events with
  | ret a => exact .inl ⟨a,events,rfl,.ret a⟩
  | read first count next ih =>
    have hnext : ∀ answer rest, (∃ a rest', (ofQuery (next answer)).run rest d = .done a d rest' ∧
          (Query.read first count next).Returns a) ∨
        ∃ rest', (ofQuery (next answer)).run rest d = .crashed d rest' := by
      intro answer rest
      rcases ih answer rest with ⟨a,rest',hrun,ha⟩ | hcrash
      · exact .inl ⟨a,rest',hrun,.read answer ha⟩
      · exact .inr hcrash
    cases events with
    | nil => exact hnext _ []
    | cons event rest =>
      cases event with
      | ok => exact hnext _ rest
      | fail e reached => exact hnext _ rest
      | crash => exact .inr ⟨rest,rfl⟩

theorem Prog.returns_of_run {q : Query B E α} {events rest : List (Event E)} {d d' : Disk B}
    (h : (ofQuery q).run events d = .done a d' rest) : q.Returns a := by
  rcases run_ofQuery q events d with ⟨b,rest',hrun,hb⟩ | ⟨rest',hrun⟩
  · cases hrun.symm.trans h
    exact hb
  · cases hrun.symm.trans h

theorem Prog.disk_of_run {q : Query B E α} {events rest : List (Event E)} {d d' : Disk B}
    (h : (ofQuery q).run events d = .done a d' rest) : d' = d := by
  rcases run_ofQuery q events d with ⟨b,rest',hrun,-⟩ | ⟨rest',hrun⟩
  · cases hrun.symm.trans h
    rfl
  · cases hrun.symm.trans h

/-! ### Reading commands -/

namespace ReadM

/-- Some answers of the device lead to the outcome. -/
def Returns (m : ReadM B E α) (r : Except E α) : Prop := m.query.Returns r

theorem returns_eval (m : ReadM B E α) (img : ℕ → B) : m.Returns (m.eval img) :=
  m.query.returns_eval img

variable {r : Except E α} {m : ReadM B E α}

theorem returns_pure_iff : (pure a : ReadM B E α).Returns r ↔ r = .ok a :=
  Query.returns_ret_iff

theorem returns_throw_iff :
    (throw e : ReadM B E α).Returns r ↔ r = .error e := Query.returns_ret_iff

theorem returns_ofExcept_iff {x : Except E α} : (ofExcept x : ReadM B E α).Returns r ↔ r = x :=
  Query.returns_ret_iff

theorem returns_bind_ok_iff {f : α → ReadM B E β} :
    (m >>= f).Returns (.ok b) ↔ ∃ a, m.Returns (.ok a) ∧ (f a).Returns (.ok b) := by
  refine Query.returns_bind_iff.trans ?_
  constructor
  · rintro ⟨r,hr,hb⟩
    cases r with
    | error e => cases hb
    | ok a => exact ⟨a,hr,hb⟩
  · rintro ⟨a,ha,hb⟩
    exact ⟨.ok a,ha,hb⟩

theorem returns_failIf_ok_iff {u : Unit} : (failIf c e : ReadM B E Unit).Returns (.ok u) ↔ ¬ c := by
  by_cases hc : c
  · rw [failIf_pos hc,returns_throw_iff]
    simp [hc]
  · rw [failIf_neg hc,returns_pure_iff]
    simp [hc]

theorem returns_attempt_iff : m.attempt.Returns (.ok r) ↔ m.Returns r := by
  refine Query.returns_bind_iff.trans ?_
  constructor
  · rintro ⟨r',hr',h⟩
    cases h
    exact hr'
  · intro h
    exact ⟨r,h,.ret _⟩

theorem returns_orFail_ok_iff : (m.orFail e).Returns (.ok a) ↔ m.Returns (.ok a) := by
  refine Query.returns_bind_iff.trans ?_
  constructor
  · rintro ⟨r,hr,h⟩
    cases r with
    | error e' => cases Query.returns_ret_iff.mp h
    | ok b =>
      cases Query.returns_ret_iff.mp h
      exact hr
  · intro h
    exact ⟨_,h,.ret _⟩

theorem returns_loop {body : ℕ → σ → ReadM B E σ} (P : σ → Prop) {n i : ℕ} {s r : σ}
    (hbody : ∀ j t t', j < i+n → P t → (body j t).Returns (.ok t') → P t') (hs : P s)
    (h : (loop body n i s).Returns (.ok r)) : P r := by
  induction n generalizing i s with
  | zero =>
    cases returns_pure_iff.mp h
    exact hs
  | succ n ih =>
    obtain ⟨t,ht,h⟩ := returns_bind_ok_iff.mp h
    exact ih (fun j t t' hj => hbody j t t' (by omega)) (hbody i s t (by omega) hs ht) h

end ReadM

/-! ### Commands on an in-memory object -/

namespace TaskM

/-- Some answers of the device lead to the outcome and the object. -/
def Returns (m : TaskM B E σ α) (s : σ) (r : Except E α) (s' : σ) : Prop :=
  (m.query s).Returns (r, s')

variable {s s' : σ} {m : TaskM B E σ α} {f : α → TaskM B E σ β} {r : Except E β}

theorem returns_eval (m : TaskM B E σ α) (img : ℕ → B) (s : σ) :
    m.Returns s (m.eval img s).1 (m.eval img s).2 := (m.query s).returns_eval img

theorem returns_pure_iff {r : Except E α} :
    (pure a : TaskM B E σ α).Returns s r s' ↔ r = .ok a ∧ s' = s := by
  refine Query.returns_ret_iff.trans ?_
  rw [Prod.mk.injEq]

theorem returns_throw_iff {r : Except E α} :
    (throw e : TaskM B E σ α).Returns s r s' ↔ r = .error e ∧ s' = s := by
  refine Query.returns_ret_iff.trans ?_
  rw [Prod.mk.injEq]

theorem returns_get_iff {r : Except E σ} :
    (get : TaskM B E σ σ).Returns s r s' ↔ r = .ok s ∧ s' = s := by
  refine Query.returns_ret_iff.trans ?_
  rw [Prod.mk.injEq]

theorem returns_modify_iff {f : σ → σ} {r : Except E Unit} :
    (modify f : TaskM B E σ Unit).Returns s r s' ↔ r = .ok () ∧ s' = f s := by
  refine Query.returns_ret_iff.trans ?_
  rw [Prod.mk.injEq]

theorem returns_lift_iff {m : ReadM B E α} {r : Except E α} :
    (lift m : TaskM B E σ α).Returns s r s' ↔ m.Returns r ∧ s' = s := by
  refine Query.returns_bind_iff.trans ?_
  constructor
  · rintro ⟨r',hr',h⟩
    obtain ⟨rfl,rfl⟩ := Prod.mk.inj (Query.returns_ret_iff.mp h)
    exact ⟨hr',rfl⟩
  · rintro ⟨h,rfl⟩
    exact ⟨r,h,.ret _⟩

theorem returns_bind_iff :
    (m >>= f).Returns s r s' ↔ (∃ e, m.Returns s (.error e) s' ∧ r = .error e) ∨
        ∃ a t, m.Returns s (.ok a) t ∧ (f a).Returns t r s' := by
  refine Query.returns_bind_iff.trans ?_
  constructor
  · rintro ⟨⟨r',t⟩,hm,h⟩
    cases r' with
    | error e =>
      obtain ⟨rfl,rfl⟩ := Prod.mk.inj (Query.returns_ret_iff.mp h)
      exact .inl ⟨e,hm,rfl⟩
    | ok a => exact .inr ⟨a,t,hm,h⟩
  · rintro (⟨e,hm,rfl⟩ | ⟨a,t,hm,h⟩)
    · exact ⟨(.error e, s'),hm,.ret _⟩
    · exact ⟨(.ok a, t),hm,h⟩

theorem returns_failIf_bind_iff {f : Unit → TaskM B E σ β} : (failIf c e >>= f).Returns s r s' ↔
      c ∧ r = .error e ∧ s' = s ∨ ¬ c ∧ (f ()).Returns s r s' := by
  by_cases hc : c
  · rw [failIf_pos hc,returns_bind_iff]
    simp [hc,returns_throw_iff,and_comm]
  · rw [failIf_neg hc,returns_bind_iff]
    simp [hc,returns_pure_iff,Unique.exists_iff]

theorem returns_get_bind_iff {f : σ → TaskM B E σ β} :
    (get >>= f).Returns s r s' ↔ (f s).Returns s r s' := by
  rw [returns_bind_iff]
  simp [returns_get_iff]

theorem returns_modify_bind_iff {g : σ → σ} {f : Unit → TaskM B E σ β} :
    (modify g >>= f).Returns s r s' ↔ (f ()).Returns (g s) r s' := by
  rw [returns_bind_iff]
  simp [returns_modify_iff,Unique.exists_iff]

theorem returns_lift_bind_iff {m : ReadM B E α} :
    (lift m >>= f).Returns s r s' ↔ (∃ e, m.Returns (.error e) ∧ r = .error e ∧ s' = s) ∨
      ∃ a, m.Returns (.ok a) ∧ (f a).Returns s r s' := by
  rw [returns_bind_iff]
  simp only [returns_lift_iff]
  refine or_congr (exists_congr fun e => ⟨?_,?_⟩) (exists_congr fun a => ⟨?_,?_⟩)
  · rintro ⟨⟨hm,hs⟩,hr⟩
    exact ⟨hm,hr,hs⟩
  · rintro ⟨hm,hr,hs⟩
    exact ⟨⟨hm,hs⟩,hr⟩
  · rintro ⟨t,⟨hm,rfl⟩,hf⟩
    exact ⟨hm,hf⟩
  · rintro ⟨hm,hf⟩
    exact ⟨s,⟨hm,rfl⟩,hf⟩

theorem returns_onFailure_iff {cleanup : σ → σ} {r : Except E α} :
    (m.onFailure cleanup).Returns s r s' ↔
      (∃ e t, m.Returns s (.error e) t ∧ r = .error e ∧ s' = cleanup t) ∨
        ∃ a, m.Returns s (.ok a) s' ∧ r = .ok a := by
  refine Query.returns_bind_iff.trans ?_
  constructor
  · rintro ⟨⟨r',t⟩,hm,h⟩
    cases r' with
    | error e =>
      obtain ⟨rfl,rfl⟩ := Prod.mk.inj (Query.returns_ret_iff.mp h)
      exact .inl ⟨e,t,hm,rfl,rfl⟩
    | ok a =>
      obtain ⟨rfl,rfl⟩ := Prod.mk.inj (Query.returns_ret_iff.mp h)
      exact .inr ⟨a,hm,rfl⟩
  · rintro (⟨e,t,hm,rfl,rfl⟩ | ⟨a,hm,rfl⟩)
    · exact ⟨(.error e, t),hm,.ret _⟩
    · exact ⟨(.ok a, s'),hm,.ret _⟩

/-- On every exit, with success or without, the object is related to the one before. -/
def Keeps (R : σ → σ → Prop) (m : TaskM B E σ α) : Prop :=
  ∀ ⦃s r s'⦄, m.Returns s r s' → R s s'

namespace Keeps

variable {R : σ → σ → Prop} [Std.Refl R]

theorem pure (a : α) : Keeps R (pure a : TaskM B E σ α) := by
  intro s r s' h
  obtain ⟨-,rfl⟩ := returns_pure_iff.mp h
  exact Std.Refl.refl s'

theorem throw (e : E) : Keeps R (throw e : TaskM B E σ α) := by
  intro s r s' h
  obtain ⟨-,rfl⟩ := returns_throw_iff.mp h
  exact Std.Refl.refl s'

omit [Std.Refl R] in
theorem modify {f : σ → σ} (hf : ∀ s, R s (f s)) : Keeps R (modify f : TaskM B E σ Unit) := by
  intro s r s' h
  obtain ⟨-,rfl⟩ := returns_modify_iff.mp h
  exact hf s

omit [Std.Refl R] in
theorem bind [IsTrans σ R] (hm : Keeps R m)
    (hf : ∀ a, (∃ s s', m.Returns s (.ok a) s') → Keeps R (f a)) : Keeps R (m >>= f) := by
  intro s r s' h
  rcases returns_bind_iff.mp h with ⟨e,he,-⟩ | ⟨a,t,ha,h⟩
  · exact hm he
  · exact IsTrans.trans _ _ _ (hm ha) (hf a ⟨s,t,ha⟩ h)

theorem failIf_bind {f : Unit → TaskM B E σ β}
    (hf : ¬ c → Keeps R (f ())) : Keeps R (failIf c e >>= f) := by
  intro s r s' h
  rcases returns_failIf_bind_iff.mp h with ⟨-,-,rfl⟩ | ⟨hc,h⟩
  · exact Std.Refl.refl s'
  · exact hf hc h

theorem lift_bind {m : ReadM B E α}
    (hf : ∀ a, m.Returns (.ok a) → Keeps R (f a)) : Keeps R (lift m >>= f) := by
  intro s r s' h
  rcases returns_lift_bind_iff.mp h with ⟨e,-,-,rfl⟩ | ⟨a,ha,h⟩
  · exact Std.Refl.refl s'
  · exact hf a ha h

omit [Std.Refl R] in
theorem get_bind {f : σ → TaskM B E σ β} (hf : ∀ s, Keeps R (f s)) : Keeps R (get >>= f) := by
  intro s r s' h
  exact hf s (returns_get_bind_iff.mp h)

theorem when {c : Prop} [Decidable c] {m : TaskM B E σ Unit} (hm : c → Keeps R m) :
    Keeps R (when c m) := by
  rw [TaskM.when]
  split
  · next hc => exact hm hc
  · exact .pure ()

theorem loop [IsTrans σ R] {body : ℕ → τ → TaskM B E σ τ} {n i : ℕ} {t : τ}
    (hbody : ∀ j t, i ≤ j → j < i+n → Keeps R (body j t)) : Keeps R (loop body n i t) := by
  induction n generalizing i t with
  | zero => exact .pure t
  | succ n ih =>
    exact (hbody i t (by omega) (by omega)).bind fun t' _ =>
      ih fun j t h1 h2 => hbody j t (by omega) (by omega)

end Keeps

end TaskM

end BlockIO
