import Zizium.Executive.HandleLifetime

/-!
# Runs of the handle calls

What holds in every state that calls on objects and handles can reach, whatever their interleaving.
-/

namespace Zizium

open BlockIO RefCount HandleTask List HandleState Function Except Option

/-! ## Tables that are closed for good -/

namespace ZiHandleTable

def ClosedBelow (table : ZiHandleTable) (index : ℕ) : Prop :=
  table.isClosing = true ∧
    ∀ j entry, j < index → table.entries[j]? = some entry → entry.inUse = false

def Emptied (table : ZiHandleTable) : Prop :=
  table.isClosing = true ∧ ∀ entry ∈ table.entries, entry.inUse = false

variable {table table' : ZiHandleTable} {i found : ℕ} {entry : ZiHandleTableEntry}

theorem clear_getElem? (gen j : ℕ) (hj : (table.clear i gen).entries[j]? = some entry) :
    (j = i ∧ entry.inUse = false) ∨ (j ≠ i ∧ table.entries[j]? = some entry) := by
  rw [clear] at hj
  by_cases heq : j = i
  · subst heq
    rw [getElem?_set_self'] at hj
    obtain ⟨old,-,rfl⟩ := map_eq_some_iff.mp hj
    exact .inl ⟨rfl,by simp [ZiHandleTableEntry.inUse]⟩
  · rw [getElem?_set_ne (Ne.symm heq)] at hj
    exact .inr ⟨heq,hj⟩

theorem ClosedBelow.step (h : table.ClosedBelow i) (hstep : table.Step table') :
    table'.ClosedBelow i := by
  cases hstep with
  | stay => exact h
  | fill i entry obj granted hopen =>
    rw [h.1] at hopen
    cases hopen
  | clear found entry isClosing hclosing hentry =>
    refine ⟨hclosing h.1,fun j other hj hother => ?_⟩
    rcases clear_getElem? _ j hother with ⟨-,hfree⟩ | ⟨-,hold⟩
    · exact hfree
    · exact h.2 j other hj hold
  | close => exact ⟨rfl,h.2⟩

theorem Emptied.closedBelow (h : table.Emptied) (i : ℕ) : table.ClosedBelow i :=
  ⟨h.1,fun _ _ _ hentry => h.2 _ (mem_of_getElem? hentry)⟩

theorem emptied_of_closedBelow (h : ∀ i, table.ClosedBelow i) : table.Emptied := by
  refine ⟨(h 0).1,fun entry hentry => ?_⟩
  obtain ⟨j,hj⟩ := mem_iff_getElem?.mp hentry
  exact (h (j+1)).2 j entry (Nat.lt_succ_self j) hj

theorem Emptied.step (h : table.Emptied) (hstep : table.Step table') : table'.Emptied :=
  emptied_of_closedBelow fun i => (h.closedBelow i).step hstep

theorem Emptied.object_eq_none (h : table.Emptied) (hformed : table.WellFormed)
    (hentry : entry ∈ table.entries) : entry.object = none := by
  obtain ⟨j,hj⟩ := mem_iff_getElem?.mp hentry
  exact hformed.object_eq_none hj (h.2 entry hentry)

end ZiHandleTable

section

variable {ι κ : Type}

/-- The table to go on with is closed up to there. -/
def HandleCaller.Closes (st : HandleState ι) : HandleCaller ι κ → Prop
  | closeAll table index _ _ => (st.tables table).ClosedBelow index
  | _ => True

def HandleTask.Closes (st : HandleState ι) : HandleTask ι κ → Prop
  | removeHandle _ caller => caller.Closes st
  | releaseHandle _ caller => caller.Closes st
  | dereference _ caller => caller.Closes st
  | destroy _ caller => caller.Closes st
  | openTarget _ _ _ _ _ _ _ => True
  | closeAll table index _ _ => (st.tables table).ClosedBelow index

def HandleEvent.Empties (st : HandleState ι) : HandleEvent ι κ → Prop
  | closeAllReturned table _ => (st.tables table).Emptied
  | _ => True

/-- What is left of a call after a section, and what was seen in it, is about closed tables. -/
def HandleProgress.Closes (progress : HandleProgress ι κ) : Prop :=
  (∀ task ∈ progress.rest, task.Closes progress.state) ∧
    ∀ event ∈ progress.events, event.Empties progress.state

/-- The sections so far have not failed. -/
def HandleCaller.Clean : HandleCaller ι κ → Prop
  | closeAll _ _ firstFailure _ => firstFailure = .ok ()
  | _ => True

def HandleTask.Clean : HandleTask ι κ → Prop
  | removeHandle _ caller => caller.Clean
  | releaseHandle _ caller => caller.Clean
  | dereference _ caller => caller.Clean
  | destroy _ caller => caller.Clean
  | openTarget _ _ _ _ _ _ _ => True
  | closeAll _ _ firstFailure _ => firstFailure = .ok ()

/-- A close that has found its entry succeeds. -/
def HandleEvent.Clean : HandleEvent ι κ → Prop
  | closeReturned result => result = .ok ()
  | closeAllReturned _ result => result = .ok ()
  | _ => True

def HandleProgress.Clean (progress : HandleProgress ι κ) : Prop :=
  (∀ task ∈ progress.rest, task.Clean) ∧ ∀ event ∈ progress.events, event.Clean

variable {st st' : HandleState ι} {caller : HandleCaller ι κ} {status : Result Unit} {obj : ℕ}
  {task : HandleTask ι κ}

theorem HandleCaller.Closes.step (h : caller.Closes st)
    (htables : ∀ t, (st.tables t).Step (st'.tables t)) : caller.Closes st' := by
  cases caller with
  | closeAll table i firstFailure call => exact ZiHandleTable.ClosedBelow.step h (htables table)
  | _ => trivial

theorem HandleTask.Closes.step (h : task.Closes st)
    (htables : ∀ t, (st.tables t).Step (st'.tables t)) : task.Closes st' := by
  cases task with
  | removeHandle obj caller => exact HandleCaller.Closes.step h htables
  | releaseHandle obj caller => exact HandleCaller.Closes.step h htables
  | dereference obj caller => exact HandleCaller.Closes.step h htables
  | destroy obj caller => exact HandleCaller.Closes.step h htables
  | openTarget => trivial
  | closeAll table i firstFailure call => exact ZiHandleTable.ClosedBelow.step h (htables table)

theorem HandleEvent.Empties.step {event : HandleEvent ι κ} (h : event.Empties st)
    (htables : ∀ t, (st.tables t).Step (st'.tables t)) : event.Empties st' := by
  cases event with
  | closeAllReturned table result => exact ZiHandleTable.Emptied.step h (htables table)
  | _ => trivial

@[simp] theorem HandleCaller.resume_state : (caller.resume status st).state = st := by
  cases caller <;> rfl

theorem HandleCaller.Closes.resume (h : caller.Closes st) (status : Result Unit) :
    (caller.resume status st).Closes := by
  cases caller <;>
    simp_all [HandleCaller.resume,HandleProgress.Closes,HandleTask.Closes,HandleCaller.Closes,
      HandleEvent.Empties]

theorem HandleCaller.Clean.resume (h : caller.Clean) (st : HandleState ι) :
    (caller.resume (.ok ()) st).Clean := by
  cases caller with
  | closeAll table i firstFailure call =>
    subst h
    simp [HandleCaller.resume,HandleProgress.Clean,HandleTask.Clean]
    rfl
  | _ => simp [HandleCaller.resume,HandleProgress.Clean,HandleEvent.Clean]

theorem HandleCaller.Closes.setObject (h : caller.Closes st) (obj : ℕ) (header : ZiObjectHeader) :
    caller.Closes (st.setObject obj header) :=
  h.step fun _ => .stay

@[simp] theorem releaseObject_tables : (releaseObject obj caller st).state.tables = st.tables := by
  rw [releaseObject]
  split
  · rw [HandleCaller.resume_state]
  · rfl
  · rw [HandleCaller.resume_state]
    rfl

theorem HandleCaller.Closes.release (h : caller.Closes st) :
    (releaseObject obj caller st).Closes := by
  rw [releaseObject]
  split
  · exact h.resume _
  · simpa [HandleProgress.Closes,HandleTask.Closes] using h.setObject obj _
  · exact (h.setObject obj _).resume _

theorem HandleCaller.Clean.release (h : caller.Clean) (hrelease : (st.objects obj).CanRelease) :
    (releaseObject obj caller st).Clean := by
  rw [releaseObject,ziObjectDereference_eq,if_pos hrelease]
  split
  · rename_i hok
    split_ifs at hok
  · simpa [HandleProgress.Clean,HandleTask.Clean] using h
  · exact h.resume _

variable [DecidableEq ι] {table : ι} {i : ℕ} {firstFailure : Result Unit} {call : κ}

theorem HandleState.setTable_step (st : HandleState ι) {t' : ZiHandleTable}
    (h : (st.tables table).Step t') (t : ι) :
    (st.tables t).Step ((st.setTable table t').tables t) := by
  by_cases heq : t = table
  · rwa [heq,setTable_self]
  · rw [setTable_of_ne heq]
    exact .stay

theorem closeAllSection_state (table : ι) (i : ℕ) (firstFailure : Result Unit) (call : κ)
    (st : HandleState ι) : (closeAllSection table i firstFailure call st).state = st ∨
      ∃ found entry, (st.tables table).entries[found]? = some entry ∧
        (closeAllSection table i firstFailure call st).state =
          st.setTable table ((st.tables table).clear found entry.generation) := by
  rw [closeAllSection]
  split
  · exact .inl rfl
  · rename_i found entry st' hnext
    obtain ⟨-,hentry,-,-,rfl⟩ := closeNextEntry_some hnext
    refine .inr ⟨found,entry,hentry,?_⟩
    split
    · rfl
    · exact HandleCaller.resume_state

theorem closeAllSection_closes (h : (st.tables table).ClosedBelow i) :
    (closeAllSection table i firstFailure call st).Closes := by
  rw [closeAllSection]
  split
  · rename_i hnone
    have hempty : (st.tables table).Emptied := by
      refine ZiHandleTable.emptied_of_closedBelow fun bound => ⟨h.1,fun j entry hj hentry => ?_⟩
      by_cases hbelow : j < i
      · exact h.2 j entry hbelow hentry
      · exact closeNextEntry_none hnone (Nat.le_of_not_lt hbelow) hentry
    simpa [HandleProgress.Closes,HandleEvent.Empties] using hempty
  · rename_i found entry st' hnext
    obtain ⟨-,hentry,-,hbetween,rfl⟩ := closeNextEntry_some hnext
    have hclosed : HandleCaller.Closes
        (st.setTable table ((st.tables table).clear found entry.generation))
        (.closeAll table (found+1) firstFailure call) := by
      rw [HandleCaller.Closes,setTable_self]
      refine ⟨h.1,fun j other hj hother => ?_⟩
      rcases ZiHandleTable.clear_getElem? _ j hother with ⟨-,hfree⟩ | ⟨hne,hold⟩
      · exact hfree
      · by_cases hbelow : j < i
        · exact h.2 j other hbelow hold
        · exact hbetween j other (Nat.le_of_not_lt hbelow) (by omega) hold
    split
    · simpa [HandleProgress.Closes,HandleTask.Closes,HandleEvent.Empties] using hclosed
    · obtain ⟨htask,hevents⟩ := hclosed.resume (.error .invalidArgument)
      rw [HandleCaller.resume_state] at htask hevents
      exact ⟨by simpa using htask,forall_mem_cons.mpr ⟨trivial,by simpa using hevents⟩⟩

theorem closeAllSection_clean (hformed : ∀ t, (st.tables t).WellFormed)
    (hclean : firstFailure = .ok ()) : (closeAllSection table i firstFailure call st).Clean := by
  rw [closeAllSection]
  split
  · simpa [HandleProgress.Clean,HandleEvent.Clean] using hclean
  · rename_i found entry st' hnext
    obtain ⟨-,hentry,huse,-,rfl⟩ := closeNextEntry_some hnext
    have hsome := ((hformed table).named entry (mem_of_getElem? hentry)).mp huse
    split
    · simpa [HandleProgress.Clean,HandleTask.Clean,HandleCaller.Clean,HandleEvent.Clean] using
        hclean
    · rename_i hnone
      rw [hnone] at hsome
      cases hsome

theorem ziHandleOpen_tables {token : ZiAccessToken} {wanted handle granted : ℕ}
    (h : ziHandleOpen table obj token wanted st = .ok (handle, granted, st')) (t : ι) :
    (st.tables t).Step (st'.tables t) := by
  obtain ⟨desc,i,entry,header,hopened⟩ := ziHandleOpen_ok h
  rw [hopened.state_eq]
  exact (st.setObject obj header).setTable_step
    (.fill i entry obj granted hopened.isOpen hopened.entry_eq hopened.free hopened.generation_ne) t

theorem HandleCall.start_tables (call : HandleCall ι) (id : κ) (st : HandleState ι) (t : ι) :
    (st.tables t).Step ((call.start id st).state.tables t) := by
  have hreferenced : ∀ {table handle obj granted} {st' : HandleState ι},
      referenceHandleEntry table handle st = .ok (obj, granted, st') →
        (st.tables t).Step (st'.tables t) := by
    intro table handle obj granted st' h
    obtain ⟨i,gen,header,-,-,-,-,rfl⟩ := referenceHandleEntry_ok h
    exact .stay
  have hstarts := call.start_starts id st
  generalize call.start id st = progress at hstarts ⊢
  cases hstarts with
  | failed _ status => exact .stay
  | referenced h => exact .stay
  | dereferenced h =>
    rw [releaseObject_tables]
    exact .stay
  | opened h => exact ziHandleOpen_tables h t
  | found _ h => exact hreferenced h
  | denied _ status h => exact hreferenced h
  | duplicated _ h _ _ => exact hreferenced h
  | closed h =>
    obtain ⟨i,entry,-,hentry,-,-,rfl⟩ := closeHandleEntry_ok h
    exact st.setTable_step (.clear i entry _ (fun h => h) hentry) t
  | closing table =>
    rcases closeAllSection_state table 0 (.ok ()) id (st.setTable table
      { st.tables table with isClosing := true }) with hstate | ⟨found,entry,hentry,hstate⟩
    · rw [hstate]
      exact st.setTable_step .close t
    · rw [hstate]
      rw [setTable_self] at hentry ⊢
      by_cases heq : t = table
      · rw [heq,setTable_self]
        exact .clear found entry true (fun _ => rfl) hentry
      · rw [setTable,setTable]
        dsimp only
        rw [update_of_ne heq,update_of_ne heq]
        exact .stay

theorem HandleTask.resume_tables (task : HandleTask ι κ) (st : HandleState ι) (t : ι) :
    (st.tables t).Step ((task.resume st).state.tables t) := by
  cases task with
  | removeHandle obj caller =>
    rw [resume]
    split
    · rw [HandleCaller.resume_state]
      exact .stay
    · exact .stay
  | releaseHandle obj caller =>
    rw [resume,releaseObject_tables]
    exact .stay
  | dereference obj caller =>
    rw [resume,releaseObject_tables]
    exact .stay
  | destroy obj caller =>
    rw [resume]
    rw [HandleCaller.resume_state]
    exact .stay
  | openTarget sourceTable sourceHandle targetTable obj targetToken targetAccess call =>
    rw [resume]
    split
    · exact .stay
    · rename_i handle granted st' hopen
      exact ziHandleOpen_tables hopen t
  | closeAll table i firstFailure call =>
    rw [resume]
    rcases closeAllSection_state table i firstFailure call st with
      hstate | ⟨found,entry,hentry,hstate⟩
    · rw [hstate]
      exact .stay
    · rw [hstate]
      exact st.setTable_step (.clear found entry _ id hentry) t

theorem HandleCall.start_closes (call : HandleCall ι) (id : κ) (st : HandleState ι) :
    (call.start id st).Closes := by
  have hstarts := call.start_starts id st
  generalize call.start id st = progress at hstarts ⊢
  cases hstarts with
  | dereferenced h =>
    obtain ⟨htask,hevents⟩ : (releaseObject _ (.dereference id) st).Closes :=
      HandleCaller.Closes.release trivial
    exact ⟨htask,forall_mem_cons.mpr ⟨trivial,hevents⟩⟩
  | closing table =>
    refine closeAllSection_closes ?_
    rw [setTable_self]
    exact ⟨rfl,fun j entry hj => absurd hj (Nat.not_lt_zero j)⟩
  | _ => simp [HandleProgress.Closes,HandleEvent.Empties,HandleTask.Closes,HandleCaller.Closes]

theorem HandleTask.Closes.resume (h : task.Closes st) : (task.resume st).Closes := by
  cases task with
  | removeHandle obj caller =>
    have hcaller : caller.Closes st := h
    rw [HandleTask.resume]
    split
    · exact hcaller.resume _
    · simpa [HandleProgress.Closes,HandleTask.Closes] using hcaller.setObject obj _
  | releaseHandle obj caller => exact HandleCaller.Closes.release h
  | dereference obj caller => exact HandleCaller.Closes.release h
  | destroy obj caller =>
    obtain ⟨htask,hevents⟩ := HandleCaller.Closes.resume h (.ok ())
    exact ⟨htask,forall_mem_cons.mpr ⟨trivial,hevents⟩⟩
  | openTarget sourceTable sourceHandle targetTable obj targetToken targetAccess call =>
    rw [HandleTask.resume]
    split <;>
      simp [HandleProgress.Closes,HandleTask.Closes,HandleCaller.Closes,HandleEvent.Empties]
  | closeAll table i firstFailure call => exact closeAllSection_closes h

theorem HandleCall.start_clean (call : HandleCall ι) (id : κ)
    (hformed : ∀ t, (st.tables t).WellFormed) : (call.start id st).Clean := by
  have hstarts := call.start_starts id st
  generalize call.start id st = progress at hstarts ⊢
  cases hstarts with
  | dereferenced h =>
    obtain ⟨htask,hevents⟩ : (releaseObject _ (.dereference id) st).Clean :=
      HandleCaller.Clean.release trivial h
    exact ⟨htask,forall_mem_cons.mpr ⟨trivial,hevents⟩⟩
  | closing table =>
    refine closeAllSection_clean (fun t => ?_) rfl
    exact (hformed t).step (st.setTable_step .close t)
  | _ => simp [HandleProgress.Clean,HandleEvent.Clean,HandleTask.Clean,HandleCaller.Clean]

theorem HandleTask.Clean.resume [Fintype ι] {tasks : List (HandleTask ι κ)}
    {trace : List (HandleEvent ι κ)} (h : task.Clean) (hformed : ∀ t, (st.tables t).WellFormed)
    (hsound : ∀ o, (handleAccount st (task :: tasks) trace o).Sound)
    (hbalanced : ∀ o, (handleAccount st (task :: tasks) trace o).Balanced) :
    (task.resume st).Clean := by
  have hrelease : ∀ obj, task.holds obj = 1 → (st.objects obj).CanRelease := by
    intro obj hholds
    refine (hbalanced obj).canRelease (hsound obj) ?_
    simp only [handleAccount,map_cons,sum_cons,hholds]
    omega
  cases task with
  | removeHandle obj caller =>
    have hcaller : caller.Clean := h
    rw [HandleTask.resume]
    split
    · rename_i status hstatus
      refine absurd (objectRemoveHandleLocked_error hstatus)
        (Account.Sound.not_refused (hsound obj) ?_)
      simp only [handleAccount,map_cons,sum_cons,removes,decide_true,Bool.toNat_true]
      omega
    · simpa [HandleProgress.Clean,HandleTask.Clean] using hcaller
  | releaseHandle obj caller => exact HandleCaller.Clean.release h (hrelease obj (by simp [holds]))
  | dereference obj caller => exact HandleCaller.Clean.release h (hrelease obj (by simp [holds]))
  | destroy obj caller =>
    obtain ⟨htask,hevents⟩ := HandleCaller.Clean.resume h st
    exact ⟨htask,forall_mem_cons.mpr ⟨trivial,hevents⟩⟩
  | openTarget sourceTable sourceHandle targetTable obj targetToken targetAccess call =>
    rw [HandleTask.resume]
    split <;> simp [HandleProgress.Clean,HandleTask.Clean,HandleCaller.Clean,HandleEvent.Clean]
  | closeAll table i firstFailure call => exact closeAllSection_clean hformed h

end

/-! ## Runs -/

section

variable {ι κ : Type} [DecidableEq ι] [Fintype ι]

/-- The client holds a reference to the object it dereferences. -/
def HandleAction.Matched (trace : List (HandleEvent ι κ)) : HandleAction ι κ → Prop
  | start (.dereference object) _ => 0 < outstanding trace object
  | _ => True

namespace HandleRun

variable {run : HandleRun ι κ} {action : HandleAction ι κ} {actions : List (HandleAction ι κ)}

/-- Every dereference is of a reference that the clients hold. -/
def Matched : HandleRun ι κ → List (HandleAction ι κ) → Prop
  | _, [] => True
  | run, action :: actions => action.Matched run.trace ∧ Matched (run.step action) actions

def account (run : HandleRun ι κ) (object : ℕ) : Account :=
  handleAccount run.state run.tasks run.trace object

/-- What holds for any clients. -/
structure Sound (run : HandleRun ι κ) : Prop where
  formed : ∀ t, (run.state.tables t).WellFormed
  books : ∀ object, (run.account object).Sound
  closing : ∀ task ∈ run.tasks, task.Closes run.state
  emptied : ∀ event ∈ run.trace, event.Empties run.state

/-- What holds if the clients are matched. -/
structure Settled (run : HandleRun ι κ) : Prop where
  balanced : ∀ object, (run.account object).Balanced
  clean : ∀ task ∈ run.tasks, task.Clean
  closed : ∀ event ∈ run.trace, event.Clean

omit [DecidableEq ι] [Fintype ι] in
theorem tasks_perm {tasks : List (HandleTask ι κ)} {i : ℕ} {task : HandleTask ι κ}
    (h : tasks[i]? = some task) : tasks.Perm (task :: tasks.eraseIdx i) := by
  obtain ⟨hlt,rfl⟩ := List.getElem?_eq_some_iff.mp h
  exact (List.getElem_cons_eraseIdx_perm hlt).symm

theorem account_step (hformed : ∀ t, (run.state.tables t).WellFormed) {matched : Prop}
    (hmatched : matched → action.Matched run.trace) (obj : ℕ) :
    Account.Step matched (run.account obj) ((run.step action).account obj) := by
  cases action with
  | start call id =>
    refine HandleCall.start_account hformed fun h x hcall => ?_
    subst hcall
    exact hmatched h
  | resume i =>
    rw [step]
    split
    · exact .stay _
    · rename_i task htask
      rw [account,handleAccount_perm (tasks_perm htask)]
      exact resume_account hformed task

omit [Fintype ι] in
theorem tables_step (run : HandleRun ι κ) (action : HandleAction ι κ) (t : ι) :
    (run.state.tables t).Step ((run.step action).state.tables t) := by
  cases action with
  | start call id => exact HandleCall.start_tables call id run.state t
  | resume i =>
    rw [step]
    split
    · exact .stay
    · rename_i task htask
      exact resume_tables task run.state t

omit [Fintype ι] in
theorem step_progress (run : HandleRun ι κ) (action : HandleAction ι κ) :
    run.step action = run ∨ ∃ progress : HandleProgress ι κ,
      ((∃ (call : HandleCall ι) (id : κ), progress = call.start id run.state) ∨
        ∃ (i : ℕ) (task : HandleTask ι κ), run.tasks[i]? = some task ∧
          progress = task.resume run.state) ∧ (run.step action).state = progress.state ∧
      (∀ task ∈ (run.step action).tasks, task ∈ run.tasks ∨ task ∈ progress.rest) ∧
      ∀ event ∈ (run.step action).trace, event ∈ run.trace ∨ event ∈ progress.events := by
  cases action with
  | start call id =>
    refine .inr ⟨call.start id run.state,.inl ⟨call,id,rfl⟩,rfl,?_,?_⟩
    · intro task htask
      exact (mem_append.mp htask).imp_right mem_toList.mp
    · intro event hevent
      exact mem_append.mp hevent
  | resume i =>
    rw [step]
    split
    · exact .inl rfl
    · rename_i running hrunning
      refine .inr ⟨running.resume run.state,.inr ⟨i,running,hrunning,rfl⟩,rfl,?_,?_⟩
      · intro task htask
        exact (mem_append.mp htask).imp mem_of_mem_eraseIdx mem_toList.mp
      · intro event hevent
        exact mem_append.mp hevent

theorem Sound.step (h : run.Sound) (action : HandleAction ι κ) : (run.step action).Sound := by
  have htables := run.tables_step action
  have hformed := fun t => (h.formed t).step (htables t)
  have hbooks : ∀ obj, ((run.step action).account obj).Sound := fun obj =>
    (h.books obj).step (account_step h.formed (fun hfalse : False => hfalse.elim) obj)
  rcases run.step_progress action with hsame | ⟨progress,hfrom,hstate,htasks,htrace⟩
  · rwa [hsame]
  · have hcloses : progress.Closes := by
      rcases hfrom with ⟨call,id,rfl⟩ | ⟨i,task,htask,rfl⟩
      · exact HandleCall.start_closes call id run.state
      · exact (h.closing task (mem_of_getElem? htask)).resume
    refine ⟨hformed,hbooks,fun task htask => ?_,fun event hevent => ?_⟩
    · rcases htasks task htask with hold | hnew
      · exact (h.closing task hold).step htables
      · rw [hstate]
        exact hcloses.1 task hnew
    · rcases htrace event hevent with hold | hnew
      · exact (h.emptied event hold).step htables
      · rw [hstate]
        exact hcloses.2 event hnew

theorem Settled.step (hsettled : run.Settled) (h : run.Sound)
    (hmatched : action.Matched run.trace) : (run.step action).Settled := by
  have hbalanced := fun obj => (hsettled.balanced obj).step (h.books obj)
    (account_step h.formed (fun _ => hmatched) obj)
  rcases run.step_progress action with hsame | ⟨progress,hfrom,-,htasks,htrace⟩
  · rwa [hsame]
  · have hclean : progress.Clean := by
      rcases hfrom with ⟨call,id,rfl⟩ | ⟨i,task,htask,rfl⟩
      · exact HandleCall.start_clean call id h.formed
      · have hbooks : ∀ obj, handleAccount run.state (task :: run.tasks.eraseIdx i) run.trace obj =
              run.account obj := fun obj => (handleAccount_perm (tasks_perm htask)).symm
        have hsound := fun obj => (hbooks obj).symm ▸ h.books obj
        have hbalances := fun obj => (hbooks obj).symm ▸ hsettled.balanced obj
        exact (hsettled.clean task (mem_of_getElem? htask)).resume h.formed hsound hbalances
    refine ⟨hbalanced,fun task htask => ?_,fun event hevent => ?_⟩
    · exact (htasks task htask).elim (hsettled.clean task) (hclean.1 task)
    · exact (htrace event hevent).elim (hsettled.closed event) (hclean.2 event)

theorem Sound.after (h : run.Sound) (actions : List (HandleAction ι κ)) :
    (run.after actions).Sound := by
  induction actions generalizing run with
  | nil => exact h
  | cons action actions ih => exact ih (h.step action)

theorem Settled.after (hsettled : run.Settled) (h : run.Sound) (hmatched : run.Matched actions) :
    (run.after actions).Settled := by
  induction actions generalizing run with
  | nil => exact hsettled
  | cons action actions ih => exact ih (hsettled.step h hmatched.1) (h.step action) hmatched.2

end HandleRun

theorem ziHandleTableInitialise_wellFormed {cap : ℕ} {table : ZiHandleTable}
    (h : ziHandleTableInitialise cap = .ok table) :
    table.WellFormed ∧ ∀ obj, table.names obj = 0 := by
  obtain ⟨hcap,h⟩ := failIf_bind_ok_iff.mp h
  rw [pure_ok_iff.mp h]
  refine ⟨⟨?_,?_,?_,?_⟩,fun obj => countP_eq_zero.mpr ?_⟩
  · rw [length_replicate]
    omega
  all_goals exact forall_mem_replicate.mpr (.inr (by simp [ZiHandleTableEntry.inUse]))

variable {st : HandleState ι}

/-- Initialised objects and tables. -/
structure HandleState.Initialised (st : HandleState ι) : Prop where
  objects : ∀ object, ∃ type operations descriptor,
    st.objects object = ziObjectInitialise type operations descriptor
  tables : ∀ table, ∃ capacity, ziHandleTableInitialise capacity = .ok (st.tables table)

omit [DecidableEq ι] in
theorem HandleState.Initialised.start (h : st.Initialised) :
    (HandleRun.start st : HandleRun ι κ).Sound ∧ (HandleRun.start st : HandleRun ι κ).Settled := by
  have hnaming : ∀ obj, st.naming obj = 0 := by
    intro obj
    refine Finset.sum_eq_zero fun table _ => ?_
    obtain ⟨cap,hcap⟩ := h.tables table
    exact (ziHandleTableInitialise_wellFormed hcap).2 obj
  refine ⟨⟨fun t => ?_,fun obj => ?_,forall_mem_nil _,forall_mem_nil _⟩,
    ⟨fun obj => ?_,forall_mem_nil _,forall_mem_nil _⟩⟩
  · obtain ⟨cap,hcap⟩ := h.tables t
    exact (ziHandleTableInitialise_wellFormed hcap).1
  · obtain ⟨type,operations,desc,hobj⟩ := h.objects obj
    constructor <;>
      simp [HandleRun.account,HandleRun.start,handleAccount,hobj,ziObjectInitialise,hnaming,
        timesDestroyed]
  · obtain ⟨type,operations,desc,hobj⟩ := h.objects obj
    simp [Account.Balanced,HandleRun.account,HandleRun.start,handleAccount,hobj,
      ziObjectInitialise,hnaming,outstanding]

omit [Fintype ι] in
theorem ziHandleOpen_closing {table : ι} (h : (st.tables table).isClosing = true) (obj : ℕ)
    (token : ZiAccessToken) (wanted : ℕ) :
    ∃ status, ziHandleOpen table obj token wanted st = .error status := by
  cases hopen : ziHandleOpen table obj token wanted st with
  | error status => exact ⟨status,rfl⟩
  | ok opened =>
    obtain ⟨handle,granted,st'⟩ := opened
    obtain ⟨desc,i,entry,header,hopened⟩ := ziHandleOpen_ok hopen
    rw [hopened.isOpen] at h
    cases h

omit [Fintype ι] in
theorem closeHandleEntry_inUse {table : ι} {i : ℕ} {entry : ZiHandleTableEntry}
    (hformed : (st.tables table).WellFormed) (hentry : (st.tables table).entries[i]? = some entry)
    (huse : entry.inUse = true) :
    ∃ obj st', closeHandleEntry table (encodeHandle i entry.generation) st = .ok (obj, st') := by
  have hmem := List.mem_of_getElem? hentry
  have hlt := (List.getElem?_eq_some_iff.mp hentry).1
  have hdec := (decodeHandle_ok_iff hformed.capacity).mpr
    ⟨hlt,hformed.generation_ne entry hmem huse,rfl⟩
  obtain ⟨obj,hobj⟩ := isSome_iff_exists.mp ((hformed.named entry hmem).mp huse)
  have hnamed : (st.tables table).namedAt i entry.generation = .ok (obj, entry.grantedAccess) := by
    rw [ZiHandleTable.namedAt,hentry]
    simp [huse,hobj]
    rfl
  exact ⟨obj,_,bind_ok_iff.mpr ⟨_,hdec,bind_ok_iff.mpr ⟨_,hnamed,rfl⟩⟩⟩

/-- An object is named as often as its handle count says whenever no call is in progress, and
destroyed at most once and only when no entry names it.  If clients only give back what they hold,
its reference count is what they hold and the entries that name it, closes succeed and it is
destroyed when all of these are gone.  A table that has been closed stays empty. -/
theorem objectLifetime_accounted (h : st.Initialised) (actions : List (HandleAction ι κ)) :
    let run := (HandleRun.start st : HandleRun ι κ).after actions
    (run.tasks = [] → ∀ obj, (run.state.objects obj).handleCount = run.state.naming obj) ∧
    (∀ obj, timesDestroyed run.trace obj ≤ 1 ∧
      (0 < timesDestroyed run.trace obj → run.state.naming obj = 0)) ∧
    ((HandleRun.start st : HandleRun ι κ).Matched actions →
      (run.tasks = [] → ∀ obj, (run.state.objects obj).referenceCount =
        outstanding run.trace obj+run.state.naming obj) ∧
      ((∀ table i entry, (run.state.tables table).entries[i]? = some entry →
          entry.inUse = true → ∃ obj st',
            closeHandleEntry table (encodeHandle i entry.generation) run.state =
              .ok (obj, st')) ∧
        (∀ result, HandleEvent.closeReturned result ∈ run.trace → result = .ok ()) ∧
        ∀ table result, HandleEvent.closeAllReturned table result ∈ run.trace → result = .ok ()) ∧
      (run.tasks = [] → ∀ obj, (run.state.objects obj).hasDestroy = true →
        (timesDestroyed run.trace obj = 1 ↔
          outstanding run.trace obj = 0 ∧ run.state.naming obj = 0))) ∧
    ∀ table result, HandleEvent.closeAllReturned table result ∈ run.trace →
      (∀ entry ∈ (run.state.tables table).entries, entry.object = none) ∧
      ∀ obj token requestedAccess, ∃ status,
        ziHandleOpen table obj token requestedAccess run.state = .error status := by
  intro run
  have hsound : run.Sound := h.start.1.after actions
  have hidle : run.tasks = [] → ∀ obj, (run.account obj).removing = 0 ∧
      (run.account obj).held = 0 ∧ (run.account obj).toDestroy = 0 := by
    intro htasks obj
    simp [HandleRun.account,handleAccount,htasks]
  refine ⟨fun htasks obj => ?_,fun obj => ⟨?_,fun hdestroyed => ?_⟩,fun hmatched => ?_,
    fun table result hclosed => ?_⟩
  · have hhandles := (hsound.books obj).handles
    rw [(hidle htasks obj).1] at hhandles
    exact hhandles
  · have honce := (hsound.books obj).once
    have hle := Bool.toNat_le ((run.account obj).isDestroyed && (run.account obj).destroys)
    have hsame : (run.account obj).destroyed = timesDestroyed run.trace obj := rfl
    omega
  · -- An obj whose routine has run is destroyed, and has no handles.
    have honce := (hsound.books obj).once
    have hsame : (run.account obj).destroyed = timesDestroyed run.trace obj := rfl
    have hgone : (run.account obj).isDestroyed = true := by
      by_contra halive
      rw [Bool.not_eq_true] at halive
      rw [halive,Bool.false_and,Bool.toNat_false] at honce
      omega
    have hnone := (hsound.books obj).unnamed hgone
    have hhandles := (hsound.books obj).handles
    have hentries : (run.account obj).entries = run.state.naming obj := rfl
    omega
  · have hsettled : run.Settled := h.start.2.after h.start.1 hmatched
    refine ⟨fun htasks obj => ?_,⟨?_,?_,?_⟩,fun htasks obj hdestroy => ?_⟩
    · have hbalanced := hsettled.balanced obj
      rw [Account.Balanced,(hidle htasks obj).1,(hidle htasks obj).2.1] at hbalanced
      exact hbalanced
    · intro table i entry hentry huse
      exact closeHandleEntry_inUse (hsound.formed table) hentry huse
    · intro result hresult
      exact hsettled.closed _ hresult
    · intro table result hresult
      exact hsettled.closed _ hresult
    · obtain ⟨hremoving,hheld,hnone⟩ := hidle htasks obj
      exact (hsettled.balanced obj).destroyed_iff (hsound.books obj) hdestroy hremoving hheld
        hnone
  · have hemptied : (run.state.tables table).Emptied := hsound.emptied _ hclosed
    refine ⟨fun entry hentry => ?_,fun obj token requestedAccess => ?_⟩
    · exact hemptied.object_eq_none (hsound.formed table) hentry
    · exact ziHandleOpen_closing hemptied.1 obj token requestedAccess

end

/-- Objects that one user may use, and one table. -/
def sampleHandles : HandleState Unit where
  objects _ := ziObjectInitialise 1 ⟨true,true⟩
    (some ⟨40,1,⟨3,7⟩,⟨2,1⟩,some ⟨24,1,[⟨1,0,0,1,⟨3,7⟩⟩]⟩,0⟩)
  tables _ := ⟨[⟨none,0,1,0⟩,⟨none,0,1,0⟩],0,false⟩

def sampleHandleActions : List (HandleAction Unit ℕ) :=
  [.start (.openObject () 0 ⟨40,1,⟨3,7⟩,[],0⟩ 1) 0,.start (.close () 4294967297) 1,
    .resume 0,.resume 0,.start (.dereference 0) 2,.resume 0]

theorem sampleHandles_initialised : sampleHandles.Initialised :=
  ⟨fun _ => ⟨1,_,_,rfl⟩,fun _ => ⟨2,rfl⟩⟩

theorem objectLifetime_accounted_sample : sampleHandles.Initialised ∧
      (HandleRun.start sampleHandles).Matched sampleHandleActions ∧
      timesDestroyed ((HandleRun.start sampleHandles).after sampleHandleActions).trace 0 = 1 := by
  have hmatched : (HandleRun.start sampleHandles).Matched sampleHandleActions := by
    simp only [HandleRun.Matched,sampleHandleActions,HandleAction.Matched,true_and,and_true]
    decide
  have hlifetime := objectLifetime_accounted sampleHandles_initialised sampleHandleActions
  refine ⟨sampleHandles_initialised,hmatched,?_⟩
  refine ((hlifetime.2.2.1 hmatched).2.2 ?_ 0 ?_).mpr ⟨?_,?_⟩
  · rfl
  · rfl
  · rfl
  · rfl

end Zizium
