import Zizium.Executive.AccessRules
import Zizium.Executive.HandleRuns

/-!
# Handles over time

Which handle values resolve, and with which rights, after any number of calls.
-/

namespace Zizium

open BlockIO RefCount List HandleState HandleProgress Function Except

variable {i gen granted obj handle wanted : ℕ} {ι κ : Type}

/-! ## What a section changes -/

/-- A generation, with the retired one after all others. -/
def ZiHandleTableEntry.rank (entry : ZiHandleTableEntry) : ℕ :=
  if entry.generation = 0 then 4294967296 else entry.generation

variable {entry : ZiHandleTableEntry}

theorem ZiHandleTableEntry.rank_eq (h : entry.generation ≠ 0) :
    entry.rank = entry.generation := if_neg h

theorem rank_nextGeneration (entry : ZiHandleTableEntry) (obj : Option ℕ) (granted flags : ℕ) :
    ZiHandleTableEntry.rank ⟨obj,granted,ZiHandleTable.nextGeneration entry.generation,flags⟩ =
      entry.generation+1 := by
  rw [ZiHandleTableEntry.rank,ZiHandleTable.nextGeneration]
  by_cases hlast : entry.generation = uint32Max
  · rw [if_pos hlast,if_pos rfl,hlast]
  · rw [if_neg hlast,if_neg (Nat.succ_ne_zero _)]

theorem encodeHandle_inj {index' generation' : ℕ} (h : i < uint32Max) (h' : index' < uint32Max)
    (heq : encodeHandle i gen = encodeHandle index' generation') :
    i = index' ∧ gen = generation' := by
  rw [encodeHandle_eq h,encodeHandle_eq h'] at heq
  have hi : i < 4294967295 := h
  have hindex' : index' < 4294967295 := h'
  omega

theorem rightsWithin_of_not_amplifies {access : ℕ} (haccess : access < 2^32)
    (hgranted : granted < 2^32) (h : amplifies access granted ≠ true) :
    RightsWithin access granted := by
  intro bit hset
  have hzero : access &&& (uint32Max-granted) = 0 := by simpa [amplifies] using h
  by_contra hnot
  rw [Bool.not_eq_true] at hnot
  have hbit : bit < 32 := by
    by_contra hge
    have hlt := Nat.lt_of_lt_of_le haccess
      (Nat.pow_le_pow_right (Nat.succ_pos 1) (Nat.le_of_not_lt hge))
    rw [Nat.testBit_lt_two_pow hlt] at hset
    cases hset
  have hand := congrArg (fun n => n.testBit bit) hzero
  rw [show uint32Max-granted = 2^32-(granted+1) by
    show 4294967295-granted = 4294967296-(granted+1)
    omega,Nat.testBit_and,Nat.testBit_two_pow_sub_succ hgranted,hset,hnot,
    decide_eq_true hbit,Nat.zero_testBit] at hand
  cases hand

/-- What cannot change about an object. -/
def ZiObjectHeader.SameKind (object header : ZiObjectHeader) : Prop :=
  header.type = object.type ∧ header.securityDescriptor = object.securityDescriptor

variable {header o : ZiObjectHeader}

section

variable {st st' : HandleState ι}

/-- What a section has given out, or taken back. -/
inductive HandleChange (ι : Type) where
  | issue (handle : IssuedHandle ι)
  | retire (table : ι) (handle : ℕ)

def HandleEvent.change : HandleEvent ι κ → Option (HandleChange ι)
  | issued handle => some (.issue handle)
  | retired table handle => some (.retire table handle)
  | _ => none

theorem HandleState.sameKind_setObject (st : HandleState ι) (h : (st.objects obj).SameKind header)
    (o : ℕ) : (st.objects o).SameKind ((st.setObject obj header).objects o) := by
  rw [setObject]
  dsimp only
  by_cases heq : o = obj
  · rwa [heq,update_self]
  · rw [update_of_ne heq]
    exact ⟨rfl,rfl⟩

theorem ziObjectDereference_sameKind {destroy : Bool}
    (h : ziObjectDereference o = .ok (header, destroy)) : o.SameKind header := by
  rw [ziObjectDereference_eq] at h
  split_ifs at h
  · cases h
    exact ⟨rfl,rfl⟩
  · cases h
    exact ⟨rfl,rfl⟩

theorem objectRemoveHandleLocked_sameKind (h : objectRemoveHandleLocked o = .ok header) :
    o.SameKind header := by
  obtain ⟨-,h⟩ := failIf_bind_ok_iff.mp h
  dsimp only at h
  split at h
  · rw [pure_ok_iff.mp h]
    exact ⟨rfl,rfl⟩
  · rw [pure_ok_iff.mp h]
    exact ⟨rfl,rfl⟩

theorem HandleCaller.resume_change (caller : HandleCaller ι κ) (status : Result Unit) :
    (caller.resume status st).events.filterMap HandleEvent.change = [] := by
  cases caller <;> rfl

theorem releaseObject_change (caller : HandleCaller ι κ) :
    (releaseObject obj caller st).events.filterMap HandleEvent.change = [] := by
  rw [releaseObject]
  split
  · exact caller.resume_change _
  · rfl
  · exact caller.resume_change _

theorem releaseObject_sameKind (caller : HandleCaller ι κ) (o : ℕ) :
    (st.objects o).SameKind ((releaseObject obj caller st).state.objects o) := by
  rw [releaseObject]
  split
  · rw [HandleCaller.resume_state]
    exact ⟨rfl,rfl⟩
  · rename_i header hhdr
    exact st.sameKind_setObject (ziObjectDereference_sameKind hhdr) o
  · rename_i header hhdr
    rw [HandleCaller.resume_state]
    exact st.sameKind_setObject (ziObjectDereference_sameKind hhdr) o

theorem HandleState.setObject_sameKind_of_reference
    (h : ziObjectReference (st.objects obj) = .ok header) (o : ℕ) :
    (st.objects o).SameKind ((st.setObject obj header).objects o) := by
  refine st.sameKind_setObject ?_ o
  rw [(ziObjectReference_ok h).2]
  exact ⟨rfl,rfl⟩

/-- A section that neither gives out nor takes back a handle. -/
structure HandleProgress.Keeps (st : HandleState ι) (progress : HandleProgress ι κ) : Prop where
  kinds : ∀ o, (st.objects o).SameKind (progress.state.objects o)
  entries : ∀ t, (progress.state.tables t).entries = (st.tables t).entries
  changes : progress.events.filterMap HandleEvent.change = []

theorem HandleProgress.keeps_returned (call : κ) (result : Result ℕ) :
    HandleProgress.Keeps st ⟨st,none,[.returned call result]⟩ :=
  ⟨fun _ => ⟨rfl,rfl⟩,fun _ => rfl,rfl⟩

theorem referenceHandleEntry_keeps {table : ι}
    (h : referenceHandleEntry table handle st = .ok (obj, granted, st'))
    (rest : Option (HandleTask ι κ)) {events : List (HandleEvent ι κ)}
    (hevents : events.filterMap HandleEvent.change = []) :
    HandleProgress.Keeps st ⟨st',rest,events⟩ := by
  obtain ⟨i,gen,header,-,-,-,hhdr,rfl⟩ := referenceHandleEntry_ok h
  exact ⟨setObject_sameKind_of_reference hhdr,fun _ => rfl,hevents⟩

variable [DecidableEq ι]

/-- A section that gives out a handle. -/
def HandleProgress.Issues (st : HandleState ι) (progress : HandleProgress ι κ)
    (issue : IssuedHandle ι) (requestedAccess : ℕ) : Prop :=
  progress.events.filterMap HandleEvent.change = [.issue issue] ∧
    ∃ descriptor index entry header, HandleOpened issue.table issue.object issue.token
      requestedAccess st issue.handle issue.grantedAccess progress.state descriptor index
        entry header

/-- A section that takes back a handle. -/
structure HandleProgress.Retires (st : HandleState ι) (progress : HandleProgress ι κ) (table : ι)
    (index : ℕ) (entry : ZiHandleTableEntry) : Prop where
  changes : progress.events.filterMap HandleEvent.change =
    [.retire table (encodeHandle index entry.generation)]
  kinds : ∀ o, (st.objects o).SameKind (progress.state.objects o)
  entry_eq : (st.tables table).entries[index]? = some entry
  inUse : entry.inUse = true
  cleared : (progress.state.tables table).entries =
    (st.tables table).entries.set index ⟨none,0,ZiHandleTable.nextGeneration entry.generation,0⟩
  others : ∀ t, t ≠ table → (progress.state.tables t).entries = (st.tables t).entries

theorem HandleOpened.sameKind {table : ι} {token : ZiAccessToken} {desc : ZiSecurityDescriptor}
    (h : HandleOpened table obj token wanted st handle granted st' desc i entry header) (o : ℕ) :
    (st.objects o).SameKind (st'.objects o) := by
  rw [h.state_eq]
  refine st.sameKind_setObject ?_ o
  rw [(ziObjectAddHandle_ok h.added).2]
  exact ⟨rfl,rfl⟩

theorem closeAllSection_change (table : ι) (i : ℕ) (firstFailure : Result Unit) (call : κ)
    (st : HandleState ι) : (closeAllSection table i firstFailure call st).Keeps st ∨
      ∃ found entry, (closeAllSection table i firstFailure call st).Retires st table found
        entry := by
  rw [closeAllSection]
  split
  · exact .inl ⟨fun _ => ⟨rfl,rfl⟩,fun _ => rfl,rfl⟩
  · rename_i found entry st' hnext
    obtain ⟨-,hentry,huse,-,rfl⟩ := closeNextEntry_some hnext
    refine .inr ⟨found,entry,?_⟩
    have hothers : ∀ t, t ≠ table →
        ((st.setTable table ((st.tables table).clear found entry.generation)).tables t).entries =
          (st.tables t).entries := by
      intro t ht
      rw [setTable_of_ne ht]
    have hcleared :
        ((st.setTable table ((st.tables table).clear found entry.generation)).tables
          table).entries =
          (st.tables table).entries.set found
            ⟨none,0,ZiHandleTable.nextGeneration entry.generation,0⟩ := by
      rw [setTable_self]
      rfl
    split <;> exact ⟨rfl,fun _ => ⟨rfl,rfl⟩,hentry,huse,hcleared,hothers⟩

theorem HandleCall.start_change (call : HandleCall ι) (id : κ)
    (hformed : ∀ t, (st.tables t).WellFormed) : (call.start id st).Keeps st ∨
      (∃ (issue : IssuedHandle ι) (wanted : ZiAccessMask),
        (call.start id st).Issues st issue wanted.toNat ∧ issue.source = none) ∨
      ∃ table i entry, (call.start id st).Retires st table i entry := by
  have hstarts := call.start_starts id st
  generalize call.start id st = progress at hstarts ⊢
  cases hstarts with
  | failed _ status => exact .inl (keeps_returned id _)
  | referenced h => exact .inl ⟨setObject_sameKind_of_reference h,fun _ => rfl,rfl⟩
  | dereferenced h =>
    refine .inl ⟨releaseObject_sameKind _,fun t => ?_,releaseObject_change _⟩
    rw [releaseObject_tables]
  | @opened table obj handle granted token wanted st' h =>
    refine .inr (.inl ⟨⟨table,handle,obj,granted,token,none⟩,wanted,⟨rfl,?_⟩,rfl⟩)
    exact ziHandleOpen_ok h
  | found _ h => exact .inl (referenceHandleEntry_keeps h _ rfl)
  | denied _ status h => exact .inl (referenceHandleEntry_keeps h _ rfl)
  | duplicated _ h _ _ => exact .inl (referenceHandleEntry_keeps h _ rfl)
  | @closed table handle obj st' h =>
    obtain ⟨i,entry,hdec,hentry,huse,-,rfl⟩ := closeHandleEntry_ok h
    obtain ⟨-,-,rfl⟩ := (decodeHandle_ok_iff (hformed table).capacity).mp hdec
    refine .inr (.inr ⟨table,i,entry,rfl,fun _ => ⟨rfl,rfl⟩,hentry,huse,?_,?_⟩)
    · rw [setTable_self]
      rfl
    · intro t ht
      rw [setTable]
      dsimp only
      rw [update_of_ne ht]
  | closing table =>
    have hentries : ∀ t, ((st.setTable table
        { st.tables table with isClosing := true }).tables t).entries = (st.tables t).entries := by
      intro t
      by_cases heq : t = table
      · rw [heq,setTable_self]
      · rw [setTable_of_ne heq]
    rcases closeAllSection_change table 0 (.ok ()) id
      (st.setTable table { st.tables table with isClosing := true }) with h | ⟨found,entry,h⟩
    · exact .inl ⟨h.kinds,fun t => (h.entries t).trans (hentries t),h.changes⟩
    · refine .inr (.inr ⟨table,found,entry,h.changes,h.kinds,?_,h.inUse,?_,?_⟩)
      · rw [← hentries]
        exact h.entry_eq
      · rw [h.cleared,hentries]
      · intro t ht
        exact (h.others t ht).trans (hentries t)

theorem HandleTask.resume_change (task : HandleTask ι κ) (st : HandleState ι) :
    (task.resume st).Keeps st ∨
      (∃ sourceTable sourceHandle targetTable obj targetToken targetAccess call handle granted,
        task = .openTarget sourceTable sourceHandle targetTable obj targetToken targetAccess call ∧
        (task.resume st).Issues st ⟨targetTable,handle,obj,granted,targetToken,
          some (sourceTable, sourceHandle)⟩ targetAccess) ∨
      ∃ table i entry, (task.resume st).Retires st table i entry := by
  have hrelease : ∀ obj (caller : HandleCaller ι κ),
      (releaseObject obj caller st).Keeps st := fun obj caller =>
    ⟨releaseObject_sameKind caller,fun t => by rw [releaseObject_tables],
      releaseObject_change caller⟩
  have hresume : ∀ (caller : HandleCaller ι κ) status, (caller.resume status st).Keeps st := by
    intro caller status
    refine ⟨fun o => ?_,fun t => ?_,caller.resume_change status⟩
    · rw [HandleCaller.resume_state]
      exact ⟨rfl,rfl⟩
    · rw [HandleCaller.resume_state]
  cases task with
  | removeHandle obj caller =>
    rw [HandleTask.resume]
    split
    · exact .inl (hresume caller _)
    · rename_i header hhdr
      refine .inl ⟨?_,fun _ => rfl,rfl⟩
      exact st.sameKind_setObject (objectRemoveHandleLocked_sameKind hhdr)
  | releaseHandle obj caller => exact .inl (hrelease obj caller)
  | dereference obj caller => exact .inl (hrelease obj caller)
  | destroy obj caller =>
    have hkeeps := hresume caller (.ok ())
    exact .inl ⟨hkeeps.kinds,hkeeps.entries,hkeeps.changes⟩
  | openTarget sourceTable sourceHandle targetTable obj targetToken targetAccess call =>
    rw [HandleTask.resume]
    split
    · exact .inl ⟨fun _ => ⟨rfl,rfl⟩,fun _ => rfl,rfl⟩
    · rename_i handle grantedAccess st' hopen
      refine .inr (.inl ⟨sourceTable,sourceHandle,targetTable,obj,targetToken,
        targetAccess,call,handle,grantedAccess,rfl,rfl,?_⟩)
      exact ziHandleOpen_ok hopen
  | closeAll table i firstFailure call =>
    rcases closeAllSection_change table i firstFailure call st with h | ⟨found,entry,h⟩
    · exact .inl h
    · exact .inr (.inr ⟨table,found,entry,h⟩)

end

/-! ## The history -/

section

/-- All that a run has given out and taken back. -/
def HandleRun.log (run : HandleRun ι κ) : List (HandleChange ι) :=
  run.trace.filterMap HandleEvent.change

/-- The tables and all that has been given out and taken back.  `descriptors` secures the
objects. -/
structure HandleHistory (descriptors : ℕ → Option ZiSecurityDescriptor) (st : HandleState ι)
    (log : List (HandleChange ι)) : Prop where
  formed : ∀ t, (st.tables t).WellFormed
  secured : ∀ object, (st.objects object).securityDescriptor = descriptors object
  current : ∀ t index entry, (st.tables t).entries[index]? = some entry → entry.inUse = true →
    ∃ issue, .issue issue ∈ log ∧ issue.table = t ∧
      issue.handle = encodeHandle index entry.generation ∧ entry.object = some issue.object ∧
      entry.grantedAccess = issue.grantedAccess
  issued : ∀ issue, .issue issue ∈ log → ∃ index entry generation,
    (st.tables issue.table).entries[index]? = some entry ∧
    issue.handle = encodeHandle index generation ∧
    ((generation < entry.rank ∧ .retire issue.table issue.handle ∈ log) ∨
      (generation = entry.generation ∧ entry.inUse = true))
  retired : ∀ t handle, .retire t handle ∈ log → ∃ index entry generation,
    (st.tables t).entries[index]? = some entry ∧ handle = encodeHandle index generation ∧
    generation < entry.rank
  unique : ∀ issue issue', .issue issue ∈ log → .issue issue' ∈ log → issue.table = issue'.table →
    issue.handle = issue'.handle → issue = issue'
  approved : ∀ issue, .issue issue ∈ log → issue.grantedAccess < 2^32 ∧
    ∃ descriptor, descriptors issue.object = some descriptor ∧
      Approves descriptor issue.token issue.grantedAccess
  derived : ∀ issue t handle, .issue issue ∈ log → issue.source = some (t, handle) →
    ∃ parent, .issue parent ∈ log ∧ parent.table = t ∧ parent.handle = handle ∧
      parent.object = issue.object ∧ RightsWithin issue.grantedAccess parent.grantedAccess

/-- A duplication in progress is of a handle that was given out, and asks for no more rights. -/
def HandleTask.Derives (log : List (HandleChange ι)) : HandleTask ι κ → Prop
  | openTarget sourceTable sourceHandle _ object _ targetAccess _ =>
    targetAccess < 2^32 ∧ ∃ parent, .issue parent ∈ log ∧ parent.table = sourceTable ∧
      parent.handle = sourceHandle ∧ parent.object = object ∧
      RightsWithin targetAccess parent.grantedAccess
  | _ => True

variable {descs : ℕ → Option ZiSecurityDescriptor} {st : HandleState ι}
  {log : List (HandleChange ι)} {progress : HandleProgress ι κ}

theorem HandleTask.Derives.append {task : HandleTask ι κ} (h : task.Derives log)
    (changes : List (HandleChange ι)) : task.Derives (log ++ changes) := by
  cases task with
  | openTarget sourceTable sourceHandle targetTable obj targetToken targetAccess call =>
    obtain ⟨hlt,parent,hparent,hrest⟩ := h
    exact ⟨hlt,parent,mem_append_left changes hparent,hrest⟩
  | _ => trivial

theorem HandleCaller.resume_derives (caller : HandleCaller ι κ) (status : Result Unit) :
    ∀ task ∈ (caller.resume status st).rest, task.Derives log := by
  intro task htask
  cases caller with
  | closeAll table i firstFailure call =>
    cases htask
    trivial
  | _ => cases htask

theorem releaseObject_derives {caller : HandleCaller ι κ} :
    ∀ task ∈ (releaseObject obj caller st).rest, task.Derives log := by
  intro task htask
  rw [releaseObject] at htask
  split at htask
  · exact caller.resume_derives _ task htask
  · cases htask
    trivial
  · exact caller.resume_derives _ task htask

theorem closeAllSection_derives [DecidableEq ι] {table : ι} {firstFailure : Result Unit}
    {call : κ} :
    ∀ task ∈ (closeAllSection table i firstFailure call st).rest, task.Derives log := by
  intro task htask
  rw [closeAllSection] at htask
  split at htask
  · cases htask
  · split at htask
    · cases htask
      trivial
    · cases htask
      trivial

theorem HandleTask.resume_derives [DecidableEq ι] (running : HandleTask ι κ) :
    ∀ task ∈ (running.resume st).rest, task.Derives log := by
  intro task htask
  cases running with
  | removeHandle obj caller =>
    rw [HandleTask.resume] at htask
    split at htask
    · exact caller.resume_derives _ task htask
    · cases htask
      trivial
  | releaseHandle obj caller => exact releaseObject_derives task htask
  | dereference obj caller => exact releaseObject_derives task htask
  | destroy obj caller => exact caller.resume_derives _ task htask
  | openTarget sourceTable sourceHandle targetTable obj targetToken targetAccess call =>
    rw [HandleTask.resume] at htask
    split at htask <;> cases htask <;> trivial
  | closeAll table i firstFailure call => exact closeAllSection_derives task htask

section

variable [DecidableEq ι] {st' : HandleState ι} {table : ι} {entry' : ZiHandleTableEntry}
  (hentry : (st.tables table).entries[i]? = some entry)
  (hset : (st'.tables table).entries = (st.tables table).entries.set i entry')
  (hothers : ∀ t, t ≠ table → (st'.tables t).entries = (st.tables t).entries)

include hentry hset hothers

theorem HandleState.getElem?_entries_set (t : ι) (j : ℕ) : (st'.tables t).entries[j]? =
      if t = table ∧ j = i then some entry' else (st.tables t).entries[j]? := by
  split_ifs with hhere
  · obtain ⟨rfl,rfl⟩ := hhere
    rw [hset,getElem?_set_self',hentry]
    rfl
  · by_cases ht : t = table
    · subst ht
      rw [hset,getElem?_set_ne fun hj => hhere ⟨rfl,hj.symm⟩]
    · rw [hothers t ht]

theorem HandleState.exists_entries_set {t : ι} {j : ℕ} {old : ZiHandleTableEntry}
    (hold : (st.tables t).entries[j]? = some old) :
    ∃ new, (st'.tables t).entries[j]? = some new ∧
      (t = table ∧ j = i ∧ old = entry ∧ new = entry' ∨ new = old) := by
  rw [getElem?_entries_set hentry hset hothers]
  by_cases hhere : t = table ∧ j = i
  · obtain ⟨rfl,rfl⟩ := hhere
    cases hold.symm.trans hentry
    exact ⟨_,if_pos ⟨rfl,rfl⟩,.inl ⟨rfl,rfl,rfl,rfl⟩⟩
  · exact ⟨old,(if_neg hhere).trans hold,.inr rfl⟩

end

section

variable (h : HandleHistory descs st log)

include h

theorem HandleHistory.named {table : ι}
    (hdec : decodeHandle (st.tables table) handle = .ok (i, gen))
    (hnamed : (st.tables table).namedAt i gen = .ok (obj, granted)) :
    HandleChange.retire table handle ∉ log ∧ ∃ issue, .issue issue ∈ log ∧ issue.table = table ∧
      issue.handle = handle ∧ issue.object = obj ∧ issue.grantedAccess = granted := by
  have hcap := (h.formed table).capacity
  obtain ⟨hi,hgen,rfl⟩ := (decodeHandle_ok_iff hcap).mp hdec
  obtain ⟨entry,hentry,huse,rfl,hobj,hgranted⟩ := ZiHandleTable.namedAt_ok hnamed
  refine ⟨fun hretired => ?_,?_⟩
  · obtain ⟨index',entry',generation',hentry',hhandle,hlt⟩ := h.retired table _ hretired
    have hindex' := (List.getElem?_eq_some_iff.mp hentry').1
    obtain ⟨rfl,rfl⟩ := encodeHandle_inj (hi.trans hcap) (hindex'.trans hcap) hhandle
    rw [hentry] at hentry'
    cases hentry'
    rw [ZiHandleTableEntry.rank_eq hgen] at hlt
    exact Nat.lt_irrefl _ hlt
  · obtain ⟨issue,hissue,htable,hhandle,hnames,hrights⟩ :=
      h.current table i entry hentry huse
    rw [hobj] at hnames
    exact ⟨issue,hissue,htable,hhandle,(Option.some.inj hnames).symm,hrights.symm.trans hgranted⟩

theorem HandleHistory.resolves {table : ι} {st' : HandleState ι}
    (hreference : referenceHandleEntry table handle st = .ok (obj, granted, st')) :
    HandleChange.retire table handle ∉ log ∧ ∃ issue, .issue issue ∈ log ∧ issue.table = table ∧
      issue.handle = handle ∧ issue.object = obj ∧ issue.grantedAccess = granted := by
  obtain ⟨i,gen,-,hdec,-,hnamed,-,-⟩ := referenceHandleEntry_ok hreference
  exact h.named hdec hnamed

theorem HandleHistory.start_derives [DecidableEq ι] (call : HandleCall ι) (id : κ) :
    ∀ task ∈ (call.start id st).rest, task.Derives log := by
  intro task htask
  have hstarts := call.start_starts id st
  generalize call.start id st = progress at hstarts htask
  cases hstarts with
  | dereferenced _ => exact releaseObject_derives task htask
  | closing => exact closeAllSection_derives task htask
  | @duplicated _ _ _ _ _ granted access _ _ hreference haccess hamplifies =>
    cases htask
    obtain ⟨-,issue,hissue,htable,hhandle,hobj,hgranted⟩ := h.resolves hreference
    have hsource : granted < 2^32 := hgranted ▸ (h.approved issue hissue).1
    have hbound : access < 2^32 := by
      rcases haccess with rfl | ⟨wanted,rfl⟩
      · exact hsource
      · exact wanted.isLt
    have hwithin := rightsWithin_of_not_amplifies hbound hsource hamplifies
    exact ⟨hbound,issue,hissue,htable,hhandle,hobj,hgranted.symm ▸ hwithin⟩
  | denied _ _ _ =>
    cases htask
    trivial
  | closed _ =>
    cases htask
    trivial
  | _ => cases htask

variable (hformed : ∀ t, (progress.state.tables t).WellFormed)

include hformed

theorem HandleHistory.keeps (hkeeps : progress.Keeps st) :
    HandleHistory descs progress.state log where
  formed := hformed
  secured := fun obj => (hkeeps.kinds obj).2.trans (h.secured obj)
  current := by
    intro t i entry hentry
    rw [hkeeps.entries] at hentry
    exact h.current t i entry hentry
  issued := by
    intro issue hissue
    rw [hkeeps.entries]
    exact h.issued issue hissue
  retired := by
    intro t handle hretired
    rw [hkeeps.entries]
    exact h.retired t handle hretired
  unique := h.unique
  approved := h.approved
  derived := h.derived

variable [DecidableEq ι]

theorem HandleHistory.retires {table : ι} (hretires : progress.Retires st table i entry) :
    HandleHistory descs progress.state
      (log ++ [.retire table (encodeHandle i entry.generation)]) := by
  have hmem := mem_of_getElem? hretires.entry_eq
  have hne := (h.formed table).generation_ne entry hmem hretires.inUse
  have hat := getElem?_entries_set hretires.entry_eq hretires.cleared hretires.others
  have hissues : ∀ issue, HandleChange.issue issue ∈
      log ++ [.retire table (encodeHandle i entry.generation)] ↔ .issue issue ∈ log := by
    intro issue
    simp
  have hslot := @exists_entries_set _ _ _ _ _ _ _ _ hretires.entry_eq hretires.cleared
    hretires.others
  -- The slot that was cleared goes to the next generation.
  have hnext := rank_nextGeneration entry none 0 0
  refine ⟨hformed,fun obj => (hretires.kinds obj).2.trans (h.secured obj),?_,?_,?_,?_,?_,?_⟩
  · intro t index' entry' hentry' huse'
    rw [hat] at hentry'
    split_ifs at hentry' with hhere
    · cases hentry'
      simp [ZiHandleTableEntry.inUse] at huse'
    obtain ⟨issue,hissue,hrest⟩ := h.current t index' entry' hentry' huse'
    exact ⟨issue,(hissues issue).mpr hissue,hrest⟩
  · intro issue hissue
    obtain ⟨index',entry',gen,hentry',hhandle,hrank⟩ :=
      h.issued issue ((hissues issue).mp hissue)
    obtain ⟨entry'',hentry'',⟨htable,rfl,rfl,rfl⟩ | rfl⟩ := hslot hentry'
    · refine ⟨index',_,gen,hentry'',hhandle,.inl ?_⟩
      rw [ZiHandleTableEntry.rank_eq hne] at hrank
      rcases hrank with ⟨hlt,hretired⟩ | ⟨rfl,-⟩
      · exact ⟨by omega,mem_append_left _ hretired⟩
      · refine ⟨by omega,mem_append_right _ ?_⟩
        rw [htable,hhandle]
        exact mem_singleton_self _
    · refine ⟨index',entry'',gen,hentry'',hhandle,?_⟩
      exact hrank.imp_left (And.imp_right fun hretired => mem_append_left _ hretired)
  · intro t handle hretired
    rcases mem_append.mp hretired with hold | hnew
    · obtain ⟨index',entry',gen,hentry',hhandle,hrank⟩ := h.retired t handle hold
      obtain ⟨entry'',hentry'',⟨-,-,rfl,rfl⟩ | rfl⟩ := hslot hentry'
      · refine ⟨index',_,gen,hentry'',hhandle,?_⟩
        rw [ZiHandleTableEntry.rank_eq hne] at hrank
        omega
      · exact ⟨index',entry'',gen,hentry'',hhandle,hrank⟩
    · rw [mem_singleton] at hnew
      cases hnew
      refine ⟨i,_,entry.generation,(hat table i).trans (if_pos ⟨rfl,rfl⟩),rfl,?_⟩
      exact hnext.symm ▸ Nat.lt_succ_self _
  · intro issue issue' hissue hissue'
    exact h.unique issue issue' ((hissues issue).mp hissue) ((hissues issue').mp hissue')
  · intro issue hissue
    exact h.approved issue ((hissues issue).mp hissue)
  · intro issue t handle hissue hsource
    obtain ⟨parent,hparent,hrest⟩ := h.derived issue t handle ((hissues issue).mp hissue) hsource
    exact ⟨parent,(hissues parent).mpr hparent,hrest⟩

theorem HandleHistory.issues {issue : IssuedHandle ι}
    (hissues : progress.Issues st issue wanted) (hreq : wanted < 2^32)
    (hsource : ∀ t handle, issue.source = some (t, handle) → ∃ parent, .issue parent ∈ log ∧
      parent.table = t ∧ parent.handle = handle ∧ parent.object = issue.object ∧
        RightsWithin wanted parent.grantedAccess) :
    HandleHistory descs progress.state (log ++ [.issue issue]) := by
  obtain ⟨-,desc,i,entry,header,hopened⟩ := hissues
  have hi := (List.getElem?_eq_some_iff.mp hopened.entry_eq).1
  have hcap := (h.formed issue.table).capacity
  have hwithin := ziSecurityAccessCheck_within hreq hopened.approved
  have hfilled : (progress.state.tables issue.table).entries =
      (st.tables issue.table).entries.set i { entry with
        object := some issue.object
        grantedAccess := issue.grantedAccess
        flags := handleEntryInUse } := by
    rw [hopened.state_eq,setTable_self]
    rfl
  have hothers : ∀ t, t ≠ issue.table →
      (progress.state.tables t).entries = (st.tables t).entries := by
    intro t ht
    rw [hopened.state_eq,setTable_of_ne ht]
    rfl
  have hat := getElem?_entries_set hopened.entry_eq hfilled hothers
  -- Every slot keeps its generation; only the one filled becomes used.
  have hslot : ∀ (t : ι) (index' : ℕ) (entry' : ZiHandleTableEntry),
      (st.tables t).entries[index']? = some entry' → ∃ entry'' : ZiHandleTableEntry,
        (progress.state.tables t).entries[index']? = some entry'' ∧
        entry''.generation = entry'.generation ∧ (entry'.inUse = true → entry''.inUse = true) := by
    intro t index' entry' hentry'
    obtain ⟨entry'',hentry'',⟨-,-,rfl,rfl⟩ | rfl⟩ :=
      exists_entries_set hopened.entry_eq hfilled hothers hentry'
    · exact ⟨_,hentry'',rfl,fun _ => by simp [ZiHandleTableEntry.inUse]⟩
    · exact ⟨_,hentry'',rfl,id⟩
  have hrank : ∀ {entry' entry'' : ZiHandleTableEntry}, entry''.generation = entry'.generation →
      entry''.rank = entry'.rank := by
    intro entry' entry'' heq
    rw [ZiHandleTableEntry.rank,ZiHandleTableEntry.rank,heq]
  -- The value is new: its generation has not been used in this slot.
  have hfresh : ∀ other, .issue other ∈ log → other.table = issue.table →
      other.handle ≠ issue.handle := by
    intro other hother htable hhandle
    obtain ⟨index',entry',gen,hentry',hother',hrank'⟩ := h.issued other hother
    rw [htable] at hentry'
    rw [hother',hopened.handle_eq] at hhandle
    have hindex' := (List.getElem?_eq_some_iff.mp hentry').1
    obtain ⟨rfl,rfl⟩ := encodeHandle_inj (hindex'.trans hcap) (hi.trans hcap) hhandle
    rw [hopened.entry_eq] at hentry'
    cases hentry'
    rw [ZiHandleTableEntry.rank_eq hopened.generation_ne] at hrank'
    rcases hrank' with ⟨hlt,-⟩ | ⟨-,huse⟩
    · exact Nat.lt_irrefl _ hlt
    · rw [hopened.free] at huse
      cases huse
  have hcases : ∀ other, .issue other ∈ log ++ [.issue issue] → .issue other ∈ log ∨
      other = issue := by
    intro other hother
    simpa using hother
  refine ⟨hformed,fun obj => (hopened.sameKind obj).2.trans (h.secured obj),?_,?_,?_,
    ?_,?_,?_⟩
  · intro t index' entry' hentry' huse'
    rw [hat] at hentry'
    split_ifs at hentry' with hhere
    · obtain ⟨rfl,rfl⟩ := hhere
      cases hentry'
      exact ⟨issue,mem_append_right _ (mem_singleton_self _),rfl,hopened.handle_eq,rfl,rfl⟩
    · obtain ⟨found,hfound,hrest⟩ := h.current t index' entry' hentry' huse'
      exact ⟨found,mem_append_left _ hfound,hrest⟩
  · intro other hother
    rcases hcases other hother with hmem | rfl
    · obtain ⟨index',entry',gen,hentry',hhandle,hbelow⟩ := h.issued other hmem
      obtain ⟨entry'',hentry'',hgen,huse⟩ := hslot other.table index' entry' hentry'
      refine ⟨index',entry'',gen,hentry'',hhandle,?_⟩
      rw [hrank hgen,hgen]
      exact hbelow.imp (And.imp_right fun hretired => mem_append_left _ hretired)
        (And.imp_right huse)
    · refine ⟨i,_,entry.generation,(hat _ i).trans (if_pos ⟨rfl,rfl⟩),hopened.handle_eq,
        .inr ⟨rfl,?_⟩⟩
      simp [ZiHandleTableEntry.inUse]
  · intro t handle hretired
    have hmem : .retire t handle ∈ log := by simpa using hretired
    obtain ⟨index',entry',gen,hentry',hhandle,hbelow⟩ := h.retired t handle hmem
    obtain ⟨entry'',hentry'',hgen,-⟩ := hslot t index' entry' hentry'
    exact ⟨index',entry'',gen,hentry'',hhandle,(hrank hgen).symm ▸ hbelow⟩
  · intro first second hfirst hsecond htable hhandle
    rcases hcases first hfirst with hold | rfl
    · rcases hcases second hsecond with hold' | rfl
      · exact h.unique first second hold hold' htable hhandle
      · exact absurd hhandle (hfresh first hold htable)
    · rcases hcases second hsecond with hold' | rfl
      · exact absurd hhandle.symm (hfresh second hold' htable.symm)
      · rfl
  · intro other hother
    rcases hcases other hother with hmem | rfl
    · exact h.approved other hmem
    · refine ⟨hwithin.lt hreq,desc,?_,?_⟩
      · rw [← h.secured]
        exact hopened.secured
      · exact ziSecurityAccessCheck_approves hreq hopened.approved
  · intro other t handle hother hfrom
    rcases hcases other hother with hmem | rfl
    · obtain ⟨parent,hparent,hrest⟩ := h.derived other t handle hmem hfrom
      exact ⟨parent,mem_append_left _ hparent,hrest⟩
    · obtain ⟨parent,hparent,htable,hhandle,hobj,hrights⟩ := hsource t handle hfrom
      exact ⟨parent,mem_append_left _ hparent,htable,hhandle,hobj,hwithin.trans hrights⟩

theorem HandleHistory.advance (hchange : progress.Keeps st ∨
      (∃ (issue : IssuedHandle ι) (wanted : ℕ), progress.Issues st issue wanted ∧
        wanted < 2^32 ∧ ∀ t handle, issue.source = some (t, handle) →
          ∃ parent, .issue parent ∈ log ∧ parent.table = t ∧ parent.handle = handle ∧
            parent.object = issue.object ∧ RightsWithin wanted parent.grantedAccess) ∨
      ∃ table i entry, progress.Retires st table i entry) : HandleHistory descs progress.state
      (log ++ progress.events.filterMap HandleEvent.change) := by
  rcases hchange with hkeeps | ⟨issue,wanted,hissues,hreq,hsource⟩ |
    ⟨table,i,entry,hretires⟩
  · rw [hkeeps.changes,append_nil]
    exact h.keeps hformed hkeeps
  · rw [hissues.1]
    exact h.issues hformed hissues hreq hsource
  · rw [hretires.changes]
    exact h.retires hformed hretires

end

/-! ## Runs -/

structure HandleRun.Historic (descriptors : ℕ → Option ZiSecurityDescriptor)
    (run : HandleRun ι κ) : Prop where
  history : HandleHistory descriptors run.state run.log
  pending : ∀ task ∈ run.tasks, task.Derives run.log

theorem HandleState.Initialised.historic (h : st.Initialised) :
    (HandleRun.start st : HandleRun ι κ).Historic fun obj =>
      (st.objects obj).securityDescriptor := by
  have hentries : ∀ (t : ι) (i : ℕ) (entry : ZiHandleTableEntry),
      (st.tables t).entries[i]? = some entry → entry.inUse = false := by
    intro t i entry hentry
    obtain ⟨cap,hcap⟩ := h.tables t
    obtain ⟨-,hpure⟩ := failIf_bind_ok_iff.mp hcap
    rw [pure_ok_iff.mp hpure] at hentry
    rw [eq_of_mem_replicate (mem_of_getElem? hentry)]
    rfl
  refine ⟨⟨fun t => ?_,fun _ => rfl,?_,nofun,nofun,nofun,nofun,nofun⟩,forall_mem_nil _⟩
  · obtain ⟨cap,hcap⟩ := h.tables t
    exact (ziHandleTableInitialise_wellFormed hcap).1
  · intro t i entry hentry huse
    rw [hentries t i entry hentry] at huse
    cases huse

variable [DecidableEq ι]

theorem HandleRun.Historic.step {run : HandleRun ι κ} (h : run.Historic descs)
    (action : HandleAction ι κ) : (run.step action).Historic descs := by
  have hformed := fun t => (h.history.formed t).step (run.tables_step action t)
  cases action with
  | start call id =>
    have hlog : (run.step (.start call id)).log =
        run.log ++ (call.start id run.state).events.filterMap HandleEvent.change :=
      filterMap_append
    refine ⟨?_,fun task htask => ?_⟩
    · rw [hlog]
      refine h.history.advance hformed ?_
      rcases call.start_change id h.history.formed with hkeeps | ⟨issue,access,hissues,hnone⟩ |
        hretires
      · exact .inl hkeeps
      · refine .inr (.inl ⟨issue,access.toNat,hissues,access.isLt,?_⟩)
        intro t handle hsource
        rw [hnone] at hsource
        cases hsource
      · exact .inr (.inr hretires)
    · rw [hlog]
      rcases mem_append.mp htask with hold | hnew
      · exact (h.pending task hold).append _
      · exact (h.history.start_derives call id task (Option.mem_toList.mp hnew)).append _
  | resume i =>
    rw [HandleRun.step] at hformed ⊢
    split
    · exact h
    · rename_i running hrunning
      have hpending := h.pending running (mem_of_getElem? hrunning)
      simp only [hrunning] at hformed
      have hlog : ∀ tasks, HandleRun.log ⟨(running.resume run.state).state,tasks,
          run.trace ++ (running.resume run.state).events⟩ =
          run.log ++ (running.resume run.state).events.filterMap HandleEvent.change :=
        fun _ => filterMap_append
      refine ⟨?_,fun task htask => ?_⟩
      · rw [hlog]
        refine h.history.advance hformed ?_
        rcases running.resume_change run.state with hkeeps | ⟨sourceTable,sourceHandle,
          targetTable,obj,targetToken,targetAccess,call,handle,granted,rfl,hissues⟩ |
          hretires
        · exact .inl hkeeps
        · refine .inr (.inl ⟨_,targetAccess,hissues,hpending.1,?_⟩)
          intro t sourced hsource
          cases hsource
          exact hpending.2
        · exact .inr (.inr hretires)
      · rw [hlog]
        rcases mem_append.mp htask with hold | hnew
        · exact (h.pending task (mem_of_mem_eraseIdx hold)).append _
        · exact running.resume_derives task (Option.mem_toList.mp hnew)

theorem HandleRun.Historic.after {run : HandleRun ι κ} (h : run.Historic descs)
    (actions : List (HandleAction ι κ)) : (run.after actions).Historic descs := by
  induction actions generalizing run with
  | nil => exact h
  | cons action actions ih => exact ih (h.step action)

end

end Zizium
