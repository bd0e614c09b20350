import Zizium.Executive.Channels
import Zizium.Executive.HandleHistory

/-!
# Handles as capabilities

What the handles given out by any sequence of calls on objects, handles and channels allow.
-/

namespace Zizium

open BlockIO

section

variable {ι κ : Type} [DecidableEq ι]

theorem HandleRun.after_append (run : HandleRun ι κ) (first second : List (HandleAction ι κ)) :
    run.after (first ++ second) = (run.after first).after second :=
  List.foldl_append

namespace IpcRun

theorem resumeTask_handles (run : IpcRun ι) (task : IpcTask) :
    ∃ actions, (run.resumeTask task).handles = run.handles.after actions := by
  have hperform : ∀ action, ∃ actions,
      (run.perform action).handles = run.handles.after actions := fun action => ⟨[action],rfl⟩
  cases task with
  | duplicate send channel peer message =>
    rw [resumeTask]
    split
    · exact hperform _
    · exact ⟨[],rfl⟩
  | enqueue send channel peer message queued =>
    rw [resumeTask]
    split <;> exact ⟨[],rfl⟩
  | rollback send peer handle status =>
    rw [resumeTask]
    split
    · exact hperform _
    · exact ⟨[],rfl⟩
  | release send peer result => exact hperform _
  | closing channel releases result =>
    cases releases with
    | nil => exact ⟨[],rfl⟩
    | cons first others =>
      cases first with
      | handle value =>
        rw [resumeTask]
        split
        · exact hperform _
        · exact ⟨[],rfl⟩
      | object number => exact hperform _

theorem step_handles (run : IpcRun ι) (action : IpcAction ι) :
    ∃ actions, (run.step action).handles = run.handles.after actions := by
  cases action with
  | handle call => exact ⟨[.start call .client],rfl⟩
  | pair client server queueLimit clientTable serverTable clientToken serverToken =>
    rw [step,pair]
    split
    · exact ⟨[],rfl⟩
    · split
      · exact ⟨[.start (.reference server) .client,.start (.reference client) .client],rfl⟩
      · exact ⟨[],rfl⟩
  | send channel message =>
    rw [step,send]
    dsimp only
    split
    · exact ⟨[],rfl⟩
    · split
      · exact ⟨[],rfl⟩
      · rename_i peer _ _
        exact ⟨[.start (.reference peer) .client],rfl⟩
  | receive channel =>
    rw [step,receive]
    split <;> exact ⟨[],rfl⟩
  | close channel =>
    rw [step,close]
    split
    · exact ⟨[],rfl⟩
    · split <;> exact ⟨[],rfl⟩
  | resumeHandle i => exact ⟨[.resume i],rfl⟩
  | resume i =>
    rw [step]
    split
    · exact ⟨[],rfl⟩
    · exact resumeTask_handles _ _

theorem after_handles (run : IpcRun ι) (actions : List (IpcAction ι)) :
    ∃ handleActions, (run.after actions).handles = run.handles.after handleActions := by
  induction actions generalizing run with
  | nil => exact ⟨[],rfl⟩
  | cons action actions ih =>
    obtain ⟨first,hfirst⟩ := run.step_handles action
    obtain ⟨others,hothers⟩ := ih (run.step action)
    refine ⟨first ++ others,?_⟩
    rwa [HandleRun.after_append,← hfirst]

end IpcRun

/-- The first handle was duplicated, or transferred, from the second. -/
def DerivedFrom (log : List (HandleChange ι)) (issue parent : IssuedHandle ι) : Prop :=
  .issue issue ∈ log ∧ .issue parent ∈ log ∧ issue.source = some (parent.table, parent.handle)

variable {descs : ℕ → Option ZiSecurityDescriptor} {st : HandleState ι}
  {log : List (HandleChange ι)}

omit [DecidableEq ι] in
theorem HandleHistory.derivedFrom (h : HandleHistory descs st log) {issue parent : IssuedHandle ι}
    (hderived : DerivedFrom log issue parent) :
    issue.object = parent.object ∧ RightsWithin issue.grantedAccess parent.grantedAccess := by
  obtain ⟨hissue,hparent,hsource⟩ := hderived
  obtain ⟨source,hmem,htable,hhandle,hobj,hrights⟩ :=
    h.derived issue parent.table parent.handle hissue hsource
  obtain rfl := h.unique source parent hmem hparent htable hhandle
  exact ⟨hobj.symm,hrights⟩

omit [DecidableEq ι] in
theorem HandleHistory.chain (h : HandleHistory descs st log) {issue ancestor : IssuedHandle ι}
    (hchain : Relation.ReflTransGen (DerivedFrom log) issue ancestor) :
    issue.object = ancestor.object ∧ RightsWithin issue.grantedAccess ancestor.grantedAccess := by
  induction hchain with
  | refl => exact ⟨rfl,fun _ hbit => hbit⟩
  | tail _ hlast ih =>
    obtain ⟨hobj,hrights⟩ := h.derivedFrom hlast
    exact ⟨ih.1.trans hobj,ih.2.trans hrights⟩

theorem lookup_ok {table : ι} {handle object : ℕ} {desiredAccess : ZiAccessMask}
    {expectedType : Option ℕ} {id : κ} (h : HandleEvent.returned id (.ok object) ∈
      ((HandleCall.lookup table handle desiredAccess expectedType).start id st).events) :
    ∃ granted st', referenceHandleEntry table handle st = .ok (object, granted, st') ∧
      amplifies desiredAccess.toNat granted ≠ true := by
  rw [HandleCall.start] at h
  split at h
  · simp at h
  · rename_i found granted st' hreference
    split_ifs at h with hamplifies htype
    · simp at h
    · simp at h
    · obtain rfl : object = found := by simpa using h
      exact ⟨granted,st',hreference,hamplifies⟩

/-- A handle that was closed, or never given out, does not resolve.  A lookup gives the object the
handle was given out for, and only rights that it has.  Along duplications and transfers rights only
shrink, and those of every handle are approved by the descriptor of its object for the token it was
opened with. -/
theorem handles_unforgeable (h : st.Initialised) (actions : List (IpcAction ι)) :
    let run := (IpcRun.start st).after actions
    let log := run.handles.log
    (∀ table handle, (.retire table handle ∈ log ∨
        ∀ issue, .issue issue ∈ log → issue.table = table → issue.handle ≠ handle) →
      (∀ result, referenceHandleEntry table handle run.handles.state ≠ .ok result) ∧
        ∀ result, closeHandleEntry table handle run.handles.state ≠ .ok result) ∧
    (∀ table handle desiredAccess expectedType (frame : IpcFrame) object,
      .returned frame (.ok object) ∈ ((HandleCall.lookup table handle desiredAccess
        expectedType).start frame run.handles.state).events →
      ∃ issue, (∀ other, (.issue other ∈ log ∧ other.table = table ∧ other.handle = handle) ↔
          other = issue) ∧
        issue.object = object ∧ RightsWithin desiredAccess.toNat issue.grantedAccess) ∧
    (∀ issue ancestor, Relation.ReflTransGen (DerivedFrom log) issue ancestor →
      issue.object = ancestor.object ∧ RightsWithin issue.grantedAccess ancestor.grantedAccess) ∧
    ∀ issue, .issue issue ∈ log →
      (∀ table handle, issue.source = some (table, handle) →
        ∃ parent, DerivedFrom log issue parent ∧
        parent.table = table ∧ parent.handle = handle) ∧
      ∃ descriptor, (st.objects issue.object).securityDescriptor = some descriptor ∧
        Approves descriptor issue.token issue.grantedAccess := by
  intro run log
  have hhistoric : run.handles.Historic fun object => (st.objects object).securityDescriptor := by
    obtain ⟨handleActions,hhandles⟩ := (IpcRun.start st).after_handles actions
    rw [hhandles]
    exact h.historic.after handleActions
  have hhistory := hhistoric.history
  refine ⟨fun table handle hgone => ⟨fun result hresult => ?_,fun result hresult => ?_⟩,
    fun table handle desiredAccess expectedType frame object hlookup => ?_,
    fun issue ancestor hchain => hhistory.chain hchain,fun issue hissue => ⟨?_,?_⟩⟩
  · obtain ⟨object,grantedAccess,st'⟩ := result
    obtain ⟨hkept,issue,hissue,htable,hhandle,-⟩ := hhistory.resolves hresult
    rcases hgone with hretired | hnever
    · exact hkept hretired
    · exact hnever issue hissue htable hhandle
  · obtain ⟨object,st'⟩ := result
    obtain ⟨⟨index,generation⟩,hdecode,hresult⟩ := Except.bind_ok_iff.mp hresult
    obtain ⟨⟨named,granted⟩,hnamed,-⟩ := Except.bind_ok_iff.mp hresult
    obtain ⟨hkept,issue,hissue,htable,hhandle,-⟩ := hhistory.named hdecode hnamed
    rcases hgone with hretired | hnever
    · exact hkept hretired
    · exact hnever issue hissue htable hhandle
  · obtain ⟨grantedAccess,st',hreference,hamplifies⟩ := lookup_ok hlookup
    obtain ⟨-,issue,hissue,htable,hhandle,hobject,hgranted⟩ := hhistory.resolves hreference
    refine ⟨issue,fun other => ⟨?_,?_⟩,hobject,?_⟩
    · rintro ⟨hother,htable',hhandle'⟩
      exact hhistory.unique other issue hother hissue (htable'.trans htable.symm)
        (hhandle'.trans hhandle.symm)
    · rintro rfl
      exact ⟨hissue,htable,hhandle⟩
    · refine rightsWithin_of_not_amplifies desiredAccess.isLt (hhistory.approved issue hissue).1 ?_
      rw [hgranted]
      exact hamplifies
  · intro table handle hsource
    obtain ⟨parent,hparent,htable,hhandle,-⟩ :=
      hhistory.derived issue table handle hissue hsource
    refine ⟨parent,⟨hissue,hparent,?_⟩,htable,hhandle⟩
    rw [hsource,htable,hhandle]
  · exact (hhistory.approved issue hissue).2

end

theorem handles_unforgeable_sample : sampleHandles.Initialised ∧
      ∀ result, referenceHandleEntry () 4294967297 ((IpcRun.start sampleHandles).after
          [.handle (.openObject () 0 ⟨40,1,⟨3,7⟩,[],0⟩ 1),
            .handle (.close () 4294967297)]).handles.state ≠ .ok result := by
  refine ⟨sampleHandles_initialised,?_⟩
  refine ((handles_unforgeable sampleHandles_initialised _).1 () 4294967297 (.inl ?_)).1
  exact List.mem_of_getElem? (i := 1) rfl

end Zizium
