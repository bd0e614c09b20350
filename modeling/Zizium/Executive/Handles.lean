import Zizium.Security

/-!
# Objects and handles

The reference and handle counts of `kernel/executive/object/object.c` and the handle tables of
`kernel/executive/handle/handle.c`.  A pointer to an object is its number, a pointer to a type is a
number as well, and `ι` numbers the tables.

A call takes a lock, works, releases the lock and may go on with another locked section; between
two sections a type's callback may run, and other calls may.  `HandleCall.start` is the first
section of a call, `HandleTask.resume` each later one.
-/

namespace Zizium

open BlockIO

abbrev objectFlagNewHandlesDisabled : ℕ := 1
abbrev handleEntryInUse : ℕ := 1
abbrev handleDuplicateSameAccess : ℕ := 1
abbrev ziInvalidHandle : ℕ := 0

abbrev ZiAccessMask := BitVec 32

/-! ## Objects -/

/-- Which callbacks a type has. -/
structure ZiObjectOperations where
  destroy : Bool
  lastHandleClosed : Bool
  deriving DecidableEq, Repr

structure ZiObjectHeader where
  type : ℕ
  securityDescriptor : Option ZiSecurityDescriptor
  operations : Option ZiObjectOperations
  referenceCount : ℕ
  handleCount : ℕ
  flags : ℕ
  isDestroyed : Bool
  deriving DecidableEq, Repr

namespace ZiObjectHeader

def hasDestroy (object : ZiObjectHeader) : Bool := object.operations.any (·.destroy)

def hasLastHandleClosed (object : ZiObjectHeader) : Bool :=
  object.operations.any (·.lastHandleClosed)

end ZiObjectHeader

def ziObjectInitialise (type : ℕ) (operations : ZiObjectOperations)
    (securityDescriptor : Option ZiSecurityDescriptor) : ZiObjectHeader where
  type := type
  securityDescriptor := securityDescriptor
  operations := some operations
  referenceCount := 1
  handleCount := 0
  flags := 0
  isDestroyed := false

def ziObjectReference (object : ZiObjectHeader) : Result ZiObjectHeader := do
  failIf (object.isDestroyed = true ∨ object.referenceCount = uint32Max) .invalidState
  pure { object with referenceCount := object.referenceCount+1 }

/-- Drop a reference, and tell whether the destroy routine is to run.  On failure the reference
has been put back. -/
def objectReleaseLocked (object : ZiObjectHeader) : Result (ZiObjectHeader × Bool) :=
  let released := { object with referenceCount := object.referenceCount-1 }
  if released.referenceCount ≠ 0 then pure (released, false)
  else if released.handleCount ≠ 0 then throw .invalidState
  else pure ({ released with isDestroyed := true }, released.hasDestroy)

/-- Up to the destroy routine. -/
def ziObjectDereference (object : ZiObjectHeader) : Result (ZiObjectHeader × Bool) := do
  failIf (object.isDestroyed = true ∨ object.referenceCount = 0) .invalidState
  objectReleaseLocked object

def ziObjectAddHandle (object : ZiObjectHeader) : Result ZiObjectHeader := do
  failIf (object.isDestroyed = true ∨ object.handleCount = uint32Max ∨
    object.referenceCount = uint32Max ∨ object.flags &&& objectFlagNewHandlesDisabled ≠ 0)
    .invalidState
  pure { object with
    referenceCount := object.referenceCount+1
    handleCount := object.handleCount+1 }

/-- The first locked section of `zi_object_remove_handle`.  The second does what
`ziObjectDereference` does. -/
def objectRemoveHandleLocked (object : ZiObjectHeader) : Result ZiObjectHeader := do
  failIf (object.isDestroyed = true ∨ object.handleCount = 0 ∨ object.referenceCount = 0)
    .invalidState
  let object := { object with handleCount := object.handleCount-1 }
  if object.handleCount = 0 ∧ object.hasLastHandleClosed = true then
    pure { object with flags := object.flags ||| objectFlagNewHandlesDisabled }
  else pure object

/-! ## Handle tables -/

structure ZiHandleTableEntry where
  object : Option ℕ
  grantedAccess : ℕ
  generation : ℕ
  flags : ℕ
  deriving DecidableEq, Repr

def ZiHandleTableEntry.inUse (entry : ZiHandleTableEntry) : Bool :=
  decide (entry.flags &&& handleEntryInUse ≠ 0)

/-- The capacity is the number of entries. -/
structure ZiHandleTable where
  entries : List ZiHandleTableEntry
  activeCount : ℕ
  isClosing : Bool
  deriving DecidableEq, Repr

def ziHandleTableInitialise (capacity : ℕ) : Result ZiHandleTable := do
  failIf (capacity = 0 ∨ capacity > uint32Max-1) .invalidArgument
  pure ⟨List.replicate capacity ⟨none,0,1,0⟩,0,false⟩

def encodeHandle (index generation : ℕ) : ℕ := (generation <<< 32) ||| (index+1)

def decodeHandle (table : ZiHandleTable) (handle : ℕ) : Result (ℕ × ℕ) := do
  failIf (table.entries.length = 0 ∨ handle = ziInvalidHandle) .invalidHandle
  let slot := handle &&& uint32Max
  let generation := handle >>> 32
  failIf (slot = 0 ∨ generation = 0 ∨ slot-1 ≥ table.entries.length) .invalidHandle
  pure (slot-1, generation)

def ZiHandleTable.nextGeneration (generation : ℕ) : ℕ :=
  if generation = uint32Max then 0 else generation+1

namespace ZiHandleTable

def namedAt (table : ZiHandleTable) (index generation : ℕ) : Result (ℕ × ℕ) :=
  match table.entries[index]? with
  | none => throw .invalidHandle
  | some entry =>
    if entry.inUse = false ∨ entry.generation ≠ generation then throw .invalidHandle
    else match entry.object with
      | none => throw .invalidHandle
      | some object => pure (object, entry.grantedAccess)

def fill (table : ZiHandleTable) (index : ℕ) (entry : ZiHandleTableEntry)
    (object grantedAccess : ℕ) : ZiHandleTable :=
  { table with
    entries := table.entries.set index
      { entry with
        object := some object, grantedAccess := grantedAccess, flags := handleEntryInUse }
    activeCount := table.activeCount+1 }

def clear (table : ZiHandleTable) (index generation : ℕ) : ZiHandleTable :=
  { table with
    entries := table.entries.set index ⟨none,0,ZiHandleTable.nextGeneration generation,0⟩
    activeCount := table.activeCount-1 }

end ZiHandleTable

/-- Objects and tables in memory. -/
structure HandleState (ι : Type) where
  objects : ℕ → ZiObjectHeader
  tables : ι → ZiHandleTable

section

variable {ι : Type} [DecidableEq ι]

def HandleState.setObject (st : HandleState ι) (object : ℕ) (header : ZiObjectHeader) :
    HandleState ι :=
  { st with objects := Function.update st.objects object header }

def HandleState.setTable (st : HandleState ι) (index : ι) (table : ZiHandleTable) : HandleState ι :=
  { st with tables := Function.update st.tables index table }

/-- Gives the rights as well, which the source leaves in the entry. -/
def ziHandleOpen (table : ι) (object : ℕ) (token : ZiAccessToken) (requestedAccess : ℕ)
    (st : HandleState ι) : Result (ℕ × ℕ × HandleState ι) := do
  failIf (requestedAccess = 0) .invalidArgument
  match (st.objects object).securityDescriptor with
  | none => throw .accessDenied
  | some descriptor =>
    let grantedAccess ← ziSecurityAccessCheck descriptor token requestedAccess
    failIf ((st.tables table).isClosing = true) .processTerminated
    let entries := (st.tables table).entries
    let index := entries.findIdx fun entry => !entry.inUse && decide (entry.generation ≠ 0)
    match entries[index]? with
    | none => throw .handleTableFull
    | some entry =>
      let header ← ziObjectAddHandle (st.objects object)
      pure (encodeHandle index entry.generation, grantedAccess,
        (st.setObject object header).setTable table
          ((st.tables table).fill index entry object grantedAccess))

def referenceHandleEntry (table : ι) (handle : ℕ) (st : HandleState ι) :
    Result (ℕ × ℕ × HandleState ι) := do
  let (index, generation) ← decodeHandle (st.tables table) handle
  failIf ((st.tables table).isClosing = true) .processTerminated
  let (object, grantedAccess) ← (st.tables table).namedAt index generation
  let header ← ziObjectReference (st.objects object)
  pure (object, grantedAccess, st.setObject object header)

/-- The locked section of `zi_handle_close`. -/
def closeHandleEntry (table : ι) (handle : ℕ) (st : HandleState ι) :
    Result (ℕ × HandleState ι) := do
  let (index, generation) ← decodeHandle (st.tables table) handle
  let (object, _) ← (st.tables table).namedAt index generation
  pure (object, st.setTable table ((st.tables table).clear index generation))

/-- A locked section of `zi_handle_table_close_all`: the next entry in use, cleared. -/
def closeNextEntry (table : ι) (index : ℕ) (st : HandleState ι) :
    Option (ℕ × ZiHandleTableEntry × HandleState ι) :=
  let entries := (st.tables table).entries
  let found := index+(entries.drop index).findIdx (·.inUse)
  match entries[found]? with
  | none => none
  | some entry =>
    some (found, entry, st.setTable table ((st.tables table).clear found entry.generation))

end

/-- Whether a mask has rights that another lacks. -/
def amplifies (access grantedAccess : ℕ) : Bool :=
  decide (access &&& (uint32Max-grantedAccess) ≠ 0)

/-! ## Calls -/

/-- The public calls. -/
inductive HandleCall (ι : Type) where
  | reference (object : ℕ)
  | dereference (object : ℕ)
  | openObject (table : ι) (object : ℕ) (token : ZiAccessToken) (requestedAccess : ZiAccessMask)
  | lookup (table : ι) (handle : ℕ) (desiredAccess : ZiAccessMask) (expectedType : Option ℕ)
  | duplicate (sourceTable : ι) (sourceHandle : ℕ) (targetTable : ι) (targetToken : ZiAccessToken)
      (requestedAccess : ZiAccessMask) (flags : ℕ)
  | close (table : ι) (handle : ℕ)
  | closeAll (table : ι)

/-- What is left to do with the status of a released reference.  `κ` tells the calls apart. -/
inductive HandleCaller (ι κ : Type) where
  | dereference (call : κ)
  | close (call : κ)
  | closeAll (table : ι) (index : ℕ) (firstFailure : Result Unit) (call : κ)
  -- A lookup or a duplication, which ignores the status.
  | answer (result : Result ℕ) (call : κ)

/-- A call between two sections. -/
inductive HandleTask (ι κ : Type) where
  | removeHandle (object : ℕ) (caller : HandleCaller ι κ)
  -- The handle is no longer counted; the last-handle callback may be running.
  | releaseHandle (object : ℕ) (caller : HandleCaller ι κ)
  | dereference (object : ℕ) (caller : HandleCaller ι κ)
  | destroy (object : ℕ) (caller : HandleCaller ι κ)
  | openTarget (sourceTable : ι) (sourceHandle : ℕ) (targetTable : ι) (object : ℕ)
      (targetToken : ZiAccessToken) (targetAccess : ℕ) (call : κ)
  | closeAll (table : ι) (index : ℕ) (firstFailure : Result Unit) (call : κ)

/-- A handle as it was given out, with the handle it was duplicated from. -/
structure IssuedHandle (ι : Type) where
  table : ι
  handle : ℕ
  object : ℕ
  grantedAccess : ℕ
  token : ZiAccessToken
  source : Option (ι × ℕ)

/-- What can be seen of a run from outside. -/
inductive HandleEvent (ι κ : Type) where
  | returned (call : κ) (result : Result ℕ)
  -- The caller has received a reference, and given one back.
  | referenced (object : ℕ)
  | dereferenced (object : ℕ)
  | issued (handle : IssuedHandle ι)
  | retired (table : ι) (handle : ℕ)
  -- The end of a `zi_handle_close` that found its entry.
  | closeReturned (result : Result Unit)
  | closeAllReturned (table : ι) (result : Result Unit)
  | destroyed (object : ℕ)

/-- A section: the memory after it, what is left of the call and what was seen. -/
structure HandleProgress (ι κ : Type) where
  state : HandleState ι
  rest : Option (HandleTask ι κ)
  events : List (HandleEvent ι κ)

namespace HandleCaller

variable {ι κ : Type}

/-- The reference has been released with a status. -/
def resume (caller : HandleCaller ι κ) (status : Result Unit) (st : HandleState ι) :
    HandleProgress ι κ :=
  match caller with
  | dereference call => ⟨st,none,[.returned call (status.map fun _ => 0)]⟩
  | close call => ⟨st,none,[.closeReturned status,.returned call (status.map fun _ => 0)]⟩
  | closeAll table index firstFailure call =>
    ⟨st,some (.closeAll table index (firstFailure >>= fun _ => status) call),[]⟩
  | answer result call => ⟨st,none,[.returned call result]⟩

end HandleCaller

section

variable {ι κ : Type} [DecidableEq ι]

/-- Release a reference, and leave the destroy routine to be run. -/
def releaseObject (object : ℕ) (caller : HandleCaller ι κ) (st : HandleState ι) :
    HandleProgress ι κ :=
  match ziObjectDereference (st.objects object) with
  | .error status => caller.resume (.error status) st
  | .ok (header, true) => ⟨st.setObject object header,some (.destroy object caller),[]⟩
  | .ok (header, false) => caller.resume (.ok ()) (st.setObject object header)

/-- A section of `zi_handle_table_close_all`. -/
def closeAllSection (table : ι) (index : ℕ) (firstFailure : Result Unit) (call : κ)
    (st : HandleState ι) : HandleProgress ι κ :=
  match closeNextEntry table index st with
  | none =>
    ⟨st,none,[.closeAllReturned table firstFailure,.returned call (firstFailure.map fun _ => 0)]⟩
  | some (found, entry, st) =>
    let caller := HandleCaller.closeAll table (found+1) firstFailure call
    let retired := HandleEvent.retired table (encodeHandle found entry.generation)
    match entry.object with
    | some object => ⟨st,some (.removeHandle object caller),[retired]⟩
    | none =>
      let progress := caller.resume (.error .invalidArgument) st
      { progress with events := retired :: progress.events }

/-- The first section of a call. -/
def HandleCall.start (call : HandleCall ι) (id : κ) (st : HandleState ι) : HandleProgress ι κ :=
  match call with
  | reference object =>
    match ziObjectReference (st.objects object) with
    | .error status => ⟨st,none,[.returned id (.error status)]⟩
    | .ok header => ⟨st.setObject object header,none,[.referenced object,.returned id (.ok 0)]⟩
  | dereference object =>
    match ziObjectDereference (st.objects object) with
    | .error status => ⟨st,none,[.returned id (.error status)]⟩
    | .ok _ =>
      let progress := releaseObject object (.dereference id) st
      { progress with events := .dereferenced object :: progress.events }
  | openObject table object token requestedAccess =>
    match ziHandleOpen table object token requestedAccess.toNat st with
    | .error status => ⟨st,none,[.returned id (.error status)]⟩
    | .ok (handle, grantedAccess, st) =>
      ⟨st,none,[.issued ⟨table,handle,object,grantedAccess,token,none⟩,.returned id (.ok handle)]⟩
  | lookup table handle desiredAccess expectedType =>
    match referenceHandleEntry table handle st with
    | .error status => ⟨st,none,[.returned id (.error status)]⟩
    | .ok (object, grantedAccess, st) =>
      if amplifies desiredAccess.toNat grantedAccess = true then
        ⟨st,some (.dereference object (.answer (.error .accessDenied) id)),[]⟩
      else if expectedType.any (· ≠ (st.objects object).type) = true then
        ⟨st,some (.dereference object (.answer (.error .invalidHandle) id)),[]⟩
      else ⟨st,none,[.referenced object,.returned id (.ok object)]⟩
  | duplicate sourceTable sourceHandle targetTable targetToken requestedAccess flags =>
    if flags &&& (uint32Max-handleDuplicateSameAccess) ≠ 0 ∨
        (flags &&& handleDuplicateSameAccess = 0 ∧ requestedAccess = 0) then
      ⟨st,none,[.returned id (.error .invalidArgument)]⟩
    else
      match referenceHandleEntry sourceTable sourceHandle st with
      | .error status => ⟨st,none,[.returned id (.error status)]⟩
      | .ok (object, sourceAccess, st) =>
        let targetAccess :=
          if flags &&& handleDuplicateSameAccess ≠ 0 then sourceAccess else requestedAccess.toNat
        if amplifies targetAccess sourceAccess = true then
          ⟨st,some (.dereference object (.answer (.error .accessDenied) id)),[]⟩
        else
          ⟨st,some (.openTarget sourceTable sourceHandle targetTable object targetToken
            targetAccess id),[]⟩
  | close table handle =>
    match closeHandleEntry table handle st with
    | .error status => ⟨st,none,[.returned id (.error status)]⟩
    | .ok (object, st) => ⟨st,some (.removeHandle object (.close id)),[.retired table handle]⟩
  | closeAll table =>
    if (st.tables table).entries.length = 0 then
      ⟨st,none,[.returned id (.error .invalidArgument)]⟩
    else
      closeAllSection table 0 (.ok ()) id
        (st.setTable table { st.tables table with isClosing := true })

/-- The next section of a call. -/
def HandleTask.resume (task : HandleTask ι κ) (st : HandleState ι) : HandleProgress ι κ :=
  match task with
  | removeHandle object caller =>
    match objectRemoveHandleLocked (st.objects object) with
    | .error status => caller.resume (.error status) st
    | .ok header => ⟨st.setObject object header,some (.releaseHandle object caller),[]⟩
  | releaseHandle object caller => releaseObject object caller st
  | dereference object caller => releaseObject object caller st
  | destroy object caller =>
    let progress := caller.resume (.ok ()) st
    { progress with events := .destroyed object :: progress.events }
  | openTarget sourceTable sourceHandle targetTable object targetToken targetAccess call =>
    match ziHandleOpen targetTable object targetToken targetAccess st with
    | .error status => ⟨st,some (.dereference object (.answer (.error status) call)),[]⟩
    | .ok (handle, grantedAccess, st) =>
      ⟨st,some (.dereference object (.answer (.ok handle) call)),
        [.issued ⟨targetTable,handle,object,grantedAccess,targetToken,
          some (sourceTable, sourceHandle)⟩]⟩
  | closeAll table index firstFailure call => closeAllSection table index firstFailure call st

/-! ## Runs -/

/-- Start a call, or go on with one that is in progress. -/
inductive HandleAction (ι κ : Type) where
  | start (call : HandleCall ι) (id : κ)
  | resume (task : ℕ)

/-- The memory, the calls in progress and what has been seen. -/
structure HandleRun (ι κ : Type) where
  state : HandleState ι
  tasks : List (HandleTask ι κ)
  trace : List (HandleEvent ι κ)

namespace HandleRun

def start (st : HandleState ι) : HandleRun ι κ := ⟨st,[],[]⟩

def step (run : HandleRun ι κ) (action : HandleAction ι κ) : HandleRun ι κ :=
  match action with
  | .start call id =>
    let progress := call.start id run.state
    ⟨progress.state,run.tasks ++ progress.rest.toList,run.trace ++ progress.events⟩
  | .resume index =>
    match run.tasks[index]? with
    | none => run
    | some task =>
      let progress := task.resume run.state
      ⟨progress.state,run.tasks.eraseIdx index ++ progress.rest.toList,run.trace ++ progress.events⟩

def after (run : HandleRun ι κ) (actions : List (HandleAction ι κ)) : HandleRun ι κ :=
  actions.foldl step run

end HandleRun

end

end Zizium
