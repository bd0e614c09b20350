import Zizium.Runtime

/-!
# The scheduler

`kernel/executive/scheduler/scheduler.c`: ready queues of threads, one for each priority, as doubly
linked lists through the threads, and a bitmap of the queues in use.
-/

namespace Zizium

open BlockIO

abbrev schedulerPriorityCount : ℕ := 32
abbrev schedulerDynamicPriorityMax : ℕ := 15
abbrev schedulerRealtimePriorityMin : ℕ := 16
abbrev schedulerDefaultQuantum : ℕ := 2

/-- A pointer that is not null. -/
abbrev ThreadPointer : Type := Fin 0xffffffffffffffff

inductive ZiThreadState where
  | initialised
  | ready
  | running
  | waiting
  | transition
  | terminated
  deriving DecidableEq, Repr

structure ZxThread where
  readyPrevious : Option ThreadPointer
  readyNext : Option ThreadPointer
  affinityMask : ℕ
  priority : ℕ
  basePriority : ℕ
  quantum : ℕ
  quantumRemaining : ℕ
  state : ZiThreadState
  isQueued : Bool
  deriving DecidableEq, Repr

structure ZxReadyQueue where
  head : Option ThreadPointer
  tail : Option ThreadPointer
  count : ℕ
  deriving DecidableEq, Repr

/-- There are `schedulerPriorityCount` queues. -/
structure ZxScheduler where
  readyQueues : ℕ → ZxReadyQueue
  readyBitmap : BitVec 32
  cpuIndex : ℕ
  currentThread : Option ThreadPointer
  idleThread : Option ThreadPointer
  tickCount : ℕ
  quantumExpiryCount : ℕ
  contextSwitchCount : ℕ

structure ZiSchedulerDispatch where
  previousThread : ThreadPointer
  nextThread : ThreadPointer
  quantumExpired : Bool
  didSwitch : Bool
  deriving DecidableEq, Repr

/-- A scheduler and the threads in memory. -/
structure SchedulerState where
  scheduler : ZxScheduler
  threads : ThreadPointer → ZxThread

namespace SchedulerState

/-- Write to the fields of a thread. -/
def modify (s : SchedulerState) (thread : ThreadPointer) (f : ZxThread → ZxThread) :
    SchedulerState :=
  { s with threads := Function.update s.threads thread (f (s.threads thread)) }

def setQueue (s : SchedulerState) (priority : ℕ) (queue : ZxReadyQueue) : SchedulerState :=
  { s with scheduler := { s.scheduler with
      readyQueues := Function.update s.scheduler.readyQueues priority queue } }

def setBitmap (s : SchedulerState) (bitmap : BitVec 32) : SchedulerState :=
  { s with scheduler := { s.scheduler with readyBitmap := bitmap } }

def setCurrent (s : SchedulerState) (thread : Option ThreadPointer) : SchedulerState :=
  { s with scheduler := { s.scheduler with currentThread := thread } }

end SchedulerState

def ziSchedulerInitialise (cpuIndex : ℕ) (idleThread : Option ThreadPointer) : ZxScheduler where
  readyQueues _ := ⟨none,none,0⟩
  readyBitmap := 0
  cpuIndex := cpuIndex
  currentThread := idleThread
  idleThread := idleThread
  tickCount := 0
  quantumExpiryCount := 0
  contextSwitchCount := 0

def ziSchedulerEnqueue (thread : ThreadPointer) (s : SchedulerState) :
    Result Unit × SchedulerState :=
  let priority := (s.threads thread).priority
  if schedulerPriorityCount ≤ priority ∨ (s.threads thread).isQueued = true ∨
      (s.threads thread).state = .terminated then (.error .invalidArgument, s)
  else
    let queue := s.scheduler.readyQueues priority
    let s := s.modify thread fun fields =>
      { fields with readyPrevious := queue.tail, readyNext := none }
    let (s, head) :=
      match queue.tail with
      | some last => (s.modify last fun fields => { fields with readyNext := some thread },
          queue.head)
      | none => (s, some thread)
    let s := s.setQueue priority ⟨head,some thread,(queue.count+1)%2^64⟩
    let s := s.modify thread fun fields => { fields with isQueued := true, state := .ready }
    (.ok (), s.setBitmap (s.scheduler.readyBitmap ||| 1#32 <<< priority))

/-- The thread before leads past the thread. -/
def bypassNext (thread : ThreadPointer) (s : SchedulerState) : SchedulerState :=
  match (s.threads thread).readyPrevious with
  | some previous => s.modify previous fun fields =>
      { fields with readyNext := (s.threads thread).readyNext }
  | none => s

/-- The thread after leads back past the thread. -/
def bypassPrevious (thread : ThreadPointer) (s : SchedulerState) : SchedulerState :=
  match (s.threads thread).readyNext with
  | some next => s.modify next fun fields =>
      { fields with readyPrevious := (s.threads thread).readyPrevious }
  | none => s

def ziSchedulerRemove (thread : ThreadPointer) (s : SchedulerState) :
    Result Unit × SchedulerState :=
  let priority := (s.threads thread).priority
  if schedulerPriorityCount ≤ priority ∨ (s.threads thread).isQueued = false then
    (.error .invalidArgument, s)
  else
    let queue := s.scheduler.readyQueues priority
    let head := if (s.threads thread).readyPrevious = none then (s.threads thread).readyNext
      else queue.head
    let s := bypassNext thread s
    let tail := if (s.threads thread).readyNext = none then (s.threads thread).readyPrevious
      else queue.tail
    let s := bypassPrevious thread s
    let s := s.modify thread fun fields =>
      { fields with readyPrevious := none, readyNext := none, isQueued := false }
    let count := (queue.count+(2^64-1))%2^64
    let s := s.setQueue priority ⟨head,tail,count⟩
    (.ok (), if count = 0 then
      s.setBitmap (s.scheduler.readyBitmap &&& ~~~(1#32 <<< priority)) else s)

def highestReadyPriority (bitmap : BitVec 32) : ℕ :=
  ((List.range schedulerPriorityCount).reverse.find? fun candidate =>
    bitmap &&& 1#32 <<< candidate ≠ 0#32).getD 0

def threadCanRunOnCpu (thread : ZxThread) (cpuIndex : ℕ) : Bool :=
  if 64 ≤ cpuIndex then false else thread.affinityMask.testBit cpuIndex

/-- The loop along a queue.  A walk with more rounds than there are pointers has no end. -/
def firstRunnable (s : SchedulerState) : ℕ → Option ThreadPointer → Option ThreadPointer
  | 0, _ => none
  | _, none => none
  | rounds+1, some thread =>
    if threadCanRunOnCpu (s.threads thread) s.scheduler.cpuIndex = true then some thread
    else firstRunnable s rounds (s.threads thread).readyNext

def selectIdle (s : SchedulerState) : Option ThreadPointer × SchedulerState :=
  let s := s.setCurrent s.scheduler.idleThread
  match s.scheduler.idleThread with
  | none => (none, s)
  | some idle => (some idle, s.modify idle fun fields => { fields with state := .running })

def selectLoop : ℕ → BitVec 32 → SchedulerState → Option ThreadPointer × SchedulerState
  | 0, _, s => selectIdle s
  | rounds+1, remaining, s =>
    if remaining = 0#32 then selectIdle s
    else
      let priority := highestReadyPriority remaining
      let queue := s.scheduler.readyQueues priority
      match firstRunnable s (2^64) queue.head with
      | some thread =>
        match ziSchedulerRemove thread s with
        | (.error _, s) => (none, s)
        | (.ok (), s) =>
          (some thread, (s.modify thread fun fields => { fields with state := .running }).setCurrent
              (some thread))
      | none => selectLoop rounds (remaining &&& ~~~(1#32 <<< priority)) s

def ziSchedulerSelectNext (s : SchedulerState) : Option ThreadPointer × SchedulerState :=
  selectLoop schedulerPriorityCount s.scheduler.readyBitmap s

def ZxThread.withQuantum (thread : ZxThread) : ZxThread :=
  let quantum := if thread.quantum = 0 then schedulerDefaultQuantum else thread.quantum
  { thread with
    quantum := quantum
    quantumRemaining := if thread.quantumRemaining = 0 then quantum else thread.quantumRemaining }

def tickQuantum (current : ThreadPointer) (s : SchedulerState) : Bool × Bool × SchedulerState :=
  if some current ≠ s.scheduler.idleThread ∧ (s.threads current).state = .running then
    let s := s.modify current fun fields =>
      { fields.withQuantum with quantumRemaining := fields.withQuantum.quantumRemaining-1 }
    if (s.threads current).quantumRemaining = 0 then
      (true, true, { s with scheduler := { s.scheduler with
        quantumExpiryCount := (s.scheduler.quantumExpiryCount+1)%2^64 } })
    else
      (false, s.scheduler.readyBitmap ≠ 0#32 ∧
        (s.threads current).priority < highestReadyPriority s.scheduler.readyBitmap, s)
  else if (s.threads current).state ≠ .running then (false, true, s)
  else (false, some current = s.scheduler.idleThread ∧ s.scheduler.readyBitmap ≠ 0#32, s)

/-- The last part of a tick, after the running thread is queued again. -/
def tickSelect (current : ThreadPointer) (quantumExpired : Bool) (s : SchedulerState) :
    Result ZiSchedulerDispatch × SchedulerState :=
  match ziSchedulerSelectNext s with
  | (none, s) => (.error .invalidState, s)
  | (some next, s) =>
    let s := s.modify next ZxThread.withQuantum
    if next ≠ current then
      (.ok ⟨current,next,quantumExpired,true⟩, { s with scheduler := { s.scheduler with
        contextSwitchCount := (s.scheduler.contextSwitchCount+1)%2^64 } })
    else (.ok ⟨current,next,quantumExpired,false⟩, s)

def ziSchedulerOnTick (s : SchedulerState) : Result ZiSchedulerDispatch × SchedulerState :=
  match s.scheduler.currentThread with
  | none => (.error .invalidArgument, s)
  | some current =>
    let s := { s with scheduler := { s.scheduler with
      tickCount := (s.scheduler.tickCount+1)%2^64 } }
    let (quantumExpired, shouldDispatch, s) := tickQuantum current s
    if shouldDispatch = false then (.ok ⟨current,current,quantumExpired,false⟩, s)
    else if some current ≠ s.scheduler.idleThread ∧ (s.threads current).state = .running then
      let s := s.modify current fun fields => { fields with quantumRemaining := fields.quantum }
      match ziSchedulerEnqueue current s with
      | (.error status, s) => (.error status, s)
      | (.ok (), s) => tickSelect current quantumExpired s
    else tickSelect current quantumExpired s

def ziSchedulerBoostPriority (thread : ThreadPointer) (increment : ℕ) (s : SchedulerState) :
    SchedulerState :=
  let priority := (s.threads thread).priority
  if schedulerRealtimePriorityMin ≤ priority then s
  else
    let maximumIncrement := schedulerDynamicPriorityMax-priority
    s.modify thread fun fields => { fields with priority :=
      priority+if increment < maximumIncrement then increment else maximumIncrement }

def ziSchedulerDecayPriority (thread : ThreadPointer) (s : SchedulerState) : SchedulerState :=
  let priority := (s.threads thread).priority
  if schedulerRealtimePriorityMin ≤ priority then s
  else if (s.threads thread).basePriority < priority then
    s.modify thread fun fields => { fields with priority := priority-1 }
  else s

def changePriority (thread : ThreadPointer) (priority : ℕ) (s : SchedulerState) :
    Result Unit × SchedulerState :=
  if (s.threads thread).isQueued = true then
    match ziSchedulerRemove thread s with
    | (.error _, s) => (.error .invalidState, s)
    | (.ok (), s) =>
      ziSchedulerEnqueue thread (s.modify thread fun fields => { fields with priority := priority })
  else (.ok (), s.modify thread fun fields => { fields with priority := priority })

def ziSchedulerInheritPriority (thread : ThreadPointer) (inheritedPriority : ℕ)
    (s : SchedulerState) : Result Unit × SchedulerState :=
  let target := if inheritedPriority < schedulerRealtimePriorityMin then inheritedPriority
    else schedulerDynamicPriorityMax
  if schedulerPriorityCount ≤ inheritedPriority then (.error .invalidArgument, s)
  else if schedulerRealtimePriorityMin ≤ (s.threads thread).priority then (.ok (), s)
  else if target ≤ (s.threads thread).priority then (.ok (), s)
  else changePriority thread target s

def ziSchedulerRestoreBasePriority (thread : ThreadPointer) (s : SchedulerState) :
    Result Unit × SchedulerState :=
  let base := (s.threads thread).basePriority
  if schedulerPriorityCount ≤ base then (.error .invalidArgument, s)
  else if (s.threads thread).priority = base ∨
      schedulerRealtimePriorityMin ≤ (s.threads thread).priority then (.ok (), s)
  else changePriority thread base s

end Zizium
