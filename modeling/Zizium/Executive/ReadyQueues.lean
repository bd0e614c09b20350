import Zizium.Executive.Scheduler
import Zizium.Linked.Segment
import Mathlib.Data.Fintype.Card

/-!
# The ready queues

The ready queues as lists of threads: what each call does to them, and which calls keep each
queued thread in the queue of its priority.
-/

namespace Zizium

open BlockIO Linked SchedulerState Function List

variable {own : ThreadPointer → Prop} {queues : ℕ → List ThreadPointer} {thread : ThreadPointer}
  {p q : ℕ} {f : ZxThread → ZxThread} {queue : ZxReadyQueue} {xs before : List ThreadPointer}

namespace SchedulerState

def previous (s : SchedulerState) (thread : ThreadPointer) : Option ThreadPointer :=
  (s.threads thread).readyPrevious

def next (s : SchedulerState) (thread : ThreadPointer) : Option ThreadPointer :=
  (s.threads thread).readyNext

def queued (s : SchedulerState) (thread : ThreadPointer) : Bool := (s.threads thread).isQueued

def priority (s : SchedulerState) (thread : ThreadPointer) : ℕ := (s.threads thread).priority

end SchedulerState

/-- The ready queues are well-formed lists of the queued threads of the scheduler, each in the
queue of its priority, and the bitmap tells which are in use. -/
structure ReadyQueues (own : ThreadPointer → Prop) (s : SchedulerState)
    (queues : ℕ → List ThreadPointer) : Prop where
  linked : ∀ p, Segment s.previous s.next none (queues p) none
  nodup : ∀ p, (queues p).Nodup
  head : ∀ p, (s.scheduler.readyQueues p).head = (queues p).head?
  tail : ∀ p, (s.scheduler.readyQueues p).tail = (queues p).getLast?
  count : ∀ p, (s.scheduler.readyQueues p).count = (queues p).length
  mem : ∀ p thread, thread ∈ queues p ↔
    own thread ∧ s.queued thread = true ∧ s.priority thread = p
  valid : ∀ thread, own thread → s.queued thread = true →
    s.priority thread < schedulerPriorityCount
  bitmap : ∀ p, p < schedulerPriorityCount →
    (s.scheduler.readyBitmap.getLsbD p = true ↔ queues p ≠ [])

section

variable {s s' : SchedulerState}

theorem ReadyQueues.congr (h : ReadyQueues own s queues) (hprev : s'.previous = s.previous)
    (hnext : s'.next = s.next) (hqueued : s'.queued = s.queued)
    (hpri : ∀ thread, s.queued thread = true → s'.priority thread = s.priority thread)
    (hqueues : s'.scheduler.readyQueues = s.scheduler.readyQueues)
    (hbitmap : s'.scheduler.readyBitmap = s.scheduler.readyBitmap) : ReadyQueues own s' queues where
  linked := by
    rw [hprev,hnext]
    exact h.linked
  nodup := h.nodup
  head := by
    rw [hqueues]
    exact h.head
  tail := by
    rw [hqueues]
    exact h.tail
  count := by
    rw [hqueues]
    exact h.count
  mem := by
    intro p thread
    rw [h.mem,hqueued]
    refine and_congr_right fun _ => and_congr_right fun hin => ?_
    rw [hpri thread hin]
  valid := by
    intro thread hown hin
    rw [hqueued] at hin
    rw [hpri thread hin]
    exact h.valid thread hown hin
  bitmap := by
    rw [hbitmap]
    exact h.bitmap

@[simp] theorem threads_modify (y : ThreadPointer) :
    (s.modify thread f).threads y = if y = thread then f (s.threads thread) else s.threads y := by
  exact update_apply _ _ _ _

theorem modify_field {β : Type} (field : ZxThread → β) {y : ThreadPointer}
    (hsame : y = thread → field (f (s.threads thread)) = field (s.threads thread)) :
    field ((s.modify thread f).threads y) = field (s.threads y) := by
  rw [threads_modify]
  split
  next heq => rw [hsame heq,heq]
  · rfl

theorem ReadyQueues.modify (h : ReadyQueues own s queues)
    (hlinks : ∀ fields, (f fields).readyPrevious = fields.readyPrevious ∧
      (f fields).readyNext = fields.readyNext ∧ (f fields).isQueued = fields.isQueued)
    (hpri : s.queued thread = true →
      (f (s.threads thread)).priority = (s.threads thread).priority) :
    ReadyQueues own (s.modify thread f) queues := by
  refine h.congr ?_ ?_ ?_ ?_ rfl rfl
  · funext other
    exact modify_field ZxThread.readyPrevious fun _ => (hlinks _).1
  · funext other
    exact modify_field ZxThread.readyNext fun _ => (hlinks _).2.1
  · funext other
    exact modify_field ZxThread.isQueued fun _ => (hlinks _).2.2
  · intro other hin
    refine modify_field ZxThread.priority fun heq => hpri ?_
    rwa [← heq]

/-- The thread has been put at the end of a queue. -/
structure Enqueued (s s' : SchedulerState) (thread : ThreadPointer) (queue : ZxReadyQueue) :
    Prop where
  threads : ∀ y, s'.threads y =
    if y = thread then { s.threads y with
      readyPrevious := queue.tail, readyNext := none, isQueued := true, state := .ready }
    else if queue.tail = some y then { s.threads y with readyNext := some thread }
    else s.threads y
  scheduler : s'.scheduler = { s.scheduler with
    readyQueues := update s.scheduler.readyQueues (s.priority thread)
      ⟨if queue.tail = none then some thread else queue.head,some thread,(queue.count+1)%2^64⟩
    readyBitmap := s.scheduler.readyBitmap ||| 1#32 <<< s.priority thread }

/-- The thread has been taken out of a queue. -/
structure Dequeued (s s' : SchedulerState) (thread : ThreadPointer) (queue : ZxReadyQueue) :
    Prop where
  threads : ∀ y, s'.threads y =
    if y = thread then { s.threads y with
      readyPrevious := none, readyNext := none, isQueued := false }
    else { s.threads y with
      readyPrevious := if s.next thread = some y then s.previous thread else s.previous y
      readyNext := if s.previous thread = some y then s.next thread else s.next y }
  scheduler : s'.scheduler = { s.scheduler with
    readyQueues := update s.scheduler.readyQueues (s.priority thread)
      ⟨if s.previous thread = none then s.next thread else queue.head,
        if s.next thread = none then s.previous thread else queue.tail,(queue.count+(2^64-1))%2^64⟩
    readyBitmap := if (queue.count+(2^64-1))%2^64 = 0 then
      s.scheduler.readyBitmap &&& ~~~(1#32 <<< s.priority thread) else s.scheduler.readyBitmap }

@[simp] theorem scheduler_modify : (s.modify thread f).scheduler = s.scheduler := rfl

@[simp] theorem threads_setQueue : (s.setQueue p queue).threads = s.threads :=
  rfl

@[simp] theorem threads_setBitmap {bitmap : BitVec 32} : (s.setBitmap bitmap).threads = s.threads :=
  rfl

theorem ziSchedulerEnqueue_cases (thread : ThreadPointer) (s : SchedulerState) :
    (∃ status, ziSchedulerEnqueue thread s = (.error status, s) ∧
      (schedulerPriorityCount ≤ s.priority thread ∨ s.queued thread = true ∨
        (s.threads thread).state = .terminated)) ∨
    s.priority thread < schedulerPriorityCount ∧ s.queued thread = false ∧
      ((s.scheduler.readyQueues (s.priority thread)).tail ≠ some thread →
        ∃ s', ziSchedulerEnqueue thread s = (.ok (), s') ∧
          Enqueued s s' thread (s.scheduler.readyQueues (s.priority thread))) := by
  rw [ziSchedulerEnqueue]
  by_cases hguard : schedulerPriorityCount ≤ (s.threads thread).priority ∨
      (s.threads thread).isQueued = true ∨ (s.threads thread).state = .terminated
  · rw [if_pos hguard]
    exact .inl ⟨_,rfl,hguard⟩
  rw [if_neg hguard]
  rw [not_or,not_or,Bool.not_eq_true] at hguard
  refine .inr ⟨Nat.lt_of_not_le hguard.1,hguard.2.1,?_⟩
  intro htail
  generalize hqueue : s.scheduler.readyQueues (s.priority thread) = queue at htail
  have hqueue' : s.scheduler.readyQueues (s.threads thread).priority = queue := hqueue
  rw [hqueue']
  cases hlast : queue.tail with
  | none =>
    refine ⟨_,rfl,?_,?_⟩
    · intro y
      by_cases heq : y = thread <;> simp [setBitmap,setQueue,heq,hlast]
    · simp [setBitmap,setQueue,hlast,priority]
  | some last =>
    have hne : thread ≠ last := by
      rintro rfl
      exact htail hlast
    refine ⟨_,rfl,?_,?_⟩
    · intro y
      by_cases heq : y = thread
      · simp [setBitmap,setQueue,heq,hne,hlast]
      · by_cases heq' : y = last
        · simp [setBitmap,setQueue,heq',hne.symm,hlast]
        · simp [setBitmap,setQueue,heq,heq',hlast,Ne.symm heq']
    · simp [setBitmap,setQueue,hlast,priority]

theorem threads_bypassNext (y : ThreadPointer) : (bypassNext thread s).threads y =
    if s.previous thread = some y then { s.threads y with readyNext := s.next thread }
    else s.threads y := by
  rw [bypassNext,previous]
  cases hp : (s.threads thread).readyPrevious with
  | none => rfl
  | some before =>
    by_cases heq : y = before
    · simp [heq,SchedulerState.next]
    · simp [heq,Ne.symm heq]

theorem threads_bypassPrevious (y : ThreadPointer) : (bypassPrevious thread s).threads y =
    if s.next thread = some y then { s.threads y with readyPrevious := s.previous thread }
    else s.threads y := by
  rw [bypassPrevious,SchedulerState.next]
  cases hn : (s.threads thread).readyNext with
  | none => rfl
  | some after =>
    by_cases heq : y = after
    · simp [heq,previous]
    · simp [heq,Ne.symm heq]

theorem scheduler_bypass :
    (bypassPrevious thread (bypassNext thread s)).scheduler = s.scheduler := by
  rw [bypassPrevious,bypassNext]
  split <;> split <;> rfl

theorem ziSchedulerRemove_cases (thread : ThreadPointer) (s : SchedulerState) :
    (∃ status, ziSchedulerRemove thread s = (.error status, s) ∧
      (schedulerPriorityCount ≤ s.priority thread ∨ s.queued thread = false)) ∨
    s.priority thread < schedulerPriorityCount ∧ s.queued thread = true ∧
      (s.previous thread ≠ some thread → ∃ s', ziSchedulerRemove thread s = (.ok (), s') ∧
          Dequeued s s' thread (s.scheduler.readyQueues (s.priority thread))) := by
  rw [ziSchedulerRemove]
  by_cases hguard : schedulerPriorityCount ≤ (s.threads thread).priority ∨
      (s.threads thread).isQueued = false
  · rw [if_pos hguard]
    exact .inl ⟨_,rfl,hguard⟩
  rw [if_neg hguard]
  rw [not_or,Bool.not_eq_false] at hguard
  refine .inr ⟨Nat.lt_of_not_le hguard.1,hguard.2,?_⟩
  intro hself
  have hhere : (bypassNext thread s).threads thread = s.threads thread := by
    rw [threads_bypassNext,if_neg hself]
  -- the bitmap does not matter to the threads
  have hthreads : ∀ (c : Prop) [Decidable c] (v : SchedulerState) (bitmap : BitVec 32),
      (if c then v.setBitmap bitmap else v).threads = v.threads := by
    intro c _ v bitmap
    split
    · rfl
    · rfl
  have hnext : (bypassNext thread s).next thread = s.next thread := by
    rw [SchedulerState.next,hhere]
    rfl
  have hprev : (bypassNext thread s).previous thread = s.previous thread := by
    rw [previous,hhere]
    rfl
  refine ⟨_,rfl,?_,?_⟩
  · intro y
    rw [hthreads,threads_setQueue,threads_modify]
    by_cases heq : y = thread
    · subst heq
      rw [if_pos rfl,if_pos rfl,threads_bypassPrevious,hhere]
      split
      · rfl
      · rfl
    · rw [if_neg heq,if_neg heq,threads_bypassPrevious,hnext,hprev,threads_bypassNext]
      split_ifs
      all_goals rfl
  · rw [hhere,apply_ite scheduler]
    simp only [setBitmap,setQueue,scheduler_modify,scheduler_bypass]
    by_cases hlast : ((s.scheduler.readyQueues (s.priority thread)).count+(2^64-1))%2^64 = 0
    · rw [if_pos hlast]
      exact if_pos hlast
    · rw [if_neg hlast]
      exact if_neg hlast

section

variable (h : Enqueued s s' thread queue)

include h

theorem Enqueued.previous
    (y : ThreadPointer) : s'.previous y = if y = thread then queue.tail else s.previous y := by
  rw [SchedulerState.previous,h.threads]
  split_ifs
  all_goals rfl

theorem Enqueued.next (y : ThreadPointer) : s'.next y = if y = thread then none else
    if queue.tail = some y then some thread else s.next y := by
  rw [SchedulerState.next,h.threads]
  split_ifs
  all_goals rfl

theorem Enqueued.queued (y : ThreadPointer) :
    s'.queued y = if y = thread then true else s.queued y := by
  rw [SchedulerState.queued,h.threads]
  split_ifs
  all_goals rfl

theorem Enqueued.priority : s'.priority = s.priority := by
  funext y
  rw [SchedulerState.priority,h.threads]
  split_ifs
  all_goals rfl

end

section

variable (h : Dequeued s s' thread queue)

include h

theorem Dequeued.previous (y : ThreadPointer) : s'.previous y = if y = thread then none else
    if s.next thread = some y then s.previous thread else s.previous y := by
  rw [SchedulerState.previous,h.threads]
  split_ifs
  all_goals rfl

theorem Dequeued.next (y : ThreadPointer) : s'.next y = if y = thread then none else
    if s.previous thread = some y then s.next thread else s.next y := by
  rw [SchedulerState.next,h.threads]
  split_ifs
  all_goals rfl

theorem Dequeued.queued (y : ThreadPointer) :
    s'.queued y = if y = thread then false else s.queued y := by
  rw [SchedulerState.queued,h.threads]
  split_ifs
  all_goals rfl

theorem Dequeued.priority : s'.priority = s.priority := by
  funext y
  rw [SchedulerState.priority,h.threads]
  split_ifs
  all_goals rfl

end

theorem getLsbD_priorityBit (hq : q < 32) : (1#32 <<< p).getLsbD q = decide (q = p) := by
  by_cases heq : q = p
  · subst heq
    simp [hq]
  · rw [decide_eq_false heq]
    by_cases hlt : q < p
    · simp [hlt]
    · have hne : q-p ≠ 0 := by omega
      simp [hne]

theorem forall_update {motive : List ThreadPointer → ℕ → Prop} (hhere : motive xs p)
    (helse : ∀ q, q ≠ p → motive (queues q) q) : ∀ q, motive (update queues p xs q) q := by
  intro q
  by_cases hq : q = p
  · rwa [hq,update_self]
  · rw [update_of_ne hq]
    exact helse q hq

theorem length_lt_of_nodup (h : xs.Nodup) : xs.length < 2^64 := by
  have hcard := h.length_le_card
  rw [Fintype.card_fin] at hcard
  omega

section

variable (h : ReadyQueues own s queues)

include h

theorem ReadyQueues.eq_of_mem (hp : thread ∈ queues p) (hq : thread ∈ queues q) : p = q :=
  ((h.mem p thread).mp hp).2.2.symm.trans ((h.mem q thread).mp hq).2.2

theorem ReadyQueues.replace (hlinked : Segment s'.previous s'.next none xs none) (hnodup : xs.Nodup)
    (hothers : ∀ q, q ≠ p → ∀ y ∈ queues q, s'.previous y = s.previous y ∧ s'.next y = s.next y)
    (hqueues : s'.scheduler.readyQueues = update s.scheduler.readyQueues p ⟨xs.head?,xs.getLast?,
      xs.length⟩)
    (hmem : ∀ y, y ∈ xs ↔ own y ∧ s'.queued y = true ∧ s'.priority y = p)
    (helse : ∀ q, q ≠ p → ∀ y, s'.queued y = true ∧ s'.priority y = q ↔ s.queued y = true ∧
      s.priority y = q)
    (hlt : p < schedulerPriorityCount) (hhere : s'.scheduler.readyBitmap.getLsbD p = true ↔ xs ≠ [])
    (hbitmap : ∀ q, q ≠ p → q < schedulerPriorityCount →
      s'.scheduler.readyBitmap.getLsbD q = s.scheduler.readyBitmap.getLsbD q) :
    ReadyQueues own s' (update queues p xs) := by
  have hqueue : ∀ q, s'.scheduler.readyQueues q = ⟨(update queues p xs q).head?,
      (update queues p xs q).getLast?,(update queues p xs q).length⟩ := by
    apply forall_update (motive := fun xs q => s'.scheduler.readyQueues q =
      ⟨xs.head?,xs.getLast?,xs.length⟩)
    · rw [hqueues,update_self]
    · intro q hq
      rw [hqueues,update_of_ne hq,← h.head,← h.tail,← h.count]
  refine ⟨?_,?_,fun q => ?_,fun q => ?_,fun q => ?_,?_,?_,?_⟩
  · apply forall_update (motive := fun xs _ => Segment s'.previous s'.next none xs none) hlinked
    intro q hq
    exact (h.linked q).congr (fun y hy => (hothers q hq y hy).1) fun y hy => (hothers q hq y hy).2
  · exact forall_update (motive := fun xs _ => xs.Nodup) hnodup fun q _ => h.nodup q
  · rw [hqueue]
  · rw [hqueue]
  · rw [hqueue]
  · apply forall_update (motive := fun xs q =>
      ∀ y, y ∈ xs ↔ own y ∧ s'.queued y = true ∧ s'.priority y = q) hmem
    intro q hq y
    rw [h.mem,helse q hq]
  · intro y hown hin
    by_cases hp : s'.priority y = p
    · rwa [hp]
    · obtain ⟨hold,hsame⟩ := (helse _ hp y).mp ⟨hin,rfl⟩
      rw [← hsame]
      exact h.valid y hown hold
  · apply forall_update (motive := fun xs q => q < schedulerPriorityCount →
      (s'.scheduler.readyBitmap.getLsbD q = true ↔ xs ≠ [])) fun _ => hhere
    intro q hq hlt'
    rw [hbitmap q hq hlt',h.bitmap q hlt']

theorem ReadyQueues.enqueued (hown : own thread) (hlt : s.priority thread < schedulerPriorityCount)
    (hout : s.queued thread = false)
    (hs' : Enqueued s s' thread (s.scheduler.readyQueues (s.priority thread))) :
    ReadyQueues own s' (update queues (s.priority thread)
      (queues (s.priority thread) ++ [thread])) := by
  have hnew : ∀ p y, y ∈ queues p → y ≠ thread := by
    rintro p y hmem rfl
    have hin := ((h.mem p y).mp hmem).2.1
    rw [hout] at hin
    cases hin
  have hnext := hs'.next
  have hprev := hs'.previous
  have hqueues := congrArg ZxScheduler.readyQueues hs'.scheduler
  have hbitmap := congrArg ZxScheduler.readyBitmap hs'.scheduler
  simp only [h.tail,h.head,h.count] at hnext hprev hqueues
  generalize hp : s.priority thread = p at *
  have hnodup : (queues p ++ [thread]).Nodup := by
    rw [nodup_append]
    refine ⟨h.nodup p,nodup_singleton thread,?_⟩
    intro y hy z hz
    rw [mem_singleton.mp hz]
    exact hnew p y hy
  have hlength := length_lt_of_nodup hnodup
  rw [length_append,length_singleton] at hlength
  rw [Nat.mod_eq_of_lt hlength] at hqueues
  refine h.replace ?_ hnodup ?_ ?_ ?_ ?_ hlt ?_ ?_
  · refine (h.linked p).push (h.nodup p) ?_ ?_ ?_ ?_ ?_
    · rw [hprev,if_pos rfl]
    · rw [hnext,if_pos rfl]
    · intro y hy
      rw [hprev,if_neg (hnew p y hy)]
    · intro y hlast
      rw [hnext,if_neg (hnew p y (mem_of_getLast? hlast)),if_pos hlast]
    · intro y hy hlast
      rw [hnext,if_neg (hnew p y hy),if_neg hlast]
  · intro q hq y hy
    rw [hprev,hnext,if_neg (hnew q y hy),if_neg (hnew q y hy),if_neg]
    · exact ⟨rfl,rfl⟩
    · intro hlast
      exact hq (h.eq_of_mem hy (mem_of_getLast? hlast))
  · rw [hqueues]
    cases hlist : queues p with
    | nil => rfl
    | cons y ys => simp [getLast?_cons]
  · intro y
    rw [mem_append,h.mem,hs'.queued,hs'.priority]
    by_cases heq : y = thread
    · subst heq
      simp [hown,hp]
    · simp [heq]
  · intro q hq y
    rw [hs'.queued,hs'.priority]
    by_cases heq : y = thread
    · subst heq
      simp [hp,Ne.symm hq]
    · simp [heq]
  · rw [hbitmap,BitVec.getLsbD_or,getLsbD_priorityBit hlt]
    simp
  · intro q hq hlt'
    rw [hbitmap,BitVec.getLsbD_or,getLsbD_priorityBit hlt']
    simp [hq]

theorem ReadyQueues.removed {after : List ThreadPointer}
    (hlist : queues (s.priority thread) = before ++ thread :: after)
    (hs' : Dequeued s s' thread (s.scheduler.readyQueues (s.priority thread))) :
    ReadyQueues own s' (update queues (s.priority thread) (before ++ after)) := by
  have hprev := hs'.previous
  have hnext := hs'.next
  have hqueues := congrArg ZxScheduler.readyQueues hs'.scheduler
  have hbitmap := congrArg ZxScheduler.readyBitmap hs'.scheduler
  obtain ⟨hown,hin,-⟩ := (h.mem (s.priority thread) thread).mp (by simp [hlist])
  have hlt := h.valid thread hown hin
  have hlinked := h.linked (s.priority thread)
  have hnodup := h.nodup (s.priority thread)
  have hold := h.bitmap _ hlt
  rw [hlist] at hlinked hnodup
  obtain ⟨hbefore,hafter⟩ := hlinked.neighbours
  simp only [h.tail,h.head,h.count,hbefore,hafter,hlist] at hprev hnext hqueues hbitmap
  have hcount : ((before ++ thread :: after).length+(2^64-1))%2^64 = (before ++ after).length := by
    have hlength := length_lt_of_nodup hnodup
    simp only [length_append,length_cons] at hlength ⊢
    omega
  rw [hcount] at hqueues hbitmap
  generalize hp : s.priority thread = p at *
  have hmem : ∀ y, y ∈ queues p ↔ y = thread ∨ y ∈ before ++ after := by
    rw [hlist]
    simp only [mem_append,mem_cons]
    exact fun _ => or_left_comm
  have hne : ∀ y ∈ before ++ after, y ≠ thread := by
    rintro y hy rfl
    rw [nodup_middle] at hnodup
    exact (nodup_cons.mp hnodup).1 hy
  have hfirst : ∀ y, after.head? = some y → y ∈ before ++ after := fun y hy =>
    mem_append_right _ (mem_of_mem_head? hy)
  have hlast : ∀ y, before.getLast? = some y → y ∈ before ++ after := fun y hy =>
    mem_append_left _ (mem_of_getLast? hy)
  refine h.replace ?_ ?_ ?_ ?_ ?_ ?_ hlt ?_ ?_
  · refine hlinked.unlink hnodup ?_ ?_ ?_ ?_
    · intro y hy
      rw [hprev,if_neg (hne y (hfirst y hy)),if_pos hy]
    · intro y hy hnot
      rw [hprev,if_neg (hne y hy),if_neg hnot]
    · intro y hy
      rw [hnext,if_neg (hne y (hlast y hy)),if_pos hy]
    · intro y hy hnot
      rw [hnext,if_neg (hne y hy),if_neg hnot]
  · exact hnodup.sublist ((sublist_cons_self thread after).append_left before)
  · intro q hq y hy
    have hout : y ∉ queues p := fun hin => hq (h.eq_of_mem hy hin)
    have hthread : y ≠ thread := fun heq => hout ((hmem y).mpr (.inl heq))
    rw [hprev,hnext,if_neg hthread,if_neg hthread,if_neg,if_neg]
    · exact ⟨rfl,rfl⟩
    · exact fun heq => hout ((hmem y).mpr (.inr (hlast y heq)))
    · exact fun heq => hout ((hmem y).mpr (.inr (hfirst y heq)))
  · rw [hqueues]
    cases before with
    | nil => cases after <;> simp [getLast?_cons]
    | cons y ys => cases after <;> simp [getLast?_append,getLast?_cons]
  · intro y
    rw [hs'.queued,hs'.priority]
    by_cases heq : y = thread
    · simp only [heq,if_pos,Bool.false_eq_true,false_and,and_false,iff_false]
      exact fun hin => hne thread hin rfl
    · rw [if_neg heq,← h.mem,hmem]
      simp [heq]
  · intro q hq y
    rw [hs'.queued,hs'.priority]
    by_cases heq : y = thread
    · subst heq
      simp [hp,Ne.symm hq]
    · simp [heq]
  · rw [hbitmap]
    by_cases hempty : before ++ after = []
    · simp [hempty]
    · rw [if_neg (fun hzero => hempty (length_eq_zero_iff.mp hzero)),hold]
      simp [hempty,hlist]
  · intro q hq hlt'
    rw [hbitmap]
    split
    · rw [BitVec.getLsbD_and,BitVec.getLsbD_not,getLsbD_priorityBit hlt']
      simp [hq,hlt']
    · rfl

theorem ReadyQueues.enqueue (hown : own thread) :
    (∃ status, ziSchedulerEnqueue thread s = (.error status, s) ∧
      (schedulerPriorityCount ≤ s.priority thread ∨ s.queued thread = true ∨
        (s.threads thread).state = .terminated)) ∨
    ∃ s', ziSchedulerEnqueue thread s = (.ok (), s') ∧
      Enqueued s s' thread (s.scheduler.readyQueues (s.priority thread)) ∧
      ReadyQueues own s' (update queues (s.priority thread)
        (queues (s.priority thread) ++ [thread])) := by
  rcases ziSchedulerEnqueue_cases thread s with herror | ⟨hlt,hout,henqueue⟩
  · exact .inl herror
  have htail : (s.scheduler.readyQueues (s.priority thread)).tail ≠ some thread := by
    rw [h.tail]
    intro hlast
    have hin := ((h.mem _ thread).mp (mem_of_getLast? hlast)).2.1
    rw [hout] at hin
    cases hin
  obtain ⟨s',hrun,hs'⟩ := henqueue htail
  exact .inr ⟨s',hrun,hs',h.enqueued hown hlt hout hs'⟩

theorem ReadyQueues.remove {after : List ThreadPointer}
    (hlist : queues p = before ++ thread :: after) :
    ∃ s', ziSchedulerRemove thread s = (.ok (), s') ∧
      Dequeued s s' thread (s.scheduler.readyQueues p) ∧
      ReadyQueues own s' (update queues p (before ++ after)) := by
  obtain ⟨hown,hin,rfl⟩ := (h.mem p thread).mp (by simp [hlist])
  rcases ziSchedulerRemove_cases thread s with ⟨status,-,hbad⟩ | ⟨-,-,hremove⟩
  · have hlt := h.valid thread hown hin
    rw [hin] at hbad
    exact absurd hlt (Nat.not_lt_of_le (hbad.resolve_right nofun))
  have hself : s.previous thread ≠ some thread := by
    have hlinked := h.linked (s.priority thread)
    have hnodup := h.nodup (s.priority thread)
    rw [hlist] at hlinked hnodup
    rw [hlinked.neighbours.1]
    intro hlast
    exact (nodup_append.mp hnodup).2.2 thread (mem_of_getLast? hlast) thread mem_cons_self rfl
  obtain ⟨s',hrun,hs'⟩ := hremove hself
  exact ⟨s',hrun,hs',h.removed hlist hs'⟩

end

/-- What the calls keep: the ready queues, and that the scheduler runs threads of its own. -/
structure SchedulerSound (own : ThreadPointer → Prop) (s : SchedulerState) : Prop where
  queues : ∃ queues, ReadyQueues own s queues
  current : ∀ thread, s.scheduler.currentThread = some thread → own thread
  idle : ∀ thread, s.scheduler.idleThread = some thread → own thread

section

variable (h : SchedulerSound own s)

include h

theorem SchedulerSound.enqueue (hown : own thread) :
    SchedulerSound own (ziSchedulerEnqueue thread s).2 := by
  obtain ⟨queues,hqueues⟩ := h.queues
  rcases hqueues.enqueue hown with ⟨status,hrun,-⟩ | ⟨s',hrun,hs',hqueues'⟩
  · rwa [hrun]
  · rw [hrun]
    refine ⟨⟨_,hqueues'⟩,?_,?_⟩
    · rw [hs'.scheduler]
      exact h.current
    · rw [hs'.scheduler]
      exact h.idle

theorem SchedulerSound.remove (hown : own thread) :
    SchedulerSound own (ziSchedulerRemove thread s).2 := by
  obtain ⟨queues,hqueues⟩ := h.queues
  rcases ziSchedulerRemove_cases thread s with ⟨status,hrun,-⟩ | ⟨-,hin,-⟩
  · rwa [hrun]
  obtain ⟨before,after,hlist⟩ :=
    append_of_mem ((hqueues.mem (s.priority thread) thread).mpr ⟨hown,hin,rfl⟩)
  obtain ⟨s',hrun,hs',hqueues'⟩ := hqueues.remove hlist
  rw [hrun]
  refine ⟨⟨_,hqueues'⟩,?_,?_⟩
  · rw [hs'.scheduler]
    exact h.current
  · rw [hs'.scheduler]
    exact h.idle

theorem SchedulerSound.modify (thread : ThreadPointer) (f : ZxThread → ZxThread)
    (hlinks : ∀ fields, (f fields).readyPrevious = fields.readyPrevious ∧
      (f fields).readyNext = fields.readyNext ∧ (f fields).isQueued = fields.isQueued)
    (hpri : s.queued thread = true →
      (f (s.threads thread)).priority = (s.threads thread).priority) :
    SchedulerSound own (s.modify thread f) := by
  obtain ⟨queues,hqueues⟩ := h.queues
  exact ⟨⟨queues,hqueues.modify hlinks hpri⟩,h.current,h.idle⟩

theorem SchedulerSound.congr {scheduler : ZxScheduler}
    (hqueues : scheduler.readyQueues = s.scheduler.readyQueues)
    (hbitmap : scheduler.readyBitmap = s.scheduler.readyBitmap)
    (hcurrent : ∀ thread, scheduler.currentThread = some thread → own thread)
    (hidle : scheduler.idleThread = s.scheduler.idleThread) :
    SchedulerSound own { s with scheduler := scheduler } := by
  obtain ⟨queues,hready⟩ := h.queues
  refine ⟨⟨queues,hready.congr rfl rfl rfl (fun _ _ => rfl) hqueues hbitmap⟩,hcurrent,?_⟩
  rw [hidle]
  exact h.idle

omit h in
theorem firstRunnable_eq_find? {p : Option ThreadPointer} (h : Segment s.previous s.next p xs none)
    {rounds : ℕ} (hrounds : xs.length ≤ rounds) : firstRunnable s rounds xs.head? =
      xs.find? fun thread => threadCanRunOnCpu (s.threads thread) s.scheduler.cpuIndex := by
  induction xs generalizing p rounds with
  | nil => cases rounds <;> rfl
  | cons x xs ih =>
    obtain ⟨-,hnext,hrest⟩ := h
    rw [Option.or_none] at hnext
    cases rounds with
    | zero => cases hrounds
    | succ rounds =>
      rw [head?_cons,firstRunnable,find?_cons]
      by_cases hrun : threadCanRunOnCpu (s.threads x) s.scheduler.cpuIndex = true
      · rw [if_pos hrun,hrun]
      · rw [Bool.not_eq_true] at hrun
        rw [hrun,← ih hrest (Nat.le_of_succ_le_succ hrounds),← hnext]
        rfl

namespace SchedulerSound

theorem selectIdle : SchedulerSound own (selectIdle s).2 := by
  have hcurrent : SchedulerSound own (s.setCurrent s.scheduler.idleThread) :=
    h.congr rfl rfl h.idle rfl
  rw [Zizium.selectIdle]
  split
  · exact hcurrent
  next idle _ =>
    exact hcurrent.modify idle (fun fields => { fields with state := .running })
      (fun _ => ⟨rfl,rfl,rfl⟩) fun _ => rfl

theorem selectLoop (rounds : ℕ)
    (remaining : BitVec 32) : SchedulerSound own (selectLoop rounds remaining s).2 := by
  induction rounds generalizing remaining with
  | zero => exact h.selectIdle
  | succ rounds ih =>
    rw [Zizium.selectLoop]
    split
    · exact h.selectIdle
    dsimp only
    split
    next thread hfirst =>
      obtain ⟨queues,hqueues⟩ := h.queues
      have hlength := length_lt_of_nodup (hqueues.nodup (highestReadyPriority remaining))
      rw [hqueues.head,firstRunnable_eq_find? (hqueues.linked _) hlength.le] at hfirst
      have hown := ((hqueues.mem _ thread).mp (mem_of_find?_eq_some hfirst)).1
      have hremoved := h.remove hown
      split
      next status s' hrun => rwa [hrun] at hremoved
      next s' hrun =>
        rw [hrun] at hremoved
        have hmodified : SchedulerSound own
            (s'.modify thread fun fields => { fields with state := .running }) :=
          hremoved.modify thread _ (fun _ => ⟨rfl,rfl,rfl⟩) fun _ => rfl
        refine hmodified.congr rfl rfl ?_ rfl
        intro other heq
        cases heq
        exact hown
    · exact ih _

theorem selectNext : SchedulerSound own (ziSchedulerSelectNext s).2 :=
  h.selectLoop _ _

theorem tickSelect (current : ThreadPointer) (expired : Bool) :
    SchedulerSound own (tickSelect current expired s).2 := by
  have hselected := h.selectNext
  rw [Zizium.tickSelect]
  split
  next s' hrun => rwa [hrun] at hselected
  next next s' hrun =>
    rw [hrun] at hselected
    have hquantum : SchedulerSound own (s'.modify next ZxThread.withQuantum) :=
      hselected.modify next _ (fun _ => ⟨rfl,rfl,rfl⟩) fun _ => rfl
    split
    · exact hquantum.congr rfl rfl hquantum.current rfl
    · exact hquantum

theorem tickQuantum (current : ThreadPointer) : SchedulerSound own (tickQuantum current s).2.2 := by
  rw [Zizium.tickQuantum]
  split
  · have hquantum : SchedulerSound own (s.modify current fun fields =>
        { fields.withQuantum with
          quantumRemaining := fields.withQuantum.quantumRemaining-1 }) :=
      h.modify current _ (fun _ => ⟨rfl,rfl,rfl⟩) fun _ => rfl
    dsimp only
    split
    · exact hquantum.congr rfl rfl hquantum.current rfl
    · exact hquantum
  · split
    · exact h
    · exact h

theorem onTick : SchedulerSound own (ziSchedulerOnTick s).2 := by
  rw [ziSchedulerOnTick]
  split
  · exact h
  next current hcurrent =>
  have hown := h.current current hcurrent
  have hticked : SchedulerSound own { s with scheduler := { s.scheduler with
      tickCount := (s.scheduler.tickCount+1)%2^64 } } := h.congr rfl rfl h.current rfl
  have hquantum := hticked.tickQuantum current
  dsimp only
  split
  · exact hquantum
  split
  · have hrefilled := hquantum.modify current
      (fun fields => { fields with quantumRemaining := fields.quantum })
      (fun _ => ⟨rfl,rfl,rfl⟩) fun _ => rfl
    have henqueued := hrefilled.enqueue hown
    split
    next status s' hrun => rwa [hrun] at henqueued
    next s' hrun =>
      rw [hrun] at henqueued
      exact henqueued.tickSelect current _
  · exact hquantum.tickSelect current _

end SchedulerSound

omit h in
theorem queued_of_remove (hrun : ziSchedulerRemove thread s = (.ok (), s')) :
    s'.queued thread = false := by
  rw [ziSchedulerRemove] at hrun
  split at hrun
  · cases hrun
  obtain ⟨-,rfl⟩ := Prod.mk.inj hrun
  rw [queued]
  split
  · simp
  · simp

theorem SchedulerSound.changePriority (hown : own thread)
    (priority : ℕ) : SchedulerSound own (changePriority thread priority s).2 := by
  rw [Zizium.changePriority]
  split
  · have hremoved := h.remove hown
    split
    next status s' hrun => rwa [hrun] at hremoved
    next s' hrun =>
      -- out of its queue, the thread may take any priority
      have hout := queued_of_remove hrun
      rw [hrun] at hremoved
      refine SchedulerSound.enqueue (hremoved.modify thread
        (fun fields => { fields with priority := priority }) (fun _ => ⟨rfl,rfl,rfl⟩) ?_) hown
      intro hin
      rw [hout] at hin
      cases hin
  next hout =>
    refine h.modify thread (fun fields => { fields with priority := priority })
      (fun _ => ⟨rfl,rfl,rfl⟩) ?_
    intro hin
    exact absurd hin hout

theorem SchedulerSound.inherit (hown : own thread) (priority : ℕ) :
    SchedulerSound own (ziSchedulerInheritPriority thread priority s).2 := by
  rw [ziSchedulerInheritPriority]
  generalize (if priority < schedulerRealtimePriorityMin then priority
    else schedulerDynamicPriorityMax) = target
  split
  · exact h
  split
  · exact h
  split
  · exact h
  · exact h.changePriority hown _

theorem SchedulerSound.restore (hown : own thread) :
    SchedulerSound own (ziSchedulerRestoreBasePriority thread s).2 := by
  rw [ziSchedulerRestoreBasePriority]
  split
  · exact h
  split
  · exact h
  · exact h.changePriority hown _

end

end

inductive SchedulerCall where
  | enqueue (thread : ThreadPointer)
  | remove (thread : ThreadPointer)
  | selectNext
  | onTick
  | boostPriority (thread : ThreadPointer) (increment : ℕ)
  | decayPriority (thread : ThreadPointer)
  | inheritPriority (thread : ThreadPointer) (inheritedPriority : ℕ)
  | restoreBasePriority (thread : ThreadPointer)

namespace SchedulerCall

def run : SchedulerCall → SchedulerState → SchedulerState
  | enqueue thread, s => (ziSchedulerEnqueue thread s).2
  | remove thread, s => (ziSchedulerRemove thread s).2
  | selectNext, s => (ziSchedulerSelectNext s).2
  | onTick, s => (ziSchedulerOnTick s).2
  | boostPriority thread increment, s => ziSchedulerBoostPriority thread increment s
  | decayPriority thread, s => ziSchedulerDecayPriority thread s
  | inheritPriority thread priority, s => (ziSchedulerInheritPriority thread priority s).2
  | restoreBasePriority thread, s => (ziSchedulerRestoreBasePriority thread s).2

def Uses (own : ThreadPointer → Prop) : SchedulerCall → Prop
  | enqueue thread => own thread
  | remove thread => own thread
  | boostPriority thread _ => own thread
  | decayPriority thread => own thread
  | inheritPriority thread _ => own thread
  | restoreBasePriority thread => own thread
  | _ => True

def Harmless (s : SchedulerState) : SchedulerCall → Prop
  | boostPriority thread increment => (s.threads thread).isQueued = true →
      schedulerDynamicPriorityMax ≤ (s.threads thread).priority ∨ increment = 0
  | decayPriority thread => (s.threads thread).isQueued = true →
      schedulerRealtimePriorityMin ≤ (s.threads thread).priority ∨
        (s.threads thread).priority ≤ (s.threads thread).basePriority
  | _ => True

end SchedulerCall

def SchedulerState.after (s : SchedulerState) (calls : List SchedulerCall) : SchedulerState :=
  calls.foldl (fun s call => call.run s) s

section

variable {s : SchedulerState}

theorem ReadyQueues.not_repriorised (h : ReadyQueues own s queues) (hown : own thread)
    (hin : s.queued thread = true) (hne : p ≠ s.priority thread) :
    ¬∃ queues', ReadyQueues own (s.modify thread fun fields => { fields with priority := p })
      queues' := by
  rintro ⟨queues',h'⟩
  have hmem : thread ∈ queues' p := by
    rw [h'.mem]
    refine ⟨hown,?_,?_⟩
    · rwa [queued,threads_modify,if_pos rfl]
    · rw [priority,threads_modify,if_pos rfl]
  have hnext : (s.modify thread fun fields => { fields with priority := p }).next = s.next := by
    funext y
    by_cases heq : y = thread
    · simp [SchedulerState.next,heq]
    · simp [SchedulerState.next,heq]
  have hlinked := h'.linked p
  rw [hnext] at hlinked
  have hsame : queues p = queues' p :=
    (h.linked p).unique hlinked ((h.head p).symm.trans (h'.head p))
  rw [← hsame,h.mem] at hmem
  exact hne hmem.2.2.symm

theorem SchedulerSound.run_iff (h : SchedulerSound own s) {call : SchedulerCall}
    (hown : call.Uses own) : (call.Harmless s → SchedulerSound own (call.run s)) ∧
      ((∃ queues, ReadyQueues own (call.run s) queues) → call.Harmless s) := by
  obtain ⟨queues,hqueues⟩ := h.queues
  cases call with
  | enqueue thread => exact ⟨fun _ => h.enqueue hown,fun _ => trivial⟩
  | remove thread => exact ⟨fun _ => h.remove hown,fun _ => trivial⟩
  | selectNext => exact ⟨fun _ => h.selectNext,fun _ => trivial⟩
  | onTick => exact ⟨fun _ => h.onTick,fun _ => trivial⟩
  | inheritPriority thread priority => exact ⟨fun _ => h.inherit hown priority,fun _ => trivial⟩
  | restoreBasePriority thread => exact ⟨fun _ => h.restore hown,fun _ => trivial⟩
  | boostPriority thread increment =>
    have hbound : schedulerRealtimePriorityMin = 16 ∧ schedulerDynamicPriorityMax = 15 := ⟨rfl,rfl⟩
    rw [SchedulerCall.run,ziSchedulerBoostPriority]
    by_cases hrealtime : schedulerRealtimePriorityMin ≤ (s.threads thread).priority
    · rw [if_pos hrealtime]
      refine ⟨fun _ => h,fun _ _ => .inl ?_⟩
      omega
    rw [if_neg hrealtime]
    constructor
    · intro hharmless
      refine h.modify thread _ (fun _ => ⟨rfl,rfl,rfl⟩) ?_
      intro hin
      rcases hharmless hin with hmax | hzero
      · dsimp only
        split <;> omega
      · dsimp only
        split <;> omega
    · intro hsound hin
      by_contra hchanges
      refine hqueues.not_repriorised hown hin ?_ hsound
      show _ ≠ (s.threads thread).priority
      split <;> omega
  | decayPriority thread =>
    rw [SchedulerCall.run,ziSchedulerDecayPriority]
    by_cases hrealtime : schedulerRealtimePriorityMin ≤ (s.threads thread).priority
    · rw [if_pos hrealtime]
      exact ⟨fun _ => h,fun _ _ => .inl hrealtime⟩
    rw [if_neg hrealtime]
    by_cases hbase : (s.threads thread).basePriority < (s.threads thread).priority
    swap
    · rw [if_neg hbase]
      exact ⟨fun _ => h,fun _ _ => .inr (Nat.le_of_not_lt hbase)⟩
    rw [if_pos hbase]
    constructor
    · intro hharmless
      refine h.modify thread _ (fun _ => ⟨rfl,rfl,rfl⟩) ?_
      intro hin
      rcases hharmless hin with hle | hle
      · exact absurd hle hrealtime
      · exact absurd hbase (Nat.not_lt_of_le hle)
    · intro hsound hin
      exfalso
      refine hqueues.not_repriorised hown hin ?_ hsound
      show _ ≠ (s.threads thread).priority
      omega

theorem SchedulerSound.after_iff (h : SchedulerSound own s) {calls : List SchedulerCall}
    (hcalls : ∀ call ∈ calls, call.Uses own) : (∀ before after, calls = before ++ after →
        ∃ queues, ReadyQueues own (s.after before) queues) ↔
      ∀ before call after, calls = before ++ call :: after → call.Harmless (s.after before) := by
  induction calls generalizing s with
  | nil =>
    refine ⟨?_,?_⟩
    · intro _ before call after heq
      simp at heq
    · intro _ before after heq
      rw [(append_eq_nil_iff.mp heq.symm).1]
      exact h.queues
  | cons first calls ih =>
    obtain ⟨hkeeps,hneeds⟩ := h.run_iff (hcalls first mem_cons_self)
    have hrest : ∀ call ∈ calls, call.Uses own :=
      fun call hcall => hcalls call (mem_cons_of_mem first hcall)
    constructor
    · intro hqueues
      -- the first call is harmless, as the queues are right after it
      have hharmless : first.Harmless s := hneeds (hqueues [first] calls rfl)
      have hafter := (ih (hkeeps hharmless) hrest).mp fun before after heq =>
        hqueues (first :: before) after (by rw [heq,cons_append])
      intro before call after heq
      cases before with
      | nil =>
        cases heq
        exact hharmless
      | cons _ before =>
        cases heq
        exact hafter before call after rfl
    · intro hharmless
      have hafter := (ih (hkeeps (hharmless [] first calls rfl)) hrest).mpr
        fun before call after heq =>
          hharmless (first :: before) call after (by rw [heq,cons_append])
      intro before after heq
      cases before with
      | nil => exact h.queues
      | cons _ before =>
        cases heq
        exact hafter before after rfl

theorem initialise_sound {threads : ThreadPointer → ZxThread} {idleThread : Option ThreadPointer}
    (cpuIndex : ℕ)
    (hidle : ∀ thread, idleThread = some thread → own thread)
    (hthreads : ∀ thread, own thread → (threads thread).isQueued = false) :
    SchedulerSound own ⟨ziSchedulerInitialise cpuIndex idleThread,threads⟩ := by
  refine ⟨⟨fun _ => [],fun _ => trivial,fun _ => nodup_nil,fun _ => rfl,fun _ => rfl,
    fun _ => rfl,?_,?_,?_⟩,hidle,hidle⟩
  · intro p thread
    simp only [not_mem_nil,false_iff]
    rintro ⟨hown,hin,-⟩
    rw [queued,hthreads thread hown] at hin
    cases hin
  · intro thread hown hin
    rw [queued,hthreads thread hown] at hin
    cases hin
  · simp [ziSchedulerInitialise]

/-- From an initialised scheduler on, the ready queues are right in every state of a run exactly
when each boost and each decay in it leaves the priority of a queued thread alone. -/
theorem readyQueues_sound_iff (own : ThreadPointer → Prop) (cpuIndex : ℕ)
    (idleThread : Option ThreadPointer) (threads : ThreadPointer → ZxThread)
    (hidle : ∀ thread, idleThread = some thread → own thread)
    (hthreads : ∀ thread, own thread → (threads thread).isQueued = false)
    (calls : List SchedulerCall) (hcalls : ∀ call ∈ calls, call.Uses own) :
    let s : SchedulerState := ⟨ziSchedulerInitialise cpuIndex idleThread,threads⟩
    (∀ before after, calls = before ++ after → ∃ queues, ReadyQueues own (s.after before) queues) ↔
      ∀ before call after, calls = before ++ call :: after → call.Harmless (s.after before) := by
  intro s
  have hstart : SchedulerSound own s := initialise_sound cpuIndex hidle hthreads
  exact hstart.after_iff hcalls

/-- A ready thread of priority eight. -/
def sampleThread : ZxThread := ⟨none,none,1,8,8,2,2,.initialised,false⟩

theorem readyQueues_sound_iff_enqueued :
    let s : SchedulerState := ⟨ziSchedulerInitialise 0 none,fun _ => sampleThread⟩
    ∀ before after, [SchedulerCall.enqueue 0,.boostPriority 1 3] = before ++ after →
      ∃ queues, ReadyQueues (· < 2) (s.after before) queues := by
  refine (readyQueues_sound_iff (· < 2) 0 none (fun _ => sampleThread) (by simp)
    (fun _ _ => rfl) [.enqueue 0,.boostPriority 1 3] ?_).mpr ?_
  · simp [SchedulerCall.Uses]
  · intro before call after heq
    rcases before with _ | ⟨first,_ | ⟨second,rest⟩⟩
    · cases heq
      trivial
    · cases heq
      intro hin
      cases hin
    · simp at heq

/-- A queued thread that is boosted stays in the queue of its old priority. -/
theorem boosted_in_wrong_queue :
    let s : SchedulerState := ⟨ziSchedulerInitialise 0 none,fun _ => sampleThread⟩
    let s' := s.after [.enqueue 0,.boostPriority 0 1]
    (s'.threads 0).isQueued = true ∧ (s'.threads 0).priority = 9 ∧
      (s'.scheduler.readyQueues 8).head = some 0 ∧ (s'.scheduler.readyQueues 9).head = none ∧
      ¬∃ queues, ReadyQueues (· < 2) s' queues := by
  intro s s'
  refine ⟨rfl,rfl,rfl,rfl,?_⟩
  rintro ⟨queues,h⟩
  have hmem : 0 ∈ queues 9 := (h.mem 9 0).mpr ⟨by decide,rfl,rfl⟩
  have hhead : (queues 9).head? = none := (h.head 9).symm
  rw [head?_eq_none_iff.mp hhead] at hmem
  cases hmem

end

end Zizium
