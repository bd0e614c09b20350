import Zizium.Executive.Handles
import Zizium.RefCount.Account
import Mathlib.Algebra.BigOperators.Group.Finset.Piecewise
import Mathlib.Algebra.Order.BigOperators.Group.Finset

/-!
# The lifetime of objects

The counters of every object against the table entries that name it, the references that clients
hold and the calls in progress, along every interleaving of calls.
-/

namespace Zizium

open BlockIO RefCount HandleProgress Account.Step HandleTask HandleState Except List Function

variable {i handle gen obj wanted grantedAccess j : ℕ} {entry : ZiHandleTableEntry}
  {p : ZiHandleTableEntry → Bool} {entries : List ZiHandleTableEntry} {ι : Type}
  {token : ZiAccessToken} {matched : Prop}

/-! ## The counters of an object -/

section

variable {obj header : ZiObjectHeader}

theorem ziObjectReference_ok (h : ziObjectReference obj = .ok header) : obj.isDestroyed = false ∧
      header = { obj with referenceCount := obj.referenceCount+1 } := by
  obtain ⟨hguard,hpure⟩ := failIf_bind_ok_iff.mp h
  rw [not_or] at hguard
  exact ⟨Bool.eq_false_iff.mpr hguard.1,pure_ok_iff.mp hpure⟩

theorem ziObjectAddHandle_ok (h : ziObjectAddHandle obj = .ok header) : obj.isDestroyed = false ∧
      header = { obj with
        referenceCount := obj.referenceCount+1
        handleCount := obj.handleCount+1 } := by
  obtain ⟨hguard,hpure⟩ := failIf_bind_ok_iff.mp h
  rw [not_or] at hguard
  exact ⟨Bool.eq_false_iff.mpr hguard.1,pure_ok_iff.mp hpure⟩

def ZiObjectHeader.CanRelease (object : ZiObjectHeader) : Prop :=
  object.isDestroyed = false ∧ object.referenceCount ≠ 0 ∧
    (object.referenceCount = 1 → object.handleCount = 0)

instance (object : ZiObjectHeader) : Decidable object.CanRelease :=
  inferInstanceAs (Decidable (_ ∧ _ ∧ (_ → _)))

theorem ziObjectDereference_eq (obj : ZiObjectHeader) : ziObjectDereference obj =
      if obj.CanRelease then
        if obj.referenceCount = 1 then
          .ok ({ obj with referenceCount := 0, isDestroyed := true }, obj.hasDestroy)
        else .ok ({ obj with referenceCount := obj.referenceCount-1 }, false)
      else .error .invalidState := by
  rw [ziObjectDereference]
  by_cases hguard : obj.isDestroyed = true ∨ obj.referenceCount = 0
  · rw [failIf_bind_pos hguard,if_neg]
    rintro ⟨halive,hrefs,-⟩
    rcases hguard with hdestroyed | hzero
    · rw [halive] at hdestroyed
      cases hdestroyed
    · exact hrefs hzero
  · rw [failIf_bind_neg hguard,objectReleaseLocked]
    rw [not_or] at hguard
    obtain ⟨halive,hrefs⟩ := hguard
    have hstays := Bool.eq_false_iff.mpr halive
    by_cases hone : obj.referenceCount = 1
    · by_cases hhandles : obj.handleCount = 0
      · rw [if_pos (show obj.CanRelease from ⟨hstays,hrefs,fun _ => hhandles⟩), if_pos hone]
        simp [hone,hhandles,ZiObjectHeader.hasDestroy]
        rfl
      · rw [if_neg fun hrelease : obj.CanRelease => hhandles (hrelease.2.2 hone)]
        simp [hone,hhandles]
        rfl
    · rw [if_pos (show obj.CanRelease from ⟨hstays,hrefs,fun h => absurd h hone⟩),
        if_neg hone,if_pos (show obj.referenceCount-1 ≠ 0 by omega)]
      rfl

theorem objectRemoveHandleLocked_ok (h : objectRemoveHandleLocked obj = .ok header) :
    obj.isDestroyed = false ∧ obj.handleCount ≠ 0 ∧ header.referenceCount = obj.referenceCount ∧
      header.handleCount = obj.handleCount-1 ∧ header.isDestroyed = obj.isDestroyed ∧
      header.operations = obj.operations := by
  obtain ⟨hguard,h⟩ := failIf_bind_ok_iff.mp h
  simp only [not_or] at hguard
  refine ⟨Bool.eq_false_iff.mpr hguard.1,hguard.2.1,?_⟩
  dsimp only at h
  split at h
  · rw [pure_ok_iff.mp h]
    exact ⟨rfl,rfl,rfl,rfl⟩
  · rw [pure_ok_iff.mp h]
    exact ⟨rfl,rfl,rfl,rfl⟩

theorem objectRemoveHandleLocked_error {status : ZiStatus}
    (h : objectRemoveHandleLocked obj = .error status) :
    obj.isDestroyed = true ∨ obj.handleCount = 0 ∨ obj.referenceCount = 0 := by
  by_contra hguard
  rw [objectRemoveHandleLocked,failIf_bind_neg hguard] at h
  dsimp only at h
  split at h <;> cases h

end

/-! ## The tables -/

/-- An entry is in use exactly when it names an object, and its handle can then be decoded. -/
structure ZiHandleTable.WellFormed (table : ZiHandleTable) : Prop where
  capacity : table.entries.length < uint32Max
  generation_le : ∀ entry ∈ table.entries, entry.generation ≤ uint32Max
  named : ∀ entry ∈ table.entries, (entry.inUse = true ↔ entry.object.isSome = true)
  generation_ne : ∀ entry ∈ table.entries, entry.inUse = true → entry.generation ≠ 0

theorem encodeHandle_eq (h : i < uint32Max) (gen : ℕ) :
    encodeHandle i gen = gen*4294967296+(i+1) := by
  have hlt : i+1 < 2^32 := by
    have : i < 4294967295 := h
    omega
  rw [encodeHandle,← Nat.shiftLeft_add_eq_or_of_lt hlt,Nat.shiftLeft_eq]

theorem and_uint32Max (n : ℕ) : n &&& uint32Max = n%4294967296 :=
  Nat.and_two_pow_sub_one_eq_mod n 32

theorem shiftRight_32 (n : ℕ) : n >>> 32 = n/4294967296 := Nat.shiftRight_eq_div_pow n 32

theorem decodeHandle_ok_iff {table : ZiHandleTable} (hcap : table.entries.length < uint32Max) :
    decodeHandle table handle = .ok (i, gen) ↔
      i < table.entries.length ∧ gen ≠ 0 ∧ handle = encodeHandle i gen := by
  have hlimit : table.entries.length < 4294967295 := hcap
  simp only [decodeHandle,failIf_bind_ok_iff,pure_ok_iff,and_uint32Max,
    shiftRight_32,Prod.mk.injEq,not_or,ge_iff_le,not_le,ziInvalidHandle]
  constructor
  · rintro ⟨-,⟨hslot,hgen,hi⟩,rfl,rfl⟩
    refine ⟨hi,hgen,?_⟩
    rw [encodeHandle_eq (show handle%4294967296-1 < 4294967295 by omega)]
    omega
  · rintro ⟨hi,hgen,rfl⟩
    rw [encodeHandle_eq (show i < 4294967295 by omega)]
    omega

def ZiHandleTable.names (table : ZiHandleTable) (object : ℕ) : ℕ :=
  table.entries.countP fun entry => decide (entry.object = some object)

/-- What a section can do to a table. -/
inductive ZiHandleTable.Step (table : ZiHandleTable) : ZiHandleTable → Prop where
  | stay : Step table table
  | fill (index : ℕ) (entry : ZiHandleTableEntry) (object grantedAccess : ℕ) :
      table.isClosing = false → table.entries[index]? = some entry → entry.inUse = false →
      entry.generation ≠ 0 → Step table (table.fill index entry object grantedAccess)
  | clear (index : ℕ) (entry : ZiHandleTableEntry) (isClosing : Bool) :
      (table.isClosing = true → isClosing = true) → table.entries[index]? = some entry →
      Step table ({ table with isClosing := isClosing }.clear index entry.generation)
  | close : Step table { table with isClosing := true }

section

variable {table table' : ZiHandleTable}

theorem nextGeneration_le (h : entry.generation ≤ uint32Max) :
    ZiHandleTable.nextGeneration entry.generation ≤ uint32Max := by
  rw [ZiHandleTable.nextGeneration]
  split_ifs with hlast
  · exact Nat.zero_le _
  · exact Nat.lt_of_le_of_ne h hlast

theorem ZiHandleTable.WellFormed.set (h : table.WellFormed) {new : ZiHandleTableEntry}
    {activeCount : ℕ} {isClosing : Bool} (hle : new.generation ≤ uint32Max)
    (hnamed : new.inUse = true ↔ new.object.isSome = true)
    (hne : new.inUse = true → new.generation ≠ 0) :
    ZiHandleTable.WellFormed ⟨table.entries.set i new,activeCount,isClosing⟩ := by
  refine ⟨?_,?_,?_,?_⟩
  · rw [length_set]
    exact h.capacity
  all_goals
    intro other hother
    rcases mem_or_eq_of_mem_set hother with hmem | rfl
  · exact h.generation_le other hmem
  · exact hle
  · exact h.named other hmem
  · exact hnamed
  · exact h.generation_ne other hmem
  · exact hne

theorem ZiHandleTable.WellFormed.step (h : table.WellFormed) (hstep : table.Step table') :
    table'.WellFormed := by
  cases hstep with
  | stay => exact h
  | fill i entry obj grantedAccess hopen hentry hfree hgen =>
    have hmem := mem_of_getElem? hentry
    exact h.set (h.generation_le entry hmem) (by simp [ZiHandleTableEntry.inUse])
      fun _ => hgen
  | clear i entry isClosing hclosing hentry =>
    have hmem := mem_of_getElem? hentry
    exact h.set (nextGeneration_le (h.generation_le entry hmem))
      (by simp [ZiHandleTableEntry.inUse]) (by simp [ZiHandleTableEntry.inUse])
  | close => exact ⟨h.capacity,h.generation_le,h.named,h.generation_ne⟩

theorem ZiHandleTable.WellFormed.object_eq_none (h : table.WellFormed)
    (hentry : table.entries[i]? = some entry) (hfree : entry.inUse = false) :
    entry.object = none := by
  have hiff := h.named entry (mem_of_getElem? hentry)
  rw [hfree] at hiff
  cases hobj : entry.object with
  | none => rfl
  | some obj => simp [hobj] at hiff

theorem countP_set (hentry : entries[i]? = some entry) (new : ZiHandleTableEntry) :
    (entries.set i new).countP p+(p entry).toNat = entries.countP p+(p new).toNat := by
  induction entries generalizing i with
  | nil => simp at hentry
  | cons first others ih =>
    cases i with
    | zero =>
      simp only [getElem?_cons_zero,Option.some.injEq] at hentry
      subst hentry
      rw [set_cons_zero,countP_cons,countP_cons]
      cases p first <;> cases p new <;> simp
    | succ i =>
      have hrest := ih hentry
      rw [set_cons_succ,countP_cons,countP_cons]
      omega

theorem ZiHandleTable.WellFormed.names_fill (h : table.WellFormed)
    (hentry : table.entries[i]? = some entry) (hfree : entry.inUse = false)
    (obj grantedAccess o : ℕ) : (table.fill i entry obj grantedAccess).names o =
      table.names o+(decide (obj = o)).toNat := by
  have hcount := countP_set (p := fun entry => decide (entry.object = some o)) hentry
    { entry with object := some obj, grantedAccess := grantedAccess, flags := handleEntryInUse }
  rw [h.object_eq_none hentry hfree] at hcount
  simpa [ZiHandleTable.names,ZiHandleTable.fill] using hcount

theorem ZiHandleTable.names_clear (hentry : table.entries[i]? = some entry) (o : ℕ) :
    (table.clear i entry.generation).names o+(decide (entry.object = some o)).toNat =
      table.names o := by
  have hcount := countP_set (p := fun entry => decide (entry.object = some o)) hentry
    ⟨none,0,ZiHandleTable.nextGeneration entry.generation,0⟩
  simpa [ZiHandleTable.names,ZiHandleTable.clear] using hcount

end

section

variable [DecidableEq ι] {st st' : HandleState ι} {table : ι}

theorem ZiHandleTable.namedAt_ok {t : ZiHandleTable}
    (h : t.namedAt i gen = .ok (obj, grantedAccess)) :
    ∃ entry, t.entries[i]? = some entry ∧ entry.inUse = true ∧
      entry.generation = gen ∧ entry.object = some obj ∧ entry.grantedAccess = grantedAccess := by
  rw [namedAt] at h
  split at h
  · cases h
  · rename_i entry hentry
    split_ifs at h with hguard
    split at h
    · cases h
    · rename_i named hnamed
      rw [not_or,Bool.not_eq_false,not_not] at hguard
      cases h
      exact ⟨entry,hentry,hguard.1,hguard.2,hnamed,rfl⟩

/-- The entry that `ziHandleOpen` has filled. -/
structure HandleOpened (table : ι) (object : ℕ) (token : ZiAccessToken) (requestedAccess : ℕ)
    (st : HandleState ι) (handle grantedAccess : ℕ) (st' : HandleState ι)
    (descriptor : ZiSecurityDescriptor) (index : ℕ) (entry : ZiHandleTableEntry)
    (header : ZiObjectHeader) : Prop where
  secured : (st.objects object).securityDescriptor = some descriptor
  approved : ziSecurityAccessCheck descriptor token requestedAccess = .ok grantedAccess
  isOpen : (st.tables table).isClosing = false
  entry_eq : (st.tables table).entries[index]? = some entry
  free : entry.inUse = false
  generation_ne : entry.generation ≠ 0
  added : ziObjectAddHandle (st.objects object) = .ok header
  handle_eq : handle = encodeHandle index entry.generation
  state_eq : st' = (st.setObject object header).setTable table
    ((st.tables table).fill index entry object grantedAccess)

theorem ziHandleOpen_ok
    (h : ziHandleOpen table obj token wanted st = .ok (handle, grantedAccess, st')) :
    ∃ desc i entry header, HandleOpened table obj token wanted st handle
      grantedAccess st' desc i entry header := by
  obtain ⟨-,h⟩ := failIf_bind_ok_iff.mp h
  split at h
  · cases h
  · rename_i desc hdesc
    obtain ⟨granted,hgranted,h⟩ := bind_ok_iff.mp h
    obtain ⟨hopen,h⟩ := failIf_bind_ok_iff.mp h
    dsimp only at h
    split at h
    · cases h
    · rename_i entry hentry
      obtain ⟨header,hhdr,h⟩ := bind_ok_iff.mp h
      cases h
      obtain ⟨hlt,hget⟩ := List.getElem?_eq_some_iff.mp hentry
      have hfound := List.findIdx_getElem (w := hlt)
      rw [hget,Bool.and_eq_true,Bool.not_eq_true',decide_eq_true_eq] at hfound
      exact ⟨desc,_,entry,header,hdesc,hgranted,Bool.eq_false_iff.mpr hopen,
        hentry,hfound.1,hfound.2,hhdr,rfl,rfl⟩

omit [DecidableEq ι] in
theorem referenceHandleEntry_ok
    (h : referenceHandleEntry table handle st = .ok (obj, grantedAccess, st')) : ∃ i gen header,
      decodeHandle (st.tables table) handle = .ok (i, gen) ∧ (st.tables table).isClosing = false ∧
      (st.tables table).namedAt i gen = .ok (obj, grantedAccess) ∧
      ziObjectReference (st.objects obj) = .ok header ∧ st' = st.setObject obj header := by
  obtain ⟨⟨i,gen⟩,hdec,h⟩ := bind_ok_iff.mp h
  obtain ⟨hopen,h⟩ := failIf_bind_ok_iff.mp h
  obtain ⟨⟨named,granted⟩,hnamed,h⟩ := bind_ok_iff.mp h
  obtain ⟨header,hhdr,h⟩ := bind_ok_iff.mp h
  cases h
  exact ⟨i,gen,header,hdec,Bool.eq_false_iff.mpr hopen,hnamed,hhdr,rfl⟩

theorem closeHandleEntry_ok (h : closeHandleEntry table handle st = .ok (obj, st')) :
    ∃ i entry, decodeHandle (st.tables table) handle = .ok (i, entry.generation) ∧
      (st.tables table).entries[i]? = some entry ∧ entry.inUse = true ∧ entry.object = some obj ∧
      st' = st.setTable table ((st.tables table).clear i entry.generation) := by
  obtain ⟨⟨i,gen⟩,hdec,h⟩ := bind_ok_iff.mp h
  obtain ⟨⟨named,granted⟩,hnamed,h⟩ := bind_ok_iff.mp h
  cases h
  obtain ⟨entry,hentry,huse,rfl,hobj,-⟩ := ZiHandleTable.namedAt_ok hnamed
  exact ⟨i,entry,hdec,hentry,huse,hobj,rfl⟩

theorem findIdx_drop_spec {start : ℕ} (hstart : start ≤ j)
    (hj : j < start+(entries.drop start).findIdx p) (hentry : entries[j]? = some entry) :
    p entry = false := by
  have hlt : j-start < (entries.drop start).findIdx p := by omega
  have hget : (entries.drop start)[j-start]? = some entry := by
    rwa [List.getElem?_drop,Nat.add_sub_cancel' hstart]
  obtain ⟨hlen,hget⟩ := List.getElem?_eq_some_iff.mp hget
  have hnot := List.not_of_lt_findIdx hlt
  rwa [hget] at hnot

theorem closeNextEntry_some {found : ℕ} (h : closeNextEntry table i st = some (found, entry, st')) :
    i ≤ found ∧ (st.tables table).entries[found]? = some entry ∧ entry.inUse = true ∧
      (∀ j other, i ≤ j → j < found → (st.tables table).entries[j]? = some other →
        other.inUse = false) ∧
      st' = st.setTable table ((st.tables table).clear found entry.generation) := by
  rw [closeNextEntry] at h
  split at h
  · cases h
  · rename_i first hentry
    cases h
    refine ⟨Nat.le_add_right _ _,hentry,?_,fun j other hj hlt hother => ?_,rfl⟩
    · obtain ⟨hlt,hget⟩ := List.getElem?_eq_some_iff.mp (List.getElem?_drop.trans hentry)
      have hfound := List.findIdx_getElem (w := hlt)
      rwa [hget] at hfound
    · exact findIdx_drop_spec hj hlt hother

theorem closeNextEntry_none (h : closeNextEntry table i st = none) {other : ZiHandleTableEntry}
    (hj : i ≤ j) (hother : (st.tables table).entries[j]? = some other) : other.inUse = false := by
  rw [closeNextEntry] at h
  split at h
  · rename_i hnone
    refine findIdx_drop_spec hj (Nat.lt_of_lt_of_le ?_ (List.getElem?_eq_none_iff.mp hnone)) hother
    exact (List.getElem?_eq_some_iff.mp hother).1
  · cases h

end

/-! ## The books -/

section

variable {κ : Type}

namespace HandleTask

/-- Counts the handle of an entry that is gone. -/
@[simp] def removes (object : ℕ) : HandleTask ι κ → ℕ
  | removeHandle x _ => (decide (x = object)).toNat
  | _ => 0

@[simp] def holds (object : ℕ) : HandleTask ι κ → ℕ
  | releaseHandle x _ => (decide (x = object)).toNat
  | dereference x _ => (decide (x = object)).toNat
  | openTarget _ _ _ x _ _ _ => (decide (x = object)).toNat
  | _ => 0

@[simp] def destroys (object : ℕ) : HandleTask ι κ → ℕ
  | destroy x _ => (decide (x = object)).toNat
  | _ => 0

end HandleTask

namespace HandleEvent

@[simp] def holding (object n : ℕ) : HandleEvent ι κ → ℕ
  | referenced x => if x = object then n+1 else n
  | dereferenced x => if x = object then n-1 else n
  | _ => n

@[simp] def isDestroyed (object : ℕ) : HandleEvent ι κ → Bool
  | destroyed x => decide (x = object)
  | _ => false

end HandleEvent

/-- The references that clients hold: the initial one, and those received and not given back. -/
def outstanding (trace : List (HandleEvent ι κ)) (object : ℕ) : ℕ :=
  trace.foldl (fun n event => event.holding object n) 1

/-- How often the destroy routine of an object has been run. -/
def timesDestroyed (trace : List (HandleEvent ι κ)) (object : ℕ) : ℕ :=
  trace.countP (·.isDestroyed object)

variable [Fintype ι]

def HandleState.naming (st : HandleState ι) (object : ℕ) : ℕ :=
  ∑ table, (st.tables table).names object

def handleAccount (st : HandleState ι) (tasks : List (HandleTask ι κ))
    (trace : List (HandleEvent ι κ)) (object : ℕ) : Account where
  references := (st.objects object).referenceCount
  handles := (st.objects object).handleCount
  isDestroyed := (st.objects object).isDestroyed
  destroys := (st.objects object).hasDestroy
  entries := st.naming object
  removing := (tasks.map (·.removes object)).sum
  held := (tasks.map (·.holds object)).sum
  outstanding := outstanding trace object
  toDestroy := (tasks.map (·.destroys object)).sum
  destroyed := timesDestroyed trace object

/-- The books after a section, with the other tasks and what was seen before. -/
def HandleProgress.account (progress : HandleProgress ι κ) (tasks : List (HandleTask ι κ))
    (trace : List (HandleEvent ι κ)) (object : ℕ) : Account :=
  handleAccount progress.state (tasks ++ progress.rest.toList) (trace ++ progress.events) object

variable {st : HandleState ι} {tasks : List (HandleTask ι κ)} {trace : List (HandleEvent ι κ)}
  {o : ℕ}

theorem handleAccount_perm {tasks' : List (HandleTask ι κ)} (h : tasks.Perm tasks') :
    handleAccount st tasks trace o = handleAccount st tasks' trace o := by
  rw [handleAccount,(h.map _).sum_eq,(h.map _).sum_eq,(h.map _).sum_eq]
  rfl

theorem HandleCaller.resume_account (caller : HandleCaller ι κ) (status : Result Unit) :
    (caller.resume status st).account tasks trace o = handleAccount st tasks trace o := by
  cases caller <;>
    simp [HandleCaller.resume,account,handleAccount,outstanding,timesDestroyed]

theorem handleAccount_setObject (header : ZiObjectHeader) :
    handleAccount (st.setObject obj header) tasks trace o = if o = obj then
        { handleAccount st tasks trace o with
          references := header.referenceCount
          handles := header.handleCount
          isDestroyed := header.isDestroyed
          destroys := header.hasDestroy }
      else handleAccount st tasks trace o := by
  split_ifs with heq
  · subst heq
    simp [handleAccount,setObject,naming]
  · simp [handleAccount,setObject,naming,update_of_ne heq]

theorem releaseObject_account (caller : HandleCaller ι κ) (hrelease : (st.objects obj).CanRelease) :
    (releaseObject obj caller st).account tasks trace o =
      if o = obj then (handleAccount st tasks trace o).release
      else handleAccount st tasks trace o := by
  rw [releaseObject,ziObjectDereference_eq,if_pos hrelease]
  by_cases hone : (st.objects obj).referenceCount = 1
  · rw [if_pos hone]
    cases hdestroy : (st.objects obj).hasDestroy with
    | true =>
      rw [account]
      split_ifs with heq
      · subst heq
        rw [Account.release,if_pos (show (handleAccount st tasks trace o).references = 1 from hone)]
        have hroutine : (st.objects o).operations.any (·.destroy) = true := hdestroy
        simp [handleAccount,setObject,naming,ZiObjectHeader.hasDestroy,hroutine]
      · simp [handleAccount,setObject,naming,update_of_ne heq,Ne.symm heq]
    | false =>
      rw [HandleCaller.resume_account,handleAccount_setObject]
      split_ifs with heq
      · subst heq
        rw [Account.release,if_pos (show (handleAccount st tasks trace o).references = 1 from hone)]
        have hroutine : (st.objects o).operations.any (·.destroy) = false := hdestroy
        simp [handleAccount,ZiObjectHeader.hasDestroy,hroutine]
      · rfl
  · rw [if_neg hone]
    rw [HandleCaller.resume_account,handleAccount_setObject]
    split_ifs with heq
    · subst heq
      rw [Account.release,if_neg (show (handleAccount st tasks trace o).references ≠ 1 from hone)]
      rfl
    · rfl

theorem releaseObject_account_error (caller : HandleCaller ι κ)
    (hrelease : ¬(st.objects obj).CanRelease) :
    (releaseObject obj caller st).account tasks trace o = handleAccount st tasks trace o := by
  rw [releaseObject,ziObjectDereference_eq,if_neg hrelease]
  exact HandleCaller.resume_account caller _

theorem referenceHandleEntry_borrow {table : ι} {st' : HandleState ι} {task : HandleTask ι κ}
    (h : referenceHandleEntry table handle st = .ok (obj, grantedAccess, st'))
    (hremoves : ∀ o, task.removes o = 0) (hdestroys : ∀ o, task.destroys o = 0)
    (hholds : ∀ o, task.holds o = (decide (obj = o)).toNat) :
    Account.Step matched (handleAccount st tasks trace o)
      (account ⟨st',some task,[]⟩ tasks trace o) := by
  obtain ⟨i,gen,header,-,-,-,hhdr,rfl⟩ := referenceHandleEntry_ok h
  obtain ⟨halive,hhdr⟩ := ziObjectReference_ok hhdr
  rw [account]
  rw [handleAccount_setObject]
  by_cases heq : o = obj
  · subst heq
    convert borrow (handleAccount st tasks trace o) halive using 1
    simp [handleAccount,hremoves,hdestroys,hholds,hhdr,ZiObjectHeader.hasDestroy,-removes,-holds,
      -destroys]
  · rw [if_neg heq]
    convert stay (handleAccount st tasks trace o) using 1
    simp [handleAccount,hremoves,hdestroys,hholds,Ne.symm heq,-removes,-holds,-destroys]

theorem ziObjectReference_take {header : ZiObjectHeader} {call : κ}
    {result : Result ℕ} (h : ziObjectReference (st.objects obj) = .ok header) :
    Account.Step matched (handleAccount st tasks trace o)
      (account ⟨st.setObject obj header,none,
        [.referenced obj,.returned call result]⟩ tasks trace o) := by
  obtain ⟨halive,hhdr⟩ := ziObjectReference_ok h
  rw [account]
  rw [handleAccount_setObject]
  by_cases heq : o = obj
  · subst heq
    convert take (handleAccount st tasks trace o) halive using 1
    simp [handleAccount,outstanding,timesDestroyed,hhdr,ZiObjectHeader.hasDestroy]
  · rw [if_neg heq]
    convert stay (handleAccount st tasks trace o) using 1
    simp [handleAccount,outstanding,timesDestroyed,Ne.symm heq]

theorem returned_stay {call : κ} {result : Result ℕ} :
    Account.Step matched (handleAccount st tasks trace o)
      (account ⟨st,none,[.returned call result]⟩ tasks trace o) := by
  convert stay (handleAccount st tasks trace o) using 1
  simp [account,handleAccount,outstanding,timesDestroyed]

theorem releaseObject_give {call : κ} (hrelease : (st.objects obj).CanRelease)
    (hmatched : matched → 0 < outstanding trace obj) :
    Account.Step matched (handleAccount st tasks trace o) (account
        { releaseObject obj (.dereference call) st with
          events := .dereferenced obj ::
            (releaseObject obj (.dereference call) st).events } tasks trace o) := by
  have haccount : (releaseObject obj (.dereference call) st).account tasks
      (trace ++ [.dereferenced obj]) o = _ := releaseObject_account (.dereference call) hrelease
  have htrace : ∀ o, handleAccount st tasks (trace ++ [.dereferenced obj]) o =
      { handleAccount st tasks trace o with
        outstanding := if o = obj then outstanding trace o-1 else outstanding trace o } := by
    intro o
    by_cases heq : o = obj
    · simp [handleAccount,outstanding,timesDestroyed,heq]
    · simp [handleAccount,outstanding,timesDestroyed,heq,Ne.symm heq]
  rw [account,append_assoc] at haccount
  rw [account]
  rw [show (HandleEvent.dereferenced obj : HandleEvent ι κ) ::
      (releaseObject obj (.dereference call) st).events = [.dereferenced obj] ++
      (releaseObject obj (.dereference call) st).events from rfl,haccount,htrace]
  by_cases heq : o = obj
  · subst heq
    convert give (handleAccount st tasks trace o) hrelease hmatched using 1
    simp only [Account.release]
    split_ifs <;> rfl
  · rw [if_neg heq,if_neg heq]
    exact stay _

variable [DecidableEq ι]

omit [Fintype ι] in
@[simp] theorem HandleState.setTable_self (st : HandleState ι) (table : ι) (t' : ZiHandleTable) :
    (st.setTable table t').tables table = t' := update_self ..

omit [Fintype ι] in
theorem HandleState.setTable_of_ne {table t : ι} {t' : ZiHandleTable} (h : t ≠ table) :
    (st.setTable table t').tables t = st.tables t := update_of_ne h ..

theorem HandleState.naming_setTable (st : HandleState ι) (i : ι) (table : ZiHandleTable) :
    (st.setTable i table).naming o+(st.tables i).names o = st.naming o+table.names o := by
  have hothers : ∑ t ∈ Finset.univ.erase i, ((st.setTable i table).tables t).names o =
      ∑ t ∈ Finset.univ.erase i, (st.tables t).names o := by
    refine Finset.sum_congr rfl fun t ht => ?_
    rw [setTable_of_ne (Finset.ne_of_mem_erase ht)]
  have hafter := Finset.add_sum_erase Finset.univ
    (fun t => ((st.setTable i table).tables t).names o) (Finset.mem_univ i)
  have hbefore := Finset.add_sum_erase Finset.univ (fun t => (st.tables t).names o)
    (Finset.mem_univ i)
  rw [naming,naming,← hafter,← hbefore,hothers,setTable_self]
  omega

theorem handleAccount_clear {table : ι} (hentry : (st.tables table).entries[i]? = some entry)
    (hobj : entry.object = some obj) {caller : HandleCaller ι κ} :
    Account.Step matched (handleAccount st tasks trace o)
      (account ⟨st.setTable table ((st.tables table).clear i entry.generation),
        some (.removeHandle obj caller),[.retired table handle]⟩ tasks trace o) := by
  have hnaming := st.naming_setTable (o := o) table
    ((st.tables table).clear i entry.generation)
  have hnames := ZiHandleTable.names_clear hentry o
  rw [hobj] at hnames
  by_cases heq : o = obj
  · subst heq
    rw [decide_eq_true rfl,Bool.toNat_true] at hnames
    convert clear (handleAccount
      (st.setTable table ((st.tables table).clear i entry.generation)) tasks trace o) using 1
    · refine Account.ext rfl rfl rfl rfl ?_ rfl rfl rfl rfl rfl
      show st.naming o = naming _ o+1
      omega
    · simp [account,handleAccount,outstanding,timesDestroyed]
  · rw [decide_eq_false (fun h => heq (Option.some.inj h).symm),Bool.toNat_false] at hnames
    convert stay (handleAccount st tasks trace o) using 1
    refine Account.ext rfl rfl rfl rfl ?_ ?_ ?_ ?_ ?_ ?_
    · show (st.setTable table _).naming o = st.naming o
      omega
    all_goals simp [account,handleAccount,outstanding,timesDestroyed,Ne.symm heq]

variable (hformed : ∀ t, (st.tables t).WellFormed)

include hformed

theorem closeAllSection_account {table : ι} {firstFailure : Result Unit} {call : κ} :
    Account.Step matched (handleAccount st tasks trace o)
      ((closeAllSection table i firstFailure call st).account tasks trace o) := by
  rw [closeAllSection]
  split
  · convert stay (handleAccount st tasks trace o) using 1
    simp [account,handleAccount,outstanding,timesDestroyed]
  · rename_i found entry st' hnext
    obtain ⟨-,hentry,huse,-,rfl⟩ := closeNextEntry_some hnext
    have hsome := ((hformed table).named entry (mem_of_getElem? hentry)).mp huse
    split
    · rename_i named hnamed
      exact handleAccount_clear hentry hnamed
    · rename_i hnone
      rw [hnone] at hsome
      cases hsome

theorem ziHandleOpen_account {table : ι} {st' : HandleState ι}
    {before after : List (HandleTask ι κ)} {events : List (HandleEvent ι κ)}
    (hopen : ziHandleOpen table obj token wanted st = .ok (handle, grantedAccess, st'))
    (hremoves : (after.map (·.removes o)).sum = (before.map (·.removes o)).sum)
    (hholds : (after.map (·.holds o)).sum = (before.map (·.holds o)).sum)
    (hdestroys : (after.map (·.destroys o)).sum = (before.map (·.destroys o)).sum)
    (houtstanding : outstanding (trace ++ events) o = outstanding trace o)
    (hdestroyed : timesDestroyed (trace ++ events) o = timesDestroyed trace o) :
    Account.Step matched (handleAccount st before trace o)
      (handleAccount st' after (trace ++ events) o) := by
  obtain ⟨desc,i,entry,header,h⟩ := ziHandleOpen_ok hopen
  obtain ⟨halive,hhdr⟩ := ziObjectAddHandle_ok h.added
  have hnaming := (st.setObject obj header).naming_setTable (o := o) table
    ((st.tables table).fill i entry obj grantedAccess)
  rw [← h.state_eq] at hnaming
  have hnames := ZiHandleTable.WellFormed.names_fill (hformed table) h.entry_eq h.free obj
    grantedAccess o
  have hsame : (st.setObject obj header).naming o = st.naming o := rfl
  have hsame' : ((st.setObject obj header).tables table).names o = (st.tables table).names o :=
    rfl
  have hobjects : st'.objects = update st.objects obj header := by
    rw [h.state_eq]
    rfl
  by_cases heq : o = obj
  · subst heq
    rw [decide_eq_true rfl,Bool.toNat_true] at hnames
    convert enter (handleAccount st before trace o) halive using 1
    have hself := congrFun hobjects o
    rw [update_self,hhdr] at hself
    refine Account.ext ?_ ?_ ?_ ?_ ?_ hremoves hholds houtstanding hdestroys hdestroyed
    · exact congrArg ZiObjectHeader.referenceCount hself
    · exact congrArg ZiObjectHeader.handleCount hself
    · exact (congrArg ZiObjectHeader.isDestroyed hself :)
    · exact (congrArg ZiObjectHeader.hasDestroy hself :)
    · show st'.naming o = st.naming o+1
      omega
  · rw [decide_eq_false (Ne.symm heq),Bool.toNat_false] at hnames
    convert stay (handleAccount st before trace o) using 1
    have hother : st'.objects o = st.objects o := by rw [hobjects,update_of_ne heq]
    refine Account.ext ?_ ?_ ?_ ?_ ?_ hremoves hholds houtstanding hdestroys hdestroyed
    · exact congrArg ZiObjectHeader.referenceCount hother
    · exact congrArg ZiObjectHeader.handleCount hother
    · exact congrArg ZiObjectHeader.isDestroyed hother
    · exact congrArg ZiObjectHeader.hasDestroy hother
    · show st'.naming o = st.naming o
      omega

/-- What the first section of a call can do. -/
inductive HandleCall.Starts (id : κ) (st : HandleState ι) :
    HandleCall ι → HandleProgress ι κ → Prop
  | failed (call : HandleCall ι) (status : ZiStatus) :
      Starts id st call ⟨st,none,[.returned id (.error status)]⟩
  | referenced {obj : ℕ} {header : ZiObjectHeader}
      (h : ziObjectReference (st.objects obj) = .ok header) : Starts id st (.reference obj)
        ⟨st.setObject obj header,none,[.referenced obj,.returned id (.ok 0)]⟩
  | dereferenced {obj : ℕ} (h : (st.objects obj).CanRelease) : Starts id st (.dereference obj)
      { releaseObject obj (.dereference id) st with
        events := .dereferenced obj :: (releaseObject obj (.dereference id) st).events }
  | opened {table : ι} {obj handle granted : ℕ} {token : ZiAccessToken} {wanted : ZiAccessMask}
      {st' : HandleState ι}
      (h : ziHandleOpen table obj token wanted.toNat st = .ok (handle, granted, st')) :
      Starts id st (.openObject table obj token wanted)
        ⟨st',none,[.issued ⟨table,handle,obj,granted,token,none⟩,.returned id (.ok handle)]⟩
  | found (call : HandleCall ι) {table : ι} {handle obj granted : ℕ} {st' : HandleState ι}
      (h : referenceHandleEntry table handle st = .ok (obj, granted, st')) :
      Starts id st call ⟨st',none,[.referenced obj,.returned id (.ok obj)]⟩
  | denied (call : HandleCall ι) (status : ZiStatus) {table : ι} {handle obj granted : ℕ}
      {st' : HandleState ι} (h : referenceHandleEntry table handle st = .ok (obj, granted, st')) :
      Starts id st call ⟨st',some (.dereference obj (.answer (.error status) id)),[]⟩
  | duplicated (call : HandleCall ι) {table target : ι} {handle obj granted access : ℕ}
      {token : ZiAccessToken} {st' : HandleState ι}
      (h : referenceHandleEntry table handle st = .ok (obj, granted, st'))
      (haccess : access = granted ∨ ∃ wanted : ZiAccessMask, access = wanted.toNat)
      (hwithin : amplifies access granted ≠ true) :
      Starts id st call ⟨st',some (.openTarget table handle target obj token access id),[]⟩
  | closed {table : ι} {handle obj : ℕ} {st' : HandleState ι}
      (h : closeHandleEntry table handle st = .ok (obj, st')) : Starts id st (.close table handle)
        ⟨st',some (.removeHandle obj (.close id)),[.retired table handle]⟩
  | closing (table : ι) : Starts id st (.closeAll table) (closeAllSection table 0 (.ok ()) id
      (st.setTable table { st.tables table with isClosing := true }))

omit [Fintype ι] hformed in
theorem HandleCall.start_starts (call : HandleCall ι) (id : κ) (st : HandleState ι) :
    call.Starts id st (call.start id st) := by
  cases call with
  | reference obj =>
    rw [HandleCall.start]
    split
    · exact .failed _ _
    · rename_i header hhdr
      exact .referenced hhdr
  | dereference obj =>
    rw [HandleCall.start]
    split
    · exact .failed _ _
    · rename_i released hreleased
      refine .dereferenced ?_
      rw [ziObjectDereference_eq] at hreleased
      split_ifs at hreleased with hrelease
      · exact hrelease
      · exact hrelease
  | openObject table obj token wanted =>
    rw [HandleCall.start]
    split
    · exact .failed _ _
    · rename_i hopen
      exact .opened hopen
  | lookup table handle desiredAccess expectedType =>
    rw [HandleCall.start]
    split
    · exact .failed _ _
    · rename_i hreference
      split_ifs
      · exact .denied _ _ hreference
      · exact .denied _ _ hreference
      · exact .found _ hreference
  | duplicate sourceTable sourceHandle targetTable targetToken wanted flags =>
    rw [HandleCall.start]
    split
    · exact .failed _ _
    · split
      · exact .failed _ _
      · rename_i hreference
        dsimp only
        generalize haccess : (if flags &&& handleDuplicateSameAccess ≠ 0 then _
          else wanted.toNat) = access
        split_ifs with hamplifies
        · exact .denied _ _ hreference
        · refine .duplicated _ hreference ?_ hamplifies
          rw [← haccess]
          split_ifs
          · exact .inl rfl
          · exact .inr ⟨wanted,rfl⟩
  | close table handle =>
    rw [HandleCall.start]
    split
    · exact .failed _ _
    · rename_i hclose
      exact .closed hclose
  | closeAll table =>
    rw [HandleCall.start]
    split
    · exact .failed _ _
    · exact .closing table

theorem HandleCall.start_account {call : HandleCall ι} {id : κ}
    (hmatched : matched → ∀ obj, call = .dereference obj → 0 < outstanding trace obj) :
    Account.Step matched (handleAccount st tasks trace o)
      ((call.start id st).account tasks trace o) := by
  have hstarts := call.start_starts id st
  generalize call.start id st = progress at hstarts ⊢
  cases hstarts with
  | failed _ status => exact returned_stay
  | referenced h => exact ziObjectReference_take h
  | dereferenced h => exact releaseObject_give h fun hm => hmatched hm _ rfl
  | opened h =>
    refine ziHandleOpen_account hformed h ?_ ?_ ?_ ?_ ?_
    all_goals simp [outstanding,timesDestroyed]
  | found _ h =>
    obtain ⟨i,gen,header,-,-,-,hhdr,rfl⟩ := referenceHandleEntry_ok h
    exact ziObjectReference_take hhdr
  | denied _ status h =>
    exact referenceHandleEntry_borrow h (fun _ => rfl) (fun _ => rfl) fun _ => rfl
  | duplicated _ h _ _ =>
    exact referenceHandleEntry_borrow h (fun _ => rfl) (fun _ => rfl) fun _ => rfl
  | closed h =>
    obtain ⟨i,entry,-,hentry,-,hobj,rfl⟩ := closeHandleEntry_ok h
    exact handleAccount_clear hentry hobj
  | closing table =>
    have hclosing : ∀ t, ((st.setTable table
        { st.tables table with isClosing := true }).tables t).WellFormed := by
      intro t
      by_cases heq : t = table
      · rw [heq,setTable_self]
        exact (hformed table).step .close
      · rw [setTable_of_ne heq]
        exact hformed t
    have hsame : handleAccount (st.setTable table { st.tables table with isClosing := true })
        tasks trace o = handleAccount st tasks trace o := by
      have hnaming := st.naming_setTable (o := o) table
        { st.tables table with isClosing := true }
      refine Account.ext rfl rfl rfl rfl (Nat.add_right_cancel hnaming) rfl rfl rfl rfl rfl
    rw [← hsame]
    exact closeAllSection_account hclosing

theorem HandleTask.resume_account (task : HandleTask ι κ) :
    Account.Step matched (handleAccount st (task :: tasks) trace o)
      ((task.resume st).account tasks trace o) := by
  have hrelease : ∀ obj caller, task.removes o = 0 → task.destroys o = 0 →
      task.holds o = (decide (obj = o)).toNat →
      Account.Step matched (handleAccount st (task :: tasks) trace o)
        ((releaseObject obj caller st).account tasks trace o) := by
    intro obj caller hremoves hdestroys hholds
    have hbefore : handleAccount st (task :: tasks) trace o = { handleAccount st tasks trace o with
          held := (handleAccount st tasks trace o).held+(decide (obj = o)).toNat } := by
      simp [handleAccount,hremoves,hdestroys,hholds,Nat.add_comm,-removes,-holds,-destroys]
    rw [hbefore]
    by_cases hcan : (st.objects obj).CanRelease
    · rw [releaseObject_account caller hcan]
      by_cases heq : o = obj
      · subst heq
        rw [if_pos rfl,decide_eq_true rfl,Bool.toNat_true]
        exact settle _ hcan
      · rw [if_neg heq,decide_eq_false (Ne.symm heq),Bool.toNat_false]
        exact stay _
    · rw [releaseObject_account_error caller hcan]
      by_cases heq : o = obj
      · subst heq
        rw [decide_eq_true rfl,Bool.toNat_true]
        exact forfeit _ hcan
      · rw [decide_eq_false (Ne.symm heq),Bool.toNat_false]
        exact stay _
  cases task with
  | removeHandle obj caller =>
    have hbefore : handleAccount st (removeHandle obj caller :: tasks) trace o =
        { handleAccount st tasks trace o with
          removing := (handleAccount st tasks trace o).removing+(decide (obj = o)).toNat } := by
      simp [handleAccount,Nat.add_comm]
    rw [hbefore,resume]
    split
    · rename_i status hstatus
      rw [HandleCaller.resume_account]
      by_cases heq : o = obj
      · subst heq
        rw [decide_eq_true rfl,Bool.toNat_true]
        exact refuse _ (objectRemoveHandleLocked_error hstatus)
      · rw [decide_eq_false (Ne.symm heq),Bool.toNat_false]
        exact stay _
    · rename_i header hhdr
      obtain ⟨halive,hcounted,hrefs,hhandles,hdestroyed,hoperations⟩ :=
        objectRemoveHandleLocked_ok hhdr
      by_cases heq : o = obj
      · subst heq
        convert remove
          (handleAccount (st.setObject o header) tasks trace o) ?_ using 1
        · rw [handleAccount_setObject,if_pos rfl,decide_eq_true rfl,Bool.toNat_true]
          refine Account.ext hrefs.symm ?_ hdestroyed.symm ?_ rfl rfl rfl rfl rfl rfl
          · show (st.objects o).handleCount = header.handleCount+1
            omega
          · show (st.objects o).hasDestroy = header.hasDestroy
            rw [ZiObjectHeader.hasDestroy,ZiObjectHeader.hasDestroy,hoperations]
        · simp [account,handleAccount]
        · rw [handleAccount_setObject,if_pos rfl]
          exact hdestroyed.trans halive
      · rw [decide_eq_false (Ne.symm heq),Bool.toNat_false]
        rw [account]
        rw [handleAccount_setObject,if_neg heq]
        convert stay (handleAccount st tasks trace o) using 1
        · simp [handleAccount]
        · simp [handleAccount,Ne.symm heq]
  | releaseHandle obj caller => exact hrelease obj caller rfl rfl rfl
  | dereference obj caller => exact hrelease obj caller rfl rfl rfl
  | destroy obj caller =>
    have haccount : (caller.resume (.ok ()) st).account tasks (trace ++ [.destroyed obj]) o =
        _ := HandleCaller.resume_account caller (.ok ())
    rw [account,append_assoc] at haccount
    rw [resume,account]
    rw [show (HandleEvent.destroyed obj : HandleEvent ι κ) ::
        (caller.resume (.ok ()) st).events = [.destroyed obj] ++
        (caller.resume (.ok ()) st).events from rfl,haccount]
    by_cases heq : o = obj
    · subst heq
      convert run (handleAccount st tasks trace o) using 1
      · simp [handleAccount,Nat.add_comm]
      · simp [handleAccount,outstanding,timesDestroyed]
    · convert stay (handleAccount st tasks trace o) using 1
      · simp [handleAccount,Ne.symm heq]
      · simp [handleAccount,outstanding,timesDestroyed,Ne.symm heq]
  | openTarget sourceTable sourceHandle targetTable obj targetToken targetAccess call =>
    rw [resume]
    split
    · convert stay _ using 1
      simp [account,handleAccount,Nat.add_comm]
    · rename_i handle grantedAccess st' hopen
      refine ziHandleOpen_account hformed hopen ?_ ?_ ?_ ?_ ?_
      all_goals simp [outstanding,timesDestroyed,Nat.add_comm]
  | closeAll table i firstFailure call =>
    have hbefore : handleAccount st (closeAll table i firstFailure call :: tasks) trace o =
        handleAccount st tasks trace o := by
      simp [handleAccount]
    rw [hbefore]
    exact closeAllSection_account hformed

end

end Zizium
