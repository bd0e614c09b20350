import Zizium.Executive.IdentityInvariant
import Zizium.Fs.SecurityTable

/-!
# The durable identity store

`kernel/executive/security/identity_store.c` over a file system whose commit is crash-atomic: a
commit that returns success has replaced the contents of the database file, and one that fails
or is cut short by a crash leaves the old contents or the new ones.  Which of the two, and every
other answer of ZiFS, is an argument of the call, so that results hold whatever ZiFS answers.
The write request (the record of the store, offset 0, all bytes) and the read of the file are not
run on the model of ZiFS: that they replace and return the whole file is assumed.
-/

namespace Zizium

open Bytes BlockIO List

variable {identity : ZiNativeIdentity} {req : ZiIdentityCreateRequest}
  {auth : ZiIdentityDatabaseAuthority} {α : Type}

abbrev identityStoreVersion : ℕ := 1
abbrev identityStoreSize : ℕ := 104
abbrev identityStoreWorkspaceSize : ℕ := 163840

structure ZiIdentityStore where
  structSize : ℕ
  version : ℕ
  authority : ZiIdentityDatabaseAuthority
  recordIndex : ℕ
  fileId : ℕ
  minimumGeneration : ℕ
  needsRecovery : ℕ
  deriving DecidableEq, Repr

/-- How a commit ends.  `durable` says whether recovery finds the new contents. -/
inductive CommitFate where
  | committed
  | failed (status : ZiStatus) (durable : Bool)
  | crashed (durable : Bool)
  deriving DecidableEq, Repr

/-- What ZiFS answers during one call: the state of the volume, the file record and the
descriptor read for the store, how many bytes of the file were read, and the transaction.
`debris` is what a failed or short read leaves in the buffer. -/
structure ZiFsAnswers where
  isMounted : ℕ
  needsRecovery : ℕ
  volumeUuid : Uuid
  fileRecord : Result ZiFsFileRecord
  securityDescriptor : Result ZiFsSecurityDescriptorStorage
  readFile : Result ℕ
  debris : Mem
  transactionInitialise : Result Unit
  prepareWrite : Result Unit
  commit : CommitFate

def validateStore (store : ZiIdentityStore) (answers : ZiFsAnswers) (size : ℕ) : Result Unit := do
  failIf (store.structSize ≠ identityStoreSize ∨ store.version ≠ identityStoreVersion ∨
    store.fileId = 0 ∨ store.minimumGeneration = 0 ∨ authorityValid store.authority = false)
    .invalidArgument
  failIf (size < identityStoreWorkspaceSize) .bufferTooSmall
  failIf (store.needsRecovery ≠ 0 ∨ answers.needsRecovery ≠ 0 ∨ answers.isMounted = 0)
    .recoveryRequired
  failIf (store.authority.volume ≠ answers.volumeUuid) .accessDenied

def systemId : ZiSecurityId := ⟨authoritySystem,1⟩

def isSystemOnly (security : ZiFsSecurityDescriptorStorage) : Bool :=
  match security.descriptor.dacl with
  | some ⟨_,_,[entry]⟩ =>
    decide (security.flags = securityFlagDaclPresent ∧ security.descriptor.controlFlags = 0 ∧
      security.descriptor.owner = systemId ∧ entry.type = aceAllow ∧
      entry.inheritanceFlags = 0 ∧ entry.accessMask = accessFullControl ∧
      entry.trustee = systemId)
  | _ => false

def readBoundRecord (store : ZiIdentityStore) (token : ZiAccessToken) (answers : ZiFsAnswers) :
    Result ZiFsFileRecord := do
  failIf (ziSecurityTokenValidate token = false) .invalidArgument
  let record ← answers.fileRecord
  failIf (record.fileId ≠ store.fileId ∨ record.fileType ≠ fileTypeRegular ∨
    record.fileSize ≠ identityDatabaseSize ∨ record.flags ≠ 0) .accessDenied
  let security ← answers.securityDescriptor
  failIf (isSystemOnly security = false) .accessDenied
  let _ ← ziSecurityAccessCheck security.descriptor token accessFullControl
  pure record

/-- The store with the first bytes of its workspace, where the database is. -/
structure StoreMemory where
  store : ZiIdentityStore
  workspace : Mem

variable {memory : Option StoreMemory}

def ziIdentityStoreLoad (memory : StoreMemory) (volume : Mem) (token : ZiAccessToken)
    (workspaceSize : ℕ) (answers : ZiFsAnswers) : Result ZiIdentityDatabaseState × StoreMemory :=
  match validateStore memory.store answers workspaceSize with
  | .error status => (.error status, memory)
  | .ok () =>
    match readBoundRecord memory.store token answers with
    | .error status => (.error status, memory)
    | .ok _ =>
      match answers.readFile with
      | .error status => (.error status, { memory with workspace := answers.debris })
      | .ok readSize =>
        if readSize ≠ identityDatabaseSize then
          (.error .invalidState, { memory with workspace := answers.debris })
        else
          match ziIdentityDatabaseValidate volume identityDatabaseSize memory.store.authority
            memory.store.minimumGeneration with
          | .error status => (.error status, { memory with workspace := volume })
          | .ok state =>
            (.ok state, ⟨{ memory.store with minimumGeneration := state.generation },volume⟩)

/-- How a call of the store ends: with a status, or in a crash.  The volume is what recovery
finds on the device. -/
structure StoreEnd (α : Type) where
  result : Option (Result α)
  memory : StoreMemory
  volume : Mem

def commitSnapshot (memory : StoreMemory) (volume : Mem) (generation : ℕ) (answers : ZiFsAnswers) :
    StoreEnd Unit :=
  match answers.transactionInitialise with
  | .error status => ⟨some (.error status),memory,volume⟩
  | .ok () =>
    match answers.prepareWrite with
    | .error status => ⟨some (.error status),memory,volume⟩
    | .ok () =>
      match answers.commit with
      | .committed =>
        ⟨some (.ok ()),
          { memory with store := { memory.store with minimumGeneration := generation } },
          memory.workspace⟩
      | .failed status durable =>
        ⟨some (.error status),{ memory with store := { memory.store with needsRecovery := 1 } },
          if durable then memory.workspace else volume⟩
      | .crashed durable => ⟨none,memory,if durable then memory.workspace else volume⟩

def ziIdentityStoreIssue (memory : StoreMemory) (volume : Mem) (token : ZiAccessToken)
    (request : ZiIdentityCreateRequest) (workspaceSize : ℕ) (answers : ZiFsAnswers) :
    StoreEnd ZiNativeIdentity :=
  match ziIdentityStoreLoad memory volume token workspaceSize answers with
  | (.error status, memory) => ⟨some (.error status),memory,volume⟩
  | (.ok state, memory) =>
    match ziIdentityDatabaseAppend memory.workspace identityDatabaseSize memory.store.authority
      request with
    | (.error status, bytes) => ⟨some (.error status),{ memory with workspace := bytes },volume⟩
    | (.ok identity, bytes) =>
      let done := commitSnapshot { memory with workspace := bytes } volume (state.generation+1)
        answers
      ⟨done.result.map fun result => result.map fun _ => identity,done.memory,done.volume⟩

def ziIdentityStoreRemove (memory : StoreMemory) (volume : Mem) (token : ZiAccessToken)
    (identity : ZiNativeIdentity) (workspaceSize : ℕ) (answers : ZiFsAnswers) : StoreEnd Unit :=
  match ziIdentityStoreLoad memory volume token workspaceSize answers with
  | (.error status, memory) => ⟨some (.error status),memory,volume⟩
  | (.ok state, memory) =>
    match ziIdentityDatabaseRemove memory.workspace identityDatabaseSize memory.store.authority
      identity with
    | (.error status, bytes) => ⟨some (.error status),{ memory with workspace := bytes },volume⟩
    | (.ok (), bytes) =>
      commitSnapshot { memory with workspace := bytes } volume (state.generation+1) answers

/-! ## Calls -/

def LiveIn (bytes : Mem) (identity : ZiNativeIdentity) : Prop :=
  ∃ index < (readState bytes).recordCount, ∃ record,
    decodeRecord (recordBytes bytes index) = .ok record ∧ record.identity = identity ∧
      record.state ≠ identityRecordTombstone

section Calls

variable {memory : StoreMemory} {vol bytes bytes' : Mem} {token : ZiAccessToken} {size : ℕ}
  {answers : ZiFsAnswers} {recs : List ZiIdentityDatabaseRecord}

theorem DatabaseOk.liveIn_iff (h : DatabaseOk auth bytes recs) : LiveIn bytes identity ↔
      ∃ record ∈ recs, record.identity = identity ∧ record.state ≠ identityRecordTombstone :=
  h.decodes_iff

theorem ziIdentityStoreLoad_ok {state : ZiIdentityDatabaseState} {memory' : StoreMemory}
    (h : ziIdentityStoreLoad memory vol token size answers = (.ok state, memory')) :
    memory.store.needsRecovery = 0 ∧ state = readState vol ∧
      memory' = ⟨{ memory.store with minimumGeneration := state.generation },vol⟩ ∧
      ∃ recs, DatabaseOk memory.store.authority vol recs := by
  rw [ziIdentityStoreLoad] at h
  split at h
  · cases h
  next hstore =>
  split at h
  · cases h
  split at h
  · cases h
  split at h
  · cases h
  split at h
  · cases h
  next state' hvalidate =>
  obtain ⟨hstate,rfl⟩ := Prod.mk.inj h
  cases hstate
  obtain ⟨⟨-,-,-,rfl⟩,hok⟩ := validate_ok_iff.mp hvalidate
  refine ⟨?_,rfl,rfl,hok⟩
  rw [validateStore] at hstore
  simp only [Except.unit_bind_ok_iff,Except.failIf_ok_iff,not_or,not_not,ne_eq] at hstore
  exact hstore.2.2.1.1

theorem commitSnapshot_cases (memory : StoreMemory) (vol : Mem) (gen : ℕ) (answers : ZiFsAnswers) :
    (∃ status, commitSnapshot memory vol gen answers = ⟨some (.error status),memory,vol⟩) ∨
    (∃ status found, (found = vol ∨ found = memory.workspace) ∧
      commitSnapshot memory vol gen answers = ⟨some (.error status),
          { memory with store := { memory.store with needsRecovery := 1 } },found⟩) ∨
    (∃ found, (found = vol ∨ found = memory.workspace) ∧
      commitSnapshot memory vol gen answers = ⟨none,memory,found⟩) ∨
    commitSnapshot memory vol gen answers =
      ⟨some (.ok ()),{ memory with store := { memory.store with minimumGeneration := gen } },
        memory.workspace⟩ := by
  have hfound : ∀ durable : Bool, (if durable then memory.workspace else vol) = vol ∨
      (if durable then memory.workspace else vol) = memory.workspace := by
    intro durable
    cases durable
    · exact .inl rfl
    · exact .inr rfl
  rw [commitSnapshot]
  split
  next status _ => exact .inl ⟨status,rfl⟩
  split
  next status _ => exact .inl ⟨status,rfl⟩
  split
  next => exact .inr (.inr (.inr rfl))
  next status durable _ => exact .inr (.inl ⟨status,_,hfound durable,rfl⟩)
  next durable _ => exact .inr (.inr (.inl ⟨_,hfound durable,rfl⟩))

/-- The buffer `bytes'` is `bytes` after a change that keeps the live records of everyone but
`removed`, and records `added`. -/
structure Changed (bytes bytes' : Mem) (added removed : Option ZiNativeIdentity) : Prop where
  kept : ∀ identity, Recorded bytes identity → Recorded bytes' identity
  live : ∀ identity, some identity ≠ removed → LiveIn bytes identity → LiveIn bytes' identity
  new : ∀ identity ∈ added, ¬Recorded bytes identity ∧ LiveIn bytes' identity

theorem Changed.refl (bytes : Mem) (removed : Option ZiNativeIdentity) :
    Changed bytes bytes none removed :=
  ⟨fun _ h => h,fun _ _ h => h,nofun⟩

theorem LiveIn.recorded (h : LiveIn bytes identity) : Recorded bytes identity := by
  obtain ⟨i,hi,record,hrec,hidentity,-⟩ := h
  exact ⟨i,hi,record,hrec,hidentity⟩

theorem changed_append (h : ziIdentityDatabaseAppend bytes size auth req = (.ok identity, bytes')) :
    Changed bytes bytes' (some identity) none := by
  rcases append_cases bytes size auth req with
    ⟨status,hres⟩ | ⟨recs,found,hres,hok,-,hok'⟩
  · rw [h] at hres
    cases hres
  · rw [h] at hres
    obtain ⟨hidentity,rfl⟩ := Prod.mk.inj hres
    cases hidentity
    refine ⟨?_,?_,?_⟩
    · have hkept := (append_sound hok size auth req).kept
      rwa [IdentityRequest.apply,h] at hkept
    · intro other _ hlive
      obtain ⟨found,hmem,hfound⟩ := hok.liveIn_iff.mp hlive
      exact hok'.liveIn_iff.mpr ⟨found,mem_append_left _ hmem,hfound⟩
    · intro other hother
      cases hother
      exact ⟨hok.not_recorded_appended req,
        hok'.liveIn_iff.mpr ⟨_,by simp,rfl,show identityRecordDisabled ≠ _ by decide⟩⟩

theorem changed_remove (h : ziIdentityDatabaseRemove bytes size auth identity = (.ok (), bytes')) :
    Changed bytes bytes' none (some identity) := by
  rcases remove_cases bytes size auth identity with
    ⟨status,hres⟩ | ⟨before,record,after,found,hres,rfl,-,hok,⟨-,hok'⟩,-⟩
  · rw [h] at hres
    cases hres
  · rw [h] at hres
    obtain ⟨-,rfl⟩ := Prod.mk.inj hres
    refine ⟨?_,?_,nofun⟩
    · have hkept := (remove_sound hok size auth record.identity).kept
      rwa [IdentityRequest.apply,h] at hkept
    · intro other hne hlive
      obtain ⟨found,hmem,rfl,hstate⟩ := hok.liveIn_iff.mp hlive
      apply hok'.liveIn_iff.mpr
      rw [mem_append,mem_cons] at hmem
      rcases hmem with hmem | rfl | hmem
      · exact ⟨found,by simp [hmem],rfl,hstate⟩
      · exact absurd rfl hne
      · exact ⟨found,by simp [hmem],rfl,hstate⟩

/-- A call leaves the old volume or the one that `change` makes of it, and the latter when it
returns success.  A call that fails on another volume than the old one has poisoned the store. -/
structure StoreEnd.OldOrNew {α : Type} (done : StoreEnd α) (volume : Mem)
    (change : Mem → Result α × Mem) : Prop where
  found : done.volume = volume ∨ ∃ value, change volume = (.ok value, done.volume)
  returned : ∀ value, done.result = some (.ok value) →
    change volume = (.ok value, done.volume) ∧ done.memory.workspace = done.volume
  poisoned : ∀ status, done.result = some (.error status) →
    done.volume = volume ∨ done.memory.store.needsRecovery = 1

theorem StoreEnd.OldOrNew.failed (status : ZiStatus) (memory : StoreMemory) (vol : Mem)
    (change : Mem → Result α × Mem) :
    StoreEnd.OldOrNew ⟨some (.error status),memory,vol⟩ vol change :=
  ⟨.inl rfl,nofun,fun _ _ => .inl rfl⟩

theorem commitSnapshot_oldOrNew {change : Mem → Result α × Mem} {value : α}
    (hchange : change vol = (.ok value, memory.workspace)) (gen : ℕ) (answers : ZiFsAnswers) :
    let done := commitSnapshot memory vol gen answers
    StoreEnd.OldOrNew ⟨done.result.map fun result => result.map fun _ => value,done.memory,
      done.volume⟩ vol change := by
  have hfound : ∀ {found : Mem}, found = vol ∨ found = memory.workspace →
      found = vol ∨ ∃ value, change vol = (.ok value, found) := by
    rintro found (rfl | rfl)
    · exact .inl rfl
    · exact .inr ⟨value,hchange⟩
  rcases commitSnapshot_cases memory vol gen answers with
    ⟨status,h⟩ | ⟨status,found,hmem,h⟩ | ⟨found,hmem,h⟩ | h
  · rw [h]
    exact .failed status memory vol change
  · rw [h]
    exact ⟨hfound hmem,nofun,fun _ _ => .inr rfl⟩
  · rw [h]
    exact ⟨hfound hmem,nofun,nofun⟩
  · rw [h]
    refine ⟨.inr ⟨value,hchange⟩,?_,nofun⟩
    intro other hother
    cases hother
    exact ⟨hchange,rfl⟩

theorem commitSnapshot_unit_oldOrNew {change : Mem → Result Unit × Mem}
    (hchange : change vol = (.ok (), memory.workspace)) (gen : ℕ) (answers : ZiFsAnswers) :
    (commitSnapshot memory vol gen answers).OldOrNew vol change := by
  have hunit : (fun result : Result Unit => result.map fun _ => ()) = id := by
    funext result
    cases result
    · rfl
    · rfl
  have hcommit := commitSnapshot_oldOrNew hchange gen answers
  rwa [hunit,Option.map_id] at hcommit

theorem ziIdentityStoreIssue_oldOrNew (memory : StoreMemory) (vol : Mem) (token : ZiAccessToken)
    (req : ZiIdentityCreateRequest) (size : ℕ) (answers : ZiFsAnswers) :
    (ziIdentityStoreIssue memory vol token req size answers).OldOrNew vol fun bytes =>
      ziIdentityDatabaseAppend bytes identityDatabaseSize memory.store.authority req := by
  rw [ziIdentityStoreIssue]
  split
  next status _ _ => exact .failed status _ vol _
  next state memory' hload =>
  obtain ⟨-,-,rfl,-⟩ := ziIdentityStoreLoad_ok hload
  split
  next status _ _ => exact .failed status _ vol _
  next identity bytes happend => exact commitSnapshot_oldOrNew happend _ _

theorem ziIdentityStoreRemove_oldOrNew (memory : StoreMemory) (vol : Mem) (token : ZiAccessToken)
    (identity : ZiNativeIdentity) (size : ℕ) (answers : ZiFsAnswers) :
    (ziIdentityStoreRemove memory vol token identity size answers).OldOrNew vol fun bytes =>
      ziIdentityDatabaseRemove bytes identityDatabaseSize memory.store.authority identity := by
  rw [ziIdentityStoreRemove]
  split
  next status _ _ => exact .failed status _ vol _
  next state memory' hload =>
  obtain ⟨-,-,rfl,-⟩ := ziIdentityStoreLoad_ok hload
  split
  next status _ _ => exact .failed status _ vol _
  next bytes hremove => exact commitSnapshot_unit_oldOrNew hremove _ _

end Calls

/-! ## Runs -/

/-- A store in use: its memory while it is up, the contents of the database file, the identities
returned so far, and those of them whose removal nobody has asked for since. -/
structure StoreRun where
  memory : Option StoreMemory
  volume : Mem
  issued : List ZiNativeIdentity
  kept : List ZiNativeIdentity

variable {run : StoreRun}

/-- `reopen` is recovery, a remount and a store in any state bound to the file, after a crash or
at any other time. -/
inductive StoreEvent where
  | reopen (memory : StoreMemory)
  | load (token : ZiAccessToken) (size : ℕ) (answers : ZiFsAnswers)
  | issue (token : ZiAccessToken) (request : ZiIdentityCreateRequest) (size : ℕ)
      (answers : ZiFsAnswers)
  | remove (token : ZiAccessToken) (identity : ZiNativeIdentity) (size : ℕ)
      (answers : ZiFsAnswers)

/-- The memory of the store after a call: a crash loses it. -/
def StoreEnd.survivor {α : Type} (done : StoreEnd α) : Option StoreMemory :=
  done.result.map fun _ => done.memory

def StoreEnd.value? {α : Type} (done : StoreEnd α) : Option α :=
  match done.result with
  | some (.ok value) => some value
  | _ => none

namespace StoreRun

def start (volume : Mem) : StoreRun :=
  ⟨none,volume,[],[]⟩

/-- A store that is down takes no calls. -/
def step (run : StoreRun) : StoreEvent → StoreRun
  | .reopen memory => { run with memory := some memory }
  | .load token size answers =>
    match run.memory with
    | none => run
    | some memory =>
      { run with memory := some (ziIdentityStoreLoad memory run.volume token size answers).2 }
  | .issue token request size answers =>
    match run.memory with
    | none => run
    | some memory =>
      let done := ziIdentityStoreIssue memory run.volume token request size answers
      ⟨done.survivor,done.volume,done.value?.toList ++ run.issued,done.value?.toList ++ run.kept⟩
  | .remove token identity size answers =>
    match run.memory with
    | none => run
    | some memory =>
      let done := ziIdentityStoreRemove memory run.volume token identity size answers
      ⟨done.survivor,done.volume,run.issued,run.kept.filter (· ≠ identity)⟩

def after (run : StoreRun) (events : List StoreEvent) : StoreRun :=
  events.foldl step run

/-- What was returned is on record, and is live unless its removal was asked for. -/
structure Sound (run : StoreRun) : Prop where
  nodup : run.issued.Nodup
  recorded : ∀ identity ∈ run.issued, Recorded run.volume identity
  live : ∀ identity ∈ run.kept, LiveIn run.volume identity

theorem start_sound (vol : Mem) : (start vol).Sound :=
  ⟨nodup_nil,fun _ h => absurd h not_mem_nil,fun _ h => absurd h not_mem_nil⟩

theorem Sound.issue (h : run.Sound) {done : StoreEnd ZiNativeIdentity}
    (hdone : done.OldOrNew run.volume fun bytes => ziIdentityDatabaseAppend bytes
      identityDatabaseSize auth req) :
    Sound ⟨memory,done.volume,done.value?.toList ++ run.issued,
      done.value?.toList ++ run.kept⟩ := by
  cases hvalue : done.value? with
  | none =>
    rcases hdone.found with hsame | ⟨identity,hnew⟩
    · exact ⟨h.nodup,hsame ▸ h.recorded,hsame ▸ h.live⟩
    · have hchanged := changed_append hnew
      exact ⟨h.nodup,fun other hother => hchanged.kept other (h.recorded other hother),
        fun other hother => hchanged.live other nofun (h.live other hother)⟩
  | some identity =>
    have hres : done.result = some (.ok identity) := by
      rw [StoreEnd.value?] at hvalue
      split at hvalue
      next hres => rw [hres,Option.some.inj hvalue]
      · cases hvalue
    have hchanged := changed_append (hdone.returned identity hres).1
    obtain ⟨hfresh,hlive⟩ := hchanged.new identity rfl
    refine ⟨?_,?_,?_⟩
    · exact nodup_cons.mpr ⟨fun hmem => hfresh (h.recorded identity hmem),h.nodup⟩
    · exact forall_mem_cons.mpr ⟨hlive.recorded,fun other hother =>
        hchanged.kept other (h.recorded other hother)⟩
    · exact forall_mem_cons.mpr ⟨hlive,fun other hother =>
        hchanged.live other nofun (h.live other hother)⟩

theorem Sound.remove (h : run.Sound) {done : StoreEnd Unit}
    (hdone : done.OldOrNew run.volume fun bytes => ziIdentityDatabaseRemove bytes
      identityDatabaseSize auth identity) :
    Sound ⟨memory,done.volume,run.issued,run.kept.filter (· ≠ identity)⟩ := by
  have hchanged : Changed run.volume done.volume none (some identity) := by
    rcases hdone.found with hsame | ⟨_,hnew⟩
    · rw [hsame]
      exact .refl _ _
    · exact changed_remove hnew
  refine ⟨h.nodup,fun other hother => hchanged.kept other (h.recorded other hother),?_⟩
  intro other hother
  obtain ⟨hkept,hne⟩ := mem_filter.mp hother
  refine hchanged.live other ?_ (h.live other hkept)
  simpa using hne

theorem Sound.step (h : run.Sound) (event : StoreEvent) : (run.step event).Sound := by
  cases event with
  | reopen memory => exact ⟨h.nodup,h.recorded,h.live⟩
  | load token size answers =>
    rw [StoreRun.step]
    split
    · exact h
    · exact ⟨h.nodup,h.recorded,h.live⟩
  | issue token req size answers =>
    rw [StoreRun.step]
    split
    · exact h
    · exact h.issue (ziIdentityStoreIssue_oldOrNew _ _ _ _ _ _)
  | remove token identity size answers =>
    rw [StoreRun.step]
    split
    · exact h
    · exact h.remove (ziIdentityStoreRemove_oldOrNew _ _ _ _ _ _)

theorem Sound.after (h : run.Sound) (events : List StoreEvent) : (run.after events).Sound := by
  induction events generalizing run with
  | nil => exact h
  | cons event events ih => exact ih (h.step event)

end StoreRun

/-- In every run of the store, over any number of crashes and reopenings, no identity is returned
twice, and a returned identity is live in the database of the volume until its removal is asked
for.  A call leaves the old database or the new one, and a load shows nothing but the database
of the volume. -/
theorem identityStore_durable (vol : Mem) (events : List StoreEvent) :
    let run := (StoreRun.start vol).after events
    run.issued.Nodup ∧
    (∀ identity ∈ run.kept, LiveIn run.volume identity) ∧
    ∀ (memory : StoreMemory) (token : ZiAccessToken) (size : ℕ) (answers : ZiFsAnswers),
      (∀ state memory',
        ziIdentityStoreLoad memory run.volume token size answers = (.ok state, memory') →
          memory.store.needsRecovery = 0 ∧ state = readState run.volume ∧
            memory'.workspace = run.volume) ∧
      (∀ req, (ziIdentityStoreIssue memory run.volume token req size answers).OldOrNew
        run.volume fun bytes => ziIdentityDatabaseAppend bytes identityDatabaseSize
          memory.store.authority req) ∧
      ∀ identity, (ziIdentityStoreRemove memory run.volume token identity size answers).OldOrNew
        run.volume fun bytes => ziIdentityDatabaseRemove bytes identityDatabaseSize
          memory.store.authority identity := by
  intro run
  have hrun : run.Sound := StoreRun.Sound.after (StoreRun.start_sound vol) events
  refine ⟨hrun.nodup,hrun.live,?_⟩
  intro memory token size answers
  refine ⟨?_,fun req => ziIdentityStoreIssue_oldOrNew _ _ _ _ _ _,
    fun identity => ziIdentityStoreRemove_oldOrNew _ _ _ _ _ _⟩
  intro state memory' hload
  obtain ⟨hrecovery,hstate,hmemory,-⟩ := ziIdentityStoreLoad_ok hload
  exact ⟨hrecovery,hstate,by rw [hmemory]⟩

end Zizium
