import Zizium.Executive.ServiceManifest

/-!
# Supervision of a service

`zi_service_supervise` calls the launch routine again for as long as the restart policy asks for
it.  What the calls would report one after another is `launches`.
-/

namespace Zizium

open BlockIO

theorem maximumRestarts_le_of_valid {manifest : ZiServiceManifest}
    (h : ziServiceManifestValidate manifest = .ok ()) :
    manifest.maximumRestarts ≤ ziServiceMaxRestarts := by
  rw [ziServiceManifestValidate,Except.failIf_bind_ok_iff] at h
  have hchecks := h.1
  push Not at hchecks
  exact hchecks.2.2.2.2.2.1

section Launches

variable {σ : Type} (launch : LaunchRoutine σ) (manifest : ZiServiceManifest) (context : σ)

/-- The calls of the routine one after another: the report of a call, and the context it
leaves to the next one. -/
def launches : ℕ → LaunchReport × σ
  | 0 => launch context manifest 0 ziStatusProcessTerminated
  | n+1 => launch (launches n).2 manifest (n+1) ziStatusProcessTerminated

def launchReport (attempt : ℕ) : LaunchReport := (launches launch manifest context attempt).1

/-- The context that an attempt finds. -/
def launchContext : ℕ → σ
  | 0 => context
  | n+1 => (launches launch manifest context n).2

theorem launches_eq (n : ℕ) : launches launch manifest context n =
      launch (launchContext launch manifest context n) manifest n ziStatusProcessTerminated := by
  cases n <;> rfl

def launchCalls (count : ℕ) : List (ℕ × LaunchReport) :=
  (List.range count).map fun attempt => (attempt, launchReport launch manifest context attempt)

theorem launchCalls_succ (n : ℕ) : launchCalls launch manifest context (n+1) =
      launchCalls launch manifest context n ++ [(n, launchReport launch manifest context n)] := by
  simp [launchCalls,List.range_succ]

/-- The result block after some attempts, the last of which was `n`. -/
def resultAfter (n : ℕ) : ZiServiceSupervisionResult :=
  ⟨supervisionResultSize,ziServiceSupervisionResultVersion,n+1,n,
    (launchReport launch manifest context n).status,
    (launchReport launch manifest context n).exitCode⟩

def resultBefore : ℕ → ZiServiceSupervisionResult
  | 0 => initialSupervisionResult
  | n+1 => { resultAfter launch manifest context n with restartCount := n+1 }

@[simp] theorem resultBefore_structSize (n : ℕ) :
    (resultBefore launch manifest context n).structSize = supervisionResultSize := by
  cases n <;> rfl

@[simp] theorem resultBefore_version (n : ℕ) :
    (resultBefore launch manifest context n).version = ziServiceSupervisionResultVersion := by
  cases n <;> rfl

@[simp] theorem resultBefore_attemptCount (n : ℕ) :
    (resultBefore launch manifest context n).attemptCount = n := by
  cases n <;> rfl

@[simp] theorem resultBefore_restartCount (n : ℕ) :
    (resultBefore launch manifest context n).restartCount = n := by
  cases n <;> rfl

/-- The attempts up to `n`, all but the last of them restarted, and how they end. -/
structure StopsAt (n : ℕ) (supervision : Supervision σ) : Prop where
  bounded : n ≤ manifest.maximumRestarts
  restarted : ∀ attempt < n, restarts manifest (launchReport launch manifest context attempt)
  calls : supervision.calls = launchCalls launch manifest context (n+1)
  leaves : supervision.context = launchContext launch manifest context (n+1)
  result : supervision.result = some (resultAfter launch manifest context n)
  ends : (restarts manifest (launchReport launch manifest context n) = false ∧
      supervision.status = finalStatus (launchReport launch manifest context n)) ∨
    (restarts manifest (launchReport launch manifest context n) = true ∧
      n = manifest.maximumRestarts ∧ supervision.status = ziStatusServiceRestartLimit)

variable {launch manifest context}

theorem exists_stopsAt (hmax : manifest.maximumRestarts+1 < 2^32) {rounds n : ℕ}
    (hn : n ≤ manifest.maximumRestarts) (hrounds : manifest.maximumRestarts < n+rounds)
    (hrestarted : ∀ attempt < n, restarts manifest (launchReport launch manifest context attempt)) :
    ∃ last supervision,
      superviseLoop launch manifest rounds (launchContext launch manifest context n)
        (resultBefore launch manifest context n) (launchCalls launch manifest context n) =
        some supervision ∧ StopsAt launch manifest context last supervision := by
  induction rounds generalizing n with
  | zero => omega
  | succ rounds ih =>
    have hcalls := launchCalls_succ launch manifest context n
    rw [superviseLoop]
    simp only [resultBefore_structSize,resultBefore_version,resultBefore_attemptCount,
      resultBefore_restartCount,Nat.mod_eq_of_lt (show n+1 < 2^32 by omega),← launches_eq]
    split
    next hreport => exact ⟨n,_,rfl,hn,hrestarted,hcalls.symm,rfl,rfl,.inl ⟨hreport,rfl⟩⟩
    next hreport =>
      rw [Bool.not_eq_false] at hreport
      split
      next hlimit => exact ⟨n,_,rfl,hn,hrestarted,hcalls.symm,rfl,rfl,.inr ⟨hreport,by omega,rfl⟩⟩
      next hlimit =>
        have hrest := ih (n := n+1) (by omega) (by omega)
        rw [hcalls] at hrest
        apply hrest
        intro attempt hattempt
        rcases Nat.lt_succ_iff_lt_or_eq.mp hattempt with hlt | rfl
        · exact hrestarted attempt hlt
        · exact hreport

theorem superviseLoop_mono {rounds more : ℕ} (hmore : rounds ≤ more) {current : σ}
    {result : ZiServiceSupervisionResult} {calls : List (ℕ × LaunchReport)}
    {supervision : Supervision σ}
    (h : superviseLoop launch manifest rounds current result calls = some supervision) :
    superviseLoop launch manifest more current result calls = some supervision := by
  induction rounds generalizing more current result calls with
  | zero => simp [superviseLoop] at h
  | succ rounds ih =>
    obtain ⟨more,rfl⟩ : ∃ k, more = k+1 := ⟨more - 1,by omega⟩
    rw [superviseLoop] at h ⊢
    split_ifs at h ⊢ with hreport hlimit
    · exact h
    · exact h
    · exact ih (by omega) h

end Launches

theorem finalStatus_eq_success_iff (report : LaunchReport) :
    finalStatus report = ziStatusSuccess ↔ report.failed = false := by
  unfold finalStatus LaunchReport.failed
  by_cases hstatus : report.status < ziStatusSuccess
  · simp [hstatus,hstatus.ne]
  · by_cases hfailed : (report.status != ziStatusPending && report.exitCode != 0) = true
    · simp [hstatus,hfailed]
    · simp [hstatus,Bool.eq_false_iff.mpr hfailed]

/-- Supervision of a valid manifest returns after at most `maximumRestarts + 1` calls. -/
theorem service_supervise_exact {σ : Type} (launch : LaunchRoutine σ) (manifest : ZiServiceManifest)
    (context : σ) (hvalid : ziServiceManifestValidate manifest = .ok ()) :
    ∃ n supervision, ∃ report : ℕ → LaunchReport,
      -- the reports are those of the routine, each call made in the context the last one left
      (∀ attempt, report attempt = (launches launch manifest context attempt).1) ∧
      (∀ rounds > manifest.maximumRestarts,
        ziServiceSupervise launch manifest rounds context = some supervision) ∧
      -- attempts 0, …, n are made, in this order and no others
      supervision.calls = (List.range (n+1)).map (fun attempt => (attempt, report attempt)) ∧
      n+1 ≤ manifest.maximumRestarts+1 ∧
      -- it stops at the first report that is not restarted, or else at the limit
      (∀ attempt < n, restarts manifest (report attempt) = true) ∧
      (restarts manifest (report n) = true →
        n = manifest.maximumRestarts ∧ supervision.status = ziStatusServiceRestartLimit) ∧
      (restarts manifest (report n) = false → supervision.status = finalStatus (report n)) ∧
      -- the counts and the last results
      (∃ result, supervision.result = some result ∧ result.attemptCount = n+1 ∧
        result.restartCount = result.attemptCount-1 ∧
        result.lastLaunchStatus = (report n).status ∧ result.lastExitCode = (report n).exitCode) ∧
      -- success
      (supervision.status = ziStatusSuccess ↔
        (report n).failed = false ∧ restarts manifest (report n) = false) := by
  have hmax : manifest.maximumRestarts ≤ 8 := maximumRestarts_le_of_valid hvalid
  have hsupervise : ∀ rounds, ziServiceSupervise launch manifest rounds context =
      superviseLoop launch manifest rounds context initialSupervisionResult [] :=
    fun rounds => if_neg (not_not.mpr hvalid)
  obtain ⟨n,supervision,hloop,hstops⟩ :=
    @exists_stopsAt σ launch manifest context (by omega) (manifest.maximumRestarts+1) 0
      (by omega) (by omega) (by omega)
  refine ⟨n,supervision,launchReport launch manifest context,fun _ => rfl,?_,hstops.calls,
    by have := hstops.bounded; omega,hstops.restarted,?_,?_,
    ⟨_,hstops.result,rfl,rfl,rfl,rfl⟩,?_⟩
  · intro rounds hrounds
    rw [hsupervise]
    exact superviseLoop_mono hrounds hloop
  · intro hrestarts
    rcases hstops.ends with ⟨hends,-⟩ | ⟨-,hlimit,hstatus⟩
    · simp [hrestarts] at hends
    · exact ⟨hlimit,hstatus⟩
  · intro hrestarts
    rcases hstops.ends with ⟨-,hstatus⟩ | ⟨hends,-⟩
    · exact hstatus
    · simp [hrestarts] at hends
  · rcases hstops.ends with ⟨hends,hstatus⟩ | ⟨hends,-,hstatus⟩
    · rw [hstatus,finalStatus_eq_success_iff]
      simp [hends]
    · rw [hstatus]
      simp [hends]

/-- A routine whose first call fails and whose later calls end with exit code 0. -/
def failsOnce : LaunchRoutine ℕ := fun calls _ _ _ =>
  (if calls = 0 then ⟨ziStatusNotImplemented,0⟩ else ⟨ziStatusSuccess,0⟩, calls+1)

theorem service_supervise_exact_failsOnce : ziServiceManifestValidate sampleManifest = .ok () ∧
    ∃ supervision, ziServiceSupervise failsOnce sampleManifest 2 0 = some supervision := by
  have hvalid : ziServiceManifestValidate sampleManifest = .ok () := by decide
  obtain ⟨n,supervision,report,-,hrounds,-⟩ :=
    service_supervise_exact failsOnce sampleManifest 0 hvalid
  exact ⟨hvalid,supervision,hrounds 2 (by decide)⟩

end Zizium
