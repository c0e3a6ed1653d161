import Himmy.Application.RunResume
import Himmy.Application.RunRetry

/-! # Which attempt decides a retry

A run may be attempted many times: the retry policy puts it back in the queue, an operator redrives
it. The structured code of a failure is kept in the run's metadata, which travels with the record
through every re-queue, so a later failure that carries no code of its own is classified by the
code an earlier attempt left there. `retryDecision_own_iff` says exactly when the verdict on the
latest attempt is nevertheless the one its own text and code call for. -/

namespace Himmy

open Dict (str? str?_set_of_ne)

/-! ## Histories of attempts -/

/-- A pause for approval inside an attempt, and the resume that followed it. -/
structure Pause where
  result : RunResult
  checkpointId : Option String
  plan : Option Json
  pausedAt : Instant
  approved : Bool
  actor : String
  resumedAt : Instant

/-- How an attempt failed: on its input, on the members of an orchestration, or in the drive, after
    the pauses it went through. -/
inductive AttemptFailure
  | rehydration (error : String)
  | members (error : String)
  | drive (pauses : List Pause) (outcome : DriveOutcome)

/-- One failed attempt: the claim, the failure, the policy's decision, and the redrive, if any. -/
structure Attempt where
  ownerId : String
  lease : Duration
  claimedAt : Instant
  failure : AttemptFailure
  endedAt : Instant
  decidedAt : Instant
  redrivenAt : Option Instant

namespace AttemptFailure

def entry : AttemptFailure → DriveEntry
  | .drive (_ :: _) _ => .resume
  | _ => .dispatch

def fails : AttemptFailure → Bool
  | .drive _ outcome => outcome.fails
  | _ => true

def code : AttemptFailure → Option String
  | .drive _ outcome => outcome.code
  | _ => none

def text (f : AttemptFailure) : String :=
  match f with
  | .rehydration error => error
  | .members error => error
  | .drive _ outcome => outcome.text f.entry

/-- The dispatcher applies the retry policy after this failure: a failure on the input, a cancelled
    drive and a resumed drive skip it. -/
def reachesPolicy : AttemptFailure → Bool
  | .members _ => true
  | .drive [] .cancelled => false
  | .drive [] _ => true
  | _ => false

end AttemptFailure

def Pause.pass (run : RunRecord) (p : Pause) : RunRecord :=
  let paused := ((DriveOutcome.awaitingApproval p.result p.checkpointId p.plan).apply .dispatch run
    p.pausedAt).stamped p.pausedAt
  let decided := (paused.withDecision p.approved p.actor p.resumedAt).stamped p.resumedAt
  (decided.markedRunning p.resumedAt).stamped p.resumedAt

namespace Attempt

variable (a : Attempt) (run : RunRecord)

def failed : RunRecord :=
  let claimed := run.claimedBy a.ownerId (isoPlusSeconds a.claimedAt a.lease) a.claimedAt
  match a.failure with
  | .rehydration error => (claimed.rehydrationFailed error a.endedAt).stamped a.endedAt
  | .members error => (claimed.rehydrationFailed error a.endedAt).stamped a.endedAt
  | .drive pauses outcome =>
    let running := (claimed.markedRunning a.claimedAt).stamped a.claimedAt
    (outcome.apply a.failure.entry (pauses.foldl Pause.pass running) a.endedAt).stamped a.endedAt

def decided : RunRecord :=
  let failed := a.failed run
  if a.failure.reachesPolicy then
    ((applyRetryPolicy failed a.decidedAt).map (·.stamped a.decidedAt)).getD failed
  else failed

def settled : RunRecord :=
  let decided := a.decided run
  match a.redrivenAt with
  | none => decided
  | some now => if decided.redrivable none then decided.redriven now else decided

end Attempt

def afterAttempts : RunRecord → List Attempt → Option RunRecord
  | run, [] => some run
  | run, a :: as =>
    if run.status = .queued ∧ a.failure.fails then afterAttempts (a.settled run) as else none

/-- The code the latest attempt with a code recorded, `code` when there is none. -/
def retainedCode : Option String → List Attempt → Option String
  | code, [] => code
  | code, a :: as => retainedCode (a.failure.code.or code) as

/-! ## The code in the metadata -/

theorem Dict.str?_setIf_of_ne (d : Dict Json) {k k' : String} (v : Option Json) (h : k' ≠ k) :
    str? (DriveOutcome.setIf d k v) k' = str? d k' := by
  cases v with
  | none => rfl
  | some v => exact str?_set_of_ne d v h

theorem errorCode_apply (entry : DriveEntry) (o : DriveOutcome) (run : RunRecord)
    (now : Instant) : (o.apply entry run now).errorCode = o.code.or run.errorCode := by
  cases o with
  | inferenceFailed result =>
    simp only [DriveOutcome.apply, RunRecord.errorCode, DriveOutcome.code]
    cases orNone result.errorCode with
    | none => rfl
    | some code => exact Dict.str?_set_self run.metadata "error_code" code
  | succeeded result =>
    exact Dict.str?_setIf_of_ne run.metadata _ (by decide)
  | awaitingApproval result checkpointId plan =>
    simp only [DriveOutcome.apply, RunRecord.errorCode, DriveOutcome.code, Option.none_or]
    rw [Dict.str?_setIf_of_ne _ _ (by decide), str?_set_of_ne _ _ (by decide)]
  | orchestrated outcome =>
    simp only [DriveOutcome.apply, DriveOutcome.applyOrchestration, RunRecord.errorCode,
      DriveOutcome.code, Option.none_or]
    split
    · dsimp only
      rw [str?_set_of_ne _ _ (by decide), str?_set_of_ne _ _ (by decide),
        str?_set_of_ne _ _ (by decide), str?_set_of_ne _ _ (by decide),
        Dict.str?_setIf_of_ne _ _ (by decide), str?_set_of_ne _ _ (by decide),
        str?_set_of_ne _ _ (by decide)]
    · split <;> dsimp only <;>
        rw [Dict.str?_setIf_of_ne _ _ (by decide), str?_set_of_ne _ _ (by decide),
          str?_set_of_ne _ _ (by decide)]
  | _ => rfl

theorem errorCode_pass (run : RunRecord) (p : Pause) : (p.pass run).errorCode = run.errorCode := by
  have hpaused := errorCode_apply .dispatch
    (.awaitingApproval p.result p.checkpointId p.plan) run p.pausedAt
  simp only [DriveOutcome.code, Option.none_or] at hpaused
  rw [← hpaused]
  simp only [Pause.pass, RunRecord.errorCode, RunRecord.markedRunning, RunRecord.stamped,
    RunRecord.withDecision]
  rw [str?_set_of_ne _ _ (by decide), str?_set_of_ne _ _ (by decide)]

theorem errorCode_pauses (run : RunRecord) (pauses : List Pause) :
    (pauses.foldl Pause.pass run).errorCode = run.errorCode := by
  induction pauses generalizing run with
  | nil => rfl
  | cons p pauses ih => rw [List.foldl_cons, ih, errorCode_pass]

theorem errorCode_applyRetryPolicy {run run' : RunRecord} {now : Instant}
    (h : applyRetryPolicy run now = some run') : run'.errorCode = run.errorCode := by
  obtain ⟨-, -, ⟨-, rfl⟩ | rfl⟩ := applyRetryPolicy_cases h <;> rfl

namespace Attempt

theorem failed_spec (a : Attempt) (hfails : a.failure.fails = true) (run : RunRecord) :
    (a.failed run).error = some a.failure.text
      ∧ (a.failed run).errorCode = a.failure.code.or run.errorCode := by
  obtain ⟨ownerId, lease, claimedAt, failure, endedAt, decidedAt, redrivenAt⟩ := a
  cases failure with
  | rehydration error => exact ⟨rfl, rfl⟩
  | members error => exact ⟨rfl, rfl⟩
  | drive pauses outcome =>
    have happly := DriveOutcome.apply_of_fails (AttemptFailure.drive pauses outcome).entry hfails
      (pauses.foldl Pause.pass (((run.claimedBy ownerId (isoPlusSeconds claimedAt lease)
        claimedAt).markedRunning claimedAt).stamped claimedAt)) endedAt
    refine ⟨happly.2, ?_⟩
    have hcode := errorCode_apply (AttemptFailure.drive pauses outcome).entry outcome
      (pauses.foldl Pause.pass (((run.claimedBy ownerId (isoPlusSeconds claimedAt lease)
        claimedAt).markedRunning claimedAt).stamped claimedAt)) endedAt
    rw [errorCode_pauses] at hcode
    exact hcode

theorem errorCode_settled (a : Attempt) (hfails : a.failure.fails = true) (run : RunRecord) :
    (a.settled run).errorCode = a.failure.code.or run.errorCode := by
  have hdecided : (a.decided run).errorCode = (a.failed run).errorCode := by
    unfold decided
    dsimp only
    split
    · cases h : applyRetryPolicy (a.failed run) a.decidedAt with
      | none => rfl
      | some run' =>
        have hcode : run'.errorCode = (a.failed run).errorCode := errorCode_applyRetryPolicy h
        exact hcode
    · rfl
  rw [← (a.failed_spec hfails run).2, ← hdecided]
  unfold settled
  dsimp only
  split
  · rfl
  · split <;> rfl

end Attempt

theorem errorCode_afterAttempts {run run' : RunRecord} {as : List Attempt}
    (h : afterAttempts run as = some run') : run'.errorCode = retainedCode run.errorCode as := by
  induction as generalizing run with
  | nil => cases h; rfl
  | cons a as ih =>
    simp only [afterAttempts] at h
    split at h
    · next hq => rw [ih h, retainedCode, a.errorCode_settled hq.2]
    · cases h

/-! ## The verdict on the latest attempt -/

def DecidedByOwnFailure (latest : Attempt) (run : RunRecord) : Prop :=
  (latest.failed run).failsTransiently
    = isTransientRunError latest.failure.text latest.failure.code

instance (latest : Attempt) (run : RunRecord) : Decidable (DecidedByOwnFailure latest run) :=
  inferInstanceAs (Decidable (_ = _))

theorem orNone_orNone (s : Option String) : orNone (orNone s) = orNone s := by
  cases s with
  | none => rfl
  | some s => by_cases h : s = "" <;> simp [orNone, h]

theorem orNone_code (f : AttemptFailure) : orNone f.code = f.code := by
  cases f with
  | drive pauses outcome =>
    cases outcome with
    | inferenceFailed result => exact orNone_orNone result.errorCode
    | _ => rfl
  | _ => rfl

theorem orNone_retainedCode {code : Option String} (h : orNone code = code) (as : List Attempt) :
    orNone (retainedCode code as) = retainedCode code as := by
  induction as generalizing code with
  | nil => exact h
  | cons a as ih =>
    refine ih ?_
    cases hown : a.failure.code with
    | none => exact h
    | some own =>
      have howned := orNone_code a.failure
      rw [hown] at howned
      exact howned

/-- **Which attempt decides.** After any history of failed attempts at a run that was created
    without a code, the verdict on the latest failure is the one its own text and code call for if
    and only if it carries a code, or no earlier attempt recorded one, or the recorded code happens
    to classify as the text does. -/
theorem retryDecision_own_iff {run₀ run : RunRecord} {earlier : List Attempt} {latest : Attempt}
    (hnew : run₀.errorCode = none) (hrun : afterAttempts run₀ earlier = some run)
    (hfails : latest.failure.fails = true) : DecidedByOwnFailure latest run
      ↔ latest.failure.code ≠ none ∨ retainedCode none earlier = none
        ∨ ∃ code, retainedCode none earlier = some code
          ∧ codeIsRetryable code = textLooksTransient latest.failure.text := by
  obtain ⟨htext, hcode⟩ := latest.failed_spec hfails run
  rw [errorCode_afterAttempts hrun, hnew] at hcode
  unfold DecidedByOwnFailure RunRecord.failsTransiently isTransientRunError
  rw [htext, hcode, Option.getD_some, orNone_code]
  cases hown : latest.failure.code with
  | some code =>
    have horNone : orNone (some code) = some code := hown ▸ orNone_code latest.failure
    simp [horNone]
  | none =>
    cases hret : retainedCode none earlier with
    | none => simp [orNone]
    | some code =>
      have horNone : orNone (some code) = some code := hret ▸ orNone_retainedCode rfl earlier
      simp [horNone]

private def retriedRun : RunRecord :=
  { runId := "r", workspaceId := "w", subjectId := "s", createdAt := 0, updatedAt := 0,
    maxAttempts := 2, inputBlob := some "input" }

private def failedAttempt (failure : AttemptFailure) : Attempt :=
  { ownerId := "a", lease := seconds 300, claimedAt := seconds 1, failure, endedAt := seconds 2,
    decidedAt := seconds 3, redrivenAt := none }

private def rateLimited : Attempt :=
  failedAttempt (.drive [] (.inferenceFailed { threadId := "t", errorCode := some "RATE_LIMITED" }))

private def timedOut : Attempt := failedAttempt (.drive [] (.timedOut 300))

private def unbuildable : Attempt := failedAttempt (.drive [] (.buildFailed "unknown model"))

theorem retryDecision_own_iff_timedOut :
    DecidedByOwnFailure timedOut (rateLimited.settled retriedRun)
      ↔ timedOut.failure.code ≠ none ∨ retainedCode none [rateLimited] = none
        ∨ ∃ code, retainedCode none [rateLimited] = some code
          ∧ codeIsRetryable code = textLooksTransient timedOut.failure.text :=
  have hrun : afterAttempts retriedRun [rateLimited] = some (rateLimited.settled retriedRun) := rfl
  retryDecision_own_iff (by rfl) hrun (by rfl)

/-- A rate-limited attempt, and then one whose agent cannot be built: the permanent failure is
    taken for a transient one. -/
theorem retryDecision_not_own : ∃ run, afterAttempts retriedRun [rateLimited] = some run
      ∧ ¬ DecidedByOwnFailure unbuildable run :=
  ⟨_, rfl, by decide⟩

end Himmy
