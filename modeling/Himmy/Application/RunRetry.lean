import Himmy.Core.Text
import Himmy.Storage.Models

/-! # The retry policy

After a dispatched run reached its terminal state, `apply_retry_policy` decides whether a `FAILED`
run is a transient blip worth a backed-off re-queue, an exhausted budget to park, or a permanent
failure to leave alone. -/

namespace Himmy

inductive InferenceErrorCode
  | auth
  | quota
  | rateLimited
  | providerUnavailable
  | invalidRequest
  | timeout
  | outputValidation
  | unknown
deriving DecidableEq, Repr

/-- The code as it stands in `metadata["error_code"]`. -/
def InferenceErrorCode.value : InferenceErrorCode → String
  | .auth => "AUTH"
  | .quota => "QUOTA"
  | .rateLimited => "RATE_LIMITED"
  | .providerUnavailable => "PROVIDER_UNAVAILABLE"
  | .invalidRequest => "INVALID_REQUEST"
  | .timeout => "TIMEOUT"
  | .outputValidation => "OUTPUT_VALIDATION"
  | .unknown => "UNKNOWN"

def retryableErrorCodes : List InferenceErrorCode := [.rateLimited, .timeout, .providerUnavailable]

def transientErrorMarkers : List String :=
  ["timeout", "timed out", "connection", "connect error", "temporarily unavailable",
    "unreachable", "rate limit", "429", "503", "502", "504", "overloaded", "provider",
    "econnreset", "broken pipe", "model not found", "no route to host"]

def textLooksTransient (error : String) : Bool :=
  error ≠ "" && transientErrorMarkers.any (fun marker => pyIn marker (pyLower error))

def codeIsRetryable (code : String) : Bool :=
  code ∈ retryableErrorCodes.map InferenceErrorCode.value

def isTransientRunError (error : String) (errorCode : Option String) : Bool :=
  match orNone errorCode with
  | some code => codeIsRetryable code
  | none => textLooksTransient error

/-- `(run.metadata or {}).get("error_code")`. -/
def RunRecord.errorCode (run : RunRecord) : Option String := Dict.str? run.metadata "error_code"

/-- The verdict of the policy on a run's failure, from the run's own fields. -/
def RunRecord.failsTransiently (run : RunRecord) : Bool :=
  isTransientRunError (run.error.getD "") run.errorCode

/-- `DEFAULT_QUEUE_MAX_AGE_SECONDS`. -/
def queueMaxAge : Duration := seconds 3600

/-- The backoff before the next attempt: `min(2.0 * 2.0 ** max(0, attempt - 1), 300.0)` seconds.
    Attempts stay far below those whose power of two leaves the floating-point range. -/
def retryDelay (attempt : Int) : Duration := seconds (min (2 * Int.pow 2 (attempt - 1).toNat) 300)

namespace RunRecord

variable (run : RunRecord)

/-- The re-queue of a transient failure with attempts and age remaining. -/
def backedOff (now : Instant) : RunRecord :=
  { run with
    status := .queued, ownerId := none, leaseExpiresAt := none,
    lastError := some (run.error.getD ""), error := none,
    nextAttemptAt := some (isoPlusSeconds now (retryDelay run.attempt)), updatedAt := now }

/-- The park of a transient failure whose budget is exhausted. -/
def parked (now : Instant) : RunRecord :=
  { run with
    status := .parked, lastError := some (run.error.getD ""), ownerId := none,
    leaseExpiresAt := none, updatedAt := now }

/-- Attempts remain: `run.attempt < max(1, run.max_attempts)`. -/
def attemptsLeft : Bool := run.attempt < max 1 run.maxAttempts

end RunRecord

/-- `apply_retry_policy`, on the record it read: the record it saves, if any. -/
def applyRetryPolicy (run : RunRecord) (now : Instant) : Option RunRecord :=
  if run.status ≠ .failed then none
  else if !run.failsTransiently then none
  else if run.attemptsLeft && now - run.createdAt < queueMaxAge then some (run.backedOff now)
  else some (run.parked now)

theorem applyRetryPolicy_cases {run run' : RunRecord} {now : Instant}
    (h : applyRetryPolicy run now = some run') : run.status = .failed ∧ run.failsTransiently = true
      ∧ ((run.attemptsLeft = true ∧ run' = run.backedOff now) ∨ run' = run.parked now) := by
  unfold applyRetryPolicy at h
  split at h
  · cases h
  · next hstatus =>
      split at h
      · cases h
      · next htransient =>
          refine ⟨by simpa using hstatus, by simpa using htransient, ?_⟩
          split at h
          · next hleft =>
              cases h
              rw [Bool.and_eq_true] at hleft
              exact Or.inl ⟨hleft.1, rfl⟩
          · cases h; exact Or.inr rfl

end Himmy
