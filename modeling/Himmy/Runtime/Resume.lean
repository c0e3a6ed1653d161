import Himmy.Runtime.Checkpoint
import Himmy.Library.Transition

/-! # Resuming an agent loop from its checkpoint

`resume_agent_loop` takes the runtime's lock of the checkpoint, claims the checkpoint in the store,
loads it, applies the decision to each pending tool call (an approved call is looked up in the
ledger, executed and recorded), saves the resolved status and, after the loop has gone on, the final
output. `resumeSystem` interleaves any number of these calls, of any number of runtimes, over one
store: a step is one operation on the store, or the execution of one tool. A process that stops, an
exception and a cancellation are the step `stop`.

The lock belongs to one runtime, so resumes of two processes, or of two runtimes of one process, do
not exclude each other by it. -/

namespace Himmy

/-! ## The ledger -/

namespace AgentCheckpoint

variable (copy : AgentCheckpoint)

/-- `_CheckpointToolIdempotencyStore.get`: the recorded result, from the durable row and then from
    the working copy. -/
def ledgerGet (latest : Option AgentCheckpoint) (key : String) : Option ToolExecutionResult :=
  ((latest.getD copy).executedToolResults.find? key).or (copy.executedToolResults.find? key)

def remember (key : String) (raw : ToolExecutionResult) : AgentCheckpoint :=
  { copy with executedToolResults := copy.executedToolResults.setDefault key raw }

/-- `_CheckpointToolIdempotencyStore.put` up to its save: the working copy takes over the durable
    keys and records the result. -/
def recorded (latest : Option AgentCheckpoint) (key : String)
    (result : ToolExecutionResult) : AgentCheckpoint :=
  { copy with
    executedToolResults := (match latest with
      | some latest => copy.executedToolResults.setDefaults latest.executedToolResults
      | none => copy.executedToolResults).set key result }

def withStatus (approved : Bool) : AgentCheckpoint :=
  { copy with status := if approved then .approved else .rejected }

end AgentCheckpoint

/-! ## One resume -/

/-- Where a call of `resume_agent_loop` stands. `copy` is its working copy of the checkpoint and `n`
    the pending call it is at. -/
inductive CallStage
  | waiting
  | claimed
  | applying (copy : AgentCheckpoint) (n : Nat)
  | missed (copy : AgentCheckpoint) (n : Nat)
  | executed (copy : AgentCheckpoint) (n : Nat) (result : ToolExecutionResult)
  | merged (copy : AgentCheckpoint) (n : Nat)
  | resolved
  | finalizing (latest : AgentCheckpoint)
  | done

namespace CallStage

/-- Past the claim and not at the end: the lock is held. -/
def entered : CallStage → Bool
  | .waiting => false
  | .done => false
  | _ => true

def isOpen : CallStage → Bool
  | .claimed => true
  | .applying .. => true
  | .missed .. => true
  | .executed .. => true
  | .merged .. => true
  | _ => false

/-- The pending call `n` may have been executed by the resume at this stage. -/
def covers : CallStage → Nat → Bool
  | .applying _ m, n => n < m
  | .missed _ m, n => n < m
  | .executed _ m _, n => n ≤ m
  | .merged _ m, n => n ≤ m
  | _, _ => false

end CallStage

/-- One call of `resume_agent_loop`. -/
structure AgentResume where
  runtime : Nat
  checkpointId : String
  approved : Bool
  stage : CallStage := .waiting

/-- The steps of a resume. -/
inductive AgentResumeStep
  | claim
  | load
  | reject
  | lookup
  | execute (result : ToolExecutionResult)
  | merge
  | put
  | resolve
  | loadFinal (paused : Bool)
  | saveFinal (text : String)
  | stop

/-- Where a step takes a resume, what it saves, and the pending call it executes. -/
structure Advance where
  stage : CallStage
  save : Option AgentCheckpoint := none
  executes : Option Nat := none

/-- A resume from one store access to the next, the claim apart. `stored` is what `load` returns. -/
def AgentResume.advance (ρ : AgentResume) (stored : Option AgentCheckpoint) :
    AgentResumeStep → Option Advance
  | .claim => none
  | .load => match ρ.stage with
    | .claimed => match stored with
      | some c => some { stage := .applying c 0 }
      | none => some { stage := .done }
    | _ => none
  | .reject => match ρ.stage with
    | .applying copy n =>
      if !ρ.approved && (copy.pendingToolCalls[n]?).isSome then
        some { stage := .applying copy (n + 1) }
      else none
    | _ => none
  | .lookup => match ρ.stage with
    | .applying copy n => match copy.pendingToolCalls[n]? with
      | some call =>
        if ρ.approved && call.toolCallId ≠ "" then match copy.ledgerGet stored call.toolCallId with
          | some raw => some { stage := .applying (copy.remember call.toolCallId raw) (n + 1) }
          | none => some { stage := .missed copy n }
        else none
      | none => none
    | _ => none
  | .execute result => match ρ.stage with
    | .missed copy n =>
      if result.outcome = .denied then some { stage := .applying copy (n + 1) }
      else some { stage := .executed copy n result, executes := some n }
    | .applying copy n => match copy.pendingToolCalls[n]? with
      -- an invocation without a key passes the ledger by
      | some call =>
        if ρ.approved && call.toolCallId = "" then
          if result.outcome = .denied then some { stage := .applying copy (n + 1) }
          else some { stage := .applying copy (n + 1), executes := some n }
        else none
      | none => none
    | _ => none
  | .merge => match ρ.stage with
    | .executed copy n result => (copy.pendingToolCalls[n]?).map
        (fun call => { stage := .merged (copy.recorded stored call.toolCallId result) n })
    | _ => none
  | .put => match ρ.stage with
    | .merged copy n => some { stage := .applying copy (n + 1), save := some copy }
    | _ => none
  | .resolve => match ρ.stage with
    | .applying copy n =>
      if (copy.pendingToolCalls[n]?).isNone then
        some { stage := .resolved, save := some (copy.withStatus ρ.approved) }
      else none
    | _ => none
  | .loadFinal paused => match ρ.stage with
    | .resolved =>
      if paused then some { stage := .done }
      else match stored with
        | some latest => some { stage := .finalizing latest }
        | none => some { stage := .done }
    | _ => none
  | .saveFinal text => match ρ.stage with
    | .finalizing latest =>
      some { stage := .done, save := some { latest with finalOutput := some text } }
    | _ => none
  | .stop => match ρ.stage with
    | .done => none
    | _ => some { stage := .done }

/-! ## The system -/

/-- A store, the resumes over it, and the executions so far: checkpoint and pending call. -/
structure ResumeSystem (σ : Type) where
  store : σ
  resumes : List AgentResume := []
  executed : List (String × Nat) := []

/-- What can happen next. The id of a new checkpoint is fresh. -/
inductive ResumeEvent
  | pause (checkpointId : String) (pending : List PendingToolCall)
  | call (runtime : Nat) (checkpointId : String) (approved : Bool)
  | resume (i : Nat) (l : AgentResumeStep)

namespace ResumeSystem

variable {σ : Type}

def lockFree (st : ResumeSystem σ) (runtime : Nat) (checkpointId : String) : Bool :=
  st.resumes.all (fun ρ => !(ρ.runtime = runtime && ρ.checkpointId = checkpointId
    && ρ.stage.entered))

/-- The system after a step that takes the resume `i`, which is `ρ`, where `p` says. -/
def advanced (S : CheckpointStore σ) (st : ResumeSystem σ) (i : Nat) (ρ : AgentResume)
    (p : Advance) : ResumeSystem σ :=
  { store := match p.save with
      | none => st.store
      | some c => S.save st.store c,
    resumes := st.resumes.set i { ρ with stage := p.stage },
    executed := st.executed ++ (p.executes.map (ρ.checkpointId, ·)).toList }

def step (S : CheckpointStore σ) (st : ResumeSystem σ) : ResumeEvent → Option (ResumeSystem σ)
  | .pause checkpointId pending =>
    if (S.load st.store checkpointId).isSome then none
    else some { st with
      store := S.save st.store { checkpointId, pendingToolCalls := pending } }
  | .call runtime checkpointId approved =>
    if (S.load st.store checkpointId).isSome then
      some { st with resumes := st.resumes ++ [{ runtime, checkpointId, approved }] }
    else some st
  | .resume i .claim => match st.resumes[i]? with
    | some ρ => match ρ.stage with
      | .waiting =>
        if st.lockFree ρ.runtime ρ.checkpointId then
          let (s, won) := S.claim st.store ρ.checkpointId
          some { st with
            store := s,
            resumes := st.resumes.set i { ρ with stage := if won then .claimed else .done } }
        else none
      | _ => none
    | none => none
  | .resume i l => st.resumes[i]?.bind (fun ρ =>
    (ρ.advance (S.load st.store ρ.checkpointId) l).map (st.advanced S i ρ))

end ResumeSystem

def resumeSystem {σ : Type} (S : CheckpointStore σ) : LTS (ResumeSystem σ) ResumeEvent :=
  ⟨ResumeSystem.step S⟩

end Himmy
