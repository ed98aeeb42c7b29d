/-
This file is the simulated runtime of the worker agent
(`src/controlplane/internal/agent/simruntime.go`): what a poll and a stop make of the
state file of an attempt.

A job that is simulated runs against the clock and never executes anything. Its
state is one file, replaced as a whole, so a save that fails leaves it as it was.
-/
import GpuBroker.Agent.Loop

namespace GpuBroker.Agent.Sim

open ControlPlane

/-- What a state file says of a stop: nothing, that the command could not be parsed, or the outcome of the first stop. -/
inductive Stopped
  | unasked
  | invalid (error : String)
  | asked (outcome : AttemptOutcome)
  deriving DecidableEq

/-- The state file of an attempt. -/
structure SimState where
  startedAt : Time
  duration : Duration
  exit : Int
  logs : Int
  logsSent : Int
  artifactBytes : Int
  stopped : Stopped
  deriving DecidableEq

/-- What a call to the runtime meets: the clock, whether the file can be read and saved, and how many of so many log
lines are due after a part of the duration, which is a quotient of floating point. -/
structure Input where
  now : Time
  readable : Bool
  saved : Bool
  share : Int → Duration → Duration → Int

/-- The log lines after so many, up to so many. -/
def stepLines (sent due logs : Int) : List String :=
  (List.range (due - sent).toNat).map fun index => "sim step " ++ toString (sent + 1 + index) ++ "/" ++ toString logs

/-- What the runtime says of an attempt at some time, but for its log lines. -/
def SimState.status (state : SimState) (now : Time) : Status :=
  match state.stopped with
  | .invalid error =>
      { done := true, outcome := some .failed, exitCode := some 2, reason := error, logs := [], artifact := false }
  | .asked outcome =>
      { done := true, outcome := some outcome, exitCode := some 143, reason := "stopped", logs := [], artifact := false }
  | .unasked =>
      if state.duration ≤ now - state.startedAt then
        { done := true
          outcome := some (if state.exit = 0 then .succeeded else .failed)
          exitCode := some state.exit
          reason := "exit " ++ toString state.exit
          logs := []
          artifact := decide (0 < state.artifactBytes) }
      else { done := false, outcome := none, exitCode := none, reason := "", logs := [], artifact := false }

/-- `Poll`: what the runtime says of an attempt, unless the file cannot be read or saved. -/
def poll (input : Input) : Option SimState → Option Status × Option SimState
  | none =>
      (some { done := true, outcome := some .lost, exitCode := none, reason := "runtime has no record of the attempt",
              logs := [], artifact := false }, none)
  | some state =>
      if input.readable then
        let elapsed := input.now - state.startedAt
        let due :=
          if 0 < state.duration ∧ elapsed < state.duration then input.share state.logs elapsed state.duration
          else state.logs
        let status := { state.status input.now with logs := stepLines state.logsSent due state.logs }
        if input.saved then (some status, some { state with logsSent := max state.logsSent due })
        else (none, some state)
      else (none, some state)

/-- `Stop`: whether the runtime says that it stops the attempt. Where there is no file, or none that can be read, there
is nothing to stop; the first outcome stands. -/
def stop (outcome : AttemptOutcome) (input : Input) : Option SimState → Bool × Option SimState
  | none => (true, none)
  | some state =>
      if input.readable then
        if input.saved then
          (true, some { state with stopped := if state.stopped = .unasked then .asked outcome else state.stopped })
        else (false, some state)
      else (true, some state)

end GpuBroker.Agent.Sim
