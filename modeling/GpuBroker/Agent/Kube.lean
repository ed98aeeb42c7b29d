/-
This file is the Kubernetes runtime of the worker agent
(`src/controlplane/internal/agent/kuberuntime.go`): what a poll and a stop make of
the answers of the API server.

Each attempt is a Job with one pod. The API server is asked for the Job, for its
pods and for the head of the newest pod's log; what it answers may be different at
each call. A log is bytes, of which the runtime remembers only how many lines it
has reported.
-/
import GpuBroker.Agent.Loop
import GpuBroker.Library.Lines
import Mathlib.Data.List.DropRight

namespace GpuBroker.Agent.Kube

open Library ControlPlane

/-! ### What the API server answers -/

/-- What stands in a log. -/
abbrev Bytes := List UInt8

/-- The types of the conditions of a Job that `Poll` looks for. -/
inductive ConditionType
  | complete | successCriteriaMet | failed | failureTarget | other
  deriving DecidableEq

/-- A condition of a Job; its status is true, or false or unknown. -/
structure Condition where
  type : ConditionType
  status : Bool
  reason : String
  message : String
  deriving DecidableEq

structure Job where
  conditions : List Condition
  failed : Int
  active : Int
  deriving DecidableEq

/-- The answer to a get of a Job. -/
inductive JobAnswer
  | notFound
  | error
  | found (job : Job)
  deriving DecidableEq

/-- A pod: whether it has a deletion time, whether its condition `DisruptionTarget` is true, and the exit codes of its
containers that are terminated. -/
structure Pod where
  name : String
  created : Time
  reason : String
  deleted : Bool
  disrupted : Bool
  exitCodes : List Int
  deriving DecidableEq

/-- What the API server answers during one poll: to the get of the Job, to the lists of its pods for the log, the exit
code and the eviction, and to a read of so many bytes of the log of a pod. -/
structure Glimpse where
  job : JobAnswer
  logPods : Option (List Pod)
  exitPods : Option (List Pod)
  evictedPods : Option (List Pod)
  log : String → Nat → Option Bytes

/-- The pods that are listed, by their time of creation; none where the list fails. -/
def pods (listed : Option (List Pod)) : List Pod :=
  (listed.getD []).insertionSort fun one other => one.created ≤ other.created

/-! ### A poll -/

/-- What a poll says of an attempt. -/
structure Report where
  done : Bool
  outcome : Option AttemptOutcome
  exitCode : Option Int
  reason : String
  logs : List Bytes
  deriving DecidableEq

/-- What the runtime remembers: how many lines of each attempt's log it has reported. -/
structure Runtime where
  logsSeen : AttemptID → Nat

/-- The newline. -/
def newline : UInt8 := 10

/-- `strings.Split` at newlines: the lines, and what comes after the last newline. -/
def splitLines (text : Bytes) : List Bytes := terminated newline text ++ [remainder newline text]

/-- `strings.TrimRight` of newlines. -/
def trimRight (text : Bytes) : Bytes := text.rdropWhile fun byte => byte = newline

/-- How much of a log is read. -/
def limitBytes : Nat := 65536

/-- What is read of the log: its head, of the newest pod. -/
def Glimpse.read (glimpse : Glimpse) : Option Bytes :=
  match (pods glimpse.logPods).getLast? with
  | none => none
  | some pod => glimpse.log pod.name limitBytes

/-- The lines of a log that were not reported yet. -/
def Runtime.newLogs (runtime : Runtime) (id : AttemptID) (glimpse : Glimpse) : List Bytes × Runtime :=
  match glimpse.read with
  | none => ([], runtime)
  | some read =>
      let lines := splitLines (trimRight read)
      if lines = [[]] then ([], runtime)
      else
        let seen := runtime.logsSeen id
        if lines.length ≤ seen then ([], runtime)
        else (lines.drop seen, { logsSeen := Function.update runtime.logsSeen id lines.length })

/-- The exit code of the first container that is terminated. -/
def Glimpse.exitCode (glimpse : Glimpse) : Option Int :=
  (pods glimpse.exitPods).findSome? fun pod => pod.exitCodes.head?

def Glimpse.evicted (glimpse : Glimpse) : Bool :=
  (pods glimpse.evictedPods).any fun pod => pod.reason = "Evicted" || pod.deleted || pod.disrupted

/-- `strings.Contains` of the condition that a disruption sets. -/
def namesDisruption (message : String) : Bool := decide ("DisruptionTarget".toList <:+: message.toList)

/-- What a condition that is true says of the end of the Job, if it says anything: the outcome, the exit code and the
reason. -/
def Condition.concludes (glimpse : Glimpse) (condition : Condition) :
    Option (AttemptOutcome × Option Int × String) :=
  if condition.status then
    match condition.type with
    | .complete | .successCriteriaMet => some (.succeeded, some 0, "kubernetes job complete")
    | .failed | .failureTarget =>
        let exitCode := glimpse.exitCode
        if condition.reason = "DeadlineExceeded" then some (.timedOut, exitCode, "activeDeadlineSeconds exceeded")
        else if condition.reason = "PodFailurePolicy" ∨ condition.reason = "BackoffLimitExceeded" then
          if namesDisruption condition.message ∨ glimpse.evicted then
            some (.lost, exitCode, "pod disrupted (drain, eviction or preemption): " ++ condition.message)
          else some (.failed, exitCode, condition.message)
        else some (.failed, exitCode, condition.reason ++ ": " ++ condition.message)
    | .other => none
  else none

/-- What the Job says of its end, if it is over: the first condition that says something, or that its pod failed. -/
def Job.concludes (glimpse : Glimpse) (job : Job) : Option (AttemptOutcome × Option Int × String) :=
  (job.conditions.findSome? fun condition => condition.concludes glimpse).or
    (if 0 < job.failed ∧ job.active = 0 then
      let exitCode := glimpse.exitCode
      if glimpse.evicted ∨ exitCode = none then some (.lost, exitCode, "pod evicted or deleted")
      else some (.failed, exitCode, "pod failed")
    else none)

/-- `Poll`: what the runtime says of an attempt, unless the API server fails. -/
def Runtime.poll (runtime : Runtime) (id : AttemptID) (glimpse : Glimpse) : Option Report × Runtime :=
  match glimpse.job with
  | .notFound =>
      (some { done := true, outcome := some .lost, exitCode := none, reason := "kubernetes job no longer exists",
              logs := [] }, runtime)
  | .error => (none, runtime)
  | .found job =>
      let (logs, runtime) := runtime.newLogs id glimpse
      match job.concludes glimpse with
      | some (outcome, exitCode, reason) =>
          (some { done := true, outcome := some outcome, exitCode := exitCode, reason := reason, logs := logs }, runtime)
      | none =>
          (some { done := false, outcome := none, exitCode := none, reason := "", logs := logs }, runtime)

/-! ### A stop -/

/-- The answer to the deletion of a Job. -/
inductive Deletion
  | deleted | notFound | error
  deriving DecidableEq

/-- `Stop`: whether the runtime says that it stops the attempt; what is not there is stopped. -/
def stop (deletion : Deletion) : Bool := deletion ≠ .error

end GpuBroker.Agent.Kube
