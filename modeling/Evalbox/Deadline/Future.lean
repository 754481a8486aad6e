import Evalbox.Failure

/-!
# Futures and deadlines

A worker settles a future with what its work answers or raises; the caller waits for that, but only
until a deadline. A worker that is stopped settles nothing.
-/

namespace Evalbox

/-- The state of a future. -/
inductive Future (α : Type) where
  | pending
  | running
  /-- given up before any work began, which the worker has been told -/
  | abandoned
  | finished (result : Except Fault α)
  deriving Repr

namespace Future

variable {α : Type}

def stateName : Future α → String
  | pending => "PENDING"
  | running => "RUNNING"
  | abandoned => "CANCELLED_AND_NOTIFIED"
  | finished _ => "FINISHED"

/-- The future after a worker ran its work to the end. Being stopped leaves it running. -/
def settle (work : Except Fault α) : Future α :=
  match work with
  | .ok a => finished (.ok a)
  | .error f => if f.isCancellation then running else finished (.error f)

/-- Whether a fault cannot be told from the end of the wait. -/
def looksExpired (f : Fault) : Bool := f.kind = "TimeoutError"

/-- What a waiting caller gets once the wait ends: the result, the fault, or none if the future is not
settled. -/
def await (f : Future α) : Except Fault (Option α) :=
  match f with
  | finished (.ok a) => .ok (some a)
  | finished (.error e) => if looksExpired e then .ok none else .error e
  | _ => .ok none

end Future

/-- Which of the two comes first: the worker settles, or the deadline expires. -/
inductive First where
  | settled
  | expired
  deriving DecidableEq, Repr

/-- Run work under a deadline. `work` is none if it never ends. -/
def withDeadline {α : Type} (first : First) (work : Option (Except Fault α)) : Except Fault (Option α) :=
  match first, work with
  | .settled, some w => (Future.settle w).await
  | _, _ => (Future.running : Future α).await

end Evalbox

/-!
## Jobs

A job is work in a plain form: it sleeps, and then raises, answers, or loops until it is stopped.
`Job.run` says when and how it ends. A sleeping job notices that it is stopped when it wakes up.
-/

namespace Evalbox

/-- Times in microseconds from the start of a job. -/
abbrev Time := Nat

/-- What a job does after its sleep. -/
inductive JobStep (α : Type) where
  | raises (fault : Fault)
  | answers (value : α)
  /-- loops; when it is stopped it writes down why, and may then answer all the same -/
  | loops (swallowed : Option α)
  deriving Repr

structure Job (α : Type) where
  sleep : Time
  step : JobStep α
  deriving Repr

/-- How a job ended, and what it wrote down. -/
structure JobEnd (α : Type) where
  time : Time
  log : List String
  result : Except Fault α

namespace Job

variable {α : Type}

/-- Run a job that is stopped at a time, or never. Answers none if it does not end. -/
def run (j : Job α) (stopAt : Option Time) : Option (JobEnd α) :=
  let cut : Bool := match stopAt with
    | some s => s < j.sleep
    | none => false
  if cut then some ⟨j.sleep, [], .error .cancelled⟩
  else match j.step with
    | .raises f => some ⟨j.sleep, [], .error f⟩
    | .answers a => some ⟨j.sleep, ["done"], .ok a⟩
    | .loops swallowed =>
      stopAt.map fun s =>
        ⟨max s j.sleep, [Fault.cancelled.kind], match swallowed with
          | some a => .ok a
          | none => .error .cancelled⟩

/-- What is known about a job some time after its deadline. -/
structure Report (α : Type) where
  result : Except Fault (Option α)
  log : List String
  alive : Bool

/-- How long a stopped worker is given before it is looked at again. -/
def patience : Time := 2000000

/-- Run a job under a deadline, and stop it if it is still at work then. -/
def withDeadline (j : Job α) (deadline : Time) : Report α :=
  match j.run none with
  | some e =>
    if e.time ≤ deadline then
      ⟨Evalbox.withDeadline .settled (some e.result), e.log, false⟩
    else stopped (j.run (some deadline))
  | none => stopped (j.run (some deadline))
where
  stopped : Option (JobEnd α) → Report α
    | some e =>
      if e.time ≤ deadline + patience then ⟨Evalbox.withDeadline .expired (some e.result), e.log, false⟩
      else ⟨.ok none, [], true⟩
    | none => ⟨.ok none, [], true⟩

/-- Where a job stands when somebody tries to stop its thread. -/
inductive ThreadState where
  | unstarted
  | finished
  | running
  deriving DecidableEq, Repr

/-- Stop the thread of a job. Answers whether it could be told. -/
def forceStop (j : Job α) (state : ThreadState) : Report Bool :=
  match state with
  | .unstarted => ⟨.ok (some false), [], false⟩
  | .finished => ⟨.ok (some false), ((j.run none).map (·.log)).getD [], false⟩
  | .running =>
    match j.run (some 0) with
    | some e => if e.time ≤ patience then ⟨.ok (some true), e.log, false⟩ else ⟨.ok (some true), [], true⟩
    | none => ⟨.ok (some true), [], true⟩

/-- Run a job into a future, which may have been given up before. -/
def runInto (j : Job α) (givenUp : Bool) : Future α × List String :=
  if givenUp then (.abandoned, [])
  else match j.run none with
    | some e => (Future.settle e.result, e.log)
    | none => (.running, [])

end Job

end Evalbox
