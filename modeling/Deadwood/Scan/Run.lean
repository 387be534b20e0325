import Deadwood.Scan.Batch

/-!
# Running batches

Workers take batches, finish them and send what came of them to a collector, which counts and reports
them until all have come in, the deadline passes or nobody is left to send. A run is described by the
steps that these parties take: any order that the rules of `Run.step?` allow is a possible run.
`inOrder` is the order in which one worker takes the batches one by one.

Every batch has a number, which goes with it through the run. No step depends on the numbers; they say
which batch a reply is for.
-/

namespace Deadwood.Scan

/-- How far a run has come. -/
structure Progress where
  label : String
  completed : Nat
  total : Nat
  deriving DecidableEq, Repr

/-- What is known about work that broke off. -/
inductive Payload where
  | text (s : String)
  /-- Something that is no text. -/
  | other
  deriving DecidableEq, Repr

/-- The text shown for work that broke off. -/
def Payload.message : Payload → String
  | .text s => s
  | .other => "panic with non-string payload"

/-- What the work on a batch does. -/
inductive Behaviour (ρ : Type) where
  | returns (results : List ρ)
  | fails (message : String)
  /-- The work breaks off. -/
  | breaks (payload : Payload)
  /-- The work does not end. -/
  | stalls
  deriving Repr

/-- What is sent for a batch. -/
inductive Message (ρ : Type) where
  | done (results : List ρ)
  | failed (message : String)
  /-- The batch was given up before it was taken. -/
  | cancelled
  deriving Repr

/-- What is sent after work that ends. -/
def Behaviour.message? {ρ : Type} : Behaviour ρ → Option (Message ρ)
  | .returns results => some (.done results)
  | .fails text => some (.failed text)
  | .breaks payload => some (.failed payload.message)
  | .stalls => none

namespace Message

variable {ρ : Type}

def results : Message ρ → List ρ
  | .done results => results
  | _ => []

def isFailed : Message ρ → Bool
  | .failed _ => true
  | _ => false

end Message

/-- A batch with its place in the division of the work. -/
structure Batch (τ : Type) where
  number : Nat
  items : List τ
  deriving Repr

/-- What is sent for the batch with a number. -/
structure Reply (ρ : Type) where
  number : Nat
  message : Message ρ
  deriving Repr

/-- What the collector knows. -/
structure BatchReport (ρ : Type) where
  /-- The results that came in, in order. -/
  results : List ρ
  total : Nat
  /-- How many batches came in. -/
  completed : Nat
  /-- How many of them failed. -/
  failed : Nat
  timedOut : Bool
  deriving Repr

namespace BatchReport

variable {ρ : Type}

def ofTotal (total : Nat) : BatchReport ρ :=
  ⟨[], total, 0, 0, false⟩

/-- Take in what was sent for a batch. -/
def receive (r : BatchReport ρ) (m : Message ρ) : BatchReport ρ :=
  { r with
    results := r.results ++ m.results
    completed := r.completed + 1
    failed := if m.isFailed then r.failed + 1 else r.failed }

end BatchReport

/-- Work to be done on batches. -/
structure Job (τ ρ : Type) where
  label : String
  work : List τ → Behaviour ρ
  /-- How many batches can be worked on at a time. -/
  workers : Nat
  /-- Called when a batch came in; what it gives breaks the run off. -/
  notify : Progress → Option Payload

/-- Why the collector stopped. -/
inductive Ending where
  /-- All batches came in. -/
  | complete
  | deadline
  /-- Nothing more can come in. -/
  | disconnected
  /-- The caller broke the run off. -/
  | broken (payload : Payload)
  deriving DecidableEq, Repr

/-- A state of a run. -/
structure Run (τ ρ : Type) where
  /-- Batches that no worker has taken. -/
  waiting : List (Batch τ)
  /-- Batches that are worked on. -/
  active : List (Batch τ)
  /-- What came of batches and was not sent yet. -/
  ready : List (Reply ρ)
  /-- What was sent and did not come in yet. -/
  sent : List (Reply ρ)
  /-- What came in, in order. -/
  received : List (Reply ρ)
  /-- The results of all finished batches, whether they came in or not. -/
  produced : List ρ
  report : BatchReport ρ
  /-- The progress that was reported. -/
  progress : List Progress
  /-- Whether batches that are taken from now on are given up. -/
  cancelled : Bool
  ending : Option Ending

/-- A step of a run. -/
inductive Event where
  /-- A worker takes the waiting batch at a position. -/
  | start (position : Nat)
  /-- A worker ends the work on the active batch at a position. -/
  | finish (position : Nat)
  /-- A worker sends what is ready at a position. -/
  | send (position : Nat)
  /-- The collector takes in what was sent first. -/
  | receive
  /-- The deadline passes. -/
  | deadline
  /-- The collector finds that nothing was sent and nobody is left to send. -/
  | disconnect
  deriving DecidableEq, Repr

namespace Run

variable {τ ρ : Type}

/-- The state in which all batches wait. -/
def init (batches : List (List τ)) : Run τ ρ where
  waiting := batches.mapIdx Batch.mk
  active := []
  ready := []
  sent := []
  received := []
  produced := []
  report := .ofTotal batches.length
  progress := []
  cancelled := false
  ending := if batches.isEmpty then some .complete else none

/-- Whether a worker is free. A worker is busy until it has sent what came of its batch. -/
def hasFreeWorker (job : Job τ ρ) (r : Run τ ρ) : Bool :=
  r.active.length + r.ready.length < max job.workers 1

/-- Take in what was sent, and tell the caller. -/
def receive (job : Job τ ρ) (r : Run τ ρ) (reply : Reply ρ) (rest : List (Reply ρ)) : Run τ ρ :=
  let report := r.report.receive reply.message
  let progress : Progress := ⟨job.label, report.completed, report.total⟩
  let ending := match job.notify progress with
    | some payload => some (Ending.broken payload)
    | none => if report.completed = report.total then some .complete else none
  { r with
    sent := rest
    received := r.received ++ [reply]
    report := report
    progress := r.progress ++ [progress]
    ending := ending }

/-- The state after a step, if the step is possible. -/
def step? (job : Job τ ρ) (r : Run τ ρ) : Event → Option (Run τ ρ)
  | .start i =>
    match r.hasFreeWorker job, r.waiting[i]? with
    | true, some batch =>
      let waiting := r.waiting.eraseIdx i
      if r.cancelled then
        some { r with waiting := waiting, ready := r.ready ++ [⟨batch.number, .cancelled⟩] }
      else some { r with waiting := waiting, active := r.active ++ [batch] }
    | _, _ => none
  | .finish i =>
    match r.active[i]? with
    | none => none
    | some batch =>
      (job.work batch.items).message?.map fun m =>
        { r with
          active := r.active.eraseIdx i
          ready := r.ready ++ [⟨batch.number, m⟩]
          produced := r.produced ++ m.results }
  | .send i =>
    match r.ready[i]? with
    | none => none
    | some reply => some { r with ready := r.ready.eraseIdx i, sent := r.sent ++ [reply] }
  | .receive =>
    match r.ending, r.sent with
    | none, reply :: rest => some (r.receive job reply rest)
    | _, _ => none
  | .deadline =>
    match r.ending with
    | none =>
      some { r with
        report := { r.report with timedOut := true }
        cancelled := true
        ending := some .deadline }
    | some _ => none
  | .disconnect =>
    match r.ending, r.waiting, r.active, r.ready, r.sent with
    | none, [], [], [], [] => some { r with ending := some .disconnected }
    | _, _, _, _, _ => none

/-- The state after steps, as far as they are possible. -/
def steps (job : Job τ ρ) (r : Run τ ρ) : List Event → Run τ ρ
  | [] => r
  | e :: es =>
    match r.step? job e with
    | some next => steps job next es
    | none => r

/-- The steps in which one worker takes the batches one by one. Work that does not end is given up at
the deadline. -/
def inOrder (job : Job τ ρ) : List (List τ) → List Event
  | [] => []
  | batch :: batches =>
    match (job.work batch).message? with
    | some _ => .start 0 :: .finish 0 :: .send 0 :: .receive :: inOrder job batches
    | none => [.start 0, .deadline]

end Run

/-- Run a job on batches in order. -/
def Job.run {τ ρ : Type} (job : Job τ ρ) (batches : List (List τ)) : Run τ ρ :=
  (Run.init batches).steps job (Run.inOrder job batches)

end Deadwood.Scan
