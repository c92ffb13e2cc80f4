import ContractFuzz.Execution.Client
import ContractFuzz.Sorted.Map

namespace ContractFuzz.Sandbox

inductive Request where
  | deploy (arguments : List Felt)
  | declare
  | invoke (invocation : Invocation)
  | query (invocation : Invocation)
  | snapshot
  | restore (handle : StateHandle)
  deriving DecidableEq, Repr

inductive RequestKind where
  | deploy
  | declare
  | invoke
  | query
  | snapshot
  | restore
  deriving DecidableEq, Repr

def Request.kind : Request → RequestKind
  | .deploy _ => .deploy
  | .declare => .declare
  | .invoke _ => .invoke
  | .query _ => .query
  | .snapshot => .snapshot
  | .restore _ => .restore

/-- How a request was answered. -/
inductive AnswerKind where
  | done
  | reverted
  | failed
  deriving DecidableEq, Repr

def AnswerKind.of {α : Type} : Except ExecutionError α → AnswerKind
  | .ok _ => .done
  | .error (.revert _) => .reverted
  | .error (.client _) => .failed

/-- An answer given in the place of a client. -/
inductive CannedAnswer where
  | error (e : ExecutionError)
  | frame (frame : Frame)
  | classHash (classHash : ClassHash)
  | handle (handle : StateHandle)

namespace CannedAnswer

def frame? : CannedAnswer → Option (Except ExecutionError Frame)
  | .error e => some (.error e)
  | .frame answer => some (.ok answer)
  | _ => none

def classHash? : CannedAnswer → Option (Except ExecutionError ClassHash)
  | .error e => some (.error e)
  | .classHash answer => some (.ok answer)
  | _ => none

def handle? : CannedAnswer → Option (Except ExecutionError StateHandle)
  | .error e => some (.error e)
  | .handle answer => some (.ok answer)
  | _ => none

def failure? : CannedAnswer → Option (Except ExecutionError Unit)
  | .error e => some (.error e)
  | _ => none

/-- Whether the answer is a success, which does not keep the request from being carried out. -/
def isSuccess : CannedAnswer → Bool
  | .error _ => false
  | _ => true

end CannedAnswer

/-- An answer to the requests of one kind: to the one with a number, counted from zero, or to all
of them. -/
structure Replacement where
  kind : RequestKind
  number : Option Nat
  answer : CannedAnswer

/-- How many requests of each kind have been made. -/
structure RequestCounts where
  deploy : Nat := 0
  declare : Nat := 0
  invoke : Nat := 0
  query : Nat := 0
  snapshot : Nat := 0
  restore : Nat := 0
  deriving Inhabited

namespace RequestCounts

def get (counts : RequestCounts) : RequestKind → Nat
  | .deploy => counts.deploy
  | .declare => counts.declare
  | .invoke => counts.invoke
  | .query => counts.query
  | .snapshot => counts.snapshot
  | .restore => counts.restore

def increment (counts : RequestCounts) : RequestKind → RequestCounts
  | .deploy => { counts with deploy := counts.deploy + 1 }
  | .declare => { counts with declare := counts.declare + 1 }
  | .invoke => { counts with invoke := counts.invoke + 1 }
  | .query => { counts with query := counts.query + 1 }
  | .snapshot => { counts with snapshot := counts.snapshot + 1 }
  | .restore => { counts with restore := counts.restore + 1 }

end RequestCounts

/-- A client under observation. -/
structure Interception where
  replacements : List Replacement
  counts : RequestCounts := {}
  /-- The requests and how they were answered, the latest first. -/
  records : List (Request × AnswerKind) := []

namespace Interception

/-- The requests in the order they were made, and the state without them. -/
def takeRecords (i : Interception) : List (Request × AnswerKind) × Interception :=
  (i.records.reverse, { i with records := [] })

/-- The answer that replaces the next request of a kind, if there is one. -/
def replacement? (i : Interception) (kind : RequestKind) : Option CannedAnswer :=
  (i.replacements.find? fun r =>
    r.kind == kind && (r.number.isNone || r.number == some (i.counts.get kind))).map
      Replacement.answer

variable {m : Type → Type} [Monad m] {α : Type}

/-- Make a request, unless an answer of the fitting form replaces it, and keep a record. Of a
request that is answered with a success in the place of the client, `carriedOut` tells whether it
is made all the same. -/
def observe (request : Request) (carriedOut : Bool)
    (fitting : CannedAnswer → Option (Except ExecutionError α))
    (perform : m (Except ExecutionError α)) : StateT Interception m (Except ExecutionError α) := do
  let i ← get
  let kind := request.kind
  let canned := i.replacement? kind
  let answer ← match canned.bind fitting with
    | some answer =>
        if carriedOut && canned.any CannedAnswer.isSuccess then
          let _ ← perform
          pure answer
        else pure answer
    | none => perform
  modify fun i => { i with
    counts := i.counts.increment kind
    records := (request, .of answer) :: i.records }
  return answer

/-- The client that observes another. Only a deployment is made even if its success is replaced. -/
def client (inner : Client m) : Client (StateT Interception m) where
  deploy artifact arguments :=
    observe (.deploy arguments) true CannedAnswer.frame? (inner.deploy artifact arguments)
  declare artifact := observe .declare false CannedAnswer.classHash? (inner.declare artifact)
  invoke invocation :=
    observe (.invoke invocation) false CannedAnswer.frame? (inner.invoke invocation)
  query invocation := observe (.query invocation) false CannedAnswer.frame? (inner.query invocation)
  snapshot := observe .snapshot false CannedAnswer.handle? inner.snapshot
  restore handle := observe (.restore handle) false CannedAnswer.failure? (inner.restore handle)

end Interception

end ContractFuzz.Sandbox
