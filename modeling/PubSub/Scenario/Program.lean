import PubSub.Scenario.Phase
import PubSub.Lifecycle
import PubSub.Value
import PubSub.Wait

/-!
What one side of a scenario does, as a tree: it reports lines, reaches phases, and asks its
medium for one thing after the other, going on as the answer tells. Whoever runs a program
decides what the answers are.
-/

namespace PubSub

/-- What a side of a scenario asks for. -/
inductive Request where
  | join (domain : Nat) (name : String)
  | createTopic (participant : Nat) (name : String) (type : SampleType)
  | createGroup (participant : Nat) (kind : EndpointKind)
  | createEndpoint (participant : Nat) (kind : EndpointKind) (group : Group) (topic : Topic)
      (type : SampleType) (qos : Qos)
  | await (endpoint : Guid) (condition : WaitCondition) (limit : Span)
  | takeMatched (endpoint : Guid) (kind : EndpointKind)
  | write (writer : Guid) (sample : Value)
  | dispose (writer : Guid) (sample : Value) (handle : Handle)
  | take (reader : Guid) (max : Nat)
  /-- Closes all endpoints of a participant. -/
  | delete (participant : Nat)
  /-- The participant leaves for good. -/
  | leave (participant : Nat)
  | rest (span : Span)
deriving Inhabited

namespace Request

/-- What the answer to a request is, unless it is a fault. -/
def Answer : Request → Type
  | .join .. => Nat
  | .createTopic .. => Topic
  | .createGroup .. => Group
  | .createEndpoint .. => Guid
  | .await .. => Unit
  | .takeMatched .. => MatchedStatus
  | .write .. => Handle
  | .dispose .. => Unit
  | .take .. => List (Sample Value)
  | .delete _ => Unit
  | .leave _ => Unit
  | .rest _ => Unit

end Request

/-- A side of a scenario. -/
inductive Program where
  | done (outcome : Except Failure Unit)
  | say (line : String) (next : Program)
  | reach (phase : Phase) (next : Program)
  | ask (q : Request) (next : Except Fault q.Answer → Program)

namespace Program

/-- Asks for what has to succeed: a fault is handed to `onFault`. -/
def require (q : Request) (onFault : Fault → Program) (next : q.Answer → Program) : Program :=
  .ask q fun
    | .ok a => next a
    | .error f => onFault f

/-- Goes on with a result that has to be there. -/
def ensure (r : Except Fault α) (onFault : Fault → Program) (next : α → Program) : Program :=
  match r with
  | .ok a => next a
  | .error f => onFault f

/-- Reports a line if there is one. -/
def sayMaybe (line : Option String) (next : Program) : Program :=
  match line with
  | some l => .say l next
  | none => next

end Program

end PubSub
