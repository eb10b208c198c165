import PubSub.Config
import PubSub.Scenario.Program

/-!
A scenario: one sample of a topic is written, and in one variant its instance is disposed of
after that. Both sides create their entities in the same way, and let go of them on every way
out.
-/

namespace PubSub

inductive Variant where
  | plain
  | dispose
deriving DecidableEq, Inhabited

structure Scenario where
  topic : String
  sample : Value
  variant : Variant
  qos : Qos
deriving DecidableEq, Inhabited

namespace Scenario

/-- A side that never had a participant fails. -/
def fail (phase : Phase) (f : Fault) : Program := .done (.error ⟨phase, f⟩)

/-- A side whose entities are not complete fails: its participant leaves. -/
def forsake (p : Nat) (phase : Phase) (f : Fault) : Program :=
  .ask (.leave p) fun _ => fail phase f

/-- A side with all its entities fails: they are released, whatever comes of that. -/
def abandon (p : Nat) (phase : Phase) (f : Fault) : Program :=
  .ask (.delete p) fun _ => .ask (.leave p) fun _ => fail phase f

/-- A side is done: its entities are released, and a fault in that is its failure. -/
def conclude (p : Nat) (phase : Phase) : Program :=
  .ask (.delete p) fun r => .ask (.leave p) fun _ => .done (r.mapError (⟨phase, ·⟩))

/-- Creates the entities of a side one after the other and goes on with its participant and its
endpoint. -/
def enter (s : Scenario) (c : Config) (kind : EndpointKind) (nameStart : String) (phase : Phase)
    (next : Nat → Guid → Program) : Program :=
  .ensure c.validate (fail phase) fun () =>
  .require (.join c.domain (nameStart ++ s.topic)) (fail phase) fun p =>
  .require (.createTopic p s.topic s.sample.type) (forsake p phase) fun t =>
  .require (.createGroup p kind) (forsake p phase) fun g =>
  .require (.createEndpoint p kind g t s.sample.type s.qos) (forsake p phase) fun e =>
  next p e

/-- What is said of peers that were passed over when a wait for a match has run out. -/
def passedOver (callback : String) : Fault → Option String
  | .matchTimeout _ topic _ inc => inc.policy.map fun p =>
      s!"{callback}() topic: '{topic}' : total count {inc.total} last policy {p.text}"
  | _ => none

/-- What is said of a match. -/
def matchedLine (s : Scenario) (callback peers : String) (m : MatchedStatus) : String :=
  s!"{callback}() topic: '{s.topic}'  type: '{s.sample.type.name}' : matched {peers} " ++
    s!"{m.current} (change = {m.currentChange})"

end Scenario

end PubSub
