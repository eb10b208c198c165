import PubSub.Config
import PubSub.Value

/-!
Participants, and the checks that every creation of an entity has to pass. A creation that
fails its checks uses up no number.
-/

namespace PubSub

/-- A participant of a domain. A deleted one creates nothing any more; one that has left is
gone for good. -/
structure Participant where
  id : Nat
  name : String
  domain : Nat
  next : Nat
  deleted : Bool
  left : Bool
deriving DecidableEq, Inhabited

namespace Participant

def new (id domain : Nat) (name : String) : Participant := ⟨id, name, domain, 1, false, false⟩

def checkAlive (p : Participant) (kind : EntityKind) : Except Fault Unit :=
  if p.deleted then .error (.creation kind "participant entities were deleted") else .ok ()

def createTopic (p : Participant) (name : String) (type : SampleType) : Except Fault Topic := do
  p.checkAlive .topic
  if name = "" then throw (.creation .topic "topic name is empty")
  return ⟨name, type.name, p.id⟩

/-- A publisher or a subscriber. -/
def createGroup (p : Participant) (kind : EntityKind) : Except Fault (Participant × Group) := do
  p.checkAlive kind
  return ({ p with next := p.next + 1 }, ⟨p.id, p.next⟩)

def foreignGroup : EndpointKind → Fault
  | .writer => .parameter "publisher belongs to another participant"
  | .reader => .parameter "subscriber belongs to another participant"

def checkTopic (p : Participant) (t : Topic) (type : SampleType) : Except Fault Unit :=
  if t.participant ≠ p.id then
    .error (.parameter s!"topic '{t.name}' belongs to another participant")
  else if t.typeName ≠ type.name then
    .error (.parameter s!"topic '{t.name}' has type '{t.typeName}', not '{type.name}'")
  else .ok ()

def checkQos (q : Qos) : Except Fault Unit :=
  match q.flaw? with
  | some reason => .error (.qos reason)
  | none => .ok ()

/-- The identity of a new endpoint, once all checks are passed. -/
def createEndpoint (p : Participant) (kind : EndpointKind) (g : Group) (t : Topic)
    (type : SampleType) (q : Qos) : Except Fault (Participant × Guid) := do
  p.checkAlive kind.entity
  if g.participant ≠ p.id then throw (foreignGroup kind)
  p.checkTopic t type
  checkQos q
  return ({ p with next := p.next + 1 }, ⟨p.id, p.next⟩)

end Participant

end PubSub
