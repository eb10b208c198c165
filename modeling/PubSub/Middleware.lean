import PubSub.Endpoint.Participant
import PubSub.Endpoint.Reader
import PubSub.Endpoint.Writer

/-!
What an application sees of the medium that joins its endpoints: it creates entities, writes,
takes, looks at statuses, and lets time pass. A medium has events of its own, such as an
arrival, each at its time.
-/

namespace PubSub

/-- A medium that joins endpoints. Times are in nanoseconds. -/
class Middleware (W : Type) where
  participant? : W → Nat → Option Participant
  writer? : W → Guid → Option Writer
  reader? : W → Guid → Option Reader
  adjustWriter : W → Guid → (Writer → Writer) → W
  adjustReader : W → Guid → (Reader → Reader) → W
  createGroup : W → Nat → EntityKind → Except Fault (W × Group)
  createEndpoint : W → Nat → EndpointKind → Group → Topic → SampleType → Qos →
    Except Fault (W × Guid)
  write : W → Guid → Value → Except Fault (W × Handle)
  dispose : W → Guid → Value → Handle → Except Fault W
  close : W → Guid → W
  /-- Closes all endpoints of a participant. -/
  delete : W → Nat → W
  /-- A participant leaves for good. -/
  leave : W → Nat → W
  now : W → Nat
  /-- When the next event of the medium happens. -/
  due? : W → Option Nat
  /-- The next event happens. -/
  advance : W → W
  /-- Time passes without an event. -/
  passUntil : W → Nat → W
  /-- Everything that is on its way arrives. -/
  settle : W → W

/-- What an endpoint shows of itself. -/
structure EndpointView where
  kind : EndpointKind
  topic : String
  type : SampleType
  status : EndpointStatus
  condition : StatusCondition
deriving Inhabited

def Writer.view (x : Writer) : EndpointView :=
  ⟨.writer, x.key.topic, x.type, x.status, x.condition⟩

def Reader.view (x : Reader) : EndpointView :=
  ⟨.reader, x.key.topic, x.type, x.status, x.condition⟩

namespace Middleware

variable {W : Type} [Middleware W]

def view? (w : W) (g : Guid) : Option EndpointView :=
  match writer? w g with
  | some x => some x.view
  | none => (reader? w g).map Reader.view

def createTopic (w : W) (p : Nat) (name : String) (type : SampleType) : Except Fault Topic :=
  match participant? w p with
  | some x => x.createTopic name type
  | none => .error (.deleted .participant)

def take (w : W) (g : Guid) (max : Nat) : W × Except Fault (List (Sample Value)) :=
  match reader? w g with
  | some x => let (x, taken) := x.take max; (adjustReader w g fun _ => x, taken)
  | none => (w, .error (.deleted .reader))

/-- Hands out the matched status of an endpoint and starts its changes anew. -/
def takeMatched (w : W) (g : Guid) : W × MatchedStatus :=
  match writer? w g, reader? w g with
  | some x, _ => let (x, s) := x.takeMatched; (adjustWriter w g fun _ => x, s)
  | none, some x => let (x, s) := x.takeMatched; (adjustReader w g fun _ => x, s)
  | none, none => (w, .empty)

def takeIncompatible (w : W) (g : Guid) : W × IncompatibleStatus :=
  match writer? w g, reader? w g with
  | some x, _ => let (x, s) := x.takeIncompatible; (adjustWriter w g fun _ => x, s)
  | none, some x => let (x, s) := x.takeIncompatible; (adjustReader w g fun _ => x, s)
  | none, none => (w, .empty)

/-- Acts on the status condition of an endpoint. -/
def adjustCondition (w : W) (g : Guid) (f : StatusCondition → StatusCondition) : W :=
  adjustReader (adjustWriter w g fun x => { x with condition := f x.condition }) g
    fun x => { x with condition := f x.condition }

end Middleware

end PubSub
