import PubSub.Cli.Flags
import PubSub.Config
import PubSub.History.Net
import PubSub.Middleware
import PubSub.Wire

/-!
What can be observed, as JSON records for a report.
-/

namespace PubSub

/-- Participant and entity. -/
def Guid.pair (g : Guid) : Json := .arr [.ofNat g.participant, .ofNat g.entity]

/-- Seconds and nanoseconds. -/
def Span.pair (s : Span) : Json := .arr [.ofNat s.secs, .ofNat s.subsec]

def InstanceState.toJson (s : InstanceState) : Json := .str s.text

def Policy.toJson? (p : Option Policy) : Json := .ofOption (fun p => .str p.text) p

/-- A handle has more digits than many readers of numbers keep. -/
def handleText (h : Handle) : Json := .str (toString h)

def IncompatibleStatus.toJson (s : IncompatibleStatus) : Json :=
  .obj [("total", .ofNat s.total), ("change", .int s.change), ("policy", Policy.toJson? s.policy)]

def MatchedStatus.members (s : MatchedStatus) : List (String × Json) :=
  [("total", .ofNat s.total), ("total_change", .int s.totalChange), ("current", .ofNat s.current),
    ("current_change", .int s.currentChange)]

/-- The numbers of an endpoint's status and of its status condition in one row. -/
def EndpointView.row (v : EndpointView) : Json :=
  .arr [.ofNat v.status.matched, .ofNat v.status.totalMatched, .ofNat v.status.unread,
    .ofNat v.status.unacknowledged, .ofNat v.status.incompatible.total,
    .int v.status.incompatible.change, Policy.toJson? v.status.incompatible.policy,
    .ofNat v.condition.active.bits, .ofNat v.condition.enabled.bits]

def Sample.toJson (payload : α → Json) (s : Sample α) : Json :=
  .obj [("data", .ofOption payload s.data), ("valid", .bool s.valid), ("state", s.state.toJson),
    ("key", .str s.key), ("handle", handleText s.handle), ("seq", .ofNat s.sequence)]

def Config.toJson (c : Config) : Json :=
  .obj [("domain", .ofNat c.domain), ("match", c.matching.pair), ("ack", c.acknowledgment.pair),
    ("data", c.data.pair), ("linger", c.linger.pair)]

/-- A status condition as its enabled and active bits and whether it triggers, a guard as its
value. -/
def Condition.row : Condition → Json
  | .status s => .arr [.ofNat s.enabled.bits, .ofNat s.active.bits, .bool s.triggered]
  | .guard g => .arr [.bool g.value]

/-- What is known of a value besides its members. -/
def Value.facts (v : Value) : List (String × Json) :=
  [("key", .str v.key), ("handle", handleText v.key.handle), ("debug", .str v.text),
    ("type_name", .str v.type.name)]

/-- A quality of service and what follows from it. -/
def Qos.facts (q : Qos) : List (String × Json) :=
  [("qos", q.toJson), ("reliable", .bool q.isReliable), ("depth", .ofOption .ofNat q.history.depth)]

/-- The reader, the number in its sequence, and the change. -/
def Outgoing.toJson (o : Outgoing) : Json :=
  .arr [o.reader.pair, .ofNat o.number, o.change.toJson]

/-- As `Outgoing.toJson`, with no more of the change than its number. -/
def Outgoing.brief (o : Outgoing) : List Json :=
  [o.reader.pair, .ofNat o.number, .ofNat o.change.sequence]

def Net.Delivery.toJson (d : Net.Delivery) : Json :=
  .obj ([("reception", .str d.reception.name), ("acked", .ofNat d.acked)] ++
    (d.completed.map fun c => ("completed", Json.bool c)).toList)

/-- An endpoint as it is announced, under a name for its guid. -/
def Announcement.row (guid : Json) (a : Announcement) : Json :=
  .obj [("guid", guid), ("kind", .str a.kind.text), ("topic", .str a.topic),
    ("type_name", .str a.typeName), ("qos", a.qos.toJson)]

/-- The flags that every tool takes. -/
def Cli.Flags.members (f : Flags) : List (String × Json) :=
  let number := Json.ofOption Json.ofNat
  [("transport", .ofOption (.str ·.name) f.transport), ("domain", number f.domain),
    ("match_timeout", number f.matchTimeout), ("ack_timeout", number f.ackTimeout),
    ("data_timeout", number f.dataTimeout), ("linger_ms", number f.lingerMillis),
    ("verbose", .bool f.verbose), ("no_color", .bool f.noColor)]

end PubSub
