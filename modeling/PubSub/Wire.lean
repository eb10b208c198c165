import PubSub.History.Change
import PubSub.Fault
import PubSub.Json.Reader
import PubSub.Json.Printer

/-!
The datagrams that participants exchange: four letters that tell them from other traffic,
then one message as JSON. A message is a record tagged by its type.
-/

namespace PubSub

/-- A local endpoint as its participant advertises it. -/
structure Announcement where
  guid : Guid
  kind : EndpointKind
  topic : String
  typeName : String
  qos : Qos
deriving DecidableEq, Inhabited

inductive Message where
  /-- A participant is there, with all its endpoints. -/
  | announce (participant domain : Nat) (name : String) (dataPort leaseMillis : Nat)
      (endpoints : List Announcement)
  /-- A participant leaves. -/
  | bye (participant : Nat)
  /-- A change for one matched reader, with its number in the sequence of that reader. -/
  | data (writer reader : Guid) (number : Nat) (change : Change)
  /-- The highest number up to which the reader misses nothing. -/
  | ackNack (reader writer : Guid) (acked : Nat)
deriving Inhabited, BEq

namespace Announcement

def toJson (a : Announcement) : Json :=
  .obj [("guid", a.guid.toJson), ("kind", a.kind.toJson), ("topic", .str a.topic),
    ("type_name", .str a.typeName), ("qos", a.qos.toJson)]

def ofJson? (mode : Json.Strictness) (j : Json) : Option Announcement := do
  match ← j.fields? ["guid", "kind", "topic", "type_name", "qos"] with
  | [some g, some k, some t, some n, some q] =>
    return ⟨← Guid.ofJson? g, ← EndpointKind.ofJson? mode k, ← t.str?, ← n.str?,
      ← Qos.ofJson? mode q⟩
  | _ => none

end Announcement

namespace Message

/-- The participant that sent the message. -/
def participant : Message → Nat
  | .announce p .. => p
  | .bye p => p
  | .data w .. => w.participant
  | .ackNack r .. => r.participant

def toJson : Message → Json
  | .announce p d n port lease eps =>
    .obj [("type", .str "announce"), ("participant", .ofNat p), ("domain_id", .ofNat d),
      ("name", .str n), ("data_port", .ofNat port), ("lease_ms", .ofNat lease),
      ("endpoints", .arr (eps.map Announcement.toJson))]
  | .bye p => .obj [("type", .str "bye"), ("participant", .ofNat p)]
  | .data w r n c =>
    .obj [("type", .str "data"), ("writer", w.toJson), ("reader", r.toJson), ("seq", .ofNat n),
      ("change", c.toJson)]
  | .ackNack r w n =>
    .obj [("type", .str "ack_nack"), ("reader", r.toJson), ("writer", w.toJson),
      ("acked", .ofNat n)]

/-- The tag of a record and what is left of it. The tag is the one member of that name, or
the first item of an array. -/
def untag? : Json → Option (String × Json)
  | .obj members =>
    match members.filter (·.1 = "type") with
    | [(_, .str t)] => some (t, .obj (members.filter (·.1 ≠ "type")))
    | _ => none
  | .arr (.str t :: items) => some (t, .arr items)
  | _ => none

def announceOfJson? (j : Json) : Option Message := do
  match ← j.fields? ["participant", "domain_id", "name", "data_port", "lease_ms", "endpoints"] with
  | [some p, some d, some n, some port, some lease, some eps] =>
    return .announce (← p.natBelow? UInt64.size) (← d.natBelow? UInt32.size) (← n.str?)
      (← port.natBelow? UInt16.size) (← lease.natBelow? UInt64.size)
      (← (← eps.arr?).mapM (Announcement.ofJson? .tagged))
  | _ => none

def dataOfJson? (j : Json) : Option Message := do
  match ← j.fields? ["writer", "reader", "seq", "change"] with
  | [some w, some r, some n, some c] =>
    return .data (← Guid.ofJson? w) (← Guid.ofJson? r) (← n.natBelow? UInt64.size)
      (← Change.ofJson? .tagged c)
  | _ => none

def ackNackOfJson? (j : Json) : Option Message := do
  match ← j.fields? ["reader", "writer", "acked"] with
  | [some r, some w, some n] =>
    return .ackNack (← Guid.ofJson? r) (← Guid.ofJson? w) (← n.natBelow? UInt64.size)
  | _ => none

def byeOfJson? (j : Json) : Option Message := do
  match ← j.fields? ["participant"] with
  | [some p] => return .bye (← p.natBelow? UInt64.size)
  | _ => none

def ofJson? (j : Json) : Option Message := do
  let (tag, rest) ← untag? j
  if tag = "announce" then announceOfJson? rest
  else if tag = "bye" then byeOfJson? rest
  else if tag = "data" then dataOfJson? rest
  else if tag = "ack_nack" then ackNackOfJson? rest
  else none

end Message

namespace Wire

/-- The letters that every datagram starts with. -/
def magic : List Char := ['D', 'I', 'H', '1']

/-- The most bytes that a datagram may have. -/
def maxBytes : Nat := 64000

def malformed : Fault := .serialization "the datagram holds no message"

/-- The datagram of a message, as text. -/
def text (m : Message) : String := String.ofList (magic ++ m.toJson.print)

def oversized (bytes : Nat) : Fault :=
  .transport s!"datagram of {bytes} bytes exceeds the {maxBytes} byte limit"

/-- The datagram of a message, unless it is too long to be sent. -/
def encode (m : Message) : Except Fault String :=
  let t := text m
  if maxBytes < t.utf8ByteSize then .error (oversized t.utf8ByteSize) else .ok t

/-- The message of a datagram's characters; nothing for other traffic. -/
def decodeText (cs : List Char) : Except Fault (Option Message) :=
  if cs.take 4 = magic then
    match (Json.read? Json.maxDepth (cs.drop 4)).bind Message.ofJson? with
    | some m => .ok (some m)
    | none => .error malformed
  else .ok none

/-- The message of a datagram's bytes. Other traffic need not be text. -/
def decode (bytes : ByteArray) : Except Fault (Option Message) :=
  if bytes.toList.take 4 = magic.map Char.toUInt8 then
    match String.fromUTF8? bytes with
    | some s => decodeText s.toList
    | none => .error malformed
  else .ok none

end Wire

end PubSub
