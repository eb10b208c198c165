import PubSub.Json.Record
import PubSub.Digest.Md5
import PubSub.Text.Quoted

/-!
The entities of a domain and how they are named: endpoints by the participant that they
belong to and a number of their own, topics by name and type.
-/

namespace PubSub

/-- The two kinds of endpoint. -/
inductive EndpointKind where
  | writer
  | reader
deriving DecidableEq, Inhabited

namespace EndpointKind

def text : EndpointKind → String
  | .writer => "DataWriter"
  | .reader => "DataReader"

/-- What a peer of such an endpoint is called. -/
def peerRole : EndpointKind → String
  | .writer => "subscription"
  | .reader => "publication"

def toJson : EndpointKind → Json
  | .writer => .str "Writer"
  | .reader => .str "Reader"

def ofJson? (mode : Json.Strictness) (j : Json) : Option EndpointKind :=
  j.constant? mode [("Writer", .writer), ("Reader", .reader)]

end EndpointKind

/-- The kinds of entity that can be created. -/
inductive EntityKind where
  | participant
  | topic
  | publisher
  | subscriber
  | writer
  | reader
deriving DecidableEq, Inhabited

def EntityKind.text : EntityKind → String
  | .participant => "DomainParticipant"
  | .topic => "Topic"
  | .publisher => "Publisher"
  | .subscriber => "Subscriber"
  | .writer => "DataWriter"
  | .reader => "DataReader"

def EndpointKind.entity : EndpointKind → EntityKind
  | .writer => .writer
  | .reader => .reader

/-- `width` hexadecimal digits at least. -/
def hexPadded (width n : Nat) : String :=
  let ds := Nat.toDigits 16 n
  String.ofList (List.replicate (width - ds.length) '0' ++ ds)

/-- The identity of an endpoint. -/
structure Guid where
  participant : Nat
  entity : Nat
deriving DecidableEq, Inhabited

namespace Guid

def text (g : Guid) : String := s!"{hexPadded 16 g.participant}.{hexPadded 8 g.entity}"

/-- The order by participant, then by entity. -/
def before (a b : Guid) : Bool :=
  a.participant < b.participant || (a.participant = b.participant && a.entity < b.entity)

def toJson (g : Guid) : Json :=
  .obj [("participant", .ofNat g.participant), ("entity", .ofNat g.entity)]

def ofJson? (j : Json) : Option Guid := do
  match ← j.fields? ["participant", "entity"] with
  | [some p, some e] => return ⟨← p.natBelow? UInt64.size, ← e.natBelow? UInt32.size⟩
  | _ => none

end Guid

/-- A topic, with the participant that created it. -/
structure Topic where
  name : String
  typeName : String
  participant : Nat
deriving DecidableEq, Inhabited

/-- A publisher or a subscriber: it only groups the endpoints of its participant. -/
structure Group where
  participant : Nat
  id : Nat
deriving DecidableEq, Inhabited

/-- The identity of a type: the first fourteen bytes of its name's digest. -/
structure TypeId where
  bytes : List UInt8
deriving DecidableEq, Inhabited

namespace TypeId

def ofName (name : String) : TypeId := ⟨(Digest.md5 name.toUTF8.toList).take 14⟩

def hex (bytes : List UInt8) : String := String.join (bytes.map fun b => hexPadded 2 b.toNat)

def text (t : TypeId) : String := hex t.bytes

/-- The first four bytes only. -/
def short (t : TypeId) : String := s!"TypeId({hex (t.bytes.take 4)}...)"

end TypeId

/-- What two endpoints must have in common to be peers: topic and type. -/
structure MatchKey where
  topic : String
  type : TypeId
deriving DecidableEq, Inhabited

namespace MatchKey

def of (topic typeName : String) : MatchKey := ⟨topic, .ofName typeName⟩

/-- The key as messages show it. -/
def text (k : MatchKey) : String :=
  s!"MatchKey \x7b topic: {Text.quoted k.topic}, type_id: {k.type.short} \x7d"

end MatchKey

end PubSub
