import PubSub.Json.Record
import PubSub.Span

/-!
The quality of service of an endpoint, as far as it decides matching and delivery:
reliability, durability and history.
-/

namespace PubSub

inductive Reliability where
  | bestEffort
  | reliable
deriving DecidableEq, Inhabited

inductive Durability where
  | volatile
  | transientLocal
deriving DecidableEq, Inhabited

/-- How many samples of one instance are kept. -/
inductive History where
  | keepLast (depth : Nat)
  | keepAll
deriving DecidableEq, Inhabited

def History.depth : History → Option Nat
  | .keepLast n => some n
  | .keepAll => none

/-- The quality of service that an endpoint offers or asks for. -/
structure Qos where
  reliability : Reliability
  maxBlocking : Span
  durability : Durability
  history : History
deriving DecidableEq, Inhabited

/-- The policies that can keep two endpoints apart. -/
inductive Policy where
  | reliability
  | durability
deriving DecidableEq, Inhabited

def Policy.text : Policy → String
  | .reliability => "RELIABILITY"
  | .durability => "DURABILITY"

def Policy.ofText? (s : String) : Option Policy :=
  [Policy.reliability, .durability].find? (·.text = s)

namespace Qos

def bestEffort : Qos := ⟨.bestEffort, .ofMillis 100, .volatile, .keepLast 1⟩

def reliable : Qos := { bestEffort with reliability := .reliable }

def reliableWithin (blocking : Span) : Qos := { reliable with maxBlocking := blocking }

/-- The profile of the interoperability scenarios. -/
def interop : Qos := { reliableWithin (.ofSecs 1) with durability := .transientLocal }

def isReliable (q : Qos) : Bool := q.reliability = .reliable

/-- What is wrong with a quality of service, if anything is. -/
def flaw? (q : Qos) : Option String :=
  if q.history = .keepLast 0 then some "KEEP_LAST depth must be > 0"
  else if q.isReliable ∧ q.maxBlocking = .zero then some "RELIABLE max_blocking_time must be > 0"
  else none

/-- The first policy in which a writer offers less than a reader asks for. -/
def conflict? (writer reader : Qos) : Option Policy :=
  if writer.reliability = .bestEffort ∧ reader.reliability = .reliable then some .reliability
  else if writer.durability = .volatile ∧ reader.durability = .transientLocal then some .durability
  else none

def compatible (writer reader : Qos) : Bool := (conflict? writer reader).isNone

end Qos

namespace Span

def toJson (s : Span) : Json := .obj [("secs", .ofNat s.secs), ("nanos", .ofNat s.subsec)]

/-- Surplus nanoseconds are carried; seconds beyond sixty-four bits are refused. -/
def ofJson? (j : Json) : Option Span := do
  match ← j.closedFields? ["secs", "nanos"] with
  | [some s, some n] =>
    let span := ofParts (← s.natBelow? UInt64.size) (← n.natBelow? UInt32.size)
    if span.secs < UInt64.size then some span else none
  | _ => none

end Span

namespace Qos

def reliabilityJson : Reliability → Json
  | .bestEffort => .str "BestEffort"
  | .reliable => .str "Reliable"

def durabilityJson : Durability → Json
  | .volatile => .str "Volatile"
  | .transientLocal => .str "TransientLocal"

def historyJson : History → Json
  | .keepLast n => .obj [("KeepLast", .ofNat n)]
  | .keepAll => .str "KeepAll"

def toJson (q : Qos) : Json :=
  .obj [("reliability", reliabilityJson q.reliability), ("max_blocking_time", q.maxBlocking.toJson),
    ("durability", durabilityJson q.durability), ("history", historyJson q.history)]

def historyOfJson? (mode : Json.Strictness) (j : Json) : Option History :=
  match j with
  | .obj [("KeepLast", n)] => (n.natBelow? UInt32.size).map .keepLast
  | _ => j.constant? mode [("KeepAll", .keepAll)]

def ofJson? (mode : Json.Strictness) (j : Json) : Option Qos := do
  match ← j.fields? ["reliability", "max_blocking_time", "durability", "history"] with
  | [some r, some b, some d, some h] =>
    return {
      reliability := ← r.constant? mode [("BestEffort", .bestEffort), ("Reliable", .reliable)]
      maxBlocking := ← Span.ofJson? b
      durability := ← d.constant? mode
        [("Volatile", .volatile), ("TransientLocal", .transientLocal)]
      history := ← historyOfJson? mode h }
  | _ => none

end Qos

end PubSub
