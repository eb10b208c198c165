import PubSub.Entity
import PubSub.Instance
import PubSub.Status

/-!
Everything that can go wrong, by its cause, with the wording of each cause and the exit code
of a run that ends with it.
-/

namespace PubSub

inductive Fault where
  | creation (entity : EntityKind) (reason : String)
  | domainRange (id : Nat)
  | qos (reason : String)
  | config (reason : String)
  | parameter (reason : String)
  | deleted (entity : EntityKind)
  | matchTimeout (endpoint : EndpointKind) (topic : String) (waited : Span)
      (incompatible : IncompatibleStatus)
  | ackTimeout (topic : String) (unacknowledged : Nat) (waited : Span)
  | dataTimeout (topic : String) (waited : Span)
  | noData (topic : String)
  | invalidData (key : InstanceKey) (state : InstanceState)
  | lifecycle (key : InstanceKey) (expected observed : InstanceState)
  | unexpected (expected received : String)
  | serialization (text : String)
  | transport (text : String)
  | io (text : String)
deriving DecidableEq, Inhabited

namespace Fault

/-- What a failed read says of itself. -/
def noDataText (topic : String) : String := s!"no sample available on topic '{topic}'"

def invalidDataText (key : InstanceKey) (state : InstanceState) : String :=
  s!"sample for instance '{key}' has no valid data (instance state {state.text})"

/-- The remark on incompatible peers that a match timeout ends with. -/
def incompatibleNote (endpoint : EndpointKind) (inc : IncompatibleStatus) : String :=
  match inc.policy with
  | some p =>
    if 0 < inc.total then
      s!" ({inc.total} incompatible {endpoint.peerRole} peer(s), last policy {p.text})"
    else ""
  | none => ""

def message : Fault → String
  | .creation e reason => s!"Failed to create {e.text}: {reason}"
  | .domainRange id => s!"Invalid domain_id: {id} (must be 0-232)"
  | .qos reason => s!"Invalid QoS: {reason}"
  | .config reason => s!"Invalid configuration: {reason}"
  | .parameter reason => s!"Bad parameter: {reason}"
  | .deleted e => s!"{e.text} already deleted"
  | .matchTimeout ep topic waited inc =>
    s!"Timeout waiting for {ep.peerRole} match on topic '{topic}' after {waited.secondsText}" ++
      incompatibleNote ep inc
  | .ackTimeout topic n waited =>
    s!"Timeout waiting for acknowledgments on topic '{topic}' after {waited.secondsText} " ++
      s!"({n} unacknowledged)"
  | .dataTimeout topic waited =>
    s!"Timeout waiting for data on topic '{topic}' after {waited.secondsText}"
  | .noData topic => "Read failed: " ++ noDataText topic
  | .invalidData key state => "Read failed: " ++ invalidDataText key state
  | .lifecycle key expected observed =>
    s!"Instance '{key}' expected to be {expected.text} but was {observed.text}"
  | .unexpected expected received =>
    s!"Unexpected sample: expected {expected} but received {received}"
  | .serialization text => s!"Serialization failed: {text}"
  | .transport text => s!"Transport error: {text}"
  | .io text => s!"I/O error: {text}"

/-- The name of the cause. -/
def name : Fault → String
  | .creation .. => "Creation"
  | .domainRange _ => "InvalidDomainId"
  | .qos _ => "InvalidQos"
  | .config _ => "InvalidConfig"
  | .parameter _ => "BadParameter"
  | .deleted _ => "AlreadyDeleted"
  | .matchTimeout .. => "MatchTimeout"
  | .ackTimeout .. => "AckTimeout"
  | .dataTimeout .. => "DataTimeout"
  | .noData _ => "Read.NoData"
  | .invalidData .. => "Read.InvalidData"
  | .lifecycle .. => "LifecycleMismatch"
  | .unexpected .. => "UnexpectedSample"
  | .serialization _ => "Serialization"
  | .transport _ => "Transport"
  | .io _ => "IoError"

/-- `2` for creation and configuration, `3` for a wait that ran out, `4` for what was read,
`5` for the transport. -/
def exitCode : Fault → Nat
  | .creation .. | .domainRange _ | .qos _ | .config _ | .parameter _ | .deleted _ => 2
  | .matchTimeout .. | .ackTimeout .. | .dataTimeout .. => 3
  | .noData _ | .invalidData .. | .lifecycle .. | .unexpected .. => 4
  | .serialization _ | .transport _ | .io _ => 5

def isTimeout (f : Fault) : Bool := f.exitCode = 3

/-- The text of the fault that this one wraps. -/
def source? : Fault → Option String
  | .noData topic => some (noDataText topic)
  | .invalidData key state => some (invalidDataText key state)
  | .io text => some text
  | _ => none

end Fault

end PubSub
