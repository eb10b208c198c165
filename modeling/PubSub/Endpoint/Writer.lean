import PubSub.Condition
import PubSub.History.Writer
import PubSub.Value

/-!
A data writer: its history, what it reports about its readers, and its status condition, whose
acknowledgment bit holds while every matched reliable reader has acknowledged everything.
-/

namespace PubSub

structure Writer where
  key : MatchKey
  type : SampleType
  history : WriterHistory
  matched : MatchedStatus
  incompatible : IncompatibleStatus
  condition : StatusCondition
  isOpen : Bool
deriving Inhabited

namespace Writer

/-- A writer that has written nothing, so that nothing waits for an acknowledgment. -/
def new (guid : Guid) (topic : String) (type : SampleType) (qos : Qos) : Writer :=
  { key := .of topic type.name
    type
    history := .new guid qos
    matched := .empty
    incompatible := .empty
    condition := StatusCondition.new.raise .acknowledged
    isOpen := true }

def guid (w : Writer) : Guid := w.history.guid

def qos (w : Writer) : Qos := w.history.qos

def status (w : Writer) : EndpointStatus :=
  ⟨w.matched.current, w.matched.total, 0, w.history.unacknowledged, w.incompatible⟩

def raise (w : Writer) (m : StatusMask) : Writer := { w with condition := w.condition.raise m }

def clear (w : Writer) (m : StatusMask) : Writer := { w with condition := w.condition.clear m }

def enable (w : Writer) (m : StatusMask) : Writer := { w with condition := w.condition.enable m }

/-- The acknowledgment bit goes off when something has become pending. -/
def notePending (w : Writer) : Writer :=
  if w.history.allAcknowledged then w else w.clear .acknowledged

/-- A closed writer takes no more changes. -/
def checkOpen (w : Writer) : Except Fault Unit :=
  if w.isOpen then .ok () else .error (.deleted .writer)

def write (w : Writer) (v : Value) : Writer × List Outgoing :=
  let (h, out) := w.history.write v.key v.payload
  ({ w with history := h }.notePending, out)

def dispose (w : Writer) (v : Value) (handle : Handle) : Except Fault (Writer × List Outgoing) := do
  let (h, out) ← w.history.dispose v.key handle
  return ({ w with history := h }.notePending, out)

/-- An acknowledgment from a reader arrives. -/
def acknowledge (w : Writer) (reader : Guid) (acked : Nat) : Writer :=
  let (h, completed) := w.history.acknowledge reader acked
  let w := { w with history := h }
  if completed then w.raise .acknowledged else w

/-- One more matched reader, and what is replayed to it. -/
def addReader (w : Writer) (reader : Guid) (qos : Qos) : Writer × List Outgoing :=
  let (h, out) := w.history.matchReader reader qos
  ({ w with history := h, matched := w.matched.matched }, out)

/-- One matched reader less. -/
def removeReader (w : Writer) (reader : Guid) : Writer :=
  { w with history := w.history.unmatchReader reader, matched := w.matched.unmatched }

/-- The statuses that change when readers have gone. -/
def readerLost (w : Writer) : StatusMask :=
  if w.history.allAcknowledged then StatusMask.publicationMatched.or .acknowledged
  else .publicationMatched

/-- Notes a reader that asks for more than the writer offers. -/
def refuse (w : Writer) (p : Policy) : Writer :=
  { w with incompatible := w.incompatible.record p }.raise .offeredIncompatible

/-- Hands out the matched status and starts its changes anew. -/
def takeMatched (w : Writer) : Writer × MatchedStatus :=
  ({ w with matched := w.matched.taken }, w.matched)

def takeIncompatible (w : Writer) : Writer × IncompatibleStatus :=
  ({ w.clear .offeredIncompatible with incompatible := w.incompatible.taken }, w.incompatible)

end Writer

end PubSub
