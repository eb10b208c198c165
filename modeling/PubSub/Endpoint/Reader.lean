import PubSub.Condition
import PubSub.History.Reader
import PubSub.Value

/-!
A data reader: its cache, what it reports about its writers, and its status condition, whose
data bit holds while there are samples that nobody has taken.
-/

namespace PubSub

structure Reader where
  guid : Guid
  key : MatchKey
  type : SampleType
  cache : ReaderCache
  matched : MatchedStatus
  incompatible : IncompatibleStatus
  condition : StatusCondition
  isOpen : Bool
deriving Inhabited

namespace Reader

def new (guid : Guid) (topic : String) (type : SampleType) (qos : Qos) : Reader :=
  { guid
    key := .of topic type.name
    type
    cache := .new qos
    matched := .empty
    incompatible := .empty
    condition := .new
    isOpen := true }

def qos (r : Reader) : Qos := r.cache.qos

def status (r : Reader) : EndpointStatus :=
  ⟨r.matched.current, r.matched.total, r.cache.unread.length, 0, r.incompatible⟩

def raise (r : Reader) (m : StatusMask) : Reader := { r with condition := r.condition.raise m }

def clear (r : Reader) (m : StatusMask) : Reader := { r with condition := r.condition.clear m }

def enable (r : Reader) (m : StatusMask) : Reader := { r with condition := r.condition.enable m }

/-- Offers a change. The answer is the number to acknowledge; a closed reader and a writer
that is not matched get none. -/
def receive (r : Reader) (writer : Guid) (number : Nat) (c : Change) : Reader × Option Nat :=
  if r.isOpen then
    match r.cache.receive writer number c with
    | (cache, .accepted, acked) => ({ r with cache }.raise .dataAvailable, some acked)
    | (_, .unknownWriter, _) => (r, none)
    | (_, _, acked) => (r, some acked)
  else (r, none)

/-- One more matched writer. -/
def addWriter (r : Reader) (writer : Guid) (reliable : Bool) : Reader :=
  { r with cache := r.cache.addWriter writer reliable, matched := r.matched.matched }

/-- One matched writer less, and the statuses that change by it; nothing for a writer that is
not matched. -/
def removeWriter (r : Reader) (writer : Guid) : Option (Reader × StatusMask) :=
  match r.cache.removeWriter writer with
  | (cache, some notified) =>
    some ({ r with cache, matched := r.matched.unmatched },
      if notified = 0 then .subscriptionMatched
      else StatusMask.subscriptionMatched.or .dataAvailable)
  | (_, none) => none

/-- Notes a writer that offers less than the reader asks for. -/
def refuse (r : Reader) (p : Policy) : Reader :=
  { r with incompatible := r.incompatible.record p }.raise .requestedIncompatible

/-- Takes samples out of the cache, and then decodes them: a payload that is no value of the
type fails the call, and the samples taken with it are gone. -/
def take (r : Reader) (max : Nat) : Reader × Except Fault (List (Sample Value)) :=
  if r.isOpen then
    let (cache, samples) := r.cache.take max
    let r := { r with cache }
    (if cache.unread.isEmpty then r.clear .dataAvailable else r,
      samples.mapM (Sample.decode (Value.ofPayload r.type)))
  else (r, .error (.deleted .reader))

/-- Hands out the matched status and starts its changes anew. -/
def takeMatched (r : Reader) : Reader × MatchedStatus :=
  ({ r with matched := r.matched.taken }, r.matched)

def takeIncompatible (r : Reader) : Reader × IncompatibleStatus :=
  ({ r.clear .requestedIncompatible with incompatible := r.incompatible.taken }, r.incompatible)

end Reader

end PubSub
