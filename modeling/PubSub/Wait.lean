import PubSub.Condition
import PubSub.Fault

/-!
Bounded waits on the status of an endpoint. The waiter listens to the status bits that can
turn its condition true, looks at the status, and sleeps until a bit is raised or its time is
over; the status is looked at once more at the end.
-/

namespace PubSub

/-- What a wait is for. -/
inductive WaitCondition where
  | matched
  | data
  | acknowledged
deriving DecidableEq, Inhabited

namespace WaitCondition

def text : WaitCondition → String
  | .matched => "match"
  | .data => "data"
  | .acknowledged => "acknowledgment"

/-- The status bits whose changes can satisfy the condition. -/
def mask : WaitCondition → EndpointKind → StatusMask
  | .matched, .writer => .publicationMatched
  | .matched, .reader => .subscriptionMatched
  | .data, _ => .dataAvailable
  | .acknowledged, _ => StatusMask.acknowledged.or .publicationMatched

/-- A peer that matched and has left again counts as a match. -/
def satisfied : WaitCondition → EndpointStatus → Bool
  | .matched, s => 0 < s.matched || 0 < s.totalMatched
  | .data, s => 0 < s.unread
  | .acknowledged, s => s.unacknowledged = 0

/-- The fault of a wait that ran out, with the status that it last saw. -/
def timeout (c : WaitCondition) (kind : EndpointKind) (topic : String) (s : EndpointStatus)
    (waited : Span) : Fault :=
  match c with
  | .matched => .matchTimeout kind topic waited s.incompatible
  | .data => .dataTimeout topic waited
  | .acknowledged => .ackTimeout topic s.unacknowledged waited

/-- The verdict of a wait that began with status `now`, if the status became `later` before
the time was over. -/
def verdict (c : WaitCondition) (kind : EndpointKind) (topic : String) (waited : Span)
    (now later : EndpointStatus) : Except Fault Unit :=
  if c.satisfied now || c.satisfied later then .ok ()
  else .error (c.timeout kind topic later waited)

end WaitCondition

end PubSub
