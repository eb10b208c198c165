import PubSub.Qos

/-!
What an endpoint reports about its peers: how many it has matched, how many it could not
match, and the snapshot that a wait looks at. Every counter has a change that starts anew
each time the status is taken.
-/

namespace PubSub

/-- Matches so far and matches now, each with its change since the status was last taken. -/
structure MatchedStatus where
  total : Nat
  totalChange : Int
  current : Nat
  currentChange : Int
deriving DecidableEq, Inhabited

namespace MatchedStatus

def empty : MatchedStatus := ⟨0, 0, 0, 0⟩

/-- One more peer. -/
def matched (s : MatchedStatus) : MatchedStatus :=
  ⟨s.total + 1, s.totalChange + 1, s.current + 1, s.currentChange + 1⟩

/-- One peer less, if there is one. -/
def unmatched (s : MatchedStatus) : MatchedStatus :=
  if s.current = 0 then s
  else { s with current := s.current - 1, currentChange := s.currentChange - 1 }

/-- What is left after the status has been taken. -/
def taken (s : MatchedStatus) : MatchedStatus := { s with totalChange := 0, currentChange := 0 }

end MatchedStatus

/-- Peers of the topic that were passed over for their quality of service. -/
structure IncompatibleStatus where
  total : Nat
  change : Int
  policy : Option Policy
deriving DecidableEq, Inhabited

namespace IncompatibleStatus

def empty : IncompatibleStatus := ⟨0, 0, none⟩

def record (s : IncompatibleStatus) (p : Policy) : IncompatibleStatus :=
  ⟨s.total + 1, s.change + 1, some p⟩

def taken (s : IncompatibleStatus) : IncompatibleStatus := { s with change := 0 }

end IncompatibleStatus

/-- The snapshot of an endpoint that waits are decided on. -/
structure EndpointStatus where
  matched : Nat
  totalMatched : Nat
  unread : Nat
  unacknowledged : Nat
  incompatible : IncompatibleStatus
deriving DecidableEq, Inhabited

def EndpointStatus.empty : EndpointStatus := ⟨0, 0, 0, 0, .empty⟩

end PubSub
