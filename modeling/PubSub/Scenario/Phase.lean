import PubSub.Fault

/-!
How far the two sides of a scenario get, and how a failure tells it.
-/

namespace PubSub

inductive PublisherPhase where
  | created
  | matchWaited
  | written
  | acknowledged
  | disposed
  | disposeAcknowledged
  | done
deriving DecidableEq, Inhabited

def PublisherPhase.text : PublisherPhase → String
  | .created => "Created"
  | .matchWaited => "MatchWaited"
  | .written => "Written"
  | .acknowledged => "Acknowledged(write)"
  | .disposed => "Disposed"
  | .disposeAcknowledged => "Acknowledged(dispose)"
  | .done => "Done"

inductive SubscriberPhase where
  | created
  | matchWaited
  /-- The wait for data of that number has succeeded. -/
  | dataWaited (n : Nat)
  /-- The read of that number has returned a sample in that state. -/
  | read (n : Nat) (state : InstanceState)
  | done
deriving DecidableEq, Inhabited

def SubscriberPhase.text : SubscriberPhase → String
  | .created => "Created"
  | .matchWaited => "MatchWaited"
  | .dataWaited n => s!"DataWaited({n})"
  | .read n state => s!"Read({n}, {state.text})"
  | .done => "Done"

/-- The last phase that a side has reached; none before its entities are created. -/
inductive Phase where
  | publisher (p : Option PublisherPhase)
  | subscriber (p : Option SubscriberPhase)
deriving DecidableEq, Inhabited

namespace Phase

/-- The phase without its side. -/
def inner? : Phase → Option String
  | .publisher p => p.map PublisherPhase.text
  | .subscriber p => p.map SubscriberPhase.text

def text : Phase → String
  | .publisher (some p) => "publisher " ++ p.text
  | .publisher none => "publisher creation"
  | .subscriber (some p) => "subscriber " ++ p.text
  | .subscriber none => "subscriber creation"

end Phase

/-- A run that stopped at its first fault. -/
structure Failure where
  phase : Phase
  fault : Fault
deriving DecidableEq, Inhabited

namespace Failure

def message (f : Failure) : String := s!"{f.fault.message} (after {f.phase.text})"

def exitCode (f : Failure) : Nat := f.fault.exitCode

end Failure

end PubSub
