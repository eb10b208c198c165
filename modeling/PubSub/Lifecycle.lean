import PubSub.Sample
import PubSub.Table

/-!
The lifecycle that each instance is held to: alive once or more, then disposed, and nothing
after that.
-/

namespace PubSub

/-- The states observed of each instance, in order. -/
structure LifecycleVerifier where
  observed : Table InstanceKey (List InstanceState)
deriving DecidableEq, Inhabited

namespace LifecycleVerifier

def new : LifecycleVerifier := ⟨[]⟩

def history (v : LifecycleVerifier) (key : InstanceKey) : List InstanceState :=
  (v.observed.get? key).getD []

def latest? (v : LifecycleVerifier) (key : InstanceKey) : Option InstanceState :=
  (v.history key).getLast?

/-- What speaks against a state after the latest one. -/
def objection? (key : InstanceKey) : Option InstanceState → InstanceState → Option Fault
  | some .disposed, s =>
    some (.unexpected s!"no sample after DISPOSED for instance '{key}'" s.text)
  | none, .disposed => some (.lifecycle key .alive .disposed)
  | some _, .noWriters => some (.lifecycle key .disposed .noWriters)
  | none, .noWriters => some (.lifecycle key .alive .noWriters)
  | _, _ => none

/-- Records a state unless it breaks the lifecycle. -/
def observe (v : LifecycleVerifier) (key : InstanceKey) (s : InstanceState) :
    Except Fault LifecycleVerifier :=
  match objection? key (v.latest? key) s with
  | some f => .error f
  | none => .ok ⟨v.observed.put (· < ·) key (v.history key ++ [s])⟩

/-- Checks the latest state. -/
def expect (v : LifecycleVerifier) (key : InstanceKey) (expected : InstanceState) :
    Except Fault Unit :=
  match v.latest? key with
  | some s => if s = expected then .ok () else .error (.lifecycle key expected s)
  | none => .error (.unexpected s!"{expected.text} sample for instance '{key}'" "nothing")

/-- Records a state that has to be the expected one. -/
def observeExpected (v : LifecycleVerifier) (key : InstanceKey)
    (observed expected : InstanceState) : Except Fault LifecycleVerifier :=
  if observed = expected then v.observe key observed
  else .error (.lifecycle key expected observed)

end LifecycleVerifier

/-- What a read asks for: a payload, or whatever tells of the lifecycle. -/
inductive ReadProbe where
  | payload
  | lifecycle
deriving DecidableEq, Inhabited

/-- The first sample that was taken, if it is what the read asked for. -/
def classify (topic : String) (probe : ReadProbe) (taken : List (Sample α)) :
    Except Fault (Sample α) :=
  match taken with
  | [] => .error (.noData topic)
  | s :: _ =>
    if probe = .payload ∧ !s.hasPayload then .error (.invalidData s.key s.state) else .ok s

end PubSub
