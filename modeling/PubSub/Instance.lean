import PubSub.Digest.Fnv

/-!
Instances of a topic: the key that identifies one, its handle and its lifecycle state.
-/

namespace PubSub

/-- The key of an instance in its text form. -/
abbrev InstanceKey := String

/-- The handle of an instance; `0` names none. -/
abbrev Handle := Nat

/-- The handle of a key: its hash, which is moved off `0`. -/
def InstanceKey.handle (key : InstanceKey) : Handle :=
  max (Digest.fnv key.toUTF8.toList).toNat 1

/-- The lifecycle state of an instance, as a sample carries it. -/
inductive InstanceState where
  | alive
  | disposed
  | noWriters
deriving DecidableEq, Inhabited

def InstanceState.text : InstanceState → String
  | .alive => "ALIVE"
  | .disposed => "DISPOSED"
  | .noWriters => "NO_WRITERS"

def InstanceState.ofText? (s : String) : Option InstanceState :=
  [InstanceState.alive, .disposed, .noWriters].find? (·.text = s)

end PubSub
