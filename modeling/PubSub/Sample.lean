import PubSub.Fault

/-!
Samples as a reader hands them out, with their payload still in serialised form or decoded.
-/

namespace PubSub

/-- A sample and what is known about it. Only a sample with valid data has a payload that
counts; a notification about its instance has none. -/
structure Sample (α : Type) where
  data : Option α
  valid : Bool
  state : InstanceState
  key : InstanceKey
  handle : Handle
  sequence : Nat
deriving DecidableEq, Inhabited

namespace Sample

/-- A sample without payload that tells the state of its instance. -/
def notification (key : InstanceKey) (state : InstanceState) (sequence : Nat) : Sample α :=
  ⟨none, false, state, key, InstanceKey.handle key, sequence⟩

/-- The sample with its payload decoded; the payload of a sample without valid data is dropped. -/
def decode (read : α → Except Fault β) (s : Sample α) : Except Fault (Sample β) :=
  match s.data, s.valid with
  | some a, true => do return { s with data := some (← read a) }
  | _, _ => .ok { s with data := none }

/-- Whether the sample has a payload that counts. -/
def hasPayload (s : Sample α) : Bool := s.valid && s.data.isSome

end Sample

end PubSub
