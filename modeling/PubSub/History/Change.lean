import PubSub.Entity
import PubSub.Instance

/-!
The changes that a writer makes to the instances of its topic, and the form in which they
travel.
-/

namespace PubSub

inductive ChangeKind where
  | alive
  | disposed
deriving DecidableEq, Inhabited

/-- One entry of a writer's history. -/
structure Change where
  sequence : Nat
  key : InstanceKey
  kind : ChangeKind
  payload : Option Json
deriving Inhabited, BEq

/-- A change addressed to one matched reader, with its number in the sequence of that reader. -/
structure Outgoing where
  reader : Guid
  number : Nat
  change : Change
deriving Inhabited

namespace Change

def kindJson : ChangeKind → Json
  | .alive => .str "Alive"
  | .disposed => .str "Disposed"

def toJson (c : Change) : Json :=
  .obj [("sequence", .ofNat c.sequence), ("key", .str c.key), ("kind", kindJson c.kind),
    ("payload", .ofOption id c.payload)]

/-- A payload is kept in canonical form; null stands for none. -/
def payloadOfJson : Option Json → Option Json
  | none => none
  | some .null => none
  | some j => some j.canonical

def ofJson? (mode : Json.Strictness) (j : Json) : Option Change := do
  match ← j.fields? ["sequence", "key", "kind", "payload"] with
  | [some s, some k, some d, p] =>
    return {
      sequence := ← s.natBelow? UInt64.size
      key := ← k.str?
      kind := ← d.constant? mode [("Alive", .alive), ("Disposed", .disposed)]
      payload := payloadOfJson p }
  | _ => none

end Change

end PubSub
