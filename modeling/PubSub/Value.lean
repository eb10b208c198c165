import PubSub.Sample
import PubSub.Text.Quoted
import PubSub.Json.Printer

/-!
The sample types of the scenarios. A value of one of them has a serialised form, a key that
names its instance, and a text that messages show it with.
-/

namespace PubSub

/-- A greeting; the number is the key. -/
structure Hello where
  id : Nat
  msg : String
deriving DecidableEq, Inhabited

/-- A named number; the name is the key. -/
structure Named where
  name : String
  value : Nat
deriving DecidableEq, Inhabited

/-- A labelled list of numbers. -/
structure Labelled where
  label : String
  values : List Int
deriving DecidableEq, Inhabited

/-- A record within a record; the number is the key. -/
structure Nested where
  id : Int
  inner : Labelled
deriving DecidableEq, Inhabited

/-- The sample types. -/
inductive SampleType where
  | hello
  | named
  | nested
deriving DecidableEq, Inhabited

def SampleType.name : SampleType → String
  | .hello => "interoperability::test::HelloWorldType"
  | .named => "interoperability::test::DisposeDataType"
  | .nested => "interoperability::test::NestedType"

/-- A value of one of the sample types. -/
inductive Value where
  | hello (v : Hello)
  | named (v : Named)
  | nested (v : Nested)
deriving DecidableEq, Inhabited

namespace Value

def type : Value → SampleType
  | .hello _ => .hello
  | .named _ => .named
  | .nested _ => .nested

def key : Value → InstanceKey
  | .hello v => toString v.id
  | .named v => v.name
  | .nested v => toString v.id

/-- The fields in the order in which the type declares them. -/
def toJson : Value → Json
  | .hello v => .obj [("id", .ofNat v.id), ("msg", .str v.msg)]
  | .named v => .obj [("name", .str v.name), ("value", .ofNat v.value)]
  | .nested v =>
    .obj [("id", .int v.id),
      ("inner", .obj [("label", .str v.inner.label),
        ("value_list", .arr (v.inner.values.map .int))])]

/-- Whether every number lies within the width of its field. -/
def InRange : Value → Prop
  | .hello v => v.id < UInt8.size
  | .named v => v.value < UInt32.size
  | .nested v => (-0x80000000 ≤ v.id ∧ v.id < 0x80000000) ∧
      ∀ n ∈ v.inner.values, -0x80000000 ≤ n ∧ n < 0x80000000

def int32? (j : Json) : Option Int := j.intIn? (-0x80000000) 0x80000000

def labelledOfJson? (j : Json) : Option Labelled := do
  match ← j.fields? ["label", "value_list"] with
  | [some l, some vs] => return ⟨← l.str?, ← (← vs.arr?).mapM int32?⟩
  | _ => none

/-- The value of that type which a serialised form stands for. -/
def ofJson? (t : SampleType) (j : Json) : Option Value :=
  match t with
  | .hello => do
    match ← j.fields? ["id", "msg"] with
    | [some i, some m] => return .hello ⟨← i.natBelow? UInt8.size, ← m.str?⟩
    | _ => none
  | .named => do
    match ← j.fields? ["name", "value"] with
    | [some n, some v] => return .named ⟨← n.str?, ← v.natBelow? UInt32.size⟩
    | _ => none
  | .nested => do
    match ← j.fields? ["id", "inner"] with
    | [some i, some r] => return .nested ⟨← int32? i, ← labelledOfJson? r⟩
    | _ => none

/-- The payload that a sample is carried as. -/
def payload (v : Value) : Json := v.toJson

def ofPayload (t : SampleType) (j : Json) : Except Fault Value :=
  match ofJson? t j with
  | some v => .ok v
  | none => .error (.serialization "the payload is no value of the type")

/-- The value as messages show it. -/
def text : Value → String
  | .hello v => s!"HelloWorldType \x7b id: {v.id}, msg: {Text.quoted v.msg} \x7d"
  | .named v => s!"DisposeDataType \x7b name: {Text.quoted v.name}, value: {v.value} \x7d"
  | .nested v =>
    let values := String.intercalate ", " (v.inner.values.map toString)
    s!"NestedType \x7b id: {v.id}, inner: InnerType \x7b " ++
      s!"label: {Text.quoted v.inner.label}, value_list: [{values}] \x7d \x7d"

end Value

end PubSub
