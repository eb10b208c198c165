import PubSub.Scenario.Publisher
import PubSub.Scenario.Subscriber

/-!
The scenarios that there are, by name.
-/

namespace PubSub

inductive Entry where
  | helloWorld
  | dispose
  | nestedSequence
deriving DecidableEq, Inhabited

namespace Entry

def all : List Entry := [.helloWorld, .dispose, .nestedSequence]

def name : Entry → String
  | .helloWorld => "hello-world"
  | .dispose => "dispose"
  | .nestedSequence => "nested-sequence"

def scenario : Entry → Scenario
  | .helloWorld => ⟨"HelloWorld", .hello ⟨8, "Hello world!"⟩, .plain, .interop⟩
  | .dispose => ⟨"DisposeTopic", .named ⟨"Very Long Name", 1⟩, .dispose, .interop⟩
  | .nestedSequence =>
    ⟨"NestedTopic", .nested ⟨1, ⟨"nested", [30, 40, 50]⟩⟩, .plain, .interop⟩

/-- The entry of that name, in letters of either case. -/
def ofName (text : String) : Except Fault Entry :=
  match all.find? (·.name = text.map Char.toLower) with
  | some e => .ok e
  | none => .error (.parameter s!"unknown scenario '{text}'")

end Entry

end PubSub
