import PubSub.Json.Token

/-!
JSON text read as one value, by a machine that keeps the arrays and objects it stands in on
a stack. The height of the stack is bounded: text that nests deeper is refused.
-/

namespace PubSub.Json

namespace Reader

/-- An array or object that is still open, its last item first. -/
inductive Frame where
  | items (rev : List Json)
  | members (rev : List (String × Json)) (key : String)

/-- What may come next. -/
inductive Want where
  | value
  | item
  | member
  | key (rev : List (String × Json))
  | colon (rev : List (String × Json)) (key : String)
  | next
  | done (v : Json)
  | dead

structure St where
  want : Want
  stack : List Frame

def init : St := ⟨.value, []⟩

def dead (s : St) : St := { s with want := .dead }

/-- A value is complete. -/
def give (v : Json) : List Frame → St
  | [] => ⟨.done v, []⟩
  | .items rev :: stack => ⟨.next, .items (v :: rev) :: stack⟩
  | .members rev key :: stack => ⟨.next, .members ((key, v) :: rev) "" :: stack⟩

variable (depth : Nat)

/-- A token where a value is due. -/
def start (s : St) (t : Token) : St :=
  match t with
  | .value v => give v s.stack
  | .openArr => if s.stack.length < depth then ⟨.item, .items [] :: s.stack⟩ else dead s
  | .openObj => if s.stack.length < depth then ⟨.member, .members [] "" :: s.stack⟩ else dead s
  | _ => dead s

/-- A token where a name is due. -/
def name (s : St) (rev : List (String × Json)) (t : Token) : St :=
  match t with
  | .value (.str k) => ⟨.colon rev k, s.stack⟩
  | _ => dead s

def step (s : St) (t : Token) : St :=
  match s.want with
  | .value => start depth s t
  | .item =>
    match t, s.stack with
    | .closeArr, .items _ :: stack => give (.arr []) stack
    | _, _ => start depth s t
  | .member =>
    match t, s.stack with
    | .closeObj, .members _ _ :: stack => give (.obj []) stack
    | _, .members _ _ :: stack => name ⟨.member, stack⟩ [] t
    | _, _ => dead s
  | .key rev => name s rev t
  | .colon rev k =>
    match t with
    | .colon => ⟨.value, .members rev k :: s.stack⟩
    | _ => dead s
  | .next =>
    match t, s.stack with
    | .comma, .items rev :: stack => ⟨.value, .items rev :: stack⟩
    | .closeArr, .items rev :: stack => give (.arr rev.reverse) stack
    | .comma, .members rev _ :: stack => ⟨.key rev, stack⟩
    | .closeObj, .members rev _ :: stack => give (.obj rev.reverse) stack
    | _, _ => dead s
  | .done _ => dead s
  | .dead => s

def run (s : St) (ts : List Token) : St := ts.foldl (step depth) s

end Reader

/-- How many arrays and objects a message may nest. -/
def maxDepth : Nat := 127

/-- The value that the whole text writes, nested no deeper than `depth`. -/
def read? (depth : Nat) (cs : List Char) : Option Json := do
  match (Reader.run depth Reader.init (← Token.ofText? cs)).want with
  | .done v => some v
  | _ => none

end PubSub.Json
