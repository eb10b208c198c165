import PubSub.Json.Basic

/-!
Typed values out of JSON. A record is an object, in which members of other names are
skipped and no field may stand twice, or an array of all its fields in order. A choice
between constant variants is a text, or an object of one member that bears the variant's
name.
-/

namespace PubSub.Json

/-- The value of a field that may be left out; nothing if it stands twice. -/
def field? (members : List (String × Json)) (name : String) : Option (Option Json) :=
  match members.filter (·.1 = name) with
  | [] => some none
  | [(_, v)] => some (some v)
  | _ => none

/-- The fields of a record in the order of `names`, each with its value if it is there. -/
def fields? (names : List String) : Json → Option (List (Option Json))
  | .obj members => names.mapM (field? members)
  | .arr items => if items.length = names.length then some (items.map some) else none
  | _ => none

/-- As `fields?`, but an object may have no other members. -/
def closedFields? (names : List String) (j : Json) : Option (List (Option Json)) :=
  match j with
  | .obj members => if members.all (names.contains ·.1) then j.fields? names else none
  | _ => j.fields? names

/-- A whole number from `low` to below `high`. -/
def intIn? (low high : Int) : Json → Option Int
  | .int n => if low ≤ n ∧ n < high then some n else none
  | _ => none

/-- A natural number below `bound`. -/
def natBelow? (bound : Nat) (j : Json) : Option Nat := (j.intIn? 0 bound).map Int.toNat

def str? : Json → Option String
  | .str s => some s
  | _ => none

def arr? : Json → Option (List Json)
  | .arr items => some items
  | _ => none

/-- How strictly the value beside a constant variant's name is read: inside a tagged record
an empty object stands for nothing, too. -/
inductive Strictness where
  | plain
  | tagged
deriving DecidableEq

/-- A variant's name and the value that stands beside it. -/
def variant? : Json → Option (String × Option Json)
  | .str s => some (s, none)
  | .obj [(k, v)] => some (k, some v)
  | _ => none

/-- Whether what stands beside the name of a constant variant says nothing. -/
def nothing (mode : Strictness) : Option Json → Bool
  | none => true
  | some .null => true
  | some (.obj []) => mode = .tagged
  | some _ => false

/-- The constant variant that the value names. -/
def constant? (mode : Strictness) (choices : List (String × α)) (j : Json) : Option α := do
  let (name, beside) ← j.variant?
  if nothing mode beside then (choices.find? (·.1 = name)).map (·.2) else none

def ofNat (n : Nat) : Json := .int n

/-- A value or null. -/
def ofOption (f : α → Json) : Option α → Json
  | none => .null
  | some a => f a

end PubSub.Json
