import PubSub.Double

/-!
JSON values. A document keeps its members as they were written; `Json.canonical` is the
form in which a free payload is kept: members in the order of their names, of two members
with one name the later one.
-/

namespace PubSub

/-- A JSON value. Whole numbers are exact, other numbers are doubles. -/
inductive Json where
  | null
  | bool (b : Bool)
  | int (n : Int)
  | real (d : Double)
  | str (s : String)
  | arr (items : List Json)
  | obj (members : List (String × Json))
deriving Inhabited, BEq

namespace Json

/-- Puts a member into a list that is sorted by name, in the place of one of that name. -/
def putMember (k : String) (v : Json) : List (String × Json) → List (String × Json)
  | [] => [(k, v)]
  | (k', v') :: r =>
    if k < k' then (k, v) :: (k', v') :: r
    else if k = k' then (k, v) :: r
    else (k', v') :: putMember k v r

mutual

def canonical : Json → Json
  | .arr items => .arr (canonicalItems items)
  | .obj members => .obj (canonicalMembers members [])
  | j => j

def canonicalItems : List Json → List Json
  | [] => []
  | j :: r => canonical j :: canonicalItems r

/-- Members taken in the order written into those already sorted. -/
def canonicalMembers : List (String × Json) → List (String × Json) → List (String × Json)
  | [], sorted => sorted
  | (k, j) :: r, sorted => canonicalMembers r (putMember k (canonical j) sorted)

end

/-- The member of that name, the last one if there are several. -/
def get? (j : Json) (name : String) : Option Json :=
  match j with
  | .obj members => (members.reverse.find? (·.1 = name)).map (·.2)
  | _ => none

end Json

end PubSub
