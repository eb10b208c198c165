/-!
Finite maps as lists of entries in the order of their keys.
-/

namespace PubSub

/-- Entries of a map. No key stands twice, and new keys go where the order has them. -/
abbrev Table (κ α : Type) := List (κ × α)

namespace Table

variable {κ α : Type} [DecidableEq κ]

def get? (t : Table κ α) (k : κ) : Option α :=
  match t with
  | [] => none
  | (k', a) :: r => if k' = k then some a else get? r k

def has (t : Table κ α) (k : κ) : Bool := (t.get? k).isSome

def keys (t : Table κ α) : List κ := t.map (·.1)

def values (t : Table κ α) : List α := t.map (·.2)

/-- Changes the value at a key that is there. -/
def adjust (t : Table κ α) (k : κ) (f : α → α) : Table κ α :=
  t.map fun e => if e.1 = k then (e.1, f e.2) else e

def erase (t : Table κ α) (k : κ) : Table κ α := t.filter fun e => e.1 ≠ k

/-- Puts a new entry in front of the first one that it comes before. -/
def insertNew (before : κ → κ → Bool) (t : Table κ α) (k : κ) (a : α) : Table κ α :=
  match t with
  | [] => [(k, a)]
  | e :: r => if before k e.1 then (k, a) :: e :: r else e :: insertNew before r k a

/-- Puts a new entry behind all others. -/
def insertLast (t : Table κ α) (k : κ) (a : α) : Table κ α := t.insertNew (fun _ _ => false) k a

/-- Sets the value at a key, which need not be there. -/
def put (before : κ → κ → Bool) (t : Table κ α) (k : κ) (a : α) : Table κ α :=
  if t.has k then t.adjust k fun _ => a else t.insertNew before k a

end Table

end PubSub
