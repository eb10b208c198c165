import PubSub.Table

/-!
Status conditions. An endpoint raises and clears the bits of its communication statuses, an
application enables the bits that it wants to hear of, and whoever is attached is alerted
when an enabled bit is raised.
-/

namespace PubSub

/-- A set of communication statuses, one bit each. -/
structure StatusMask where
  bits : Nat
deriving DecidableEq, Inhabited

namespace StatusMask

def none : StatusMask := ⟨0⟩
def dataAvailable : StatusMask := ⟨1⟩
def requestedIncompatible : StatusMask := ⟨32⟩
def subscriptionMatched : StatusMask := ⟨64⟩
def offeredIncompatible : StatusMask := ⟨512⟩
def publicationMatched : StatusMask := ⟨1024⟩
def acknowledged : StatusMask := ⟨2048⟩

def or (a b : StatusMask) : StatusMask := ⟨a.bits ||| b.bits⟩

def and (a b : StatusMask) : StatusMask := ⟨a.bits &&& b.bits⟩

/-- The bits of the first mask that the second one does not have. -/
def without (a b : StatusMask) : StatusMask := ⟨a.bits ^^^ (a.bits &&& b.bits)⟩

/-- Every bit of the second mask is in the first. -/
def contains (a b : StatusMask) : Bool := a.and b = b

/-- The masks have a bit in common. -/
def intersects (a b : StatusMask) : Bool := a.and b ≠ none

end StatusMask

/-- The condition of an endpoint: the statuses that it listens to, the statuses that hold, and
how often it has alerted those attached to it. -/
structure StatusCondition where
  enabled : StatusMask
  active : StatusMask
  alerts : Nat
deriving DecidableEq, Inhabited

namespace StatusCondition

def new : StatusCondition := ⟨.none, .none, 0⟩

/-- A status that is listened to holds. -/
def triggered (c : StatusCondition) : Bool := c.enabled.intersects c.active

/-- Sets what the condition listens to; it alerts if that triggers it. -/
def enable (c : StatusCondition) (m : StatusMask) : StatusCondition :=
  let c := { c with enabled := m }
  if c.triggered then { c with alerts := c.alerts + 1 } else c

/-- Listens to more statuses than so far. -/
def enableAlso (c : StatusCondition) (m : StatusMask) : StatusCondition :=
  c.enable (c.enabled.or m)

/-- Statuses change: an alert goes out for every raise of an enabled bit, also of one that
held already. -/
def raise (c : StatusCondition) (m : StatusMask) : StatusCondition :=
  let c := { c with active := c.active.or m }
  if c.enabled.intersects m then { c with alerts := c.alerts + 1 } else c

def clear (c : StatusCondition) (m : StatusMask) : StatusCondition :=
  { c with active := c.active.without m }

def isActive (c : StatusCondition) (m : StatusMask) : Bool := c.active.contains m

end StatusCondition

/-- A condition that an application triggers itself. -/
structure GuardCondition where
  value : Bool
  alerts : Nat
deriving DecidableEq, Inhabited

namespace GuardCondition

def new : GuardCondition := ⟨false, 0⟩

/-- Sets the trigger value; an alert goes out each time it is set to true. -/
def set (g : GuardCondition) (value : Bool) : GuardCondition :=
  ⟨value, if value then g.alerts + 1 else g.alerts⟩

end GuardCondition

/-- The two kinds of condition. -/
inductive Condition where
  | status (c : StatusCondition)
  | guard (g : GuardCondition)
deriving DecidableEq, Inhabited

namespace Condition

def triggered : Condition → Bool
  | .status c => c.triggered
  | .guard g => g.value

def alerts : Condition → Nat
  | .status c => c.alerts
  | .guard g => g.alerts

/-- What can be done to a condition. -/
inductive Action where
  | raise (m : StatusMask)
  | clear (m : StatusMask)
  | enable (m : StatusMask)
  | set (value : Bool)
deriving DecidableEq, Inhabited

/-- An action on a condition of the other kind does nothing. -/
def act : Condition → Action → Condition
  | .status c, .raise m => .status (c.raise m)
  | .status c, .clear m => .status (c.clear m)
  | .status c, .enable m => .status (c.enable m)
  | .guard g, .set v => .guard (g.set v)
  | c, _ => c

end Condition

end PubSub
