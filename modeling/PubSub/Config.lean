import PubSub.Fault
import PubSub.Text.Blank
import PubSub.Text.Quoted

/-!
The settings of a run: its domain, how long it waits for what, and how long a subscriber
lingers. Settings can be overridden by named variables and are checked before they are used.
-/

namespace PubSub

/-- The settings of a run. -/
structure Config where
  domain : Nat
  matching : Span
  acknowledgment : Span
  data : Span
  linger : Span
deriving DecidableEq, Inhabited

namespace Config

def default : Config := ⟨0, .ofSecs 60, .ofSecs 30, .ofSecs 30, .ofMillis 500⟩

/-- One timeout for everything and a short linger. -/
def quick (timeout : Span) : Config := ⟨0, timeout, timeout, timeout, .ofMillis 50⟩

def maxDomain : Nat := 232

/-- A timeout beyond this is a mistake. -/
def maxTimeout : Span := .ofSecs 86400

def checkDomain (id : Nat) : Except Fault Unit :=
  if maxDomain < id then .error (.domainRange id) else .ok ()

/-- The port on which the participants of a domain find each other. -/
def discoveryPort (domain : Nat) : Except Fault Nat := do
  checkDomain domain
  return 7400 + 250 * domain + 9

def checkTimeout (name : String) (t : Span) : Except Fault Unit :=
  if t = .zero then .error (.config s!"{name} timeout must be > 0")
  else if maxTimeout < t then
    .error (.config s!"{name} timeout {t.text} exceeds {maxTimeout.text}")
  else .ok ()

def checkLinger (t : Span) : Except Fault Unit :=
  if maxTimeout < t then .error (.config s!"linger {t.text} exceeds {maxTimeout.text}")
  else .ok ()

/-- The first thing that is wrong with the settings, in the order of their fields. -/
def validate (c : Config) : Except Fault Unit := do
  checkDomain c.domain
  checkTimeout "match" c.matching
  checkTimeout "acknowledgment" c.acknowledgment
  checkTimeout "data" c.data
  checkLinger c.linger

def domainVar : String := "DDS_INTEROP_DOMAIN"
def matchVar : String := "DDS_INTEROP_MATCH_TIMEOUT_SECS"
def ackVar : String := "DDS_INTEROP_ACK_TIMEOUT_SECS"
def dataVar : String := "DDS_INTEROP_DATA_TIMEOUT_SECS"

/-- The number that a variable holds, blanks around it aside. -/
def readVar (bound : Nat) (name value : String) : Except Fault Nat :=
  match Text.natBelow? bound (Text.trim value.toList) with
  | some n => .ok n
  | none => .error (.config s!"{name}={Text.quoted value} is not a valid number")

/-- What a variable makes of a setting. -/
def override (lookup : String → Option String) (bound : Nat) (name : String) (old : α)
    (set : Nat → α) : Except Fault α :=
  match lookup name with
  | some v => do return set (← readVar bound name v)
  | none => .ok old

/-- The settings with the variables that are set in the place of their values, checked. -/
def applyOverrides (c : Config) (lookup : String → Option String) : Except Fault Config := do
  let domain ← override lookup UInt32.size domainVar c.domain id
  let matching ← override lookup UInt64.size matchVar c.matching .ofSecs
  let acknowledgment ← override lookup UInt64.size ackVar c.acknowledgment .ofSecs
  let data ← override lookup UInt64.size dataVar c.data .ofSecs
  let c := { c with domain, matching, acknowledgment, data }
  c.validate
  return c

end Config

end PubSub
