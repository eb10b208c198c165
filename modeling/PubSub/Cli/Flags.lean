import PubSub.Config
import PubSub.Scenario.Catalogue

/-!
The command line: options with one value each, switches, and for some tools a scenario. Words
are read one by one. The value of an option that has been read counts only when the next item
begins, or at the end; faults come in that order.
-/

namespace PubSub.Cli

inductive Transport where
  | udp
  | loopback
deriving DecidableEq, Inhabited

def Transport.name : Transport → String
  | .udp => "udp"
  | .loopback => "loopback"

/-- What the command line says. -/
structure Flags where
  transport : Option Transport
  domain : Option Nat
  matchTimeout : Option Nat
  ackTimeout : Option Nat
  dataTimeout : Option Nat
  lingerMillis : Option Nat
  verbose : Bool
  noColor : Bool
  scenario : Option Entry
deriving DecidableEq, Inhabited

/-- Why a command line is not run: it is wrong, or it asks for help or for the version. -/
inductive Refusal where
  | unknownArgument
  | invalidValue
  | valueValidation
  | argumentConflict
  | tooManyValues
  | displayHelp
  | displayVersion
deriving DecidableEq, Inhabited

namespace Refusal

def name : Refusal → String
  | .unknownArgument => "UnknownArgument"
  | .invalidValue => "InvalidValue"
  | .valueValidation => "ValueValidation"
  | .argumentConflict => "ArgumentConflict"
  | .tooManyValues => "TooManyValues"
  | .displayHelp => "DisplayHelp"
  | .displayVersion => "DisplayVersion"

def exitCode : Refusal → Nat
  | .displayHelp | .displayVersion => 0
  | _ => 2

end Refusal

/-- What takes a value: the options, and the place of the scenario. -/
inductive Slot where
  | transport
  | domain
  | matchTimeout
  | ackTimeout
  | dataTimeout
  | lingerMillis
  | scenario
deriving DecidableEq, Inhabited

inductive Switch where
  | verbose
  | noColor
  | help
  | version
deriving DecidableEq, Inhabited

/-- What a flag stands for. -/
inductive Item where
  | slot (s : Slot)
  | switch (s : Switch)
deriving DecidableEq, Inhabited

def Item.ofLong? (name : String) : Option Item :=
  [("transport", .slot .transport), ("domain", .slot .domain),
    ("match-timeout", .slot .matchTimeout), ("ack-timeout", .slot .ackTimeout),
    ("data-timeout", .slot .dataTimeout), ("linger-ms", .slot .lingerMillis),
    ("verbose", .switch .verbose), ("no-color", .switch .noColor), ("help", .switch .help),
    ("version", .switch .version)].lookup name

def Item.ofShort? (c : Char) : Option Item :=
  [('t', .slot .transport), ('d', .slot .domain), ('v', .switch .verbose), ('h', .switch .help),
    ('V', .switch .version)].lookup c

namespace Flags

def empty : Flags := ⟨none, none, none, none, none, none, false, false, none⟩

/-- A value that is there at most once. -/
def once (old : Option α) (value : Option α) : Except Refusal (Option α) :=
  if old.isSome then .error .argumentConflict
  else if value.isSome then .ok value
  else .error .valueValidation

/-- A number with an optional plus sign, below `bound`. -/
def number? (bound : Nat) (value : String) : Option Nat := Text.natBelow? bound value.toList

/-- As `number?`, and a zero may also have a minus sign. -/
def domain? (value : String) : Option Nat :=
  match value.toList with
  | '-' :: ds => if ds.head? = some '+' then none else Text.natBelow? 1 ds
  | _ => number? UInt32.size value

/-- Fills a slot. A transport that there is not is told from other wrong values. -/
def fill (f : Flags) (slot : Slot) (value : String) : Except Refusal Flags :=
  match slot with
  | .transport =>
    if f.transport.isSome then .error .argumentConflict
    else match [Transport.udp, .loopback].find? (·.name = value) with
      | some t => .ok { f with transport := some t }
      | none => .error .invalidValue
  | .domain => do return { f with domain := ← once f.domain (domain? value) }
  | .matchTimeout => do
    return { f with matchTimeout := ← once f.matchTimeout (number? UInt64.size value) }
  | .ackTimeout => do
    return { f with ackTimeout := ← once f.ackTimeout (number? UInt64.size value) }
  | .dataTimeout => do
    return { f with dataTimeout := ← once f.dataTimeout (number? UInt64.size value) }
  | .lingerMillis => do
    return { f with lingerMillis := ← once f.lingerMillis (number? UInt64.size value) }
  | .scenario => do return { f with scenario := ← once f.scenario (Entry.ofName value).toOption }

/-- Turns a switch, which may be turned once. -/
def turn (f : Flags) : Switch → Except Refusal Flags
  | .verbose => if f.verbose then .error .argumentConflict else .ok { f with verbose := true }
  | .noColor => if f.noColor then .error .argumentConflict else .ok { f with noColor := true }
  | .help => .error .displayHelp
  | .version => .error .displayVersion

end Flags

/-- The state between two words: a slot that was named last waits for its value, or has one that
does not count yet. After a lone `--` every word stands for itself. -/
structure Reading where
  flags : Flags
  takesScenario : Bool
  pending : Option (Slot × Option String)
  trailing : Bool
deriving Inhabited

namespace Reading

def start (takesScenario : Bool) : Reading := ⟨.empty, takesScenario, none, false⟩

/-- The value of the slot that was named last counts from now on. -/
def resolve (r : Reading) : Except Refusal Reading :=
  match r.pending with
  | none => .ok r
  | some (_, none) => .error .invalidValue
  | some (slot, some v) => do return { r with flags := ← r.flags.fill slot v, pending := none }

/-- A slot begins, with its value if that is attached to its name. -/
def beginSlot (r : Reading) (slot : Slot) (attached : Option String) : Except Refusal Reading := do
  let r ← r.resolve
  match attached with
  | some v => return { r with flags := ← r.flags.fill slot v }
  | none => return { r with pending := some (slot, none) }

def turn (r : Reading) (s : Switch) : Except Refusal Reading := do
  let r ← r.resolve
  return { r with flags := ← r.flags.turn s }

/-- A word that begins with two hyphens, without these. -/
def long (r : Reading) (cs : List Char) : Except Refusal Reading :=
  let name := String.ofList (cs.takeWhile (· ≠ '='))
  let attached := match cs.dropWhile (· ≠ '=') with
    | [] => none
    | _ :: v => some (String.ofList v)
  match Item.ofLong? name, attached with
  | some (.slot slot), v => r.beginSlot slot v
  | some (.switch s), none => r.turn s
  | some (.switch _), some _ => .error .tooManyValues
  | none, _ => .error .unknownArgument

/-- A word that begins with one hyphen, without it: switches one after the other, of which the
last may be an option with or without its value. -/
def short (r : Reading) : List Char → Except Refusal Reading
  | [] => .ok r
  | c :: rest =>
    match Item.ofShort? c with
    | some (.switch s) => do (← r.turn s).short rest
    | some (.slot slot) =>
      match rest with
      | [] => r.beginSlot slot none
      | '=' :: v => r.beginSlot slot (some (String.ofList v))
      | v => r.beginSlot slot (some (String.ofList v))
    | none => .error .unknownArgument

/-- Whether the place of the scenario is still free. -/
def awaitsScenario (r : Reading) : Bool :=
  r.takesScenario && r.flags.scenario.isNone && r.pending.map (·.1) ≠ some .scenario

/-- A word that stands for itself: the scenario, or one too many. -/
def plain (r : Reading) (word : String) : Except Refusal Reading :=
  if r.awaitsScenario then do
    return { ← r.resolve with pending := some (.scenario, some word) }
  else .error .unknownArgument

/-- A word that is no flag: a value if a slot waits for one. -/
def value (r : Reading) (word : String) : Except Refusal Reading :=
  match r.pending with
  | some (slot, none) => .ok { r with pending := some (slot, some word) }
  | _ => r.plain word

def step (r : Reading) (word : String) : Except Refusal Reading :=
  if r.trailing then r.plain word
  else match word.toList with
    | ['-', '-'] => .ok { r with trailing := true }
    | '-' :: '-' :: cs => r.long cs
    | ['-'] => r.value word
    | '-' :: cs => r.short cs
    | _ => r.value word

end Reading

/-- The flags that a command line stands for. -/
def Flags.ofArgs (takesScenario : Bool) (args : List String) : Except Refusal Flags := do
  let r ← args.foldlM Reading.step (.start takesScenario)
  return (← r.resolve).flags

/-- The settings with the flags that are given in the place of their values, checked. -/
def Flags.apply (f : Flags) (c : Config) : Except Fault Config := do
  let c : Config :=
    { domain := f.domain.getD c.domain
      matching := (f.matchTimeout.map .ofSecs).getD c.matching
      acknowledgment := (f.ackTimeout.map .ofSecs).getD c.acknowledgment
      data := (f.dataTimeout.map .ofSecs).getD c.data
      linger := (f.lingerMillis.map .ofMillis).getD c.linger }
  c.validate
  return c

/-- The settings of a run: defaults, over them variables, over these flags. -/
def Flags.config (f : Flags) (lookup : String → Option String) : Except Fault Config := do
  f.apply (← Config.default.applyOverrides lookup)

end PubSub.Cli
