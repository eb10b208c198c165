import PubSub.Cli.Flags
import PubSub.Loopback.World
import PubSub.Scenario.Runner
import PubSub.Udp.World

/-!
The command line tools: each runs one side of one scenario, or both sides of one or of all
scenarios.
-/

namespace PubSub.Cli

/-- The sides of a scenario that are run. -/
inductive Role where
  | publisher
  | subscriber
  | pair
deriving DecidableEq, Inhabited

def Role.name : Role → String
  | .publisher => "publisher"
  | .subscriber => "subscriber"
  | .pair => "pair"

/-- A tool: one that runs both sides takes the scenario from the command line. -/
inductive Tool where
  | side (role : Role) (entry : Entry)
  | both
deriving DecidableEq, Inhabited

namespace Tool

def ofName? (name : String) : Option Tool :=
  [("interop_publisher", .side .publisher .helloWorld),
    ("interop_subscriber", .side .subscriber .helloWorld),
    ("interop_publisher_dispose", .side .publisher .dispose),
    ("interop_subscriber_dispose", .side .subscriber .dispose),
    ("interop_publisher_nested", .side .publisher .nestedSequence),
    ("interop_subscriber_nested", .side .subscriber .nestedSequence),
    ("interop_loopback", both)].lookup name

def takesScenario (t : Tool) : Bool := t = .both

def role : Tool → Role
  | .side role _ => role
  | .both => .pair

def defaultTransport : Tool → Transport
  | .side .. => .udp
  | .both => .loopback

def entries : Tool → Flags → List Entry
  | .side _ e, _ => [e]
  | .both, f => (f.scenario.map ([·])).getD Entry.all

end Tool

/-- The lines that the two sides reported. -/
structure Lines where
  publisher : List String
  subscriber : List String
deriving DecidableEq, Inhabited

def Lines.append (a b : Lines) : Lines :=
  ⟨a.publisher ++ b.publisher, a.subscriber ++ b.subscriber⟩

/-- Runs one or both sides of a scenario on a medium. -/
def runRole [Middleware W] (gate : Gate W) (w : W) (role : Role) (s : Scenario) (c : Config) :
    W × Lines × Except Failure Unit :=
  match role with
  | .publisher =>
    match runSides gate w [s.publisher c] with
    | (w, [(lines, r)]) => (w, ⟨lines, []⟩, r)
    | (w, _) => (w, ⟨[], []⟩, .ok ())
  | .subscriber =>
    match runSides gate w [s.subscriber c] with
    | (w, [(lines, r)]) => (w, ⟨[], lines⟩, r)
    | (w, _) => (w, ⟨[], []⟩, .ok ())
  | .pair =>
    match runSides gate w [s.publisher c, s.subscriber c] with
    | (w, [(ps, p), (ss, s)]) => (w, ⟨ps, ss⟩, combined s p)
    | (w, _) => (w, ⟨[], []⟩, .ok ())

/-- Runs a scenario on a new medium of that kind. -/
def runOn (t : Transport) (role : Role) (s : Scenario) (c : Config) :
    Lines × Except Failure Unit :=
  match t with
  | .loopback => (runRole (fun w => w.join ⟨0, .zero⟩) Loopback.World.new role s c).2
  | .udp => (runRole (fun w => w.join .default) Udp.World.new role s c).2

/-- Runs scenarios one after the other, up to the first failure. -/
def runAll (t : Transport) (role : Role) (c : Config) : List Entry → Lines × Except Failure Unit
  | [] => (⟨[], []⟩, .ok ())
  | e :: rest =>
    match runOn t role e.scenario c with
    | (lines, .ok ()) => let (more, r) := runAll t role c rest; (lines.append more, r)
    | (lines, .error f) => (lines, .error f)

/-- What a tool comes to. -/
inductive Exit where
  | refused (r : Refusal)
  /-- The settings were rejected before anything was created. -/
  | rejected (f : Fault)
  | ran (lines : Lines) (outcome : Except Failure Unit)

namespace Exit

def code : Exit → Nat
  | .refused r => r.exitCode
  | .rejected f => f.exitCode
  | .ran _ (.ok ()) => 0
  | .ran _ (.error f) => f.exitCode

def lines : Exit → Lines
  | .ran lines _ => lines
  | _ => ⟨[], []⟩

/-- The line that reports what went wrong. -/
def errorLine? : Exit → Option String
  | .rejected f => some s!"Error: {f.message}"
  | .ran _ (.error f) => some s!"Error: {f.message}"
  | _ => none

/-- Whether the arguments were wrong. -/
def isUsageError : Exit → Bool
  | .refused r => r.exitCode ≠ 0
  | _ => false

end Exit

/-- A side on its own has no peer within its process. -/
def loneSide (role : Role) : Fault :=
  .config s!"the loopback transport has no peer for a standalone {role.name}"

/-- Runs a tool with its arguments and the variables that are set. -/
def Tool.run (t : Tool) (args : List String) (lookup : String → Option String) : Exit :=
  match Flags.ofArgs t.takesScenario args with
  | .error r => .refused r
  | .ok flags =>
    let transport := flags.transport.getD t.defaultTransport
    match flags.config lookup with
    | .error f => .rejected f
    | .ok c =>
      if transport = .loopback ∧ t.role ≠ .pair then .rejected (loneSide t.role)
      else
        let (lines, outcome) := runAll transport t.role c (t.entries flags)
        .ran lines outcome

end PubSub.Cli
