import PubSub.Middleware
import PubSub.Scenario.Program

/-!
Runs the sides of a scenario on a medium. A side that waits is asleep until its condition holds
or its time is over; while every side sleeps, the medium has its next event, or time passes.
-/

namespace PubSub

/-- A side that is being run. While it waits, it knows when its time is over. -/
structure Actor where
  program : Program
  lines : List String
  deadline : Option Nat

namespace Actor

def start (p : Program) : Actor := ⟨p, [], none⟩

/-- The outcome of a side that has come to its end. -/
def outcome? (a : Actor) : Option (Except Failure Unit) :=
  match a.program with
  | .done r => some r
  | _ => none

end Actor

/-- How a medium lets participants in. -/
abbrev Gate (W : Type) := W → Nat → String → Except Fault (W × Nat)

namespace Runner

variable {W : Type} [Middleware W]

/-- A change of the medium that may fail: a failure leaves it as it is. -/
def attempt (w : W) : Except Fault (W × α) → W × Except Fault α
  | .ok (w, a) => (w, .ok a)
  | .error f => (w, .error f)

def groupKind : EndpointKind → EntityKind
  | .writer => .publisher
  | .reader => .subscriber

/-- How a medium answers at once. Waits are not answered here. -/
def answer (gate : Gate W) (w : W) : (q : Request) → W × Except Fault q.Answer
  | .join domain name => attempt w (gate w domain name)
  | .createTopic p name type => (w, Middleware.createTopic w p name type)
  | .createGroup p kind => attempt w (Middleware.createGroup w p (groupKind kind))
  | .createEndpoint p kind g t type q => attempt w (Middleware.createEndpoint w p kind g t type q)
  | .await .. => (w, .ok ())
  | .takeMatched e _ => let (w, s) := Middleware.takeMatched w e; (w, .ok s)
  | .write e v => attempt w (Middleware.write w e v)
  | .dispose e v h => attempt w ((Middleware.dispose w e v h).map (·, ()))
  | .take e max => Middleware.take w e max
  | .delete p => (Middleware.delete w p, .ok ())
  | .leave p => (Middleware.leave w p, .ok ())
  | .rest _ => (w, .ok ())

/-- A side that begins to wait listens to the statuses that can end the wait. -/
def listen (w : W) (e : Guid) (c : WaitCondition) : W :=
  match Middleware.view? w e with
  | some v => Middleware.adjustCondition w e (·.enableAlso (c.mask v.kind))
  | none => w

/-- What a wait has come to at this moment, if it is over. -/
def verdict? (w : W) (e : Guid) (c : WaitCondition) (limit : Span) (deadline : Nat) :
    Option (Except Fault Unit) :=
  match Middleware.view? w e with
  | some v =>
    if c.satisfied v.status then some (.ok ())
    else if deadline ≤ Middleware.now w then some (.error (c.timeout v.kind v.topic v.status limit))
    else none
  | none => some (.error (.deleted .participant))

/-- One step of a side, if it can take one. -/
def step? (gate : Gate W) (w : W) (a : Actor) : Option (W × Actor) :=
  match a.program, a.deadline with
  | .done _, _ => none
  | .say line next, _ => some (w, { a with program := next, lines := a.lines ++ [line] })
  | .reach _ next, _ => some (w, { a with program := next })
  | .ask (.await e c limit) _, none =>
    some (listen w e c, { a with deadline := some (Middleware.now w + limit.nanos) })
  | .ask (.await e c limit) next, some deadline =>
    (verdict? w e c limit deadline).map fun r => (w, ⟨next r, a.lines, none⟩)
  | .ask (.rest span) _, none =>
    some (w, { a with deadline := some (Middleware.now w + span.nanos) })
  | .ask (.rest _) next, some deadline =>
    if deadline ≤ Middleware.now w then some (w, ⟨next (.ok ()), a.lines, none⟩) else none
  | .ask q next, _ => let (w, r) := answer gate w q; some (w, ⟨next r, a.lines, none⟩)

/-- The first of the sides that can take a step takes it. -/
def stepFirst? (gate : Gate W) (w : W) : List Actor → Option (W × List Actor)
  | [] => none
  | a :: rest =>
    match step? gate w a with
    | some (w, a) => some (w, a :: rest)
    | none => (stepFirst? gate w rest).map fun (w, rest) => (w, a :: rest)

/-- Something happens while every side sleeps: the next event of the medium, or, when the time
of a side is over before that, nothing but time passes. -/
def idle (w : W) (deadline : Nat) : W :=
  match Middleware.due? w with
  | some t => if t ≤ deadline then Middleware.advance w else Middleware.passUntil w deadline
  | none => Middleware.passUntil w deadline

/-- Runs the sides until all have come to their ends, for `fuel` steps at most. -/
def run (gate : Gate W) (w : W) (actors : List Actor) : Nat → W × List Actor
  | 0 => (w, actors)
  | fuel + 1 =>
    match stepFirst? gate w actors with
    | some (w, actors) => run gate w actors fuel
    | none =>
      match (actors.filterMap (·.deadline)).min? with
      | some deadline => run gate (idle w deadline) actors fuel
      | none => (w, actors)

/-- More steps than any run takes. -/
def patience : Nat := 1000000000000

end Runner

/-- Runs programs side by side on a medium: the lines that each of them reported and its outcome. -/
def runSides {W : Type} [Middleware W] (gate : Gate W) (w : W) (programs : List Program) :
    W × List (List String × Except Failure Unit) :=
  let (w, actors) := Runner.run gate w (programs.map Actor.start) Runner.patience
  (w, actors.map fun a => (a.lines, a.outcome?.getD (.ok ())))

/-- What two sides come to together: the failure of the first one counts before that of the
second. -/
def combined (first second : Except Failure Unit) : Except Failure Unit := do
  first
  second

/-- A wait of an application on an endpoint, during which the medium goes on. -/
def awaitEndpoint {W : Type} [Middleware W] (w : W) (e : Guid) (c : WaitCondition) (limit : Span) :
    W × Except Fault Unit :=
  let program : Program := .ask (.await e c limit) fun
    | .ok _ => .done (.ok ())
    | .error f => .done (.error ⟨.publisher none, f⟩)
  let (w, sides) := runSides (fun w _ _ => .ok (w, 0)) w [program]
  (w, match sides with
    | [(_, .error failure)] => .error failure.fault
    | _ => .ok ())

end PubSub
