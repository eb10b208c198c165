import PubSub.Condition
import PubSub.Scenario.Program

/-!
A medium that behaves as a script says. It never makes anybody wait: a wait succeeds if the
status of the current stage satisfies it, and the stage moves on with every status query,
every change written and every take.
-/

namespace PubSub

namespace Request

/-- The name of a request that a script can make fail. -/
def name : Request → String
  | .join .. => "create_participant"
  | .createTopic .. => "create_topic"
  | .createGroup _ .writer => "create_publisher"
  | .createGroup _ .reader => "create_subscriber"
  | .createEndpoint _ .writer .. => "create_writer"
  | .createEndpoint _ .reader .. => "create_reader"
  | .await .. => "await"
  | .takeMatched _ .writer => "publication_matched_status"
  | .takeMatched _ .reader => "subscription_matched_status"
  | .write .. => "write"
  | .dispose .. => "dispose"
  | .take .. => "take"
  | .delete _ => "delete_contained_entities"
  | .leave _ => "leave"
  | .rest _ => "rest"

/-- The line of a request in the log; waiting and leaving are not logged. -/
def logLine? (q : Request) : Option String :=
  match q with
  | .join domain n => s!"{q.name} {domain} {n}"
  | .createTopic _ n type => s!"{q.name} {n} {type.name}"
  | .createEndpoint _ _ _ t _ qos => s!"{q.name} {t.name} {qos.toJson.text}"
  | .write _ v => s!"{q.name} {v.toJson.text}"
  | .dispose _ v handle => s!"{q.name} {v.toJson.text} {handle}"
  | .take _ max => s!"{q.name} {max}"
  | .await .. | .leave _ | .rest _ => none
  | _ => q.name

end Request

/-- What a scripted medium does. A request in `failures` fails every time. -/
structure Script where
  failures : List (String × Fault)
  stages : List EndpointStatus
  matched : MatchedStatus
  takes : List (Except Fault (List (Sample Value)))

namespace Script

/-- What a run on a scripted medium has come to. -/
structure Record where
  stage : Nat
  takes : List (Except Fault (List (Sample Value)))
  endpoint : EndpointKind × String
  enabled : StatusMask
  log : List String
  lines : List String

def start (s : Script) : Record := ⟨0, s.takes, (.writer, ""), .none, [], []⟩

/-- The status of a stage; the last one lasts. -/
def status (s : Script) (stage : Nat) : EndpointStatus :=
  (s.stages[stage]?.or s.stages.getLast?).getD .empty

def fault? (s : Script) (q : Request) : Option Fault :=
  (s.failures.find? (·.1 = q.name)).map (·.2)

/-- The participant of a scripted medium. -/
def participantId : Nat := 7

def guid : Guid := ⟨participantId, 2⟩

/-- How a request is answered that has not been made to fail. -/
def answer (s : Script) (r : Record) : (q : Request) → Record × Except Fault q.Answer
  | .join .. => (r, .ok participantId)
  | .createTopic p n type => (r, .ok ⟨n, type.name, p⟩)
  | .createGroup p _ => (r, .ok ⟨p, 1⟩)
  | .createEndpoint _ kind _ t _ _ => ({ r with endpoint := (kind, t.name) }, .ok guid)
  | .await _ c limit =>
    let (kind, topic) := r.endpoint
    let now := s.status r.stage
    ({ r with enabled := r.enabled.or (c.mask kind) }, c.verdict kind topic limit now now)
  | .takeMatched .. => ({ r with stage := r.stage + 1 }, .ok s.matched)
  | .write _ v => ({ r with stage := r.stage + 1 }, .ok v.key.handle)
  | .dispose .. => ({ r with stage := r.stage + 1 }, .ok ())
  | .take .. =>
    ({ r with stage := r.stage + 1, takes := r.takes.tail }, r.takes.head?.getD (.ok []))
  | .delete _ => (r, .ok ())
  | .leave _ => (r, .ok ())
  | .rest _ => (r, .ok ())

def serve (s : Script) (r : Record) (q : Request) : Record × Except Fault q.Answer :=
  let r := { r with log := r.log ++ q.logLine?.toList }
  match s.fault? q with
  | some f => (r, .error f)
  | none => s.answer r q

/-- Runs a program to its end. -/
def run (s : Script) (r : Record) : Program → Record × Except Failure Unit
  | .done outcome => (r, outcome)
  | .say line next => s.run { r with lines := r.lines ++ [line] } next
  | .reach _ next => s.run r next
  | .ask q next => let (r, a) := s.serve r q; s.run r (next a)

end Script

end PubSub
