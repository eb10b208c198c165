import PubSub.Endpoint.Participant
import PubSub.Endpoint.Reader
import PubSub.Endpoint.Writer

/-!
A domain within one process. Open endpoints are listed by topic and type. Those of one list are
bound as soon as both are there and their qualities of service allow it, and every change for a
bound reader becomes a job. Jobs run in the order in which they were submitted, none sooner than
the latency of the domain after that; a paused domain keeps its jobs.
-/

namespace PubSub.Loopback

/-- A change on its way to a reader; it arrives no sooner than `due`. -/
structure Job where
  due : Nat
  writer : Guid
  out : Outgoing
deriving Inhabited

/-- An endpoint as it is listed while it is open. -/
structure Entry where
  guid : Guid
  kind : EndpointKind
  qos : Qos
deriving DecidableEq, Inhabited

/-- A domain of one registry. Closed endpoints stay in their tables, in the order of creation; the
entries are those of the open ones by their keys, in the order in which they were listed. -/
structure Domain where
  registry : Nat
  id : Nat
  latency : Span
  clock : Nat
  paused : Bool
  participants : Table Nat Participant
  writers : Table Guid Writer
  readers : Table Guid Reader
  entries : Table MatchKey (List Entry)
  queue : List Job
deriving Inhabited

namespace Domain

def new (registry id : Nat) (latency : Span) (clock : Nat) : Domain :=
  { registry, id, latency, clock, paused := false, participants := [], writers := [],
    readers := [], entries := [], queue := [] }

/-- A domain lives as long as one of its participants has not left. -/
def live (d : Domain) : Bool := d.participants.values.any (!·.left)

def adjustWriter (d : Domain) (w : Guid) (f : Writer → Writer) : Domain :=
  { d with writers := d.writers.adjust w f }

def adjustReader (d : Domain) (r : Guid) (f : Reader → Reader) : Domain :=
  { d with readers := d.readers.adjust r f }

/-- The entries of a key. -/
def listed (d : Domain) (key : MatchKey) : List Entry := (d.entries.get? key).getD []

/-- The endpoints of one kind that are listed with a key. -/
def listedOf (d : Domain) (kind : EndpointKind) (key : MatchKey) : List Entry :=
  (d.listed key).filter (·.kind = kind)

/-- The writers that are listed with a key. -/
def openWriters (d : Domain) (key : MatchKey) : List Guid := (d.listedOf .writer key).map (·.guid)

/-- The readers that are listed with a key. -/
def openReaders (d : Domain) (key : MatchKey) : List Guid := (d.listedOf .reader key).map (·.guid)

/-- How many endpoints are listed. -/
def endpointCount (d : Domain) : Nat := d.entries.values.flatten.length

/-- The domain as messages show it. -/
def text (d : Domain) : String :=
  s!"DomainState \x7b domain_id: {d.id}, endpoint_count: {d.endpointCount} \x7d"

/-- Queues the changes of a writer behind all jobs; a change for a reader that has been unbound
since it was made is not sent. -/
def submit (d : Domain) (w : Guid) (out : List Outgoing) : Domain :=
  match d.writers.get? w with
  | none => d
  | some x =>
    let bound := out.filter (x.history.isMatched ·.reader)
    { d with queue := d.queue ++ bound.map fun o => ⟨d.clock + d.latency.nanos, w, o⟩ }

/-- The writer's half of a binding: it has one more reader, to which it may owe a replay. -/
def writerBound (x : Writer) (r : Guid) (qos : Qos) : Writer × List Outgoing :=
  let (x, out) := x.addReader r qos
  (x.notePending.raise .publicationMatched, out)

def writerUnbound (x : Writer) (r : Guid) : Writer :=
  if x.history.isMatched r then
    let x := x.removeReader r
    x.raise x.readerLost
  else x

def readerBound (y : Reader) (w : Guid) (reliable : Bool) : Reader :=
  if y.cache.hasWriter w then y else (y.addWriter w reliable).raise .subscriptionMatched

def readerUnbound (y : Reader) (w : Guid) : Reader :=
  match y.removeWriter w with
  | some (y, changed) => y.raise changed
  | none => y

/-- Binds a writer and a reader: the reader first, so that it takes in what is replayed. -/
def bind (d : Domain) (w r : Guid) : Domain :=
  match d.writers.get? w, d.readers.get? r with
  | some x, some y =>
    let (x', out) := writerBound x r y.qos
    ((d.adjustReader r (readerBound · w x.qos.isReliable)).adjustWriter w fun _ => x').submit w out
  | _, _ => d

/-- What two endpoints with one key do: they are bound, or each notes that it cannot have the
other. -/
def meet (d : Domain) (w : Guid) (offered : Qos) (r : Guid) (requested : Qos) : Domain :=
  match Qos.conflict? offered requested with
  | some p => (d.adjustWriter w (·.refuse p)).adjustReader r (·.refuse p)
  | none => d.bind w r

/-- Sets the entries of a key; a key without entries is not kept. -/
def setListed (d : Domain) (key : MatchKey) (es : List Entry) : Domain :=
  { d with
    entries := if es.isEmpty then d.entries.erase key else d.entries.put (fun _ _ => false) key es }

/-- Lists an endpoint behind the others of its key. -/
def enlist (d : Domain) (key : MatchKey) (e : Entry) : Domain :=
  d.setListed key (d.listed key ++ [e])

/-- A new writer meets the readers that are listed, and is listed itself. -/
def addWriter (d : Domain) (x : Writer) : Domain :=
  let d := { d with writers := d.writers.insertLast x.guid x }
  let d := (d.listedOf .reader x.key).foldl (fun d e => d.meet x.guid x.qos e.guid e.qos) d
  d.enlist x.key ⟨x.guid, .writer, x.qos⟩

/-- A new reader meets the writers that are listed, and is listed itself. -/
def addReader (d : Domain) (y : Reader) : Domain :=
  let d := { d with readers := d.readers.insertLast y.guid y }
  let d := (d.listedOf .writer y.key).foldl (fun d e => d.meet e.guid e.qos y.guid y.qos) d
  d.enlist y.key ⟨y.guid, .reader, y.qos⟩

/-- What a listed endpoint does when one that was listed with it goes: nothing, if the two are of
one kind. -/
def part (d : Domain) (gone peer : Entry) : Domain :=
  match gone.kind, peer.kind with
  | .writer, .reader => d.adjustReader peer.guid (readerUnbound · gone.guid)
  | .reader, .writer => d.adjustWriter peer.guid (writerUnbound · gone.guid)
  | _, _ => d

/-- Takes an endpoint off the entries of its key, and those that stay lose it. -/
def unlist (d : Domain) (key : MatchKey) (g : Guid) : Domain :=
  match (d.listed key).find? (·.guid = g) with
  | some e =>
    let rest := (d.listed key).eraseP (·.guid = g)
    (rest.foldl (fun d peer => d.part e peer) d).setListed key rest
  | none => d

/-- Closes a writer: it keeps what it knows, and its readers lose it. -/
def closeWriter (d : Domain) (w : Guid) : Domain :=
  match d.writers.get? w with
  | some x =>
    if x.isOpen then (d.adjustWriter w ({ · with isOpen := false })).unlist x.key w else d
  | none => d

/-- Closes a reader: it keeps what it knows, and its writers lose it. -/
def closeReader (d : Domain) (r : Guid) : Domain :=
  match d.readers.get? r with
  | some y =>
    if y.isOpen then (d.adjustReader r ({ · with isOpen := false })).unlist y.key r else d
  | none => d

def close (d : Domain) (g : Guid) : Domain := (d.closeWriter g).closeReader g

/-! ### Participants and their entities -/

def addParticipant (d : Domain) (id : Nat) (name : String) : Domain :=
  { d with participants := d.participants.insertLast id (.new id d.id name) }

/-- The participant of that identity. -/
def participant (d : Domain) (p : Nat) : Except Fault Participant :=
  match d.participants.get? p with
  | some x => .ok x
  | none => .error (.deleted .participant)

def setParticipant (d : Domain) (x : Participant) : Domain :=
  { d with participants := d.participants.adjust x.id fun _ => x }

def createGroup (d : Domain) (p : Nat) (kind : EntityKind) : Except Fault (Domain × Group) := do
  let (x, g) ← (← d.participant p).createGroup kind
  return (d.setParticipant x, g)

def createEndpoint (d : Domain) (p : Nat) (kind : EndpointKind) (g : Group) (t : Topic)
    (type : SampleType) (q : Qos) : Except Fault (Domain × Guid) := do
  let (x, guid) ← (← d.participant p).createEndpoint kind g t type q
  let d := d.setParticipant x
  match kind with
  | .writer => return (d.addWriter (.new guid t.name type q), guid)
  | .reader => return (d.addReader (.new guid t.name type q), guid)

/-- Closes all endpoints of a participant, its writers first; it creates nothing any more. -/
def delete (d : Domain) (p : Nat) : Domain :=
  let d := { d with participants := d.participants.adjust p ({ · with deleted := true }) }
  let d := (d.writers.keys.filter (·.participant = p)).foldl closeWriter d
  (d.readers.keys.filter (·.participant = p)).foldl closeReader d

/-- A participant leaves for good. -/
def leave (d : Domain) (p : Nat) : Domain :=
  let d := d.delete p
  { d with participants := d.participants.adjust p ({ · with left := true }) }

/-! ### Changes and their delivery -/

/-- The writer of that identity if it is open. -/
def openWriter (d : Domain) (w : Guid) : Except Fault Writer :=
  match d.writers.get? w with
  | some x => do x.checkOpen; return x
  | none => .error (.deleted .writer)

/-- A writer appends a sample to its history; the changes it made are yet to be submitted. -/
def append (d : Domain) (w : Guid) (v : Value) : Except Fault (Domain × List Outgoing) := do
  let (x, out) := (← d.openWriter w).write v
  return (d.adjustWriter w fun _ => x, out)

/-- A writer appends the end of an instance; the changes it made are yet to be submitted. -/
def appendDisposal (d : Domain) (w : Guid) (v : Value) (handle : Handle) :
    Except Fault (Domain × List Outgoing) := do
  let (x, out) ← (← d.openWriter w).dispose v handle
  return (d.adjustWriter w fun _ => x, out)

def write (d : Domain) (w : Guid) (v : Value) : Except Fault (Domain × Handle) := do
  let (d, out) ← d.append w v
  return (d.submit w out, v.key.handle)

def dispose (d : Domain) (w : Guid) (v : Value) (handle : Handle) : Except Fault Domain := do
  let (d, out) ← d.appendDisposal w v handle
  return d.submit w out

/-- A job runs: the change arrives at its reader, and the acknowledgment at the writer. -/
def run (d : Domain) (j : Job) : Domain :=
  match d.readers.get? j.out.reader with
  | none => d
  | some y =>
    let (y, acked) := y.receive j.writer j.out.number j.out.change
    let d := d.adjustReader j.out.reader fun _ => y
    match acked with
    | some n => d.adjustWriter j.writer (·.acknowledge j.out.reader n)
    | none => d

/-- Runs the oldest job. -/
def deliver (d : Domain) : Domain :=
  match d.queue with
  | [] => d
  | j :: rest => { d with queue := rest }.run j

/-- When the next job runs, if nothing is done meanwhile. -/
def due? (d : Domain) : Option Nat := if d.paused then none else d.queue.head?.map (·.due)

/-- Runs the jobs at the head of the queue that are due at a time; none of them submits
another. -/
def deliverDue (d : Domain) (t : Nat) : Domain :=
  if d.paused then d else (d.queue.takeWhile (·.due ≤ t)).foldl (fun d _ => d.deliver) d

/-- Runs all jobs of a domain that is not paused. -/
def settle (d : Domain) : Domain :=
  if d.paused then d else d.queue.foldl (fun d _ => d.deliver) d

end Domain

end PubSub.Loopback
