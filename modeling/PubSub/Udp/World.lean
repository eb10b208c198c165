import PubSub.Middleware
import PubSub.Udp.Node

/-!
Participants joined by a network of datagrams. What is sent is encoded, travels in one queue, and
is decoded where it arrives: at the participants of a domain, at the data socket of one of them,
or in a mailbox, which keeps datagrams until someone collects them.
-/

namespace PubSub.Udp

inductive Destination where
  | group (domain : Nat)
  | address (a : Address)
deriving DecidableEq, Inhabited

/-- A datagram on its way. -/
structure Datagram where
  source : Address
  destination : Destination
  bytes : ByteArray
deriving Inhabited

/-- A participant on the network, with the times of its next periodic actions. -/
structure Station where
  node : Node
  announceAt : Nat
  retransmitAt : Nat
deriving Inhabited

/-- When a participant does something of its own accord. -/
def Station.due (s : Station) : Nat := min s.announceAt s.retransmitAt

structure World where
  now : Nat
  nextParticipant : Nat
  nextPort : Nat
  stations : Table Nat Station
  mailboxes : Table Nat (List ByteArray)
  flight : List Datagram
deriving Inhabited

/-- How participants are created: their timing, and whether their group is one that can be
joined. -/
structure Scope where
  timing : Timing
  joinable : Bool
deriving DecidableEq, Inhabited

def Scope.default : Scope := ⟨.default, true⟩

namespace World

def firstPort : Nat := 49152

def new : World := ⟨0, 1, firstPort, [], [], []⟩

/-- Participants of this medium are told by the upper sixteen bits of their identities. -/
def idBase : Nat := 0x5544 <<< 48

/-- All sockets are on one host. -/
def here (port : Nat) : Address := ⟨0, port⟩

/-- Sends a text as a datagram. -/
def post (w : World) (source : Nat) (destination : Destination) (text : String) : World :=
  { w with flight := w.flight ++ [⟨here source, destination, text.toUTF8⟩] }

/-- Sends a message from a participant; one that is too long to be encoded is not sent. -/
def dispatch (n : Node) (w : World) (d : Dispatch) : World :=
  let (destination, m) := match d with
    | .group m => (Destination.group n.participant.domain, m)
    | .unicast a m => (.address a, m)
  match Wire.encode m with
  | .ok text => w.post n.dataPort destination text
  | .error _ => w

/-- Puts a participant in place after it has acted, and sends what it has to say. -/
def settleNode (w : World) (acted : Node × List Dispatch) : World :=
  let (n, out) := acted
  let w := { w with stations := w.stations.adjust n.id ({ · with node := n }) }
  out.foldl (dispatch n) w

def node? (w : World) (p : Nat) : Option Node := (w.stations.get? p).map (·.node)

/-- Lets a participant act. -/
def act (w : World) (p : Nat) (f : Node → Node × List Dispatch) : World :=
  match w.node? p with
  | some n => w.settleNode (f n)
  | none => w

def adjust (w : World) (p : Nat) (f : Node → Node) : World := w.act p fun n => (f n, [])

/-- A participant announces itself. -/
def announce (w : World) (p : Nat) : World :=
  w.act p fun n => (n, if n.running then [.group n.announcement] else [])

/-- Every participant of a domain announces itself. -/
def announceAll (w : World) (domain : Nat) : World :=
  (w.stations.values.filter (·.node.participant.domain = domain)).foldl
    (fun w s => w.announce s.node.id) w

def unjoinable : Fault := .creation .participant "discovery socket: Invalid argument (os error 22)"

/-- A new participant, which announces itself at once. -/
def join (w : World) (s : Scope) (domain : Nat) (name : String) : Except Fault (World × Nat) := do
  Config.checkDomain domain
  if !s.joinable then throw unjoinable
  let id := idBase + w.nextParticipant
  let station : Station :=
    { node := .new id domain name w.nextPort s.timing
      announceAt := w.now + s.timing.announce.nanos
      retransmitAt := w.now + s.timing.retransmit.nanos }
  let w := { w with
    nextParticipant := w.nextParticipant + 1
    nextPort := w.nextPort + 1
    stations := w.stations.insertLast id station }
  return (w.announce id, id)

/-- A new mailbox; the answer is its port. -/
def openMailbox (w : World) : World × Nat :=
  ({ w with
      nextPort := w.nextPort + 1
      mailboxes := w.mailboxes.insertLast w.nextPort [] }, w.nextPort)

/-- Empties a mailbox. -/
def collect (w : World) (port : Nat) : World × List ByteArray :=
  ({ w with mailboxes := w.mailboxes.adjust port fun _ => [] },
    (w.mailboxes.get? port).getD [])

/-! ### Arrivals -/

/-- The participants that a message to a group reaches. -/
def audience (w : World) (domain : Nat) : List Nat :=
  (w.stations.values.filter fun s => s.node.running && s.node.participant.domain = domain).map
    (·.node.id)

/-- The participant that reads the data socket of that port. -/
def resident? (w : World) (port : Nat) : Option Nat :=
  (w.stations.values.find? fun s => s.node.running && s.node.dataPort = port).map (·.node.id)

def arrive (w : World) (d : Datagram) : World :=
  match d.destination with
  | .group domain =>
    (w.audience domain).foldl (fun w p => w.act p (·.hearBytes w.now d.source.host d.bytes)) w
  | .address a =>
    match w.resident? a.port with
    | some p => w.act p (·.receiveBytes d.source d.bytes)
    | none => { w with mailboxes := w.mailboxes.adjust a.port (· ++ [d.bytes]) }

/-- The oldest datagram arrives. -/
def deliver (w : World) : World :=
  match w.flight with
  | [] => w
  | d :: rest => { w with flight := rest }.arrive d

/-- Delivers until nothing is on its way, `count` datagrams at most. -/
def deliverAll (w : World) : Nat → World
  | 0 => w
  | count + 1 => if w.flight.isEmpty then w else w.deliver.deliverAll count

/-- More datagrams than any step can set in motion. -/
def patience : Nat := 1000000000

/-- Everything on its way arrives, and so does what is sent in answer to it. -/
def settle (w : World) : World := w.deliverAll patience

/-! ### Time -/

def due? (w : World) : Option Nat :=
  if w.flight.isEmpty then
    ((w.stations.values.filter (·.node.running)).map Station.due).min?.map (max w.now)
  else some w.now

def passUntil (w : World) (t : Nat) : World := { w with now := max w.now t }

/-- The periodic announcement of a participant, after which it looks for leases that ran out. -/
def beat (w : World) (p : Nat) : World :=
  let w := (w.announce p).act p (·.expire w.now)
  { w with stations := w.stations.adjust p fun s =>
      { s with announceAt := w.now + s.node.timing.announce.nanos } }

/-- The periodic retransmission of a participant. -/
def retransmit (w : World) (p : Nat) : World :=
  let w := w.act p fun n => (n, n.retransmission)
  { w with stations := w.stations.adjust p fun s =>
      { s with retransmitAt := w.now + s.node.timing.retransmit.nanos } }

/-- The next event: all arrivals, before anybody who waits for one of them goes on, or what a
participant does of its own accord. -/
def advance (w : World) : World :=
  if w.flight.isEmpty then
    match w.due? with
    | none => w
    | some t =>
      let w := w.passUntil t
      match w.stations.values.find? fun s => s.node.running && s.due ≤ t with
      | some s => if s.announceAt ≤ t then w.beat s.node.id else w.retransmit s.node.id
      | none => w
  else w.settle

/-- Does something with a participant that may fail. -/
def within (w : World) (p : Nat) (absent : Fault)
    (f : Node → Except Fault ((Node × List Dispatch) × α)) : Except Fault (World × α) :=
  match w.node? p with
  | some n => do let (acted, a) ← f n; return (w.settleNode acted, a)
  | none => .error absent

end World

instance : Middleware World where
  participant? w p := (w.node? p).map (·.participant)
  writer? w g := ((w.node? g.participant).bind (·.writers.get? g)).map (·.writer)
  reader? w g := ((w.node? g.participant).bind (·.readers.get? g)).map (·.reader)
  adjustWriter w g f :=
    w.adjust g.participant (·.adjustWriter g fun x => { x with writer := f x.writer })
  adjustReader w g f :=
    w.adjust g.participant (·.adjustReader g fun y => { y with reader := f y.reader })
  createGroup w p kind := w.within p (.deleted .participant) fun n => do
    let (n, g) ← n.createGroup kind
    return ((n, []), g)
  createEndpoint w p kind g t type q :=
    w.within p (.deleted .participant) (·.createEndpoint kind g t type q)
  write w g v := w.within g.participant (.deleted .writer) (·.write g v)
  dispose w g v h := do
    let (w, ()) ← w.within g.participant (.deleted .writer) fun n => do
      return (← n.dispose g v h, ())
    return w
  close w g := w.act g.participant (·.close g)
  delete w p := w.act p (·.delete)
  leave w p := w.act p (·.leave)
  now := World.now
  due? := World.due?
  advance := World.advance
  passUntil := World.passUntil
  settle := World.settle

end PubSub.Udp
