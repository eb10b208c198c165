import PubSub.Endpoint.Participant
import PubSub.Endpoint.Reader
import PubSub.Endpoint.Writer
import PubSub.Wire

/-!
A participant that finds its peers by announcements. It keeps what each remote participant has
announced last, for as long as the lease of that participant runs, and brings the matches of its
own endpoints in line with that whenever it changes. Endpoints of one participant never match
each other.
-/

namespace PubSub.Udp

/-- Where a socket is reached. -/
structure Address where
  host : Nat
  port : Nat
deriving DecidableEq, Inhabited

/-- How often a participant announces itself and sends again, and how long it may be silent. -/
structure Timing where
  announce : Span
  lease : Span
  retransmit : Span
deriving DecidableEq, Inhabited

def Timing.default : Timing := ⟨.ofMillis 250, .ofSecs 10, .ofMillis 100⟩

/-- What is known of another participant. -/
structure Remote where
  address : Address
  lastSeen : Nat
  lease : Span
  endpoints : List Announcement
deriving DecidableEq, Inhabited

/-- A local writer, with the address of every reader that it has and the readers that it has
refused. -/
structure LinkedWriter where
  writer : Writer
  addresses : Table Guid Address
  refused : List Guid
deriving Inhabited

/-- A local reader, with the writers that it has refused. -/
structure LinkedReader where
  reader : Reader
  refused : List Guid
deriving Inhabited

/-- A message to be sent: to the group of the domain, or to one address. -/
inductive Dispatch where
  | group (m : Message)
  | unicast (a : Address) (m : Message)
deriving Inhabited

/-- A participant with its endpoints, closed ones included, in the order of creation. -/
structure Node where
  participant : Participant
  dataPort : Nat
  timing : Timing
  writers : Table Guid LinkedWriter
  readers : Table Guid LinkedReader
  remotes : Table Nat Remote
deriving Inhabited

/-! ### Matching -/

/-- An endpoint that some remote participant announces. -/
structure Candidate where
  endpoint : Announcement
  address : Address
deriving DecidableEq, Inhabited

/-- What a writer wants to have: its readers, each with its address. -/
abbrev WantedReaders := Table Guid (Address × Qos)

namespace LinkedWriter

def announcement (x : LinkedWriter) : Announcement :=
  ⟨x.writer.guid, .writer, x.writer.key.topic, x.writer.type.name, x.writer.qos⟩

/-- Notes a reader that cannot be had; it counts once, however often it is announced. -/
def refuse (x : LinkedWriter) (c : Candidate) : LinkedWriter :=
  match Qos.conflict? x.writer.qos c.endpoint.qos with
  | some p =>
    if x.refused.contains c.endpoint.guid then x
    else { x with writer := x.writer.refuse p, refused := c.endpoint.guid :: x.refused }
  | none => x

def wanted (x : LinkedWriter) (cs : List Candidate) : WantedReaders :=
  (cs.filter fun c => Qos.compatible x.writer.qos c.endpoint.qos).foldl
    (fun t c => t.put Guid.before c.endpoint.guid (c.address, c.endpoint.qos)) []

def drop (x : LinkedWriter) (r : Guid) : LinkedWriter :=
  { x with writer := x.writer.removeReader r, addresses := x.addresses.erase r }

def gain (x : LinkedWriter) (r : Guid) (a : Address) (q : Qos) : LinkedWriter × List Outgoing :=
  let (writer, out) := x.writer.addReader r q
  ({ x with writer, addresses := x.addresses.put Guid.before r a }, out)

/-- The status bits after a change of the matches. -/
def settleStatus (w : Writer) (changed : StatusMask) : Writer :=
  if w.history.allAcknowledged then w.raise (changed.or .acknowledged)
  else (w.clear .acknowledged).raise changed

/-- Has exactly the wanted readers from now on. Readers that it has already keep their proxies,
new ones may be owed a replay. -/
def sync (x : LinkedWriter) (wanted : WantedReaders) : LinkedWriter × List Outgoing :=
  let stale := x.addresses.keys.filter (!wanted.has ·)
  let fresh := wanted.filter (!x.addresses.has ·.1)
  let (x, replay) := fresh.foldl
    (fun (x, out) (r, a, q) => let (x, more) := x.gain r a q; (x, out ++ more))
    (stale.foldl drop x, [])
  let changed : StatusMask :=
    if stale.isEmpty && fresh.isEmpty then .none else .publicationMatched
  ({ x with writer := settleStatus x.writer changed }, replay)

/-- The messages that carry changes to the readers at their addresses. -/
def address (x : LinkedWriter) (out : List Outgoing) : List Dispatch :=
  out.filterMap fun o => (x.addresses.get? o.reader).map fun a =>
    .unicast a (.data x.writer.guid o.reader o.number o.change)

end LinkedWriter

namespace LinkedReader

def announcement (y : LinkedReader) : Announcement :=
  ⟨y.reader.guid, .reader, y.reader.key.topic, y.reader.type.name, y.reader.qos⟩

/-- Notes a writer that cannot be had; it counts once, however often it is announced. -/
def refuse (y : LinkedReader) (c : Candidate) : LinkedReader :=
  match Qos.conflict? c.endpoint.qos y.reader.qos with
  | some p =>
    if y.refused.contains c.endpoint.guid then y
    else { reader := y.reader.refuse p, refused := c.endpoint.guid :: y.refused }
  | none => y

/-- The writers to have, each with whether it is reliable. -/
def wanted (y : LinkedReader) (cs : List Candidate) : Table Guid Bool :=
  (cs.filter fun c => Qos.compatible c.endpoint.qos y.reader.qos).foldl
    (fun t c => t.put Guid.before c.endpoint.guid c.endpoint.qos.isReliable) []

/-- Loses a writer, and collects the statuses that change by it. -/
def drop (s : Reader × StatusMask) (w : Guid) : Reader × StatusMask :=
  match s.1.removeWriter w with
  | some (r, changed) => (r, s.2.or changed)
  | none => s

def gain (s : Reader × StatusMask) (e : Guid × Bool) : Reader × StatusMask :=
  (s.1.addWriter e.1 e.2, s.2.or .subscriptionMatched)

/-- Has exactly the wanted writers from now on. -/
def sync (y : LinkedReader) (wanted : Table Guid Bool) : LinkedReader :=
  let stale := y.reader.cache.matchedWriters.filter (!wanted.has ·)
  let fresh := wanted.filter (!y.reader.cache.hasWriter ·.1)
  let (r, changed) := fresh.foldl gain (stale.foldl drop (y.reader, .none))
  { y with reader := r.raise changed }

end LinkedReader

namespace Node

def new (id domain : Nat) (name : String) (dataPort : Nat) (timing : Timing) : Node :=
  ⟨.new id domain name, dataPort, timing, [], [], []⟩

def id (n : Node) : Nat := n.participant.id

/-- A participant that has left neither hears nor says anything. -/
def running (n : Node) : Bool := !n.participant.left

def adjustWriter (n : Node) (w : Guid) (f : LinkedWriter → LinkedWriter) : Node :=
  { n with writers := n.writers.adjust w f }

def adjustReader (n : Node) (r : Guid) (f : LinkedReader → LinkedReader) : Node :=
  { n with readers := n.readers.adjust r f }

def openWriters (n : Node) : List LinkedWriter := n.writers.values.filter (·.writer.isOpen)

def openReaders (n : Node) : List LinkedReader := n.readers.values.filter (·.reader.isOpen)

/-- The open endpoints, as they are advertised. -/
def announcements (n : Node) : List Announcement :=
  n.openWriters.map LinkedWriter.announcement ++ n.openReaders.map LinkedReader.announcement

/-- The lease in milliseconds, as far as it fits the message. -/
def leaseMillis (n : Node) : Nat := min (n.timing.lease.nanos / 1000000) (UInt64.size - 1)

def announcement (n : Node) : Message :=
  .announce n.id n.participant.domain n.participant.name n.dataPort n.leaseMillis n.announcements

/-- The remote endpoints that share kind and topic with the counterpart of a local one. -/
def candidates (n : Node) (kind : EndpointKind) (topic typeName : String) : List Candidate :=
  n.remotes.values.flatMap fun x =>
    (x.endpoints.filter fun a => a.kind = kind && a.topic = topic && a.typeName = typeName).map
      fun a => ⟨a, x.address⟩

/-- A writer and the remote readers: some are refused, some are gained, some are lost. -/
def reconcileWriter (n : Node) (x : LinkedWriter) : LinkedWriter × List Outgoing :=
  let cs := n.candidates .reader x.writer.key.topic x.writer.type.name
  (cs.foldl LinkedWriter.refuse x).sync (x.wanted cs)

def reconcileReader (n : Node) (y : LinkedReader) : LinkedReader :=
  let cs := n.candidates .writer y.reader.key.topic y.reader.type.name
  (cs.foldl LinkedReader.refuse y).sync (y.wanted cs)

/-- What the readers new to the open writers are owed. -/
def replays (n : Node) : List Dispatch :=
  n.openWriters.flatMap fun x => let (x, out) := n.reconcileWriter x; x.address out

/-- Brings the matches of the open endpoints in line with what is known of the remotes. -/
def reconciled (n : Node) : Node :=
  { n with
    writers := n.writers.map fun e =>
      (e.1, if e.2.writer.isOpen then (n.reconcileWriter e.2).1 else e.2)
    readers := n.readers.map fun e =>
      (e.1, if e.2.reader.isOpen then n.reconcileReader e.2 else e.2) }

def reconcile (n : Node) : Node × List Dispatch := (n.reconciled, n.replays)

/-! ### Discovery -/

/-- An announcement of another participant of the domain. Matches are looked at anew if its
endpoints or its address have changed. -/
def hearAnnouncement (n : Node) (now : Nat) (p : Nat) (address : Address) (lease : Span)
    (endpoints : List Announcement) : Node × List Dispatch :=
  let known := (n.remotes.get? p).getD ⟨address, now, lease, []⟩
  let n := { n with remotes := n.remotes.put (· < ·) p ⟨address, now, lease, endpoints⟩ }
  if known.endpoints = endpoints ∧ known.address = address then (n, []) else n.reconcile

/-- A message to the group arrives. Only announcements and farewells of others count. -/
def hear (n : Node) (now host : Nat) (m : Message) : Node × List Dispatch :=
  if m.participant = n.id then (n, [])
  else match m with
    | .announce p domain _ port lease endpoints =>
      if domain = n.participant.domain then
        n.hearAnnouncement now p ⟨host, port⟩ (.ofMillis lease) endpoints
      else (n, [])
    | .bye p => { n with remotes := n.remotes.erase p }.reconcile
    | _ => (n, [])

/-- The message that a socket reads from a datagram, of which it takes in no more than the longest
one that is ever sent. -/
def opened (bytes : ByteArray) : Option Message :=
  match Wire.decode (bytes.extract 0 Wire.maxBytes) with
  | .ok m => m
  | .error _ => none

/-- A datagram to the group arrives; one that holds no message is passed over. -/
def hearBytes (n : Node) (now host : Nat) (bytes : ByteArray) : Node × List Dispatch :=
  match opened bytes with
  | some m => n.hear now host m
  | none => (n, [])

/-- Whether a remote participant has been silent for longer than its lease. -/
def expired (now : Nat) (x : Remote) : Bool := x.lease.nanos < now - x.lastSeen

/-- Forgets the remote participants whose leases have run out. -/
def expire (n : Node) (now : Nat) : Node × List Dispatch :=
  if n.remotes.values.any (expired now) then
    { n with remotes := n.remotes.filter fun e => !expired now e.2 }.reconcile
  else (n, [])

/-! ### Data -/

/-- A message to the data socket arrives. Data for an open reader that has the writer is
acknowledged to where it came from. -/
def receive (n : Node) (source : Address) (m : Message) : Node × List Dispatch :=
  match m with
  | .data w r number c =>
    match n.readers.get? r with
    | some y =>
      let (x, acked) := y.reader.receive w number c
      (n.adjustReader r ({ · with reader := x }),
        (acked.map fun a => Dispatch.unicast source (.ackNack r w a)).toList)
    | none => (n, [])
  | .ackNack r w acked =>
    match n.writers.get? w with
    | some x =>
      if x.writer.isOpen then
        (n.adjustWriter w ({ · with writer := x.writer.acknowledge r acked }), [])
      else (n, [])
    | none => (n, [])
  | _ => (n, [])

/-- A datagram to the data socket arrives; one that holds no message is passed over. -/
def receiveBytes (n : Node) (source : Address) (bytes : ByteArray) : Node × List Dispatch :=
  match opened bytes with
  | some m => n.receive source m
  | none => (n, [])

/-- Everything that the open writers have pending, once more. -/
def retransmission (n : Node) : List Dispatch :=
  n.openWriters.flatMap fun x => x.address x.writer.history.pending

/-! ### Entities -/

/-- A changed set of endpoints is announced at once. -/
def announced (n : Node) (out : List Dispatch) : Node × List Dispatch :=
  (n, out ++ [.group n.announcement])

def createGroup (n : Node) (kind : EntityKind) : Except Fault (Node × Group) := do
  let (participant, g) ← n.participant.createGroup kind
  return ({ n with participant }, g)

def addWriter (n : Node) (x : Writer) : Node × List Dispatch :=
  let (n, out) := { n with writers := n.writers.insertLast x.guid ⟨x, [], []⟩ }.reconcile
  n.announced out

def addReader (n : Node) (y : Reader) : Node × List Dispatch :=
  let (n, out) := { n with readers := n.readers.insertLast y.guid ⟨y, []⟩ }.reconcile
  n.announced out

def createEndpoint (n : Node) (kind : EndpointKind) (g : Group) (t : Topic) (type : SampleType)
    (q : Qos) : Except Fault ((Node × List Dispatch) × Guid) := do
  let (participant, guid) ← n.participant.createEndpoint kind g t type q
  let n := { n with participant }
  match kind with
  | .writer => return (n.addWriter (.new guid t.name type q), guid)
  | .reader => return (n.addReader (.new guid t.name type q), guid)

def isOpen (n : Node) (g : Guid) : Bool :=
  (n.writers.get? g).any (·.writer.isOpen) || (n.readers.get? g).any (·.reader.isOpen)

/-- Closes an endpoint: it keeps what it knows, and the peers hear that it is gone. -/
def close (n : Node) (g : Guid) : Node × List Dispatch :=
  if n.isOpen g then
    let n := n.adjustWriter g fun x => { x with writer := { x.writer with isOpen := false } }
    let n := n.adjustReader g fun y => { y with reader := { y.reader with isOpen := false } }
    n.announced []
  else (n, [])

/-- Closes all endpoints, writers first; the participant creates nothing any more. -/
def delete (n : Node) : Node × List Dispatch :=
  let n := { n with participant := { n.participant with deleted := true } }
  (n.writers.keys ++ n.readers.keys).foldl
    (fun (n, out) g => let (n, more) := n.close g; (n, out ++ more)) (n, [])

/-- The participant leaves for good, and says so. -/
def leave (n : Node) : Node × List Dispatch :=
  if n.running then
    let (n, out) := n.delete
    ({ n with participant := { n.participant with left := true } }, out ++ [.group (.bye n.id)])
  else (n, [])

/-! ### Changes -/

def openWriter (n : Node) (w : Guid) : Except Fault LinkedWriter :=
  match n.writers.get? w with
  | some x => do x.writer.checkOpen; return x
  | none => .error (.deleted .writer)

/-- A payload may be as long as a whole datagram. -/
def checkPayload (j : Json) : Except Fault Unit :=
  let bytes := j.text.utf8ByteSize
  if Wire.maxBytes < bytes then
    .error (.transport s!"payload of {bytes} bytes exceeds the {Wire.maxBytes} byte datagram limit")
  else .ok ()

/-- Puts a writer that has made changes in place, and sends the changes. -/
def ship (n : Node) (x : LinkedWriter) (w : Writer) (out : List Outgoing) : Node × List Dispatch :=
  let x := { x with writer := w }
  (n.adjustWriter w.guid fun _ => x, x.address out)

def write (n : Node) (w : Guid) (v : Value) :
    Except Fault ((Node × List Dispatch) × Handle) := do
  let x ← n.openWriter w
  checkPayload v.payload
  let (y, out) := x.writer.write v
  return (n.ship x y out, v.key.handle)

def dispose (n : Node) (w : Guid) (v : Value) (handle : Handle) :
    Except Fault (Node × List Dispatch) := do
  let x ← n.openWriter w
  let (y, out) ← x.writer.dispose v handle
  return n.ship x y out

end Node

end PubSub.Udp
