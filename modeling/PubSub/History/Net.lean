import PubSub.History.Writer
import PubSub.History.Reader

/-!
Writers and readers joined by a network that may lose, duplicate, delay and reorder. Changes
on their way are a list in the state, and whoever runs the net decides which of them arrives
next, whether it stays in flight, and whether the acknowledgment gets back.
-/

namespace PubSub

/-- A change on its way. -/
structure Flight where
  writer : Guid
  out : Outgoing
deriving Inhabited

structure Net where
  writers : Table Guid WriterHistory
  readers : Table Guid ReaderCache
  flight : List Flight
deriving Inhabited

namespace Net

def new (writers readers : List (Guid × Qos)) : Net :=
  { writers := writers.foldl (fun t (g, q) => t.put Guid.before g (.new g q)) []
    readers := readers.foldl (fun t (g, q) => t.put Guid.before g (.new q)) []
    flight := [] }

/-- Puts the changes of a writer on their way, and its history in place. -/
def send (n : Net) (h : WriterHistory) (out : List Outgoing) : Net :=
  { n with
    writers := n.writers.put Guid.before h.guid h
    flight := n.flight ++ out.map fun o => ⟨h.guid, o⟩ }

/-- How a connection went. -/
inductive Connection where
  | conflict (p : Policy)
  | made (added : Bool) (replayed : Nat)

/-- Joins a writer and a reader if their qualities of service allow it: the reader first
accepts the writer, then the writer adds the reader and replays to it. -/
def connect (n : Net) (w r : Guid) : Option (Net × Connection) := do
  let h ← n.writers.get? w
  let c ← n.readers.get? r
  match Qos.conflict? h.qos c.qos with
  | some p => return (n, .conflict p)
  | none =>
    let added := !c.hasWriter w
    let (h', out) := h.matchReader r c.qos
    let n := { n with readers := n.readers.put Guid.before r (c.addWriter w h.qos.isReliable) }
    return (n.send h' out, .made added out.length)

/-- Parts a writer and a reader: whether the writer had the reader, and how many instances
the reader was notified of if it had the writer. -/
def disconnect (n : Net) (w r : Guid) : Option (Net × Bool × Option Nat) := do
  let h ← n.writers.get? w
  let c ← n.readers.get? r
  let (c', notified) := c.removeWriter w
  return ({ n with
      writers := n.writers.put Guid.before w (h.unmatchReader r)
      readers := n.readers.put Guid.before r c' }, h.isMatched r, notified)

def write (n : Net) (w : Guid) (key : InstanceKey) (payload : Json) : Option (Net × Handle) := do
  let h ← n.writers.get? w
  let (h', out) := h.write key payload
  return (n.send h' out, key.handle)

def dispose (n : Net) (w : Guid) (key : InstanceKey) (handle : Handle) :
    Option (Except Fault Net) := do
  let h ← n.writers.get? w
  match h.dispose key handle with
  | .ok (h', out) => return .ok (n.send h' out)
  | .error f => return .error f

/-- What a delivery came to; `completed` is absent when no acknowledgment got back. -/
structure Delivery where
  reception : Reception
  acked : Nat
  completed : Option Bool

/-- The change at a position arrives at its reader, and the reader's answer at the writer. -/
def deliver (n : Net) (position : Nat) (keep noAck : Bool) : Option (Net × Delivery) := do
  let f ← n.flight[position]?
  let c ← n.readers.get? f.out.reader
  let h ← n.writers.get? f.writer
  let (c', reception, acked) := c.receive f.writer f.out.number f.out.change
  let n := { n with
    flight := if keep then n.flight else n.flight.eraseIdx position
    readers := n.readers.put Guid.before f.out.reader c' }
  if noAck then return (n, ⟨reception, acked, none⟩)
  else
    let (h', completed) := h.acknowledge f.out.reader acked
    return ({ n with writers := n.writers.put Guid.before f.writer h' },
      ⟨reception, acked, some completed⟩)

/-- Delivers from the front, `count` times at most. -/
def deliverAll (n : Net) (noAck : Bool) : Nat → Net × List Delivery
  | 0 => (n, [])
  | count + 1 =>
    match n.deliver 0 false noAck with
    | some (n', d) => let (n'', ds) := n'.deliverAll noAck count; (n'', d :: ds)
    | none => (n, [])

/-- Loses the change at a position. -/
def drop (n : Net) (position : Nat) : Net := { n with flight := n.flight.eraseIdx position }

/-- Sends everything again that a writer has pending. -/
def retransmit (n : Net) (w : Guid) : Option (Net × Nat) := do
  let h ← n.writers.get? w
  return (n.send h h.pending, h.pending.length)

def take (n : Net) (r : Guid) (max : Nat) : Option (Net × List (Sample Json)) := do
  let c ← n.readers.get? r
  let (c', ss) := c.take max
  return ({ n with readers := n.readers.put Guid.before r c' }, ss)

end Net

end PubSub
