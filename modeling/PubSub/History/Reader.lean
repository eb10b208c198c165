import PubSub.History.Change
import PubSub.Sample
import PubSub.Table

/-!
The reader's half of a reliable session. A reader accepts the changes of every matched writer
in the order of their numbers, follows the lifecycle of the instances, and holds the samples
that nobody has taken yet.
-/

namespace PubSub

/-- What a reader keeps for one matched writer. -/
structure WriterProxy where
  reliable : Bool
  next : Nat
deriving DecidableEq, Inhabited

/-- An instance: its state, and the matched writers that have changed it. -/
structure InstanceRecord where
  state : InstanceState
  writers : List Guid
deriving DecidableEq, Inhabited

structure ReaderCache where
  qos : Qos
  writers : Table Guid WriterProxy
  instances : Table InstanceKey InstanceRecord
  unread : List (Sample Json)
deriving Inhabited

/-- What became of a change that was offered to a reader. -/
inductive Reception where
  | accepted
  | duplicate
  | outOfOrder
  | unknownWriter
deriving DecidableEq, Inhabited

def Reception.name : Reception → String
  | .accepted => "Accepted"
  | .duplicate => "Duplicate"
  | .outOfOrder => "OutOfOrder"
  | .unknownWriter => "UnknownWriter"

namespace ReaderCache

def new (qos : Qos) : ReaderCache := ⟨qos, [], [], []⟩

def hasWriter (r : ReaderCache) (writer : Guid) : Bool := r.writers.has writer

/-- Accepts changes of a writer from now on; one that is matched already is left as it is. -/
def addWriter (r : ReaderCache) (writer : Guid) (reliable : Bool) : ReaderCache :=
  if r.hasWriter writer then r
  else
    let p : WriterProxy := ⟨reliable && r.qos.isReliable, 1⟩
    { r with writers := r.writers.insertNew Guid.before writer p }

/-- Whether the instance is alive by this writer alone. -/
def orphanedBy (writer : Guid) (i : InstanceRecord) : Bool :=
  i.writers.contains writer && (i.writers.filter (· ≠ writer)).isEmpty && i.state = .alive

/-- The instance without that writer. -/
def forget (writer : Guid) (i : InstanceRecord) : InstanceRecord :=
  { writers := i.writers.filter (· ≠ writer)
    state := if orphanedBy writer i then .noWriters else i.state }

/-- The instances that lose their last writer, in the order of their keys. -/
def orphans (r : ReaderCache) (writer : Guid) : List InstanceKey :=
  (r.instances.filter fun e => orphanedBy writer e.2).map (·.1)

/-- Forgets a writer; every live instance that it leaves without one is notified. -/
def removeWriter (r : ReaderCache) (writer : Guid) : ReaderCache × Option Nat :=
  if r.hasWriter writer then
    let orphaned := r.orphans writer
    ({ r with
        writers := r.writers.erase writer
        instances := r.instances.map fun e => (e.1, forget writer e.2)
        unread := r.unread ++ orphaned.map fun k => .notification k .noWriters 0 },
      some orphaned.length)
  else (r, none)

/-- Whether it is a sample with data of that instance. -/
def validFor (key : InstanceKey) (s : Sample Json) : Bool := s.valid && s.key = key

/-- Removes the oldest `n` samples with data of an instance. -/
def evict (key : InstanceKey) : Nat → List (Sample Json) → List (Sample Json)
  | 0, ss => ss
  | _ + 1, [] => []
  | n + 1, s :: r => if validFor key s then evict key n r else s :: evict key (n + 1) r

/-- At most `depth` samples with data of the instance, the newest; notifications all stay. -/
def enforceDepth (depth : Option Nat) (key : InstanceKey) (ss : List (Sample Json)) :
    List (Sample Json) :=
  match depth with
  | some n => evict key ((ss.filter (validFor key)).length - n) ss
  | none => ss

def sampleOf (c : Change) : Sample Json :=
  match c.kind with
  | .alive => ⟨c.payload, true, .alive, c.key, c.key.handle, c.sequence⟩
  | .disposed => .notification c.key .disposed c.sequence

def stateOf : ChangeKind → InstanceState
  | .alive => .alive
  | .disposed => .disposed

/-- The instance of a change once a writer has made it. -/
def record (r : ReaderCache) (writer : Guid) (c : Change) : InstanceRecord :=
  let writers := match r.instances.get? c.key with
    | some i => if i.writers.contains writer then i.writers else i.writers ++ [writer]
    | none => [writer]
  ⟨stateOf c.kind, writers⟩

/-- Takes an accepted change in. -/
def apply (r : ReaderCache) (writer : Guid) (c : Change) : ReaderCache :=
  let unread := r.unread ++ [sampleOf c]
  { r with
    instances := r.instances.put (· < ·) c.key (r.record writer c)
    unread := match c.kind with
      | .alive => enforceDepth r.qos.history.depth c.key unread
      | .disposed => unread }

/-- Offers a change under its number in the sequence of this reader. The answer is what became
of it and the highest number up to which nothing is missing, for the writer to know.

A reader counts in sixty-four bits, and the number after an accepted one has to fit them: numbers
are below `2 ^ 64 - 1`. What becomes of a change with the last number of that width is not said
here; a writer that counts its changes from one never comes to it. -/
def receive (r : ReaderCache) (writer : Guid) (number : Nat) (c : Change) :
    ReaderCache × Reception × Nat :=
  match r.writers.get? writer with
  | none => (r, .unknownWriter, 0)
  | some p =>
    if number < p.next then (r, .duplicate, p.next - 1)
    else if p.next < number ∧ p.reliable then (r, .outOfOrder, p.next - 1)
    else
      let r := { r with writers := r.writers.adjust writer ({ · with next := number + 1 }) }
      (r.apply writer c, .accepted, number)

/-- Hands out the oldest samples, `max` at most. -/
def take (r : ReaderCache) (max : Nat) : ReaderCache × List (Sample Json) :=
  ({ r with unread := r.unread.drop max }, r.unread.take max)

def instanceState (r : ReaderCache) (key : InstanceKey) : Option InstanceState :=
  (r.instances.get? key).map (·.state)

def matchedWriters (r : ReaderCache) : List Guid := r.writers.keys

end ReaderCache

end PubSub
