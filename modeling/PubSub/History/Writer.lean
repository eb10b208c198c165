import PubSub.History.Change
import PubSub.Fault
import PubSub.Table

/-!
The writer's half of a reliable session. A writer numbers its changes, and for every matched
reader it keeps a proxy: a sequence of its own, in which the changes for that reader are
numbered from one, and the changes that a reliable reader has not acknowledged yet.
-/

namespace PubSub

/-- What a writer keeps for one matched reader. -/
structure ReaderProxy where
  reliable : Bool
  next : Nat
  pending : List (Nat × Change)
deriving Inhabited

namespace ReaderProxy

def new (reliable : Bool) : ReaderProxy := ⟨reliable, 1, []⟩

/-- Gives the change the next number; a reliable proxy keeps it until it is acknowledged. -/
def enqueue (p : ReaderProxy) (c : Change) : ReaderProxy :=
  { p with
    next := p.next + 1
    pending := if p.reliable then p.pending ++ [(p.next, c)] else p.pending }

/-- Drops from the front what is acknowledged. -/
def acknowledge (p : ReaderProxy) (acked : Nat) : ReaderProxy :=
  { p with pending := p.pending.dropWhile fun e => e.1 ≤ acked }

end ReaderProxy

/-- The history of a writer. -/
structure WriterHistory where
  guid : Guid
  qos : Qos
  next : Nat
  retained : List Change
  proxies : Table Guid ReaderProxy
deriving Inhabited

namespace WriterHistory

def new (guid : Guid) (qos : Qos) : WriterHistory := ⟨guid, qos, 1, [], []⟩

/-- Removes the first change of an instance. -/
def dropFirst (key : InstanceKey) : List Change → List Change
  | [] => []
  | c :: r => if c.key = key then r else c :: dropFirst key r

/-- Keeps a change for readers to come, the oldest of its instance giving way when there are
more than the depth of the history. -/
def retain (depth : Option Nat) (retained : List Change) (c : Change) : List Change :=
  let all := retained ++ [c]
  match depth with
  | some n => if n < (all.filter (·.key = c.key)).length then dropFirst c.key all else all
  | none => all

/-- Makes a change and addresses it to every matched reader, in the order of their identities. -/
def addChange (h : WriterHistory) (key : InstanceKey) (kind : ChangeKind)
    (payload : Option Json) : WriterHistory × List Outgoing :=
  let c : Change := ⟨h.next, key, kind, payload⟩
  ({ h with
      next := h.next + 1
      retained :=
        if h.qos.durability = .transientLocal then retain h.qos.history.depth h.retained c
        else h.retained
      proxies := h.proxies.map fun e => (e.1, e.2.enqueue c) },
    h.proxies.map fun e => ⟨e.1, e.2.next, c⟩)

def write (h : WriterHistory) (key : InstanceKey) (payload : Json) :
    WriterHistory × List Outgoing :=
  h.addChange key .alive (some payload)

/-- The fault of a handle that belongs to another instance. -/
def foreignHandle (key : InstanceKey) (handle : Handle) : Fault :=
  .parameter
    s!"instance handle 0x{String.ofList (Nat.toDigits 16 handle)} does not match key '{key}'"

/-- Ends the life of an instance, which a handle may name besides its key. -/
def dispose (h : WriterHistory) (key : InstanceKey) (handle : Handle) :
    Except Fault (WriterHistory × List Outgoing) :=
  if handle ≠ 0 ∧ handle ≠ key.handle then .error (foreignHandle key handle)
  else .ok (h.addChange key .disposed none)

/-- The proxy of a new reader, and the retained changes that are replayed to it. -/
def replay (h : WriterHistory) (reader : Guid) (qos : Qos) : ReaderProxy × List Outgoing :=
  let start := ReaderProxy.new (qos.isReliable && h.qos.isReliable)
  let changes := if qos.durability = .transientLocal then h.retained else []
  changes.foldl (fun (p, out) c => (p.enqueue c, out ++ [⟨reader, p.next, c⟩])) (start, [])

/-- Adds a reader; one that is matched already is left as it is. -/
def matchReader (h : WriterHistory) (reader : Guid) (qos : Qos) : WriterHistory × List Outgoing :=
  if h.proxies.has reader then (h, [])
  else
    let (p, out) := h.replay reader qos
    ({ h with proxies := h.proxies.insertNew Guid.before reader p }, out)

def unmatchReader (h : WriterHistory) (reader : Guid) : WriterHistory :=
  { h with proxies := h.proxies.erase reader }

def isMatched (h : WriterHistory) (reader : Guid) : Bool := h.proxies.has reader

def matchedReaders (h : WriterHistory) : List Guid := h.proxies.keys

/-- The changes that wait for an acknowledgment, reader by reader. -/
def pending (h : WriterHistory) : List Outgoing :=
  h.proxies.flatMap fun e => e.2.pending.map fun (n, c) => ⟨e.1, n, c⟩

/-- How many changes wait for an acknowledgment. -/
def unacknowledged (h : WriterHistory) : Nat := h.pending.length

def allAcknowledged (h : WriterHistory) : Bool := h.unacknowledged = 0

/-- Takes an acknowledgment in, and tells whether it was the last one to come. -/
def acknowledge (h : WriterHistory) (reader : Guid) (acked : Nat) : WriterHistory × Bool :=
  let h' := { h with proxies := h.proxies.adjust reader (·.acknowledge acked) }
  (h', !h.allAcknowledged && h'.allAcknowledged)

end WriterHistory

end PubSub
