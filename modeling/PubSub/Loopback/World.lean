import PubSub.Loopback.Domain
import PubSub.Middleware

/-!
All domains of a process. A registry holds at most one live domain of each number; a domain
that everybody has left stays in the world, since its closed endpoints can still be looked at.
-/

namespace PubSub.Loopback

structure World where
  now : Nat
  nextParticipant : Nat
  domains : List Domain
deriving Inhabited

/-- Where a middleware finds its domains, and the latency of the domains that it opens. -/
structure Scope where
  registry : Nat
  latency : Span
deriving DecidableEq, Inhabited

namespace World

def new : World := ⟨0, 1, []⟩

/-- Participants of this medium are told by the upper sixteen bits of their identities. -/
def idBase : Nat := 0x4c42 <<< 48

/-- Whether it is the live domain of that number in a registry. -/
def isLive (registry id : Nat) (d : Domain) : Bool :=
  d.registry = registry && d.id = id && d.live

def live? (w : World) (registry id : Nat) : Option Domain := w.domains.find? (isLive registry id)

/-- How many domains of a registry are live. -/
def liveCount (w : World) (registry : Nat) : Nat :=
  (w.domains.filter fun d => d.registry = registry && d.live).length

def domainOf? (w : World) (p : Nat) : Option Domain :=
  w.domains.find? (·.participants.has p)

/-- Changes the domain of a participant. -/
def adjust (w : World) (p : Nat) (f : Domain → Domain) : World :=
  { w with domains := w.domains.map fun d => if d.participants.has p then f d else d }

/-- Puts a new participant into the live domain, which is opened if there is none. -/
def enter (w : World) (s : Scope) (domain id : Nat) (name : String) : List Domain :=
  if w.domains.any (isLive s.registry domain) then
    w.domains.map fun d =>
      if isLive s.registry domain d then d.addParticipant id name else d
  else w.domains ++ [(Domain.new s.registry domain s.latency w.now).addParticipant id name]

/-- A new participant joins a domain. -/
def join (w : World) (s : Scope) (domain : Nat) (name : String) : Except Fault (World × Nat) := do
  Config.checkDomain domain
  let id := idBase + w.nextParticipant
  return (⟨w.now, w.nextParticipant + 1, w.enter s domain id name⟩, id)

/-- Does something in the domain of a participant that may fail. -/
def within (w : World) (p : Nat) (absent : Fault)
    (f : Domain → Except Fault (Domain × α)) : Except Fault (World × α) :=
  match w.domainOf? p with
  | some d => do let (d, a) ← f d; return (w.adjust p fun _ => d, a)
  | none => .error absent

def setPaused (w : World) (p : Nat) (paused : Bool) : World := w.adjust p ({ · with paused })

def paused (w : World) (p : Nat) : Bool := ((w.domainOf? p).map (·.paused)).getD false

/-- When the next job of any domain runs. -/
def due? (w : World) : Option Nat := ((w.domains.filterMap Domain.due?).min?).map (max w.now)

def passUntil (w : World) (t : Nat) : World :=
  { w with now := max w.now t, domains := w.domains.map ({ · with clock := max w.now t }) }

/-- The next event: all jobs that are due by then run, before anybody who waits for one of them
goes on. -/
def advance (w : World) : World :=
  match w.due? with
  | some t => let w := w.passUntil t; { w with domains := w.domains.map (·.deliverDue t) }
  | none => w

/-- Runs all jobs, for which as much time passes as their latencies need. -/
def settle (w : World) : World :=
  let last := (w.domains.filter (!·.paused)).flatMap fun d => d.queue.map (·.due)
  let w := w.passUntil (last.foldl max w.now)
  { w with domains := w.domains.map Domain.settle }

end World

instance : Middleware World where
  participant? w p := (w.domainOf? p).bind (·.participants.get? p)
  writer? w g := (w.domainOf? g.participant).bind (·.writers.get? g)
  reader? w g := (w.domainOf? g.participant).bind (·.readers.get? g)
  adjustWriter w g f := w.adjust g.participant (·.adjustWriter g f)
  adjustReader w g f := w.adjust g.participant (·.adjustReader g f)
  createGroup w p kind := w.within p (.deleted .participant) (·.createGroup p kind)
  createEndpoint w p kind g t type q :=
    w.within p (.deleted .participant) (·.createEndpoint p kind g t type q)
  write w g v := w.within g.participant (.deleted .writer) (·.write g v)
  dispose w g v h := do
    let (w, ()) ← w.within g.participant (.deleted .writer) fun d => do
      return (← d.dispose g v h, ())
    return w
  close w g := w.adjust g.participant (·.close g)
  delete w p := w.adjust p (·.delete p)
  leave w p := w.adjust p (·.leave p)
  now := World.now
  due? := World.due?
  advance := World.advance
  passUntil := World.passUntil
  settle := World.settle

end PubSub.Loopback
