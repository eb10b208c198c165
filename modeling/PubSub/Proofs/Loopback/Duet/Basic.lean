import PubSub.Proofs.Loopback.Endpoint
import PubSub.Proofs.Scenario.Contract
import PubSub.Proofs.Scenario.Interleaving

/-!
A duet: one writer and one reader of one domain, for which nobody else creates anything. How far
the two have got is all there is to say of their domain, as far as either of them can tell.
-/

namespace PubSub

def Scenario.matchKey (s : Scenario) : MatchKey := .of s.topic s.sample.type.name

namespace Loopback

/-- How far one side of a duet has got with its endpoint: once it is pledged, it has an identity,
and between its being active and gone, it is closed, but still among the entries. -/
inductive Presence where
  | outside
  | joined
  | grouped
  | pledged
  | active
  | closing
  | gone
deriving DecidableEq

namespace Presence

def created : Presence → Bool
  | active | closing | gone => true
  | _ => false

def entered : Presence → Bool
  | active | closing => true
  | _ => false

def ending : Presence → Bool
  | closing | gone => true
  | _ => false

end Presence

structure Post where
  home : Nat
  presence : Presence

namespace Post

def guid (x : Post) : Guid := .sole x.home

def Housed (x : Post) (d : Domain) : Prop :=
  match x.presence with
  | .outside => True
  | .joined => ∃ y, d.participants.get? x.home = some y ∧ y.id = x.home ∧ y.next = 1 ∧
      y.deleted = false ∧ y.left = false
  | .grouped => ∃ y, d.participants.get? x.home = some y ∧ y.id = x.home ∧ y.next = 2 ∧
      y.deleted = false ∧ y.left = false
  | .pledged | .active => ∃ y, d.participants.get? x.home = some y ∧ y.left = false
  | .closing | .gone => d.participants.has x.home = true

end Post

/-- Where a duet meets, and how far it has got: the two sides, how many changes the writer has made
and submitted, how many of them the reader has got and the writer knows that it has, and how many
samples have been taken. -/
structure Duet where
  registry : Nat
  domain : Nat
  writer : Post
  reader : Post
  made : Nat
  sent : Nat
  got : Nat
  acked : Nat
  read : Nat

namespace Duet

def silent (registry domain : Nat) : Duet :=
  ⟨registry, domain, ⟨0, .outside⟩, ⟨0, .outside⟩, 0, 0, 0, 0, 0⟩

def other : EndpointKind → EndpointKind
  | .writer => .reader
  | .reader => .writer

def post (σ : Duet) : EndpointKind → Post
  | .writer => σ.writer
  | .reader => σ.reader

def move (σ : Duet) (k : EndpointKind) (x : Post) : Duet :=
  match k with
  | .writer => { σ with writer := x }
  | .reader => { σ with reader := x }

def become (σ : Duet) (k : EndpointKind) (p : Presence) : Duet := σ.move k ⟨(σ.post k).home, p⟩

/-- Nothing comes before what it needs, and no side goes before it has done its part. -/
structure Orderly (σ : Duet) (total : Nat) : Prop where
  apart : σ.writer.presence ≠ .outside → σ.reader.presence ≠ .outside →
    σ.writer.home ≠ σ.reader.home
  acked : σ.acked ≤ σ.got
  got : σ.got ≤ σ.sent
  sent : σ.sent ≤ σ.made
  made : σ.made ≤ total
  read : σ.read ≤ σ.got
  begun : 0 < σ.made → σ.writer.presence.created = true ∧ σ.reader.presence.created = true
  written : σ.writer.presence.ending = true →
    σ.made = total ∧ (σ.reader.presence.ending = true ∨ σ.acked = σ.made)
  finished : σ.reader.presence.ending = true → σ.read = total

/-! ### The endpoints of a duet -/

def ProxiesFit (s : Scenario) (σ : Duet) (proxies : Table Guid ReaderProxy) : Prop :=
  match σ.reader.presence with
  | .active => ∃ p, proxies = [(σ.reader.guid, p)] ∧ p.reliable = true ∧
      p.Keeps (s.changes.take σ.made) σ.acked
  | .closing => ∃ p, proxies = [(σ.reader.guid, p)]
  | _ => proxies = []

structure HistoryFits (s : Scenario) (σ : Duet) (h : WriterHistory) : Prop where
  qos : h.qos = s.qos
  next : h.next = σ.made + 1
  retained : σ.made = 0 → h.retained = []
  proxies : σ.ProxiesFit s h.proxies

structure WriterFits (s : Scenario) (σ : Duet) (x : Writer) : Prop where
  key : x.key = s.matchKey
  isOpen : x.isOpen = decide (σ.writer.presence = .active)
  bound : 0 < x.matched.total ↔ σ.reader.presence.created = true
  current : x.matched.current ≤ x.matched.total
  history : σ.writer.presence = .active → σ.HistoryFits s x.history

def PeersFit (σ : Duet) (peers : Table Guid WriterProxy) : Prop :=
  match σ.writer.presence with
  | .active | .closing => peers = [(σ.writer.guid, ⟨true, σ.got + 1⟩)]
  | .gone => True
  | _ => peers = []

/-- The unread samples are those that the reader has got and nobody has taken; once the writer has
gone, there may be notifications behind them. -/
structure CacheFits (s : Scenario) (σ : Duet) (c : ReaderCache) : Prop where
  qos : c.qos = s.qos
  peers : σ.PeersFit c.writers
  unread : ∃ extra, c.unread =
      ((s.changes.map ReaderCache.sampleOf).take σ.got).drop σ.read ++ extra ∧
    (σ.writer.presence ≠ .gone → extra = [])

structure ReaderFits (s : Scenario) (σ : Duet) (y : Reader) : Prop where
  key : y.key = s.matchKey
  type : y.type = s.sample.type
  isOpen : y.isOpen = decide (σ.reader.presence = .active)
  bound : 0 < y.matched.total ↔ σ.writer.presence.created = true
  cache : σ.reader.presence = .active → σ.CacheFits s y.cache

/-! ### Their domain -/

def entry (σ : Duet) (s : Scenario) (k : EndpointKind) : Entry := ⟨(σ.post k).guid, k, s.qos⟩

def entries (σ : Duet) (s : Scenario) : List Entry :=
  ([.writer, .reader].filter fun k => (σ.post k).presence.entered).map (σ.entry s)

/-- A domain in which the duet has got that far, and the acknowledgment that its worker is about to
pass on. Jobs for a reader that has been closed come to nothing. -/
structure Fits (s : Scenario) (σ : Duet) (d : Domain) (a : Option Domain.Receipt) : Prop where
  order : σ.Orderly s.changes.length
  registry : d.registry = σ.registry
  id : d.id = σ.domain
  paused : d.paused = false
  housed : ∀ k, (σ.post k).Housed d
  peopled : ∀ p, d.participants.has p = true →
    ∃ k, (σ.post k).presence ≠ .outside ∧ (σ.post k).home = p
  noWriter : σ.writer.presence.created = false → d.writers = []
  noReader : σ.reader.presence.created = false → d.readers = []
  writer : σ.writer.presence.created = true →
    ∃ x, d.writers = [(σ.writer.guid, x)] ∧ σ.WriterFits s x
  reader : σ.reader.presence.created = true →
    ∃ y, d.readers = [(σ.reader.guid, y)] ∧ σ.ReaderFits s y
  entries : (d.listed s.matchKey).Perm (σ.entries s)
  jobs : σ.reader.presence.ending = false → d.queue.map (fun j => (j.writer, j.out)) =
    (((numbered 1 s.changes).take σ.sent).drop σ.got).map fun e =>
      (σ.writer.guid, ⟨σ.reader.guid, e.1, e.2⟩)
  receipt : σ.reader.presence.ending = false →
    match a with
    | none => σ.acked = σ.got
    | some a => a = ⟨σ.writer.guid, σ.reader.guid, σ.got⟩ ∧ σ.acked + 1 = σ.got

end Duet

end Loopback

end PubSub
