import PubSub.Proofs.Loopback.Binding

/-!
Everything that can happen in a domain, and what of it can be seen of the endpoints. Participants
join and leave, create endpoints and close them, write, look and pause the delivery, and the
oldest job runs, in any order and as often as they like.
-/

namespace PubSub.Loopback

open Udp (Look Submission)

/-- What is done in a domain, or happens there: the last of them is that the oldest job runs. -/
inductive Act where
  | join (id : Nat) (name : String)
  | createGroup (p : Nat) (kind : EntityKind)
  | createEndpoint (p : Nat) (kind : EndpointKind) (g : Group) (t : Topic) (type : SampleType)
      (q : Qos)
  | submit (w : Guid) (s : Submission)
  | lookWriter (w : Guid) (l : Look)
  | lookReader (r : Guid) (l : Look)
  | pause (b : Bool)
  | passUntil (t : Nat)
  | close (g : Guid)
  | delete (p : Nat)
  | leave (p : Nat)
  | deliver

namespace Domain

/-- A writer makes a change; it is yet to be queued. -/
def appended (d : Domain) (w : Guid) : Submission → Except Fault (Domain × List Outgoing)
  | .sample v => d.append w v
  | .disposal v handle => d.appendDisposal w v handle

def submitted (d : Domain) (w : Guid) : Submission → Except Fault Domain
  | .sample v => (d.write w v).map (·.1)
  | .disposal v handle => d.dispose w v handle

/-- Does it; what fails has no effect, an identity is never given twice, and no job runs while the
delivery is paused. -/
def perform (d : Domain) : Act → Domain
  | .join id name => if d.participants.has id then d else d.addParticipant id name
  | .createGroup p kind =>
    match d.createGroup p kind with
    | .ok (d', _) => d'
    | .error _ => d
  | .createEndpoint p kind g t type q =>
    match d.createEndpoint p kind g t type q with
    | .ok (d', _) => d'
    | .error _ => d
  | .submit w s =>
    match d.submitted w s with
    | .ok d' => d'
    | .error _ => d
  | .lookWriter w l => d.adjustWriter w l.writer
  | .lookReader r l => d.adjustReader r l.reader
  | .pause b => { d with paused := b }
  | .passUntil t => { d with clock := max d.clock t }
  | .close g => d.close g
  | .delete p => d.delete p
  | .leave p => d.leave p
  | .deliver => if d.paused then d else d.deliver

def after (d : Domain) (as : List Act) : Domain := as.foldl perform d

/-! ### What can be seen -/

def card? (d : Domain) : EndpointKind → Guid → Option Card
  | .writer, g => (d.writers.get? g).map .ofWriter
  | .reader, g => (d.readers.get? g).map .ofReader

def nextOf (d : Domain) (w : Guid) : Nat := ((d.writers.get? w).map (·.history.next)).getD 1

def proxy? (d : Domain) (w r : Guid) : Option ReaderProxy :=
  (d.writers.get? w).bind (·.history.proxies.get? r)

def peer? (d : Domain) (w r : Guid) : Option WriterProxy :=
  (d.readers.get? r).bind (·.cache.writers.get? w)

def jobsOf (d : Domain) (w r : Guid) : List (Nat × Change) :=
  carried w r (d.queue.map fun j => ⟨j.writer, j.out⟩)

end Domain

/-- A domain, what its writers have enqueued for its readers so far, and what has become of the
changes that arrived. -/
structure Trace where
  domain : Domain
  owed : Guid → Guid → List Change
  got : Guid → Guid → List (Change × Reception)

def Trace.view (t : Trace) : View where
  card := t.domain.card?
  next := t.domain.nextOf
  pair w r := ⟨t.domain.proxy? w r, t.domain.peer? w r, t.domain.jobsOf w r, t.owed w r, t.got w r⟩

/-! ### What is enqueued, and what arrives -/

namespace Domain

/-- The changes that a writer enqueues for a reader by something that is done: a change of its
own, or the replay for a new reader that may have the writer. -/
def enqueues (d : Domain) (a : Act) (w r : Guid) : List Change :=
  match a with
  | .submit w' s =>
    if w' = w then
      match d.appended w s with
      | .ok (_, out) => (addressed r out).map (·.2)
      | .error _ => []
    else []
  | .createEndpoint p .reader g t type q =>
    match d.createEndpoint p .reader g t type q, d.writers.get? w with
    | .ok (_, r'), some x =>
      if r' = r ∧ x.isOpen ∧ x.key = .of t.name type.name ∧ Qos.compatible x.qos q then
        (x.addReader r q).2.map (·.change)
      else []
    | _, _ => []
  | _ => []

def arrival (d : Domain) (j : Job) : List (Change × Reception) :=
  match d.readers.get? j.out.reader with
  | some y =>
    if y.isOpen then
      [(j.out.change, (y.cache.receive j.writer j.out.number j.out.change).2.1)]
    else []
  | none => []

def arrives (d : Domain) (a : Act) (w r : Guid) : List (Change × Reception) :=
  match a, d.queue with
  | .deliver, j :: _ =>
    if !d.paused ∧ j.writer = w ∧ j.out.reader = r then d.arrival j else []
  | _, _ => []

end Domain

namespace Trace

def start (registry id : Nat) (latency : Span) (clock : Nat) : Trace :=
  ⟨.new registry id latency clock, fun _ _ => [], fun _ _ => []⟩

def step (t : Trace) (a : Act) : Trace where
  domain := t.domain.perform a
  owed w r := t.owed w r ++ t.domain.enqueues a w r
  got w r := t.got w r ++ t.domain.arrives a w r

def run (t : Trace) (as : List Act) : Trace := as.foldl step t

/-- The changes that a reader has accepted from a writer, in order. -/
def taken (t : Trace) (w r : Guid) : List Change :=
  (t.got w r).filterMap fun e => if e.2 = .accepted then some e.1 else none

end Trace

/-! ### A domain in order -/

namespace Domain

def has (d : Domain) : EndpointKind → Guid → Bool
  | .writer, g => d.writers.has g
  | .reader, g => d.readers.has g

/-- Every endpoint has an identity of its own, which its participant has issued, and every table
is in order. -/
structure Wf (d : Domain) : Prop where
  identity : ∀ p x, d.participants.get? p = some x → x.id = p
  issued : ∀ k g, d.has k g = true → ∃ x, d.participants.get? g.participant = some x ∧
    g.entity < x.next
  once : ∀ g, d.has .writer g = true → d.has .reader g = false
  writers : d.writers.Distinct
  readers : d.readers.Distinct
  writer : ∀ w x, d.writers.get? w = some x → WriterTidy w x
  reader : ∀ r y, d.readers.get? r = some y → ReaderTidy r y

lemma wf_new (registry id : Nat) (latency : Span) (clock : Nat) :
    (new registry id latency clock).Wf where
  identity := by simp [new]
  issued k g h := by cases k <;> simp [new, has, Table.has] at h
  once := by simp [new, has, Table.has]
  writers := Table.distinct_nil
  readers := Table.distinct_nil
  writer := by simp [new]
  reader := by simp [new]

variable {d : Domain} {w r : Guid} {x : Writer} {y : Reader}

lemma get?_adjustWriter (d : Domain) (w w' : Guid) (f : Writer → Writer) :
    (d.adjustWriter w f).writers.get? w' =
      if w' = w then (d.writers.get? w').map f else d.writers.get? w' :=
  Table.get?_adjust _ _ _ _

lemma get?_adjustReader (d : Domain) (r r' : Guid) (f : Reader → Reader) :
    (d.adjustReader r f).readers.get? r' =
      if r' = r then (d.readers.get? r').map f else d.readers.get? r' :=
  Table.get?_adjust _ _ _ _

lemma has_adjustWriter (d : Domain) (w : Guid) (f : Writer → Writer) (k : EndpointKind)
    (g : Guid) : (d.adjustWriter w f).has k g = d.has k g := by
  cases k with
  | writer =>
    simp only [has, Table.has, get?_adjustWriter]
    split_ifs <;> simp
  | reader => rfl

lemma has_adjustReader (d : Domain) (r : Guid) (f : Reader → Reader) (k : EndpointKind)
    (g : Guid) : (d.adjustReader r f).has k g = d.has k g := by
  cases k with
  | writer => rfl
  | reader =>
    simp only [has, Table.has, get?_adjustReader]
    split_ifs <;> simp

lemma has_iff_card? (k : EndpointKind) (g : Guid) :
    d.has k g = true ↔ ∃ a, d.card? k g = some a := by
  cases k <;> simp [has, card?, Table.has_eq_true]

lemma Wf.adjustWriter (h : d.Wf) {f : Writer → Writer}
    (hf : ∀ x, d.writers.get? w = some x → WriterTidy w x → WriterTidy w (f x)) :
    (d.adjustWriter w f).Wf := by
  refine ⟨h.identity, fun k g hg => h.issued k g (has_adjustWriter d w f k g ▸ hg),
    fun g hg => ?_, h.writers.adjust w f, h.readers, fun w' x hx => ?_, h.reader⟩
  · rw [has_adjustWriter] at hg ⊢
    exact h.once g hg
  · rw [get?_adjustWriter] at hx
    split_ifs at hx with hw
    · obtain ⟨x', hx', rfl⟩ := Option.map_eq_some_iff.mp hx
      exact hw ▸ hf x' (hw ▸ hx') (hw ▸ h.writer w' x' hx')
    · exact h.writer w' x hx

lemma Wf.adjustReader (h : d.Wf) {f : Reader → Reader}
    (hf : ∀ y, d.readers.get? r = some y → ReaderTidy r y → ReaderTidy r (f y)) :
    (d.adjustReader r f).Wf := by
  refine ⟨h.identity, fun k g hg => h.issued k g (has_adjustReader d r f k g ▸ hg),
    fun g hg => ?_, h.writers, h.readers.adjust r f, h.writer, fun r' y hy => ?_⟩
  · rw [has_adjustReader] at hg ⊢
    exact h.once g hg
  · rw [get?_adjustReader] at hy
    split_ifs at hy with hr
    · obtain ⟨y', hy', rfl⟩ := Option.map_eq_some_iff.mp hy
      exact hr ▸ hf y' (hr ▸ hy') (hr ▸ h.reader r' y' hy')
    · exact h.reader r' y hy

lemma Wf.withParticipants (h : d.Wf) {t : Table Nat Participant}
    (hid : ∀ p x, t.get? p = some x → x.id = p)
    (ht : ∀ p x, d.participants.get? p = some x → ∃ x', t.get? p = some x' ∧ x.next ≤ x'.next) :
    ({ d with participants := t } : Domain).Wf := by
  refine ⟨hid, fun k g hg => ?_, h.once, h.writers, h.readers, h.writer, h.reader⟩
  obtain ⟨x, hx, hlt⟩ := h.issued k g hg
  obtain ⟨x', hx', hle⟩ := ht _ x hx
  exact ⟨x', hx', Nat.lt_of_lt_of_le hlt hle⟩

lemma Wf.adjustParticipant (h : d.Wf) (p : Nat) {f : Participant → Participant}
    (hf : ∀ x, d.participants.get? p = some x → (f x).id = p ∧ x.next ≤ (f x).next) :
    ({ d with participants := d.participants.adjust p f } : Domain).Wf := by
  refine h.withParticipants (fun p' x hx => ?_) fun p' x hx => ?_
  · rw [Table.get?_adjust] at hx
    split_ifs at hx with hp
    · obtain ⟨x', hx', rfl⟩ := Option.map_eq_some_iff.mp hx
      exact hp ▸ (hf x' (hp ▸ hx')).1
    · exact h.identity p' x hx
  · rw [Table.get?_adjust]
    split_ifs with hp
    · exact ⟨f x, by rw [hx]; rfl, (hf x (hp ▸ hx)).2⟩
    · exact ⟨x, hx, Nat.le_refl _⟩

lemma Wf.addParticipant (h : d.Wf) {id : Nat} (hn : d.participants.has id = false)
    (name : String) : (d.addParticipant id name).Wf := by
  have hnone := Table.has_eq_false.mp hn
  have hget : ∀ p, (d.addParticipant id name).participants.get? p =
      if p = id then some (.new id d.id name) else d.participants.get? p := fun p =>
    Table.get?_insertNew _ _ _ _ _ hnone
  refine h.withParticipants (t := (d.addParticipant id name).participants)
    (fun p x hx => ?_) fun p x hx => ?_
  · rw [hget] at hx
    split_ifs at hx with hp
    · rw [← Option.some.inj hx, hp]
      rfl
    · exact h.identity p x hx
  · refine ⟨x, ?_, Nat.le_refl _⟩
    rw [hget, if_neg, hx]
    rintro rfl
    exact absurd (hx.symm.trans hnone) (by simp)

/-- An identity that its participant has yet to issue is nobody's. -/
lemma Wf.unissued (h : d.Wf) {g : Guid} {p : Participant}
    (hp : d.participants.get? g.participant = some p) (hg : p.next ≤ g.entity)
    (k : EndpointKind) : d.has k g = false := by
  by_contra hhas
  obtain ⟨p', hp', hlt⟩ := h.issued k g (by simpa using hhas)
  obtain rfl : p' = p := Option.some.inj (hp'.symm.trans hp)
  exact absurd hlt (Nat.not_lt.mpr hg)

end Domain

end PubSub.Loopback
