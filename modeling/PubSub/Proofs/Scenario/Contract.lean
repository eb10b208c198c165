import PubSub.History.Change
import PubSub.Proofs.Lifecycle
import PubSub.Scenario.Publisher
import PubSub.Scenario.Subscriber

/-!
What each side of a scenario relies on. A duty says how far a side has got with its medium; with it
come the requests that the side may make and what it then gets. Both programs come to a good end
with a medium that keeps to that, and never ask for more.
-/

namespace PubSub

/-- How far a side has got with its medium. -/
inductive Duty where
  | outside
  | joined (p : Nat)
  | grouped (p : Nat)
  /-- A writer that has made `made` changes: whether it has been matched, and whether it has been
  told of all acknowledgments since. -/
  | writing (p : Nat) (matched : Bool) (made : Nat) (settled : Bool)
  /-- A reader of which `read` samples have been taken: whether another one is there for sure. -/
  | reading (p : Nat) (read : Nat) (ready : Bool)
  | released (p : Nat)
  | away

/-- The endpoint of a participant that has created nothing else but a group. -/
def Guid.sole (p : Nat) : Guid := ⟨p, 2⟩

namespace Duty

def endpoint? : Duty → Option Guid
  | writing p .. => some (.sole p)
  | reading p .. => some (.sole p)
  | _ => none

def fresh (p : Nat) : EndpointKind → Duty
  | .writer => writing p false 0 true
  | .reader => reading p 0 false

end Duty

namespace Scenario

def changes (s : Scenario) : List Change :=
  ⟨1, s.sample.key, .alive, some s.sample.payload⟩ ::
    match s.variant with
    | .plain => []
    | .dispose => [⟨2, s.sample.key, .disposed, none⟩]

def samples (s : Scenario) : List (Sample Value) :=
  ⟨some s.sample, true, .alive, s.sample.key, InstanceKey.handle s.sample.key, 1⟩ ::
    match s.variant with
    | .plain => []
    | .dispose => [.notification s.sample.key .disposed 2]

def donePhase : EndpointKind → Phase
  | .writer => .publisher (some .done)
  | .reader => .subscriber (some .done)

/-- The request is one that a side with that duty may make, and whatever it gets for it, and
whatever its duty is then, has the property. -/
def Grants (s : Scenario) (c : Config) (k : EndpointKind) (D : Duty) :
    (q : Request) → (q.Answer → Duty → Prop) → Prop
  | .join domain _, post => D = .outside ∧ domain = c.domain ∧ ∀ p, post p (.joined p)
  | .createTopic p name type, post =>
    D = .joined p ∧ name = s.topic ∧ type = s.sample.type ∧ post ⟨name, type.name, p⟩ D
  | .createGroup p kind, post => D = .joined p ∧ kind = k ∧ post ⟨p, 1⟩ (.grouped p)
  | .createEndpoint p kind g t type q, post =>
    D = .grouped p ∧ kind = k ∧ g = ⟨p, 1⟩ ∧ t = ⟨s.topic, s.sample.type.name, p⟩ ∧
      type = s.sample.type ∧ q = s.qos ∧ post (.sole p) (.fresh p k)
  | .await e .matched _, post =>
    D.endpoint? = some e ∧ post () (match D with
      | .writing p _ made settled => .writing p true made settled
      | D => D)
  | .await e .acknowledged _, post =>
    ∃ p matched made settled, D = .writing p matched made settled ∧ e = .sole p ∧
      post () (.writing p matched made true)
  | .await e .data _, post =>
    ∃ p read ready, D = .reading p read ready ∧ e = .sole p ∧ read < s.changes.length ∧
      post () (.reading p read true)
  | .takeMatched e _, post => D.endpoint? = some e ∧ ∀ m, post m D
  | .write e v, post =>
    ∃ p settled, D = .writing p true 0 settled ∧ e = .sole p ∧ v = s.sample ∧
      post (InstanceKey.handle v.key) (.writing p true 1 false)
  | .dispose e v handle, post =>
    ∃ p, D = .writing p true 1 true ∧ s.variant = .dispose ∧ e = .sole p ∧ v = s.sample ∧
      handle = InstanceKey.handle v.key ∧ post () (.writing p true 2 false)
  | .take e max, post =>
    ∃ p read, D = .reading p read true ∧ e = .sole p ∧ max = 1 ∧
      ∀ x, s.samples[read]? = some x → post [x] (.reading p (read + 1) false)
  | .delete p, post =>
    (D = .writing p true s.changes.length true ∨ D = .reading p s.changes.length false) ∧
      post () (.released p)
  | .leave p, post => D = .released p ∧ post () .away
  | .rest _, post => post () D

end Scenario

/-- With a medium that grants what it is asked for, the program comes to a good end from here, the
last phase that it has reached being `phase` so far. -/
def Program.Fulfils (s : Scenario) (c : Config) (k : EndpointKind) :
    Program → Duty → Option Phase → Prop
  | .done outcome, D, phase =>
    outcome = .ok () ∧ D = .away ∧ phase = some (Scenario.donePhase k)
  | .say _ next, D, phase => next.Fulfils s c k D phase
  | .reach phase next, D, _ => next.Fulfils s c k D (some phase)
  | .ask q next, D, phase =>
    s.Grants c k D q fun a D' => (next (.ok a)).Fulfils s c k D' phase

namespace Scenario

variable {s : Scenario} {c : Config} {k : EndpointKind} {p read : Nat} {phase : Option Phase}

lemma enter_fulfils {nameStart : String} {start : Phase} {next : Nat → Guid → Program}
    (hc : c.validate = .ok ())
    (h : ∀ p, (next p (.sole p)).Fulfils s c k (.fresh p k) phase) :
    (s.enter c k nameStart start next).Fulfils s c k .outside phase := by
  rw [enter, hc]
  exact ⟨rfl, rfl, fun p => ⟨rfl, rfl, rfl, rfl, rfl, rfl, rfl, rfl, rfl, rfl, rfl, h p⟩⟩

/-- A side that has done all it has to do releases its entities. -/
lemma conclude_fulfils {D : Duty}
    (hD : D = .writing p true s.changes.length true ∨ D = .reading p s.changes.length false) :
    (conclude p (donePhase k)).Fulfils s c k D (some (donePhase k)) :=
  ⟨hD, rfl, rfl, rfl, rfl⟩

/-! ### The publisher -/

lemma publishDisposal_fulfils (hv : s.variant = .dispose) :
    (s.publishDisposal c p (.sole p) (InstanceKey.handle s.sample.key)).Fulfils s c .writer
      (.writing p true 1 true) phase := by
  have hlength : s.changes.length = 2 := by rw [changes, hv]; rfl
  exact ⟨p, rfl, hv, rfl, rfl, rfl, p, true, 2, false, rfl, rfl,
    conclude_fulfils (.inl (by rw [hlength]))⟩

lemma publishSample_fulfils :
    (s.publishSample c p (.sole p)).Fulfils s c .writer (.writing p true 0 true) phase := by
  refine ⟨p, true, rfl, rfl, rfl, p, true, 1, false, rfl, rfl, ?_⟩
  cases hv : s.variant with
  | plain =>
    have hlength : s.changes.length = 1 := by rw [changes, hv]; rfl
    exact conclude_fulfils (.inl (by rw [hlength]))
  | dispose => exact publishDisposal_fulfils hv

/-- **The publisher never asks for more than it is granted**, and comes to its end with that. -/
theorem publisher_fulfils (hc : c.validate = .ok ()) :
    (s.publisher c).Fulfils s c .writer .outside none :=
  enter_fulfils hc fun _ => ⟨rfl, rfl, fun _ => publishSample_fulfils⟩

/-! ### The subscriber -/

lemma subscriberDone_fulfils (phase : Option Phase) (hread : read = s.changes.length) :
    (subscriberDone c p).Fulfils s c .reader (.reading p read false) phase := by
  subst hread
  rw [subscriberDone]
  split_ifs
  · exact conclude_fulfils (.inr rfl)
  · exact conclude_fulfils (.inr rfl)

lemma readNext_fulfils {n : Nat} {before : SubscriberPhase} {probe : ReadProbe}
    {next : Sample Value → Program} {ready : Bool} (hread : read < s.changes.length)
    (h : ∀ x, s.samples[read]? = some x → classify s.topic probe [x] = .ok x ∧
      (next x).Fulfils s c .reader (.reading p (read + 1) false)
        (some (.subscriber (some (.dataWaited n))))) :
    (s.readNext c p (.sole p) n before probe next).Fulfils s c .reader (.reading p read ready)
      phase := by
  refine ⟨p, read, ready, rfl, rfl, hread, p, read, rfl, rfl, rfl, fun x hx => ?_⟩
  obtain ⟨hclassify, hnext⟩ := h x hx
  change Program.Fulfils s c .reader
    (Program.ensure (classify s.topic probe [x]) _ next) _ _
  rw [hclassify]
  exact hnext

lemma readDisposal_fulfils {v : LifecycleVerifier} {x : Sample Value} (hv : s.variant = .dispose)
    (hkey : x.key = s.sample.key) (hhistory : v.history x.key = [.alive]) :
    (s.readDisposal c p (.sole p) v x).Fulfils s c .reader (.reading p 1 false) phase := by
  have hlength : s.changes.length = 2 := by rw [changes, hv]; rfl
  refine readNext_fulfils (by omega) fun y hy => ⟨rfl, ?_⟩
  rw [samples, hv] at hy
  obtain rfl : .notification s.sample.key .disposed 2 = y := Option.some.inj hy
  obtain ⟨v', hv'⟩ := LifecycleVerifier.observeExpected_disposed hhistory
  have hsame : (Sample.notification s.sample.key .disposed 2 : Sample Value).key = x.key :=
    hkey.symm
  rw [if_neg (not_not.mpr hsame)]
  change Program.Fulfils s c .reader
    (Program.ensure (v.observeExpected x.key .disposed .disposed) _ _) _ _
  rw [hv']
  exact subscriberDone_fulfils phase hlength.symm

lemma readSample_fulfils :
    (s.readSample c p (.sole p)).Fulfils s c .reader (.reading p 0 false) phase := by
  refine readNext_fulfils (Nat.succ_pos _) fun x hx => ?_
  obtain rfl :
      ⟨some s.sample, true, .alive, s.sample.key, InstanceKey.handle s.sample.key, 1⟩ = x :=
    Option.some.inj hx
  refine ⟨rfl, ?_⟩
  obtain ⟨v, hv, hhistory⟩ := LifecycleVerifier.observeExpected_new s.sample.key
  change Program.Fulfils s c .reader
    (Program.ensure (LifecycleVerifier.new.observeExpected s.sample.key .alive .alive) _ _) _ _
  rw [hv]
  change Program.Fulfils s c .reader (if some s.sample ≠ some s.sample then _ else _) _ _
  rw [if_neg (not_not.mpr rfl)]
  cases hvariant : s.variant with
  | plain =>
    have hlength : s.changes.length = 1 := by rw [changes, hvariant]; rfl
    exact subscriberDone_fulfils phase hlength.symm
  | dispose => exact readDisposal_fulfils hvariant rfl hhistory

/-- **The subscriber never asks for more than it is granted**, and comes to its end with that. -/
theorem subscriber_fulfils (hc : c.validate = .ok ()) :
    (s.subscriber c).Fulfils s c .reader .outside none :=
  enter_fulfils hc fun _ => ⟨rfl, rfl, fun _ => readSample_fulfils⟩

end Scenario

end PubSub
