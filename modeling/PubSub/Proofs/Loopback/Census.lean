import PubSub.Proofs.Loopback.Call
import PubSub.Proofs.Loopback.Roster

/-!
The worlds that there can be. Whatever is asked and whatever happens, a participant is in one domain
only, and of each number a registry has one live domain at most.
-/

namespace PubSub.Loopback

open Udp (Look)
open Udp.Node (bind_ok createEndpoint_ok)

/-! ### What keeps the participants of a domain -/

/-- Nothing has happened to the place of a domain and to its participants. -/
structure Stays (d d' : Domain) : Prop where
  registry : d'.registry = d.registry
  id : d'.id = d.id
  participants : d'.participants = d.participants

namespace Stays

variable {d d' d'' : Domain}

lemma refl (d : Domain) : Stays d d := ⟨rfl, rfl, rfl⟩

lemma trans (h : Stays d d') (h' : Stays d' d'') : Stays d d'' :=
  ⟨h'.registry.trans h.registry, h'.id.trans h.id, h'.participants.trans h.participants⟩

lemma of (h : Stays d' d'') (hr : d'.registry = d.registry) (hi : d'.id = d.id)
    (hp : d'.participants = d.participants) : Stays d d'' := trans ⟨hr, hi, hp⟩ h

lemma foldl {β : Type} {f : Domain → β → Domain} (h : ∀ d b, Stays d (f d b)) (l : List β)
    (d : Domain) : Stays d (l.foldl f d) := by
  induction l generalizing d with
  | nil => exact refl d
  | cons b l ih => exact (h d b).trans (ih _)

lemma submit (d : Domain) (w : Guid) (out : List Outgoing) : Stays d (d.submit w out) := by
  unfold Domain.submit
  split
  · exact refl d
  · exact ⟨rfl, rfl, rfl⟩

lemma meet (d : Domain) (w : Guid) (offered : Qos) (r : Guid) (requested : Qos) :
    Stays d (d.meet w offered r requested) := by
  unfold Domain.meet
  split
  · exact ⟨rfl, rfl, rfl⟩
  · unfold Domain.bind
    split
    · exact .of (submit _ w _) rfl rfl rfl
    · exact refl d

lemma addWriter (d : Domain) (x : Writer) : Stays d (d.addWriter x) := by
  let d₀ : Domain := { d with writers := d.writers.insertLast x.guid x }
  have hmeet : Stays d₀ _ := foldl (fun d (e : Entry) => meet d x.guid x.qos e.guid e.qos)
    (d₀.listedOf .reader x.key) d₀
  exact trans (hmeet.of rfl rfl rfl) ⟨rfl, rfl, rfl⟩

lemma addReader (d : Domain) (y : Reader) : Stays d (d.addReader y) := by
  let d₀ : Domain := { d with readers := d.readers.insertLast y.guid y }
  have hmeet : Stays d₀ _ := foldl (fun d (e : Entry) => meet d e.guid e.qos y.guid y.qos)
    (d₀.listedOf .writer y.key) d₀
  exact trans (hmeet.of rfl rfl rfl) ⟨rfl, rfl, rfl⟩

lemma unlist (d : Domain) (key : MatchKey) (g : Guid) : Stays d (d.unlist key g) := by
  have hpart : ∀ (e : Entry) (d : Domain) (peer : Entry), Stays d (d.part e peer) := by
    intro e d peer
    unfold Domain.part
    split <;> exact ⟨rfl, rfl, rfl⟩
  unfold Domain.unlist
  split
  · next e _ => exact .trans (foldl (hpart e) _ d) ⟨rfl, rfl, rfl⟩
  · exact refl d

lemma closeWriter (d : Domain) (w : Guid) : Stays d (d.closeWriter w) := by
  unfold Domain.closeWriter
  split
  · split_ifs
    · exact .of (unlist _ _ w) rfl rfl rfl
    · exact refl d
  · exact refl d

lemma closeReader (d : Domain) (r : Guid) : Stays d (d.closeReader r) := by
  unfold Domain.closeReader
  split
  · split_ifs
    · exact .of (unlist _ _ r) rfl rfl rfl
    · exact refl d
  · exact refl d

lemma close (d : Domain) (g : Guid) : Stays d (d.close g) :=
  (closeWriter d g).trans (closeReader _ g)

lemma run (d : Domain) (j : Job) : Stays d (d.run j) := by
  unfold Domain.run
  split
  · exact refl d
  · simp only
    split <;> exact ⟨rfl, rfl, rfl⟩

lemma deliver (d : Domain) : Stays d d.deliver := by
  unfold Domain.deliver
  split
  · exact refl d
  · exact .of (run _ _) rfl rfl rfl

lemma deliverDue (d : Domain) (t : Nat) : Stays d (d.deliverDue t) := by
  unfold Domain.deliverDue
  split_ifs
  · exact refl d
  · exact foldl (fun d _ => deliver d) _ d

lemma settle (d : Domain) : Stays d d.settle := by
  unfold Domain.settle
  split_ifs
  · exact refl d
  · exact foldl (fun d _ => deliver d) _ d

end Stays

/-- A domain has the participants that it had, and is not live unless it was. -/
structure Kept (d d' : Domain) : Prop where
  registry : d'.registry = d.registry
  id : d'.id = d.id
  has : ∀ p, d'.participants.has p = d.participants.has p
  live : d'.live = true → d.live = true

lemma Domain.live_iff {d : Domain} :
    d.live = true ↔ ∃ e ∈ d.participants, e.2.left = false := by
  simp [Domain.live, Table.values]

lemma Domain.has_addParticipant {d : Domain} {id p : Nat} {name : String} :
    (d.addParticipant id name).participants.has p = true ↔
      d.participants.has p = true ∨ p = id := by
  simp only [Domain.addParticipant, Table.has, Table.get?_insertLast, Option.isSome_or,
    Bool.or_eq_true]
  split_ifs with hp <;> simp [hp]

namespace Kept

variable {d d' d'' : Domain}

lemma of_stays (h : Stays d d') : Kept d d' :=
  ⟨h.registry, h.id, fun p => congrArg (Table.has · p) h.participants, fun hl => by
    rwa [Domain.live, ← h.participants]⟩

lemma refl (d : Domain) : Kept d d := of_stays (.refl d)

lemma trans (h : Kept d d') (h' : Kept d' d'') : Kept d d'' :=
  ⟨h'.registry.trans h.registry, h'.id.trans h.id, fun p => (h'.has p).trans (h.has p),
    fun hl => h.live (h'.live hl)⟩

lemma adjust (d : Domain) (p : Nat) {f : Participant → Participant}
    (hf : ∀ e ∈ d.participants, (f e.2).left = false →
      ∃ e' ∈ d.participants, e'.2.left = false) :
    Kept d { d with participants := d.participants.adjust p f } := by
  refine ⟨rfl, rfl, fun p' => Table.has_adjust d.participants p f p', fun hl => ?_⟩
  obtain ⟨e, he, hleft⟩ := Domain.live_iff.mp hl
  obtain ⟨e', he', rfl⟩ := List.mem_map.mp he
  refine Domain.live_iff.mpr ?_
  split_ifs at hleft
  · exact hf e' he' hleft
  · exact ⟨e', he', hleft⟩

lemma delete (d : Domain) (p : Nat) : Kept d (d.delete p) :=
  (adjust d p fun e he hl => ⟨e, he, hl⟩).trans
    (of_stays (.trans (.foldl .closeWriter _ _) (.foldl .closeReader _ _)))

lemma leave (d : Domain) (p : Nat) : Kept d (d.leave p) :=
  (delete d p).trans (adjust _ p fun _ _ hl => by cases hl)

lemma setParticipant {p : Nat} {x : Participant} (hx : d.participant p = .ok x) (n : Nat) :
    Kept d (d.setParticipant { x with next := n }) := by
  refine adjust d x.id fun e he hl => ?_
  unfold Domain.participant at hx
  split at hx
  · next x' hx' =>
    obtain rfl := Except.ok.inj hx
    exact ⟨_, Table.mem_of_get? hx', hl⟩
  · cases hx

lemma createGroup {p : Nat} {kind : EntityKind} {g : Group}
    (h : d.createGroup p kind = .ok (d', g)) : Kept d d' := by
  obtain ⟨x, hx, h⟩ := bind_ok h
  obtain ⟨⟨y, g⟩, hy, h⟩ := bind_ok h
  obtain ⟨u, -, hy⟩ := bind_ok hy
  obtain ⟨rfl, rfl⟩ := Prod.mk.inj (Except.ok.inj hy)
  obtain ⟨rfl, rfl⟩ := Prod.mk.inj (Except.ok.inj h)
  exact setParticipant hx (x.next + 1)

lemma createEndpoint {p : Nat} {kind : EndpointKind} {g : Group} {t : Topic} {type : SampleType}
    {q : Qos} {e : Guid} (h : d.createEndpoint p kind g t type q = .ok (d', e)) : Kept d d' := by
  obtain ⟨x, hx, h⟩ := bind_ok h
  obtain ⟨⟨y, e⟩, hy, h⟩ := bind_ok h
  obtain ⟨rfl, rfl⟩ := createEndpoint_ok hy
  refine (setParticipant hx (x.next + 1)).trans (of_stays ?_)
  cases kind with
  | writer =>
    obtain ⟨rfl, rfl⟩ := Prod.mk.inj (Except.ok.inj h)
    exact .addWriter _ _
  | reader =>
    obtain ⟨rfl, rfl⟩ := Prod.mk.inj (Except.ok.inj h)
    exact .addReader _ _

lemma write {w : Guid} {v : Value} {handle : Handle} (h : d.write w v = .ok (d', handle)) :
    Kept d d' := by
  obtain ⟨⟨d₁, out⟩, hd₁, h⟩ := bind_ok h
  obtain ⟨x, -, hd₁⟩ := bind_ok hd₁
  obtain ⟨rfl, rfl⟩ := Prod.mk.inj (Except.ok.inj hd₁)
  obtain ⟨rfl, rfl⟩ := Prod.mk.inj (Except.ok.inj h)
  exact of_stays (.of (.submit _ w _) rfl rfl rfl)

lemma dispose {w : Guid} {v : Value} {handle : Handle} (h : d.dispose w v handle = .ok d') :
    Kept d d' := by
  obtain ⟨⟨d₁, out⟩, hd₁, h⟩ := bind_ok h
  obtain ⟨x, -, hd₁⟩ := bind_ok hd₁
  obtain ⟨⟨y, out⟩, -, hd₁⟩ := bind_ok hd₁
  obtain ⟨rfl, rfl⟩ := Prod.mk.inj (Except.ok.inj hd₁)
  obtain rfl := Except.ok.inj h
  exact of_stays (.of (.submit _ w _) rfl rfl rfl)

end Kept

/-! ### Worlds -/

/-- What can be asked of a world, and what can happen there. -/
inductive Deed where
  | ask (s : Scope) (q : Request)
  | look (g : Guid) (l : Look)
  | close (g : Guid)
  | pause (p : Nat) (b : Bool)
  | advance
  | passUntil (t : Nat)
  | settle

namespace World

/-- Participants come in where a middleware has its domains. -/
def gate (s : Scope) : Gate World := fun w domain name => w.join s domain name

def deed (w : World) : Deed → World
  | .ask s q => (Runner.answer (gate s) w q).1
  | .look g l =>
    Middleware.adjustReader (Middleware.adjustWriter w g l.writer) g l.reader
  | .close g => Middleware.close w g
  | .pause p b => w.setPaused p b
  | .advance => w.advance
  | .passUntil t => w.passUntil t
  | .settle => w.settle

def after (w : World) (as : List Deed) : World := as.foldl deed w

/-- Every participant has been given its number and is in one domain, and no two live domains of a
registry have one number. -/
structure Sound (w : World) : Prop where
  numbered : ∀ d ∈ w.domains, ∀ p, d.participants.has p = true → p < idBase + w.nextParticipant
  apart : w.domains.Pairwise fun d d' =>
    ∀ p, d.participants.has p = true → d'.participants.has p = false
  sole : w.domains.Pairwise fun d d' =>
    ∀ registry id, isLive registry id d = true → isLive registry id d' = false

namespace Sound

variable {w w' : World} {p : Nat} {d d' : Domain}

lemma new : Sound .new where
  numbered _ h := nomatch h
  apart := List.Pairwise.nil
  sole := List.Pairwise.nil

lemma settled (h : w.Sound) (p : Nat) : w.Settled p := by
  intro d hd hp
  have hapart := h.apart
  rw [domainOf?]
  generalize w.domains = ds at hd hapart
  induction ds with
  | nil => cases hd
  | cons a l ih =>
    obtain ⟨ha, hl⟩ := List.pairwise_cons.mp hapart
    rcases List.mem_cons.mp hd with rfl | hd
    · exact List.find?_cons_of_pos hp
    · have hnot : ¬ a.participants.has p = true := fun hap => by
        simp [ha d hd p hap] at hp
      rw [List.find?_cons, Bool.eq_false_iff.mpr hnot]
      exact ih hd hl

lemma isLive_of_kept (h : Kept d d') {registry id : Nat} (hl : isLive registry id d' = true) :
    isLive registry id d = true := by
  simp only [isLive, Bool.and_eq_true, decide_eq_true_eq] at hl ⊢
  obtain ⟨⟨hr, hi⟩, hlive⟩ := hl
  exact ⟨⟨h.registry ▸ hr, h.id ▸ hi⟩, h.live hlive⟩

lemma map (h : w.Sound) {f : Domain → Domain} (hf : ∀ d ∈ w.domains, Kept d (f d))
    (hd : w'.domains = w.domains.map f) (hn : w'.nextParticipant = w.nextParticipant) :
    w'.Sound := by
  have hmap : ∀ {R : Domain → Domain → Prop}, w.domains.Pairwise R →
      (∀ d ∈ w.domains, ∀ d' ∈ w.domains, R d d' → R (f d) (f d')) → w'.domains.Pairwise R := by
    intro R hR hstep
    rw [hd, List.pairwise_map]
    exact hR.imp_of_mem fun hd hd' h => hstep _ hd _ hd' h
  refine ⟨fun d hd' p hp => ?_, hmap h.apart fun d hd d' hd' hdd p hp => ?_,
    hmap h.sole fun d hd d' hd' hdd registry id hl => ?_⟩
  · rw [hd] at hd'
    obtain ⟨d, hmem, rfl⟩ := List.mem_map.mp hd'
    rw [hn]
    exact h.numbered d hmem p ((hf d hmem).has p ▸ hp)
  · rw [(hf d' hd').has]
    exact hdd p ((hf d hd).has p ▸ hp)
  · by_contra hl'
    have hone := hdd registry id (isLive_of_kept (hf d hd) hl)
    rw [isLive_of_kept (hf d' hd') (Bool.not_eq_false _ ▸ hl')] at hone
    cases hone

lemma adjust (h : w.Sound) (p : Nat) {f : Domain → Domain} (hf : ∀ d, Kept d (f d)) :
    (w.adjust p f).Sound := by
  refine h.map (f := fun d => if d.participants.has p then f d else d) (fun d _ => ?_) rfl rfl
  split_ifs
  · exact hf d
  · exact .refl d

lemma passUntil (h : w.Sound) (t : Nat) : (w.passUntil t).Sound :=
  h.map (f := ({ · with clock := max w.now t })) (fun _ _ => .of_stays ⟨rfl, rfl, rfl⟩) rfl rfl

lemma within {α : Type} {absent : Fault} {F : Domain → Except Fault (Domain × α)} {a : α}
    (h : w.Sound) (hF : ∀ {d d' a}, F d = .ok (d', a) → Kept d d')
    (hw : w.within p absent F = .ok (w', a)) : w'.Sound := by
  unfold World.within at hw
  split at hw
  · next d hd =>
    obtain ⟨⟨d', a'⟩, hok, hw⟩ := bind_ok hw
    obtain ⟨rfl, rfl⟩ := Prod.mk.inj (Except.ok.inj hw)
    refine h.map (f := fun d₁ => if d₁.participants.has p then d' else d₁) (fun d₁ hd₁ => ?_)
      rfl rfl
    split_ifs with hp
    · obtain rfl : d = d₁ := Option.some.inj (hd.symm.trans (h.settled p d₁ hd₁ hp))
      exact hF hok
    · exact .refl d₁
  · cases hw

lemma has_next (h : w.Sound) (hd : d ∈ w.domains) :
    d.participants.has (idBase + w.nextParticipant) = false := by
  by_contra hp
  exact absurd (h.numbered d hd _ (Bool.not_eq_false _ ▸ hp)) (Nat.lt_irrefl _)

/-- The domain of a number that is live takes a participant in. -/
lemma enter_live (h : w.Sound) (registry domain : Nat) (name : String) :
    Sound ⟨w.now, w.nextParticipant + 1, w.domains.map fun d =>
      if isLive registry domain d then d.addParticipant (idBase + w.nextParticipant) name
      else d⟩ := by
  let n := idBase + w.nextParticipant
  let f : Domain → Domain := fun d =>
    if isLive registry domain d then d.addParticipant n name else d
  have hhas : ∀ d p, (f d).participants.has p = true →
      d.participants.has p = true ∨ p = n ∧ isLive registry domain d = true := by
    intro d p hp
    simp only [f] at hp
    split_ifs at hp with hl
    · exact (Domain.has_addParticipant.mp hp).imp id fun hp => ⟨hp, hl⟩
    · exact .inl hp
  have hlive : ∀ {registry id d}, isLive registry id (f d) = true →
      isLive registry id d = true := by
    intro registry id d hl
    simp only [f] at hl
    split_ifs at hl with hd
    · simp only [isLive, Bool.and_eq_true] at hd hl ⊢
      exact ⟨hl.1, hd.2⟩
    · exact hl
  refine ⟨fun d hd p hp => ?_, ?_, ?_⟩
  · obtain ⟨d, hmem, rfl⟩ := List.mem_map.mp hd
    rcases hhas d p hp with hold | ⟨rfl, -⟩
    · exact (h.numbered d hmem p hold).trans (Nat.lt_succ_self _)
    · exact Nat.lt_succ_self _
  · -- nobody had the number, and no two domains are live under the one they come into
    refine List.pairwise_map.mpr
      ((h.apart.and h.sole).imp_of_mem fun {d d'} hd hd' hdd p hp => ?_)
    by_contra hp'
    rcases hhas d p hp with hold | ⟨hpn, hl⟩ <;>
      rcases hhas d' p (Bool.not_eq_false _ ▸ hp') with hold' | ⟨hpn', hl'⟩
    · rw [hdd.1 p hold] at hold'
      cases hold'
    · rw [hpn', h.has_next hd] at hold
      cases hold
    · rw [hpn, h.has_next hd'] at hold'
      cases hold'
    · rw [hdd.2 _ _ hl] at hl'
      cases hl'
  · refine List.pairwise_map.mpr (h.sole.imp fun {d d'} hdd registry id hl => ?_)
    by_contra hl'
    have hone := hdd registry id (hlive hl)
    rw [hlive (Bool.not_eq_false _ ▸ hl')] at hone
    cases hone

/-- A domain is opened for a participant, for none of its number is live. -/
lemma enter_opened (h : w.Sound) {s : Scope} {domain : Nat}
    (hnone : ∀ d ∈ w.domains, isLive s.registry domain d = false) (name : String) :
    Sound ⟨w.now, w.nextParticipant + 1, w.domains ++
      [(Domain.new s.registry domain s.latency w.now).addParticipant
        (idBase + w.nextParticipant) name]⟩ := by
  let n := idBase + w.nextParticipant
  let d₀ : Domain := (Domain.new s.registry domain s.latency w.now).addParticipant n name
  have hhas : ∀ p, d₀.participants.has p = true → p = n := fun p hp =>
    (Domain.has_addParticipant.mp hp).resolve_left (by simp [Domain.new, Table.has])
  have hplace : ∀ registry id, isLive registry id d₀ = true →
      registry = s.registry ∧ id = domain := by
    intro registry id hl
    simp only [isLive, Bool.and_eq_true, decide_eq_true_eq] at hl
    exact ⟨hl.1.1.symm, hl.1.2.symm⟩
  refine ⟨fun d hd p hp => ?_, List.pairwise_append.mpr ⟨h.apart, List.pairwise_singleton _ _,
    fun d hd d' hd' p hp => ?_⟩, List.pairwise_append.mpr ⟨h.sole, List.pairwise_singleton _ _,
    fun d hd d' hd' registry id hl => ?_⟩⟩
  · rcases List.mem_append.mp hd with hd | hd
    · exact (h.numbered d hd p hp).trans (Nat.lt_succ_self _)
    · obtain rfl := List.mem_singleton.mp hd
      exact hhas p hp ▸ Nat.lt_succ_self _
  · obtain rfl := List.mem_singleton.mp hd'
    by_contra hp'
    rw [hhas p (Bool.not_eq_false _ ▸ hp'), h.has_next hd] at hp
    cases hp
  · obtain rfl := List.mem_singleton.mp hd'
    by_contra hl'
    obtain ⟨rfl, rfl⟩ := hplace registry id (Bool.not_eq_false _ ▸ hl')
    rw [hnone d hd] at hl
    cases hl

/-- Who comes in gets a new number, and comes into one domain. -/
lemma join (h : w.Sound) {s : Scope} {domain : Nat} {name : String} {made : World × Nat}
    (hw : w.join s domain name = .ok made) : made.1.Sound := by
  obtain ⟨u, -, hw⟩ := bind_ok hw
  obtain rfl := Except.ok.inj hw
  simp only [World.enter]
  split_ifs with hany
  · exact h.enter_live s.registry domain name
  · refine h.enter_opened (fun d hd => ?_) name
    by_contra hl
    exact hany (List.any_eq_true.mpr ⟨d, hd, Bool.not_eq_false _ ▸ hl⟩)

lemma attempt {α : Type} {r : Except Fault (World × α)} (h : w.Sound)
    (hr : ∀ {w' a}, r = .ok (w', a) → w'.Sound) : (Runner.attempt w r).1.Sound := by
  cases r with
  | error f => exact h
  | ok made => exact hr rfl

lemma deed (h : w.Sound) (a : Deed) : (w.deed a).Sound := by
  cases a with
  | ask s q =>
    cases q with
    | join domain name => exact h.attempt fun hw => h.join hw
    | createTopic p name type => exact h
    | createGroup p kind => exact h.attempt fun hw => h.within .createGroup hw
    | createEndpoint p kind g t type q => exact h.attempt fun hw => h.within .createEndpoint hw
    | await e c limit => exact h
    | takeMatched e kind =>
      simp only [World.deed, Runner.answer, Middleware.takeMatched]
      split
      · exact h.adjust e.participant fun d => .of_stays ⟨rfl, rfl, rfl⟩
      · exact h.adjust e.participant fun d => .of_stays ⟨rfl, rfl, rfl⟩
      · exact h
    | write e v => exact h.attempt fun hw => h.within .write hw
    | dispose e v handle =>
      -- the handle is asked for first, which changes nothing
      refine h.attempt fun {w' u} hw => ?_
      change Except.map (·, ()) (Middleware.dispose w e v handle) = _ at hw
      cases hdone : Middleware.dispose w e v handle with
      | error f =>
        rw [hdone] at hw
        cases hw
      | ok w'' =>
        rw [hdone] at hw
        cases hw
        obtain ⟨⟨w₁, u⟩, hw₁, hdone⟩ := bind_ok hdone
        obtain rfl := Except.ok.inj hdone
        refine h.within (fun {d d' u} hd => ?_) hw₁
        obtain ⟨d₁, hd₁, hd⟩ := bind_ok hd
        obtain ⟨rfl, -⟩ := Prod.mk.inj (Except.ok.inj hd)
        exact .dispose hd₁
    | take e max =>
      simp only [World.deed, Runner.answer, Middleware.take]
      split
      · exact h.adjust e.participant fun d => .of_stays ⟨rfl, rfl, rfl⟩
      · exact h
    | delete p => exact h.adjust p fun d => .delete d p
    | leave p => exact h.adjust p fun d => .leave d p
    | rest span => exact h
  | look g l =>
    exact (h.adjust g.participant (f := (·.adjustWriter g l.writer))
      fun d => .of_stays ⟨rfl, rfl, rfl⟩).adjust g.participant fun d => .of_stays ⟨rfl, rfl, rfl⟩
  | close g => exact h.adjust g.participant fun d => .of_stays (.close d g)
  | pause p b => exact h.adjust p fun d => .of_stays ⟨rfl, rfl, rfl⟩
  | advance =>
    simp only [World.deed, World.advance]
    split
    · next t _ => exact (h.passUntil t).map (fun d _ => .of_stays (.deliverDue d t)) rfl rfl
    · exact h
  | passUntil t => exact h.passUntil t
  | settle =>
    exact (h.passUntil _).map (fun d _ => .of_stays (.settle d)) rfl rfl

lemma after (h : w.Sound) (as : List Deed) : (w.after as).Sound := by
  induction as generalizing w with
  | nil => exact h
  | cons a as ih => exact ih (h.deed a)

end Sound

end World

end PubSub.Loopback
