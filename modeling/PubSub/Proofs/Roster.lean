import PubSub.Proofs.Endpoint.Step
import PubSub.Wire

/-!
The open endpoints of a participant, told by what it has been made to do alone. A medium adds
nothing to that: whatever else happens there, they are the endpoints that the participant has
created and not closed since, under the numbers that they were given.
-/

namespace PubSub

/-- What an open endpoint shows of itself. -/
structure Offer where
  topic : String
  type : SampleType
  qos : Qos
deriving DecidableEq, Inhabited

namespace Offer

def announcement (o : Offer) (kind : EndpointKind) (g : Guid) : Announcement :=
  ⟨g, kind, o.topic, o.type.name, o.qos⟩

def listing (o : Offer) : MatchKey × Qos := (.of o.topic o.type.name, o.qos)

/-- What a writer offers is what a reader asks for. -/
def Suits (o o' : Offer) : Prop :=
  o.topic = o'.topic ∧ o.type = o'.type ∧ Qos.conflict? o.qos o'.qos = none

end Offer

/-- The names of types tell them apart. -/
lemma SampleType.name_inj {type type' : SampleType} : type.name = type'.name ↔ type = type' := by
  cases type <;> cases type' <;> decide

/-- So do their digests. -/
lemma TypeId.ofName_inj {type type' : SampleType} :
    TypeId.ofName type.name = .ofName type'.name ↔ type = type' := by
  cases type <;> cases type' <;> decide +kernel

lemma MatchKey.of_inj {topic topic' : String} {type type' : SampleType} :
    MatchKey.of topic type.name = .of topic' type'.name ↔ topic = topic' ∧ type = type' := by
  rw [MatchKey.of, MatchKey.of, MatchKey.mk.injEq, TypeId.ofName_inj]

/-- What a participant is made to do with its endpoints. -/
inductive Deed where
  | createGroup
  | createEndpoint (kind : EndpointKind) (g : Group) (t : Topic) (type : SampleType) (q : Qos)
  | close (entity : Nat)
  | delete

/-- A participant with the offers of its open endpoints, by their numbers. -/
structure Roster where
  id : Nat
  next : Nat
  deleted : Bool
  offer? : EndpointKind → Nat → Option Offer

namespace Roster

open Udp.Node (bind_ok)

def start (id : Nat) : Roster := ⟨id, 1, false, fun _ _ => none⟩

def Admits (r : Roster) (g : Group) (t : Topic) (type : SampleType) (q : Qos) : Prop :=
  r.deleted = false ∧ g.participant = r.id ∧ t.participant = r.id ∧ t.typeName = type.name ∧
    q.flaw? = none

instance (r : Roster) (g : Group) (t : Topic) (type : SampleType) (q : Qos) :
    Decidable (r.Admits g t type q) :=
  inferInstanceAs (Decidable (_ ∧ _ ∧ _ ∧ _ ∧ _))

def skip (r : Roster) : Roster := { r with next := r.next + 1 }

def enter (r : Roster) (kind : EndpointKind) (o : Offer) : Roster :=
  { r.skip with offer? := fun k e => if k = kind ∧ e = r.next then some o else r.offer? k e }

def close (r : Roster) (entity : Nat) : Roster :=
  { r with offer? := fun k e => if e = entity then none else r.offer? k e }

def delete (r : Roster) : Roster := { r with deleted := true, offer? := fun _ _ => none }

def step (r : Roster) : Deed → Roster
  | .createGroup => if r.deleted then r else r.skip
  | .createEndpoint kind g t type q =>
    if r.Admits g t type q then r.enter kind ⟨t.name, type, q⟩ else r
  | .close entity => r.close entity
  | .delete => r.delete

def run (r : Roster) (xs : List Deed) : Roster := xs.foldl step r

@[simp] lemma run_nil (r : Roster) : r.run [] = r := rfl

@[simp] lemma run_singleton (r : Roster) (x : Deed) : r.run [x] = r.step x := rfl

lemma run_append (r : Roster) (xs ys : List Deed) : r.run (xs ++ ys) = (r.run xs).run ys :=
  List.foldl_append

def advert? (r : Roster) (kind : EndpointKind) (g : Guid) : Option Announcement :=
  if g.participant = r.id then (r.offer? kind g.entity).map (·.announcement kind g) else none

def listing? (r : Roster) (kind : EndpointKind) (e : Nat) : Option (MatchKey × Qos) :=
  (r.offer? kind e).map (·.listing)

variable {r : Roster}

lemma id_step (r : Roster) (x : Deed) : (r.step x).id = r.id := by
  cases x <;> simp only [step]
  · split_ifs <;> rfl
  · split_ifs <;> rfl
  · rfl
  · rfl

@[simp] lemma id_run (r : Roster) (xs : List Deed) : (r.run xs).id = r.id := by
  induction xs generalizing r with
  | nil => rfl
  | cons x xs ih => exact (ih (r.step x)).trans (r.id_step x)

lemma advert?_eq_some {kind : EndpointKind} {g : Guid} {a : Announcement} :
    r.advert? kind g = some a ↔
      g.participant = r.id ∧ ∃ o, r.offer? kind g.entity = some o ∧ o.announcement kind g = a := by
  simp only [advert?, Option.ite_none_right_eq_some, Option.map_eq_some_iff]

lemma advert?_start (id : Nat) (kind : EndpointKind) (g : Guid) :
    (start id).advert? kind g = none := by
  unfold advert? start
  split_ifs <;> rfl

lemma advert?_enter (r : Roster) (kind k : EndpointKind) (o : Offer) (g : Guid) :
    (r.enter kind o).advert? k g =
      if k = kind ∧ g = ⟨r.id, r.next⟩ then some (o.announcement kind g) else r.advert? k g := by
  obtain ⟨p, e⟩ := g
  simp only [advert?, enter, skip, Guid.mk.injEq]
  by_cases hp : p = r.id
  · simp only [hp, if_true, true_and]
    split_ifs with hnew
    · simp [hnew]
    · rfl
  · simp [hp]

lemma advert?_close (r : Roster) (entity : Nat) (k : EndpointKind) (g : Guid) :
    (r.close entity).advert? k g = if g = ⟨r.id, entity⟩ then none else r.advert? k g := by
  obtain ⟨p, e⟩ := g
  simp only [advert?, close, Guid.mk.injEq]
  by_cases hp : p = r.id
  · simp only [hp, if_true, true_and]
    split_ifs <;> rfl
  · simp [hp]

lemma advert?_delete (r : Roster) (k : EndpointKind) (g : Guid) : r.delete.advert? k g = none := by
  unfold advert? delete
  split_ifs <;> rfl

lemma listing?_enter (r : Roster) (kind k : EndpointKind) (o : Offer) (e : Nat) :
    (r.enter kind o).listing? k e =
      if k = kind ∧ e = r.next then some o.listing else r.listing? k e := by
  unfold listing? enter
  simp only
  split_ifs <;> rfl

lemma listing?_close (r : Roster) (entity : Nat) (k : EndpointKind) (e : Nat) :
    (r.close entity).listing? k e = if e = entity then none else r.listing? k e := by
  unfold listing? close
  simp only
  split_ifs <;> rfl

/-! ### The participant itself -/

/-- The roster is that of a participant. -/
structure Of (r : Roster) (p : Participant) : Prop where
  id : p.id = r.id
  next : p.next = r.next
  deleted : p.deleted = r.deleted

variable {p : Participant}

lemma Of.skip (h : r.Of p) : r.skip.Of { p with next := p.next + 1 } :=
  ⟨h.id, congrArg (· + 1) h.next, h.deleted⟩

lemma Of.enter (h : r.Of p) (kind : EndpointKind) (o : Offer) :
    (r.enter kind o).Of { p with next := p.next + 1 } :=
  ⟨h.id, h.skip.next, h.deleted⟩

lemma Of.close (h : r.Of p) (entity : Nat) : (r.close entity).Of p := ⟨h.id, h.next, h.deleted⟩

lemma Of.delete (h : r.Of p) : r.delete.Of { p with deleted := true } := ⟨h.id, h.next, rfl⟩

lemma Of.admits (h : r.Of p) {kind : EndpointKind} {g : Group} {t : Topic} {type : SampleType}
    {q : Qos} {s : Participant × Guid} (hok : p.createEndpoint kind g t type q = .ok s) :
    r.Admits g t type q := by
  have hflaw := Participant.flaw?_of_createEndpoint hok
  obtain ⟨u, halive, hok⟩ := bind_ok hok
  split_ifs at hok with hgroup
  · simp [throw, throwThe, MonadExceptOf.throw, bind, Except.bind] at hok
  obtain ⟨u', htopic, -⟩ := bind_ok hok
  unfold Participant.checkAlive at halive
  unfold Participant.checkTopic at htopic
  split_ifs at halive with hdeleted
  split_ifs at htopic with hparticipant hname
  rw [Bool.not_eq_true, h.deleted] at hdeleted
  rw [h.id] at hgroup hparticipant
  exact ⟨hdeleted, of_not_not hgroup, of_not_not hparticipant, of_not_not hname, hflaw⟩

/-- A deleted participant creates nothing, and any other one groups as it likes. -/
lemma Of.createGroup (h : r.Of p) (kind : EntityKind) :
    p.createGroup kind = .ok ({ p with next := p.next + 1 }, ⟨p.id, p.next⟩) ∧
        r.step .createGroup = r.skip ∨
      (∃ f, p.createGroup kind = .error f) ∧ r.step .createGroup = r := by
  simp only [Participant.createGroup, Participant.checkAlive, step, ← h.deleted]
  cases p.deleted with
  | true => exact .inr ⟨⟨_, rfl⟩, rfl⟩
  | false => exact .inl ⟨rfl, rfl⟩

/-- An endpoint is created, with the next number, exactly if it passes all checks. -/
lemma Of.createEndpoint (h : r.Of p) (kind : EndpointKind) (g : Group) (t : Topic)
    (type : SampleType) (q : Qos) :
    p.createEndpoint kind g t type q = .ok ({ p with next := p.next + 1 }, ⟨p.id, p.next⟩) ∧
        r.step (.createEndpoint kind g t type q) = r.enter kind ⟨t.name, type, q⟩ ∨
      (∃ f, p.createEndpoint kind g t type q = .error f) ∧
        r.step (.createEndpoint kind g t type q) = r := by
  simp only [step]
  split_ifs with hadmits
  · obtain ⟨halive, hgroup, htopic, hname, hflaw⟩ := hadmits
    rw [← h.deleted] at halive
    rw [← h.id] at hgroup htopic
    refine .inl ⟨?_, rfl⟩
    simp [Participant.createEndpoint, Participant.checkAlive, Participant.checkTopic,
      Participant.checkQos, halive, hgroup, htopic, hname, hflaw, bind, Except.bind, pure,
      Except.pure]
  · refine .inr ⟨?_, rfl⟩
    cases hres : p.createEndpoint kind g t type q with
    | error f => exact ⟨f, rfl⟩
    | ok s => exact absurd (h.admits hres) hadmits

end Roster

end PubSub
