import PubSub.Proofs.Loopback.Roster
import PubSub.Proofs.Udp.Roster

/-!
The two media agree on who has whom. What an endpoint may have is told by the rosters of the
participants alone. In a domain in memory the endpoints meet when they are created; on the network
each side looks at what it has been told of the other. Both come to the same pairs.
-/

namespace PubSub

/-- The reader asks for what the writer offers, each in the roster of its participant. -/
def Roster.Suited (R : Nat → Roster) (w r : Guid) : Prop :=
  ∃ o o', (R w.participant).offer? .writer w.entity = some o ∧
    (R r.participant).offer? .reader r.entity = some o' ∧ o.Suits o'

lemma Loopback.Domain.bound_after (registry id : Nat) (latency : Span) (clock : Nat)
    (as : List Act) (w r : Guid) :
    ((new registry id latency clock).after as).Bound w r ↔
      Roster.Suited (fun p => (Roster.start p).run (deeds p as)) w r := by
  obtain ⟨met, hgood, -⟩ := good_run registry id latency clock as
  have hbound := hgood.bound_iff (w := w) (r := r)
  rw [Trace.domain_run, Trace.start] at hbound
  rw [hbound, Beside]
  simp only [openAs?_after, Roster.listing?, Option.map_eq_some_iff, Offer.listing, Prod.mk.injEq]
  constructor
  · rintro ⟨key, q, q', ⟨o, ho, rfl, rfl⟩, ⟨o', ho', hkey, rfl⟩, hfit⟩
    obtain ⟨htopic, htype⟩ := MatchKey.of_inj.mp hkey
    exact ⟨o, o', ho, ho', htopic.symm, htype.symm, Option.isNone_iff_eq_none.mp hfit.symm⟩
  · rintro ⟨o, o', ho, ho', htopic, htype, hfit⟩
    refine ⟨_, _, _, ⟨o, ho, rfl, rfl⟩, ⟨o', ho', ?_, rfl⟩, ?_⟩
    · exact MatchKey.of_inj.mpr ⟨htopic.symm, htype.symm⟩
    · exact (Option.isNone_iff_eq_none.mpr hfit).symm

namespace Udp

/-- The participants of a domain on the network, with what has happened at each of them. -/
structure Network where
  domain : Nat
  name : Nat → String
  port : Nat → Nat
  timing : Nat → Timing
  log : Nat → List Happening

namespace Network

variable (N : Network)

def fresh (p : Nat) : Node := .new p N.domain (N.name p) (N.port p) (N.timing p)

def node (p : Nat) : Node := (N.fresh p).after (N.log p)

def told (q : Nat) : List Announcement := (N.fresh q).told (N.log q)

def heard (p q : Nat) : List Announcement :=
  ((standing N.domain (N.log p) q).map (·.endpoints)).getD []

/-- Every participant that has an open endpoint has processed the last word of every other one. -/
def Settled : Prop := ∀ p q, p ≠ q → (N.node p).announcements ≠ [] → N.heard p q = N.told q

/-- An open writer has the reader. -/
def WriterHas (w r : Guid) : Prop :=
  ∃ x, (N.node w.participant).writers.get? w = some x ∧ x.writer.isOpen = true ∧
    x.writer.history.isMatched r = true

/-- An open reader has the writer. -/
def ReaderHas (w r : Guid) : Prop :=
  ∃ y, (N.node r.participant).readers.get? r = some y ∧ y.reader.isOpen = true ∧
    y.reader.cache.hasWriter w = true

/-- Two open endpoints each of which has the other. -/
def Bound (w r : Guid) : Prop := N.WriterHas w r ∧ N.ReaderHas w r

def roster (p : Nat) : Roster := (Roster.start p).run ((N.log p).filterMap (Happening.deed? p))

variable {N} {kind : EndpointKind} {g w r : Guid} {f : Face}

/-! ### Offers and endpoints -/

lemma lists_node (N : Network) (p : Nat) : Node.Lists (N.roster p) (N.node p) :=
  Node.lists_after _ _ _ _ _ _

lemma registered_node (N : Network) (p : Nat) : (N.node p).Registered :=
  Node.registered_after _ _ _ _ _ _

lemma advert?_node (N : Network) (kind : EndpointKind) (g : Guid) :
    (N.node g.participant).advert? kind g =
      ((N.roster g.participant).offer? kind g.entity).map (·.announcement kind g) := by
  refine ((N.lists_node g.participant).advert kind g).trans (if_pos ?_)
  exact (Roster.id_run (.start g.participant) _).symm

/-- What stands of others at a participant with an open endpoint are their offers. -/
lemma announced_iff (h : N.Settled) {p : Nat} (hopen : (N.node p).announcements ≠ [])
    {topic typeName : String} {a : Announcement} :
    Announced p N.domain (N.log p) kind topic typeName a ↔
      a.guid.participant ≠ p ∧
        ∃ o, (N.roster a.guid.participant).offer? kind a.guid.entity = some o ∧
          o.announcement kind a.guid = a ∧ o.topic = topic ∧ o.type.name = typeName := by
  have htold (q : Nat) (hq : q ≠ p) :
      (∃ x, standing N.domain (N.log p) q = some x ∧ a ∈ x.endpoints) ↔
        q = a.guid.participant ∧ ∃ o, (N.roster q).offer? a.kind a.guid.entity = some o ∧
          o.announcement a.kind a.guid = a := by
    have hheard : (∃ x, standing N.domain (N.log p) q = some x ∧ a ∈ x.endpoints) ↔
        a ∈ N.heard p q := by
      unfold heard
      cases standing N.domain (N.log p) q <;> simp
    rw [hheard, h p q (Ne.symm hq) hopen, told, fresh, Node.mem_told, Roster.advert?_eq_some,
      Roster.id_run]
    exact and_congr_left fun _ => eq_comm
  constructor
  · rintro ⟨q, x, hq, hx, ha, rfl, rfl, rfl⟩
    obtain ⟨rfl, o, ho, hoa⟩ := (htold q hq).mp ⟨x, hx, ha⟩
    exact ⟨hq, o, ho, hoa, congrArg Announcement.topic hoa, congrArg Announcement.typeName hoa⟩
  · rintro ⟨hq, o, ho, hoa, rfl, rfl⟩
    have hkind : kind = a.kind := congrArg Announcement.kind hoa
    obtain ⟨x, hx, ha⟩ := (htold _ hq).mpr ⟨rfl, o, hkind ▸ ho, hkind ▸ hoa⟩
    exact ⟨_, x, hq, hx, ha, hkind.symm, (congrArg Announcement.topic hoa).symm,
      (congrArg Announcement.typeName hoa).symm⟩

lemma face_of_offer {o : Offer} (ho : (N.roster g.participant).offer? kind g.entity = some o) :
    ∃ f, (N.node g.participant).face? kind g = some f ∧ f.isOpen = true ∧ f.topic = o.topic ∧
      f.typeName = o.type.name ∧ f.qos = o.qos := by
  have hadvert := N.advert?_node kind g
  rw [ho, Option.map_some, Node.advert?] at hadvert
  obtain ⟨f, hf, heq⟩ := Option.map_eq_some_iff.mp hadvert
  obtain ⟨hf, hopen⟩ := Option.filter_eq_some_iff.mp hf
  exact ⟨f, hf, hopen, congrArg Announcement.topic heq, congrArg Announcement.typeName heq,
    congrArg Announcement.qos heq⟩

lemma offer_of_face (hf : (N.node g.participant).face? kind g = some f) (ho : f.isOpen = true) :
    ∃ o, (N.roster g.participant).offer? kind g.entity = some o := by
  have hadvert := N.advert?_node kind g
  rw [Node.advert?, hf, Option.filter_some, if_pos ho, Option.map_some] at hadvert
  obtain ⟨o, ho, -⟩ := Option.map_eq_some_iff.mp hadvert.symm
  exact ⟨o, ho⟩

lemma announcements_ne_nil (hf : (N.node g.participant).face? kind g = some f)
    (ho : f.isOpen = true) : (N.node g.participant).announcements ≠ [] := by
  have hopen : ((N.node g.participant).face? kind g).filter (·.isOpen) = some f :=
    Option.filter_eq_some_iff.mpr ⟨hf, ho⟩
  have hmem := (N.registered_node g.participant).mem_announcements (a := f.announcement kind g)
  refine List.ne_nil_of_mem (hmem.mpr ?_)
  exact congrArg (Option.map (·.announcement kind g)) hopen

/-- An open endpoint has exactly those endpoints of others whose offers it can accept. -/
lemma has_iff (h : N.Settled) (kind : EndpointKind) (g g' : Guid) :
    (∃ f, (N.node g.participant).face? kind g = some f ∧ f.isOpen = true ∧ g' ∈ f.peers) ↔
      g.participant ≠ g'.participant ∧
        ∃ o o', (N.roster g.participant).offer? kind g.entity = some o ∧
          (N.roster g'.participant).offer? kind.counterpart g'.entity = some o' ∧
          o.topic = o'.topic ∧ o.type = o'.type ∧ objection? kind o.qos o'.qos = none := by
  -- all that an open endpoint has is announced for it, and what is announced are offers
  have hpeers {f : Face} {o : Offer} (hf : (N.node g.participant).face? kind g = some f)
      (hopen : f.isOpen = true) (htopic : f.topic = o.topic) (htype : f.typeName = o.type.name)
      (hqos : f.qos = o.qos) : g' ∈ f.peers ↔ g.participant ≠ g'.participant ∧
        ∃ o', (N.roster g'.participant).offer? kind.counterpart g'.entity = some o' ∧
          o.topic = o'.topic ∧ o.type = o'.type ∧ objection? kind o.qos o'.qos = none := by
    refine (Node.mem_peers_after g.participant N.domain _ _ _ _ hf hopen).trans ?_
    simp only [Node.candidatesOf, Set.mem_ofPred_eq, htopic, htype, hqos,
      announced_iff h (announcements_ne_nil hf hopen), Option.isNone_iff_eq_none]
    constructor
    · rintro ⟨a, ⟨hne, o', ho', hoa, htopic, htype⟩, rfl, hfit⟩
      rw [← hoa] at hfit
      exact ⟨hne.symm, o', ho', htopic.symm, (SampleType.name_inj.mp htype).symm, hfit⟩
    · rintro ⟨hne, o', ho', htopic, htype, hfit⟩
      exact ⟨o'.announcement kind.counterpart g',
        ⟨hne.symm, o', ho', rfl, htopic.symm, by rw [htype]⟩, rfl, hfit⟩
  constructor
  · rintro ⟨f, hf, hopen, hmem⟩
    obtain ⟨o, ho⟩ := offer_of_face hf hopen
    obtain ⟨f', hf', -, htopic, htype, hqos⟩ := face_of_offer ho
    obtain rfl := Option.some.inj (hf'.symm.trans hf)
    obtain ⟨hne, o', hsuits⟩ := (hpeers hf hopen htopic htype hqos).mp hmem
    exact ⟨hne, o, o', ho, hsuits⟩
  · rintro ⟨hne, o, o', ho, hsuits⟩
    obtain ⟨f, hf, hopen, htopic, htype, hqos⟩ := face_of_offer ho
    exact ⟨f, hf, hopen, (hpeers hf hopen htopic htype hqos).mpr ⟨hne, o', hsuits⟩⟩

/-! ### Whom they have -/

lemma writerHas_iff (h : N.Settled) :
    N.WriterHas w r ↔ w.participant ≠ r.participant ∧ Roster.Suited N.roster w r := by
  refine .trans ?_ (has_iff h .writer w r)
  rw [Node.exists_writer_face (P := fun f => f.isOpen = true ∧ r ∈ f.peers)]
  refine exists_congr fun x => and_congr_right fun hx => and_congr_right fun _ => ?_
  exact (N.registered_node w.participant).wf.isMatched_iff hx

lemma readerHas_iff (h : N.Settled) :
    N.ReaderHas w r ↔ w.participant ≠ r.participant ∧ Roster.Suited N.roster w r := by
  have hreader : N.ReaderHas w r ↔ ∃ f, (N.node r.participant).face? .reader r = some f ∧
      f.isOpen = true ∧ w ∈ f.peers := by
    rw [Node.exists_reader_face (P := fun f => f.isOpen = true ∧ w ∈ f.peers)]
    refine exists_congr fun y => and_congr_right fun _ => and_congr_right fun _ => ?_
    exact Table.has_iff_mem_keys
  rw [hreader, has_iff h .reader r w, ne_comm]
  refine and_congr_right fun _ => ⟨?_, ?_⟩
  · rintro ⟨o', o, ho', ho, htopic, htype, hfit⟩
    exact ⟨o, o', ho, ho', htopic.symm, htype.symm, hfit⟩
  · rintro ⟨o, o', ho, ho', htopic, htype, hfit⟩
    exact ⟨o', o, ho', ho, htopic.symm, htype.symm, hfit⟩

end Network

end Udp

/-- **The two media agree on who has whom.** Let the participants of a domain do the same with
their endpoints in memory and on the network, each in its own order, whatever else happens there
and however the participants take turns. As soon as every participant on the network that has an
open endpoint has processed the last word of every other one, the pairs of open endpoints that have
each other are those that have each other in memory, but for endpoints of one participant, which
never meet on the network; if no participant has both writers and readers, as when every endpoint
has a participant of its own, the pairs are the same. And a writer has a reader on the network
exactly if the reader has the writer. -/
theorem media_agree (registry id : Nat) (latency : Span) (clock : Nat) (as : List Loopback.Act)
    (N : Udp.Network)
    (hdeeds : ∀ p, (N.log p).filterMap (Udp.Happening.deed? p) = Loopback.deeds p as)
    (hsettled : N.Settled) :
    let d := (Loopback.Domain.new registry id latency clock).after as
    (∀ w r, N.Bound w r ↔ d.Bound w r ∧ w.participant ≠ r.participant) ∧
      ((∀ w r, d.has .writer w = true → d.has .reader r = true →
          w.participant ≠ r.participant) →
        {e : Guid × Guid | N.Bound e.1 e.2} = {e | d.Bound e.1 e.2}) ∧
      ∀ w r, N.WriterHas w r ↔ N.ReaderHas w r := by
  intro d
  have hrosters : N.roster = fun p => (Roster.start p).run (Loopback.deeds p as) :=
    funext fun p => congrArg _ (hdeeds p)
  have hbound (w r : Guid) : N.Bound w r ↔ d.Bound w r ∧ w.participant ≠ r.participant := by
    rw [Udp.Network.Bound, Udp.Network.writerHas_iff hsettled,
      Udp.Network.readerHas_iff hsettled, and_self, hrosters, and_comm]
    exact and_congr_left fun _ =>
      (Loopback.Domain.bound_after registry id latency clock as w r).symm
  refine ⟨hbound, fun happart => Set.ext fun ⟨w, r⟩ => ?_, fun w r => ?_⟩
  · refine (hbound w r).trans (and_iff_left_of_imp ?_)
    rintro ⟨x, y, hx, hy, -⟩
    exact happart w r (Table.has_eq_true.mpr ⟨x, hx⟩) (Table.has_eq_true.mpr ⟨y, hy⟩)
  · rw [Udp.Network.writerHas_iff hsettled, Udp.Network.readerHas_iff hsettled]

/-- One participant writes and two others read; one of these closes its reader again. -/
def gathering : List Loopback.Act :=
  [.join 1 "p", .join 2 "q", .join 3 "s", .createGroup 1 .publisher, .createGroup 2 .subscriber,
    .createGroup 3 .subscriber,
    .createEndpoint 3 .reader ⟨3, 1⟩ ⟨"t", SampleType.hello.name, 3⟩ .hello .bestEffort,
    .createEndpoint 1 .writer ⟨1, 1⟩ ⟨"t", SampleType.hello.name, 1⟩ .hello .reliable,
    .createEndpoint 2 .reader ⟨2, 1⟩ ⟨"t", SampleType.hello.name, 2⟩ .hello .reliable,
    .close ⟨3, 2⟩]

def hearing (p : Nat) (es : List Announcement) : Udp.Happening :=
  .arrive 0 ⟨p, 7400⟩ (.group (.announce p 0 "" 7400 1000 es))

/-- The same on the network, where the reader that is closed has been heard of by the writer. -/
def spread : Udp.Network where
  domain := 0
  name _ := ""
  port _ := 7400
  timing _ := .default
  log
    | 1 => [.act (.createGroup .publisher),
      hearing 3 [⟨⟨3, 2⟩, .reader, "t", SampleType.hello.name, .bestEffort⟩],
      .act (.createEndpoint .writer ⟨1, 1⟩ ⟨"t", SampleType.hello.name, 1⟩ .hello .reliable),
      hearing 2 [⟨⟨2, 2⟩, .reader, "t", SampleType.hello.name, .reliable⟩], hearing 3 []]
    | 2 => [.act (.createGroup .subscriber),
      .act (.createEndpoint .reader ⟨2, 1⟩ ⟨"t", SampleType.hello.name, 2⟩ .hello .reliable),
      hearing 1 [⟨⟨1, 2⟩, .writer, "t", SampleType.hello.name, .reliable⟩]]
    | 3 => [.act (.createGroup .subscriber),
      .act (.createEndpoint .reader ⟨3, 1⟩ ⟨"t", SampleType.hello.name, 3⟩ .hello .bestEffort),
      .act (.close ⟨3, 2⟩)]
    | _ => []

/-- The writer has the reader that is still open, and has lost the other one. -/
theorem media_agree_gathering :
    let d := (Loopback.Domain.new 0 0 (.ofMillis 0) 0).after gathering
    (∀ p, (spread.log p).filterMap (Udp.Happening.deed? p) = Loopback.deeds p gathering) ∧
      spread.Settled ∧ d.Bound ⟨1, 2⟩ ⟨2, 2⟩ ∧ spread.Bound ⟨1, 2⟩ ⟨2, 2⟩ ∧
      ¬spread.Bound ⟨1, 2⟩ ⟨3, 2⟩ := by
  have hdeeds (p : Nat) :
      (spread.log p).filterMap (Udp.Happening.deed? p) = Loopback.deeds p gathering := by
    rcases p with _ | _ | _ | _ | p
    · rfl
    · rfl
    · rfl
    · rfl
    · simp [spread, Loopback.deeds, gathering, Loopback.Act.joins]
  have hstranger (q : Nat) : spread.heard 1 (q + 4) = spread.told (q + 4) ∧
      spread.heard 2 (q + 4) = spread.told (q + 4) := by
    have htold : spread.told (q + 4) = [] := rfl
    rw [htold]
    constructor <;>
      simp [spread, Udp.Network.heard, Udp.standing, Udp.noted, hearing, Function.update]
  have hsettled : spread.Settled := by
    intro p q hne hopen
    -- only two participants have an open endpoint in the end
    obtain rfl | rfl : p = 1 ∨ p = 2 := by
      rcases p with _ | _ | _ | _ | p
      · exact absurd (by decide +kernel) hopen
      · exact .inl rfl
      · exact .inr rfl
      · exact absurd (by decide +kernel) hopen
      · exact absurd rfl hopen
    · rcases q with _ | _ | _ | _ | q
      · decide +kernel
      · exact absurd rfl hne
      · decide +kernel
      · decide +kernel
      · exact (hstranger q).1
    · rcases q with _ | _ | _ | _ | q
      · decide +kernel
      · decide +kernel
      · exact absurd rfl hne
      · decide +kernel
      · exact (hstranger q).2
  obtain ⟨hbound, -, -⟩ := media_agree 0 0 (.ofMillis 0) 0 gathering spread hdeeds hsettled
  have hwriter : (((Loopback.Domain.new 0 0 (.ofMillis 0) 0).after gathering).writers.get?
      ⟨1, 2⟩).map (fun x => (x.isOpen, x.history.isMatched ⟨2, 2⟩, x.history.isMatched ⟨3, 2⟩)) =
        some (true, true, false) := by
    decide +kernel
  have hreader : (((Loopback.Domain.new 0 0 (.ofMillis 0) 0).after gathering).readers.get?
      ⟨2, 2⟩).map (fun y => (y.isOpen, y.cache.hasWriter ⟨1, 2⟩)) = some (true, true) := by
    decide +kernel
  obtain ⟨x, hx, hw⟩ := Option.map_eq_some_iff.mp hwriter
  obtain ⟨y, hy, hr⟩ := Option.map_eq_some_iff.mp hreader
  simp only [Prod.mk.injEq] at hw hr
  obtain ⟨ho, hmatched, hlost⟩ := hw
  have hmeet : ((Loopback.Domain.new 0 0 (.ofMillis 0) 0).after gathering).Bound ⟨1, 2⟩ ⟨2, 2⟩ :=
    ⟨x, y, hx, hy, ho, hr.1, hmatched, hr.2⟩
  refine ⟨hdeeds, hsettled, hmeet, (hbound _ _).mpr ⟨hmeet, by decide⟩, fun hgone => ?_⟩
  obtain ⟨⟨x', -, hx', -, -, -, hmatched', -⟩, -⟩ := (hbound _ _).mp hgone
  obtain rfl := Option.some.inj (hx'.symm.trans hx)
  exact Bool.false_ne_true (hlost.symm.trans hmatched')

end PubSub
