import PubSub.Proofs.Endpoint.Medium
import PubSub.Proofs.Roster

/-!
A participant on the network shows its roster. Whatever it hears and does, it advertises exactly
the endpoints that it has created and not closed since, and what it has said last of them to its
group is what it has.
-/

namespace PubSub

lemma Udp.LinkedReader.guid_drop (s : Reader × StatusMask) (w : Guid) :
    (drop s w).1.guid = s.1.guid := by
  simp only [drop, Reader.removeWriter, ReaderCache.removeWriter]
  cases s.1.cache.hasWriter w <;> rfl

/-- Writers come and go, and the reader stays the one that it is. -/
lemma Udp.LinkedReader.guid_sync (y : LinkedReader) (wanted : Table Guid Bool) :
    (y.sync wanted).reader.guid = y.reader.guid := by
  have hfoldl : ∀ {β : Type} (f : Reader × StatusMask → β → Reader × StatusMask) (l : List β) s,
      (∀ s b, (f s b).1.guid = s.1.guid) → (l.foldl f s).1.guid = s.1.guid := by
    intro β f l s hf
    induction l generalizing s with
    | nil => rfl
    | cons b l ih => exact (ih _).trans (hf s b)
  exact (hfoldl gain _ _ fun _ _ => rfl).trans (hfoldl drop _ (y.reader, .none) guid_drop)

/-- A reader stays the same endpoint, whatever happens to it. -/
lemma Reader.Step.guid {P : Udp.Look → Prop} {y y' : Reader} (h : Reader.Step P y y') :
    y'.guid = y.guid := by
  cases h with
  | received w n c =>
    unfold Reader.receive
    split_ifs
    · split <;> rfl
    · rfl
  | bound w reliable =>
    unfold Loopback.Domain.readerBound
    split_ifs <;> rfl
  | unbound w =>
    unfold Loopback.Domain.readerUnbound Reader.removeWriter
    split
    · next heq =>
      split at heq
      · rw [← (Prod.mk.inj (Option.some.inj heq)).1]
        rfl
      · simp at heq
    · rfl
  | synced refused wanted => exact Udp.LinkedReader.guid_sync ⟨y, refused⟩ wanted
  | refused p => rfl
  | looked l hl =>
    cases l with
    | take max =>
      simp only [Udp.Look.reader, Reader.take]
      split_ifs <;> rfl
    | matched => rfl
    | incompatible => rfl
    | condition f => rfl
  | closed => rfl

lemma Reader.Moves.guid {P : Udp.Look → Prop} {y y' : Reader} (h : Reader.Moves P y y') :
    y'.guid = y.guid := by
  induction h with
  | refl => rfl
  | tail _ hstep ih => exact hstep.guid.trans ih

namespace Udp

def Face.announcement (f : Face) (kind : EndpointKind) (g : Guid) : Announcement :=
  ⟨g, kind, f.topic, f.typeName, f.qos⟩

def Happening.deed? (id : Nat) : Happening → Option Deed
  | .act (.createGroup _) => some .createGroup
  | .act (.createEndpoint kind g t type q) => some (.createEndpoint kind g t type q)
  | .act (.close g) => if g.participant = id then some (.close g.entity) else none
  | .act .delete => some .delete
  | .act .leave => some .delete
  | _ => none

/-- The last word of a participant on its endpoints, after one more message. -/
def said (k : List Announcement) : Dispatch → List Announcement
  | .group (.announce _ _ _ _ _ endpoints) => endpoints
  | .group (.bye _) => []
  | _ => k

def Direct (out : List Dispatch) : Prop := ∀ d ∈ out, ∃ a m, d = .unicast a m

namespace Direct

variable {out out' : List Dispatch}

lemma nil : Direct [] := by simp [Direct]

lemma flatMap {α : Type} {l : List α} {f : α → List Dispatch} (h : ∀ a ∈ l, Direct (f a)) :
    Direct (l.flatMap f) := by
  intro d hd
  obtain ⟨a, ha, hd⟩ := List.mem_flatMap.mp hd
  exact h a ha d hd

lemma address (x : LinkedWriter) (out : List Outgoing) : Direct (x.address out) := by
  intro d hd
  obtain ⟨o, -, ho⟩ := List.mem_filterMap.mp hd
  obtain ⟨a, -, rfl⟩ := Option.map_eq_some_iff.mp ho
  exact ⟨a, _, rfl⟩

lemma said (h : Direct out) (k : List Announcement) : out.foldl Udp.said k = k := by
  induction out with
  | nil => rfl
  | cons d out ih =>
    obtain ⟨a, m, rfl⟩ := h d List.mem_cons_self
    exact ih fun d hd => h d (List.mem_cons_of_mem _ hd)

end Direct

namespace Node

variable {n n' n'' : Node} {kind : EndpointKind} {g : Guid} {out : List Dispatch}

def advert? (n : Node) (kind : EndpointKind) (g : Guid) : Option Announcement :=
  ((n.face? kind g).filter (·.isOpen)).map (·.announcement kind g)

lemma advert?_congr (h : ∀ kind g, n'.face? kind g = n.face? kind g) (kind : EndpointKind)
    (g : Guid) : n'.advert? kind g = n.advert? kind g := by
  rw [advert?, h, advert?]

structure Registered (n : Node) : Prop where
  wf : n.Wf
  distinct : n.readers.Distinct
  named : ∀ r y, n.readers.get? r = some y → y.reader.guid = r

/-- A participant announces exactly its open endpoints. -/
lemma Registered.mem_announcements (h : n.Registered) {a : Announcement} :
    a ∈ n.announcements ↔ n.advert? a.kind a.guid = some a := by
  simp only [announcements, openWriters, openReaders, Table.values, List.mem_append, List.mem_map,
    List.mem_filter, advert?, Option.map_eq_some_iff, Option.filter_eq_some_iff]
  constructor
  · rintro (⟨x, ⟨⟨⟨w, x⟩, hmem, rfl⟩, ho⟩, rfl⟩ | ⟨y, ⟨⟨⟨r, y⟩, hmem, rfl⟩, ho⟩, rfl⟩)
    · have hx := Table.get?_of_mem h.wf.distinct hmem
      refine ⟨x.face, ⟨?_, ho⟩, rfl⟩
      simp [LinkedWriter.announcement, face?, (h.wf.writer w x hx).1, hx]
    · have hy := Table.get?_of_mem h.distinct hmem
      refine ⟨y.face, ⟨?_, ho⟩, rfl⟩
      simp [LinkedReader.announcement, face?, h.named r y hy, hy]
  · rintro ⟨f, ⟨hf, ho⟩, ha⟩
    obtain ⟨g, kind, topic, typeName, q⟩ := a
    cases kind with
    | writer =>
      obtain ⟨x, hx, rfl⟩ := Option.map_eq_some_iff.mp hf
      refine .inl ⟨x, ⟨⟨(g, x), Table.mem_of_get? hx, rfl⟩, ho⟩, ?_⟩
      rw [← ha, LinkedWriter.announcement, (h.wf.writer g x hx).1]
      rfl
    | reader =>
      obtain ⟨y, hy, rfl⟩ := Option.map_eq_some_iff.mp hf
      refine .inr ⟨y, ⟨⟨(g, y), Table.mem_of_get? hy, rfl⟩, ho⟩, ?_⟩
      rw [← ha, LinkedReader.announcement, h.named g y hy]
      rfl

lemma Settled.announcement {f f' : Face} (h : Settled n kind f f') (g : Guid) :
    f'.announcement kind g = f.announcement kind g := by
  cases h with
  | aligned ho h => rw [h.same]; rfl
  | closed hc => rfl

/-- A reconciliation opens and closes nothing. -/
lemma advert?_reconciled (h : ∀ f, n.face? kind g = some f → f.Counted) :
    n.reconciled.advert? kind g = n.advert? kind g := by
  have hsettled := settled_reconciled h
  unfold advert?
  cases hf : n.face? kind g with
  | none =>
    rw [hf] at hsettled
    cases hf' : n.reconciled.face? kind g with
    | none => rfl
    | some f' =>
      rw [hf'] at hsettled
      cases hsettled
  | some f =>
    obtain ⟨f', hf', hs⟩ := rel_left (hf ▸ hsettled)
    rw [hf']
    simp only [Option.filter, hs.isOpen]
    split_ifs
    · exact congrArg some (hs.announcement g)
    · rfl

/-! ### What a participant says -/

def emits (n : Node) : Happening → List Dispatch
  | .arrive now source d => (n.arrive now source d).2
  | .act a => (n.perform a).2

def sent (n : Node) : List Happening → List Dispatch
  | [] => []
  | e :: es => n.emits e ++ (n.happen e).sent es

/-- The endpoints that a participant has announced last, if it has not said farewell since. -/
def told (n : Node) (es : List Happening) : List Announcement := (n.sent es).foldl said []

lemma sent_concat (n : Node) (es : List Happening) (e : Happening) :
    n.sent (es ++ [e]) = n.sent es ++ (n.after es).emits e := by
  induction es generalizing n with
  | nil => simp [sent, after]
  | cons e' es ih => rw [List.cons_append, sent, ih, sent, List.append_assoc]; rfl

lemma told_concat (n : Node) (es : List Happening) (e : Happening) :
    n.told (es ++ [e]) = ((n.after es).emits e).foldl said (n.told es) := by
  rw [told, sent_concat, List.foldl_append, told]

/-- An announcement replaces whatever has been said before. -/
lemma said_announced (n : Node) (out : List Dispatch) (k : List Announcement) :
    (n.announced out).2.foldl said k = n.announcements := by
  rw [announced, List.foldl_append]
  rfl

/-! ### Closing -/

lemma keys_adjustReader (n : Node) (r : Guid) (f : LinkedReader → LinkedReader) :
    (n.adjustReader r f).readers.keys = n.readers.keys := Table.keys_adjust _ _ _

lemma keys_close (n : Node) (g : Guid) : (n.close g).1.readers.keys = n.readers.keys := by
  unfold close
  split_ifs
  · exact keys_adjustReader _ g _
  · rfl

/-- What every closing preserves is preserved when all endpoints are closed. -/
lemma delete_of_close {P : Node → List Dispatch → Prop}
    (hstart : P { n with participant := { n.participant with deleted := true } } [])
    (hclose : ∀ m out g, P m out → P (m.close g).1 (out ++ (m.close g).2)) :
    P n.delete.1 n.delete.2 := by
  have hfoldl : ∀ (gs : List Guid) (s : Node × List Dispatch), P s.1 s.2 →
      let s' := gs.foldl (fun s g => ((s.1.close g).1, s.2 ++ (s.1.close g).2)) s
      P s'.1 s'.2 := by
    intro gs
    induction gs with
    | nil => exact fun s h => h
    | cons g gs ih => exact fun s h => ih _ (hclose s.1 s.2 g h)
  exact hfoldl _ _ hstart

lemma keys_delete (n : Node) : n.delete.1.readers.keys = n.readers.keys :=
  delete_of_close (P := fun m _ => m.readers.keys = n.readers.keys) rfl
    fun m _ g h => (m.keys_close g).trans h

/-! ### What changes no roster -/

/-- Something has happened by which no endpoint has come or gone, and of which the group hears
no more than that. -/
structure Calm (n n' : Node) (out : List Dispatch) : Prop where
  participant : n'.participant = n.participant
  keys : n'.readers.keys = n.readers.keys
  advert : ∀ kind g, n'.advert? kind g = n.advert? kind g
  said : ∀ k, out.foldl said k = k ∨ out.foldl said k = n'.announcements

namespace Calm

lemma refl (n : Node) : Calm n n [] := ⟨rfl, rfl, fun _ _ => rfl, fun _ => .inl rfl⟩

lemma direct (hp : n'.participant = n.participant) (hk : n'.readers.keys = n.readers.keys)
    (hf : ∀ kind g, n'.face? kind g = n.face? kind g) (hd : Direct out) : Calm n n' out :=
  ⟨hp, hk, advert?_congr hf, fun k => .inl (hd.said k)⟩

lemma reconcile (h : ∀ kind g f, n.face? kind g = some f → f.Counted) :
    Calm n n.reconcile.1 n.reconcile.2 where
  participant := rfl
  keys := n.readers.keys_map fun _ y => if y.reader.isOpen then n.reconcileReader y else y
  advert kind g := advert?_reconciled (h kind g)
  said k := by
    have hd : Direct n.replays := .flatMap fun x _ => .address _ _
    exact .inl (hd.said k)

/-- The participant has learnt something, and looks at its matches anew. -/
lemma learn (h : n.Exact) (t : Table Nat Remote) :
    Calm n { n with remotes := t }.reconcile.1 { n with remotes := t }.reconcile.2 := by
  have hsame : ∀ kind g, Node.face? { n with remotes := t } kind g = n.face? kind g := by
    intro kind g
    cases kind <;> rfl
  have hcalm := reconcile (n := { n with remotes := t }) fun kind g f hf =>
    h.counted kind g f (hsame kind g ▸ hf)
  exact ⟨hcalm.participant, hcalm.keys,
    fun kind g => (hcalm.advert kind g).trans (advert?_congr hsame kind g), hcalm.said⟩

lemma hear (h : n.Exact) (now host : Nat) (m : Message) :
    Calm n (n.hear now host m).1 (n.hear now host m).2 := by
  unfold Node.hear
  split_ifs
  · exact .refl n
  · cases m with
    | announce p domain name port lease es =>
      simp only
      split_ifs
      · unfold hearAnnouncement
        simp only
        split_ifs
        · exact .direct rfl rfl (fun kind _ => by cases kind <;> rfl) .nil
        · exact learn h _
      · exact .refl n
    | bye p => exact learn h _
    | data w r number c => exact .refl n
    | ackNack r w acked => exact .refl n

lemma receive (n : Node) (source : Address) (m : Message) :
    Calm n (n.receive source m).1 (n.receive source m).2 := by
  obtain ⟨-, hparticipant, hkeys⟩ := n.receive_rest source m
  refine .direct hparticipant hkeys (n.face?_receive source m) ?_
  cases m with
  | announce p domain name port lease es => exact .nil
  | bye p => exact .nil
  | data w r number c =>
    simp only [Node.receive]
    cases n.readers.get? r with
    | none => exact .nil
    | some y =>
      intro d hd
      obtain ⟨a, -, rfl⟩ := Option.map_eq_some_iff.mp (Option.mem_toList.mp hd)
      exact ⟨source, _, rfl⟩
  | ackNack r w acked =>
    simp only [Node.receive]
    cases n.writers.get? w with
    | none => exact .nil
    | some x =>
      simp only
      split_ifs <;> exact .nil

lemma arrive (h : n.Exact) (now : Nat) (source : Address) (d : Dispatch) :
    Calm n (n.arrive now source d).1 (n.arrive now source d).2 := by
  unfold Node.arrive
  split_ifs
  · cases d with
    | group m => exact hear h now source.host m
    | unicast a m => exact receive n source m
  · exact .refl n

lemma submit (h : n.Wf) {w : Guid} {s : Submission} {acted : Node × List Dispatch}
    (hok : n.submit w s = .ok acted) : Calm n acted.1 acted.2 := by
  obtain ⟨-, hparticipant, hreaders⟩ := submit_rest hok
  refine .direct hparticipant (congrArg _ hreaders) (face?_submit h hok) ?_
  obtain ⟨x, hx⟩ := get?_of_submit hok
  obtain ⟨-, rfl⟩ := submit_shipped hok hx
  exact .address _ _

lemma close {g : Guid} (h : ∀ kind, n.advert? kind g = none) :
    Calm n (n.close g).1 (n.close g).2 := by
  have hclosed : n.isOpen g = false := by
    have hw := h .writer
    have hr := h .reader
    simp only [advert?, face?, Option.map_eq_none_iff, Option.filter_eq_none_iff] at hw hr
    unfold Node.isOpen
    rw [Bool.or_eq_false_iff]
    constructor
    · cases hx : n.writers.get? g with
      | none => rfl
      | some x => simpa [hx, LinkedWriter.face] using hw
    · cases hy : n.readers.get? g with
      | none => rfl
      | some y => simpa [hy, LinkedReader.face, faceOf] using hr
  unfold Node.close
  rw [hclosed]
  exact .refl n

end Calm

/-! ### The roster of a participant -/

/-- The open endpoints of a participant are those of the roster. -/
structure Lists (r : Roster) (n : Node) : Prop where
  of : r.Of n.participant
  advert : ∀ kind g, n.advert? kind g = r.advert? kind g
  distinct : n.readers.Distinct

lemma lists_new (id domain : Nat) (name : String) (port : Nat) (t : Timing) :
    Lists (.start id) (.new id domain name port t) where
  of := ⟨rfl, rfl, rfl⟩
  advert kind g := by
    rw [Roster.advert?_start]
    cases kind <;> rfl
  distinct := Table.distinct_nil

namespace Lists

variable {r : Roster} {k : Nat → Option Notice} {id domain : Nat}

lemma calm (h : Lists r n) (hc : Calm n n' out) : Lists r n' where
  of := hc.participant ▸ h.of
  advert kind g := (hc.advert kind g).trans (h.advert kind g)
  distinct := by
    rw [Table.Distinct, hc.keys]
    exact h.distinct

/-- A participant has no endpoint of another one. -/
lemma foreign (h : Lists r n) (hg : g.participant ≠ r.id) (kind : EndpointKind) :
    n.advert? kind g = none := by
  rw [h.advert, Roster.advert?, if_neg hg]

/-- Only what makes a participant do something with its endpoints changes its roster. -/
lemma calm_happen (h : Lists r n) (hexact : n.Exact) (hwf : n.Wf) {e : Happening}
    (he : e.deed? r.id = none) : Calm n (n.happen e) (n.emits e) := by
  cases e with
  | arrive now source d => exact .arrive hexact now source d
  | act a =>
    cases a with
    -- these are deeds
    | createGroup _ | createEndpoint _ _ _ _ _ | delete | leave => cases he
    | submit w s =>
      simp only [happen, emits, perform]
      split
      · next hok => exact .submit hwf hok
      · exact .refl n
    | lookWriter w l =>
      exact .direct rfl rfl (face?_adjustWriter fun x _ => face_look l x) .nil
    | lookReader r l =>
      exact .direct rfl (n.keys_adjustReader r _)
        (face?_adjustReader fun y _ => faceOf_look l y.reader y.refused) .nil
    | close g =>
      -- what is closed is not an endpoint of the participant itself
      refine .close (h.foreign fun hg => ?_)
      simp [Happening.deed?, hg] at he
    | announce =>
      refine ⟨rfl, rfl, fun _ _ => rfl, fun k => ?_⟩
      simp only [emits, perform]
      split_ifs
      · exact .inr rfl
      · exact .inl rfl
    | expire now =>
      simp only [happen, emits, perform]
      split_ifs
      · unfold Node.expire
        split_ifs
        · exact .learn hexact _
        · exact .refl n
      · exact .refl n
    | retransmit =>
      refine .direct rfl rfl (fun _ _ => rfl) ?_
      simp only [emits, perform]
      split_ifs
      · exact .flatMap fun x _ => .address x _
      · exact .nil

/-- An endpoint comes that has met nobody yet, and matches are looked at anew. -/
lemma enter (h : Lists r n) (hexact : n.Exact) {topic : String} {type : SampleType} {q : Qos}
    (hp : n'.participant = { n.participant with next := n.participant.next + 1 })
    (hd : n'.readers.Distinct)
    (hface : ∀ kind' g, n'.face? kind' g =
      if kind' = kind ∧ g = ⟨n.participant.id, n.participant.next⟩ then
        some ⟨topic, type.name, q, true, [], 0, [], 0⟩
      else n.face? kind' g) :
    Lists (r.enter kind ⟨topic, type, q⟩) n'.reconciled := by
  have hlists : Lists (r.enter kind ⟨topic, type, q⟩) n' := by
    refine ⟨hp ▸ h.of.enter kind _, fun kind' g => ?_, hd⟩
    rw [Roster.advert?_enter, advert?, hface, h.of.id, h.of.next]
    split_ifs with hnew
    · obtain ⟨rfl, -⟩ := hnew
      rfl
    · exact h.advert kind' g
  refine hlists.calm (.reconcile fun kind' g f hf => ?_)
  rw [hface] at hf
  split_ifs at hf
  · exact Option.some.inj hf ▸ counted_new topic type.name q
  · exact hexact.counted kind' g f hf

lemma close (h : Lists r n) {g : Guid} (hg : g.participant = r.id) :
    Lists (r.close g.entity) (n.close g).1 := by
  refine ⟨(n.close_rest g).2 ▸ h.of.close g.entity, fun kind g' => ?_, ?_⟩
  · have hsame : (⟨r.id, g.entity⟩ : Guid) = g := by rw [← hg]
    rw [Roster.advert?_close, hsame, ← h.advert, advert?, face?_close, advert?]
    cases n.face? kind g' with
    | none => simp
    | some f =>
      by_cases hgg : g' = g
      · simp [hgg, Face.shut]
      · simp [hgg]
  · rw [Table.Distinct, n.keys_close]
    exact h.distinct

/-- Whatever is left is closed. -/
lemma delete (h : Lists r n) : Lists r.delete n.delete.1 := by
  obtain ⟨-, hparticipant, hfaces⟩ := n.delete_spec
  refine ⟨hparticipant ▸ h.of.delete, fun kind g => ?_, ?_⟩
  · rw [Roster.advert?_delete, advert?, hfaces]
    cases n.face? kind g <;> simp [Face.shut]
  · rw [Table.Distinct, n.keys_delete]
    exact h.distinct

lemma participant (h : Lists r n) {r' : Roster} {p : Participant} (hof : r'.Of p)
    (hadvert : ∀ kind g, r'.advert? kind g = r.advert? kind g) :
    Lists r' { n with participant := p } := by
  refine ⟨hof, fun kind g => ?_, h.distinct⟩
  rw [hadvert, ← h.advert]
  cases kind <;> rfl

lemma createGroup (h : Lists r n) (kind : EntityKind) :
    Lists (r.step .createGroup) (n.perform (.createGroup kind)).1 := by
  rcases h.of.createGroup kind with ⟨hok, hstep⟩ | ⟨⟨f, herror⟩, hstep⟩
  · have hperform : (n.perform (.createGroup kind)).1 =
        { n with participant := { n.participant with next := n.participant.next + 1 } } := by
      simp [perform, Node.createGroup, hok, bind, Except.bind, pure, Except.pure]
    rw [hstep, hperform]
    exact h.participant h.of.skip fun _ _ => rfl
  · have hperform : (n.perform (.createGroup kind)).1 = n := by
      simp [perform, Node.createGroup, herror, bind, Except.bind]
    rw [hstep, hperform]
    exact h

lemma createEndpoint (h : Lists r n) (hexact : n.Exact) (hwf : n.Wf) (kind : EndpointKind)
    (g : Group) (t : Topic) (type : SampleType) (q : Qos) :
    Lists (r.step (.createEndpoint kind g t type q))
      (n.perform (.createEndpoint kind g t type q)).1 := by
  rcases h.of.createEndpoint kind g t type q with ⟨hok, hstep⟩ | ⟨⟨f, herror⟩, hstep⟩
  · rw [hstep]
    simp only [perform, Node.createEndpoint, hok, bind, Except.bind]
    cases kind with
    | writer =>
      refine h.enter hexact rfl h.distinct fun kind' g' => ?_
      exact face?_insertWriter
        (n := { n with participant := { n.participant with next := n.participant.next + 1 } })
        hwf.fresh_writer t.name type q kind' g'
    | reader =>
      refine h.enter hexact rfl (h.distinct.insertNew _ hwf.fresh_reader _) fun kind' g' => ?_
      exact face?_insertReader
        (n := { n with participant := { n.participant with next := n.participant.next + 1 } })
        hwf.fresh_reader t.name type q kind' g'
  · have hperform : (n.perform (.createEndpoint kind g t type q)).1 = n := by
      simp [perform, Node.createEndpoint, herror, bind, Except.bind]
    rw [hstep, hperform]
    exact h

lemma leave (h : Lists r n) (ha : Abreast id domain k n) : Lists r.delete n.leave.1 := by
  unfold Node.leave
  split_ifs with hrun
  · have hdelete := h.delete
    exact hdelete.participant ⟨hdelete.of.id, hdelete.of.next, hdelete.of.deleted⟩ fun _ _ => rfl
  · -- who has left before has nothing to close
    have hdeleted := ha.left (Bool.not_eq_true _ ▸ hrun)
    refine ⟨⟨h.of.id, h.of.next, hdeleted⟩, fun kind g => ?_, h.distinct⟩
    rw [Roster.advert?_delete, advert?]
    cases hf : n.face? kind g with
    | none => rfl
    | some f => simp [ha.closed hdeleted kind g f hf]

/-- What happens to a participant happens to its roster. -/
theorem happen (h : Lists r n) (ha : Abreast id domain k n) (e : Happening) :
    Lists (r.run (e.deed? id).toList) (n.happen e) := by
  obtain rfl : r.id = id := h.of.id.symm.trans ha.self
  cases e with
  | arrive now source d => exact h.calm (h.calm_happen ha.exact ha.wf rfl)
  | act a =>
    cases a with
    | submit | lookWriter | lookReader | announce | expire | retransmit =>
      exact h.calm (h.calm_happen ha.exact ha.wf rfl)
    | createGroup kind => exact h.createGroup kind
    | createEndpoint kind g t type q => exact h.createEndpoint ha.exact ha.wf kind g t type q
    | close g =>
      by_cases hg : g.participant = r.id
      · simp only [Happening.deed?, if_pos hg]
        exact h.close hg
      · have hnone : Happening.deed? r.id (.act (.close g)) = none := if_neg hg
        rw [hnone]
        exact h.calm (h.calm_happen ha.exact ha.wf hnone)
    | delete => exact h.delete
    | leave => exact h.leave ha

end Lists

/-! ### The last word -/

def Told (as : List Announcement) (n : Node) : Prop := ∀ a, a ∈ as ↔ a ∈ n.announcements

variable {as : List Announcement}

lemma Told.announced (n : Node) (out : List Dispatch) (as : List Announcement) :
    Told ((n.announced out).2.foldl said as) (n.announced out).1 := by
  intro a
  rw [said_announced]
  rfl

lemma Told.calm (h : Told as n) (hc : Calm n n' out) (hr : n.Registered) (hr' : n'.Registered) :
    Told (out.foldl said as) n' := by
  intro a
  rcases hc.said as with heq | heq
  · rw [heq, h, hr.mem_announcements, hr'.mem_announcements, hc.advert]
  · rw [heq]

lemma Told.close (h : Told as n) (g : Guid) : Told ((n.close g).2.foldl said as) (n.close g).1 := by
  unfold Node.close
  split_ifs
  · exact .announced _ _ _
  · exact h

lemma Told.delete (h : Told as n) : Told (n.delete.2.foldl said as) n.delete.1 := by
  refine delete_of_close (P := fun m out => Told (out.foldl said as) m) h fun m out g hm => ?_
  rw [List.foldl_append]
  exact hm.close g

lemma Told.createEndpoint (h : Told as n) (kind : EndpointKind) (g : Group) (t : Topic)
    (type : SampleType) (q : Qos) :
    let acted := n.perform (.createEndpoint kind g t type q)
    Told (acted.2.foldl said as) acted.1 := by
  simp only [perform, Node.createEndpoint]
  cases n.participant.createEndpoint kind g t type q with
  | error f => exact h
  | ok s =>
    cases kind with
    | writer => exact .announced _ _ _
    | reader => exact .announced _ _ _

/-- A participant says at once what has changed, and farewell when it has nothing any more. -/
lemma Told.happen {r : Roster} {k : Nat → Option Notice} {id domain : Nat} (h : Told as n)
    (hl : Lists r n) (ha : Abreast id domain k n) (hr : n.Registered) {e : Happening}
    (hr' : (n.happen e).Registered) : Told ((n.emits e).foldl said as) (n.happen e) := by
  cases e with
  | arrive now source d => exact h.calm (hl.calm_happen ha.exact ha.wf rfl) hr hr'
  | act a =>
    cases a with
    | submit | lookWriter | lookReader | announce | expire | retransmit =>
      exact h.calm (hl.calm_happen ha.exact ha.wf rfl) hr hr'
    | createGroup kind =>
      simp only [emits, Node.happen, perform, Node.createGroup]
      cases n.participant.createGroup kind with
      | error f => exact h
      | ok s => exact h
    | createEndpoint kind g t type q => exact h.createEndpoint kind g t type q
    | close g => exact h.close g
    | delete => exact h.delete
    | leave =>
      by_cases hrun : n.running = true
      · have hout : n.leave.2.foldl said as = [] := by
          simp [Node.leave, hrun, List.foldl_append, said]
        intro a
        have hnone : (n.happen (.act .leave)).advert? a.kind a.guid = none :=
          ((hl.leave ha).advert _ _).trans (Roster.advert?_delete r _ _)
        rw [hr'.mem_announcements, hnone]
        simp [emits, perform, hout]
      · have hsame : n.leave = (n, []) := by simp [Node.leave, hrun]
        simp only [emits, Node.happen, perform, hsame]
        exact h

/-! ### Whatever happens -/

section Run

variable (id domain : Nat) (name : String) (port : Nat) (t : Timing) (es : List Happening)

/-- **The open endpoints of a participant are told by its deeds alone.** -/
theorem lists_after :
    Lists ((Roster.start id).run (es.filterMap (Happening.deed? id)))
      ((Node.new id domain name port t).after es) := by
  induction es using List.reverseRecOn with
  | nil => exact lists_new id domain name port t
  | append_singleton es e ih =>
    have hstep := ih.happen (abreast_after id domain name port t es) e
    rw [← Roster.run_append] at hstep
    have hlast : [e].filterMap (Happening.deed? id) = (e.deed? id).toList := by
      cases he : e.deed? id <;> simp [he]
    rw [after_concat, List.filterMap_append, hlast]
    exact hstep

lemma registered_after : ((Node.new id domain name port t).after es).Registered where
  wf := (abreast_after id domain name port t es).wf
  distinct := (lists_after id domain name port t es).distinct
  named r y hy := by
    have hreader : (Medium.udp.endpoints
        (Medium.udp.run (.new id domain name port t) es)).reader? r = some y.reader :=
      congrArg (Option.map LinkedReader.reader) hy
    obtain ⟨y₀, ⟨topic, type, q, -, rfl⟩, hmoves⟩ :=
      (Medium.Begins.udp id domain name port t).reader_origin hreader
    exact hmoves.guid

lemma told_after :
    Told ((Node.new id domain name port t).told es)
      ((Node.new id domain name port t).after es) := by
  induction es using List.reverseRecOn with
  | nil => exact fun a => Iff.rfl
  | append_singleton es e ih =>
    have hlists := lists_after id domain name port t es
    have hregistered := registered_after id domain name port t (es ++ [e])
    rw [after_concat] at hregistered
    rw [told_concat, after_concat]
    exact ih.happen hlists (abreast_after id domain name port t es)
      (registered_after id domain name port t es) hregistered

/-- What a participant has announced last are the endpoints of its roster. -/
theorem mem_told {a : Announcement} :
    a ∈ (Node.new id domain name port t).told es ↔
      ((Roster.start id).run (es.filterMap (Happening.deed? id))).advert? a.kind a.guid =
        some a := by
  rw [told_after id domain name port t es,
    (registered_after id domain name port t es).mem_announcements,
    (lists_after id domain name port t es).advert]

end Run

end Node

end Udp

end PubSub
