import PubSub.Proofs.Udp.Exact
import PubSub.Proofs.Udp.Standing

/-!
Whom the endpoints of a participant have, told by what has been announced to it alone. A
participant keeps exactly what stands of the announcements of others, so every open endpoint has
exactly the peers that stand there and that it can have.
-/

namespace PubSub.Udp

/-- Another participant announces an endpoint of that kind for the topic and type. -/
def Announced (id domain : Nat) (es : List Happening) (kind : EndpointKind)
    (topic typeName : String) (a : Announcement) : Prop :=
  ∃ p x, p ≠ id ∧ standing domain es p = some x ∧ a ∈ x.endpoints ∧
    a.kind = kind ∧ a.topic = topic ∧ a.typeName = typeName

def Remote.notice (x : Remote) : Notice := ⟨x.endpoints, x.lastSeen, x.lease⟩

namespace Node

variable {n m n' : Node} {kind : EndpointKind} {g r : Guid} {f : Face} {id domain : Nat}
  {k : Nat → Option Notice}

def happen (n : Node) : Happening → Node
  | .arrive now source d => (n.arrive now source d).1
  | .act a => (n.perform a).1

def after (n : Node) (es : List Happening) : Node := es.foldl happen n

lemma after_concat (n : Node) (es : List Happening) (e : Happening) :
    n.after (es ++ [e]) = (n.after es).happen e := List.foldl_concat _ _ _ _

/-! ### Participants that have left -/

def AllClosed (n : Node) : Prop := ∀ kind g f, n.face? kind g = some f → f.isOpen = false

lemma Quiet.allClosed (hq : Quiet n m) (h : n.AllClosed) : m.AllClosed := by
  intro kind g f' hf'
  obtain ⟨b, f, hf, rfl⟩ := hq.exists_face hf'
  rw [Face.shut_of_closed (h kind g f hf)]
  exact h kind g f hf

lemma AllClosed.reconciled (h : n.AllClosed)
    (hc : ∀ kind g f, n.face? kind g = some f → f.Counted) : n.reconciled.AllClosed := by
  intro kind g f' hf'
  obtain ⟨f, hf, hsettled⟩ := settled_of_reconciled (hc kind g) hf'
  rw [hsettled.isOpen]
  exact h kind g f hf

/-- A participant stays the one that it is, knows exactly what stands of the announcements of
others until it leaves, and has no open endpoint once it has been deleted. -/
structure Abreast (id domain : Nat) (k : Nat → Option Notice) (n : Node) : Prop where
  self : n.participant.id = id
  group : n.participant.domain = domain
  wf : n.Wf
  exact : n.Exact
  distinct : n.remotes.Distinct
  own : n.remotes.get? id = none
  known : n.running = true → ∀ p, p ≠ id → (n.remotes.get? p).map Remote.notice = k p
  closed : n.participant.deleted = true → n.AllClosed
  left : n.running = false → n.participant.deleted = true

variable {k' : Nat → Option Notice}

lemma abreast_new (id domain : Nat) (name : String) (port : Nat) (t : Timing) :
    Abreast id domain (fun _ => none) (.new id domain name port t) where
  self := rfl
  group := rfl
  wf := wf_new id domain name port t
  exact := ⟨fun kind _ _ hf => by cases kind <;> simp [face?, Node.new] at hf,
    fun kind _ _ hf => by cases kind <;> simp [face?, Node.new] at hf⟩
  distinct := Table.distinct_nil
  own := rfl
  known _ _ _ := rfl
  closed h := by simp [Node.new, Participant.new] at h
  left h := by simp [running, Node.new, Participant.new] at h

/-- A participant that has left learns nothing any more. -/
lemma Abreast.deaf (h : Abreast id domain k n) (hrun : ¬n.running = true)
    (k' : Nat → Option Notice) : Abreast id domain k' n := { h with known := fun hr => absurd hr hrun }

/-- The participant has done something or learnt something, but has not been deleted. -/
lemma Abreast.move (h : Abreast id domain k n) (hwf : n'.Wf) (hexact : n'.Exact)
    (hp : ∃ i, n'.participant = { n.participant with next := i }) (hd : n'.remotes.Distinct)
    (hown : n'.remotes.get? id = none)
    (hknown : n.running = true → ∀ p, p ≠ id → (n'.remotes.get? p).map Remote.notice = k' p)
    (hclosed : n.participant.deleted = true → n.AllClosed → n'.AllClosed) :
    Abreast id domain k' n' := by
  obtain ⟨i, hp⟩ := hp
  have hrun : n'.running = n.running := by rw [running, running, hp]
  have hdeleted : n'.participant.deleted = n.participant.deleted := by rw [hp]
  refine ⟨by rw [hp]; exact h.self, by rw [hp]; exact h.group, hwf, hexact, hd, hown, ?_, ?_, ?_⟩
  · rw [hrun]
    exact hknown
  · rw [hdeleted]
    exact fun hdel => hclosed hdel (h.closed hdel)
  · rw [hrun, hdeleted]
    exact h.left

lemma Abreast.quiet (h : Abreast id domain k n) (hwf : n'.Wf)
    (hp : ∃ i, n'.participant = { n.participant with next := i }) (hr : n'.remotes = n.remotes)
    (hq : Quiet n n') : Abreast id domain k n' :=
  h.move hwf (hq.kept h.exact).exact hp (hr ▸ h.distinct) (hr ▸ h.own) (hr ▸ h.known)
    fun _ => hq.allClosed

/-- The participant has learnt something, and looks at its matches anew. -/
lemma Abreast.learn (h : Abreast id domain k n) {t : Table Nat Remote} (ht : t.Distinct)
    (hown : t.get? id = none)
    (hknown : n.running = true → ∀ p, p ≠ id → (t.get? p).map Remote.notice = k' p) :
    Abreast id domain k' { n with remotes := t }.reconciled := by
  refine h.move (h.wf.remotes t).wf.reconciled (kept_remotes h.exact t).exact ⟨_, rfl⟩ ht hown
    hknown fun _ hclosed => ?_
  have hsame : ∀ kind g, Node.face? { n with remotes := t } kind g = n.face? kind g := by
    intro kind g
    cases kind <;> rfl
  refine AllClosed.reconciled (fun kind g f hf => ?_) fun kind g f hf => ?_
  · exact hclosed kind g f (hsame kind g ▸ hf)
  · exact h.exact.counted kind g f (hsame kind g ▸ hf)

/-! ### Announcements -/

lemma Abreast.hearAnnouncement (h : Abreast id domain k n) {p : Nat} (hp : p ≠ id) (now : Nat)
    (a : Address) (lease : Span) (es : List Announcement) :
    Abreast id domain (Function.update k p (some ⟨es, now, lease⟩))
      (n.hearAnnouncement now p a lease es).1 := by
  have hdistinct : (n.remotes.put (· < ·) p ⟨a, now, lease, es⟩).Distinct := h.distinct.put _ _ _
  have hown : (n.remotes.put (· < ·) p ⟨a, now, lease, es⟩).get? id = none := by
    rw [Table.get?_put, if_neg (Ne.symm hp)]
    exact h.own
  have hknown : n.running = true → ∀ p', p' ≠ id →
      ((n.remotes.put (· < ·) p ⟨a, now, lease, es⟩).get? p').map Remote.notice =
        Function.update k p (some ⟨es, now, lease⟩) p' := by
    intro hrun p' hp'
    rw [Table.get?_put, Function.update_apply]
    split_ifs
    · rfl
    · exact h.known hrun p' hp'
  have hexact := (kept_hearAnnouncement h.exact h.distinct now p a lease es).exact
  unfold Node.hearAnnouncement at hexact ⊢
  simp only at hexact ⊢
  split_ifs at hexact ⊢ with hsame
  · refine h.move (h.wf.remotes _).wf hexact ⟨_, rfl⟩ hdistinct hown hknown
      fun _ hclosed kind g f hf => hclosed kind g f ?_
    cases kind <;> exact hf
  · exact h.learn hdistinct hown hknown

/-- What a participant says itself does not count. -/
lemma Abreast.congr (h : Abreast id domain k n) (hk : ∀ p, p ≠ id → k' p = k p) :
    Abreast id domain k' n :=
  { h with known := fun hrun p hp => (h.known hrun p hp).trans (hk p hp).symm }

lemma Abreast.hear (h : Abreast id domain k n) (now : Nat) (source : Address) (m : Message) :
    Abreast id domain (noted domain k (.arrive now source (.group m)))
      (n.hear now source.host m).1 := by
  have hself : n.id = id := h.self
  unfold Node.hear
  split_ifs with hfrom
  · -- its own words, which it passes over; nothing is said of its own notice
    rw [hself] at hfrom
    refine h.congr fun p hp => ?_
    cases m with
    | announce p' domain' name port lease es =>
      obtain rfl : p' = id := hfrom
      simp only [noted]
      split_ifs
      · exact Function.update_of_ne hp _ _
      · rfl
    | bye p' =>
      obtain rfl : p' = id := hfrom
      exact Function.update_of_ne hp _ _
    | data w r number c => rfl
    | ackNack r w acked => rfl
  · rw [hself] at hfrom
    cases m with
    | announce p domain' name port lease es =>
      simp only [noted, h.group]
      split_ifs
      · exact h.hearAnnouncement hfrom now ⟨source.host, port⟩ _ es
      · exact h
    | bye p =>
      -- a farewell ends the notice, and the reconciliation drops the peers
      have hp : p ≠ id := hfrom
      refine h.learn (h.distinct.erase p) ?_ fun hrun p' hp' => ?_
      · rw [Table.get?_erase, if_neg (Ne.symm hp)]
        exact h.own
      · rw [Table.get?_erase, noted, Function.update_apply]
        split_ifs
        · rfl
        · exact h.known hrun p' hp'
    | data w r number c => exact h
    | ackNack r w acked => exact h

lemma Abreast.expire (h : Abreast id domain k n) (now : Nat) :
    Abreast id domain (noted domain k (.act (.expire now))) (n.expire now).1 := by
  have hfilter := h.distinct.get?_filter_value fun x => !expired now x
  have hknown : n.running = true → ∀ p, p ≠ id →
      (Table.get? (n.remotes.filter fun e => !expired now e.2) p).map Remote.notice =
        noted domain k (.act (.expire now)) p := by
    intro hrun p hp
    rw [hfilter]
    simp only [noted, ← h.known hrun p hp]
    cases n.remotes.get? p with
    | none => rfl
    | some x =>
      have hsame : decide (x.notice.lease.nanos < now - x.notice.heard) = expired now x := rfl
      simp only [Option.map_some, Option.filter, hsame]
      split_ifs <;> rfl
  unfold Node.expire
  split_ifs with hany
  · refine h.learn (h.distinct.filter _) ?_ hknown
    rw [hfilter, h.own]
    rfl
  · -- no lease has run out, so that all notices stand
    have hall : (n.remotes.filter fun e => !expired now e.2) = n.remotes := by
      refine List.filter_eq_self.mpr fun e he => ?_
      rw [Bool.not_eq_true, List.any_eq_false] at hany
      simpa using hany e.2 (List.mem_map_of_mem he)
    rw [hall] at hknown
    exact { h with known := hknown }

lemma Abreast.arrive (h : Abreast id domain k n) (now : Nat) (source : Address) (d : Dispatch) :
    Abreast id domain (noted domain k (.arrive now source d)) (n.arrive now source d).1 := by
  have hwf := (arrived h.wf now source d).wf
  unfold Node.arrive at hwf ⊢
  split_ifs at hwf ⊢ with hrun
  · cases d with
    | group m => exact h.hear now source m
    | unicast a m =>
      obtain ⟨hremotes, hparticipant, -⟩ := n.receive_rest source m
      exact h.quiet hwf ⟨_, hparticipant⟩ hremotes (quiet_receive n source m)
  · exact h.deaf hrun _

/-! ### Acts -/

lemma allClosed_delete (n : Node) : n.delete.1.AllClosed := by
  intro kind g f' hf'
  rw [n.delete_spec.2.2] at hf'
  obtain ⟨f, -, rfl⟩ := Option.map_eq_some_iff.mp hf'
  exact Bool.and_false _

lemma Abreast.delete (h : Abreast id domain k n) : Abreast id domain k n.delete.1 := by
  obtain ⟨hremotes, hparticipant, -⟩ := n.delete_spec
  refine ⟨?_, ?_, (still_delete h.wf).1.wf, ((quiet_delete n).kept h.exact).exact,
    hremotes ▸ h.distinct, hremotes ▸ h.own, fun hrun => ?_, fun _ => n.allClosed_delete,
    fun _ => ?_⟩
  · rw [hparticipant]
    exact h.self
  · rw [hparticipant]
    exact h.group
  · rw [hremotes]
    refine h.known ?_
    rw [running, hparticipant] at hrun
    exact hrun
  · rw [hparticipant]

lemma Abreast.leave (h : Abreast id domain k n) : Abreast id domain k n.leave.1 := by
  have hwf := (still_leave h.wf).1.wf
  unfold Node.leave at hwf ⊢
  split_ifs at hwf ⊢
  · have hdelete := h.delete
    have hquiet := quiet_participant n.delete.1 { n.delete.1.participant with left := true }
    have hdeleted : n.delete.1.participant.deleted = true := by
      rw [n.delete_spec.2.1]
    refine ⟨hdelete.self, hdelete.group, hwf,
      (hquiet.kept hdelete.exact).exact, hdelete.distinct, hdelete.own, fun hrun => ?_,
      fun hdel => hquiet.allClosed (hdelete.closed hdel), fun _ => hdeleted⟩
    simp [running] at hrun
  · exact h

/-- A participant that has been deleted creates no endpoint. -/
lemma alive_of_createEndpoint {p p' : Participant} {e : Group} {t : Topic} {type : SampleType}
    {q : Qos} {guid : Guid} (h : p.createEndpoint kind e t type q = .ok (p', guid)) :
    p.deleted = false := by
  obtain ⟨u, halive, -⟩ := bind_ok h
  by_contra hdeleted
  simp [Participant.checkAlive, hdeleted] at halive

lemma Abreast.createEndpoint (h : Abreast id domain k n) {e : Group} {t : Topic}
    {type : SampleType} {q : Qos} {acted : Node × List Dispatch} {guid : Guid}
    (hok : n.createEndpoint kind e t type q = .ok (acted, guid)) :
    Abreast id domain k acted.1 := by
  have hwf := (turned_createEndpoint h.wf hok).wf
  have hexact := (kept_createEndpoint h.exact h.wf hok).exact
  obtain ⟨⟨p', guid'⟩, hp, hok⟩ := bind_ok hok
  have halive := alive_of_createEndpoint hp
  obtain ⟨rfl, rfl⟩ := createEndpoint_ok hp
  have hclosed : n.participant.deleted = true → n.AllClosed → acted.1.AllClosed := by
    intro hdeleted
    rw [halive] at hdeleted
    exact absurd hdeleted Bool.false_ne_true
  cases kind with
  | writer =>
    obtain ⟨rfl, -⟩ := Prod.mk.inj (Except.ok.inj hok)
    exact h.move hwf hexact ⟨_, rfl⟩ h.distinct h.own h.known hclosed
  | reader =>
    obtain ⟨rfl, -⟩ := Prod.mk.inj (Except.ok.inj hok)
    exact h.move hwf hexact ⟨_, rfl⟩ h.distinct h.own h.known hclosed

lemma Abreast.createGroup (h : Abreast id domain k n) {entity : EntityKind} {e : Group}
    (hok : n.createGroup entity = .ok (m, e)) : Abreast id domain k m := by
  have hwf := (turned_createGroup h.wf hok).wf
  have hquiet := quiet_createGroup hok
  obtain ⟨⟨p', e'⟩, hp, hok⟩ := bind_ok hok
  obtain ⟨-, -, hp⟩ := bind_ok hp
  obtain ⟨rfl, -⟩ := Prod.mk.inj (Except.ok.inj hp)
  obtain ⟨rfl, -⟩ := Prod.mk.inj (Except.ok.inj hok)
  exact h.quiet hwf ⟨_, rfl⟩ rfl hquiet

lemma Abreast.submit (h : Abreast id domain k n) {w : Guid} {s : Submission}
    {acted : Node × List Dispatch} (hok : n.submit w s = .ok acted) :
    Abreast id domain k acted.1 := by
  have hwf := (turned_submit h.wf hok).wf
  obtain ⟨hremotes, hparticipant, -⟩ := submit_rest hok
  exact h.quiet hwf ⟨_, hparticipant⟩ hremotes (quiet_submit h.wf hok)

lemma Abreast.perform (h : Abreast id domain k n) (a : Act) :
    Abreast id domain (noted domain k (.act a)) (n.perform a).1 := by
  cases a with
  | createGroup entity =>
    simp only [Node.perform]
    split
    · next hok => exact h.createGroup hok
    · exact h
  | createEndpoint kind e t type q =>
    simp only [Node.perform]
    split
    · next hok => exact h.createEndpoint hok
    · exact h
  | submit w s =>
    simp only [Node.perform]
    split
    · next hok => exact h.submit hok
    · exact h
  | lookWriter w l =>
    have hwf := (turned_perform h.wf (.lookWriter w l)).wf
    exact h.quiet hwf ⟨_, rfl⟩ rfl (quiet_adjustWriter fun x _ => face_look l x)
  | lookReader r l =>
    have hwf := (turned_perform h.wf (.lookReader r l)).wf
    exact h.quiet hwf ⟨_, rfl⟩ rfl
      (quiet_adjustReader fun y _ => faceOf_look l y.reader y.refused)
  | close g =>
    obtain ⟨hremotes, hparticipant⟩ := n.close_rest g
    exact h.quiet (still_close h.wf g).1.wf ⟨_, hparticipant⟩ hremotes (quiet_close n g)
  | delete => exact h.delete
  | leave => exact h.leave
  | announce => exact h
  | expire now =>
    simp only [Node.perform]
    split_ifs with hrun
    · exact h.expire now
    · -- a participant that has left hears nothing any more
      exact h.deaf hrun _
  | retransmit => exact h

lemma Abreast.happen (h : Abreast id domain k n) (e : Happening) :
    Abreast id domain (noted domain k e) (n.happen e) := by
  cases e with
  | arrive now source d => exact h.arrive now source d
  | act a => exact h.perform a

/-- A participant is abreast of whatever happens. -/
lemma abreast_after (id domain : Nat) (name : String) (port : Nat) (t : Timing)
    (es : List Happening) :
    Abreast id domain (standing domain es) ((Node.new id domain name port t).after es) := by
  induction es using List.reverseRecOn with
  | nil => exact abreast_new id domain name port t
  | append_singleton es e ih =>
    rw [after_concat, standing_concat]
    exact ih.happen e

/-- An endpoint has refused exactly the peers that it could not have at some time. -/
lemma refused_after (id domain : Nat) (name : String) (port : Nat) (t : Timing)
    (es : List Happening) (kind : EndpointKind) (g r : Guid) :
    ((Node.new id domain name port t).after es).Refused kind g r ↔
      ∃ es', es' <+: es ∧ ((Node.new id domain name port t).after es').Refusing kind g r := by
  induction es using List.reverseRecOn with
  | nil =>
    have hnone : (Node.new id domain name port t).face? kind g = none := by cases kind <;> rfl
    constructor
    · rintro ⟨f, hf, -⟩
      exact absurd (hnone.symm.trans hf) (Option.some_ne_none f).symm
    · rintro ⟨es', hes', f, hf, -⟩
      obtain rfl := List.prefix_nil.mp hes'
      exact absurd (hnone.symm.trans hf) (Option.some_ne_none f).symm
  | append_singleton es e ih =>
    have h := abreast_after id domain name port t es
    have hkept : Kept ((Node.new id domain name port t).after es)
        (((Node.new id domain name port t).after es).happen e) := by
      cases e with
      | arrive now source d => exact kept_arrive h.exact h.distinct now source d
      | act a => exact kept_perform h.exact h.wf a
    rw [after_concat, hkept.refused, ih, ← after_concat]
    simp only [List.prefix_concat_iff]
    constructor
    · rintro (⟨es', hes', hr⟩ | hr)
      · exact ⟨es', .inr hes', hr⟩
      · exact ⟨_, .inl rfl, hr⟩
    · rintro ⟨es', rfl | hes', hr⟩
      · exact .inr hr
      · exact .inl ⟨es', hes', hr⟩

/-! ### Whom the endpoints have -/

lemma Abreast.mem_announcedBy (h : Abreast id domain k n) (hrun : n.running = true) {p : Nat}
    {a : Announcement} :
    a ∈ n.announcedBy p ↔ ∃ x, p ≠ id ∧ k p = some x ∧ a ∈ x.endpoints := by
  by_cases hp : p = id
  · subst hp
    simp [announcedBy, h.own]
  · rw [← h.known hrun p hp, announcedBy]
    cases n.remotes.get? p with
    | none => simp
    | some x => simp [hp, Remote.notice]

lemma Abreast.mem_offered {es : List Happening} (h : Abreast id domain (standing domain es) n)
    (hf : n.face? kind g = some f) (ho : f.isOpen = true) {a : Announcement} :
    a ∈ n.offered kind f ↔ Announced id domain es kind.counterpart f.topic f.typeName a := by
  -- an open endpoint is there only until its participant leaves
  have hrun : n.running = true := by
    by_contra hrun
    have hclosed := h.closed (h.left (Bool.not_eq_true _ ▸ hrun)) kind g f hf
    rw [hclosed] at ho
    exact Bool.false_ne_true ho
  rw [Node.mem_offered h.distinct]
  simp only [h.mem_announcedBy hrun, Announced]
  constructor
  · rintro ⟨⟨p, x, hp, hx, ha⟩, hkind⟩
    exact ⟨p, x, hp, hx, ha, hkind⟩
  · rintro ⟨p, x, hp, hx, ha, hkind⟩
    exact ⟨⟨p, x, hp, hx, ha⟩, hkind⟩

/-- The peers that are announced for an endpoint: those that it can have, or those that it
cannot. -/
def candidatesOf (id domain : Nat) (es : List Happening) (kind : EndpointKind) (f : Face)
    (fit : Bool) : Set Guid :=
  {g | ∃ a, Announced id domain es kind.counterpart f.topic f.typeName a ∧ a.guid = g ∧
    (objection? kind f.qos a.qos).isNone = fit}

/-- The readers of a writer are those whose addresses it knows. -/
lemma Wf.isMatched_iff (h : n.Wf) {w r : Guid} {x : LinkedWriter}
    (hx : n.writers.get? w = some x) : x.writer.history.isMatched r = true ↔ r ∈ x.face.peers := by
  rw [WriterHistory.isMatched, ← (h.writer w x hx).2.1.has_eq]
  exact Table.has_iff_mem_keys

lemma exists_writer_face {P : Face → Prop} :
    (∃ f, n.face? .writer g = some f ∧ P f) ↔ ∃ x, n.writers.get? g = some x ∧ P x.face := by
  simp [face?]

lemma exists_reader_face {P : Face → Prop} :
    (∃ f, n.face? .reader g = some f ∧ P f) ↔ ∃ y, n.readers.get? g = some y ∧ P y.face := by
  simp [face?]

section Run

variable (id domain : Nat) (name : String) (port : Nat) (t : Timing) (es : List Happening)

lemma mem_peers_after (hf : ((Node.new id domain name port t).after es).face? kind g = some f)
    (ho : f.isOpen = true) : r ∈ f.peers ↔ r ∈ candidatesOf id domain es kind f true := by
  have h := abreast_after id domain name port t es
  rw [(h.exact.meets kind g f hf ho).peers]
  refine exists_congr fun a => ?_
  rw [h.mem_offered hf ho, Option.isNone_iff_eq_none]

lemma encard_candidates (hf : ((Node.new id domain name port t).after es).face? kind g = some f)
    (ho : f.isOpen = true) : (candidatesOf id domain es kind f true).encard = f.current := by
  have h := abreast_after id domain name port t es
  have hcounted := h.exact.counted kind g f hf
  rw [hcounted.current, ← encard_mem hcounted.peers]
  exact congrArg Set.encard (Set.ext fun r =>
    (mem_peers_after id domain name port t es (r := r) hf ho).symm)

lemma refusing_after :
    ((Node.new id domain name port t).after es).Refusing kind g r ↔
      ∃ f, ((Node.new id domain name port t).after es).face? kind g = some f ∧ f.isOpen = true ∧
        r ∈ candidatesOf id domain es kind f false := by
  have h := abreast_after id domain name port t es
  refine exists_congr fun f => and_congr_right fun hf => and_congr_right fun ho => ?_
  refine exists_congr fun a => ?_
  rw [h.mem_offered hf ho, Option.isNone_eq_false_iff, Option.isSome_iff_ne_none]

/-- An endpoint counts every peer once that has been announced to it and that it could not have,
however often that happened. -/
lemma encard_refused (hf : ((Node.new id domain name port t).after es).face? kind g = some f) :
    {r | ∃ es', es' <+: es ∧ ∃ f', ((Node.new id domain name port t).after es').face? kind g =
        some f' ∧ f'.isOpen = true ∧ r ∈ candidatesOf id domain es' kind f' false}.encard =
      f.refusals := by
  have h := abreast_after id domain name port t es
  have hcounted := h.exact.counted kind g f hf
  rw [hcounted.refusals, ← encard_mem hcounted.refused]
  refine congrArg Set.encard (Set.ext fun r => ?_)
  simp only [Set.mem_ofPred_eq, ← refusing_after, ← refused_after]
  constructor
  · rintro ⟨f', hf', hr⟩
    obtain rfl := Option.some.inj (hf'.symm.trans hf)
    exact hr
  · exact fun hr => ⟨f, hf, hr⟩

end Run

end Node

/-- The readers that other participants announce for a writer: those that it can have, or those
that ask for more than it offers. -/
def readersFor (id domain : Nat) (es : List Happening) (x : Writer) (fit : Bool) : Set Guid :=
  {r | ∃ a, Announced id domain es .reader x.key.topic x.type.name a ∧ a.guid = r ∧
    Qos.compatible x.qos a.qos = fit}

/-- The writers that other participants announce for a reader. -/
def writersFor (id domain : Nat) (es : List Happening) (y : Reader) (fit : Bool) : Set Guid :=
  {w | ∃ a, Announced id domain es .writer y.key.topic y.type.name a ∧ a.guid = w ∧
    Qos.compatible a.qos y.qos = fit}

/-- **Every open endpoint has exactly the peers that are announced for it.** Whatever arrives at a
participant and whatever it does, in any order, an open writer has exactly those readers that
stand in the last announcement of some other participant of the domain and that it can have, with
their addresses, and counts them; an open reader has exactly such writers. And an endpoint has
counted every peer once that was announced at some time while it was open and that it could not
have. -/
theorem discovery_exact (id domain : Nat) (name : String) (port : Nat) (t : Timing)
    (es : List Happening) :
    let n₀ := Node.new id domain name port t
    let n := n₀.after es
    (∀ w x, n.writers.get? w = some x →
      (x.writer.isOpen = true →
        (∀ r, (x.writer.history.isMatched r = true ↔ r ∈ readersFor id domain es x.writer true) ∧
          (x.addresses.has r = true ↔ r ∈ readersFor id domain es x.writer true)) ∧
        (readersFor id domain es x.writer true).encard = x.writer.matched.current) ∧
      {r | ∃ es', es' <+: es ∧ ∃ x', (n₀.after es').writers.get? w = some x' ∧
          x'.writer.isOpen = true ∧ r ∈ readersFor id domain es' x'.writer false}.encard =
        x.writer.incompatible.total) ∧
    (∀ r y, n.readers.get? r = some y →
      (y.reader.isOpen = true →
        (∀ w, y.reader.cache.hasWriter w = true ↔ w ∈ writersFor id domain es y.reader true) ∧
        (writersFor id domain es y.reader true).encard = y.reader.matched.current) ∧
      {w | ∃ es', es' <+: es ∧ ∃ y', (n₀.after es').readers.get? r = some y' ∧
          y'.reader.isOpen = true ∧ w ∈ writersFor id domain es' y'.reader false}.encard =
        y.reader.incompatible.total) := by
  intro n₀ n
  refine ⟨fun w x hx => ⟨fun ho => ?_, ?_⟩, fun r y hy => ⟨fun ho => ?_, ?_⟩⟩
  · -- the peers of an open writer
    have hf : n.face? .writer w = some x.face := congrArg (Option.map LinkedWriter.face) hx
    have hpeers : ∀ r, x.addresses.has r = true ↔ r ∈ readersFor id domain es x.writer true :=
      fun r => Table.has_iff_mem_keys.trans (Node.mem_peers_after id domain name port t es hf ho)
    have htidy := ((Node.abreast_after id domain name port t es).wf.writer w x hx).2.1
    refine ⟨fun r => ⟨?_, hpeers r⟩, Node.encard_candidates id domain name port t es hf ho⟩
    rw [WriterHistory.isMatched, ← htidy.has_eq]
    exact hpeers r
  · -- what a writer has ever refused
    have hf : n.face? .writer w = some x.face := congrArg (Option.map LinkedWriter.face) hx
    refine Eq.trans (congrArg Set.encard (Set.ext fun r => ?_))
      (Node.encard_refused id domain name port t es hf)
    refine exists_congr fun es' => and_congr_right fun _ => ?_
    exact (Node.exists_writer_face (P := fun f => f.isOpen = true ∧
      r ∈ Node.candidatesOf id domain es' .writer f false)).symm
  · -- the peers of an open reader
    have hf : n.face? .reader r = some y.face := congrArg (Option.map LinkedReader.face) hy
    exact ⟨fun w => Table.has_iff_mem_keys.trans
      (Node.mem_peers_after id domain name port t es hf ho),
      Node.encard_candidates id domain name port t es hf ho⟩
  · -- what a reader has ever refused
    have hf : n.face? .reader r = some y.face := congrArg (Option.map LinkedReader.face) hy
    refine Eq.trans (congrArg Set.encard (Set.ext fun w => ?_))
      (Node.encard_refused id domain name port t es hf)
    refine exists_congr fun es' => and_congr_right fun _ => ?_
    exact (Node.exists_reader_face (P := fun f => f.isOpen = true ∧
      w ∈ Node.candidatesOf id domain es' .reader f false)).symm

def advertised (now : Nat) : Happening :=
  .arrive now ⟨0, 7401⟩ (.group (.announce 2 0 "q" 7401 1000
    [⟨⟨2, 2⟩, .reader, "t", SampleType.hello.name, .bestEffort⟩,
      ⟨⟨2, 3⟩, .reader, "t", SampleType.hello.name, .reliable⟩,
      ⟨⟨2, 4⟩, .writer, "t", SampleType.hello.name, .reliable⟩]))

/-- A participant with a writer and a reader hears of two others, one of which comes back after it
has said farewell while the other one falls silent. -/
def encounters : List Happening :=
  [.act (.createGroup .publisher), .act (.createGroup .subscriber),
    .act (.createEndpoint .writer ⟨1, 1⟩ ⟨"t", SampleType.hello.name, 1⟩ .hello .bestEffort),
    advertised 0, .arrive 1 ⟨0, 7401⟩ (.group (.bye 2)), advertised 2,
    .arrive 3 ⟨0, 7402⟩ (.group (.announce 3 0 "s" 7402 100
      [⟨⟨3, 2⟩, .reader, "t", SampleType.hello.name, .bestEffort⟩])),
    .act (.createEndpoint .reader ⟨1, 2⟩ ⟨"t", SampleType.hello.name, 1⟩ .hello .bestEffort),
    .act (.expire 500000000)]

/-- Its writer has one reader left and has refused another one, heard of twice, once. -/
theorem discovery_exact_encounters :
    let n₀ := Node.new 1 0 "p" 7400 .default
    ∃ x y, (n₀.after encounters).writers.get? ⟨1, 3⟩ = some x ∧ x.writer.isOpen = true ∧
      (n₀.after encounters).readers.get? ⟨1, 4⟩ = some y ∧ y.reader.isOpen = true ∧
      ⟨2, 2⟩ ∈ readersFor 1 0 encounters x.writer true ∧
      (readersFor 1 0 encounters x.writer true).encard = 1 ∧
      {r | ∃ es', es' <+: encounters ∧ ∃ x', (n₀.after es').writers.get? ⟨1, 3⟩ = some x' ∧
        x'.writer.isOpen = true ∧ r ∈ readersFor 1 0 es' x'.writer false}.encard = 1 ∧
      ⟨2, 4⟩ ∈ writersFor 1 0 encounters y.reader true ∧
      (writersFor 1 0 encounters y.reader true).encard = 1 := by
  intro n₀
  obtain ⟨hwriter, hreader⟩ := discovery_exact 1 0 "p" 7400 .default encounters
  have hw : ((n₀.after encounters).writers.get? ⟨1, 3⟩).map (fun x =>
      (x.writer.isOpen, x.addresses.keys, x.writer.matched.current,
        x.writer.incompatible.total)) = some (true, [⟨2, 2⟩], 1, 1) := by decide +kernel
  have hr : ((n₀.after encounters).readers.get? ⟨1, 4⟩).map (fun y =>
      (y.reader.isOpen, y.reader.cache.writers.keys, y.reader.matched.current)) =
        some (true, [⟨2, 4⟩], 1) := by decide +kernel
  obtain ⟨x, hx, hx'⟩ := Option.map_eq_some_iff.mp hw
  obtain ⟨y, hy, hy'⟩ := Option.map_eq_some_iff.mp hr
  simp only [Prod.mk.injEq] at hx' hy'
  obtain ⟨ho, hkeys, hcurrent, htotal⟩ := hx'
  obtain ⟨ho', hkeys', hcurrent'⟩ := hy'
  obtain ⟨hmatched, hrefused⟩ := hwriter ⟨1, 3⟩ x hx
  obtain ⟨hhas, hcount⟩ := hmatched ho
  obtain ⟨hhas', hcount'⟩ := (hreader ⟨1, 4⟩ y hy).1 ho'
  rw [hcurrent] at hcount
  rw [htotal] at hrefused
  rw [hcurrent'] at hcount'
  refine ⟨x, y, hx, ho, hy, ho', (hhas ⟨2, 2⟩).2.mp ?_, hcount, hrefused,
    (hhas' ⟨2, 4⟩).mp ?_, hcount'⟩
  · rw [Table.has_iff_mem_keys, hkeys]
    exact List.mem_singleton.mpr rfl
  · rw [ReaderCache.hasWriter, Table.has_iff_mem_keys, hkeys']
    exact List.mem_singleton.mpr rfl

end PubSub.Udp
