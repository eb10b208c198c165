import PubSub.Proofs.Loopback.Duet.Endpoint
import PubSub.Proofs.Loopback.Listing

/-!
How the sides of a duet come: their participants get on, and their endpoints enter.
-/

namespace PubSub.Loopback.Duet

variable {s : Scenario} {σ : Duet} {d : Domain} {a : Option Domain.Receipt} {k : EndpointKind}

lemma ending_of_not_created {p : Presence} (h : p.created = false) : p.ending = false := by
  cases p <;> first | rfl | cases h

lemma entered_of_not_created {p : Presence} (h : p.created = false) : p.entered = false := by
  cases p <;> first | rfl | cases h

/-- An endpoint that is not about to go, is not there or is active. -/
lemma not_created_or_active {p : Presence} (h : p.ending = false) :
    p.created = false ∨ p = .active := by
  cases p <;> first | exact .inl rfl | exact .inr rfl | cases h

lemma ne_outside_of_created {p : Presence} (h : p.created = true) : p ≠ .outside := by
  rintro rfl
  cases h

lemma ne_outside_of_entered {p : Presence} (h : p.entered = true) : p ≠ .outside := by
  rintro rfl
  cases h

lemma ne_outside_of_post {p : Nat} {x : Presence} (hk : σ.post k = ⟨p, x⟩) (hx : x ≠ .outside) :
    (σ.post k).presence ≠ .outside := by
  rw [hk]
  exact hx

namespace Orderly

variable {total : Nat}

/-- Nothing has been made before both endpoints are there. -/
lemma made_eq_zero (h : σ.Orderly total) (hk : (σ.post k).presence.created = false) :
    σ.made = 0 := by
  by_contra hpos
  obtain ⟨hw, hr⟩ := h.begun (Nat.pos_of_ne_zero hpos)
  cases k with
  | writer => exact absurd hw (ne_true_of_eq_false hk)
  | reader => exact absurd hr (ne_true_of_eq_false hk)

/-- Nothing has happened before both endpoints are there. -/
lemma unbegun (h : σ.Orderly total) (hk : (σ.post k).presence.created = false) :
    σ.made = 0 ∧ σ.sent = 0 ∧ σ.got = 0 ∧ σ.acked = 0 ∧ σ.read = 0 := by
  have hmade := h.made_eq_zero hk
  have hsent := h.sent
  have hgot := h.got
  have hacked := h.acked
  have hread := h.read
  omega

lemma apart_of (h : σ.Orderly total) (hk : (σ.post k).presence ≠ .outside)
    (hother : (σ.post (other k)).presence ≠ .outside) :
    (σ.post (other k)).home ≠ (σ.post k).home := by
  cases k with
  | writer => exact (h.apart hk hother).symm
  | reader => exact h.apart hother hk

/-- A side that has no endpoint yet, and does not get one, holds nobody up. -/
lemma settle (h : σ.Orderly total) {x : Post} (hk : (σ.post k).presence.created = false)
    (hx : x.presence.created = false)
    (hapart : x.presence ≠ .outside → (σ.post (other k)).presence ≠ .outside →
      x.home ≠ (σ.post (other k)).home) : (σ.move k x).Orderly total := by
  have hmade := h.made_eq_zero hk
  have hstays := ending_of_not_created hx
  cases k with
  | writer =>
    exact { h with
      apart := hapart
      begun := fun hpos => absurd hmade (Nat.ne_of_gt hpos)
      written := fun hend => absurd hend (ne_true_of_eq_false hstays) }
  | reader =>
    exact { h with
      apart := fun hw hr => (hapart hr hw).symm
      begun := fun hpos => absurd hmade (Nat.ne_of_gt hpos)
      written := fun hend => by
        obtain ⟨htotal, hr | hr⟩ := h.written hend
        · exact absurd hr (ne_true_of_eq_false (ending_of_not_created hk))
        · exact ⟨htotal, .inr hr⟩
      finished := fun hend => absurd hend (ne_true_of_eq_false hstays) }

end Orderly

/-! ### Participants -/

/-- Before both endpoints are there, nothing is on its way. -/
lemma Fits.idle (h : Fits s σ d a) (hk : (σ.post k).presence.created = false)
    (hr : σ.reader.presence.ending = false) : d.queue = [] ∧ a = none := by
  obtain ⟨-, hsent, hgot, -, -⟩ := h.order.unbegun hk
  have hjobs := h.jobs hr
  have hreceipt := h.receipt hr
  rw [hsent, List.take_zero, List.drop_nil] at hjobs
  refine ⟨List.map_eq_nil_iff.mp hjobs, ?_⟩
  cases a with
  | none => rfl
  | some a => omega

lemma entries_move {x : Post} (hk : (σ.post k).presence.created = false)
    (hx : x.presence.created = false) : (σ.move k x).entries s = σ.entries s := by
  have hnew : x.presence.entered = false := entered_of_not_created hx
  cases k with
  | writer =>
    have hold : σ.writer.presence.entered = false := entered_of_not_created hk
    simp [Duet.entries, List.filter_cons, post, move, hold, hnew, entry]
  | reader =>
    have hold : σ.reader.presence.entered = false := entered_of_not_created hk
    simp [Duet.entries, List.filter_cons, post, move, hold, hnew, entry]

/-- A reader does not notice how far a writer is that it does not know. -/
lemma ReaderFits.settle {y : Reader} (h : σ.ReaderFits s y) {x : Post}
    (hk : σ.writer.presence.created = false) (hx : x.presence.created = false) :
    (σ.move .writer x).ReaderFits s y := by
  refine h.update rfl (hx.trans hk.symm) rfl rfl fun _ hcache => ?_
  have hgone : σ.writer.presence ≠ .gone := fun hg => by rw [hg] at hk; cases hk
  obtain ⟨extra, hunread, hextra⟩ := hcache.unread
  exact ⟨hcache.qos, hcache.peers.eq_nil hk ▸ peersFit_nil hx, extra, hunread,
    fun _ => hextra hgone⟩

/-- A writer does not notice how far a reader is that it does not know. -/
lemma WriterFits.settle {w : Writer} (h : σ.WriterFits s w) {x : Post}
    (hk : σ.reader.presence.created = false) (hx : x.presence.created = false) :
    (σ.move .reader x).WriterFits s w :=
  h.update rfl (hx.trans hk.symm) rfl (Nat.le_refl _) fun _ hh =>
    ⟨hh.qos, hh.next, hh.retained, hh.proxies.eq_nil hk ▸ proxiesFit_nil hx⟩

/-- A side that has no endpoint yet gets on by something that its participant does. -/
lemma Fits.settle (h : Fits s σ d a) {x : Post} {t : Table Nat Participant}
    (hk : (σ.post k).presence.created = false) (hx : x.presence.created = false)
    (hhoused : ∀ k', ((σ.move k x).post k').Housed { d with participants := t })
    (hpeopled : ∀ p, t.has p = true →
      ∃ k', ((σ.move k x).post k').presence ≠ .outside ∧ ((σ.move k x).post k').home = p)
    (hapart : x.presence ≠ .outside → (σ.post (other k)).presence ≠ .outside →
      x.home ≠ (σ.post (other k)).home) :
    Fits s (σ.move k x) { d with participants := t } a := by
  have horder := h.order.settle hk hx hapart
  have hentries : (d.listed s.matchKey).Perm ((σ.move k x).entries s) :=
    entries_move hk hx ▸ h.entries
  -- with one side not there yet nothing is made, sent or queued
  obtain ⟨-, hsent, hgot, hacked, -⟩ := h.order.unbegun hk
  have hjobs (hr : σ.reader.presence.ending = false) (f : Nat × Change → Guid × Outgoing) :
      d.queue.map (fun j => (j.writer, j.out)) =
        (((numbered 1 s.changes).take σ.sent).drop σ.got).map f := by
    rw [(h.idle hk hr).1, hsent, List.take_zero, List.drop_nil]
    rfl
  have hreceipt (hr : σ.reader.presence.ending = false) : a = none ∧ σ.acked = σ.got :=
    ⟨(h.idle hk hr).2, hacked.trans hgot.symm⟩
  cases k with
  | writer =>
    exact { h with
      order := horder
      housed := hhoused
      peopled := hpeopled
      noWriter := fun _ => h.noWriter hk
      writer := fun hc => absurd hc (ne_true_of_eq_false hx)
      reader := fun hc => by
        obtain ⟨y, hy, hfits⟩ := h.reader hc
        exact ⟨y, hy, hfits.settle hk hx⟩
      entries := hentries
      jobs := fun hr => hjobs hr _
      receipt := fun hr => by
        obtain ⟨rfl, hboth⟩ := hreceipt hr
        exact hboth }
  | reader =>
    have hold : σ.reader.presence.ending = false := ending_of_not_created hk
    exact { h with
      order := horder
      housed := hhoused
      peopled := hpeopled
      noReader := fun _ => h.noReader hk
      writer := fun hc => by
        obtain ⟨w, hw, hfits⟩ := h.writer hc
        exact ⟨w, hw, hfits.settle hk hx⟩
      reader := fun hc => absurd hc (ne_true_of_eq_false hx)
      entries := hentries
      jobs := fun _ => hjobs hold _
      receipt := fun _ => by
        obtain ⟨rfl, hboth⟩ := hreceipt hold
        exact hboth }

lemma post_move (σ : Duet) (k : EndpointKind) (x : Post) (k' : EndpointKind) :
    (σ.move k x).post k' = if k' = k then x else σ.post k' := by
  cases k <;> cases k' <;> rfl

lemma post_move_self (σ : Duet) (k : EndpointKind) (x : Post) : (σ.move k x).post k = x := by
  rw [post_move, if_pos rfl]

lemma eq_other {k' : EndpointKind} (h : k' ≠ k) : k' = other k := by
  cases k <;> cases k' <;> first | rfl | exact absurd rfl h

lemma has_of_housed {x : Post} (h : x.Housed d) (hx : x.presence ≠ .outside) :
    d.participants.has x.home = true := by
  unfold Post.Housed at h
  cases hp : x.presence with
  | outside => exact absurd hp hx
  | joined | grouped | pledged | active =>
    rw [hp] at h
    obtain ⟨y, hy, -⟩ := h
    exact Table.has_eq_true.mpr ⟨y, hy⟩
  | closing | gone =>
    rw [hp] at h
    exact h

/-- What others do does not matter to a participant. -/
lemma housed_congr {x : Post} {t : Table Nat Participant} (h : x.Housed d)
    (ht : x.presence ≠ .outside → t.get? x.home = d.participants.get? x.home) :
    x.Housed { d with participants := t } := by
  by_cases hx : x.presence = .outside
  · unfold Post.Housed
    rw [hx]
    trivial
  · unfold Post.Housed at h ⊢
    simp only [ht hx, Table.has] at h ⊢
    exact h

lemma Fits.join (h : Fits s σ d a) (hk : (σ.post k).presence = .outside) {p : Nat}
    (hp : d.participants.has p = false) (name : String) :
    Fits s (σ.move k ⟨p, .joined⟩) (d.addParticipant p name) a := by
  have hget : ∀ q, (d.participants.insertLast p (.new p d.id name)).get? q =
      if q = p then some (.new p d.id name) else d.participants.get? q := fun q =>
    Table.get?_insertNew _ _ _ q _ (Table.has_eq_false.mp hp)
  have hne : ∀ k', (σ.post k').presence ≠ .outside → (σ.post k').home ≠ p := by
    rintro k' hk' rfl
    exact absurd (has_of_housed (h.housed k') hk') (ne_true_of_eq_false hp)
  refine h.settle (by rw [hk]; rfl) rfl (fun k' => ?_) (fun q hq => ?_)
    fun _ hother => (hne _ hother).symm
  · rw [post_move]
    split_ifs
    · exact ⟨_, (hget p).trans (if_pos rfl), rfl, rfl, rfl, rfl⟩
    · exact housed_congr (h.housed k') fun hk' => (hget _).trans (if_neg (hne k' hk'))
  · rw [Table.has, hget] at hq
    split_ifs at hq with hqp
    · exact ⟨k, ne_outside_of_post (post_move_self σ k _) (by decide),
        by rw [post_move_self, hqp]⟩
    · obtain ⟨k', hk', hhome⟩ := h.peopled q hq
      have hkk' : k' ≠ k := by
        rintro rfl
        exact hk' hk
      exact ⟨k', by rw [post_move, if_neg hkk']; exact hk',
        by rw [post_move, if_neg hkk']; exact hhome⟩

lemma Fits.setParticipant (h : Fits s σ d a) {x : Post} {y : Participant}
    (hk : (σ.post k).presence.created = false) (hk' : (σ.post k).presence ≠ .outside)
    (hx : x.presence.created = false) (hx' : x.presence ≠ .outside) (hid : y.id = x.home)
    (hhome : x.home = (σ.post k).home)
    (hhoused : x.Housed (d.setParticipant y)) : Fits s (σ.move k x) (d.setParticipant y) a := by
  have hget : ∀ q, q ≠ y.id → (d.participants.adjust y.id fun _ => y).get? q =
      d.participants.get? q := fun q hq => (Table.get?_adjust ..).trans (if_neg hq)
  have hapart : (σ.post (other k)).presence ≠ .outside → x.home ≠ (σ.post (other k)).home :=
    fun hother => hhome ▸ (h.order.apart_of hk' hother).symm
  refine h.settle hk hx (fun k' => ?_) (fun q hq => ?_) fun _ => hapart
  · rw [post_move]
    split_ifs with hkk'
    · exact hhoused
    · obtain rfl := eq_other hkk'
      exact housed_congr (h.housed _) fun hother => hget _ (hid ▸ (hapart hother).symm)
  · obtain ⟨k', hk'', hq'⟩ := h.peopled q (Table.has_adjust d.participants _ _ q ▸ hq)
    by_cases hkk' : k' = k
    · subst hkk'
      exact ⟨k', by rw [post_move_self]; exact hx', by rw [post_move_self, hhome, hq']⟩
    · exact ⟨k', by rw [post_move, if_neg hkk']; exact hk'', by
        rw [post_move, if_neg hkk']; exact hq'⟩

lemma participant_eq {p : Nat} {y : Participant} (hy : d.participants.get? p = some y) :
    d.participant p = .ok y := by
  rw [Domain.participant, hy]

lemma get?_setParticipant {p : Nat} {y z : Participant} (hy : d.participants.get? p = some y)
    (hz : z.id = p) : (d.setParticipant z).participants.get? p = some z := by
  change (d.participants.adjust z.id fun _ => z).get? p = _
  rw [Table.get?_adjust, if_pos hz.symm, hy]
  rfl

lemma Fits.createGroup (h : Fits s σ d a) {p : Nat} (hk : σ.post k = ⟨p, .joined⟩)
    (kind : EntityKind) : ∃ d', d.createGroup p kind = .ok (d', ⟨p, 1⟩) ∧
      Fits s (σ.move k ⟨p, .grouped⟩) d' a := by
  have hhoused := h.housed k
  rw [hk] at hhoused
  obtain ⟨y, hy, hid, hnext, hdeleted, hleft⟩ := hhoused
  refine ⟨d.setParticipant { y with next := y.next + 1 }, ?_, ?_⟩
  · rw [Domain.createGroup, participant_eq hy]
    change (y.createGroup kind >>= _) = _
    rw [Participant.createGroup, Participant.checkAlive, hdeleted, hid, hnext]
    rfl
  · refine h.setParticipant (by rw [hk]; rfl) (ne_outside_of_post hk (by decide)) rfl
      Presence.noConfusion hid (by rw [hk]) ?_
    exact ⟨_, get?_setParticipant hy hid, hid, congrArg (· + 1) hnext, hdeleted, hleft⟩

/-! ### Endpoints that come -/

lemma Fits.peopled_become (h : Fits s σ d a) {p : Presence} (hp : p ≠ .outside) (q : Nat)
    (hq : d.participants.has q = true) :
    ∃ k', ((σ.become k p).post k').presence ≠ .outside ∧ ((σ.become k p).post k').home = q := by
  obtain ⟨k', hk', rfl⟩ := h.peopled q hq
  refine ⟨k', ?_, ?_⟩ <;> cases k <;> cases k' <;> first | exact hk' | exact hp | rfl

lemma entries_eq (s : Scenario) (σ : Duet) : σ.entries s =
    (if σ.writer.presence.entered then [σ.entry s .writer] else []) ++
      if σ.reader.presence.entered then [σ.entry s .reader] else [] := by
  rw [entries]
  cases hw : σ.writer.presence.entered <;> cases hr : σ.reader.presence.entered <;>
    simp [post, hw, hr]

/-- Who is among the entries with the key of the duet. -/
lemma Fits.listedOf (h : Fits s σ d a) (k : EndpointKind) : d.listedOf k s.matchKey =
    if (σ.post k).presence.entered then [σ.entry s k] else [] := by
  have hperm := h.entries.filter (·.kind = k)
  rw [entries_eq] at hperm
  rw [Domain.listedOf]
  cases k with
  | writer =>
    change _ = if σ.writer.presence.entered then _ else _
    cases hw : σ.writer.presence.entered <;> cases hr : σ.reader.presence.entered <;>
      simp_all [entry]
  | reader =>
    change _ = if σ.reader.presence.entered then _ else _
    cases hw : σ.writer.presence.entered <;> cases hr : σ.reader.presence.entered <;>
      simp_all [entry]

lemma conflict?_self (q : Qos) : Qos.conflict? q q = none := by
  unfold Qos.conflict?
  rw [if_neg (by rintro ⟨h, h'⟩; rw [h] at h'; cases h'),
    if_neg (by rintro ⟨h, h'⟩; rw [h] at h'; cases h')]

/-- Two endpoints with one quality of service are bound; here nothing is replayed. -/
lemma meet_eq (d : Domain) {w r : Guid} {x : Writer} {y : Reader} {q : Qos}
    (hw : d.writers = [(w, x)]) (hr : d.readers = [(r, y)]) (hx : x.qos.isReliable = true)
    (hy : y.qos = q)
    (hout : (Domain.writerBound x r q).2 = []) :
    d.meet w q r q = { d with
      writers := [(w, (Domain.writerBound x r q).1)]
      readers := [(r, Domain.readerBound y w true)] } := by
  have hgetw : d.writers.get? w = some x := by rw [hw, Table.get?_cons, if_pos rfl]
  have hgetr : d.readers.get? r = some y := by rw [hr, Table.get?_cons, if_pos rfl]
  rw [Domain.meet, conflict?_self]
  dsimp only
  rw [Domain.bind, hgetw, hgetr]
  dsimp only
  rw [hy, hout, hx]
  simp [Domain.submit, Domain.adjustWriter, Domain.adjustReader, Table.adjust, hw, hr, Table.get?]

/-- A side may enter as long as the other one does not go. -/
lemma Orderly.enter {total : Nat} (h : σ.Orderly total) (hk : (σ.post k).presence = .pledged)
    (hother : (σ.post (other k)).presence.ending = false) :
    (σ.become k .active).Orderly total := by
  have hmade := h.made_eq_zero (k := k) (by rw [hk]; rfl)
  have hout : (σ.post k).presence ≠ .outside := hk ▸ Presence.noConfusion
  cases k with
  | writer =>
    exact { h with
      apart := fun _ => h.apart hout
      begun := fun hpos => absurd hmade (Nat.ne_of_gt hpos)
      written := fun hend => absurd hend Bool.false_ne_true }
  | reader =>
    exact { h with
      apart := fun hw _ => h.apart hw hout
      begun := fun hpos => absurd hmade (Nat.ne_of_gt hpos)
      written := fun hend => absurd hend (ne_true_of_eq_false hother)
      finished := fun hend => absurd hend Bool.false_ne_true }

lemma Fits.housed_enter (h : Fits s σ d a) (hk : (σ.post k).presence = .pledged)
    (k' : EndpointKind) : ((σ.become k .active).post k').Housed d := by
  have hhoused := h.housed k
  have hother := h.housed (other k)
  unfold Post.Housed at hhoused
  rw [hk] at hhoused
  cases k <;> cases k' <;> assumption

/-- The endpoint stands among the entries from now on. -/
lemma entries_become (s : Scenario) (hk : (σ.post k).presence = .pledged) :
    (σ.entries s ++ [(σ.become k .active).entry s k]).Perm ((σ.become k .active).entries s) := by
  rw [entries_eq, entries_eq]
  cases k with
  | writer =>
    have hw : σ.writer.presence.entered = false := congrArg Presence.entered hk
    rw [hw]
    exact List.perm_append_comm
  | reader =>
    have hr : σ.reader.presence.entered = false := congrArg Presence.entered hk
    rw [hr]
    exact .of_eq (congrArg (· ++ [_]) (List.append_nil _))

/-- A side enters with its endpoint, after that has met those that it has to meet. -/
lemma Fits.enter {σ' : Duet} (h : Fits s σ d a) (hσ' : σ' = σ.become k .active)
    (hk : (σ.post k).presence = .pledged) (hother : (σ.post (other k)).presence.ending = false)
    {xs : Table Guid Writer} {ys : Table Guid Reader}
    (hnoWriter : σ'.writer.presence.created = false → xs = [])
    (hnoReader : σ'.reader.presence.created = false → ys = [])
    (hwriter : σ'.writer.presence.created = true →
      ∃ x, xs = [(σ'.writer.guid, x)] ∧ σ'.WriterFits s x)
    (hreader : σ'.reader.presence.created = true →
      ∃ y, ys = [(σ'.reader.guid, y)] ∧ σ'.ReaderFits s y) :
    Fits s σ' ({ d with writers := xs, readers := ys }.enlist s.matchKey (σ'.entry s k)) a := by
  subst hσ'
  have hreader' : σ.reader.presence.ending = false := by
    cases k with
    | writer => exact hother
    | reader => exact congrArg Presence.ending hk
  have hjobs := h.jobs hreader'
  have hreceipt := h.receipt hreader'
  have hentries : (({ d with writers := xs, readers := ys }.enlist s.matchKey
      ((σ.become k .active).entry s k)).listed s.matchKey).Perm
        ((σ.become k .active).entries s) := by
    rw [Domain.enlist, Domain.listed_setListed, if_pos rfl]
    exact (h.entries.append_right _).trans (entries_become s hk)
  refine ⟨h.order.enter hk hother, ?_, ?_, h.paused, h.housed_enter hk,
    h.peopled_become (by decide), hnoWriter, hnoReader, hwriter, hreader, hentries, ?_, ?_⟩
  · cases k <;> exact h.registry
  · cases k <;> exact h.id
  -- what is on its way stays on its way
  · cases k <;> exact fun _ => hjobs
  · cases k <;> exact fun _ => hreceipt

/-- A new writer enters, and meets the reader if that is there. -/
lemma Fits.addWriter (h : Fits s σ d a) (hw : σ.writer.presence = .pledged)
    (hr : σ.reader.presence.ending = false) (hq : s.qos.isReliable = true) :
    Fits s (σ.become .writer .active)
      (d.addWriter (.new σ.writer.guid s.topic s.sample.type s.qos)) a := by
  obtain ⟨hmade, -, hgot, hacked, -⟩ :=
    h.order.unbegun (k := .writer) (by rw [post, hw]; rfl)
  have hnew : d.writers.insertLast σ.writer.guid
      (Writer.new σ.writer.guid s.topic s.sample.type s.qos) =
      [(σ.writer.guid, .new σ.writer.guid s.topic s.sample.type s.qos)] := by
    rw [h.noWriter (by rw [hw]; rfl)]
    rfl
  have hlist := h.listedOf .reader
  change d.listedOf .reader s.matchKey = if σ.reader.presence.entered then _ else _ at hlist
  have hfits : ∀ σ' : Duet, σ'.writer = ⟨σ.writer.home, .active⟩ → σ'.made = 0 →
      σ'.reader.presence.created = false →
      σ'.WriterFits s (.new σ.writer.guid s.topic s.sample.type s.qos) := fun σ' hσ' hzero hc =>
    writerFits_new (by rw [hσ']) hc hzero
  have hadd : d.addWriter (.new σ.writer.guid s.topic s.sample.type s.qos) =
      Domain.enlist ((d.listedOf .reader s.matchKey).foldl
        (fun (d : Domain) e => d.meet σ.writer.guid s.qos e.guid e.qos)
        { d with writers := [(σ.writer.guid, .new σ.writer.guid s.topic s.sample.type s.qos)] })
        s.matchKey ((σ.become .writer .active).entry s .writer) := by
    rw [← hnew]
    rfl
  rw [hadd, hlist]
  rcases not_created_or_active hr with hcreated | hactive
  · rw [entered_of_not_created hcreated]
    exact h.enter (k := .writer) rfl hw hr (fun hc => absurd hc Bool.noConfusion)
      (fun _ => h.noReader hcreated) (fun _ => ⟨_, rfl, hfits _ rfl hmade hcreated⟩)
      fun hc => absurd hc (ne_true_of_eq_false hcreated)
  · obtain ⟨y, hy, hyfits⟩ := h.reader (by rw [hactive]; rfl)
    have hyqos : y.qos = s.qos := (hyfits.cache hactive).qos
    -- the new writer, as it is before it knows of the reader
    have halone : ((σ.become .writer .active).move .reader ⟨0, .outside⟩).WriterFits s
        (.new σ.writer.guid s.topic s.sample.type s.qos) := hfits _ rfl hmade rfl
    have hmeet := halone.meet rfl rfl hmade hacked hq σ.reader.home
    have hreplay := halone.replay_nil rfl rfl hmade σ.reader.home
    rw [if_pos (by rw [hactive]; rfl), List.foldl_cons, List.foldl_nil]
    have hmeet_eq := meet_eq
      { d with writers := [(σ.writer.guid, .new σ.writer.guid s.topic s.sample.type s.qos)] }
      rfl hy hq hyqos hreplay
    change Fits s _ ((Domain.meet _ σ.writer.guid s.qos σ.reader.guid s.qos).enlist _ _) a
    rw [hmeet_eq]
    refine h.enter (k := .writer) rfl hw hr (fun hc => absurd hc Bool.noConfusion) (fun hc => ?_)
      (fun _ => ⟨_, rfl, ?_⟩) fun _ => ⟨_, rfl, ?_⟩
    · change σ.reader.presence.created = false at hc
      rw [hactive] at hc
      cases hc
    · have hsame : (σ.become .writer .active).move .reader ⟨σ.reader.home, .active⟩ =
          σ.become .writer .active := by
        rw [← hactive]
        rfl
      exact hsame ▸ hmeet
    · exact hyfits.meet hactive (by rw [hw]; rfl) hgot hq σ.writer.home

/-- A new reader enters, and meets the writer if that is there. -/
lemma Fits.addReader (h : Fits s σ d a) (hr : σ.reader.presence = .pledged)
    (hw : σ.writer.presence.ending = false) (hq : s.qos.isReliable = true) :
    Fits s (σ.become .reader .active)
      (d.addReader (.new σ.reader.guid s.topic s.sample.type s.qos)) a := by
  -- no change is made before the reader is there
  obtain ⟨hmade, -, hgot, hacked, -⟩ :=
    h.order.unbegun (k := .reader) (by rw [post, hr]; rfl)
  have hnew : d.readers.insertLast σ.reader.guid
      (Reader.new σ.reader.guid s.topic s.sample.type s.qos) =
      [(σ.reader.guid, .new σ.reader.guid s.topic s.sample.type s.qos)] := by
    rw [h.noReader (by rw [hr]; rfl)]
    rfl
  have hlist := h.listedOf .writer
  change d.listedOf .writer s.matchKey = if σ.writer.presence.entered then _ else _ at hlist
  have hfits : ∀ σ' : Duet, σ'.reader = ⟨σ.reader.home, .active⟩ → σ'.got = 0 →
      σ'.writer.presence.created = false →
      σ'.ReaderFits s (.new σ.reader.guid s.topic s.sample.type s.qos) := fun σ' hσ' hzero hc =>
    readerFits_new (by rw [hσ']) hc hzero
  have hadd : d.addReader (.new σ.reader.guid s.topic s.sample.type s.qos) =
      Domain.enlist ((d.listedOf .writer s.matchKey).foldl
        (fun (d : Domain) e => d.meet e.guid e.qos σ.reader.guid s.qos)
        { d with readers := [(σ.reader.guid, .new σ.reader.guid s.topic s.sample.type s.qos)] })
        s.matchKey ((σ.become .reader .active).entry s .reader) := by
    rw [← hnew]
    rfl
  rw [hadd, hlist]
  rcases not_created_or_active hw with hcreated | hactive
  · -- the writer is not there yet, and nobody is met
    rw [entered_of_not_created hcreated]
    exact h.enter (k := .reader) rfl hr hw (fun _ => h.noWriter hcreated)
      (fun hc => absurd hc Bool.noConfusion) (fun hc => absurd hc (ne_true_of_eq_false hcreated))
      fun _ => ⟨_, rfl, hfits _ rfl hgot hcreated⟩
  · -- the writer is met, with nothing to replay
    obtain ⟨x, hx, hxfits⟩ := h.writer (by rw [hactive]; rfl)
    have hcreated : σ.reader.presence.created = false := by rw [hr]; rfl
    have hxqos : x.qos.isReliable = true := by
      rw [show x.qos = s.qos from (hxfits.history hactive).qos]
      exact hq
    -- the new reader fits a duet without the writer, which it meets only now
    have halone : ((σ.become .reader .active).move .writer ⟨0, .outside⟩).ReaderFits s
        (.new σ.reader.guid s.topic s.sample.type s.qos) := hfits _ rfl hgot rfl
    have hmeet := halone.meet rfl rfl hgot hq σ.writer.home
    have hreplay := hxfits.replay_nil hactive hcreated hmade σ.reader.home
    rw [if_pos (by rw [hactive]; rfl), List.foldl_cons, List.foldl_nil]
    have hmeet_eq := meet_eq
      { d with readers := [(σ.reader.guid, .new σ.reader.guid s.topic s.sample.type s.qos)] }
      hx rfl hxqos (q := s.qos) rfl hreplay
    change Fits s _ ((Domain.meet _ σ.writer.guid s.qos σ.reader.guid s.qos).enlist _ _) a
    rw [hmeet_eq]
    refine h.enter (k := .reader) rfl hr hw (fun hc => ?_) (fun hc => absurd hc Bool.noConfusion)
      (fun _ => ⟨_, rfl, ?_⟩) fun _ => ⟨_, rfl, ?_⟩
    · change σ.writer.presence.created = false at hc
      rw [hactive] at hc
      cases hc
    · exact hxfits.meet hactive hcreated hmade hacked hq σ.reader.home
    · have hsame : (σ.become .reader .active).move .writer ⟨σ.writer.home, .active⟩ =
          σ.become .reader .active := by
        rw [← hactive]
        rfl
      exact hsame ▸ hmeet

lemma Fits.createEndpoint (h : Fits s σ d a) {p : Nat} (hk : σ.post k = ⟨p, .grouped⟩)
    (hother : (σ.post (other k)).presence.ending = false) (hflaw : s.qos.flaw? = none)
    (hq : s.qos.isReliable = true) :
    ∃ d', d.createEndpoint p k ⟨p, 1⟩ ⟨s.topic, s.sample.type.name, p⟩ s.sample.type s.qos =
        .ok (d', .sole p) ∧ Fits s (σ.move k ⟨p, .active⟩) d' a := by
  have hhoused := h.housed k
  rw [hk] at hhoused
  obtain ⟨y, hy, hid, hnext, hdeleted, hleft⟩ := hhoused
  have hpledged : Fits s (σ.move k ⟨p, .pledged⟩) (d.setParticipant { y with next := y.next + 1 })
      a := by
    refine h.setParticipant (by rw [hk]; rfl) (ne_outside_of_post hk (by decide)) rfl
      Presence.noConfusion hid (by rw [hk]) ?_
    exact ⟨_, get?_setParticipant hy hid, hleft⟩
  have hguid : y.createEndpoint k ⟨p, 1⟩ ⟨s.topic, s.sample.type.name, p⟩ s.sample.type s.qos =
      .ok ({ y with next := y.next + 1 }, .sole p) := by
    have halive : y.checkAlive k.entity = .ok () := by
      rw [Participant.checkAlive, hdeleted]
      rfl
    have htopic : y.checkTopic ⟨s.topic, s.sample.type.name, p⟩ s.sample.type = .ok () := by
      simp [Participant.checkTopic, hid]
    have hqos : Participant.checkQos s.qos = .ok () := by rw [Participant.checkQos, hflaw]
    rw [Participant.createEndpoint, halive, htopic, hqos, if_neg (not_not.mpr hid.symm), hid, hnext]
    rfl
  rw [Domain.createEndpoint, participant_eq hy]
  change ∃ d', ((y.createEndpoint k ⟨p, 1⟩ ⟨s.topic, s.sample.type.name, p⟩ s.sample.type s.qos) >>=
    _) = _ ∧ _
  rw [hguid]
  cases k with
  | writer => exact ⟨_, rfl, hpledged.addWriter rfl hother hq⟩
  | reader => exact ⟨_, rfl, hpledged.addReader rfl hother hq⟩

end PubSub.Loopback.Duet
