import PubSub.Proofs.Link

/-!
Any number of writers and readers on a network that may do anything with what was sent: nothing
that was ever sent leaves the net, so it may arrive at any time and as often as it likes, and so
may every answer that a reader ever gave. Writers and readers add each other in either order, and
are never parted. Readers then take exactly what was enqueued for them.
-/

namespace PubSub

structure Answer where
  writer : Guid
  reader : Guid
  acked : Nat
deriving DecidableEq, Inhabited

/-- The net with everything ever sent in flight, every answer ever given, and two records: the
changes that writers have enqueued for readers, and the changes that readers have accepted. -/
structure Session where
  net : Net
  answers : List Answer
  enqueued : List Flight
  accepted : List Flight
deriving Inhabited

namespace Session

inductive Event where
  | write (w : Guid) (key : InstanceKey) (payload : Json)
  | dispose (w : Guid) (key : InstanceKey) (handle : Handle)
  /-- The writer adds the reader. -/
  | attach (w r : Guid)
  /-- The reader adds the writer. -/
  | enrol (w r : Guid)
  /-- The writer sends again what is pending. -/
  | resend (w : Guid)
  /-- Something that was sent arrives, for the first time or once more. -/
  | arrive (i : Nat)
  /-- So does an answer. -/
  | answer (i : Nat)
  | take (r : Guid) (max : Nat)

def start (writers readers : List (Guid × Qos)) : Session := ⟨.new writers readers, [], [], []⟩

def send (s : Session) (h : WriterHistory) (out : List Outgoing) : Session :=
  { s with
    net := s.net.send h out
    enqueued := s.enqueued ++ out.map fun o => ⟨h.guid, o⟩ }

def putWriter (s : Session) (w : Guid) (h : WriterHistory) : Session :=
  { s with net := { s.net with writers := s.net.writers.put Guid.before w h } }

def putReader (s : Session) (r : Guid) (c : ReaderCache) : Session :=
  { s with net := { s.net with readers := s.net.readers.put Guid.before r c } }

def receive (s : Session) (f : Flight) (c : ReaderCache) : Session :=
  let got := c.receive f.writer f.out.number f.out.change
  { s.putReader f.out.reader got.1 with
    answers := s.answers ++ [⟨f.writer, f.out.reader, got.2.2⟩]
    accepted := if got.2.1 = .accepted then s.accepted ++ [f] else s.accepted }

/-- Writers and readers whose qualities of service conflict never add each other; an event that
names what is not there changes nothing. -/
def step (s : Session) : Event → Session
  | .write w key payload =>
    match s.net.writers.get? w with
    | some h => s.send (h.write key payload).1 (h.write key payload).2
    | none => s
  | .dispose w key handle =>
    match s.net.writers.get? w with
    | some h =>
      match h.dispose key handle with
      | .ok (h', out) => s.send h' out
      | .error _ => s
    | none => s
  | .attach w r =>
    match s.net.writers.get? w, s.net.readers.get? r with
    | some h, some c =>
      if Qos.compatible h.qos c.qos then
        s.send (h.matchReader r c.qos).1 (h.matchReader r c.qos).2
      else s
    | _, _ => s
  | .enrol w r =>
    match s.net.writers.get? w, s.net.readers.get? r with
    | some h, some c =>
      if Qos.compatible h.qos c.qos then s.putReader r (c.addWriter w h.qos.isReliable) else s
    | _, _ => s
  | .resend w =>
    match s.net.retransmit w with
    | some (n, _) => { s with net := n }
    | none => s
  | .arrive i =>
    match s.net.flight[i]? with
    | some f =>
      match s.net.readers.get? f.out.reader with
      | some c => s.receive f c
      | none => s
    | none => s
  | .answer i =>
    match s.answers[i]? with
    | some a =>
      match s.net.writers.get? a.writer with
      | some h => s.putWriter a.writer (h.acknowledge a.reader a.acked).1
      | none => s
    | none => s
  | .take r max =>
    match s.net.take r max with
    | some (n, _) => { s with net := n }
    | none => s

def run (s : Session) (es : List Event) : Session := es.foldl step s

/-! ### One writer and one reader -/

/-- The changes that the writer has enqueued for the reader, in order. -/
def owed (s : Session) (w r : Guid) : List Change := (carried w r s.enqueued).map (·.2)

/-- The changes that the reader has accepted from the writer, in order. -/
def taken (s : Session) (w r : Guid) : List Change := (carried w r s.accepted).map (·.2)

def acks (s : Session) (w r : Guid) : List Nat :=
  s.answers.filterMap fun a => if a.writer = w ∧ a.reader = r then some a.acked else none

def link (s : Session) (w r : Guid) : Link where
  proxy := (s.net.writers.get? w).bind (·.proxies.get? r)
  peer := (s.net.readers.get? r).bind (·.writers.get? w)
  owed := s.owed w r
  taken := s.taken w r
  sent := carried w r s.net.flight
  acks := s.acks w r

/-! ### What an event does to a pair -/

variable {s : Session} {w r : Guid} {h : WriterHistory} {c : ReaderCache}

lemma link_eq (hw : s.net.writers.get? w = some h) (hr : s.net.readers.get? r = some c) :
    s.link w r = ⟨h.proxies.get? r, c.writers.get? w, s.owed w r, s.taken w r,
      carried w r s.net.flight, s.acks w r⟩ := by
  simp [link, hw, hr]

/-- What one writer sends concerns its own readers only. -/
lemma link_send_of_ne {h' : WriterHistory} (hne : h'.guid ≠ w) (out : List Outgoing) :
    (s.send h' out).link w r = s.link w r := by
  simp [link, send, Net.send, owed, taken, acks, Table.get?_put, hne.symm, carried_append,
    carried_from, hne]

lemma link_send {h' : WriterHistory} (hg : h'.guid = w) (out : List Outgoing) :
    (s.send h' out).link w r =
      { s.link w r with
        proxy := h'.proxies.get? r
        owed := s.owed w r ++ (addressed r out).map (·.2)
        sent := carried w r s.net.flight ++ addressed r out } := by
  simp [link, send, Net.send, owed, taken, acks, Table.get?_put, hg, carried_append, carried_from]

lemma link_putWriter (g : Guid) (h' : WriterHistory) :
    (s.putWriter g h').link w r =
      { s.link w r with
        proxy := if w = g then h'.proxies.get? r else (s.link w r).proxy } := by
  by_cases hg : w = g <;>
    simp [link, putWriter, owed, taken, acks, Table.get?_put, hg]

lemma link_putReader (g : Guid) (c' : ReaderCache) :
    (s.putReader g c').link w r =
      { s.link w r with peer := if r = g then c'.writers.get? w else (s.link w r).peer } := by
  by_cases hg : r = g <;>
    simp [link, putReader, owed, taken, acks, Table.get?_put, hg]

/-- The invariant of the tables: every history stands under its own identity, and whatever a
writer has enqueued it has made before its next change. -/
structure Wf (s : Session) : Prop where
  history : ∀ w h, s.net.writers.get? w = some h → h.guid = w ∧ h.Wf
  earlier : ∀ f ∈ s.enqueued, ∀ h, s.net.writers.get? f.writer = some h →
    f.out.change.sequence < h.next

lemma Wf.owed_earlier (hs : s.Wf) (hw : s.net.writers.get? w = some h) {d : Change}
    (hd : d ∈ s.owed w r) : d.sequence < h.next := by
  obtain ⟨⟨n, d'⟩, he, rfl⟩ := List.mem_map.mp hd
  obtain ⟨f, hf, hfe⟩ := List.mem_filterMap.mp he
  split_ifs at hfe with hp
  obtain rfl : f.out.change = d' := congrArg Prod.snd (Option.some.inj hfe)
  exact hs.earlier f hf h (hp.1 ▸ hw)

/-- The pair is reliable if both sides are. -/
abbrev both (h : WriterHistory) (c : ReaderCache) : Bool := h.qos.isReliable && c.qos.isReliable

/-- What one event may do: the tables stay sound, no writer or reader appears or changes its
quality of service, and every pair makes one move. -/
structure Onward (s s' : Session) : Prop where
  wf : s'.Wf
  move : ∀ w r h' c', s'.net.writers.get? w = some h' → s'.net.readers.get? r = some c' →
    ∃ h c, s.net.writers.get? w = some h ∧ s.net.readers.get? r = some c ∧
      both h c = both h' c' ∧ Link.Step (both h c) (s.link w r) (s'.link w r)

lemma onward_rest (hs : s.Wf) : s.Onward s :=
  ⟨hs, fun _ _ h c hw hr => ⟨h, c, hw, hr, rfl, .rest _⟩⟩

lemma onward_send {g : Guid} {h h' : WriterHistory} {out : List Outgoing} (hs : s.Wf)
    (hg : s.net.writers.get? g = some h) (hguid : h'.guid = g) (hqos : h'.qos = h.qos)
    (hwf : h'.Wf) (hnext : h.next ≤ h'.next) (hout : ∀ o ∈ out, o.change.sequence < h'.next)
    (hmove : ∀ r c, s.net.readers.get? r = some c →
      Link.Step (both h c) (s.link g r) ((s.send h' out).link g r)) :
    s.Onward (s.send h' out) := by
  have hget : ∀ w, (s.send h' out).net.writers.get? w =
      if w = g then some h' else s.net.writers.get? w := by
    intro w
    simp [send, Net.send, Table.get?_put, hguid]
  refine ⟨⟨fun w x hx => ?_, fun f hf x hx => ?_⟩, fun w r x c hx hr => ?_⟩
  · -- histories stand under their identities
    rw [hget] at hx
    split_ifs at hx with hw
    · obtain rfl := Option.some.inj hx
      exact ⟨hguid.trans hw.symm, hwf⟩
    · exact hs.history w x hx
  · -- what is in flight was made before the next change of its writer
    rw [hget] at hx
    rcases List.mem_append.mp hf with hf | hf
    · split_ifs at hx with hw
      · obtain rfl := Option.some.inj hx
        exact Nat.lt_of_lt_of_le (hs.earlier f hf h (hw ▸ hg)) hnext
      · exact hs.earlier f hf x hx
    · obtain ⟨o, ho, rfl⟩ := List.mem_map.mp hf
      rw [if_pos hguid] at hx
      obtain rfl := Option.some.inj hx
      exact hout o ho
  · -- the pairs of the sender make their move, the others rest
    rw [hget] at hx
    split_ifs at hx with hw
    · subst hw
      obtain rfl := Option.some.inj hx
      exact ⟨h, c, hg, hr, by rw [both, both, hqos], hmove r c hr⟩
    · refine ⟨x, c, hx, hr, rfl, ?_⟩
      rw [link_send_of_ne (fun e => hw (e.symm.trans hguid))]
      exact .rest _

lemma onward_putReader {g : Guid} {c c' : ReaderCache} (hs : s.Wf)
    (hg : s.net.readers.get? g = some c) (hqos : c'.qos = c.qos)
    (hmove : ∀ w h, s.net.writers.get? w = some h →
      Link.Step (both h c) (s.link w g) ((s.putReader g c').link w g)) :
    s.Onward (s.putReader g c') := by
  refine ⟨⟨hs.history, hs.earlier⟩, fun w r h x hw hx => ?_⟩
  simp only [putReader, Table.get?_put] at hx
  split_ifs at hx with hr
  · subst hr
    obtain rfl := Option.some.inj hx
    exact ⟨h, c, hw, hg, by rw [both, both, hqos], hmove w h hw⟩
  · refine ⟨h, x, hw, hx, rfl, ?_⟩
    rw [link_putReader, if_neg hr]
    exact .rest _

/-! ### One event -/

lemma onward_addChange {g : Guid} {h : WriterHistory} (hs : s.Wf)
    (hg : s.net.writers.get? g = some h) (key : InstanceKey) (kind : ChangeKind)
    (payload : Option Json) :
    s.Onward (s.send (h.addChange key kind payload).1 (h.addChange key kind payload).2) := by
  obtain ⟨hguid, hwf⟩ := hs.history g h hg
  refine onward_send hs hg hguid rfl (hwf.addChange key kind payload) (Nat.le_succ _)
    (fun o ho => ?_) fun r c hr => ?_
  · obtain ⟨e, -, rfl⟩ := List.mem_map.mp ho
    exact Nat.lt_succ_self _
  · have hlink : (s.send (h.addChange key kind payload).1 (h.addChange key kind payload).2).link g r
        = (s.link g r).write (h.made key kind payload) := by
      rw [link_send (by exact hguid), WriterHistory.get?_addChange,
        WriterHistory.addressed_addChange _ _ _ hwf, link_eq hg hr]
      unfold Link.write
      cases h.proxies.get? r <;> simp
    rw [hlink]
    exact .write _ _ fun d hd => hs.owed_earlier hg (link_eq hg hr ▸ hd)

lemma onward_attach {g r : Guid} {h : WriterHistory} {c : ReaderCache} (hs : s.Wf)
    (hg : s.net.writers.get? g = some h) (hr : s.net.readers.get? r = some c) :
    s.Onward (s.send (h.matchReader r c.qos).1 (h.matchReader r c.qos).2) := by
  obtain ⟨hguid, hwf⟩ := hs.history g h hg
  refine onward_send hs hg ((h.matchReader_guid r c.qos).trans hguid) (h.matchReader_qos r c.qos)
    (hwf.matchReader r c.qos) (Nat.le_of_eq (h.matchReader_next r c.qos).symm) (fun o ho => ?_)
    fun r' c' hr' => ?_
  · rw [h.matchReader_next]
    exact hwf.earlier _ (WriterHistory.retained_of_matchReader ho)
  · rw [link_send ((h.matchReader_guid r c.qos).trans hguid)]
    by_cases hne : r' = r
    · subst hne
      obtain rfl : c' = c := Option.some.inj (hr'.symm.trans hr)
      cases hp : h.proxies.get? r' with
      | some p =>
        -- matched before: nothing happens
        rw [WriterHistory.matchReader_of_some hp]
        simp only [addressed_nil, List.map_nil, List.append_nil, link_eq hg hr]
        exact .rest _
      | none =>
        rw [WriterHistory.get?_matchReader_self _ hp,
          WriterHistory.addressed_matchReader_self _ hp, map_snd_numbered, Bool.and_comm]
        exact .attach (s.link g r') _ (by rw [link_eq hg hr]; exact hp) (hwf.backlog _)
    · rw [WriterHistory.get?_matchReader_of_ne _ hne,
        WriterHistory.addressed_matchReader_of_ne _ hne]
      simp only [List.map_nil, List.append_nil, link_eq hg hr']
      exact .rest _

lemma onward_enrol {w r : Guid} {h : WriterHistory} {c : ReaderCache} (hs : s.Wf)
    (hw : s.net.writers.get? w = some h) (hr : s.net.readers.get? r = some c) :
    s.Onward (s.putReader r (c.addWriter w h.qos.isReliable)) := by
  refine onward_putReader hs hr (c.addWriter_qos w _) fun g h' hg => ?_
  rw [link_putReader, if_pos rfl, ReaderCache.get?_addWriter, link_eq hg hr]
  by_cases hgw : g = w
  · subst hgw
    obtain rfl : h' = h := Option.some.inj (hg.symm.trans hw)
    rw [if_pos rfl]
    cases hq : c.writers.get? g with
    | some q => exact .rest _
    | none => exact .enrol _ rfl
  · rw [if_neg hgw]
    exact .rest _

/-- What waits is sent again, and is not enqueued a second time. -/
lemma link_resend {g : Guid} {h : WriterHistory} (hs : s.Wf)
    (hg : s.net.writers.get? g = some h) (w r : Guid) :
    link { s with net := s.net.send h h.pending } w r =
      if g = w then (s.link w r).resend else s.link w r := by
  obtain ⟨hguid, hwf⟩ := hs.history g h hg
  split_ifs with hw
  · subst hw
    simp [link, Link.resend, Net.send, owed, taken, acks, Table.get?_put, hguid, hg,
      carried_append, carried_from, WriterHistory.addressed_pending hwf]
  · simp [link, Net.send, owed, taken, acks, Table.get?_put, hguid, Ne.symm hw,
      carried_append, carried_from, hw]

lemma onward_resend {g : Guid} {h : WriterHistory} (hs : s.Wf)
    (hg : s.net.writers.get? g = some h) : s.Onward { s with net := s.net.send h h.pending } := by
  have hguid := (hs.history g h hg).1
  have hget : ∀ w, (s.net.send h h.pending).writers.get? w = s.net.writers.get? w := by
    intro w
    by_cases hw : w = g <;> simp [Net.send, Table.get?_put, hguid, hw, hg]
  refine ⟨⟨fun w x hx => hs.history w x (hget w ▸ hx), fun f hf x hx =>
    hs.earlier f hf x (hget f.writer ▸ hx)⟩, fun w r x c hx hr =>
    ⟨x, c, hget w ▸ hx, hr, rfl, ?_⟩⟩
  rw [link_resend hs hg]
  split_ifs
  · exact .resend _
  · exact .rest _

/-- The answer of a reader, and what it accepts, concern the sender alone. -/
lemma link_receive {f : Flight} {c : ReaderCache}
    (hc : s.net.readers.get? f.out.reader = some c) (w r : Guid) :
    (s.receive f c).link w r =
      if f.writer = w ∧ f.out.reader = r then
        match c.writers.get? w with
        | some _ => (s.link w r).offer f.out.number f.out.change
        | none => (s.link w r).disown
      else s.link w r := by
  by_cases hp : f.writer = w ∧ f.out.reader = r
  · obtain ⟨rfl, rfl⟩ := hp
    rw [if_pos ⟨rfl, rfl⟩]
    cases hq : c.writers.get? f.writer with
    | none =>
      simp [receive, ReaderCache.receive_of_none hq, link, putReader, owed, taken, acks,
        Table.get?_put, hc, hq, Link.disown]
    | some q =>
      -- the change is taken if its number is expected, and passed over otherwise
      by_cases ht : q.Takes f.out.number
      · simp [receive, ReaderCache.receive_of_takes hq ht, link, putReader, owed, taken, acks,
          Table.get?_put, Table.get?_adjust, hc, hq, Link.offer, ht, ReaderCache.apply,
          carried_append, carried_single]
      · obtain ⟨e, he, -, hrecv⟩ := ReaderCache.receive_of_not_takes (c := f.out.change) hq ht
        simp [receive, hrecv, he, link, putReader, owed, taken, acks, Table.get?_put, hc, hq,
          Link.offer, ht]
  · rw [if_neg hp]
    -- the cache answers one writer, and what it keeps for the others stays
    have hpeer : (((s.putReader f.out.reader (c.receive f.writer f.out.number
        f.out.change).1).net.readers.get? r).bind (·.writers.get? w)) =
          (s.net.readers.get? r).bind (·.writers.get? w) := by
      simp only [putReader, Table.get?_put]
      split_ifs with hr
      · have hw : w ≠ f.writer := fun hw => hp ⟨hw.symm, hr.symm⟩
        simp [hr, hc, ReaderCache.get?_receive, hw]
      · rfl
    have htaken : (s.receive f c).taken w r = s.taken w r := by
      simp only [taken, receive]
      split_ifs
      · simp [carried_append, carried_single, hp]
      · rfl
    have hacks : (s.receive f c).acks w r = s.acks w r := by
      simp [receive, acks, hp]
    simp only [link, htaken, hacks]
    exact congrArg (Link.mk _ · _ _ _ _) hpeer

lemma onward_receive {f : Flight} {c : ReaderCache} (hs : s.Wf)
    (hc : s.net.readers.get? f.out.reader = some c)
    (hf : ∀ q, c.writers.get? f.writer = some q → q.Takes f.out.number → f ∈ s.net.flight) :
    s.Onward (s.receive f c) := by
  refine ⟨⟨hs.history, hs.earlier⟩, fun w r h x hw hx => ?_⟩
  replace hw : s.net.writers.get? w = some h := hw
  obtain ⟨x', hx', hqos⟩ : ∃ x', s.net.readers.get? r = some x' ∧ x'.qos = x.qos := by
    replace hx : (s.net.readers.put Guid.before f.out.reader
      (c.receive f.writer f.out.number f.out.change).1).get? r = some x := hx
    rw [Table.get?_put] at hx
    split_ifs at hx with hr
    · obtain rfl := Option.some.inj hx
      exact ⟨c, hr ▸ hc, ReaderCache.receive_qos.symm⟩
    · exact ⟨x, hx, rfl⟩
  refine ⟨h, x', hw, hx', by rw [both, both, hqos], ?_⟩
  rw [link_receive hc]
  split_ifs with hp
  · obtain ⟨rfl, rfl⟩ := hp
    obtain rfl : x' = c := Option.some.inj (hx'.symm.trans hc)
    cases hq : x'.writers.get? f.writer with
    | some q =>
      refine .offer _ _ _ fun q' hq' ht => ?_
      rw [link_eq hw hc] at hq'
      exact mem_carried (hf q' hq' ht) rfl rfl
    | none => exact .disown _ (by rw [link_eq hw hc]; exact hq)
  · exact .rest _

lemma onward_answer {a : Answer} {h : WriterHistory} (hs : s.Wf) (ha : a ∈ s.answers)
    (hg : s.net.writers.get? a.writer = some h) :
    s.Onward (s.putWriter a.writer (h.acknowledge a.reader a.acked).1) := by
  obtain ⟨hguid, hwf⟩ := hs.history _ h hg
  refine ⟨⟨fun w x hx => ?_, fun f hf x hx => ?_⟩, fun w r x c hx hr => ?_⟩ <;>
    simp only [putWriter, Table.get?_put] at hx
  · split_ifs at hx with hw
    · obtain rfl := Option.some.inj hx
      exact ⟨hguid.trans hw.symm, hwf.acknowledge _ _⟩
    · exact hs.history w x hx
  · split_ifs at hx with hw
    · obtain rfl := Option.some.inj hx
      exact hs.earlier f hf h (hw ▸ hg)
    · exact hs.earlier f hf x hx
  · rw [link_putWriter]
    split_ifs at hx ⊢ with hw
    · subst hw
      obtain rfl := Option.some.inj hx
      have hproxy : (s.link a.writer r).proxy = h.proxies.get? r := by rw [link_eq hg hr]
      refine ⟨h, c, hg, hr, rfl, ?_⟩
      rw [WriterHistory.get?_acknowledge, ← hproxy]
      split_ifs with hra
      · exact .acknowledge _ _ (List.mem_filterMap.mpr ⟨a, ha, by simp [hra]⟩)
      · exact .rest _
    · exact ⟨x, c, hx, hr, rfl, .rest _⟩

lemma onward_take {r : Guid} {c : ReaderCache} (hs : s.Wf) (hr : s.net.readers.get? r = some c)
    (max : Nat) : s.Onward (s.putReader r (c.take max).1) := by
  refine onward_putReader hs hr rfl fun w h hw => ?_
  rw [link_putReader, if_pos rfl, link_eq hw hr]
  exact .rest _

lemma onward_step (hs : s.Wf) (e : Event) : s.Onward (s.step e) := by
  -- an event that names what is not there rests
  cases e with
  | write w key payload =>
    simp only [step]
    split
    · exact onward_addChange hs ‹_› key .alive (some payload)
    · exact onward_rest hs
  | dispose w key handle =>
    simp only [step, WriterHistory.dispose]
    split
    · split_ifs
      · exact onward_rest hs
      · exact onward_addChange hs ‹_› key .disposed none
    · exact onward_rest hs
  | attach w r =>
    simp only [step]
    split
    · split_ifs
      · exact onward_attach hs ‹_› ‹_›
      · exact onward_rest hs
    · exact onward_rest hs
  | enrol w r =>
    simp only [step]
    split
    · split_ifs
      · exact onward_enrol hs ‹_› ‹_›
      · exact onward_rest hs
    · exact onward_rest hs
  | resend w =>
    simp only [step, Net.retransmit]
    cases hw : s.net.writers.get? w with
    | none => exact onward_rest hs
    | some h => exact onward_resend hs hw
  | arrive i =>
    simp only [step]
    split
    · split
      · exact onward_receive hs ‹_› fun _ _ _ => List.mem_of_getElem? ‹_›
      · exact onward_rest hs
    · exact onward_rest hs
  | answer i =>
    simp only [step]
    split
    · split
      · exact onward_answer hs (List.mem_of_getElem? ‹_›) ‹_›
      · exact onward_rest hs
    · exact onward_rest hs
  | take r max =>
    simp only [step, Net.take]
    cases hr : s.net.readers.get? r with
    | none => exact onward_rest hs
    | some c => exact onward_take hs hr max

/-! ### Every run -/

lemma writer_start {writers readers : List (Guid × Qos)}
    (hw : (start writers readers).net.writers.get? w = some h) : ∃ q, h = .new w q := by
  rcases Table.get?_fill Guid.before WriterHistory.new hw with hn | hq
  · simp at hn
  · exact hq

lemma reader_start {writers readers : List (Guid × Qos)}
    (hr : (start writers readers).net.readers.get? r = some c) : ∃ q, c = .new q := by
  rcases Table.get?_fill Guid.before (fun _ => ReaderCache.new) hr with hn | hq
  · simp at hn
  · exact hq

lemma wf_start (writers readers : List (Guid × Qos)) : (start writers readers).Wf := by
  refine ⟨fun w h hw => ?_, by simp [start]⟩
  obtain ⟨q, rfl⟩ := writer_start hw
  exact ⟨rfl, WriterHistory.wf_new w q⟩

structure Sound (s : Session) : Prop where
  wf : s.Wf
  link : ∀ w r h c, s.net.writers.get? w = some h → s.net.readers.get? r = some c →
    Link.Sound (both h c) (s.link w r)

lemma sound_start (writers readers : List (Guid × Qos)) : (start writers readers).Sound := by
  refine ⟨wf_start writers readers, fun w r h c hw hr => ?_⟩
  obtain ⟨q, rfl⟩ := writer_start hw
  obtain ⟨q', rfl⟩ := reader_start hr
  rw [link_eq hw hr]
  exact Link.sound_fresh _

lemma Sound.onward {s' : Session} (hs : s.Sound) (h : s.Onward s') : s'.Sound := by
  refine ⟨h.wf, fun w r h' c' hw hr => ?_⟩
  obtain ⟨h, c, hw', hr', hboth, hstep⟩ := h.move w r h' c' hw hr
  rw [← hboth]
  exact (hs.link w r h c hw' hr').step hstep

lemma Sound.step (hs : s.Sound) (e : Event) : (s.step e).Sound := hs.onward (onward_step hs.wf e)

lemma Sound.run (hs : s.Sound) (es : List Event) : (s.run es).Sound := by
  induction es generalizing s with
  | nil => exact hs
  | cons e es ih => exact ih (hs.step e)

/-- What is in flight may get lost, and so may answers. -/
lemma Sound.lose (hs : s.Sound) (flight : List Flight) (answers : List Answer)
    (hf : ∀ f ∈ flight, f ∈ s.net.flight) (ha : ∀ a ∈ answers, a ∈ s.answers) :
    Sound { s with net := { s.net with flight := flight }, answers := answers } := by
  refine ⟨⟨hs.wf.history, hs.wf.earlier⟩, fun w r h c hw hr => ?_⟩
  have hl := hs.link w r h c hw hr
  exact ⟨hl.idle, hl.proxy, hl.strange, hl.peer, fun e he => hl.sent e (carried_subset hf he),
    fun hb a hmem => hl.acks hb a (List.mem_filterMap.mpr (by
      obtain ⟨x, hx, hxe⟩ := List.mem_filterMap.mp hmem
      exact ⟨x, ha x hx, hxe⟩)), hl.ordered⟩

/-- **A session loses nothing, repeats nothing and mixes nothing up.** Whatever the network does
to changes and answers, what a reader has accepted from a writer stands in the order in which it
was enqueued for it, once each. If both are reliable there is no gap either, no answer runs ahead
of what was accepted, and whatever no longer waits for an acknowledgment was accepted. -/
theorem session_safety (writers readers : List (Guid × Qos)) (es : List Event) {w r : Guid}
    {h : WriterHistory} {c : ReaderCache}
    (hw : ((start writers readers).run es).net.writers.get? w = some h)
    (hr : ((start writers readers).run es).net.readers.get? r = some c) :
    let s := (start writers readers).run es
    Ordered (s.owed w r) ∧
    (s.taken w r).Sublist (s.owed w r) ∧
    ((h.qos.isReliable && c.qos.isReliable) = true →
      s.taken w r <+: s.owed w r ∧
      (∀ a ∈ s.acks w r, a ≤ (s.taken w r).length) ∧
      ∀ p, h.proxies.get? r = some p → ∀ e ∈ numbered 1 (s.owed w r),
        e ∈ p.pending ∨ e ∈ numbered 1 (s.taken w r)) := by
  intro s
  have hl : Link.Sound (both h c) (s.link w r) :=
    ((sound_start writers readers).run es).link w r h c hw hr
  refine ⟨hl.ordered, hl.taken_sublist, fun hb => ?_⟩
  rw [both, hb] at hl
  refine ⟨hl.taken_prefix, hl.acks rfl, fun p hp e he => ?_⟩
  exact hl.numbered_subset (by rw [link_eq hw hr]; exact hp) he

/-- The reader adds the writer only after the replay has arrived once, and then the second
change overtakes the first. -/
def lateReplay : List Event :=
  [.write ⟨1, 1⟩ "a" (.str "x"), .attach ⟨1, 1⟩ ⟨2, 1⟩, .arrive 0, .enrol ⟨1, 1⟩ ⟨2, 1⟩,
    .write ⟨1, 1⟩ "a" (.str "y"), .arrive 1, .arrive 0, .arrive 0, .answer 2]

theorem session_safety_lateReplay :
    let s := (start [(⟨1, 1⟩, .interop)] [(⟨2, 1⟩, .interop)]).run lateReplay
    ∃ h c, s.net.writers.get? ⟨1, 1⟩ = some h ∧ s.net.readers.get? ⟨2, 1⟩ = some c ∧
      s.acks ⟨1, 1⟩ ⟨2, 1⟩ = [0, 0, 1, 1] ∧
      s.taken ⟨1, 1⟩ ⟨2, 1⟩ <+: s.owed ⟨1, 1⟩ ⟨2, 1⟩ ∧
      ∀ a ∈ s.acks ⟨1, 1⟩ ⟨2, 1⟩, a ≤ (s.taken ⟨1, 1⟩ ⟨2, 1⟩).length := by
  intro s
  have hsafe := session_safety [(⟨1, 1⟩, .interop)] [(⟨2, 1⟩, .interop)] lateReplay
    (w := ⟨1, 1⟩) (r := ⟨2, 1⟩) rfl rfl
  obtain ⟨hfront, hacks, -⟩ := hsafe.2.2 rfl
  exact ⟨_, _, rfl, rfl, rfl, hfront, hacks⟩

end Session

end PubSub
