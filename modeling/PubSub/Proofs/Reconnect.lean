import Mathlib.Data.List.InsertIdx
import PubSub.Proofs.History.Net
import PubSub.Proofs.Session

/-!
Writers and readers of a net that are parted and joined again while changes are still in flight.
Both sides then number from one anew, and nothing in flight tells for which connection it was
enqueued. As long as the reader never takes a change of an earlier connection, the current
connections are sessions like any other; once it takes one, two connections are mixed up.
-/

namespace PubSub

inductive Net.Event where
  | connect (w r : Guid)
  | disconnect (w r : Guid)
  | write (w : Guid) (key : InstanceKey) (payload : Json)
  | dispose (w : Guid) (key : InstanceKey) (handle : Handle)
  | deliver (position : Nat) (keep noAck : Bool)
  | drop (position : Nat)
  | retransmit (w : Guid)
  | take (r : Guid) (max : Nat)

/-- A change that was enqueued, and how often its writer and its reader had been parted then. -/
structure Marked where
  mark : Nat
  flight : Flight

/-- A change that was accepted, and how often the two had been parted when it was. -/
structure Receipt where
  round : Nat
  got : Marked

/-- A net that remembers which connection everything belongs to. -/
structure Trace where
  net : Net
  round : Guid → Guid → Nat
  flight : List Marked
  enqueued : List Marked
  accepted : List Receipt

namespace Trace

def start (writers readers : List (Guid × Qos)) : Trace :=
  ⟨.new writers readers, fun _ _ => 0, [], [], []⟩

def mark (t : Trace) (f : Flight) : Marked := ⟨t.round f.writer f.out.reader, f⟩

def sent (t : Trace) (n : Net) : List Marked := (n.flight.drop t.net.flight.length).map t.mark

def resend (t : Trace) (n : Net) : Trace := { t with net := n, flight := t.flight ++ t.sent n }

def send (t : Trace) (n : Net) : Trace :=
  { t.resend n with enqueued := t.enqueued ++ t.sent n }

/-- From now on the two are in another connection. -/
def part (t : Trace) (n : Net) (w r : Guid) : Trace :=
  { t with
    net := n
    round := fun w' r' => if w' = w ∧ r' = r then t.round w r + 1 else t.round w' r' }

def receive (t : Trace) (m : Marked) (n : Net) (reception : Reception) (rest : List Marked) :
    Trace :=
  { t with
    net := n
    flight := rest
    accepted :=
      if reception = .accepted then
        t.accepted ++ [⟨t.round m.flight.writer m.flight.out.reader, m⟩]
      else t.accepted }

/-- An event that names what is not there changes nothing. -/
def step (t : Trace) : Net.Event → Trace
  | .connect w r =>
    match t.net.connect w r with
    | some (n, _) => t.send n
    | none => t
  | .disconnect w r =>
    match t.net.disconnect w r with
    | some (n, _) => t.part n w r
    | none => t
  | .write w key payload =>
    match t.net.write w key payload with
    | some (n, _) => t.send n
    | none => t
  | .dispose w key handle =>
    match t.net.dispose w key handle with
    | some (.ok n) => t.send n
    | _ => t
  | .deliver i keep noAck =>
    match t.flight[i]?, t.net.deliver i keep noAck with
    | some m, some (n, d) =>
      t.receive m n d.reception (if keep then t.flight else t.flight.eraseIdx i)
    | _, _ => t
  | .drop i => { t with net := t.net.drop i, flight := t.flight.eraseIdx i }
  | .retransmit w =>
    match t.net.retransmit w with
    | some (n, _) => t.resend n
    | none => t
  | .take r max =>
    match t.net.take r max with
    | some (n, _) => { t with net := n }
    | none => t

def run (t : Trace) (es : List Net.Event) : Trace := es.foldl step t

/-- The reader takes a change that was enqueued for it in an earlier connection. -/
def Strays (t : Trace) : Net.Event → Prop
  | .deliver i _ _ =>
    ∃ m h c q, t.flight[i]? = some m ∧
      m.mark ≠ t.round m.flight.writer m.flight.out.reader ∧
      t.net.writers.get? m.flight.writer = some h ∧
      t.net.readers.get? m.flight.out.reader = some c ∧
      c.writers.get? m.flight.writer = some q ∧ q.Takes m.flight.out.number
  | _ => False

/-- Connections are kept apart: nothing was accepted in another connection than the one for which
it was enqueued, and whatever of the current connection a reliable pair no longer waits for has
been accepted in that connection. -/
structure Isolated (t : Trace) : Prop where
  genuine : ∀ a ∈ t.accepted, a.got.mark = a.round
  settled : ∀ w r h c p, t.net.writers.get? w = some h → t.net.readers.get? r = some c →
    (h.qos.isReliable && c.qos.isReliable) = true → h.proxies.get? r = some p →
    ∀ m ∈ t.enqueued, m.mark = t.round w r → m.flight.writer = w → m.flight.out.reader = r →
      m.flight.out.change ∈ p.pending.map (·.2) ∨
      ∃ a ∈ t.accepted, a.round = t.round w r ∧ a.got.flight.writer = w ∧
        a.got.flight.out.reader = r ∧ a.got.flight.out.change = m.flight.out.change

/-! ### The current connections as a session -/

def now (round : Guid → Guid → Nat) (ms : List Marked) : List Flight :=
  (ms.filter fun m => m.mark = round m.flight.writer m.flight.out.reader).map (·.flight)

def session (t : Trace) : Session where
  net := { t.net with flight := now t.round t.flight }
  answers := []
  enqueued := now t.round t.enqueued
  accepted := now t.round (t.accepted.map fun a => ⟨a.round, a.got.flight⟩)

variable {t : Trace} {w r : Guid} {h : WriterHistory} {c : ReaderCache}

lemma now_append (xs ys : List Marked) : now t.round (xs ++ ys) = now t.round xs ++ now t.round ys := by
  simp [now]

@[simp] lemma now_mark (fs : List Flight) : now t.round (fs.map t.mark) = fs := by
  induction fs with
  | nil => rfl
  | cons f fs ih =>
    unfold now at ih ⊢
    simp [mark] at ih ⊢
    exact ih

lemma mem_now {m : Marked} {ms : List Marked} (hm : m ∈ ms)
    (he : m.mark = t.round m.flight.writer m.flight.out.reader) : m.flight ∈ now t.round ms :=
  List.mem_map_of_mem (List.mem_filter.mpr ⟨hm, by simp [he]⟩)

lemma now_subset {xs ys : List Marked} (h : ∀ m ∈ xs, m ∈ ys) {f : Flight} (hf : f ∈ now t.round xs) :
    f ∈ now t.round ys := by
  obtain ⟨m, hm, rfl⟩ := List.mem_map.mp hf
  obtain ⟨hm, he⟩ := List.mem_filter.mp hm
  exact mem_now (h m hm) (by simpa using he)

lemma sent_of_append {n : Net} {fs : List Flight} (hn : n.flight = t.net.flight ++ fs) :
    t.sent n = fs.map t.mark := by
  rw [sent, hn, List.drop_left]

lemma session_resend {n : Net} {fs : List Flight} (hn : n.flight = t.net.flight ++ fs) :
    (t.resend n).session =
      { t.session with net := { n with flight := t.session.net.flight ++ fs } } := by
  have hnow : now t.round (t.flight ++ t.sent n) = now t.round t.flight ++ fs := by
    rw [now_append, sent_of_append hn, now_mark]
  exact congrArg (fun x => { t.session with net := { n with flight := x } }) hnow

lemma session_send {n : Net} {fs : List Flight} (hn : n.flight = t.net.flight ++ fs) :
    (t.send n).session =
      { t.session with
        net := { n with flight := t.session.net.flight ++ fs }
        enqueued := t.session.enqueued ++ fs } := by
  have hnow : now t.round (t.enqueued ++ t.sent n) = now t.round t.enqueued ++ fs := by
    rw [now_append, sent_of_append hn, now_mark]
  exact (congrArg (fun x => { (t.resend n).session with enqueued := x }) hnow).trans
    (congrArg (fun s : Session => { s with enqueued := now t.round t.enqueued ++ fs })
      (session_resend hn))

lemma session_receive (m : Marked) (n : Net) (reception : Reception) (rest : List Marked) :
    (t.receive m n reception rest).session =
      { t.session with
        net := { n with flight := now t.round rest }
        accepted := if reception = .accepted then t.session.accepted ++ [m.flight]
          else t.session.accepted } := by
  have hone : now t.round [⟨t.round m.flight.writer m.flight.out.reader, m.flight⟩] = [m.flight] := by
    simp [now]
  simp only [session, receive]
  split_ifs
  · rw [List.map_append, now_append, List.map_singleton, hone]
  · rfl

lemma mem_receive {m : Marked} {n : Net} {reception : Reception} {rest : List Marked} {a : Receipt}
    (ha : a ∈ (t.receive m n reception rest).accepted) :
    a ∈ t.accepted ∨
      reception = .accepted ∧ a = ⟨t.round m.flight.writer m.flight.out.reader, m⟩ := by
  simp only [receive] at ha
  split_ifs at ha with he
  · rcases List.mem_append.mp ha with ha | ha
    · exact .inl ha
    · exact .inr ⟨he, List.mem_singleton.mp ha⟩
  · exact .inl ha

/-! ### What every run keeps -/

def Past (round : Guid → Guid → Nat) (m : Marked) : Prop :=
  m.mark ≤ round m.flight.writer m.flight.out.reader

structure Kept (t : Trace) : Prop where
  sound : t.session.Sound
  flight : t.flight.map (·.flight) = t.net.flight
  inFlight : ∀ m ∈ t.flight, Past t.round m
  enqueued : ∀ m ∈ t.enqueued, Past t.round m
  accepted : ∀ a ∈ t.accepted, Past t.round ⟨a.round, a.got.flight⟩
  genuine : ∀ a ∈ t.accepted, a.got.mark = a.round

lemma kept_start (writers readers : List (Guid × Qos)) : (start writers readers).Kept :=
  ⟨Session.sound_start writers readers, rfl, by simp [start], by simp [start], by simp [start],
    by simp [start]⟩

lemma past_sent {n : Net} {m : Marked} (hm : m ∈ t.sent n) : Past t.round m := by
  obtain ⟨f, -, rfl⟩ := List.mem_map.mp hm
  exact Nat.le_refl _

lemma Kept.resend (ht : t.Kept) {n : Net} {fs : List Flight} (hn : n.flight = t.net.flight ++ fs)
    (hs : Session.Sound { t.session with net := { n with flight := t.session.net.flight ++ fs } }) :
    (t.resend n).Kept where
  sound := session_resend hn ▸ hs
  flight := by
    simp only [Trace.resend, List.map_append, ht.flight, sent_of_append hn, hn]
    simp [mark, Function.comp_def]
  inFlight m hm := by
    rcases List.mem_append.mp hm with hm | hm
    · exact ht.inFlight m hm
    · exact (past_sent hm : Past t.round m)
  enqueued := ht.enqueued
  accepted := ht.accepted
  genuine := ht.genuine

lemma Kept.send (ht : t.Kept) {n : Net} {fs : List Flight} (hn : n.flight = t.net.flight ++ fs)
    (hs : Session.Sound { t.session with
      net := { n with flight := t.session.net.flight ++ fs }
      enqueued := t.session.enqueued ++ fs }) : (t.send n).Kept where
  sound := session_send hn ▸ hs
  flight := by
    simp only [Trace.send, Trace.resend, List.map_append, ht.flight, sent_of_append hn, hn]
    simp [mark, Function.comp_def]
  inFlight m hm := by
    rcases List.mem_append.mp hm with hm | hm
    · exact ht.inFlight m hm
    · exact (past_sent hm : Past t.round m)
  enqueued m hm := by
    rcases List.mem_append.mp hm with hm | hm
    · exact ht.enqueued m hm
    · exact (past_sent hm : Past t.round m)
  accepted := ht.accepted
  genuine := ht.genuine

lemma Kept.addChange (ht : t.Kept) (hw : t.net.writers.get? w = some h) (key : InstanceKey)
    (kind : ChangeKind) (payload : Option Json) :
    (t.send (t.net.send (h.addChange key kind payload).1 (h.addChange key kind payload).2)).Kept :=
  ht.send rfl (ht.sound.onward (Session.onward_addChange ht.sound.wf hw key kind payload))

lemma Kept.connect (ht : t.Kept) (w r : Guid) : (t.step (.connect w r)).Kept := by
  simp only [step]
  cases hw : t.net.writers.get? w with
  | none => simpa [Net.connect, hw] using ht
  | some h =>
    cases hr : t.net.readers.get? r with
    | none => simpa [Net.connect, hw, hr] using ht
    | some c =>
      cases hq : Qos.conflict? h.qos c.qos with
      | some p =>
        rw [Net.connect_of_conflict hw hr hq]
        refine ht.send (List.append_nil _).symm ?_
        simp only [List.append_nil]
        exact ht.sound
      | none =>
        obtain ⟨d, hd⟩ := Net.connect_of_compatible hw hr hq
        rw [hd]
        -- the reader accepts the writer first
        have henrol := ht.sound.onward (Session.onward_enrol ht.sound.wf hw hr)
        have hr' : (t.session.putReader r (c.addWriter w h.qos.isReliable)).net.readers.get? r =
            some (c.addWriter w h.qos.isReliable) := by
          simp [Session.putReader, Table.get?_put]
        have hattach := henrol.onward (Session.onward_attach henrol.wf hw hr')
        rw [ReaderCache.addWriter_qos] at hattach
        exact ht.send rfl hattach

lemma Kept.quiet (ht : t.Kept) {n : Net} (hn : n.flight = t.net.flight)
    (hs : Session.Sound { t.session with net := { n with flight := t.session.net.flight } }) :
    Kept { t with net := n } :=
  ⟨hs, ht.flight.trans hn.symm, ht.inFlight, ht.enqueued, ht.accepted, ht.genuine⟩

lemma Kept.drop (ht : t.Kept) (i : Nat) : (t.step (.drop i)).Kept where
  sound := ht.sound.lose _ _ (fun f hf => now_subset (fun m hm => List.mem_of_mem_eraseIdx hm) hf)
    (fun a ha => ha)
  flight := by simp [step, Net.drop, ← ht.flight, List.eraseIdx_map]
  inFlight m hm := ht.inFlight m (List.mem_of_mem_eraseIdx hm)
  enqueued := ht.enqueued
  accepted := ht.accepted
  genuine := ht.genuine

/-- A change arrives: unless it strays, the current connections stay sessions. -/
lemma Kept.deliver (ht : t.Kept) {i : Nat} {keep noAck : Bool}
    (hstray : ¬t.Strays (.deliver i keep noAck)) : (t.step (.deliver i keep noAck)).Kept := by
  simp only [step]
  cases hm : t.flight[i]? with
  | none => exact ht
  | some m =>
    cases hx : t.net.deliver i keep noAck with
    | none => exact ht
    | some x =>
      obtain ⟨f, c, h, hf, hc, hh⟩ := Net.deliver_some hx
      obtain rfl : m.flight = f := by
        rw [← ht.flight, List.getElem?_map, hm] at hf
        exact Option.some.inj hf
      obtain ⟨done, hd⟩ := Net.deliver_eq keep noAck hf hc hh
      obtain rfl := Option.some.inj (hx.symm.trans hd)
      have hcurrent : ∀ q, c.writers.get? m.flight.writer = some q → q.Takes m.flight.out.number →
          m.mark = t.round m.flight.writer m.flight.out.reader := by
        intro q hq htakes
        by_contra hne
        exact hstray ⟨m, h, c, q, hm, hne, hh, hc, hq, htakes⟩
      have hsub : ∀ m' ∈ (if keep then t.flight else t.flight.eraseIdx i), m' ∈ t.flight := by
        split_ifs
        · exact fun m' hm' => hm'
        · exact fun m' hm' => List.mem_of_mem_eraseIdx hm'
      refine ⟨?_, ?_, fun m' hm' => ht.inFlight m' (hsub m' hm'), ht.enqueued, fun a ha => ?_,
        fun a ha => ?_⟩
      · -- the change arrives, the answer may get back, and then both are gone
        have hrecv := ht.sound.onward (Session.onward_receive ht.sound.wf hc fun q hq htakes =>
          mem_now (List.mem_of_getElem? hm) (hcurrent q hq htakes))
        have hback : Session.Sound (if noAck then t.session.receive m.flight c
            else (t.session.receive m.flight c).putWriter m.flight.writer (h.acknowledge
              m.flight.out.reader (c.receive m.flight.writer m.flight.out.number
                m.flight.out.change).2.2).1) := by
          split_ifs
          · exact hrecv
          · exact hrecv.onward (Session.onward_answer (a := ⟨_, _, _⟩) hrecv.wf
              (List.mem_append_right _ (List.mem_singleton_self _)) hh)
        rw [session_receive]
        have hlose := hback.lose (now t.round (if keep then t.flight else t.flight.eraseIdx i)) []
          (fun f hf => ?_) (by simp)
        · cases noAck <;> exact hlose
        · have hmem : f ∈ t.session.net.flight := now_subset hsub hf
          cases noAck <;> exact hmem
      · cases keep
        · simp [receive, ← ht.flight, List.eraseIdx_map]
        · exact ht.flight
      · rcases mem_receive ha with ha | ⟨-, rfl⟩
        · exact ht.accepted a ha
        · exact Nat.le_refl _
      · rcases mem_receive ha with ha | ⟨he, rfl⟩
        · exact ht.genuine a ha
        · obtain ⟨q, hq, htakes⟩ := ReaderCache.receive_accepted_iff.mp he
          exact hcurrent q hq htakes

/-! ### Parting -/

def others (w r : Guid) (fs : List Flight) : List Flight :=
  fs.filter fun f => ¬(f.writer = w ∧ f.out.reader = r)

lemma carried_others_of_ne {w r w' r' : Guid} (hne : ¬(w' = w ∧ r' = r)) (fs : List Flight) :
    carried w' r' (others w r fs) = carried w' r' fs := by
  unfold carried others
  rw [List.filterMap_filter]
  refine List.filterMap_congr fun f _ => ?_
  by_cases hf : f.writer = w ∧ f.out.reader = r
  · have : ¬(f.writer = w' ∧ f.out.reader = r') := fun hf' =>
      hne ⟨hf'.1.symm.trans hf.1, hf'.2.symm.trans hf.2⟩
    rw [if_neg this]
    simp [hf]
  · simp [hf]

lemma carried_others_self (w r : Guid) (fs : List Flight) : carried w r (others w r fs) = [] := by
  refine List.filterMap_eq_nil_iff.mpr fun f hf => ?_
  have hne := (List.mem_filter.mp hf).2
  exact if_neg (of_decide_eq_true hne)

/-- Once the two are parted, what was between them is of an earlier connection. -/
lemma now_part {n : Net} {ms : List Marked} (hms : ∀ m ∈ ms, Past t.round m) (w r : Guid) :
    now (t.part n w r).round ms = others w r (now t.round ms) := by
  simp only [now, others, List.filter_map, List.filter_filter]
  refine congrArg _ (List.filter_congr fun m hm => ?_)
  have := hms m hm
  by_cases hp : m.flight.writer = w ∧ m.flight.out.reader = r
  · simp [part, hp, Past] at this ⊢
    omega
  · have hround : (t.part n w r).round m.flight.writer m.flight.out.reader =
        t.round m.flight.writer m.flight.out.reader := if_neg hp
    rw [hround, Function.comp_apply, decide_eq_true hp, Bool.true_and]

def parted (n : Net) (w r : Guid) (h : WriterHistory) (c : ReaderCache) : Net :=
  { n with
    writers := n.writers.put Guid.before w (h.unmatchReader r)
    readers := n.readers.put Guid.before r (c.removeWriter w).1 }

lemma get?_writers_parted (n : Net) (w r w' : Guid) (h : WriterHistory) (c : ReaderCache) :
    (parted n w r h c).writers.get? w' =
      if w' = w then some (h.unmatchReader r) else n.writers.get? w' :=
  Table.get?_put _ _ _ _ _

lemma get?_readers_parted (n : Net) (w r r' : Guid) (h : WriterHistory) (c : ReaderCache) :
    (parted n w r h c).readers.get? r' =
      if r' = r then some (c.removeWriter w).1 else n.readers.get? r' :=
  Table.get?_put _ _ _ _ _

lemma writer_parted {n : Net} {w w' : Guid} {x : WriterHistory} (hw : n.writers.get? w = some h)
    (r : Guid) (hx : (parted n w r h c).writers.get? w' = some x) :
    ∃ h', n.writers.get? w' = some h' ∧ (x = h' ∨ x = h'.unmatchReader r) := by
  rw [get?_writers_parted] at hx
  split_ifs at hx with hw'
  · exact ⟨h, hw' ▸ hw, .inr (Option.some.inj hx).symm⟩
  · exact ⟨x, hx, .inl rfl⟩

lemma reader_parted {n : Net} {r r' : Guid} {y : ReaderCache} (hr : n.readers.get? r = some c)
    (w : Guid) (hy : (parted n w r h c).readers.get? r' = some y) :
    ∃ c', n.readers.get? r' = some c' ∧ y.qos = c'.qos := by
  rw [get?_readers_parted] at hy
  split_ifs at hy with hr'
  · obtain rfl := Option.some.inj hy
    exact ⟨c, hr' ▸ hr, c.removeWriter_qos w⟩
  · exact ⟨y, hy, rfl⟩

lemma Past.part {n : Net} {m : Marked} (hm : Past t.round m) (w r : Guid) :
    Past (t.part n w r).round m := by
  unfold Past Trace.part at *
  simp only
  split_ifs with hp
  · rw [hp.1, hp.2] at hm
    omega
  · exact hm

lemma session_part (ht : t.Kept) (n : Net) (w r : Guid) :
    (t.part n w r).session =
      { net := { n with flight := others w r t.session.net.flight }
        answers := []
        enqueued := others w r t.session.enqueued
        accepted := others w r t.session.accepted } := by
  have haccepted : ∀ m ∈ t.accepted.map fun a => (⟨a.round, a.got.flight⟩ : Marked),
      Past t.round m := by
    intro m hm
    obtain ⟨a, ha, rfl⟩ := List.mem_map.mp hm
    exact ht.accepted a ha
  show Session.mk ⟨n.writers, n.readers, now (t.part n w r).round t.flight⟩ []
    (now (t.part n w r).round t.enqueued)
    (now (t.part n w r).round (t.accepted.map fun a => ⟨a.round, a.got.flight⟩)) = _
  rw [now_part haccepted, now_part ht.enqueued, now_part ht.inFlight]
  rfl

/-- The two meet as strangers again, and nobody else notices. -/
lemma link_part (ht : t.Kept) (hw : t.net.writers.get? w = some h)
    (hr : t.net.readers.get? r = some c) (w' r' : Guid) :
    (t.part (parted t.net w r h c) w r).session.link w' r' =
      if w' = w ∧ r' = r then Link.fresh else t.session.link w' r' := by
  rw [session_part ht]
  split_ifs with hp
  · obtain ⟨rfl, rfl⟩ := hp
    simp [Session.link, Session.owed, Session.taken, Session.acks, parted, Table.get?_put,
      WriterHistory.get?_unmatchReader, ReaderCache.get?_removeWriter, carried_others_self,
      Link.fresh]
  · have hproxy : ((parted t.net w r h c).writers.get? w').bind (·.proxies.get? r') =
        (t.net.writers.get? w').bind (·.proxies.get? r') := by
      rw [get?_writers_parted]
      split_ifs with hw'
      · have hr' : r' ≠ r := fun hr' => hp ⟨hw', hr'⟩
        simp [hw', hw, WriterHistory.get?_unmatchReader, hr']
      · rfl
    have hpeer : ((parted t.net w r h c).readers.get? r').bind (·.writers.get? w') =
        (t.net.readers.get? r').bind (·.writers.get? w') := by
      rw [get?_readers_parted]
      split_ifs with hr'
      · have hw' : w' ≠ w := fun hw' => hp ⟨hw', hr'⟩
        simp [hr', hr, ReaderCache.get?_removeWriter, hw']
      · rfl
    simp only [Session.link, Session.owed, Session.taken, Session.acks, carried_others_of_ne hp,
      hproxy, hpeer]
    rfl

lemma Kept.disconnect (ht : t.Kept) (w r : Guid) : (t.step (.disconnect w r)).Kept := by
  simp only [step]
  cases hw : t.net.writers.get? w with
  | none => simpa [Net.disconnect, hw] using ht
  | some h =>
    cases hr : t.net.readers.get? r with
    | none => simpa [Net.disconnect, hw, hr] using ht
    | some c =>
      rw [Net.disconnect_eq hw hr]
      show Kept (t.part (parted t.net w r h c) w r)
      refine ⟨⟨⟨fun w' x hx => ?_, fun f hf x hx => ?_⟩, fun w' r' x y hx hy => ?_⟩, ht.flight,
        fun m hm => (ht.inFlight m hm).part w r, fun m hm => (ht.enqueued m hm).part w r,
        fun a ha => (ht.accepted a ha).part w r, ht.genuine⟩
      · -- the histories of all stay in order
        obtain ⟨h', hh', hx⟩ := writer_parted (c := c) hw r hx
        obtain ⟨hguid, hwf⟩ := ht.sound.wf.history w' h' hh'
        rcases hx with rfl | rfl
        · exact ⟨hguid, hwf⟩
        · exact ⟨hguid, hwf.unmatchReader r⟩
      · rw [session_part ht] at hf
        obtain ⟨h', hh', hx⟩ := writer_parted (c := c) hw r hx
        have hearlier := ht.sound.wf.earlier f (List.mem_filter.mp hf).1 h' hh'
        rcases hx with rfl | rfl <;> exact hearlier
      · -- the link of the pair starts anew, and the others are what they were
        obtain ⟨h', hh', hx⟩ := writer_parted (c := c) hw r hx
        obtain ⟨c', hc', hqos⟩ := reader_parted (h := h) hr w hy
        have hboth : Session.both x y = Session.both h' c' := by
          unfold Session.both
          rw [hqos]
          rcases hx with rfl | rfl <;> rfl
        rw [hboth, link_part ht hw hr]
        split_ifs
        · exact Link.sound_fresh _
        · exact ht.sound.link w' r' h' c' hh' hc'

/-- Every event but a stray arrival keeps the connections apart. -/
theorem Kept.step (ht : t.Kept) {e : Net.Event} (hstray : ¬t.Strays e) : (t.step e).Kept := by
  -- what fails changes nothing, and what is sent is of the current connection
  cases e with
  | connect w r => exact ht.connect w r
  | disconnect w r => exact ht.disconnect w r
  | write w key payload =>
    simp only [Trace.step]
    cases hw : t.net.writers.get? w with
    | none => simpa [Net.write, hw] using ht
    | some h =>
      simpa [Net.write, WriterHistory.write, hw] using ht.addChange hw key .alive (some payload)
  | dispose w key handle =>
    simp only [Trace.step]
    cases hw : t.net.writers.get? w with
    | none => simpa [Net.dispose, hw] using ht
    | some h =>
      by_cases hk : handle ≠ 0 ∧ handle ≠ key.handle
      · simpa [Net.dispose, WriterHistory.dispose, hw, hk] using ht
      · simpa [Net.dispose, WriterHistory.dispose, hw, hk] using ht.addChange hw key .disposed none
  | deliver i keep noAck => exact ht.deliver hstray
  | drop i => exact ht.drop i
  | retransmit w =>
    simp only [Trace.step]
    cases hw : t.net.writers.get? w with
    | none => simpa [Net.retransmit, hw] using ht
    | some h =>
      have hs := ht.sound.onward (Session.onward_resend ht.sound.wf hw)
      simpa [Net.retransmit, hw] using ht.resend rfl hs
  | take r max =>
    simp only [Trace.step]
    cases hr : t.net.readers.get? r with
    | none => simpa [Net.take, hr] using ht
    | some c =>
      have hs := ht.sound.onward (Session.onward_take ht.sound.wf hr max)
      simpa [Net.take, hr] using ht.quiet (n := { t.net with
        readers := t.net.readers.put Guid.before r (c.take max).1 }) rfl hs

/-! ### Isolation -/

lemma Kept.isolated (ht : t.Kept) : t.Isolated := by
  refine ⟨ht.genuine, fun w r h c p hw hr hb hp m hm hmark hmw hmr => ?_⟩
  have hl : Link.Sound true (t.session.link w r) := hb ▸ ht.sound.link w r h c hw hr
  have howed : m.flight.out.change ∈ t.session.owed w r :=
    List.mem_map.mpr ⟨_, mem_carried (mem_now hm (by rw [hmw, hmr, hmark])) hmw hmr, rfl⟩
  rcases hl.settled (by rw [Session.link_eq hw hr]; exact hp) howed with hd | hd
  · exact .inl hd
  · obtain ⟨e, he, hec⟩ := List.mem_map.mp hd
    obtain ⟨f, hf, hfe⟩ := List.mem_filterMap.mp he
    split_ifs at hfe with hfp
    obtain ⟨m', hm', rfl⟩ := List.mem_map.mp hf
    obtain ⟨hm', hcur⟩ := List.mem_filter.mp hm'
    obtain ⟨a, ha, rfl⟩ := List.mem_map.mp hm'
    refine .inr ⟨a, ha, ?_, hfp.1, hfp.2, ?_⟩
    · have := of_decide_eq_true hcur
      rwa [hfp.1, hfp.2] at this
    · obtain rfl := Option.some.inj hfe
      exact hec

lemma Kept.run (ht : t.Kept) {es : List Net.Event}
    (hes : ∀ es' e, es' ++ [e] <+: es → ¬(t.run es').Strays e) : (t.run es).Kept := by
  induction es generalizing t with
  | nil => exact ht
  | cons e es ih =>
    refine ih (ht.step (hes [] e ⟨es, rfl⟩)) fun es' e' hpre => ?_
    exact hes (e :: es') e' (List.prefix_cons_inj e |>.mpr hpre)

/-- A stray arrival mixes two connections up. -/
lemma not_isolated_of_strays {e : Net.Event} (ht : t.Kept) (h : t.Strays e) :
    ¬(t.step e).Isolated := by
  cases e with
  | deliver i keep noAck =>
    obtain ⟨m, h, c, q, hm, hne, hw, hr, hq, htakes⟩ := h
    have hf : t.net.flight[i]? = some m.flight := by
      rw [← ht.flight, List.getElem?_map, hm]
      rfl
    obtain ⟨done, hd⟩ := Net.deliver_eq keep noAck hf hr hw
    have he : (c.receive m.flight.writer m.flight.out.number m.flight.out.change).2.1 =
        .accepted := ReaderCache.receive_accepted_iff.mpr ⟨q, hq, htakes⟩
    intro hi
    refine hne (hi.genuine ⟨t.round m.flight.writer m.flight.out.reader, m⟩ ?_)
    simp [step, hm, hd, receive, he]
  | _ => exact h.elim

lemma not_strays_of_isolated (ht : t.Kept) {es : List Net.Event}
    (hi : ∀ es', es' <+: es → (t.run es').Isolated) {es' : List Net.Event} {e : Net.Event}
    (hpre : es' ++ [e] <+: es) : ¬(t.run es').Strays e := by
  induction es generalizing t es' with
  | nil => simp at hpre
  | cons e' es ih =>
    have hfirst : ¬t.Strays e' := fun hs =>
      not_isolated_of_strays ht hs (hi [e'] ⟨es, rfl⟩)
    cases es' with
    | nil =>
      obtain ⟨rfl, -⟩ := List.cons_prefix_cons.mp hpre
      exact hfirst
    | cons x xs =>
      obtain ⟨rfl, hpre'⟩ := List.cons_prefix_cons.mp hpre
      exact ih (ht.step hfirst) (fun ys hys => hi (x :: ys) (List.cons_prefix_cons.mpr ⟨rfl, hys⟩))
        hpre'

/-- **Connections are kept apart exactly as long as nothing strays.** A run mixes no two
connections of a writer and a reader up, if and only if no change of an earlier connection ever
arrives under a number that the reader takes in the current one. -/
theorem isolated_iff (writers readers : List (Guid × Qos)) (es : List Net.Event) :
    (∀ es', es' <+: es → ((start writers readers).run es').Isolated) ↔
      ∀ es' e, es' ++ [e] <+: es → ¬((start writers readers).run es').Strays e := by
  have hstart := kept_start writers readers
  refine ⟨fun hi es' e hpre => not_strays_of_isolated hstart hi hpre, fun hes es' hpre => ?_⟩
  exact (hstart.run fun es'' e h => hes es'' e (h.trans hpre)).isolated

/-- The first change of the second connection and a change of the first one have the same number,
and the wrong one arrives. -/
def mixedUp : List Net.Event :=
  [.connect ⟨1, 1⟩ ⟨2, 1⟩, .write ⟨1, 1⟩ "a" (.str "x"), .disconnect ⟨1, 1⟩ ⟨2, 1⟩,
    .connect ⟨1, 1⟩ ⟨2, 1⟩, .write ⟨1, 1⟩ "b" (.str "y"), .deliver 0 false false]

theorem not_isolated_mixedUp :
    let t := (start [(⟨1, 1⟩, .reliable)] [(⟨2, 1⟩, .reliable)]).run mixedUp
    t.accepted.map (fun a => (a.round, a.got.mark, a.got.flight.out.change.key)) = [(1, 0, "a")] ∧
      (t.net.writers.get? ⟨1, 1⟩).map (·.unacknowledged) = some 0 ∧ ¬t.Isolated := by
  refine ⟨rfl, rfl, fun hi => ?_⟩
  exact absurd (hi.genuine _ List.mem_cons_self) (by decide)

end Trace

end PubSub
