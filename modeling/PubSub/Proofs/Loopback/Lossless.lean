import PubSub.Proofs.Loopback.Matching

/-!
Nothing is lost on the way from a writer to a reader, and nothing comes twice or out of order. What
a reliable writer keeps for a reliable reader is what is queued for it, so that the reader has
taken everything once the queue is empty; and a domain that is paused only lets its queue grow.
-/

namespace PubSub.Loopback

open Udp.Node (bind_ok)

lemma Pair.Bound.pending {b : Bool} {k : Nat} {p : Pair} (h : p.Bound b k) {x : ReaderProxy}
    (hx : p.proxy = some x) : x.pending = if b then p.jobs else [] := by
  obtain ⟨x', hx', hb, hkeeps⟩ := h.proxy
  obtain rfl : x' = x := Option.some.inj (hx'.symm.trans hx)
  rw [hkeeps.pending, hb, h.jobs]

/-- What has been taken and what is still queued make up what was enqueued. -/
lemma Pair.Bound.parts {b : Bool} {k : Nat} {p : Pair} (h : p.Bound b k) :
    (p.got.filterMap fun e => if e.2 = .accepted then some e.1 else none) ++ p.jobs.map (·.2) =
      p.owed := by
  rw [h.got, h.jobs, map_snd_numbered, List.filterMap_map]
  have htaken : (p.owed.take k).filterMap
      ((fun e : Change × Reception => if e.2 = .accepted then some e.1 else none) ∘
        fun c => (c, .accepted)) = p.owed.take k := by
    simp
  rw [htaken, List.take_append_drop]

/-! ### Queues that grow -/

namespace Domain

variable {d d₁ d₂ : Domain}

/-- No job is taken out of the queue, and the delivery is as it was. -/
structure Grown (d d₁ : Domain) : Prop where
  paused : d₁.paused = d.paused
  queue : d.queue <+: d₁.queue

namespace Grown

lemma refl (d : Domain) : Grown d d := ⟨rfl, List.prefix_rfl⟩

lemma trans (h : Grown d d₁) (h' : Grown d₁ d₂) : Grown d d₂ :=
  ⟨h'.paused.trans h.paused, h.queue.trans h'.queue⟩

lemma foldl {α : Type} {f : Domain → α → Domain} (hf : ∀ d a, Grown d (f d a)) (l : List α)
    (d : Domain) : Grown d (l.foldl f d) := by
  induction l generalizing d with
  | nil => exact refl d
  | cons a l ih => exact (hf d a).trans (ih (f d a))

end Grown

lemma grown_submit (d : Domain) (w : Guid) (out : List Outgoing) : Grown d (d.submit w out) := by
  unfold submit
  split
  · exact .refl d
  · exact ⟨rfl, List.prefix_append _ _⟩

lemma grown_meet (d : Domain) (w : Guid) (q : Qos) (r : Guid) (q' : Qos) :
    Grown d (d.meet w q r q') := by
  unfold meet bind
  cases Qos.conflict? q q' with
  | some p => exact ⟨rfl, List.prefix_rfl⟩
  | none =>
    cases d.writers.get? w with
    | none => exact .refl d
    | some x =>
      cases d.readers.get? r with
      | none => exact .refl d
      | some y =>
        have hbound : Grown d ((d.adjustReader r (readerBound · w x.qos.isReliable)).adjustWriter w
            fun _ => (writerBound x r y.qos).1) := ⟨rfl, List.prefix_rfl⟩
        exact hbound.trans (grown_submit _ w (writerBound x r y.qos).2)

lemma grown_addWriter (d : Domain) (x : Writer) : Grown d (d.addWriter x) := by
  have hinsert : Grown d (d.insertWriter x) := ⟨rfl, List.prefix_rfl⟩
  have hmeet := Grown.foldl (fun d e => grown_meet d x.guid x.qos e.guid e.qos)
    ((d.insertWriter x).listedOf .reader x.key) (d.insertWriter x)
  exact (hinsert.trans hmeet).trans ⟨rfl, List.prefix_rfl⟩

lemma grown_addReader (d : Domain) (y : Reader) : Grown d (d.addReader y) := by
  have hinsert : Grown d (d.insertReader y) := ⟨rfl, List.prefix_rfl⟩
  have hmeet := Grown.foldl (fun d e => grown_meet d e.guid e.qos y.guid y.qos)
    ((d.insertReader y).listedOf .writer y.key) (d.insertReader y)
  exact (hinsert.trans hmeet).trans ⟨rfl, List.prefix_rfl⟩

lemma grown_unlist (d : Domain) (key : MatchKey) (g : Guid) : Grown d (d.unlist key g) := by
  unfold unlist
  split
  · refine (Grown.foldl (fun d p => ?_) _ d).trans ⟨rfl, List.prefix_rfl⟩
    unfold part
    split <;> exact ⟨rfl, List.prefix_rfl⟩
  · exact .refl d

lemma grown_closeWriter (d : Domain) (w : Guid) : Grown d (d.closeWriter w) := by
  unfold closeWriter
  split
  · split_ifs
    · have hclosed : Grown d (d.adjustWriter w ({ · with isOpen := false })) :=
        ⟨rfl, List.prefix_rfl⟩
      exact hclosed.trans (grown_unlist _ _ w)
    · exact .refl d
  · exact .refl d

lemma grown_closeReader (d : Domain) (r : Guid) : Grown d (d.closeReader r) := by
  unfold closeReader
  split
  · split_ifs
    · have hclosed : Grown d (d.adjustReader r ({ · with isOpen := false })) :=
        ⟨rfl, List.prefix_rfl⟩
      exact hclosed.trans (grown_unlist _ _ r)
    · exact .refl d
  · exact .refl d

lemma grown_delete (d : Domain) (p : Nat) : Grown d (d.delete p) := by
  have hdeleted : Grown d
      { d with participants := d.participants.adjust p ({ · with deleted := true }) } :=
    ⟨rfl, List.prefix_rfl⟩
  exact (hdeleted.trans (Grown.foldl grown_closeWriter _ _)).trans
    (Grown.foldl grown_closeReader _ _)

lemma grown_createEndpoint {p : Nat} {kind : EndpointKind} {g : Group} {t : Topic}
    {type : SampleType} {q : Qos} {made : Domain × Guid}
    (hok : d.createEndpoint p kind g t type q = .ok made) : Grown d made.1 := by
  obtain ⟨x, -, hrest⟩ := bind_ok hok
  obtain ⟨⟨x', g'⟩, -, hmade⟩ := bind_ok hrest
  have hset : Grown d (d.setParticipant x') := ⟨rfl, List.prefix_rfl⟩
  cases kind with
  | writer =>
    obtain rfl := Except.ok.inj hmade
    exact hset.trans (grown_addWriter _ _)
  | reader =>
    obtain rfl := Except.ok.inj hmade
    exact hset.trans (grown_addReader _ _)

/-- Nothing but the delivery takes jobs out of the queue. -/
lemma grown_perform (hpaused : d.paused = true) {a : Act} (ha : a ≠ .pause false) :
    Grown d (d.perform a) := by
  have hto : ∀ {d₁}, d.perform a = d₁ → Grown d d₁ → Grown d (d.perform a) := by
    rintro _ rfl h
    exact h
  cases a with
  | join id name =>
    cases hid : d.participants.has id with
    | true => exact hto (by simp [perform, hid]) (.refl d)
    | false =>
      have hgrown : Grown d (d.addParticipant id name) := ⟨rfl, List.prefix_rfl⟩
      exact hto (by simp [perform, hid]) hgrown
  | createGroup p kind =>
    cases hok : d.createGroup p kind with
    | error f => exact hto (by simp [perform, hok]) (.refl d)
    | ok made =>
      have hperform : d.perform (.createGroup p kind) = made.1 := by simp [perform, hok]
      refine hto hperform ?_
      obtain ⟨x, -, hrest⟩ := bind_ok hok
      obtain ⟨x', -, hmade⟩ := bind_ok hrest
      obtain rfl := Except.ok.inj hmade
      exact ⟨rfl, List.prefix_rfl⟩
  | createEndpoint p kind g t type q =>
    cases hok : d.createEndpoint p kind g t type q with
    | error f => exact hto (by simp [perform, hok]) (.refl d)
    | ok made => exact hto (by simp [perform, hok]) (grown_createEndpoint hok)
  | submit w s =>
    cases hok : d.appended w s with
    | error f => exact hto (by simp [perform, submitted_eq, hok, Except.map]) (.refl d)
    | ok made =>
      have hmade : Grown d made.1 := by
        obtain ⟨x, hx⟩ := get?_of_appended hok
        obtain ⟨-, k, rfl⟩ := appended_ok hx hok
        exact ⟨rfl, List.prefix_rfl⟩
      exact hto (by simp [perform, submitted_eq, hok, Except.map])
        (hmade.trans (grown_submit _ w made.2))
  | lookWriter w l => exact ⟨rfl, List.prefix_rfl⟩
  | lookReader r l => exact ⟨rfl, List.prefix_rfl⟩
  | pause b =>
    cases b with
    | true => exact ⟨hpaused.symm, List.prefix_rfl⟩
    -- resuming is left out
    | false => exact absurd rfl ha
  | passUntil n => exact ⟨rfl, List.prefix_rfl⟩
  | close g => exact (grown_closeWriter d g).trans (grown_closeReader _ g)
  | delete p => exact grown_delete d p
  | leave p => exact (grown_delete d p).trans ⟨rfl, List.prefix_rfl⟩
  | deliver => exact hto (by simp [perform, hpaused]) (.refl d)

end Domain

/-- A paused domain keeps its jobs, and nothing arrives. -/
lemma Trace.run_paused (t : Trace) (hpaused : t.domain.paused = true) {as : List Act}
    (has : .pause false ∉ as) :
    Domain.Grown t.domain (t.run as).domain ∧ (t.run as).got = t.got := by
  induction as generalizing t with
  | nil => exact ⟨.refl _, rfl⟩
  | cons a as ih =>
    rw [List.mem_cons, not_or] at has
    have hstep : Domain.Grown t.domain (t.step a).domain :=
      Domain.grown_perform hpaused (Ne.symm has.1)
    have hgot : (t.step a).got = t.got := by
      funext w r
      have harrives : t.domain.arrives a w r = [] := by
        unfold Domain.arrives
        split
        · simp [hpaused]
        · rfl
      exact (congrArg _ harrives).trans (List.append_nil _)
    obtain ⟨hgrown, hsame⟩ := ih (t.step a) (hstep.paused.trans hpaused) has.2
    exact ⟨hstep.trans hgrown, hsame.trans hgot⟩

/-! ### Queues that are drained -/

namespace Domain

variable {d : Domain} {j : Job} {js : List Job}

lemma card?_run (h : d.Wf) (j : Job) : (d.run j).card? = d.card? := by
  unfold run
  cases hy : d.readers.get? j.out.reader with
  | none => rfl
  | some y =>
    have hreader : (d.adjustReader j.out.reader fun _ =>
        (y.receive j.writer j.out.number j.out.change).1).card? = d.card? := by
      refine card?_adjustReader_same fun y' hy' => ?_
      obtain rfl : y' = y := Option.some.inj (hy'.symm.trans hy)
      exact ((h.reader _ _ hy).receive _ _ _).2
    simp only
    cases (y.receive j.writer j.out.number j.out.change).2 with
    | none => exact hreader
    | some n => exact (card?_adjustWriter_same fun x _ => ofWriter_acknowledge x _ n).trans hreader

lemma queue_run (d : Domain) (j : Job) :
    (d.run j).queue = d.queue ∧ (d.run j).paused = d.paused := by
  unfold run
  split
  · exact ⟨rfl, rfl⟩
  · simp only
    split <;> exact ⟨rfl, rfl⟩

lemma Wf.withQueue (h : d.Wf) (js : List Job) : ({ d with queue := js } : Domain).Wf :=
  ⟨h.identity, h.issued, h.once, h.writers, h.readers, h.writer, h.reader⟩

end Domain

/-- As many deliveries as there are jobs empty the queue, and change nothing else than what the
endpoints have of each other. -/
lemma Trace.run_deliver {n : Nat} {t : Trace} (h : t.domain.Wf)
    (hpaused : t.domain.paused = false) (hn : t.domain.queue.length = n) :
    let t' := t.run (List.replicate n .deliver)
    t'.domain.queue = [] ∧ t'.owed = t.owed ∧ t'.domain.card? = t.domain.card? := by
  induction n generalizing t with
  | zero => exact ⟨List.eq_nil_of_length_eq_zero hn, rfl, rfl⟩
  | succ n ih =>
    obtain ⟨j, js, hq⟩ := List.exists_cons_of_length_eq_add_one hn
    have hstep : (t.step .deliver).domain =
        Domain.run { t.domain with queue := js } j := by
      rw [← Domain.deliver_cons hq]
      simp [Trace.step, Domain.perform, hpaused]
    have howed : (t.step .deliver).owed = t.owed := by
      funext w r
      exact List.append_nil _
    obtain ⟨hqueue, hpaused'⟩ := Domain.queue_run { t.domain with queue := js } j
    rw [← hstep] at hqueue hpaused'
    have hlength : (t.step .deliver).domain.queue.length = n := by
      rw [hq, List.length_cons] at hn
      rw [hqueue]
      exact Nat.succ.inj hn
    have hwf : (t.step .deliver).domain.Wf := hstep ▸ (h.withQueue js).run j
    obtain ⟨hempty, howed', hcard⟩ := ih hwf (hpaused'.trans hpaused) hlength
    refine ⟨hempty, howed'.trans howed, hcard.trans ?_⟩
    rw [hstep, Domain.card?_run (h.withQueue js)]
    rfl

/-! ### The laws of the delivery -/

namespace Good

open Domain

variable {met : List Meeting} {t : Trace} {w r : Guid} {x : Writer} {y : Reader}

/-- What two endpoints that have each other keep of each other is in step. -/
lemma pair_of_bound (h : Good met t) (hb : t.domain.Bound w r) :
    ∃ x y k, t.domain.writers.get? w = some x ∧ t.domain.readers.get? r = some y ∧
      (t.view.pair w r).Bound (x.qos.isReliable && y.qos.isReliable) k := by
  obtain ⟨x, y, hx, hy, ho, ho', hm, -⟩ := hb
  obtain ⟨k, hk⟩ := h.bound_pair hx hy ho ho' ((h.isMatched_iff hx hy ho ho').mp hm)
  exact ⟨x, y, k, hx, hy, hk⟩

/-- The next job finds its reader, which takes the change unless the writer has been closed. -/
lemma next_job (h : Good met t) {j : Job} {js : List Job} (hq : t.domain.queue = j :: js) :
    ∃ x y, t.domain.writers.get? j.writer = some x ∧
      t.domain.readers.get? j.out.reader = some y ∧
      (y.isOpen = true → (y.cache.receive j.writer j.out.number j.out.change).2.1 =
        if x.isOpen then .accepted else .unknownWriter) := by
  have hjobs : (t.view.pair j.writer j.out.reader).jobs =
      (j.out.number, j.out.change) ::
        jobsOf { t.domain with queue := js } j.writer j.out.reader := by
    simp [Trace.view, jobsOf_cons hq]
  obtain ⟨a, b, ha, hb, -⟩ := h.sound.known _ (h.sound.met_of_job hjobs)
  obtain ⟨x, hx, rfl⟩ := Option.map_eq_some_iff.mp ha
  obtain ⟨y, hy, rfl⟩ := Option.map_eq_some_iff.mp hb
  refine ⟨x, y, hx, hy, fun ho => ?_⟩
  have hopen : t.view.isOpen .writer j.writer = x.isOpen := by
    simp [View.isOpen, Trace.view, card?, hx, Card.ofWriter]
  have hpeer : (t.view.pair j.writer j.out.reader).peer = y.cache.writers.get? j.writer := by
    simp [Trace.view, peer?, hy]
  have hreader : t.view.isOpen .reader j.out.reader = true :=
    View.isOpen_iff.mpr ⟨.ofReader y, by simp [Trace.view, card?, hy], ho⟩
  rcases h.sound.peer_of_job hjobs hreader with ⟨hw, hp⟩ | ⟨hw, q, hp, ht⟩
  · rw [← hopen, hw, ReaderCache.receive_of_none (hpeer.symm.trans hp)]
    rfl
  · rw [← hopen, hw, ReaderCache.receive_of_takes (hpeer.symm.trans hp) ht]
    rfl

/-- What a writer keeps for a reader that it has is what is queued for it, if both are reliable. -/
lemma pending_eq (h : Good met t) (hb : t.domain.Bound w r)
    (hx : t.domain.writers.get? w = some x) (hy : t.domain.readers.get? r = some y)
    {p : ReaderProxy} (hp : x.history.proxies.get? r = some p) :
    p.pending = if x.qos.isReliable && y.qos.isReliable then t.domain.jobsOf w r else [] := by
  obtain ⟨x', y', k, hx', hy', hk⟩ := h.pair_of_bound hb
  obtain rfl := Option.some.inj (hx'.symm.trans hx)
  obtain rfl := Option.some.inj (hy'.symm.trans hy)
  exact hk.pending (by simp [Trace.view, proxy?, hx, hp])

lemma parts (h : Good met t) (hb : t.domain.Bound w r) :
    t.taken w r ++ (t.domain.jobsOf w r).map (·.2) = t.owed w r ∧ Ordered (t.owed w r) ∧
      ∀ e ∈ t.got w r, e.2 = .accepted := by
  obtain ⟨_, _, k, _, _, hk⟩ := h.pair_of_bound hb
  refine ⟨hk.parts, hk.ordered, fun e he => ?_⟩
  have hgot : t.got w r = _ := hk.got
  rw [hgot] at he
  obtain ⟨c, -, rfl⟩ := List.mem_map.mp he
  rfl

/-- Once the queue is empty, no writer waits for anything. -/
lemma unacknowledged (h : Good met t) (hq : t.domain.queue = [])
    (hx : t.domain.writers.get? w = some x) (ho : x.isOpen = true) :
    x.history.unacknowledged = 0 := by
  rw [WriterHistory.unacknowledged, List.length_eq_zero_iff, WriterHistory.pending,
    List.flatMap_eq_nil_iff]
  intro e he
  have hp := Table.get?_of_mem (h.wf.writer w x hx).history.proxies he
  have hb : t.domain.Bound w e.1 :=
    (h.bound_of_isMatched hx ho).mpr (Table.has_eq_true.mpr ⟨_, hp⟩)
  obtain ⟨y, hy⟩ : ∃ y, t.domain.readers.get? e.1 = some y := by
    obtain ⟨_, y, _, hy, _⟩ := hb
    exact ⟨y, hy⟩
  have hpending := h.pending_eq hb hx hy hp
  have hjobs : t.domain.jobsOf w e.1 = [] := by rw [jobsOf, hq]; rfl
  rw [hjobs, ite_self] at hpending
  rw [hpending, List.map_nil]

/-- Once the queue is empty, every reader has what the writers that it has enqueued for it. -/
lemma taken_eq (h : Good met t) (hq : t.domain.queue = []) (hb : t.domain.Bound w r) :
    t.taken w r = t.owed w r := by
  have hjobs : t.domain.jobsOf w r = [] := by rw [jobsOf, hq]; rfl
  have hparts := (h.parts hb).1
  rwa [hjobs, List.map_nil, List.append_nil] at hparts

end Good

/-- **Delivery is lossless and ordered.** Whatever has been done in a domain and whichever jobs
have run:

* what a reliable writer keeps for a reliable reader that it has are the changes of the jobs that
  are queued between them, in order; what the reader has taken, followed by those, is what the
  writer has enqueued for it, in order and each change once; and no job between them has been
  refused;
* the next job of the queue is accepted by its reader, as long as that is open, unless its writer
  has been closed: then the reader does not know it;
* once the queue is empty, no open writer waits for an acknowledgment, and a reader has taken
  exactly what the writers that it has enqueued for it;
* a paused domain keeps its queue and adds to it, and nothing arrives; and once it goes on, as many
  deliveries as there are jobs bring every reader everything. -/
theorem delivery_lossless (registry id : Nat) (latency : Span) (clock : Nat) (as : List Act) :
    let t := (Trace.start registry id latency clock).run as
    (∀ w r x y p, t.domain.Bound w r → t.domain.writers.get? w = some x →
      t.domain.readers.get? r = some y → x.history.proxies.get? r = some p →
      x.qos.isReliable = true → y.qos.isReliable = true →
        p.pending = t.domain.jobsOf w r ∧
        t.taken w r ++ (t.domain.jobsOf w r).map (·.2) = t.owed w r ∧ Ordered (t.owed w r) ∧
        ∀ e ∈ t.got w r, e.2 = .accepted) ∧
    (∀ j js, t.domain.queue = j :: js →
      ∃ x y, t.domain.writers.get? j.writer = some x ∧
        t.domain.readers.get? j.out.reader = some y ∧
        (y.isOpen = true → (y.cache.receive j.writer j.out.number j.out.change).2.1 =
          if x.isOpen then .accepted else .unknownWriter)) ∧
    (t.domain.queue = [] →
      (∀ w x, t.domain.writers.get? w = some x → x.isOpen = true →
        x.history.unacknowledged = 0) ∧
      ∀ w r, t.domain.Bound w r → t.taken w r = t.owed w r ∧ Ordered (t.owed w r)) ∧
    (∀ as', t.domain.paused = true → .pause false ∉ as' →
      t.domain.queue <+: (t.run as').domain.queue ∧ (t.run as').got = t.got) ∧
    (let t' := t.run (.pause false :: List.replicate t.domain.queue.length .deliver)
     t'.domain.queue = [] ∧ ∀ w r, t.domain.Bound w r → t'.taken w r = t.owed w r) := by
  intro t
  obtain ⟨met, h, -⟩ := good_run registry id latency clock as
  refine ⟨fun w r x y p hb hx hy hp hr hr' => ⟨?_, h.parts hb⟩, fun j js hq => h.next_job hq,
    fun hq => ⟨fun w x hx ho => h.unacknowledged hq hx ho, fun w r hb =>
      ⟨h.taken_eq hq hb, (h.parts hb).2.1⟩⟩, fun as' hpaused has' => ?_, ?_⟩
  · have hpending := h.pending_eq hb hx hy hp
    rwa [hr, hr'] at hpending
  · obtain ⟨hgrown, hgot⟩ := t.run_paused hpaused has'
    exact ⟨hgrown.queue, hgot⟩
  · intro t'
    have hresumed : (t.step (.pause false)).domain = { t.domain with paused := false } := rfl
    have hwf : (t.step (.pause false)).domain.Wf :=
      ⟨h.wf.identity, h.wf.issued, h.wf.once, h.wf.writers, h.wf.readers, h.wf.writer, h.wf.reader⟩
    obtain ⟨hempty, howed, hcard⟩ := Trace.run_deliver hwf rfl rfl
    have hlater : t' = (Trace.start registry id latency clock).run
        (as ++ .pause false :: List.replicate t.domain.queue.length .deliver) :=
      (List.foldl_append ..).symm
    obtain ⟨met', h', -⟩ := good_run registry id latency clock
      (as ++ .pause false :: List.replicate t.domain.queue.length .deliver)
    rw [← hlater] at h'
    refine ⟨hempty, fun w r hb => ?_⟩
    -- nobody has been created or closed meanwhile, so that the two still have each other
    have hbeside : t'.domain.Beside ⟨w, r, true⟩ := by
      have hopen : t'.domain.openAs? = t.domain.openAs? := Domain.openAs?_of_card? hcard
      have hbefore := h.bound_iff.mp hb
      unfold Domain.Beside at hbefore ⊢
      rw [hopen]
      exact hbefore
    have howed' : t'.owed w r = t.owed w r := by
      refine (congrFun (congrFun howed w) r).trans ?_
      exact List.append_nil _
    exact (h'.taken_eq hempty (h'.bound_iff.mpr hbeside)).trans howed'

/-- A reader is created after the first change, and the delivery is paused before the second. -/
def backlogged : List Act :=
  [.join 1 "p", .join 2 "q", .createGroup 1 .publisher, .createGroup 2 .subscriber,
    .createEndpoint 1 .writer ⟨1, 1⟩ ⟨"t", SampleType.hello.name, 1⟩ .hello .interop,
    .submit ⟨1, 2⟩ (.sample (.hello ⟨1, "a"⟩)),
    .createEndpoint 2 .reader ⟨2, 1⟩ ⟨"t", SampleType.hello.name, 2⟩ .hello .interop,
    .deliver, .pause true, .submit ⟨1, 2⟩ (.sample (.hello ⟨2, "b"⟩)),
    .submit ⟨1, 2⟩ (.disposal (.hello ⟨1, "a"⟩) 0)]

/-- Two jobs wait, and once they have run the reader has all three changes. -/
theorem delivery_lossless_backlogged :
    let t := (Trace.start 0 0 .zero 0).run backlogged
    t.domain.Bound ⟨1, 2⟩ ⟨2, 2⟩ ∧ t.domain.paused = true ∧
      (∃ x p, t.domain.writers.get? ⟨1, 2⟩ = some x ∧ x.history.proxies.get? ⟨2, 2⟩ = some p ∧
        p.pending = t.domain.jobsOf ⟨1, 2⟩ ⟨2, 2⟩ ∧ p.pending.map (·.1) = [2, 3]) ∧
      ((t.run [.pause false, .deliver, .deliver]).taken ⟨1, 2⟩ ⟨2, 2⟩).map (·.sequence) =
        [1, 2, 3] := by
  intro t
  obtain ⟨hpair, -, -, -, -, hresumed⟩ := delivery_lossless 0 0 .zero 0 backlogged
  have hw : (t.domain.writers.get? ⟨1, 2⟩).map (fun x =>
      (x.isOpen, x.qos.isReliable, x.history.isMatched ⟨2, 2⟩)) = some (true, true, true) := by
    decide +kernel
  have hr : (t.domain.readers.get? ⟨2, 2⟩).map (fun y =>
      (y.isOpen, y.qos.isReliable, y.cache.hasWriter ⟨1, 2⟩)) = some (true, true, true) := by
    decide +kernel
  have hjobs : (t.domain.jobsOf ⟨1, 2⟩ ⟨2, 2⟩).map (·.1) = [2, 3] := by decide +kernel
  have howed : (t.owed ⟨1, 2⟩ ⟨2, 2⟩).map (·.sequence) = [1, 2, 3] := by decide +kernel
  have hqueue : t.domain.queue.length = 2 := by decide +kernel
  have hpaused : t.domain.paused = true := by decide +kernel
  obtain ⟨x, hx, hxs⟩ := Option.map_eq_some_iff.mp hw
  obtain ⟨y, hy, hys⟩ := Option.map_eq_some_iff.mp hr
  simp only [Prod.mk.injEq] at hxs hys
  have hb : t.domain.Bound ⟨1, 2⟩ ⟨2, 2⟩ :=
    ⟨x, y, hx, hy, hxs.1, hys.1, hxs.2.2, hys.2.2⟩
  obtain ⟨p, hp⟩ := Table.has_eq_true.mp hxs.2.2
  obtain ⟨hpending, -⟩ := hpair ⟨1, 2⟩ ⟨2, 2⟩ x y p hb hx hy hp hxs.2.1 hys.2.1
  refine ⟨hb, hpaused, ⟨x, p, hx, hp, hpending, hpending ▸ hjobs⟩, ?_⟩
  have htaken := hresumed ⟨1, 2⟩ ⟨2, 2⟩ hb
  rw [hqueue] at htaken
  rw [← howed, ← htaken]
  rfl

end PubSub.Loopback
