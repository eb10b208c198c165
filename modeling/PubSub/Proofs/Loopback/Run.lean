import Mathlib.Data.List.Induction
import PubSub.Proofs.Loopback.Creation

/-!
Domains in which anything happens, one thing after another. Whatever it is, the invariant of the
domain is kept, and two endpoints meet exactly when they are first open at the same time.
-/

namespace PubSub.Loopback

open Udp (Look Submission)
open Udp.Node (bind_ok createEndpoint_ok)

/-! ### Delivery -/

namespace Domain

variable {d d' : Domain} {j : Job} {js : List Job} {owed : Guid → Guid → List Change}
  {got : Guid → Guid → List (Change × Reception)}

def noted (got : Guid → Guid → List (Change × Reception)) (j : Job)
    (es : List (Change × Reception)) : Guid → Guid → List (Change × Reception) := fun w r =>
  got w r ++ if j.writer = w ∧ j.out.reader = r then es else []

lemma jobsOf_cons (hq : d.queue = j :: js) (w r : Guid) :
    d.jobsOf w r = (if j.writer = w ∧ j.out.reader = r then [(j.out.number, j.out.change)] else []) ++
      jobsOf { d with queue := js } w r := by
  have happend := carried_append w r [⟨j.writer, j.out⟩] (js.map fun j => ⟨j.writer, j.out⟩)
  rw [carried_single] at happend
  rw [jobsOf, hq]
  exact happend

lemma jobs_view (hq : d.queue = j :: js) (owed : Guid → Guid → List Change)
    (got : Guid → Guid → List (Change × Reception)) :
    ((Trace.view ⟨d, owed, got⟩).pair j.writer j.out.reader).jobs =
      (j.out.number, j.out.change) :: jobsOf { d with queue := js } j.writer j.out.reader := by
  simp [Trace.view, jobsOf_cons hq]

/-- What the first job does to its pair is all that can be seen of it. -/
lemma view_of_job (hq : d.queue = j :: js) (hq' : d'.queue = js) (hcard : d'.card? = d.card?)
    (hnext : d'.nextOf = d.nextOf) {f : Option ReaderProxy → Option ReaderProxy}
    {g : Option WriterProxy → Option WriterProxy}
    (hproxy : ∀ w r, d'.proxy? w r =
      if w = j.writer ∧ r = j.out.reader then f (d.proxy? w r) else d.proxy? w r)
    (hpeer : ∀ w r, d'.peer? w r =
      if w = j.writer ∧ r = j.out.reader then g (d.peer? w r) else d.peer? w r)
    (es : List (Change × Reception)) :
    Trace.view ⟨d', owed, noted got j es⟩ =
      (Trace.view ⟨d, owed, got⟩).onPair j.writer j.out.reader fun p =>
        ⟨f p.proxy, g p.peer, p.jobs.tail, p.owed, p.got ++ es⟩ := by
  have hjobs : d'.jobsOf = jobsOf { d with queue := js } := by
    funext w r
    rw [jobsOf, jobsOf, hq']
  refine View.ext hcard hnext (funext₂ fun w r => ?_)
  simp only [Trace.view, View.onPair, noted, hproxy, hpeer, hjobs, jobsOf_cons hq]
  by_cases hwr : w = j.writer ∧ r = j.out.reader
  · obtain ⟨rfl, rfl⟩ := hwr
    simp
  · have hrw : ¬(j.writer = w ∧ j.out.reader = r) := fun h => hwr ⟨h.1.symm, h.2.symm⟩
    simp [hwr, hrw]

lemma view_skip (hq : d.queue = j :: js) (hd : d' = { d with queue := js })
    (es : List (Change × Reception)) :
    Trace.view ⟨d', owed, noted got j es⟩ =
      (Trace.view ⟨d, owed, got⟩).onPair j.writer j.out.reader (Pair.skip es) := by
  have hproxy : d'.proxy? = d.proxy? := by rw [hd]; rfl
  have hpeer : d'.peer? = d.peer? := by rw [hd]; rfl
  exact view_of_job (f := fun p => p) (g := fun p => p) hq (by rw [hd]) (by rw [hd]; rfl)
    (by rw [hd]; rfl) (fun _ _ => by rw [hproxy, ite_self]) (fun _ _ => by rw [hpeer, ite_self]) es

lemma deliver_cons (hq : d.queue = j :: js) : d.deliver = run { d with queue := js } j := by
  simp [deliver, hq]

variable {y : Reader} {q : WriterProxy}

/-- A job comes to nothing where its reader is not there, is closed or does not have the writer. -/
lemma deliver_of_lost (h : d.Wf) (hq : d.queue = j :: js)
    (hlost : ∀ y, d.readers.get? j.out.reader = some y →
      y.receive j.writer j.out.number j.out.change = (y, none)) :
    d.deliver = { d with queue := js } := by
  rw [deliver_cons hq]
  cases hy : d.readers.get? j.out.reader with
  | none => simp [run, hy]
  | some y =>
    have hself : d.readers.adjust j.out.reader (fun _ => y) = d.readers :=
      h.readers.adjust_self hy
    simp [run, hy, hlost y hy, adjustReader, hself]

/-! ### A change that is taken -/

/-- The domain after its first job, whose reader has taken the change. -/
def accepted (d : Domain) (j : Job) (js : List Job) (y : Reader) (k : StatusCondition) : Domain :=
  (adjustReader { d with queue := js } j.out.reader fun _ =>
    { y with
      cache := (y.cache.receive j.writer j.out.number j.out.change).1
      condition := k }).adjustWriter j.writer (·.acknowledge j.out.reader j.out.number)

lemma deliver_of_takes (hq : d.queue = j :: js) (hy : d.readers.get? j.out.reader = some y)
    (ho : y.isOpen = true) (hp : y.cache.writers.get? j.writer = some q)
    (ht : q.Takes j.out.number) : ∃ k, d.deliver = d.accepted j js y k := by
  obtain ⟨k, hk⟩ := receive_of_takes ho hp ht j.out.change
  refine ⟨k, ?_⟩
  rw [deliver_cons hq]
  simp [run, hy, hk, accepted]

lemma card?_accepted (hy : d.readers.get? j.out.reader = some y) (k : StatusCondition) :
    (d.accepted j js y k).card? = d.card? := by
  refine (card?_adjustWriter_same fun x _ => ofWriter_acknowledge x _ _).trans ?_
  refine (card?_adjustReader_same fun y₀ hy₀ => ?_).trans rfl
  obtain rfl : y₀ = y := Option.some.inj (hy₀.symm.trans hy)
  simp [Card.ofReader, Reader.qos, ReaderCache.receive_qos]

lemma nextOf_accepted (d : Domain) (j : Job) (js : List Job) (y : Reader) (k : StatusCondition) :
    (d.accepted j js y k).nextOf = d.nextOf := by
  refine (nextOf_adjustWriter_same fun x => ?_).trans rfl
  rw [acknowledge_history]
  rfl

lemma proxy?_accepted (d : Domain) (j : Job) (js : List Job) (y : Reader) (k : StatusCondition)
    (w r : Guid) :
    (d.accepted j js y k).proxy? w r = if w = j.writer ∧ r = j.out.reader then
      (d.proxy? w r).map (·.acknowledge j.out.number) else d.proxy? w r := by
  have hget : (d.accepted j js y k).writers.get? w = if w = j.writer then
      (d.writers.get? w).map (·.acknowledge j.out.reader j.out.number)
      else d.writers.get? w := get?_adjustWriter _ _ _ _
  rw [proxy?, hget]
  by_cases hw : w = j.writer
  · subst hw
    cases hx : d.writers.get? j.writer with
    | none => simp [proxy?, hx]
    | some x => simp [proxy?, hx, acknowledge_history, WriterHistory.get?_acknowledge]
  · simp [hw, proxy?]

lemma peer?_accepted (hy : d.readers.get? j.out.reader = some y)
    (hp : y.cache.writers.get? j.writer = some q) (ht : q.Takes j.out.number)
    (k : StatusCondition) (w r : Guid) :
    (d.accepted j js y k).peer? w r = if w = j.writer ∧ r = j.out.reader then
      (d.peer? w r).map ({ · with next := j.out.number + 1 }) else d.peer? w r := by
  have hpeer : (d.accepted j js y k).peer? w r = if r = j.out.reader then
      (y.cache.receive j.writer j.out.number j.out.change).1.writers.get? w
      else d.peer? w r :=
    peer?_adjustReader (d := { d with queue := js }) hy (fun _ => { y with
      cache := (y.cache.receive j.writer j.out.number j.out.change).1
      condition := k }) w r
  rw [hpeer, ReaderCache.get?_receive, hp]
  by_cases hr : r = j.out.reader
  · subst hr
    by_cases hw : w = j.writer
    · subst hw
      simp [peer?, hy, hp, ht]
    · simp [peer?, hy, hw]
  · simp [hr]

/-- A job is done where its reader takes the change. -/
lemma view_accept (hq : d.queue = j :: js) (hy : d.readers.get? j.out.reader = some y)
    (ho : y.isOpen = true) (hp : y.cache.writers.get? j.writer = some q)
    (ht : q.Takes j.out.number) :
    Trace.view ⟨d.deliver, owed, noted got j [(j.out.change, .accepted)]⟩ =
      (Trace.view ⟨d, owed, got⟩).onPair j.writer j.out.reader
        (Pair.accept j.out.number j.out.change) := by
  obtain ⟨k, hk⟩ := deliver_of_takes hq hy ho hp ht
  rw [hk]
  exact view_of_job hq rfl (card?_accepted hy k) (nextOf_accepted d j js y k)
    (proxy?_accepted d j js y k) (peer?_accepted hy hp ht k) _

lemma participant_ok {p : Nat} {x : Participant} (h : d.participant p = .ok x) :
    d.participants.get? p = some x := by
  unfold participant at h
  cases hp : d.participants.get? p with
  | none => simp [hp] at h
  | some y => simpa [hp] using h

lemma Wf.run (h : d.Wf) (j : Job) : (d.run j).Wf := by
  unfold Domain.run
  cases hy : d.readers.get? j.out.reader with
  | none => exact h
  | some y =>
    have hreader : (d.adjustReader j.out.reader fun _ =>
        (y.receive j.writer j.out.number j.out.change).1).Wf := by
      refine h.adjustReader fun y' hy' ht => ?_
      obtain rfl : y' = y := Option.some.inj (hy'.symm.trans hy)
      exact (ht.receive _ _ _).1
    simp only
    cases (y.receive j.writer j.out.number j.out.change).2 with
    | none => exact hreader
    | some n => exact hreader.adjustWriter fun _ _ ht => ht.acknowledge _ n

lemma entries_submit (d : Domain) (w : Guid) (out : List Outgoing) :
    (d.submit w out).entries = d.entries := by
  unfold submit
  split <;> rfl

lemma entries_run (d : Domain) (j : Job) : (d.run j).entries = d.entries := by
  unfold run
  split
  · rfl
  · simp only
    split <;> rfl

end Domain

namespace Good

open Domain

variable {met : List Meeting} {d : Domain} {w : Guid} {j : Job} {js : List Job}
  {owed : Guid → Guid → List Change} {got : Guid → Guid → List (Change × Reception)}

/-! ### The oldest job runs -/

/-- The job comes to nothing, since it is not between two that are open. -/
lemma deliver_lost (h : Good met ⟨d, owed, got⟩) (hq : d.queue = j :: js)
    (hlost : ∀ y, d.readers.get? j.out.reader = some y →
      y.receive j.writer j.out.number j.out.change = (y, none))
    (hclosed : ¬((Trace.view ⟨d, owed, got⟩).isOpen .writer j.writer = true ∧
      (Trace.view ⟨d, owed, got⟩).isOpen .reader j.out.reader = true)) :
    Good met ⟨d.deliver, owed, noted got j (d.arrival j)⟩ := by
  have hdeliver : d.deliver = { d with queue := js } := deliver_of_lost h.wf hq hlost
  have hwf : d.deliver.Wf := hdeliver ▸ ⟨h.wf.identity, h.wf.issued, h.wf.once, h.wf.writers,
    h.wf.readers, h.wf.writer, h.wf.reader⟩
  have hview : Trace.view ⟨d.deliver, owed, noted got j (d.arrival j)⟩ =
      (Trace.view ⟨d, owed, got⟩).onPair j.writer j.out.reader (Pair.skip (d.arrival j)) :=
    view_skip hq hdeliver _
  have hentries : d.deliver.entries = d.entries := by rw [hdeliver]
  exact h.of_card hwf hentries (by rw [hdeliver]; rfl)
    (hview.symm ▸ h.sound.skip (jobs_view hq owed got) hclosed _)

/-- The reader is open and has the writer, so it takes the change. -/
lemma deliver_taken (h : Good met ⟨d, owed, got⟩) (hq : d.queue = j :: js) {y : Reader}
    {q : WriterProxy} (hy : d.readers.get? j.out.reader = some y) (ho : y.isOpen = true)
    (hp : y.cache.writers.get? j.writer = some q) (ht : q.Takes j.out.number) :
    Good met ⟨d.deliver, owed, noted got j (d.arrival j)⟩ := by
  have hrest : ({ d with queue := js } : Domain).Wf :=
    ⟨h.wf.identity, h.wf.issued, h.wf.once, h.wf.writers, h.wf.readers, h.wf.writer, h.wf.reader⟩
  have hwf : d.deliver.Wf := by
    rw [deliver_cons hq]
    exact hrest.run j
  have hentries : d.deliver.entries = d.entries := by rw [deliver_cons hq, entries_run]
  have harrival : d.arrival j = [(j.out.change, .accepted)] := by
    simp [arrival, hy, ho, ReaderCache.receive_of_takes hp ht]
  have hview : Trace.view ⟨d.deliver, owed, noted got j [(j.out.change, .accepted)]⟩ =
      (Trace.view ⟨d, owed, got⟩).onPair j.writer j.out.reader
        (Pair.accept j.out.number j.out.change) := view_accept hq hy ho hp ht
  rw [harrival]
  exact h.of_card hwf hentries (congrArg View.card hview)
    (hview.symm ▸ h.sound.accept (jobs_view hq owed got))

lemma deliver (h : Good met ⟨d, owed, got⟩) (hq : d.queue = j :: js) :
    Good met ⟨d.deliver, owed, noted got j (d.arrival j)⟩ := by
  cases hy : d.readers.get? j.out.reader with
  | none =>
    -- there is no such reader
    refine h.deliver_lost hq (fun y hy' => ?_) fun hboth => ?_
    · cases hy.symm.trans hy'
    · obtain ⟨b, hb, -⟩ := View.isOpen_iff.mp hboth.2
      simp [Trace.view, card?, hy] at hb
  | some y =>
    have hcard : (Trace.view ⟨d, owed, got⟩).card .reader j.out.reader = some (.ofReader y) := by
      simp [Trace.view, card?, hy]
    cases ho : y.isOpen with
    | false =>
      -- it has been closed
      refine h.deliver_lost hq (fun y' hy' => ?_) fun hboth => ?_
      · obtain rfl : y' = y := Option.some.inj (hy'.symm.trans hy)
        exact receive_of_closed ho _ _ _
      · obtain ⟨b, hb, hob⟩ := View.isOpen_iff.mp hboth.2
        obtain rfl := Option.some.inj (hb.symm.trans hcard)
        exact absurd (hob.symm.trans ho) (by simp)
    | true =>
      have hr : (Trace.view ⟨d, owed, got⟩).isOpen .reader j.out.reader = true :=
        View.isOpen_iff.mpr ⟨_, hcard, ho⟩
      have hpeer : ((Trace.view ⟨d, owed, got⟩).pair j.writer j.out.reader).peer =
          y.cache.writers.get? j.writer := by
        simp [Trace.view, peer?, hy]
      rcases h.sound.peer_of_job (jobs_view hq owed got) hr with ⟨hw, hp⟩ | ⟨-, q, hp, ht⟩
      · -- the writer has been closed, and the reader does not know it any more
        refine h.deliver_lost hq (fun y' hy' => ?_) fun hboth => ?_
        · obtain rfl : y' = y := Option.some.inj (hy'.symm.trans hy)
          exact receive_of_stranger (hpeer.symm.trans hp) _ _
        · exact absurd (hboth.1.symm.trans hw) (by simp)
      · exact h.deliver_taken hq hy ho (hpeer.symm.trans hp) ht

/-! ### What is done -/

lemma submit (h : Good met ⟨d, owed, got⟩) {s : Submission} {made : Domain × List Outgoing}
    (hok : d.appended w s = .ok made) :
    Good met ⟨made.1.submit w made.2, fun w' r => if w' = w then
      owed w r ++ (addressed r made.2).map (·.2) else owed w' r, got⟩ := by
  obtain ⟨x, hx⟩ := get?_of_appended hok
  obtain ⟨ho, k, rfl⟩ := appended_ok hx hok
  have htidy := h.wf.writer w x hx
  have hseq : (s.change x.history.next).sequence = x.history.next := by cases s <;> rfl
  have hview := view_made owed got (k := k) htidy hx hseq
  have hopen : (Trace.view ⟨d, owed, got⟩).isOpen .writer w = true :=
    View.isOpen_iff.mpr ⟨.ofWriter x, by simp [Trace.view, card?, hx], ho⟩
  have hnext : (s.change x.history.next).sequence = (Trace.view ⟨d, owed, got⟩).next w := by
    simp [Trace.view, nextOf, hx, hseq]
  have hmade : ((d.adjustWriter w fun _ =>
      { x with
        history := (x.history.addChange (s.change x.history.next).key
          (s.change x.history.next).kind (s.change x.history.next).payload).1
        condition := k }).submit w (x.history.addChange (s.change x.history.next).key
          (s.change x.history.next).kind (s.change x.history.next).payload).2) =
      d.made x (s.change x.history.next) k := by
    rw [Domain.made, htidy.guid]
  rw [hmade]
  exact h.of_card (h.wf.made hx) (entries_submit _ _ _) (congrArg View.card hview)
    (hview.symm ▸ h.sound.write hopen hnext)

/-- What a writer replays to a reader that is new is what it retains for it. -/
lemma map_change_addReader {x : Writer} {r : Guid} (hn : x.history.proxies.get? r = none)
    (q : Qos) : (x.addReader r q).2.map (·.change) = x.history.backlog q := by
  have hout : (x.addReader r q).2 = (x.history.matchReader r q).2 := rfl
  rw [hout, WriterHistory.matchReader_of_none hn, List.map_map]
  exact map_snd_numbered 1 _

/-- A participant creates an endpoint, with an identity that is new. -/
lemma createEndpoint (h : Good met ⟨d, owed, got⟩) {p : Nat} {kind : EndpointKind} {g : Group}
    {t : Topic} {type : SampleType} {q : Qos} {made : Domain × Guid}
    (hok : d.createEndpoint p kind g t type q = .ok made) :
    ∃ new, Good (met ++ new) ⟨made.1, fun w r =>
        owed w r ++ d.enqueues (.createEndpoint p kind g t type q) w r, got⟩ ∧
      ∀ m ∈ new, made.1.Beside m := by
  obtain ⟨x, hx, hrest⟩ := bind_ok hok
  obtain ⟨⟨x', g'⟩, hx', hmade⟩ := bind_ok hrest
  obtain ⟨rfl, rfl⟩ := createEndpoint_ok hx'
  have hp := participant_ok hx
  obtain rfl := h.wf.identity p x hp
  -- the number is given away first
  have hset : Good met ⟨d.setParticipant { x with next := x.next + 1 }, owed, got⟩ :=
    h.setParticipant hp rfl (Nat.le_succ _)
  have hnone : ∀ k, d.has k ⟨x.id, x.next⟩ = false := h.wf.unissued hp (Nat.le_refl _)
  have hissued : ∃ y, (d.setParticipant { x with next := x.next + 1 }).participants.get? x.id =
      some y ∧ x.next < y.next := by
    refine ⟨{ x with next := x.next + 1 }, ?_, Nat.lt_succ_self _⟩
    rw [Domain.setParticipant, Table.get?_adjust, if_pos rfl, hp]
    rfl
  cases kind with
  | writer =>
    obtain rfl := Except.ok.inj hmade
    -- a new writer enqueues nothing
    have henqueues : ∀ w r, d.enqueues (.createEndpoint x.id .writer g t type q) w r = [] :=
      fun _ _ => rfl
    simp only [henqueues, List.append_nil]
    exact ⟨_, hset.enterWriter (g := ⟨x.id, x.next⟩) hnone hissued t.name type q⟩
  | reader =>
    obtain rfl := Except.ok.inj hmade
    refine ⟨_, hset.enterReader (g := ⟨x.id, x.next⟩) hnone hissued t.name type q fun w r => ?_⟩
    simp only [enqueues, hok]
    refine ⟨fun y hy hr ho hk hc => ?_, fun hnot => ?_⟩
    · -- no writer has the new reader yet, so what it replays is its backlog
      have hy : d.writers.get? w = some y := hy
      have hapart : d.proxy? w ⟨x.id, x.next⟩ = none := by
        refine congrArg Pair.proxy (h.sound.apart w ⟨x.id, x.next⟩ fun hm => ?_)
        refine h.sound.not_met (k := .reader) ?_ hm rfl
        exact Option.map_eq_none_iff.mpr (Table.has_eq_false.mp (hnone .reader))
      have hn : y.history.proxies.get? ⟨x.id, x.next⟩ = none := by
        simpa [proxy?, hy] using hapart
      simp only [hy, hr, ho, hk, hc, and_self, if_true]
      rw [map_change_addReader hn]
    · -- a writer that cannot have the reader replays nothing
      cases hy : d.writers.get? w with
      | none => exact List.append_nil _
      | some y =>
        have hno := hnot y hy
        simp only
        rw [if_neg, List.append_nil]
        rintro ⟨rfl, hrest⟩
        exact hno ⟨rfl, hrest⟩

lemma adjustParticipant (h : Good met ⟨d, owed, got⟩) (p : Nat) {f : Participant → Participant}
    (hid : ∀ x, (f x).id = x.id) (hnext : ∀ x, (f x).next = x.next) :
    Good met ⟨{ d with participants := d.participants.adjust p f }, owed, got⟩ := by
  refine h.of_view (h.wf.adjustParticipant p fun x hx => ⟨?_, ?_⟩) rfl rfl
  · rw [hid, h.wf.identity p x hx]
  · exact Nat.le_of_eq (hnext x).symm

lemma createGroup (h : Good met ⟨d, owed, got⟩) {p : Nat} {kind : EntityKind}
    {made : Domain × Group} (hok : d.createGroup p kind = .ok made) :
    Good met ⟨made.1, owed, got⟩ := by
  obtain ⟨x, hx, hok⟩ := bind_ok hok
  obtain ⟨⟨x', g⟩, hx', hok⟩ := bind_ok hok
  obtain ⟨-, -, hx'⟩ := bind_ok hx'
  obtain ⟨rfl, rfl⟩ := Prod.mk.inj (Except.ok.inj hx')
  obtain rfl := Except.ok.inj hok
  have hp := participant_ok hx
  exact h.setParticipant hp (h.wf.identity p x hp) (Nat.le_succ _)

lemma delete (h : Good met ⟨d, owed, got⟩) (p : Nat) : Good met ⟨d.delete p, owed, got⟩ := by
  have hdeleted := h.adjustParticipant p (f := ({ · with deleted := true })) (fun _ => rfl)
    fun _ => rfl
  exact (hdeleted.foldl_close (fun _ g h => h.closeWriter g) _).foldl_close
    (fun _ g h => h.closeReader g) _

/-! ### One thing after another -/

/-- Nobody meets, and nothing is enqueued or arrives. -/
lemma step_quiet {a : Act} {e : Domain} (he : d.perform a = e)
    (henqueues : ∀ w r, d.enqueues a w r = []) (harrives : ∀ w r, d.arrives a w r = [])
    (h : Good met ⟨e, owed, got⟩) :
    ∃ new, Good (met ++ new) (Trace.step ⟨d, owed, got⟩ a) ∧
      ∀ m ∈ new, (Trace.step ⟨d, owed, got⟩ a).domain.Beside m := by
  subst he
  refine ⟨[], ?_, by simp⟩
  simp only [Trace.step, henqueues, harrives, List.append_nil]
  exact h

lemma step_createEndpoint (h : Good met ⟨d, owed, got⟩) (p : Nat) (kind : EndpointKind)
    (g : Group) (t : Topic) (type : SampleType) (q : Qos) :
    let t' := Trace.step ⟨d, owed, got⟩ (.createEndpoint p kind g t type q)
    ∃ new, Good (met ++ new) t' ∧ ∀ m ∈ new, t'.domain.Beside m := by
  cases hok : d.createEndpoint p kind g t type q with
  | error f =>
    refine step_quiet (e := d) (by simp [perform, hok]) (fun w r => ?_) (fun _ _ => rfl) h
    cases kind <;> simp [enqueues, hok]
  | ok made =>
    have hperform : d.perform (.createEndpoint p kind g t type q) = made.1 := by
      simp [perform, hok]
    obtain ⟨new, hnew, hbeside⟩ := h.createEndpoint hok
    refine ⟨new, ?_, ?_⟩
    · simp only [Trace.step, hperform, arrives, List.append_nil]
      exact hnew
    · simp only [Trace.step, hperform]
      exact hbeside

lemma step_submit (h : Good met ⟨d, owed, got⟩) (w : Guid) (s : Submission) :
    let t' := Trace.step ⟨d, owed, got⟩ (.submit w s)
    ∃ new, Good (met ++ new) t' ∧ ∀ m ∈ new, t'.domain.Beside m := by
  cases hok : d.appended w s with
  | error f =>
    have hperform : d.perform (.submit w s) = d := by
      simp [perform, submitted_eq, hok, Except.map]
    refine step_quiet hperform (fun w' r => ?_) (fun _ _ => rfl) h
    by_cases hw : w = w'
    · subst hw
      simp [enqueues, hok]
    · simp [enqueues, hw]
  | ok made =>
    have hperform : d.perform (.submit w s) = made.1.submit w made.2 := by
      simp [perform, submitted_eq, hok, Except.map]
    -- the change goes to the readers of this writer, and to no other
    have howed : (fun w' r => owed w' r ++ d.enqueues (.submit w s) w' r) = fun w' r =>
        if w' = w then owed w r ++ (addressed r made.2).map (·.2) else owed w' r := by
      funext w' r
      by_cases hw : w' = w
      · subst hw
        simp [enqueues, hok]
      · simp [enqueues, hw, Ne.symm hw]
    refine ⟨[], ?_, by simp⟩
    simp only [Trace.step, hperform, howed, arrives, List.append_nil]
    exact h.submit hok

lemma step_deliver (h : Good met ⟨d, owed, got⟩) :
    ∃ new, Good (met ++ new) (Trace.step ⟨d, owed, got⟩ .deliver) ∧
      ∀ m ∈ new, (Trace.step ⟨d, owed, got⟩ .deliver).domain.Beside m := by
  cases hpaused : d.paused with
  | true =>
    refine step_quiet (e := d) (by simp [perform, hpaused]) (fun _ _ => rfl) (fun w r => ?_) h
    cases hq : d.queue <;> simp [arrives, hq, hpaused]
  | false =>
    have hperform : d.perform .deliver = d.deliver := by simp [perform, hpaused]
    cases hq : d.queue with
    | nil =>
      refine step_quiet hperform (fun _ _ => rfl) (fun w r => by simp [arrives, hq]) ?_
      have hsame : d.deliver = d := by simp [Domain.deliver, hq]
      rw [hsame]
      exact h
    | cons j js =>
      have hgot : (fun w r => got w r ++ d.arrives .deliver w r) = noted got j (d.arrival j) := by
        funext w r
        simp [arrives, hq, hpaused, noted]
      refine ⟨[], ?_, by simp⟩
      simp only [Trace.step, hperform, hgot, enqueues, List.append_nil]
      exact h.deliver hq

/-- Whatever happens, the domain stays in order, and those that meet are open side by side. -/
theorem step {t : Trace} (h : Good met t) (a : Act) :
    ∃ new, Good (met ++ new) (t.step a) ∧ ∀ m ∈ new, (t.step a).domain.Beside m := by
  obtain ⟨d, owed, got⟩ := t
  cases a with
  | createEndpoint p kind g t type q => exact h.step_createEndpoint p kind g t type q
  | submit w s => exact h.step_submit w s
  | deliver => exact h.step_deliver
  | join id name =>
    -- whoever joins has no endpoints yet
    cases hid : d.participants.has id with
    | true => exact step_quiet (by simp [perform, hid]) (fun _ _ => rfl) (fun _ _ => rfl) h
    | false =>
      exact step_quiet (by simp [perform, hid]) (fun _ _ => rfl) (fun _ _ => rfl)
        (h.of_view (h.wf.addParticipant hid name) rfl rfl)
  | createGroup p kind =>
    cases hok : d.createGroup p kind with
    | error f => exact step_quiet (by simp [perform, hok]) (fun _ _ => rfl) (fun _ _ => rfl) h
    | ok made =>
      exact step_quiet (by simp [perform, hok]) (fun _ _ => rfl) (fun _ _ => rfl)
        (h.createGroup hok)
  | lookWriter w l =>
    -- a look changes nothing that others can see
    refine step_quiet rfl (fun _ _ => rfl) (fun _ _ => rfl) ?_
    exact h.of_view (h.wf.adjustWriter fun _ _ ht => ht.look l) rfl
      (view_adjustWriter (ofWriter_look l) l.writer_history)
  | lookReader r l =>
    refine step_quiet rfl (fun _ _ => rfl) (fun _ _ => rfl) ?_
    exact h.of_view (h.wf.adjustReader fun _ _ ht => ht.look l) rfl
      (view_adjustReader (ofReader_look l) l.reader_writers)
  | pause _ | passUntil _ =>
    refine step_quiet rfl (fun _ _ => rfl) (fun _ _ => rfl) ?_
    exact h.of_view ⟨h.wf.identity, h.wf.issued, h.wf.once, h.wf.writers, h.wf.readers,
      h.wf.writer, h.wf.reader⟩ rfl rfl
  | close g => exact step_quiet rfl (fun _ _ => rfl) (fun _ _ => rfl) (h.close g)
  | delete p => exact step_quiet rfl (fun _ _ => rfl) (fun _ _ => rfl) (h.delete p)
  | leave p =>
    exact step_quiet rfl (fun _ _ => rfl) (fun _ _ => rfl)
      ((h.delete p).adjustParticipant p (fun _ => rfl) fun _ => rfl)

end Good

/-! ### The past -/

lemma Trace.run_snoc (t : Trace) (as : List Act) (a : Act) :
    t.run (as ++ [a]) = (t.run as).step a := List.foldl_concat _ _ _ _

lemma Trace.domain_run (t : Trace) (as : List Act) :
    (t.run as).domain = t.domain.after as := by
  induction as generalizing t with
  | nil => rfl
  | cons a as ih => exact ih (t.step a)

lemma good_start (registry id : Nat) (latency : Span) (clock : Nat) :
    Good [] (.start registry id latency clock) where
  wf := Domain.wf_new registry id latency clock
  listed := Domain.listed_new registry id latency clock
  sound := by
    have hcard : (Domain.new registry id latency clock).card? = fun _ _ => none := by
      funext k g
      cases k <;> rfl
    have hview : (Trace.start registry id latency clock).view =
        ⟨fun _ _ => none, fun _ => 1, fun _ _ => .apart⟩ := View.ext hcard rfl rfl
    rw [hview]
    exact Sound.start _
  settled := by
    rintro m ⟨key, q, q', hw, -, -⟩
    simp [Trace.start, Domain.new, Domain.openAs?, Domain.card?] at hw

/-- A domain is in order whatever has happened in it, and those have met in it that were open
side by side at some time. -/
theorem good_run (registry id : Nat) (latency : Span) (clock : Nat) (as : List Act) :
    ∃ met, Good met ((Trace.start registry id latency clock).run as) ∧ ∀ m, m ∈ met ↔
      ∃ as', as' <+: as ∧ ((Domain.new registry id latency clock).after as').Beside m := by
  have hdomain : ∀ as, ((Trace.start registry id latency clock).run as).domain =
      (Domain.new registry id latency clock).after as := Trace.domain_run _
  induction as using List.reverseRecOn with
  | nil =>
    refine ⟨[], good_start registry id latency clock, fun m => ?_⟩
    refine iff_of_false List.not_mem_nil ?_
    rintro ⟨as', has', hm⟩
    rw [List.prefix_nil.mp has'] at hm
    exact absurd ((good_start registry id latency clock).settled m hm) List.not_mem_nil
  | append_singleton as a ih =>
    obtain ⟨met, hgood, hmet⟩ := ih
    obtain ⟨new, hgood', hnew⟩ := hgood.step a
    rw [← Trace.run_snoc] at hgood' hnew
    refine ⟨met ++ new, hgood', fun m => ⟨fun hm => ?_, ?_⟩⟩
    · rcases List.mem_append.mp hm with hm | hm
      · obtain ⟨as', has', hbeside⟩ := (hmet m).mp hm
        exact ⟨as', has'.trans (List.prefix_append as [a]), hbeside⟩
      · exact ⟨as ++ [a], List.prefix_rfl, hdomain (as ++ [a]) ▸ hnew m hm⟩
    · rintro ⟨as', has', hbeside⟩
      rcases List.prefix_concat_iff.mp has' with rfl | has'
      · exact hgood'.settled m (hdomain (as ++ [a]) ▸ hbeside)
      · exact List.mem_append_left _ ((hmet m).mpr ⟨as', has', hbeside⟩)

end PubSub.Loopback
