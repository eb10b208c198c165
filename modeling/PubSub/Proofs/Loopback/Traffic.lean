import PubSub.Proofs.Loopback.Lane
import PubSub.Proofs.Loopback.Lossless

/-!
A domain that several threads use at once. A change is made and numbered for each reader under the
lock of its writer, and what was made is queued once that lock is free again; a binding likewise
numbers what it replays before it queues it. Other calls and the delivery may come in between. What
each of these halves does to the numbers between a writer and a reader is told here.
-/

namespace PubSub.Loopback

open Udp (Submission)

/-! ### The halves of a call -/

/-- What a call has made and is yet to queue. -/
structure Batch where
  writer : Guid
  out : List Outgoing

def Batch.numbers (w r : Guid) (b : Batch) : List Nat :=
  if b.writer = w then (addressed r b.out).map (·.1) else []

def Batch.isFor (w r : Guid) (b : Batch) : Bool := b.writer = w && b.out.any (·.reader = r)

namespace Domain

/-- The first half of a binding of two that are to be bound: each of them has the other, and the
replay is made. -/
def joined (d : Domain) (w r : Guid) : Option (Domain × List Outgoing) :=
  match d.writers.get? w, d.readers.get? r with
  | some x, some y =>
    if x.key = y.key ∧ Qos.conflict? x.qos y.qos = none ∧ x.history.isMatched r = false then
      let (x', out) := writerBound x r y.qos
      some ((d.adjustReader r (readerBound · w x.qos.isReliable)).adjustWriter w fun _ => x', out)
    else none
  | _, _ => none

def reception (d : Domain) (j : Job) : Reception :=
  match d.readers.get? j.out.reader with
  | some y => (y.cache.receive j.writer j.out.number j.out.change).2.1
  | none => .unknownWriter

end Domain

/-- A domain, what is made in it and not queued yet, in the order in which it was made, and the jobs
that have run, with what became of them. -/
structure Traffic where
  domain : Domain
  held : List Batch
  ran : List (Job × Reception)

namespace Traffic

/-- What a thread does next, or the delivery: an endpoint comes, the first half of a call is done,
the second half of a call is done, or the oldest job runs. -/
inductive Move where
  | enterWriter (w : Guid) (topic : String) (type : SampleType) (q : Qos)
  | enterReader (r : Guid) (topic : String) (type : SampleType) (q : Qos)
  | make (w : Guid) (s : Submission)
  | bind (w r : Guid)
  | queue (i : Nat)
  | deliver

/-- Does it; what fails has no effect, and an identity is never given twice. -/
def step (t : Traffic) : Move → Traffic
  | .enterWriter w topic type q =>
    if t.domain.writers.has w then t
    else { t with domain := t.domain.insertWriter (.new w topic type q) }
  | .enterReader r topic type q =>
    if t.domain.readers.has r then t
    else { t with domain := t.domain.insertReader (.new r topic type q) }
  | .make w s =>
    match t.domain.appended w s with
    | .ok (d, out) => { t with domain := d, held := t.held ++ [⟨w, out⟩] }
    | .error _ => t
  | .bind w r =>
    match t.domain.joined w r with
    | some (d, out) => { t with domain := d, held := t.held ++ [⟨w, out⟩] }
    | none => t
  | .queue i =>
    match t.held[i]? with
    | some b => { t with domain := t.domain.submit b.writer b.out, held := t.held.eraseIdx i }
    | none => t
  | .deliver =>
    match t.domain.queue with
    | j :: _ => { t with domain := t.domain.deliver, ran := t.ran ++ [(j, t.domain.reception j)] }
    | [] => t

def run (t : Traffic) (ms : List Move) : Traffic := ms.foldl step t

def start (registry id : Nat) (latency : Span) (clock : Nat) : Traffic :=
  ⟨.new registry id latency clock, [], []⟩

def lane (t : Traffic) (w r : Guid) : Lane where
  next := (t.domain.proxy? w r).map (·.next)
  peer := t.domain.peer? w r
  ran := t.ran.filterMap fun e =>
    if e.1.writer = w ∧ e.1.out.reader = r then some (e.1.out.number, e.2) else none
  queued := (t.domain.jobsOf w r).map (·.1)
  held := t.held.flatMap (·.numbers w r)

/-! ### Calls that nothing comes between -/

/-- The halves of a call make up the call. -/
lemma run_make (t : Traffic) (w : Guid) (s : Submission) :
    (t.run [.make w s, .queue t.held.length]).domain =
      match t.domain.submitted w s with
      | .ok d => d
      | .error _ => t.domain := by
  rw [Domain.submitted_eq]
  cases hok : t.domain.appended w s with
  | error f => simp [run, step, hok, Except.map]
  | ok made => simp [run, step, hok, Except.map]

lemma run_bind (t : Traffic) {w r : Guid} {x : Writer} {y : Reader}
    (hx : t.domain.writers.get? w = some x) (hy : t.domain.readers.get? r = some y)
    (hkey : x.key = y.key) (hq : Qos.conflict? x.qos y.qos = none)
    (hn : x.history.isMatched r = false) :
    (t.run [.bind w r, .queue t.held.length]).domain = t.domain.meet w x.qos r y.qos := by
  simp [run, step, Domain.joined, Domain.meet, Domain.bind, hx, hy, hkey, hq, hn]

end Traffic

/-! ### Endpoints that are in order -/

/-- A reader is open, and expects every number from its writers if it is reliable. -/
def Attentive (y : Reader) : Prop :=
  y.isOpen = true ∧ ∀ w q, y.cache.writers.get? w = some q → q.reliable = y.qos.isReliable

/-- A reliable reader is bound to reliable writers only. -/
lemma isReliable_and {offered requested : Qos} (h : Qos.conflict? offered requested = none) :
    (offered.isReliable && requested.isReliable) = requested.isReliable := by
  unfold Qos.conflict? at h
  cases ho : offered.reliability <;> cases hr : requested.reliability <;>
    simp_all [Qos.isReliable]

namespace Attentive

variable {y : Reader} {w : Guid}

lemma new (g : Guid) (topic : String) (type : SampleType) (q : Qos) :
    Attentive (.new g topic type q) :=
  ⟨rfl, fun _ _ h => by simp [Reader.new, ReaderCache.new] at h⟩

lemma bound (h : Attentive y) (hn : y.cache.writers.get? w = none) {offered : Qos}
    (hq : Qos.conflict? offered y.qos = none) :
    Attentive (Domain.readerBound y w offered.isReliable) := by
  have hqos : (Domain.readerBound y w offered.isReliable).qos = y.qos := by
    rw [readerBound_of_none hn]
    exact ReaderCache.addWriter_qos _ _ _
  refine ⟨by rw [readerBound_of_none hn]; exact h.1, fun w' q hw' => ?_⟩
  rw [get?_readerBound hn] at hw'
  rw [hqos]
  split_ifs at hw' with hw
  · rw [← Option.some.inj hw']
    exact isReliable_and hq
  · exact h.2 w' q hw'

lemma receive (h : Attentive y) (w : Guid) (n : Nat) (c : Change) :
    Attentive (y.receive w n c).1 := by
  obtain ⟨k, hk⟩ := receive_of_open h.1 w n c
  rw [hk]
  refine ⟨h.1, fun w' q hw' => ?_⟩
  have hqos : (y.cache.receive w n c).1.qos = y.cache.qos := ReaderCache.receive_qos
  simp only [Reader.qos, hqos]
  rw [ReaderCache.get?_receive] at hw'
  split_ifs at hw' with hw
  · obtain ⟨q', hq', rfl⟩ := Option.map_eq_some_iff.mp hw'
    have hreliable := h.2 w q' hq'
    split_ifs <;> exact hreliable
  · exact h.2 w' q hw'

end Attentive

namespace Domain

variable {d : Domain} {w r : Guid} {x : Writer} {y : Reader} {j : Job} {js : List Job}

structure Calm (d : Domain) : Prop where
  writer : ∀ w x, d.writers.get? w = some x → x.history.Wf
  reader : ∀ r y, d.readers.get? r = some y → Attentive y

lemma Calm.adjustWriter (h : d.Calm) {f : Writer → Writer}
    (hf : ∀ x, d.writers.get? w = some x → (f x).history.Wf) : (d.adjustWriter w f).Calm := by
  refine ⟨fun w' x hx => ?_, h.reader⟩
  rw [get?_adjustWriter] at hx
  split_ifs at hx with hw
  · obtain ⟨x', hx', rfl⟩ := Option.map_eq_some_iff.mp hx
    exact hf x' (hw ▸ hx')
  · exact h.writer w' x hx

lemma Calm.adjustReader (h : d.Calm) {f : Reader → Reader}
    (hf : ∀ y, d.readers.get? r = some y → Attentive (f y)) : (d.adjustReader r f).Calm := by
  refine ⟨h.writer, fun r' y hy => ?_⟩
  rw [get?_adjustReader] at hy
  split_ifs at hy with hr
  · obtain ⟨y', hy', rfl⟩ := Option.map_eq_some_iff.mp hy
    exact hf y' (hr ▸ hy')
  · exact h.reader r' y hy

lemma Calm.submit (h : d.Calm) (w : Guid) (out : List Outgoing) : (d.submit w out).Calm := by
  unfold Domain.submit
  split
  · exact h
  · exact ⟨h.writer, h.reader⟩

lemma Calm.run (h : d.Calm) (j : Job) : (d.run j).Calm := by
  unfold Domain.run
  cases hy : d.readers.get? j.out.reader with
  | none => exact h
  | some y =>
    have hreader : (d.adjustReader j.out.reader fun _ =>
        (y.receive j.writer j.out.number j.out.change).1).Calm :=
      h.adjustReader fun _ _ => (h.reader _ y hy).receive _ _ _
    simp only
    cases (y.receive j.writer j.out.number j.out.change).2 with
    | none => exact hreader
    | some n =>
      refine hreader.adjustWriter fun x hx => ?_
      rw [acknowledge_history]
      exact (h.writer _ x hx).acknowledge _ n

/-! ### What a job changes -/

lemma next_run (j : Job) (w r : Guid) :
    ((d.run j).proxy? w r).map (·.next) = (d.proxy? w r).map (·.next) := by
  unfold run
  cases d.readers.get? j.out.reader with
  | none => rfl
  | some y =>
    simp only
    cases (y.receive j.writer j.out.number j.out.change).2 with
    | none => rfl
    | some n =>
      simp only [proxy?, get?_adjustWriter]
      split_ifs with hw
      · simp only [adjustReader]
        cases d.writers.get? w with
        | none => rfl
        | some x =>
          simp only [Option.map_some, Option.bind_some, acknowledge_history,
            WriterHistory.get?_acknowledge]
          split_ifs
          · cases x.history.proxies.get? r <;> rfl
          · rfl
      · rfl

/-- The reader of a job expects another number of the writer then. -/
lemma peer?_run (hy : d.readers.get? j.out.reader = some y) (ho : y.isOpen = true) (w r : Guid) :
    (d.run j).peer? w r = if w = j.writer ∧ r = j.out.reader then
      (d.peer? w r).map (·.offered j.out.number) else d.peer? w r := by
  obtain ⟨k, hk⟩ := receive_of_open ho j.writer j.out.number j.out.change
  generalize hy' : (y.receive j.writer j.out.number j.out.change).1 = y'
  have hpeer : (d.run j).peer? w r = (d.adjustReader j.out.reader fun _ => y').peer? w r := by
    simp only [run, hy, hy']
    split <;> rfl
  have hcache : y'.cache = (y.cache.receive j.writer j.out.number j.out.change).1 := by
    rw [← hy', hk]
  rw [hpeer, peer?_adjustReader hy, hcache, ReaderCache.get?_receive]
  by_cases hr : r = j.out.reader
  · subst hr
    by_cases hw : w = j.writer
    · subst hw
      simp only [and_self, if_true, peer?, hy, Option.bind_some]
      rfl
    · simp [hw, peer?, hy]
  · simp [hr]

end Domain

/-! ### What each move does to the numbers -/

namespace Traffic

open Domain

variable {t : Traffic} {w r : Guid} {x : Writer} {y : Reader}

lemma isFor_eq_true {b : Batch} : b.isFor w r = true ↔ b.numbers w r ≠ [] := by
  unfold Batch.isFor Batch.numbers
  split_ifs with hw
  · simp [hw, addressed]
  · simp [hw]

/-- Whoever has been given numbers is bound. -/
lemma has_of_numbers (hl : (t.lane w r).Fits) (hn : (t.lane w r).held ≠ []) :
    ∃ x, t.domain.writers.get? w = some x ∧ x.history.isMatched r = true := by
  rcases hl with hl | ⟨b, n, hl⟩
  · exact absurd (congrArg Lane.held hl) hn
  · obtain ⟨p, hp, -⟩ := Option.map_eq_some_iff.mp hl.next
    obtain ⟨x, hx, hp⟩ := Option.bind_eq_some_iff.mp hp
    exact ⟨x, hx, Table.has_eq_true.mpr ⟨p, hp⟩⟩

lemma lane_enterWriter (hn : t.domain.writers.get? w = none) (topic : String) (type : SampleType)
    (q : Qos) : lane { t with domain := t.domain.insertWriter (.new w topic type q) } = t.lane :=
  funext₂ fun w' r' =>
    Lane.ext (congrArg (Option.map ReaderProxy.next) (proxy?_insertWriter hn w' r')) rfl rfl rfl rfl

lemma lane_enterReader (hn : t.domain.readers.get? r = none) (topic : String) (type : SampleType)
    (q : Qos) : lane { t with domain := t.domain.insertReader (.new r topic type q) } = t.lane :=
  funext₂ fun w' r' => Lane.ext rfl (peer?_insertReader hn w' r') rfl rfl rfl

/-- A change gets the next number of each reader. -/
lemma lane_make (hcalm : t.domain.Calm) {s : Submission} {made : Domain × List Outgoing}
    (hok : t.domain.appended w s = .ok made) (w' r : Guid) :
    lane { t with domain := made.1, held := t.held ++ [⟨w, made.2⟩] } w' r =
      if w' = w then (t.lane w' r).make else t.lane w' r := by
  obtain ⟨x, hx⟩ := get?_of_appended hok
  obtain ⟨-, k, rfl⟩ := appended_ok hx hok
  have hproxy := proxy?_adjustWriter hx (fun _ => { x with
    history := (x.history.addChange (s.change x.history.next).key (s.change x.history.next).kind
      (s.change x.history.next).payload).1
    condition := k }) w' r
  have haddressed := WriterHistory.addressed_addChange (s.change x.history.next).key
    (s.change x.history.next).kind (s.change x.history.next).payload (hcalm.writer w x hx) r
  split_ifs with hw
  · -- the lanes of the writer: a number is held wherever it has the reader
    subst hw
    rw [if_pos rfl, WriterHistory.get?_addChange] at hproxy
    have hold : t.domain.proxy? w' r = x.history.proxies.get? r := by simp [proxy?, hx]
    cases hp : x.history.proxies.get? r with
    | none =>
      rw [hp] at hproxy haddressed
      have hmake : (t.lane w' r).make = t.lane w' r := by simp [Lane.make, lane, hold, hp]
      rw [hmake]
      refine Lane.ext ?_ rfl rfl rfl ?_
      · simp [lane, hproxy, hold, hp]
      · simp [lane, Batch.numbers, haddressed]
    | some p =>
      rw [hp] at hproxy haddressed
      have hmake : (t.lane w' r).make = { t.lane w' r with
          next := some (p.next + 1), held := (t.lane w' r).held ++ [p.next] } := by
        simp [Lane.make, lane, hold, hp]
      rw [hmake]
      refine Lane.ext ?_ rfl rfl rfl ?_
      · simp [lane, hproxy, ReaderProxy.enqueue]
      · simp [lane, Batch.numbers, haddressed]
  · -- the lanes of all others
    rw [if_neg hw] at hproxy
    refine Lane.ext (congrArg (Option.map ReaderProxy.next) hproxy) rfl rfl rfl ?_
    simp [lane, Batch.numbers, Ne.symm hw]

/-- What is replayed to a reader gets the first numbers. -/
lemma lane_bind (hx : t.domain.writers.get? w = some x) (hy : t.domain.readers.get? r = some y)
    (hn : x.history.proxies.get? r = none) (hn' : y.cache.writers.get? w = none) (w' r' : Guid) :
    lane { t with
        domain := (t.domain.adjustReader r (readerBound · w x.qos.isReliable)).adjustWriter w
          fun _ => (writerBound x r y.qos).1
        held := t.held ++ [⟨w, (writerBound x r y.qos).2⟩] } w' r' =
      if w' = w ∧ r' = r then (t.lane w' r').bind (x.qos.isReliable && y.qos.isReliable)
        (x.history.backlog y.qos).length else t.lane w' r' := by
  have hproxy := proxy?_adjustWriter (d := t.domain.adjustReader r
    (readerBound · w x.qos.isReliable)) hx (fun _ => (writerBound x r y.qos).1) w' r'
  have hpeer := peer?_adjustReader hy (readerBound · w x.qos.isReliable) w' r'
  rw [writerBound_history] at hproxy
  rw [get?_readerBound hn'] at hpeer
  have hout : (writerBound x r y.qos).2 = (x.history.matchReader r y.qos).2 := rfl
  split_ifs with hwr
  · -- the pair itself: it starts from nothing, and its replay is held
    obtain ⟨rfl, rfl⟩ := hwr
    rw [if_pos rfl, WriterHistory.get?_matchReader_self y.qos hn] at hproxy
    rw [if_pos rfl, if_pos rfl] at hpeer
    have haddressed := WriterHistory.addressed_matchReader_self y.qos hn
    refine Lane.ext ?_ ?_ rfl rfl ?_
    · have hkeeps := ReaderProxy.keeps_replayed (y.qos.isReliable && x.history.qos.isReliable)
        (x.history.backlog y.qos)
      simp [lane, hproxy, Lane.bind, hkeeps.next]
    · exact hpeer
    · simp [lane, Batch.numbers, hout, haddressed, Lane.bind, map_fst_numbered]
  · -- any other pair shares at most one of the two with it
    have hne : w' = w → r' ≠ r := fun hw hr => hwr ⟨hw, hr⟩
    refine Lane.ext ?_ ?_ rfl rfl ?_
    · refine congrArg (Option.map ReaderProxy.next) (hproxy.trans ?_)
      split_ifs with hw
      · rw [WriterHistory.get?_matchReader_of_ne y.qos (hne hw)]
        simp [proxy?, hw, hx]
      · rfl
    · refine hpeer.trans ?_
      split_ifs with hr hw
      · exact absurd hr (hne hw)
      · simp [lane, peer?, hr, hy]
      · rfl
    · have hnumbers : Batch.numbers w' r' ⟨w, (writerBound x r y.qos).2⟩ = [] := by
        unfold Batch.numbers
        split_ifs with hw
        · rw [hout, WriterHistory.addressed_matchReader_of_ne y.qos (hne hw.symm)]
          rfl
        · rfl
      simp [lane, hnumbers]

/-- A batch is queued as it was made. -/
lemma lane_queue (hl : ∀ w r, (t.lane w r).Fits) {i : Nat} {b : Batch} (hb : t.held[i]? = some b)
    (w r : Guid) :
    lane { t with domain := t.domain.submit b.writer b.out, held := t.held.eraseIdx i } w r =
      (t.lane w r).queue (b.numbers w r) ((t.held.take i).flatMap (·.numbers w r) ++
        (t.held.drop (i + 1)).flatMap (·.numbers w r)) := by
  -- every reader of the batch is matched still, so none of it is left out
  have hqueued : t.domain.submit b.writer b.out = t.domain.queued b.writer b.out := by
    have hmatched : ∀ o ∈ b.out, ∃ x, t.domain.writers.get? b.writer = some x ∧
        x.history.isMatched o.reader = true := by
      intro o ho
      refine has_of_numbers (hl b.writer o.reader) ?_
      have hfor : b.isFor b.writer o.reader = true := by
        simp only [Batch.isFor, decide_true, Bool.true_and, List.any_eq_true, decide_eq_true_eq]
        exact ⟨o, ho, rfl⟩
      obtain ⟨n, hn⟩ := List.exists_mem_of_ne_nil _ (isFor_eq_true.mp hfor)
      exact List.ne_nil_of_mem (List.mem_flatMap.mpr ⟨b, List.mem_of_getElem? hb, hn⟩)
    cases hx : t.domain.writers.get? b.writer with
    | none =>
      have hout : b.out = [] := List.eq_nil_iff_forall_not_mem.mpr fun o ho => by
        obtain ⟨x, hx', -⟩ := hmatched o ho
        rw [hx] at hx'
        simp at hx'
      simp [submit, queued, hx, hout]
    | some x =>
      refine submit_of_matched hx fun o ho => ?_
      obtain ⟨x', hx', hmatched⟩ := hmatched o ho
      obtain rfl := Option.some.inj (hx'.symm.trans hx)
      exact hmatched
  rw [hqueued]
  refine Lane.ext rfl rfl rfl ?_ ?_
  · simp only [lane, jobsOf_queued, List.map_append, Lane.queue]
    congr 1
    unfold Batch.numbers
    split_ifs <;> rfl
  · simp only [lane, Lane.queue, List.eraseIdx_eq_take_drop_succ, List.flatMap_append]

/-- The oldest job brings the first number of its writer and its reader. -/
lemma lane_deliver (hcalm : t.domain.Calm) {j : Job} {js : List Job}
    (hl : (t.lane j.writer j.out.reader).Fits) (hq : t.domain.queue = j :: js) (w r : Guid) :
    lane { t with domain := t.domain.deliver, ran := t.ran ++ [(j, t.domain.reception j)] } w r =
      if w = j.writer ∧ r = j.out.reader then (t.lane w r).arrive else t.lane w r := by
  have hjobs : ∀ w r, (t.domain.jobsOf w r).map (·.1) =
      (if j.writer = w ∧ j.out.reader = r then [j.out.number] else []) ++
        (jobsOf { t.domain with queue := js } w r).map (·.1) := by
    intro w r
    rw [jobsOf_cons hq, List.map_append]
    split_ifs <;> rfl
  -- the two are bound, since a number of theirs is queued
  obtain ⟨q, hp⟩ : ∃ q, t.domain.peer? j.writer j.out.reader = some q := by
    rcases hl with hl | ⟨b, n, hl⟩
    · have hnone : (t.domain.jobsOf j.writer j.out.reader).map (·.1) = [] :=
        congrArg Lane.queued hl
      simp [hjobs] at hnone
    · exact ⟨_, hl.peer⟩
  obtain ⟨y, hy, hq'⟩ := Option.bind_eq_some_iff.mp hp
  have hreception : t.domain.reception j = q.answer j.out.number := by
    simp only [reception, hy]
    exact ReaderCache.receive_answer hq' _ _
  have hqueue : t.domain.deliver.queue = js := by
    rw [deliver_cons hq]
    exact (queue_run { t.domain with queue := js } j).1
  have hqueued : t.domain.deliver.jobsOf w r = jobsOf { t.domain with queue := js } w r := by
    rw [jobsOf, jobsOf, hqueue]
  have hnext : (t.domain.deliver.proxy? w r).map (·.next) = (t.domain.proxy? w r).map (·.next) := by
    rw [deliver_cons hq]
    exact next_run (d := { t.domain with queue := js }) j w r
  have hpeer : t.domain.deliver.peer? w r = if w = j.writer ∧ r = j.out.reader then
      (t.domain.peer? w r).map (·.offered j.out.number) else t.domain.peer? w r := by
    rw [deliver_cons hq]
    exact peer?_run (d := { t.domain with queue := js }) hy (hcalm.reader _ y hy).1 w r
  split_ifs with hwr
  · obtain ⟨rfl, rfl⟩ := hwr
    have hlane : (t.lane j.writer j.out.reader).queued =
        j.out.number :: (jobsOf { t.domain with queue := js } j.writer j.out.reader).map (·.1) := by
      simp [lane, hjobs]
    have harrive : (t.lane j.writer j.out.reader).arrive = { t.lane j.writer j.out.reader with
        peer := some (q.offered j.out.number)
        ran := (t.lane j.writer j.out.reader).ran ++ [(j.out.number, q.answer j.out.number)]
        queued := (jobsOf { t.domain with queue := js } j.writer j.out.reader).map (·.1) } := by
      have hpeer' : (t.lane j.writer j.out.reader).peer = some q := hp
      simp [Lane.arrive, hlane, hpeer']
    rw [harrive]
    refine Lane.ext hnext ?_ ?_ (congrArg (List.map Prod.fst) hqueued) rfl
    · simpa [lane, hp] using hpeer
    · simp [lane, hreception]
  · have hrw : ¬(j.writer = w ∧ j.out.reader = r) := fun h => hwr ⟨h.1.symm, h.2.symm⟩
    refine Lane.ext hnext ?_ ?_ ?_ rfl
    · simpa [lane, hwr] using hpeer
    · simp [lane, hrw]
    · simp [lane, hqueued, hjobs, hrw]

end Traffic

end PubSub.Loopback
