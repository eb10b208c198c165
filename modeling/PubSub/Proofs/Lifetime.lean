import PubSub.Proofs.Chronicle
import PubSub.Proofs.History.Instance
import PubSub.Proofs.Lifecycle

/-!
The life of one instance, from the writer that alone changes it to the samples that a reader hands
out. The writer numbers its changes, the reader accepts them in that order, eviction takes the
oldest samples of the instance but never all of them, and so what is handed out is a lawful
history, whatever happens to other instances and writers in between.
-/

namespace PubSub

/-- A reader that has acknowledged everything has taken everything. -/
lemma Link.Sound.taken_eq {l : Link} (h : Link.Sound true l) {p : ReaderProxy}
    (hp : l.proxy = some p) (hpending : p.pending = []) : l.taken = l.owed := by
  obtain ⟨hb, k, hk, hle⟩ := h.proxy p hp
  have hall := (hk.pending_eq_nil hb).mp hpending
  exact h.taken_prefix.eq_of_length_le (hall ▸ hle rfl)

lemma Lawful.of_front {ss ss' : List InstanceState} (h : Lawful ss) (hp : ss' <+: ss) :
    Lawful ss' := by
  obtain ⟨rest, rfl⟩ := hp
  induction rest using List.reverseRecOn with
  | nil => simpa using h
  | append_singleton rest s ih => exact ih (by rw [← List.append_assoc] at h; exact h.left)

namespace Chronicle

variable {t : Chronicle} {w r : Guid} {key : InstanceKey} {h h' : WriterHistory}
  {c c' : ReaderCache} {e : Event} {es : List Event}

def kindsOf (key : InstanceKey) (cs : List Change) : List ChangeKind :=
  (cs.filter (·.key = key)).map (·.kind)

lemma kindsOf_append (cs ds : List Change) :
    kindsOf key (cs ++ ds) = kindsOf key cs ++ kindsOf key ds := by
  simp [kindsOf, List.filter_append]

lemma kindsOf_singleton (d : Change) :
    kindsOf key [d] = if d.key = key then [d.kind] else [] := by
  by_cases hd : d.key = key <;> simp [kindsOf, hd]

lemma kindsOf_mono {cs ds : List Change} (hp : cs <+: ds) : kindsOf key cs <+: kindsOf key ds :=
  (hp.filter _).map _

/-! ### What the writer enqueues -/

/-- A writer that has made no change yet owes nothing to anybody. -/
lemma owed_quiet {writers readers : List (Guid × Qos)} (hkept : ∀ e ∈ es, ¬ e.Parts w r)
    (hquiet : ∀ e ∈ es, e.change? w = none)
    (hw : ((start writers readers).run es).session.net.writers.get? w = some h) :
    h.retained = [] ∧ ((start writers readers).run es).session.owed w r = [] := by
  induction es using List.reverseRecOn generalizing h with
  | nil =>
    obtain ⟨q, rfl⟩ := Session.writer_start hw
    exact ⟨rfl, rfl⟩
  | append_singleton es e ih =>
    have hkept' : ∀ e ∈ es, ¬ e.Parts w r := fun e he => hkept e (List.mem_append_left _ he)
    have he := hquiet e (by simp)
    rw [run_concat] at hw ⊢
    obtain ⟨h₀, hw₀, out, hwriting, howed⟩ :=
      writes_step ((kept_start writers readers w r).run hkept').wf hw
    obtain ⟨hretained, hnil⟩ := ih hkept' (fun e he => hquiet e (List.mem_append_left _ he)) hw₀
    rw [howed, hnil]
    cases hwriting with
    | rest | acknowledge | release => exact ⟨hretained, rfl⟩
    | change _ hchange => exact nomatch he.symm.trans hchange
    | attach r' q =>
      refine ⟨(h₀.matchReader_retained r' q).trans hretained, ?_⟩
      have hout : (h₀.matchReader r' q).2 = [] :=
        List.eq_nil_iff_forall_not_mem.mpr fun o ho => by
          have hmem := WriterHistory.retained_of_matchReader ho
          rw [hretained] at hmem
          exact List.not_mem_nil hmem
      rw [hout]
      rfl

lemma owed_step (key : InstanceKey) (hwf : h.Wf) {p : ReaderProxy} (hp : h.proxies.get? r = some p)
    (he : ¬ e.Parts w r) {out : List Outgoing} (hw : Writing e w h h' out) :
    (∃ p', h'.proxies.get? r = some p') ∧
      kindsOf key ((addressed r out).map (·.2)) = (e.use? w key).toList := by
  cases hw with
  | rest hnone => exact ⟨⟨p, hp⟩, by simp [Event.use?, hnone, kindsOf]⟩
  | @change key' kind payload hchange =>
    rw [WriterHistory.get?_addChange, hp, WriterHistory.addressed_addChange _ _ _ hwf, hp]
    refine ⟨⟨_, rfl⟩, ?_⟩
    simp only [Option.map_some, Option.getD_some, List.map_cons, List.map_nil, kindsOf_singleton,
      Event.use?, hchange, WriterHistory.made]
    by_cases hkey : key' = key <;> simp [hkey, Option.filter]
  | attach r' q hnone =>
    by_cases hr : r' = r
    · subst hr
      rw [WriterHistory.matchReader_of_some hp]
      exact ⟨⟨p, hp⟩, by simp [Event.use?, hnone, kindsOf]⟩
    · rw [WriterHistory.get?_matchReader_of_ne _ (Ne.symm hr),
        WriterHistory.addressed_matchReader_of_ne _ (Ne.symm hr)]
      exact ⟨⟨p, hp⟩, by simp [Event.use?, hnone, kindsOf]⟩
  | acknowledge r' a hnone =>
    rw [WriterHistory.get?_acknowledge, hp]
    refine ⟨?_, by simp [Event.use?, hnone, kindsOf]⟩
    split_ifs <;> exact ⟨_, rfl⟩
  | @release r' hrelease =>
    have hr : r ≠ r' := fun hr => he (hrelease ▸ ⟨rfl, hr.symm⟩)
    rw [WriterHistory.get?_unmatchReader, if_neg hr]
    exact ⟨⟨p, hp⟩, by simp [Event.use?, hrelease, Event.change?, kindsOf]⟩

/-- A writer that has the reader enqueues for it exactly the changes that it makes. -/
lemma owed_run (key : InstanceKey) (ht : t.Kept w r) (hkept : ∀ e ∈ es, ¬ e.Parts w r)
    (hmet : ∃ h p, t.session.net.writers.get? w = some h ∧ h.proxies.get? r = some p)
    (hw : (t.run es).session.net.writers.get? w = some h') :
    (∃ p, h'.proxies.get? r = some p) ∧
      kindsOf key ((t.run es).session.owed w r) =
        kindsOf key (t.session.owed w r) ++ es.filterMap (Event.use? w key) := by
  induction es using List.reverseRecOn generalizing h' with
  | nil =>
    obtain ⟨h, p, hh, hp⟩ := hmet
    obtain rfl := Option.some.inj (hh.symm.trans hw)
    exact ⟨⟨p, hp⟩, (List.append_nil _).symm⟩
  | append_singleton es e ih =>
    have hkept' : ∀ e ∈ es, ¬ e.Parts w r := fun e he => hkept e (List.mem_append_left _ he)
    have hrun := ht.run hkept'
    rw [run_concat] at hw ⊢
    obtain ⟨h₀, hw₀, out, hwriting, howed⟩ := writes_step hrun.wf hw
    obtain ⟨⟨p, hp⟩, huses⟩ := ih hkept' hw₀
    obtain ⟨hproxy, hkinds⟩ := owed_step key (hrun.wf.history w h₀ hw₀).2 hp (hkept e (by simp))
      hwriting
    refine ⟨hproxy, ?_⟩
    rw [howed, kindsOf_append, huses, hkinds, List.filterMap_append, List.append_assoc]
    cases hu : e.use? w key <;> simp [hu]

/-! ### What the reader makes of it -/

/-- The reader has of the instance what it has accepted from the one writer. -/
lemma sole_step {n : Nat} (hreads : t.Reads (t.step e) e r c c') (he : ¬ e.Parts w r)
    (halone : ∀ f ∈ t.session.net.flight, f.out.reader = r → f.out.change.key = key → f.writer = w)
    (hcourse : kindsOf key ((t.step e).session.taken w r) <+: ReaderCache.course n)
    (hq : c.qos.history ≠ .keepLast 0)
    (h : c.Sole w key (kindsOf key (t.session.taken w r)) (t.of r)) :
    c'.Sole w key (kindsOf key ((t.step e).session.taken w r)) ((t.step e).of r) := by
  obtain ⟨ss, fs, hreading, hof, htaken⟩ := hreads.reading
  rw [htaken w] at hcourse ⊢
  rw [hof]
  cases hreading with
  | rest => simpa [carried] using h
  | enrol g b => simpa [carried] using h.congr (c.addWriter_instances g b) (c.addWriter_unread g b)
  | take max => simpa [carried] using h.take max
  | dismiss hdismiss =>
    -- the one writer is never lost, so it is another one
    simpa [carried] using h.removeWriter_of_ne fun hg => he (hdismiss ▸ ⟨hg, rfl⟩)
  | @accept f q hf hr hpeer ht =>
    let accepting : ReaderCache :=
      { c with writers := c.writers.adjust f.writer ({ · with next := f.out.number + 1 }) }
    have hsame : accepting.Sole w key (kindsOf key (t.session.taken w r)) (t.of r) :=
      h.congr rfl rfl
    rw [ReaderCache.receive_of_takes hpeer ht, List.append_nil, kindsOf_append] at *
    by_cases hkey : f.out.change.key = key
    · -- a change of the instance comes from the one writer
      obtain rfl := halone f hf hr hkey
      rw [carried_single, if_pos ⟨rfl, hr⟩, List.map_cons, List.map_nil, kindsOf_singleton,
        if_pos hkey] at *
      exact hsame.apply hkey hcourse hq
    · -- a change of another instance is none of its course
      have hnone : kindsOf key ((carried w r [f]).map (·.2)) = [] := by
        rw [carried_single]
        split_ifs
        · simp [kindsOf_singleton, hkey]
        · rfl
      rw [hnone, List.append_nil]
      exact hsame.apply_of_ne hkey f.writer

lemma qos_of_reads {t' : Chronicle} (hreads : t.Reads t' e r c c') : c'.qos = c.qos := by
  obtain ⟨ss, fs, hreading, -⟩ := hreads.reading
  cases hreading with
  | rest | take => rfl
  | enrol g b => exact c.addWriter_qos g b
  | dismiss => exact c.removeWriter_qos _
  | accept => exact ReaderCache.receive_qos

lemma sole_run {writers readers : List (Guid × Qos)} {n : Nat} (hkept : ∀ e ∈ es, ¬ e.Parts w r)
    (halone : ∀ f ∈ ((start writers readers).run es).session.net.flight,
      f.out.reader = r → f.out.change.key = key → f.writer = w)
    (hcourse : kindsOf key (((start writers readers).run es).session.taken w r) <+:
      ReaderCache.course n)
    (hc : ((start writers readers).run es).session.net.readers.get? r = some c)
    (hq : c.qos.history ≠ .keepLast 0) :
    c.Sole w key (kindsOf key (((start writers readers).run es).session.taken w r))
      (((start writers readers).run es).of r) := by
  induction es using List.reverseRecOn generalizing c with
  | nil =>
    obtain ⟨q, rfl⟩ := Session.reader_start hc
    exact ReaderCache.sole_new w key q
  | append_singleton es e ih =>
    rw [run_concat] at halone hcourse hc ⊢
    obtain ⟨c₀, hc₀, hreads⟩ := reads_step hc
    have hq₀ : c₀.qos.history ≠ .keepLast 0 := qos_of_reads hreads ▸ hq
    have hearlier : kindsOf key (((start writers readers).run es).session.taken w r) <+:
        kindsOf key ((((start writers readers).run es).step e).session.taken w r) := by
      obtain ⟨ss, fs, -, -, htaken⟩ := hreads.reading
      rw [htaken w]
      exact kindsOf_mono (List.prefix_append _ _)
    have hbefore := ih (fun e he => hkept e (List.mem_append_left _ he))
      (fun f hf => halone f (mem_flight_step hf e)) (hearlier.trans hcourse) hc₀ hq₀
    exact sole_step hreads (hkept e (by simp)) (fun f hf => halone f (mem_flight_step hf e)) hcourse
      hq₀ hbefore

/-! ### The life of the instance -/

/-- Changes that follow the course of an instance are told of in a lawful history. -/
lemma lawful_of_course {kinds : List ChangeKind} {n m : Nat} (hn : 1 ≤ n)
    (hc : kinds <+: ReaderCache.course n) (hm : 0 < kinds.count .alive → 0 < m) :
    Lawful (List.replicate m .alive ++ (kinds.filter (· = .disposed)).map ReaderCache.stateOf) := by
  rcases ReaderCache.prefix_course_iff.mp hc with rfl | ⟨-, hall⟩
  · simpa [ReaderCache.course, ReaderCache.stateOf] using
      lawful_ended (hm (by simp [ReaderCache.course, List.count_append]; omega))
  · rw [hall]
    simpa using lawful_replicate m

lemma pending_eq_nil {p : ReaderProxy} (hacked : h.unacknowledged = 0)
    (hp : h.proxies.get? r = some p) : p.pending = [] :=
  WriterHistory.allAcknowledged_iff.mp (decide_eq_true hacked) _ (Table.mem_of_get? hp)

/-- **The life of an instance, end to end.** A reliable writer that has a reliable reader before it
makes its first change, and never loses it, changes an instance along its course; no other writer
changes the instance for that reader. Whatever gets lost, comes twice or late, is sent again,
acknowledged or taken in between, and whatever other instances, writers and readers do, a verifier
never objects to the states of the instance in the order in which the reader hands them out. Once
the course is complete, everything is acknowledged and nothing is unread, the verifier has seen the
instance alive at least once and at most as often as it was written, and then disposed of; letting
go of the writer adds nothing to that. -/
theorem lifetime (writers readers : List (Guid × Qos)) (pre post : List Event) (w r : Guid)
    (key : InstanceKey) {n : Nat}
    (hn : 1 ≤ n) (hkept : ∀ e ∈ pre ++ post, ¬ e.Parts w r)
    (hquiet : ∀ e ∈ pre, e.change? w = none)
    (hmet : ∃ h p, ((start writers readers).run pre).session.net.writers.get? w = some h ∧
      h.proxies.get? r = some p)
    (hw : ((start writers readers).run (pre ++ post)).session.net.writers.get? w = some h)
    (hr : ((start writers readers).run (pre ++ post)).session.net.readers.get? r = some c)
    (hwriter : h.qos.isReliable = true) (hreader : c.qos.isReliable = true)
    (hvalid : c.qos.flaw? = none)
    (huse : post.filterMap (Event.use? w key) <+: ReaderCache.course n)
    (halone : ∀ f ∈ ((start writers readers).run (pre ++ post)).session.net.flight,
      f.out.reader = r → f.out.change.key = key → f.writer = w) :
    let t := (start writers readers).run (pre ++ post)
    let states := (ReaderCache.samplesOf key (t.of r)).map (·.state)
    (∃ v, LifecycleVerifier.new.observeAll key states = .ok v) ∧
    (post.filterMap (Event.use? w key) = ReaderCache.course n → h.unacknowledged = 0 →
      c.unread = [] →
      (∃ m v, 1 ≤ m ∧ m ≤ n ∧ LifecycleVerifier.new.observeAll key states = .ok v ∧
        v.history key = List.replicate m .alive ++ [.disposed]) ∧
      ∀ c', (t.step (.dismiss w r)).session.net.readers.get? r = some c' →
        ReaderCache.samplesOf key c'.unread = []) := by
  intro t states
  have hpre : ∀ e ∈ pre, ¬ e.Parts w r := fun e he => hkept e (List.mem_append_left _ he)
  have hpost : ∀ e ∈ post, ¬ e.Parts w r := fun e he => hkept e (List.mem_append_right _ he)
  have hsound : Link.Sound true (t.session.link w r) := by
    have hl := ((kept_start writers readers w r).run hkept).link h c hw hr
    rwa [Session.both, hwriter, hreader] at hl
  -- the writer enqueues the course, and the reader has accepted a part of that
  obtain ⟨⟨p, hp⟩, howed⟩ := owed_run key ((kept_start writers readers w r).run hpre) hpost
    hmet (run_append _ pre post ▸ hw)
  rw [← run_append] at howed
  obtain ⟨h₀, p₀, hw₀, -⟩ := hmet
  rw [(owed_quiet hpre hquiet hw₀).2] at howed
  replace howed : kindsOf key (t.session.owed w r) = post.filterMap (Event.use? w key) := howed
  have htaken : kindsOf key (t.session.taken w r) <+: ReaderCache.course n :=
    (kindsOf_mono hsound.taken_prefix).trans (howed ▸ huse)
  -- a depth of zero is refused, so the cache keeps a sample of the instance
  have hdepth : c.qos.history ≠ .keepLast 0 := fun hzero => by simp [Qos.flaw?, hzero] at hvalid
  have hsole := sole_run hkept halone htaken hr hdepth
  obtain ⟨m, hle, hpos, hstates⟩ := hsole.states
  have hlawful := lawful_of_course hn htaken hpos
  rw [← hstates, ReaderCache.samplesOf_append, List.map_append] at hlawful
  obtain ⟨v, hv, hhistory⟩ := LifecycleVerifier.observeAll_of_lawful
    (hlawful.of_front (List.prefix_append _ _)) key
  refine ⟨⟨v, hv⟩, fun hcourse hacked hunread => ?_⟩
  -- nothing is pending, so all that was enqueued is taken
  have hall : kindsOf key (t.session.taken w r) = ReaderCache.course n := by
    have heq := hsound.taken_eq (by rw [Session.link_eq hw hr]; exact hp) (pending_eq_nil hacked hp)
    rw [show t.session.taken w r = t.session.owed w r from heq, howed, hcourse]
  rw [hall] at hle hpos hstates hsole
  rw [hunread, List.append_nil] at hstates
  simp only [ReaderCache.course, List.count_append, List.count_replicate_self] at hle hpos
  refine ⟨⟨m, v, hpos (by omega), by simpa using hle, hv, ?_⟩, fun c' hc' => ?_⟩
  · rw [hhistory]
    simpa [ReaderCache.course, ReaderCache.stateOf] using hstates
  · -- the instance has ended, so losing its writer notifies nobody
    have hdismiss : t.step (.dismiss w r) =
        { t with session := t.session.putReader r (c.removeWriter w).1 } := by
      simp only [step]
      rw [hr]
    rw [hdismiss, get?_putReader, if_pos rfl] at hc'
    obtain rfl := Option.some.inj hc'
    rw [ReaderCache.Sole.samplesOf_removeWriter hsole, hunread]
    rfl

/-- The reader meets the writer, and another one, which it loses again. -/
def meeting : List Event :=
  [.go (.attach ⟨1, 1⟩ ⟨2, 1⟩), .go (.enrol ⟨1, 1⟩ ⟨2, 1⟩), .go (.enrol ⟨3, 1⟩ ⟨2, 1⟩),
    .go (.attach ⟨3, 1⟩ ⟨2, 1⟩)]

/-- The second change comes first and is sent in vain, then it pushes the first one out. -/
def eviction : List Event :=
  [.go (.write ⟨1, 1⟩ "a" (.str "x")), .go (.write ⟨3, 1⟩ "b" (.str "z")),
    .go (.write ⟨1, 1⟩ "a" (.str "y")), .go (.arrive 2), .go (.arrive 0), .go (.arrive 2),
    .go (.arrive 1), .dismiss ⟨3, 1⟩ ⟨2, 1⟩, .go (.dispose ⟨1, 1⟩ "a" 0), .go (.arrive 3),
    .go (.arrive 0), .go (.take ⟨2, 1⟩ 9), .go (.answer 4)]

theorem lifetime_eviction :
    let t := (start [(⟨1, 1⟩, .interop), (⟨3, 1⟩, .interop)] [(⟨2, 1⟩, .interop)]).run
      (meeting ++ eviction)
    (ReaderCache.samplesOf "a" (t.of ⟨2, 1⟩)).map (·.state) = [.alive, .disposed] ∧
    ∃ m v, 1 ≤ m ∧ m ≤ 2 ∧ LifecycleVerifier.new.observeAll "a"
      ((ReaderCache.samplesOf "a" (t.of ⟨2, 1⟩)).map (·.state)) = .ok v ∧
        v.history "a" = List.replicate m .alive ++ [.disposed] := by
  intro t
  have hlife := lifetime [(⟨1, 1⟩, .interop), (⟨3, 1⟩, .interop)] [(⟨2, 1⟩, .interop)] meeting
    eviction ⟨1, 1⟩ ⟨2, 1⟩ "a" (n := 2) (by decide) (by simp [meeting, eviction, Event.Parts])
    (by simp [meeting, Event.change?])
    ⟨_, _, rfl, rfl⟩ rfl rfl rfl rfl rfl
    ⟨[], rfl⟩ (by decide)
  exact ⟨rfl, (hlife.2 rfl rfl rfl).1⟩

end Chronicle

end PubSub
