import Mathlib.Tactic.SplitIfs
import PubSub.Proofs.Counters
import PubSub.Proofs.History.Reader
import PubSub.Proofs.History.Writer
import PubSub.Udp.Node

/-!
How an endpoint comes to have exactly the counterparts that it wants. Those that it has already
stay as they are, those that it no longer wants are forgotten, and each new one starts from
nothing: a writer replays its history to it, a reader expects the first number from it.
-/

namespace PubSub.Udp

namespace LinkedWriter

/-- A writer knows the address of every reader that it has, and of no other. -/
structure Tidy (x : LinkedWriter) : Prop where
  history : x.writer.history.Wf
  addresses : ∀ r, x.addresses.get? r = none ↔ x.writer.history.proxies.get? r = none

variable {x : LinkedWriter}

lemma tidy_new (guid : Guid) (topic : String) (type : SampleType) (q : Qos) :
    Tidy ⟨.new guid topic type q, [], []⟩ :=
  ⟨WriterHistory.wf_new guid q, fun _ => ⟨fun _ => rfl, fun _ => rfl⟩⟩

structure Alike (x y : LinkedWriter) : Prop where
  guid : y.writer.guid = x.writer.guid
  qos : y.writer.history.qos = x.writer.history.qos
  next : y.writer.history.next = x.writer.history.next
  retained : y.writer.history.retained = x.writer.history.retained
  isOpen : y.writer.isOpen = x.writer.isOpen

lemma Alike.refl (x : LinkedWriter) : Alike x x := ⟨rfl, rfl, rfl, rfl, rfl⟩

lemma Alike.trans {x y z : LinkedWriter} (h : Alike x y) (h' : Alike y z) : Alike x z :=
  ⟨h'.guid.trans h.guid, h'.qos.trans h.qos, h'.next.trans h.next, h'.retained.trans h.retained,
    h'.isOpen.trans h.isOpen⟩

lemma Alike.backlog {y : LinkedWriter} (h : Alike x y) (q : Qos) :
    y.writer.history.backlog q = x.writer.history.backlog q := by
  unfold WriterHistory.backlog
  rw [h.retained]

/-! ### Losing readers -/

lemma alike_drop (x : LinkedWriter) (r : Guid) : Alike x (x.drop r) := ⟨rfl, rfl, rfl, rfl, rfl⟩

lemma Tidy.drop (h : x.Tidy) (r : Guid) : (x.drop r).Tidy := by
  refine ⟨h.history.unmatchReader r, fun r' => ?_⟩
  have hproxy : (x.drop r).writer.history.proxies.get? r' =
      if r' = r then none else x.writer.history.proxies.get? r' :=
    WriterHistory.get?_unmatchReader r r'
  have haddress : (x.drop r).addresses.get? r' =
      if r' = r then none else x.addresses.get? r' := Table.get?_erase _ _ _
  rw [hproxy, haddress]
  split_ifs
  · simp
  · exact h.addresses r'

lemma foldl_drop (h : x.Tidy) (rs : List Guid) :
    (rs.foldl drop x).Tidy ∧ Alike x (rs.foldl drop x) ∧
      ∀ r, (rs.foldl drop x).writer.history.proxies.get? r =
        if r ∈ rs then none else x.writer.history.proxies.get? r := by
  induction rs generalizing x with
  | nil => exact ⟨h, Alike.refl x, fun r => by simp⟩
  | cons r' rs ih =>
    obtain ⟨htidy, halike, hget⟩ := ih (h.drop r')
    refine ⟨htidy, (alike_drop x r').trans halike, fun r => ?_⟩
    have hdrop : (x.drop r').writer.history.proxies.get? r =
        if r = r' then none else x.writer.history.proxies.get? r :=
      WriterHistory.get?_unmatchReader r' r
    rw [List.foldl_cons, hget, hdrop]
    by_cases h1 : r = r' <;> by_cases h2 : r ∈ rs <;> simp [h1, h2]

/-! ### Gaining readers -/

lemma gain_writer (x : LinkedWriter) (r : Guid) (a : Address) (q : Qos) :
    (x.gain r a q).1.writer.history = (x.writer.history.matchReader r q).1 := rfl

lemma alike_gain (x : LinkedWriter) (r : Guid) (a : Address) (q : Qos) :
    Alike x (x.gain r a q).1 :=
  ⟨WriterHistory.matchReader_guid r q, WriterHistory.matchReader_qos r q,
    WriterHistory.matchReader_next r q, WriterHistory.matchReader_retained r q, rfl⟩

lemma Tidy.gain (h : x.Tidy) {r : Guid} (a : Address) (q : Qos) : (x.gain r a q).1.Tidy := by
  refine ⟨h.history.matchReader r q, fun r' => ?_⟩
  have haddress : (x.gain r a q).1.addresses.get? r' =
      if r' = r then some a else x.addresses.get? r' := Table.get?_put _ _ _ _ _
  rw [gain_writer, haddress]
  split_ifs with hr
  · subst hr
    cases hp : x.writer.history.proxies.get? r' with
    | some p => simp [WriterHistory.matchReader_of_some hp, hp]
    | none => simp [WriterHistory.get?_matchReader_self q hp]
  · rw [WriterHistory.get?_matchReader_of_ne q hr]
    exact h.addresses r'

def replayTo (x : LinkedWriter) (q : Qos) : ReaderProxy :=
  .replayed (q.isReliable && x.writer.history.qos.isReliable) (x.writer.history.backlog q)

lemma Alike.replayTo {y : LinkedWriter} (h : Alike x y) (q : Qos) :
    y.replayTo q = x.replayTo q := by
  unfold LinkedWriter.replayTo
  rw [h.backlog, h.qos]

def gainNext (s : LinkedWriter × List Outgoing) (e : Guid × Address × Qos) :
    LinkedWriter × List Outgoing :=
  ((s.1.gain e.1 e.2.1 e.2.2).1, s.2 ++ (s.1.gain e.1 e.2.1 e.2.2).2)

/-- Each new reader is given its replay, and everybody else is left alone. -/
lemma foldl_gain (h : x.Tidy) {new : WantedReaders} (hnew : new.Distinct)
    (hnone : ∀ r ∈ new.keys, x.writer.history.proxies.get? r = none) (out : List Outgoing) :
    let s := new.foldl gainNext (x, out)
    s.1.Tidy ∧ Alike x s.1 ∧
      (∀ r, s.1.writer.history.proxies.get? r =
        match new.get? r with
        | some e => some (x.replayTo e.2)
        | none => x.writer.history.proxies.get? r) ∧
      ∀ r, addressed r s.2 = addressed r out ++
        match new.get? r with
        | some e => numbered 1 (x.writer.history.backlog e.2)
        | none => [] := by
  induction new generalizing x out with
  | nil => exact ⟨h, Alike.refl x, fun r => rfl, fun r => by simp⟩
  | cons e new ih =>
    obtain ⟨r', a, q⟩ := e
    obtain ⟨hn, hd⟩ := Table.distinct_cons.mp hnew
    have hr' := hnone r' List.mem_cons_self
    have halike := alike_gain x r' a q
    obtain ⟨htidy, halike', hget, hout⟩ := ih (h.gain a q) hd (fun r hr => by
      have hne : r ≠ r' := fun hrr => hn (hrr ▸ hr)
      rw [gain_writer, WriterHistory.get?_matchReader_of_ne q hne]
      exact hnone r (List.mem_cons_of_mem _ hr)) (out ++ (x.gain r' a q).2)
    refine ⟨htidy, halike.trans halike', fun r => ?_, fun r => ?_⟩
    · -- what is kept for the readers: the first of the new ones is gained only once
      rw [List.foldl_cons, gainNext, hget, Table.get?_cons]
      by_cases hr : r' = r
      · subst hr
        rw [Table.get?_eq_none_iff.mpr hn, gain_writer, if_pos rfl]
        exact WriterHistory.get?_matchReader_self q hr'
      · rw [if_neg hr]
        cases Table.get? new r with
        | some e => simp only [halike.replayTo]
        | none => exact WriterHistory.get?_matchReader_of_ne q (Ne.symm hr)
    · -- what is sent to them: the replay of the first goes to nobody else
      rw [List.foldl_cons, gainNext, hout, Table.get?_cons, addressed_append]
      by_cases hr : r' = r
      · subst hr
        rw [Table.get?_eq_none_iff.mpr hn, if_pos rfl]
        have := WriterHistory.addressed_matchReader_self q hr'
        simp only [List.append_nil]
        exact congrArg _ this
      · have hempty : addressed r (x.gain r' a q).2 = [] :=
          WriterHistory.addressed_matchReader_of_ne q (Ne.symm hr)
        rw [if_neg hr, hempty, List.append_nil]
        cases Table.get? new r with
        | some e => simp only [halike.backlog]
        | none => rfl

/-! ### Having exactly the wanted readers -/

lemma settleStatus_history (w : Writer) (m : StatusMask) :
    (settleStatus w m).history = w.history := by
  unfold settleStatus
  split_ifs <;> rfl

lemma settleStatus_isOpen (w : Writer) (m : StatusMask) :
    (settleStatus w m).isOpen = w.isOpen := by
  unfold settleStatus
  split_ifs <;> rfl

lemma Tidy.has_eq (h : x.Tidy) (r : Guid) :
    x.addresses.has r = x.writer.history.proxies.has r := by
  have := h.addresses r
  unfold Table.has
  cases ha : x.addresses.get? r <;> cases hp : x.writer.history.proxies.get? r <;> simp_all

def stale (x : LinkedWriter) (wanted : WantedReaders) : List Guid :=
  x.addresses.keys.filter (!wanted.has ·)

def unmet (x : LinkedWriter) (wanted : WantedReaders) : WantedReaders :=
  wanted.filter (!x.addresses.has ·.1)

/-- The writer once it has lost and gained readers, with what it replays. -/
def synced (x : LinkedWriter) (wanted : WantedReaders) : LinkedWriter × List Outgoing :=
  (x.unmet wanted).foldl gainNext ((x.stale wanted).foldl drop x, [])

lemma sync_history (x : LinkedWriter) (wanted : WantedReaders) :
    (x.sync wanted).1.writer.history = (x.synced wanted).1.writer.history :=
  settleStatus_history _ _

lemma get?_unmet (x : LinkedWriter) (wanted : WantedReaders) (r : Guid) :
    Table.get? (x.unmet wanted) r = if !x.addresses.has r then wanted.get? r else none :=
  Table.get?_filter wanted (!x.addresses.has ·) r

/-- A reader that is to be gained is not there once those are lost that are to be lost. -/
lemma Tidy.none_of_unmet (h : x.Tidy) {wanted : WantedReaders} {r : Guid}
    (hr : r ∈ Table.keys (x.unmet wanted)) :
    ((x.stale wanted).foldl LinkedWriter.drop x).writer.history.proxies.get? r = none := by
  have hhas : x.addresses.has r = false := by
    by_contra hhas
    refine Table.get?_eq_none_iff.mp ?_ hr
    simp [get?_unmet, hhas]
  rw [(foldl_drop h _).2.2, (h.addresses r).mp (Table.has_eq_false.mp hhas)]
  split_ifs <;> rfl

/-- A reader that the writer has stays as it is if it is wanted, and is forgotten otherwise; one
that it does not have is gained with its replay if it is wanted. -/
theorem sync_spec (h : x.Tidy) {wanted : WantedReaders} (hw : wanted.Distinct) :
    (x.sync wanted).1.Tidy ∧ Alike x (x.sync wanted).1 ∧
      ∀ r, match x.writer.history.proxies.get? r with
        | some p =>
          (x.sync wanted).1.writer.history.proxies.get? r =
              (if wanted.has r then some p else none) ∧
            addressed r (x.sync wanted).2 = []
        | none =>
          match wanted.get? r with
          | some e =>
            (x.sync wanted).1.writer.history.proxies.get? r = some (x.replayTo e.2) ∧
              addressed r (x.sync wanted).2 = numbered 1 (x.writer.history.backlog e.2)
          | none =>
            (x.sync wanted).1.writer.history.proxies.get? r = none ∧
              addressed r (x.sync wanted).2 = [] := by
  -- the pass over what is stale comes first, then the one over what is new
  obtain ⟨htidy, halike, hdropped⟩ := foldl_drop h (x.stale wanted)
  have hdistinct : Table.Distinct (x.unmet wanted) := hw.filter (!x.addresses.has ·.1)
  obtain ⟨htidy', halike', hget, hout⟩ :=
    foldl_gain htidy hdistinct (fun r hr => h.none_of_unmet hr) []
  have hhistory := x.sync_history wanted
  have hboth := halike.trans halike'
  refine ⟨⟨hhistory ▸ htidy'.history, fun r => by rw [hhistory]; exact htidy'.addresses r⟩,
    ⟨(congrArg WriterHistory.guid hhistory).trans hboth.guid, hhistory ▸ hboth.qos,
      hhistory ▸ hboth.next, hhistory ▸ hboth.retained,
      (settleStatus_isOpen _ _).trans hboth.isOpen⟩, fun r => ?_⟩
  have hout' : addressed r (x.sync wanted).2 = _ := hout r
  have hget' : (x.sync wanted).1.writer.history.proxies.get? r = _ :=
    (congrArg (·.proxies.get? r) hhistory).trans (hget r)
  have hunmet := x.get?_unmet wanted r
  have hhas := h.has_eq r
  cases hp : x.writer.history.proxies.get? r with
  | some p =>
    -- kept or dropped; the second pass leaves it out, since it has an address
    have htrue : x.addresses.has r = true := hhas.trans (Table.has_eq_true.mpr ⟨p, hp⟩)
    have hmem : r ∈ x.addresses.keys := Table.has_iff_mem_keys.mp htrue
    have hstale : r ∈ x.stale wanted ↔ wanted.has r = false := by simp [stale, hmem]
    rw [hunmet, htrue] at hget' hout'
    simp only [hget', hout', hdropped, hp, hstale]
    cases wanted.has r <;> simp
  | none =>
    -- gained if it is wanted
    have hfalse : x.addresses.has r = false := hhas.trans (Table.has_eq_false.mpr hp)
    rw [hunmet, hfalse] at hget' hout'
    simp only [Bool.not_false, if_true] at hget' hout'
    cases hwant : wanted.get? r with
    | some e =>
      rw [hwant] at hget' hout'
      simp only [hget', hout', halike.replayTo, halike.backlog]
      simp
    | none =>
      rw [hwant] at hget' hout'
      simp only [hget', hout', hdropped, hp]
      simp

/-- What a reconciliation can do to one reader: it is left as it is, lost, or gained. -/
inductive Rematched (x y : LinkedWriter) (out : List Outgoing) (r : Guid) : Prop
  | kept (h : y.writer.history.proxies.get? r = x.writer.history.proxies.get? r)
    (ho : addressed r out = [])
  | lost (h : y.writer.history.proxies.get? r = none) (ho : addressed r out = [])
  | gained (b : Bool) (q : Qos) (hx : x.writer.history.proxies.get? r = none)
    (h : y.writer.history.proxies.get? r = some (.replayed b (x.writer.history.backlog q)))
    (ho : addressed r out = numbered 1 (x.writer.history.backlog q))

lemma rematched_sync (h : x.Tidy) {wanted : WantedReaders} (hw : wanted.Distinct) (r : Guid) :
    Rematched x (x.sync wanted).1 (x.sync wanted).2 r := by
  have hr := (sync_spec h hw).2.2 r
  cases hp : x.writer.history.proxies.get? r with
  | some p =>
    rw [hp] at hr
    by_cases hwant : wanted.has r
    · exact .kept (by rw [hr.1, if_pos hwant, hp]) hr.2
    · exact .lost (by rw [hr.1, if_neg hwant]) hr.2
  | none =>
    rw [hp] at hr
    cases hwant : wanted.get? r with
    | some e =>
      rw [hwant] at hr
      exact .gained _ e.2 hp hr.1 hr.2
    | none =>
      rw [hwant] at hr
      exact .kept (hr.1.trans hp.symm) hr.2

/-! ### Refusals -/

lemma refuse_history (x : LinkedWriter) (c : Candidate) :
    (x.refuse c).writer.history = x.writer.history ∧ (x.refuse c).addresses = x.addresses ∧
      (x.refuse c).writer.isOpen = x.writer.isOpen := by
  unfold refuse
  split
  · split_ifs <;> exact ⟨rfl, rfl, rfl⟩
  · exact ⟨rfl, rfl, rfl⟩

/-- Noting readers that cannot be had leaves those that are there alone. -/
lemma foldl_refuse (x : LinkedWriter) (cs : List Candidate) :
    (cs.foldl refuse x).writer.history = x.writer.history ∧
      (cs.foldl refuse x).addresses = x.addresses ∧
      (cs.foldl refuse x).writer.isOpen = x.writer.isOpen := by
  induction cs generalizing x with
  | nil => exact ⟨rfl, rfl, rfl⟩
  | cons c cs ih =>
    obtain ⟨h1, h2, h3⟩ := ih (x.refuse c)
    obtain ⟨h1', h2', h3'⟩ := refuse_history x c
    exact ⟨h1.trans h1', h2.trans h2', h3.trans h3'⟩

lemma distinct_wanted (x : LinkedWriter) (cs : List Candidate) : (x.wanted cs).Distinct :=
  Table.Distinct.fill Guid.before (fun c : Candidate => c.endpoint.guid)
    (fun c => (c.address, c.endpoint.qos)) _ Table.distinct_nil

end LinkedWriter

/-- What a reconciliation does to a writer. -/
theorem Node.reconcileWriter_spec (n : Node) {x : LinkedWriter} (h : x.Tidy) :
    (n.reconcileWriter x).1.Tidy ∧ x.Alike (n.reconcileWriter x).1 ∧
      ∀ r, x.Rematched (n.reconcileWriter x).1 (n.reconcileWriter x).2 r := by
  have hcs := x.foldl_refuse (n.candidates .reader x.writer.key.topic x.writer.type.name)
  obtain ⟨hhistory, haddresses, hopen⟩ := hcs
  have htidy : ((n.candidates .reader x.writer.key.topic x.writer.type.name).foldl
      LinkedWriter.refuse x).Tidy :=
    ⟨hhistory ▸ h.history, fun r => by rw [hhistory, haddresses]; exact h.addresses r⟩
  have hwanted := x.distinct_wanted (n.candidates .reader x.writer.key.topic x.writer.type.name)
  obtain ⟨htidy', halike, -⟩ := LinkedWriter.sync_spec htidy hwanted
  refine ⟨htidy', ⟨halike.guid.trans (congrArg WriterHistory.guid hhistory),
    hhistory ▸ halike.qos, hhistory ▸ halike.next, hhistory ▸ halike.retained,
    halike.isOpen.trans hopen⟩, fun r => ?_⟩
  have hr := LinkedWriter.rematched_sync htidy hwanted r
  rcases hr with ⟨h1, h2⟩ | ⟨h1, h2⟩ | ⟨b, q, hx, h1, h2⟩
  · exact .kept (h1.trans (by rw [hhistory])) h2
  · exact .lost h1 h2
  · rw [hhistory] at hx h1 h2
    exact .gained b q hx h1 h2

namespace LinkedReader

inductive Rematched (x y : LinkedReader) (w : Guid) : Prop
  | kept (h : y.reader.cache.writers.get? w = x.reader.cache.writers.get? w)
  | lost (h : y.reader.cache.writers.get? w = none)
  | gained (b : Bool) (hx : x.reader.cache.writers.get? w = none)
    (h : y.reader.cache.writers.get? w = some ⟨b, 1⟩)

variable {y : LinkedReader}

lemma drop_cache (s : Reader × StatusMask) (w : Guid) :
    (drop s w).1.cache.writers = (s.1.cache.removeWriter w).1.writers ∧
      (drop s w).1.isOpen = s.1.isOpen ∧ (drop s w).1.cache.qos = s.1.cache.qos := by
  simp only [drop, Reader.removeWriter, ReaderCache.removeWriter]
  cases s.1.cache.hasWriter w <;> simp

lemma foldl_drop (ws : List Guid) (s : Reader × StatusMask) :
    (ws.foldl drop s).1.isOpen = s.1.isOpen ∧
      ∀ w, (ws.foldl drop s).1.cache.writers.get? w =
        if w ∈ ws then none else s.1.cache.writers.get? w := by
  induction ws generalizing s with
  | nil => exact ⟨rfl, fun w => by simp⟩
  | cons w' ws ih =>
    obtain ⟨hopen, hget⟩ := ih (drop s w')
    obtain ⟨hcache, hopen', -⟩ := drop_cache s w'
    refine ⟨hopen.trans hopen', fun w => ?_⟩
    rw [List.foldl_cons, hget, hcache, ReaderCache.get?_removeWriter]
    by_cases h1 : w = w' <;> by_cases h2 : w ∈ ws <;> simp [h1, h2]

/-- Writers that the reader has already are not touched, and a new one starts at the first
number. -/
lemma foldl_gain (new : List (Guid × Bool)) (s : Reader × StatusMask) :
    (new.foldl gain s).1.isOpen = s.1.isOpen ∧
      ∀ w, (∀ q, s.1.cache.writers.get? w = some q →
          (new.foldl gain s).1.cache.writers.get? w = some q) ∧
        (s.1.cache.writers.get? w = none →
          (w ∉ new.map (·.1) → (new.foldl gain s).1.cache.writers.get? w = none) ∧
          (w ∈ new.map (·.1) → ∃ b, (new.foldl gain s).1.cache.writers.get? w = some ⟨b, 1⟩)) := by
  induction new generalizing s with
  | nil => exact ⟨rfl, fun w => ⟨fun q hq => hq, fun hn => ⟨fun _ => hn, by simp⟩⟩⟩
  | cons e new ih =>
    obtain ⟨hopen, hget⟩ := ih (gain s e)
    have hcache : ∀ w, (gain s e).1.cache.writers.get? w =
        if w = e.1 then
          some ((s.1.cache.writers.get? e.1).getD ⟨e.2 && s.1.cache.qos.isReliable, 1⟩)
        else s.1.cache.writers.get? w := fun w =>
      ReaderCache.get?_addWriter e.1 w e.2
    refine ⟨hopen, fun w => ⟨fun q hq => (hget w).1 q ?_, fun hn => ?_⟩⟩
    · rw [hcache]
      split_ifs with hw
      · rw [← hw, hq]
        rfl
      · exact hq
    · -- known once the pass has added it, which no later turn takes back
      by_cases hw : w = e.1
      · have hsome := hcache w
        rw [if_pos hw, ← hw, hn] at hsome
        exact ⟨fun hnot => absurd (by simp [hw]) hnot, fun _ => ⟨_, (hget w).1 _ hsome⟩⟩
      · have hnone := hcache w
        rw [if_neg hw, hn] at hnone
        obtain ⟨hout, hin⟩ := (hget w).2 hnone
        refine ⟨fun hnot => hout fun hmem => hnot ?_, fun hmem => hin ?_⟩
        · exact List.mem_cons_of_mem _ hmem
        · exact (List.mem_cons.mp hmem).resolve_left hw

lemma rematched_sync (y : LinkedReader) (wanted : Table Guid Bool) (w : Guid) :
    Rematched y (y.sync wanted) w ∧ (y.sync wanted).reader.isOpen = y.reader.isOpen := by
  obtain ⟨hopen, hdrop⟩ := foldl_drop (y.reader.cache.matchedWriters.filter (!wanted.has ·))
    (y.reader, .none)
  obtain ⟨hopen', hgain⟩ := foldl_gain (wanted.filter (!y.reader.cache.hasWriter ·.1))
    ((y.reader.cache.matchedWriters.filter (!wanted.has ·)).foldl drop (y.reader, .none))
  refine ⟨?_, hopen'.trans hopen⟩
  cases hq : y.reader.cache.writers.get? w with
  | none =>
    have hnone := hdrop w
    rw [hq, ite_self] at hnone
    obtain ⟨hout, hin⟩ := (hgain w).2 hnone
    by_cases hmem : w ∈ (wanted.filter (!y.reader.cache.hasWriter ·.1)).map (·.1)
    · obtain ⟨b, hb⟩ := hin hmem
      exact .gained b hq hb
    · exact .kept ((hout hmem).trans hq.symm)
  | some q =>
    by_cases hmem : w ∈ y.reader.cache.matchedWriters.filter (!wanted.has ·)
    · -- a writer that is lost is not gained again
      have hnone := hdrop w
      rw [if_pos hmem] at hnone
      have hhas : y.reader.cache.hasWriter w = true := Table.has_eq_true.mpr ⟨q, hq⟩
      refine .lost (((hgain w).2 hnone).1 fun hnew => ?_)
      obtain ⟨e, he, rfl⟩ := List.mem_map.mp hnew
      have := (List.mem_filter.mp he).2
      simp [hhas] at this
    · have hsome := hdrop w
      rw [if_neg hmem, hq] at hsome
      exact .kept (((hgain w).1 q hsome).trans hq.symm)

lemma refuse_cache (y : LinkedReader) (c : Candidate) :
    (y.refuse c).reader.cache = y.reader.cache ∧ (y.refuse c).reader.isOpen = y.reader.isOpen := by
  unfold refuse
  split
  · split_ifs <;> exact ⟨rfl, rfl⟩
  · exact ⟨rfl, rfl⟩

lemma foldl_refuse (y : LinkedReader) (cs : List Candidate) :
    (cs.foldl refuse y).reader.cache = y.reader.cache ∧
      (cs.foldl refuse y).reader.isOpen = y.reader.isOpen := by
  induction cs generalizing y with
  | nil => exact ⟨rfl, rfl⟩
  | cons c cs ih =>
    obtain ⟨h1, h2⟩ := ih (y.refuse c)
    obtain ⟨h1', h2'⟩ := refuse_cache y c
    exact ⟨h1.trans h1', h2.trans h2'⟩

end LinkedReader

/-- What a reconciliation does to a reader. -/
theorem Node.reconcileReader_spec (n : Node) (y : LinkedReader) (w : Guid) :
    y.Rematched (n.reconcileReader y) w ∧
      (n.reconcileReader y).reader.isOpen = y.reader.isOpen := by
  obtain ⟨hcache, hopen⟩ :=
    y.foldl_refuse (n.candidates .writer y.reader.key.topic y.reader.type.name)
  obtain ⟨hr, hopen'⟩ := LinkedReader.rematched_sync
    ((n.candidates .writer y.reader.key.topic y.reader.type.name).foldl LinkedReader.refuse y)
    (y.wanted (n.candidates .writer y.reader.key.topic y.reader.type.name)) w
  refine ⟨?_, hopen'.trans hopen⟩
  rcases hr with h | h | ⟨b, hx, h⟩
  · exact .kept (h.trans (by rw [hcache]))
  · exact .lost h
  · exact .gained b (hcache ▸ hx) h

end PubSub.Udp
