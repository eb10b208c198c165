import PubSub.Proofs.Loopback.Traffic

/-!
The order in which changes are queued for a reader when several threads use a domain. What is made
is not queued under the same lock, so that a call can be overtaken by another one between its two
halves; and nothing but that brings the numbers of a reader out of order.
-/

namespace PubSub.Loopback.Traffic

open Domain

/-- Whether something is queued for a reader of a writer while something that was made for it
before is still held. -/
def overtakes (t : Traffic) (w r : Guid) : Move → Bool
  | .queue i => t.held[i]?.any (·.isFor w r) && (t.held.take i).any (·.isFor w r)
  | _ => false

def overtaken (t : Traffic) (w r : Guid) : List Move → Bool
  | [] => false
  | m :: ms => t.overtakes w r m || (t.step m).overtaken w r ms

variable {t : Traffic} {w r : Guid}

lemma numbers_eq_nil {b : Batch} : b.isFor w r = false ↔ b.numbers w r = [] := by
  rw [← Bool.not_eq_true, isFor_eq_true, not_not]

lemma any_isFor {bs : List Batch} :
    bs.any (·.isFor w r) = false ↔ bs.flatMap (·.numbers w r) = [] := by
  simp only [List.any_eq_false, List.flatMap_eq_nil_iff, Bool.not_eq_true, numbers_eq_nil]

/-! ### Every move -/

/-- The endpoints are in order, and the numbers between any two of them fit. -/
structure Sound (t : Traffic) : Prop where
  calm : t.domain.Calm
  lane : ∀ w r, (t.lane w r).Fits

lemma sound_start (registry id : Nat) (latency : Span) (clock : Nat) :
    (start registry id latency clock).Sound where
  calm := ⟨by simp [start, Domain.new], by simp [start, Domain.new]⟩
  lane _ _ := .inl rfl

/-- A move keeps the numbers between two endpoints in order, unless it overtakes. -/
def Keeps (t t' : Traffic) (m : Move) : Prop :=
  t'.Sound ∧ ∀ w r, (t'.lane w r).InOrder ↔ (t.lane w r).InOrder ∧ t.overtakes w r m = false

lemma Sound.keeps_same (h : t.Sound) {t' : Traffic} {m : Move} (hcalm : t'.domain.Calm)
    (hlane : t'.lane = t.lane) (hm : ∀ w r, t.overtakes w r m = false) : t.Keeps t' m :=
  ⟨⟨hcalm, hlane ▸ h.lane⟩, fun w r => by rw [hlane]; simp [hm]⟩

lemma Sound.make (h : t.Sound) (w : Guid) (s : Udp.Submission) :
    t.Keeps (t.step (.make w s)) (.make w s) := by
  cases hok : t.domain.appended w s with
  | error f =>
    have hstep : t.step (.make w s) = t := by simp [step, hok]
    exact hstep.symm ▸ h.keeps_same h.calm rfl fun _ _ => rfl
  | ok made =>
    have hstep : t.step (.make w s) =
        { t with domain := made.1, held := t.held ++ [⟨w, made.2⟩] } := by simp [step, hok]
    have hlane := lane_make h.calm hok
    rw [hstep]
    refine ⟨⟨?_, fun w' r => ?_⟩, fun w' r => ?_⟩
    · obtain ⟨x, hx⟩ := get?_of_appended hok
      obtain ⟨-, k, rfl⟩ := appended_ok hx hok
      exact h.calm.adjustWriter fun _ _ => (h.calm.writer w x hx).addChange _ _ _
    · rw [hlane]
      split_ifs
      · exact (h.lane w' r).make.1
      · exact h.lane w' r
    · rw [hlane]
      split_ifs
      · simpa [overtakes] using (h.lane w' r).make.2
      · simp [overtakes]

lemma Sound.bind (h : t.Sound) (w r : Guid) :
    t.Keeps (t.step (.bind w r)) (.bind w r) := by
  -- if they cannot be bound, nothing happens
  have hsame : t.domain.joined w r = none → t.Keeps (t.step (.bind w r)) (.bind w r) := fun hn => by
    have hstep : t.step (.bind w r) = t := by simp [step, hn]
    exact hstep.symm ▸ h.keeps_same h.calm rfl fun _ _ => rfl
  cases hx : t.domain.writers.get? w with
  | none => exact hsame (by simp [joined, hx])
  | some x =>
    cases hy : t.domain.readers.get? r with
    | none => exact hsame (by simp [joined, hx, hy])
    | some y =>
      by_cases hmay : x.key = y.key ∧ Qos.conflict? x.qos y.qos = none ∧
          x.history.isMatched r = false
      · obtain ⟨-, hqos, hm⟩ := id hmay
        have hn : x.history.proxies.get? r = none := Table.has_eq_false.mp hm
        -- the writer does not have the reader, so the two are apart
        have hapart : t.lane w r = .apart := by
          rcases h.lane w r with hl | ⟨b, n, hl⟩
          · exact hl
          · have hnext := hl.next
            simp [Traffic.lane, proxy?, hx, hn] at hnext
        have hn' : y.cache.writers.get? w = none := by
          have hpeer : t.domain.peer? w r = none := congrArg Lane.peer hapart
          simpa [peer?, hy] using hpeer
        have hstep : t.step (.bind w r) = { t with
            domain := (t.domain.adjustReader r (readerBound · w x.qos.isReliable)).adjustWriter w
              fun _ => (writerBound x r y.qos).1
            held := t.held ++ [⟨w, (writerBound x r y.qos).2⟩] } := by
          simp [step, joined, hx, hy, hmay]
        have hlane := lane_bind hx hy hn hn'
        have hbind := Lane.bind_apart (x.qos.isReliable && y.qos.isReliable)
          (x.history.backlog y.qos).length
        rw [hstep]
        refine ⟨⟨?_, fun w' r' => ?_⟩, fun w' r' => ?_⟩
        · -- the tables stay calm
          refine (h.calm.adjustReader fun y' hy' => ?_).adjustWriter fun x' hx' => ?_
          · obtain rfl : y' = y := Option.some.inj (hy'.symm.trans hy)
            exact (h.calm.reader r y' hy).bound hn' hqos
          · rw [writerBound_history]
            exact (h.calm.writer w x hx).matchReader r y.qos
        · -- the lane of the pair begins, with the replay held
          rw [hlane]
          split_ifs with hwr
          · rw [hwr.1, hwr.2, hapart]
            exact hbind.1
          · exact h.lane w' r'
        · -- what is made is in order again; nothing is queued, so nothing overtakes
          rw [hlane]
          split_ifs with hwr
          · rw [hwr.1, hwr.2, hapart]
            exact iff_of_true hbind.2 ⟨Lane.inOrder_apart, rfl⟩
          · simp [overtakes]
      · exact hsame (by simp only [joined, hx, hy, if_neg hmay])

lemma Sound.queue (h : t.Sound) (i : Nat) : t.Keeps (t.step (.queue i)) (.queue i) := by
  cases hb : t.held[i]? with
  | none =>
    have hstep : t.step (.queue i) = t := by simp [step, hb]
    exact hstep.symm ▸ h.keeps_same h.calm rfl fun _ _ => by simp [overtakes, hb]
  | some b =>
    have hstep : t.step (.queue i) =
        { t with domain := t.domain.submit b.writer b.out, held := t.held.eraseIdx i } := by
      simp [step, hb]
    have hheld : ∀ w r, (t.lane w r).held = (t.held.take i).flatMap (·.numbers w r) ++
        (b.numbers w r ++ (t.held.drop (i + 1)).flatMap (·.numbers w r)) := by
      intro w r
      have hsplit : t.held = t.held.take i ++ b :: t.held.drop (i + 1) := by
        obtain ⟨hi, rfl⟩ := List.getElem?_eq_some_iff.mp hb
        rw [List.getElem_cons_drop, List.take_append_drop]
      have hnumbers := congrArg (List.flatMap (·.numbers w r)) hsplit
      simpa [Traffic.lane] using hnumbers
    have hlane := lane_queue h.lane hb
    rw [hstep]
    refine ⟨⟨h.calm.submit _ _, fun w r => ?_⟩, fun w r => ?_⟩
    · rw [hlane]
      exact ((h.lane w r).queue (hheld w r)).1
    · rw [hlane, ((h.lane w r).queue (hheld w r)).2]
      simp only [overtakes, hb, Option.any_some, Bool.and_eq_false_iff, any_isFor, numbers_eq_nil]
      rw [or_comm]

lemma Sound.deliver (h : t.Sound) : t.Keeps (t.step .deliver) .deliver := by
  cases hq : t.domain.queue with
  | nil =>
    have hstep : t.step .deliver = t := by simp [step, hq]
    exact hstep.symm ▸ h.keeps_same h.calm rfl fun _ _ => rfl
  | cons j js =>
    have hstep : t.step .deliver =
        { t with domain := t.domain.deliver, ran := t.ran ++ [(j, t.domain.reception j)] } := by
      simp [step, hq]
    have hlane := lane_deliver h.calm (h.lane j.writer j.out.reader) hq
    rw [hstep]
    refine ⟨⟨?_, fun w r => ?_⟩, fun w r => ?_⟩
    · have hrest : ({ t.domain with queue := js } : Domain).Calm := ⟨h.calm.writer, h.calm.reader⟩
      rw [deliver_cons hq]
      exact hrest.run j
    · rw [hlane]
      split_ifs
      · exact (h.lane w r).arrive.1
      · exact h.lane w r
    · rw [hlane]
      split_ifs
      · simpa [overtakes] using (h.lane w r).arrive.2
      · simp [overtakes]

/-- Every move keeps the order but one that overtakes. -/
lemma Sound.step (h : t.Sound) (m : Move) : t.Keeps (t.step m) m := by
  cases m with
  | enterWriter w topic type q =>
    -- an identity that is taken already
    cases hw : t.domain.writers.has w with
    | true =>
      have hstep : t.step (.enterWriter w topic type q) = t := by simp [Traffic.step, hw]
      exact hstep.symm ▸ h.keeps_same h.calm rfl fun _ _ => rfl
    | false =>
      -- a new writer has no readers, so no lane begins with it
      have hn := Table.has_eq_false.mp hw
      have hstep : t.step (.enterWriter w topic type q) =
          { t with domain := t.domain.insertWriter (.new w topic type q) } := by
        simp [Traffic.step, hw]
      rw [hstep]
      refine h.keeps_same ⟨fun w' x hx => ?_, h.calm.reader⟩ (lane_enterWriter hn topic type q)
        fun _ _ => rfl
      have hx := (get?_insertWriter hn w').symm.trans hx
      split_ifs at hx
      · exact Option.some.inj hx ▸ WriterHistory.wf_new w q
      · exact h.calm.writer w' x hx
  | enterReader r topic type q =>
    cases hr : t.domain.readers.has r with
    | true =>
      have hstep : t.step (.enterReader r topic type q) = t := by simp [Traffic.step, hr]
      exact hstep.symm ▸ h.keeps_same h.calm rfl fun _ _ => rfl
    | false =>
      -- nor does one with a new reader
      have hn := Table.has_eq_false.mp hr
      have hstep : t.step (.enterReader r topic type q) =
          { t with domain := t.domain.insertReader (.new r topic type q) } := by
        simp [Traffic.step, hr]
      rw [hstep]
      refine h.keeps_same ⟨h.calm.writer, fun r' y hy => ?_⟩ (lane_enterReader hn topic type q)
        fun _ _ => rfl
      have hy := (get?_insertReader hn r').symm.trans hy
      split_ifs at hy
      · exact Option.some.inj hy ▸ Attentive.new r topic type q
      · exact h.calm.reader r' y hy
  | make w s => exact h.make w s
  | bind w r => exact h.bind w r
  | queue i => exact h.queue i
  | deliver => exact h.deliver

/-- The numbers of a reader are in order after some moves if and only if none of them overtakes. -/
lemma Sound.run (h : t.Sound) (ms : List Move) :
    (t.run ms).Sound ∧ ∀ w r, ((t.run ms).lane w r).InOrder ↔
      (t.lane w r).InOrder ∧ t.overtaken w r ms = false := by
  induction ms generalizing t with
  | nil => exact ⟨h, fun w r => (and_iff_left rfl).symm⟩
  | cons m ms ih =>
    obtain ⟨hstep, hm⟩ := h.step m
    obtain ⟨hrun, hms⟩ := ih hstep
    refine ⟨hrun, fun w r => ?_⟩
    rw [overtaken, Bool.or_eq_false_iff, ← and_assoc, ← hm]
    exact hms w r

/-- **What is not overtaken is not lost.** Several threads make changes with one writer, which are
queued after others or before them as it happens, while readers are bound to it. The changes for a
reader are queued by their numbers and the reader takes every one of them if no call queues a change
for it while an earlier one is held; and once nothing is held, they have been queued so only if no
call did. Once all of them have arrived, a reliable reader has dropped none as out of order if and
only if no call did. -/
theorem in_order_iff (registry id : Nat) (latency : Span) (clock : Nat) (ms : List Move)
    (w r : Guid) :
    let t₀ := start registry id latency clock
    let t := t₀.run ms
    (t₀.overtaken w r ms = false →
      (t.lane w r).entered.Pairwise (· < ·) ∧ ∀ e ∈ (t.lane w r).ran, e.2 = .accepted) ∧
    (t.held = [] →
      ((t.lane w r).entered.Pairwise (· < ·) ↔ t₀.overtaken w r ms = false)) ∧
    (∀ y, t.domain.readers.get? r = some y → y.qos.isReliable = true → t.held = [] →
      t.domain.queue = [] →
        ((∀ e ∈ (t.lane w r).ran, e.2 ≠ .outOfOrder) ↔ t₀.overtaken w r ms = false)) := by
  intro t₀ t
  obtain ⟨h, hrun⟩ : t.Sound ∧ _ := (sound_start registry id latency clock).run ms
  have horder : (t.lane w r).InOrder ↔ t₀.overtaken w r ms = false :=
    (hrun w r).trans (and_iff_right Lane.inOrder_apart)
  refine ⟨fun ho => (h.lane w r).accepted (horder.mpr ho), fun hheld => ?_,
    fun y hy hreliable hheld hqueue => ?_⟩
  · have hnone : (t.lane w r).held = [] := by simp [lane, hheld]
    rw [← horder, Lane.InOrder, Lane.made, hnone, List.append_nil]
  · have hnone : (t.lane w r).held = [] := by simp [lane, hheld]
    have hempty : (t.lane w r).queued = [] := by simp [lane, jobsOf, hqueue, carried]
    rw [← horder]
    rcases h.lane w r with hl | ⟨b, n, hl⟩
    · rw [hl]
      exact iff_of_true (fun e he => absurd he List.not_mem_nil) Lane.inOrder_apart
    · -- the reader expects every number of a writer that it has
      obtain ⟨y', hy', hq⟩ := Option.bind_eq_some_iff.mp hl.peer
      obtain rfl : y' = y := Option.some.inj (hy'.symm.trans hy)
      have hb : b = true := by
        have hpeer := (h.calm.reader r y' hy).2 w _ hq
        rwa [WriterProxy.after_reliable, hreliable] at hpeer
      subst hb
      exact (hl.inOrder_iff hnone hempty).symm

section Example

/-- A writer and a reader that are bound, with nothing to replay. -/
def couple : List Move :=
  [.enterWriter ⟨1, 2⟩ "t" .hello .interop, .enterReader ⟨2, 2⟩ "t" .hello .interop,
    .bind ⟨1, 2⟩ ⟨2, 2⟩, .queue 0]

/-- Two changes are made before the first of them is queued, and in between a second reader is bound
to the writer. What is replayed to it is queued before a change that the first reader waits for. -/
def overlapping : List Move :=
  couple ++ [.enterReader ⟨3, 2⟩ "t" .hello .interop, .make ⟨1, 2⟩ (.sample (.hello ⟨1, "a"⟩)),
    .bind ⟨1, 2⟩ ⟨3, 2⟩, .queue 1, .make ⟨1, 2⟩ (.sample (.hello ⟨2, "b"⟩)), .queue 0, .deliver,
    .queue 0, .deliver, .deliver, .deliver]

/-- No reader is overtaken by this, and nothing is lost. -/
theorem in_order_iff_overlapping :
    let t₀ := start 0 0 .zero 0
    let t := t₀.run overlapping
    t₀.overtaken ⟨1, 2⟩ ⟨2, 2⟩ overlapping = false ∧
      (t.lane ⟨1, 2⟩ ⟨2, 2⟩).entered = [1, 2] ∧
      (t.lane ⟨1, 2⟩ ⟨2, 2⟩).entered.Pairwise (· < ·) ∧
      (∀ e ∈ (t.lane ⟨1, 2⟩ ⟨2, 2⟩).ran, e.2 = .accepted) ∧
      t₀.overtaken ⟨1, 2⟩ ⟨3, 2⟩ overlapping = false ∧
      (t.lane ⟨1, 2⟩ ⟨3, 2⟩).entered = [1, 2] ∧
      (t.lane ⟨1, 2⟩ ⟨3, 2⟩).entered.Pairwise (· < ·) ∧
      ∀ e ∈ (t.lane ⟨1, 2⟩ ⟨3, 2⟩).ran, e.2 ≠ .outOfOrder := by
  have hreader : (((start 0 0 .zero 0).run overlapping).domain.readers.get? ⟨3, 2⟩).map
      (·.qos.isReliable) = some true := by decide +kernel
  have hfirst : (start 0 0 .zero 0).overtaken ⟨1, 2⟩ ⟨2, 2⟩ overlapping = false := by
    decide +kernel
  have hsecond : (start 0 0 .zero 0).overtaken ⟨1, 2⟩ ⟨3, 2⟩ overlapping = false := by
    decide +kernel
  have hheld : ((start 0 0 .zero 0).run overlapping).held = [] :=
    List.isEmpty_iff.mp (by decide +kernel)
  have hqueue : ((start 0 0 .zero 0).run overlapping).domain.queue = [] :=
    List.isEmpty_iff.mp (by decide +kernel)
  obtain ⟨y, hy, hreliable⟩ := Option.map_eq_some_iff.mp hreader
  obtain ⟨horder, -, -⟩ := in_order_iff 0 0 .zero 0 overlapping ⟨1, 2⟩ ⟨2, 2⟩
  obtain ⟨-, hentered, hran⟩ := in_order_iff 0 0 .zero 0 overlapping ⟨1, 2⟩ ⟨3, 2⟩
  dsimp only
  exact ⟨hfirst, by decide +kernel, (horder hfirst).1, (horder hfirst).2, hsecond,
    by decide +kernel, (hentered hheld).mpr hsecond,
    (hran y hy hreliable hheld hqueue).mpr hsecond⟩

/-- Of two changes, the second one is queued first. -/
def outrun : List Move :=
  couple ++ [.make ⟨1, 2⟩ (.sample (.hello ⟨1, "a"⟩)), .make ⟨1, 2⟩ (.sample (.hello ⟨2, "b"⟩)),
    .queue 1, .queue 0, .deliver, .deliver]

/-- The reader is reliable and drops the second change, and nothing is left on its way to it. -/
theorem not_in_order_outrun :
    let t := (start 0 0 .zero 0).run outrun
    t.held = [] ∧ t.domain.queue = [] ∧
      (∃ y, t.domain.readers.get? ⟨2, 2⟩ = some y ∧ y.qos.isReliable = true) ∧
      ¬(t.lane ⟨1, 2⟩ ⟨2, 2⟩).entered.Pairwise (· < ·) ∧
      (t.lane ⟨1, 2⟩ ⟨2, 2⟩).ran = [(2, .outOfOrder), (1, .accepted)] := by
  intro t
  have hreader : (t.domain.readers.get? ⟨2, 2⟩).map (·.qos.isReliable) = some true := by
    decide +kernel
  obtain ⟨y, hy, hreliable⟩ := Option.map_eq_some_iff.mp hreader
  exact ⟨List.isEmpty_iff.mp (by decide +kernel), List.isEmpty_iff.mp (by decide +kernel),
    ⟨y, hy, hreliable⟩, by decide +kernel, by decide +kernel⟩

end Example

end PubSub.Loopback.Traffic
