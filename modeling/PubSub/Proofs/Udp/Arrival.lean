import PubSub.Proofs.Udp.Act

/-!
What a participant does with what arrives. Announcements and farewells gain and lose matches; a
change goes to the reader that it names, which answers, and an acknowledgment to the writer.
-/

namespace PubSub

namespace Reader

variable (y : Reader) (w : Guid) (n : Nat) (c : Change)

lemma receive_cache :
    (y.receive w n c).1.cache = if y.isOpen then (y.cache.receive w n c).1 else y.cache := by
  unfold receive
  split_ifs with ho
  · cases hq : y.cache.writers.get? w with
    | none => simp [ReaderCache.receive_of_none hq]
    | some q =>
      by_cases ht : q.Takes n
      · simp [ReaderCache.receive_of_takes hq ht, raise]
      · obtain ⟨e, h1, h2, he⟩ := ReaderCache.receive_of_not_takes (c := c) hq ht
        rw [he]
        cases e <;> simp_all
  · rfl

/-- Only what an open reader expects of the sender moves. -/
lemma get?_receive (w' : Guid) :
    (y.receive w n c).1.cache.writers.get? w' =
      if y.isOpen ∧ w' = w then
        (y.cache.writers.get? w).map fun q => if q.Takes n then { q with next := n + 1 } else q
      else y.cache.writers.get? w' := by
  rw [receive_cache]
  by_cases ho : y.isOpen
  · simp only [ho, if_true, true_and]
    exact ReaderCache.get?_receive w'
  · simp [ho]

lemma receive_isOpen : (y.receive w n c).1.isOpen = y.isOpen := by
  unfold receive
  split_ifs
  · split <;> rfl
  · rfl

/-- An open reader answers a writer that it has with the number that it has come to. -/
lemma receive_answer :
    (y.receive w n c).2 =
      if y.isOpen then
        (y.cache.writers.get? w).map fun q => if q.Takes n then n else q.next - 1
      else none := by
  unfold receive
  split_ifs with ho
  · cases hq : y.cache.writers.get? w with
    | none => simp [ReaderCache.receive_of_none hq]
    | some q =>
      by_cases ht : q.Takes n
      · simp [ReaderCache.receive_of_takes hq ht, ht]
      · obtain ⟨e, h1, h2, he⟩ := ReaderCache.receive_of_not_takes (c := c) hq ht
        rw [he]
        cases e <;> simp_all
  · rfl

end Reader

lemma Writer.acknowledge_history (x : Writer) (r : Guid) (a : Nat) :
    (x.acknowledge r a).history = (x.history.acknowledge r a).1 := by
  unfold acknowledge
  simp only
  split_ifs <;> rfl

lemma Writer.acknowledge_isOpen (x : Writer) (r : Guid) (a : Nat) :
    (x.acknowledge r a).isOpen = x.isOpen := by
  unfold acknowledge
  simp only
  split_ifs <;> rfl

lemma Udp.LinkedWriter.Tidy.acknowledge {x : Udp.LinkedWriter} (h : x.Tidy) (r : Guid) (a : Nat) :
    Udp.LinkedWriter.Tidy { x with writer := x.writer.acknowledge r a } := by
  refine ⟨Writer.acknowledge_history x.writer r a ▸ h.history.acknowledge r a, fun r' => ?_⟩
  rw [Writer.acknowledge_history, WriterHistory.get?_acknowledge, h.addresses]
  split_ifs
  · exact Option.map_eq_none_iff.symm
  · rfl

namespace Udp.Node

def arrive (n : Node) (now : Nat) (source : Address) (d : Dispatch) : Node × List Dispatch :=
  if n.running then
    match d with
    | .group m => n.hear now source.host m
    | .unicast _ m => n.receive source m
  else (n, [])

def accepts (n : Node) (w r : Guid) : Dispatch → Option Change
  | .unicast _ (.data w' r' number c) =>
    if w' = w ∧ r' = r ∧ n.running ∧ (n.readers.get? r).any fun y =>
        y.reader.isOpen && (y.reader.cache.receive w number c).2.1 = .accepted then
      some c
    else none
  | _ => none

/-- What can become of a writer's side of a pair when something arrives. -/
inductive WriterArrival (w r : Guid) (n n' : Node) (d : Dispatch) (out : List Dispatch) : Prop
  | turn (h : WriterTurn w r n n' out)
  | acknowledged (a : Address) (acked : Nat) (hm : d = .unicast a (.ackNack r w acked))
    (hp : n'.proxy? w r = (n.proxy? w r).map (·.acknowledge acked)) (hd : dataOf w r out = [])

/-- What can become of a reader's side: a change from a writer that it has is taken or not, and
is answered in either case. -/
inductive ReaderArrival (w r : Guid) (n n' : Node) (d : Dispatch) (out : List Dispatch) : Prop
  | turn (h : ReaderTurn w r n n') (ha : acksOf w r out = []) (hc : n.accepts w r d = none)
  | offered (a : Address) (number : Nat) (c : Change) (q : WriterProxy)
    (hm : d = .unicast a (.data w r number c)) (hq : n.peer? w r = some q)
    (hp : n'.peer? w r = some (if q.Takes number then { q with next := number + 1 } else q))
    (ha : acksOf w r out = [if q.Takes number then number else q.next - 1])
    (hc : n.accepts w r d = if q.Takes number then some c else none)

structure Arrived (n n' : Node) (d : Dispatch) (out : List Dispatch) : Prop where
  wf : n'.Wf
  writer : ∀ w r, WriterArrival w r n n' d out
  reader : ∀ w r, ReaderArrival w r n n' d out
  next : ∀ w, n.nextOf w ≤ n'.nextOf w

variable {n n' : Node} {d : Dispatch} {out : List Dispatch}

lemma Turned.arrived (h : Turned n n' out) (hc : ∀ w r, n.accepts w r d = none) :
    Arrived n n' d out :=
  ⟨h.wf, fun w r => .turn (h.writer w r), fun w r => .turn (h.reader w r) (h.acks w r) (hc w r),
    h.next⟩

lemma Still.arrived (h : Still n n') (hc : ∀ w r, n.accepts w r d = none) : Arrived n n' d [] :=
  (h.turned silent_nil).arrived hc

/-! ### Changes -/

section Data

variable (source a : Address) (w r : Guid) (number : Nat) (c : Change)

lemma get?_receive_data {y : LinkedReader} (hy : n.readers.get? r = some y) (r' : Guid) :
    (n.receive source (.data w r number c)).1.readers.get? r' =
      if r' = r then some { y with reader := (y.reader.receive w number c).1 }
      else n.readers.get? r' := by
  simp only [receive, hy]
  rw [get?_adjustReader]
  split_ifs with hr
  · rw [hr, hy]
    rfl
  · rfl

lemma acks_receive_data {y : LinkedReader} (hy : n.readers.get? r = some y) (w' r' : Guid) :
    acksOf w' r' (n.receive source (.data w r number c)).2 =
      if w = w' ∧ r = r' then (y.reader.receive w number c).2.toList else [] := by
  simp only [receive, hy]
  cases (y.reader.receive w number c).2 with
  | none => simp
  | some a => by_cases h : w = w' ∧ r = r' <;> simp [acksOf, h]

lemma accepts_data {y : LinkedReader} (hrun : n.running = true)
    (hy : n.readers.get? r = some y) :
    n.accepts w r (.unicast a (.data w r number c)) =
      if y.reader.isOpen ∧ ∃ q, y.reader.cache.writers.get? w = some q ∧ q.Takes number then
        some c
      else none := by
  simp only [accepts, hrun, hy, Option.any_some, Bool.and_eq_true, decide_eq_true_eq,
    ReaderCache.receive_accepted_iff, true_and]

variable {w r}

/-- A change that arrives at a reader that has the writer is taken or not, and is answered. -/
lemma ReadsFrom.receive {q : WriterProxy} (h : n.ReadsFrom w r q) :
    (n.receive source (.data w r number c)).1.ReadsFrom w r
        (if q.Takes number then { q with next := number + 1 } else q) ∧
      acksOf w r (n.receive source (.data w r number c)).2 =
        [if q.Takes number then number else q.next - 1] ∧
      n.accepts w r (.unicast a (.data w r number c)) =
        if q.Takes number then some c else none := by
  obtain ⟨hrun, y, hy, ho, hq⟩ := h
  refine ⟨⟨?_, _, (get?_receive_data source w r number c hy r).trans (if_pos rfl), ?_, ?_⟩, ?_, ?_⟩
  · simp only [Node.receive, hy]
    exact hrun
  · exact (y.reader.receive_isOpen w number c).trans ho
  · simp only [Reader.get?_receive, ho, hq, and_self, if_true, Option.map_some]
  · rw [acks_receive_data source w r number c hy, if_pos ⟨rfl, rfl⟩, Reader.receive_answer,
      if_pos ho, hq]
    rfl
  · rw [accepts_data a w r number c hrun hy]
    simp [ho, hq]

/-- A change for somebody else, or from a writer that the reader does not have, is passed over. -/
lemma receive_of_not_reads {w' r' : Guid} (hrun : n.running = true)
    (hn : ¬(w' = w ∧ r' = r ∧ ∃ q, n.ReadsFrom w r q)) :
    (n.receive source (.data w r number c)).1.peer? w' r' = n.peer? w' r' ∧
      acksOf w' r' (n.receive source (.data w r number c)).2 = [] ∧
      n.accepts w' r' (.unicast a (.data w r number c)) = none := by
  cases hy : n.readers.get? r with
  | none =>
    refine ⟨by simp only [Node.receive, hy], by simp only [Node.receive, hy, acksOf_nil], ?_⟩
    simp only [accepts]
    refine if_neg fun hc => ?_
    obtain ⟨-, hr, -, hany⟩ := hc
    rw [← hr, hy] at hany
    simp at hany
  | some y =>
    -- the reader does not have the writer, or is closed
    have hnone : w' = w → r' = r → y.reader.isOpen = true →
        y.reader.cache.writers.get? w = none := by
      intro hw hr ho
      by_contra hsome
      obtain ⟨q, hq⟩ := Option.ne_none_iff_exists'.mp hsome
      exact hn ⟨hw, hr, q, hrun, y, hy, ho, hq⟩
    refine ⟨?_, ?_, ?_⟩
    · -- what is kept for the writer
      rw [peer?, get?_receive_data source w r number c hy]
      split_ifs with hr
      · rw [Option.bind_some, Reader.get?_receive, peer?, hr, hy, Option.bind_some]
        split_ifs with how
        · rw [hnone how.2 hr how.1, how.2, hnone how.2 hr how.1]
          rfl
        · rfl
      · rfl
    · -- what is answered
      rw [acks_receive_data source w r number c hy, Reader.receive_answer]
      split_ifs with hpair ho
      · rw [hnone hpair.1.symm hpair.2.symm ho]
        rfl
      · rfl
      · rfl
    · -- what is accepted
      simp only [accepts]
      refine if_neg fun hc => ?_
      obtain ⟨hw, hr, -, hany⟩ := hc
      rw [← hr, hy, Option.any_some, Bool.and_eq_true, decide_eq_true_eq,
        ReaderCache.receive_accepted_iff, ← hw] at hany
      obtain ⟨ho, q, hq, -⟩ := hany
      rw [hnone hw.symm hr.symm ho] at hq
      simp at hq

end Data

lemma arrived_data (h : n.Wf) (hrun : n.running = true) (source a : Address) (w r : Guid)
    (number : Nat) (c : Change) :
    Arrived n (n.receive source (.data w r number c)).1 (.unicast a (.data w r number c))
      (n.receive source (.data w r number c)).2 := by
  have hwf : (n.receive source (.data w r number c)).1.Wf := by
    simp only [receive]
    split
    · exact h.adjustReader r _
    · exact h
  have hwriters : (n.receive source (.data w r number c)).1.writers = n.writers := by
    simp only [receive]
    split <;> rfl
  have hout : ∀ w' r', dataOf w' r' (n.receive source (.data w r number c)).2 = [] := by
    intro w' r'
    simp only [receive]
    split
    · next y _ => cases (y.reader.receive w number c).2 <;> rfl
    · rfl
  refine ⟨hwf, fun w' r' => .turn (.rest (by rw [proxy?, proxy?, hwriters]) (hout w' r')),
    fun w' r' => ?_, fun w' => Nat.le_of_eq (by rw [nextOf, nextOf, hwriters])⟩
  by_cases hn : w' = w ∧ r' = r ∧ ∃ q, n.ReadsFrom w r q
  · obtain ⟨rfl, rfl, q, hq⟩ := hn
    obtain ⟨hp, ha, hc⟩ := hq.receive source a number c
    exact .offered a number c q rfl hq.peer hp.peer ha hc
  · obtain ⟨hp, ha, hc⟩ := receive_of_not_reads source a number c hrun hn
    exact .turn (.rest hp) ha hc

/-! ### Acknowledgments -/

section AckNack

variable (source a : Address) {w r : Guid} (acked : Nat)

lemma get?_receive_ackNack {x : LinkedWriter} (hx : n.writers.get? w = some x)
    (ho : x.writer.isOpen = true) (w' : Guid) :
    (n.receive source (.ackNack r w acked)).1.writers.get? w' =
      if w' = w then some { x with writer := x.writer.acknowledge r acked }
      else n.writers.get? w' := by
  simp only [receive, hx, ho, if_true]
  rw [get?_adjustWriter]
  split_ifs with hw
  · rw [hw, hx]
    rfl
  · rfl

/-- An acknowledgment counts for the reader that it comes from. -/
lemma proxy?_receive_ackNack {x : LinkedWriter} (hx : n.writers.get? w = some x)
    (ho : x.writer.isOpen = true) (w' r' : Guid) :
    (n.receive source (.ackNack r w acked)).1.proxy? w' r' =
      if w' = w ∧ r' = r then (n.proxy? w' r').map (·.acknowledge acked) else n.proxy? w' r' := by
  rw [proxy?, get?_receive_ackNack source acked hx ho]
  by_cases hw : w' = w
  · subst hw
    simp only [if_true, true_and, Option.bind_some, proxy?, hx, Writer.acknowledge_history,
      WriterHistory.get?_acknowledge]
  · simp [hw, proxy?]

lemma out_receive_ackNack (n : Node) (w r : Guid) :
    (n.receive source (.ackNack r w acked)).2 = [] := by
  simp only [receive]
  split
  · split_ifs <;> rfl
  · rfl

/-- An acknowledgment that arrives at a writer that has the reader. -/
lemma WritesTo.receive {p : ReaderProxy} (h : n.WritesTo w r p) :
    (n.receive source (.ackNack r w acked)).1.WritesTo w r (p.acknowledge acked) := by
  obtain ⟨hrun, x, hx, ho, hp⟩ := h
  refine ⟨?_, _, (get?_receive_ackNack source acked hx ho w).trans (if_pos rfl), ?_, ?_⟩
  · simp only [Node.receive, hx, ho, if_true]
    exact hrun
  · exact (x.writer.acknowledge_isOpen r acked).trans ho
  · rw [Writer.acknowledge_history, WriterHistory.get?_acknowledge, if_pos rfl, hp]
    rfl

end AckNack

lemma arrived_ackNack (h : n.Wf) (source a : Address) (w r : Guid) (acked : Nat) :
    Arrived n (n.receive source (.ackNack r w acked)).1 (.unicast a (.ackNack r w acked))
      (n.receive source (.ackNack r w acked)).2 := by
  rw [out_receive_ackNack]
  -- an acknowledgment for nobody, or for a closed writer, is dropped
  have hrest : Arrived n n (.unicast a (.ackNack r w acked)) [] := h.still.arrived fun _ _ => rfl
  cases hx : n.writers.get? w with
  | none =>
    simp only [receive, hx]
    exact hrest
  | some x =>
    cases ho : x.writer.isOpen with
    | false =>
      simp only [receive, hx, ho]
      exact hrest
    | true =>
      refine ⟨?_, fun w' r' => ?_, fun w' r' => ?_, fun w' => Nat.le_of_eq ?_⟩
      · simp only [receive, hx, ho, if_true]
        refine h.adjustWriter fun x' hx' htidy => ?_
        obtain rfl : x' = x := Option.some.inj (hx'.symm.trans hx)
        exact ⟨(congrArg WriterHistory.guid (Writer.acknowledge_history x'.writer r acked)).trans rfl,
          htidy.acknowledge r acked⟩
      · -- the writer's side: what is pending for the reader is acknowledged
        have hproxy := proxy?_receive_ackNack (r := r) source acked hx ho w' r'
        by_cases hpair : w' = w ∧ r' = r
        · obtain ⟨rfl, rfl⟩ := hpair
          exact .acknowledged a acked rfl (hproxy.trans (if_pos ⟨rfl, rfl⟩)) rfl
        · exact .turn (.rest (hproxy.trans (if_neg hpair)) rfl)
      · -- the reader's side has no part in it
        refine .turn (.rest ?_) rfl rfl
        simp only [receive, hx, ho, if_true]
        rfl
      · rw [nextOf, nextOf, get?_receive_ackNack source acked hx ho]
        split_ifs with hw
        · simp only [hw, hx, Option.map_some, Writer.acknowledge_history]
          rfl
        · rfl

/-- **Whatever arrives at a participant, no writer and no reader of it sees anything but a turn,
an acknowledgment or a change.** -/
theorem arrived (h : n.Wf) (now : Nat) (source : Address) (d : Dispatch) :
    Arrived n (n.arrive now source d).1 d (n.arrive now source d).2 := by
  unfold arrive
  split_ifs with hrun
  · cases d with
    | group m => exact (turned_hear h now source.host m).arrived fun _ _ => rfl
    | unicast a m =>
      cases m with
      | data w r number c => exact arrived_data h hrun source a w r number c
      | ackNack r w acked => exact arrived_ackNack h source a w r acked
      | announce p domain name port lease es => exact h.still.arrived fun _ _ => rfl
      | bye p => exact h.still.arrived fun _ _ => rfl
  · refine h.still.arrived fun w r => ?_
    unfold accepts
    split
    · exact if_neg fun hc => hrun hc.2.2.1
    · rfl

end Udp.Node

end PubSub
