import PubSub.Proofs.Aligned
import PubSub.Proofs.Udp.Arrival
import PubSub.Udp.World

/-!
Two participants that discover each other, lose each other and discover each other again, each
on its own. Whatever one of them has said may arrive at the other one at any time, any number of
times or never; with two of them, what one sends to an address is meant for the other one, and
how long a message may be is left aside. When the writer of the one can trust what the reader of
the other one has acknowledged is answered exactly.
-/

namespace PubSub.Udp

/-- Two participants, of which the left one has the writer `w` and the right one the reader `r`,
with all that they have said to each other. `owed` are the changes that the writer has enqueued
for the reader since it has last matched it, `taken` those that the reader has ever accepted
from the writer. -/
structure Duo (w r : Guid) where
  left : Node
  right : Node
  said : List Dispatch
  answered : List Dispatch
  owed : List Change
  taken : List Change

/-- What can happen to two participants. Either one can do something, or the message that the
other one has said as its `i`-th one can arrive. -/
inductive Event where
  | left (a : Act)
  | right (a : Act)
  | toRight (i now : Nat)
  | toLeft (i now : Nat)

namespace Duo

variable {w r : Guid}

/-- The changes that are sent to a reader for the first time, if `p` was kept for it before. -/
def enqueued (p : Option ReaderProxy) (data : List (Nat × Change)) : List Change :=
  (data.filter fun e => (p.map (·.next)).getD 1 ≤ e.1).map (·.2)

def onLeft (σ : Duo w r) (acted : Node × List Dispatch) : Duo w r :=
  { σ with
    left := acted.1
    said := σ.said ++ acted.2
    owed :=
      if (acted.1.proxy? w r).isSome then
        σ.owed ++ enqueued (σ.left.proxy? w r) (dataOf w r acted.2)
      else [] }

def onRight (σ : Duo w r) (c : Option Change) (acted : Node × List Dispatch) : Duo w r :=
  { σ with
    right := acted.1
    answered := σ.answered ++ acted.2
    taken := σ.taken ++ c.toList }

def step (σ : Duo w r) : Event → Duo w r
  | .left a => σ.onLeft (σ.left.perform a)
  | .right a => σ.onRight none (σ.right.perform a)
  | .toRight i now =>
    match σ.said[i]? with
    | some d =>
      σ.onRight (σ.right.accepts w r d)
        (σ.right.arrive now (World.here σ.left.dataPort) d)
    | none => σ
  | .toLeft i now =>
    match σ.answered[i]? with
    | some d => σ.onLeft (σ.left.arrive now (World.here σ.right.dataPort) d)
    | none => σ

def run (σ : Duo w r) (es : List Event) : Duo w r := es.foldl step σ

inductive Reachable : Duo w r → Prop
  | start (id id' domain domain' : Nat) (name name' : String) (port port' : Nat) (t t' : Timing) :
    Reachable ⟨.new id domain name port t, .new id' domain' name' port' t', [], [], [], []⟩
  | step {σ : Duo w r} (h : Reachable σ) (e : Event) : Reachable (σ.step e)

/-- The open writer and the open reader have each other, as reliable ones. -/
def Paired (σ : Duo w r) : Prop :=
  (∃ p, σ.left.WritesTo w r p ∧ p.reliable = true) ∧
    ∃ q, σ.right.ReadsFrom w r q ∧ q.reliable = true

/-- The two have each other, and keep each other whatever happens. -/
def Together (σ : Duo w r) : List Event → Prop
  | [] => σ.Paired
  | e :: es => σ.Paired ∧ (σ.step e).Together es

def link (σ : Duo w r) : Link where
  proxy := σ.left.proxy? w r
  peer := σ.right.peer? w r
  owed := σ.owed
  taken := σ.taken
  sent := dataOf w r σ.said
  acks := acksOf w r σ.answered

variable {σ : Duo w r}

lemma Paired.joined (h : σ.Paired) : σ.link.Joined := by
  obtain ⟨⟨p, hp, hb⟩, q, hq, hb'⟩ := h
  exact ⟨⟨p, hp.proxy, hb⟩, q, hq.peer, hb'⟩

/-! ### Every event is a move -/

/-- Both participants are in order, what the writer has enqueued stands under the numbers of its
proxy, and whatever has left it was made before its next change. -/
structure Sound (σ : Duo w r) : Prop where
  left : σ.left.Wf
  right : σ.right.Wf
  grounded : σ.link.Grounded
  owed : ∀ c ∈ σ.owed, c.sequence < σ.left.nextOf w
  sent : ∀ e ∈ dataOf w r σ.said, e.2.sequence < σ.left.nextOf w
  taken : ∀ c ∈ σ.taken, c.sequence < σ.left.nextOf w

@[simp] lemma enqueued_nil (p : Option ReaderProxy) : enqueued p [] = [] := rfl

lemma enqueued_numbered (cs : List Change) : enqueued none (numbered 1 cs) = cs := by
  have hall : ∀ e ∈ numbered 1 cs, decide (1 ≤ e.1) = true := by
    intro e he
    obtain ⟨h1, -⟩ := mem_numbered.mp he
    simpa using h1
  unfold enqueued
  rw [show ((none : Option ReaderProxy).map (·.next)).getD 1 = 1 from rfl,
    List.filter_eq_self.mpr hall, map_snd_numbered]

lemma enqueued_next (p : ReaderProxy) (c : Change) : enqueued (some p) [(p.next, c)] = [c] := by
  simp [enqueued]

lemma enqueued_pending {p : ReaderProxy} {owed : List Change} {k : Nat} (h : p.Keeps owed k) :
    enqueued (some p) p.pending = [] := by
  unfold enqueued
  rw [List.map_eq_nil_iff, List.filter_eq_nil_iff]
  intro e he
  obtain ⟨h1, h2⟩ := mem_numbered.mp (h.pending_subset he)
  have hlt := (List.getElem?_eq_some_iff.mp h2).1
  have := h.next
  simp
  omega

lemma link_onLeft (σ : Duo w r) (acted : Node × List Dispatch) :
    (σ.onLeft acted).link =
      { σ.link with
        proxy := acted.1.proxy? w r
        owed :=
          if (acted.1.proxy? w r).isSome then
            σ.owed ++ enqueued (σ.left.proxy? w r) (dataOf w r acted.2)
          else []
        sent := dataOf w r σ.said ++ dataOf w r acted.2 } := by
  simp only [link, onLeft, dataOf_append]

lemma link_onRight (σ : Duo w r) (c : Option Change) (acted : Node × List Dispatch) :
    (σ.onRight c acted).link =
      { σ.link with
        peer := acted.1.peer? w r
        taken := σ.taken ++ c.toList
        acks := acksOf w r σ.answered ++ acksOf w r acted.2 } := by
  simp only [link, onRight, acksOf_append]

/-- Nothing is owed to a reader that the writer does not have. -/
lemma Sound.owed_eq_nil (h : σ.Sound) (hn : σ.left.proxy? w r = none) : σ.owed = [] :=
  h.grounded.idle hn

/-- A writer that has done nothing for the reader leaves the link as it is. -/
lemma Sound.link_rest (h : σ.Sound) {acted : Node × List Dispatch}
    (hp : acted.1.proxy? w r = σ.left.proxy? w r) (hd : dataOf w r acted.2 = []) :
    (σ.onLeft acted).link = σ.link := by
  rw [link_onLeft, hp, hd]
  cases hn : σ.left.proxy? w r with
  | none => simp [link, hn, h.owed_eq_nil hn]
  | some p => simp [link, hn]

lemma Sound.move_turn (h : σ.Sound) {acted : Node × List Dispatch}
    (ht : Node.WriterTurn w r σ.left acted.1 acted.2) :
    Link.Move σ.link (σ.onLeft acted).link := by
  cases ht with
  | rest hp hd =>
    rw [h.link_rest hp hd]
    exact .step true (.rest _)
  | lost hp hd =>
    rw [link_onLeft, hp, hd]
    simpa [link] using Link.Move.lose σ.link
  | gained b cs hn hp ho hc hd =>
    have hmove : Link.Step b σ.link (σ.link.attach b cs) := .attach σ.link cs hn ho
    rw [link_onLeft, hp, hd, hn, enqueued_numbered]
    exact .step b hmove
  | wrote c hc hlt hp hd =>
    have hmove : Link.Step true σ.link (σ.link.write c) :=
      -- a writer that does not have the reader enqueues nothing for it
      .write σ.link c fun d hd => hc ▸ h.owed d hd
    cases hn : σ.left.proxy? w r with
    | none =>
      rw [h.link_rest (by rw [hp, hn]; rfl) (by rw [hd, hn]; rfl)]
      exact .step true (.rest _)
    | some p =>
      rw [hn] at hp hd
      rw [link_onLeft, hp, hd, hn]
      simp only [Option.map_some, Option.getD_some, Option.isSome_some, if_true, enqueued_next]
      simpa [link, Link.write, hn] using Link.Move.step true hmove
  | resent hp hd =>
    cases hn : σ.left.proxy? w r with
    | none =>
      rw [h.link_rest hp (by rw [hd, hn]; rfl)]
      exact .step true (.rest _)
    | some p =>
      -- what is sent again stands under numbers that were given before
      obtain ⟨k, hk⟩ := h.grounded.proxy p hn
      rw [hn] at hd
      rw [link_onLeft, hp, hd, hn]
      simp only [Option.map_some, Option.getD_some, Option.isSome_some, if_true,
        enqueued_pending hk, List.append_nil]
      simpa [link, Link.resend, hn] using Link.Move.step true (.resend σ.link)

/-- Whatever arrives at the writer has been said by the right participant. -/
lemma Sound.move_arrival (h : σ.Sound) {acted : Node × List Dispatch} {d : Dispatch}
    (hd : d ∈ σ.answered) (ha : Node.WriterArrival w r σ.left acted.1 d acted.2) :
    Link.Move σ.link (σ.onLeft acted).link := by
  cases ha with
  | turn ht => exact h.move_turn ht
  | acknowledged a acked hm hp hout =>
    have hmem : acked ∈ σ.link.acks := by
      subst hm
      exact List.mem_filterMap.mpr ⟨_, hd, by simp⟩
    have hmove := Link.Move.step true (.acknowledge σ.link acked hmem)
    cases hn : σ.left.proxy? w r with
    | none =>
      rw [h.link_rest (by rw [hp, hn]; rfl) hout]
      exact .step true (.rest _)
    | some p =>
      rw [hn] at hp
      rw [link_onLeft, hp, hout, hn]
      simpa [link, Link.acknowledge, hn] using hmove

lemma link_right_rest (σ : Duo w r) {acted : Node × List Dispatch}
    (hp : acted.1.peer? w r = σ.right.peer? w r) (ha : acksOf w r acted.2 = []) :
    (σ.onRight none acted).link = σ.link := by
  rw [link_onRight, hp, ha]
  simp [link]

lemma move_reader (σ : Duo w r) {acted : Node × List Dispatch}
    (ht : Node.ReaderTurn w r σ.right acted.1) (ha : acksOf w r acted.2 = []) :
    Link.Move σ.link (σ.onRight none acted).link := by
  cases ht with
  | rest hp =>
    rw [σ.link_right_rest hp ha]
    exact .step true (.rest _)
  | lost hp =>
    rw [link_onRight, hp, ha]
    simpa [link] using Link.Move.leave σ.link
  | gained b hn hp =>
    rw [link_onRight, hp, ha]
    simpa [link, Link.enrol] using Link.Move.step b (.enrol σ.link hn)

lemma link_offered (σ : Duo w r) {acted : Node × List Dispatch} {q : WriterProxy} {n : Nat}
    {c : Change} (hq : σ.right.peer? w r = some q)
    (hp : acted.1.peer? w r = some (if q.Takes n then { q with next := n + 1 } else q))
    (ha : acksOf w r acted.2 = [if q.Takes n then n else q.next - 1]) :
    (σ.onRight (if q.Takes n then some c else none) acted).link = σ.link.offer n c := by
  rw [link_onRight, hp, ha]
  by_cases ht : q.Takes n <;> simp [link, Link.offer, hq, ht]

lemma mem_dataOf {out : List Dispatch} {a : Address} {n : Nat} {c : Change}
    (h : .unicast a (.data w r n c) ∈ out) : (n, c) ∈ dataOf w r out :=
  List.mem_filterMap.mpr ⟨_, h, by simp⟩

/-- Whatever arrives at the reader has been said by the left participant. -/
lemma move_offered (σ : Duo w r) {acted : Node × List Dispatch} {d : Dispatch}
    (hd : d ∈ σ.said) (ha : Node.ReaderArrival w r σ.right acted.1 d acted.2) :
    Link.Move σ.link (σ.onRight (σ.right.accepts w r d) acted).link := by
  cases ha with
  | turn ht ha hc =>
    rw [hc]
    exact σ.move_reader ht ha
  | offered a n c q hm hq hp ha hc =>
    rw [hc, σ.link_offered hq hp ha]
    subst hm
    exact .step true (.offer σ.link n c fun _ _ _ => mem_dataOf hd)

/-- **Whatever happens to two participants, their writer and their reader make one move.** -/
theorem Sound.move (h : σ.Sound) (e : Event) : Link.Move σ.link (σ.step e).link := by
  cases e with
  | left a => exact h.move_turn ((Node.turned_perform h.left a).writer w r)
  | right a =>
    have ht := Node.turned_perform h.right a
    exact σ.move_reader (ht.reader w r) (ht.acks w r)
  | toRight i now =>
    simp only [step]
    cases hd : σ.said[i]? with
    | none => exact .step true (.rest _)
    | some d =>
      exact σ.move_offered (List.mem_of_getElem? hd) ((Node.arrived h.right _ _ d).reader w r)
  | toLeft i now =>
    simp only [step]
    cases hd : σ.answered[i]? with
    | none => exact .step true (.rest _)
    | some d =>
      exact h.move_arrival (List.mem_of_getElem? hd) ((Node.arrived h.left _ _ d).writer w r)

/-! ### What always holds -/

lemma mem_enqueued {p : Option ReaderProxy} {data : List (Nat × Change)} {c : Change}
    (h : c ∈ enqueued p data) : ∃ n, (n, c) ∈ data := by
  obtain ⟨⟨n, c'⟩, he, rfl⟩ := List.mem_map.mp h
  exact ⟨n, (List.mem_filter.mp he).1⟩

lemma Sound.onLeft (h : σ.Sound) {acted : Node × List Dispatch} (hwf : acted.1.Wf)
    (hmove : Link.Move σ.link (σ.onLeft acted).link) (hnext : σ.left.nextOf w ≤ acted.1.nextOf w)
    (hdata : ∀ e ∈ dataOf w r acted.2, e.2.sequence < acted.1.nextOf w) :
    (σ.onLeft acted).Sound := by
  refine ⟨hwf, h.right, h.grounded.move hmove, fun c hc => ?_, fun e he => ?_,
    fun c hc => Nat.lt_of_lt_of_le (h.taken c hc) hnext⟩
  · simp only [Duo.onLeft] at hc
    split_ifs at hc
    · rcases List.mem_append.mp hc with hc | hc
      · exact Nat.lt_of_lt_of_le (h.owed c hc) hnext
      · obtain ⟨n, hn⟩ := mem_enqueued hc
        exact hdata _ hn
    · simp at hc
  · simp only [Duo.onLeft, dataOf_append] at he
    rcases List.mem_append.mp he with he | he
    · exact Nat.lt_of_lt_of_le (h.sent e he) hnext
    · exact hdata e he

/-- Whatever a writer sends is one of its earlier changes. -/
lemma Sound.sequence_turn (h : σ.Sound) {acted : Node × List Dispatch}
    (hnext : σ.left.nextOf w ≤ acted.1.nextOf w)
    (ht : Node.WriterTurn w r σ.left acted.1 acted.2) :
    ∀ e ∈ dataOf w r acted.2, e.2.sequence < acted.1.nextOf w := by
  intro e he
  cases ht with
  | rest hp hd => simp [hd] at he
  | lost hp hd => simp [hd] at he
  | gained b cs hn hp ho hc hd =>
    obtain ⟨n, c⟩ := e
    obtain ⟨-, hget⟩ := mem_numbered.mp (hd ▸ he)
    exact hc c (List.mem_of_getElem? hget)
  | wrote c hc hlt hp hd =>
    cases hn : σ.left.proxy? w r with
    | none => simp [hd, hn] at he
    | some p =>
      simp only [hd, hn, Option.map_some, Option.getD_some, List.mem_singleton] at he
      subst he
      exact hc ▸ hlt
  | resent hp hd =>
    cases hn : σ.left.proxy? w r with
    | none => simp [hd, hn] at he
    | some p =>
      obtain ⟨k, hk⟩ := h.grounded.proxy p hn
      simp only [hd, hn, Option.map_some, Option.getD_some] at he
      obtain ⟨n, c⟩ := e
      obtain ⟨-, hget⟩ := mem_numbered.mp (hk.pending_subset he)
      exact Nat.lt_of_lt_of_le (h.owed c (List.mem_of_getElem? hget)) hnext

lemma mem_of_accepts {n : Node} {d : Dispatch} {c : Change} (h : n.accepts w r d = some c) :
    ∃ a number, d = .unicast a (.data w r number c) := by
  unfold Node.accepts at h
  split at h
  · next a w' r' number c' =>
    split_ifs at h with hc
    obtain rfl := Option.some.inj h
    obtain ⟨rfl, rfl, -⟩ := hc
    exact ⟨a, number, rfl⟩
  · simp at h

/-- Every event keeps two participants in order. -/
theorem Sound.step (h : σ.Sound) (e : Event) : (σ.step e).Sound := by
  have hmove := h.move e
  cases e with
  | left a =>
    have ht := Node.turned_perform h.left a
    exact h.onLeft ht.wf hmove (ht.next w) (h.sequence_turn (ht.next w) (ht.writer w r))
  | right a =>
    have ht := Node.turned_perform h.right a
    exact ⟨h.left, ht.wf, h.grounded.move hmove, h.owed, h.sent, by
      simpa [Duo.step, Duo.onRight] using h.taken⟩
  | toRight i now =>
    simp only [Duo.step] at hmove ⊢
    cases hd : σ.said[i]? with
    | none => exact h
    | some d =>
      rw [hd] at hmove
      refine ⟨h.left, (Node.arrived h.right _ _ d).wf, h.grounded.move hmove, h.owed, h.sent,
        fun c hc => ?_⟩
      -- what the reader accepts came in a message, and every message was said before
      rcases List.mem_append.mp hc with hc | hc
      · exact h.taken c hc
      · obtain ⟨a, n, rfl⟩ := mem_of_accepts (Option.mem_toList.mp hc)
        exact h.sent _ (mem_dataOf (List.mem_of_getElem? hd))
  | toLeft i now =>
    simp only [Duo.step] at hmove ⊢
    cases hd : σ.answered[i]? with
    | none => exact h
    | some d =>
      rw [hd] at hmove
      have ha := Node.arrived h.left now (World.here σ.right.dataPort) d
      refine h.onLeft ha.wf hmove (ha.next w) ?_
      cases ha.writer w r with
      | turn ht => exact h.sequence_turn (ha.next w) ht
      | acknowledged a acked hm hp hout => simp [hout]

lemma Sound.run (h : σ.Sound) (es : List Event) : (σ.run es).Sound := by
  induction es generalizing σ with
  | nil => exact h
  | cons e es ih => exact ih (h.step e)

theorem Reachable.sound (h : Reachable σ) : σ.Sound := by
  induction h with
  | start id id' domain domain' name name' port port' t t' =>
    exact ⟨Node.wf_new .., Node.wf_new .., Link.grounded_fresh, by simp, by simp, by simp⟩
  | step _ e ih => exact ih.step e

/-! ### Staying together -/

lemma run_append (σ : Duo w r) (es es' : List Event) :
    σ.run (es ++ es') = (σ.run es).run es' := List.foldl_append

lemma Reachable.run (h : Reachable σ) (es : List Event) : Reachable (σ.run es) := by
  induction es generalizing σ with
  | nil => exact h
  | cons e es ih => exact ih (h.step e)

lemma Together.paired {es : List Event} (h : σ.Together es) : (σ.run es).Paired := by
  induction es generalizing σ with
  | nil => exact h
  | cons e es ih => exact ih h.2

lemma Together.snoc {es : List Event} (h : σ.Together es) {e : Event}
    (he : ((σ.run es).step e).Paired) : σ.Together (es ++ [e]) := by
  induction es generalizing σ with
  | nil => exact ⟨h, he⟩
  | cons e' es ih => exact ⟨h.1, ih h.2 he⟩

/-- Two that keep each other stay aligned. -/
lemma Sound.aligned_run (h : σ.Sound) {q : WriterProxy} (hq : σ.link.peer = some q)
    (ha : Link.Aligned q σ.link) {es : List Event} (hes : σ.Together es) :
    ∃ q', Link.Aligned q' (σ.run es).link := by
  induction es generalizing σ q with
  | nil => exact ⟨q, ha⟩
  | cons e es ih =>
    have hp : (σ.step e).Paired := by
      cases es with
      | nil => exact hes.2
      | cons e' es => exact hes.2.1
    obtain ⟨q', hq', ha'⟩ := ha.move h.grounded hes.1.joined hq (h.move e) hp.joined
    exact ih (h.step e) hq' ha' hes.2

/-! ### What can always happen next -/

lemma of_mem_dataOf {out : List Dispatch} {n : Nat} {c : Change} (h : (n, c) ∈ dataOf w r out) :
    ∃ a, .unicast a (.data w r n c) ∈ out := by
  obtain ⟨d, hd, hsome⟩ := List.mem_filterMap.mp h
  split at hsome
  · next a w' r' n' c' =>
    split_ifs at hsome with hpair
    obtain ⟨rfl, rfl⟩ := hpair
    obtain ⟨rfl, rfl⟩ := Prod.mk.inj (Option.some.inj hsome)
    exact ⟨a, hd⟩
  · simp at hsome

lemma of_mem_acksOf {out : List Dispatch} {acked : Nat} (h : acked ∈ acksOf w r out) :
    ∃ a, .unicast a (.ackNack r w acked) ∈ out := by
  obtain ⟨d, hd, hsome⟩ := List.mem_filterMap.mp h
  split at hsome
  · next a r' w' acked' =>
    split_ifs at hsome with hpair
    obtain ⟨rfl, rfl⟩ := hpair
    obtain rfl := Option.some.inj hsome
    exact ⟨a, hd⟩
  · simp at hsome

/-- Whatever was sent may arrive. -/
lemma Paired.offer (h : σ.Paired) {n : Nat} {c : Change} (hc : (n, c) ∈ σ.link.sent) :
    ∃ e, (σ.step e).Paired ∧ (σ.step e).link = σ.link.offer n c := by
  obtain ⟨hleft, q, hq, hb⟩ := h
  obtain ⟨a, ha⟩ := of_mem_dataOf hc
  obtain ⟨i, hi⟩ := List.mem_iff_getElem?.mp ha
  obtain ⟨hq', hacks, haccepts⟩ := hq.receive (World.here σ.left.dataPort) a n c
  refine ⟨.toRight i 0, ?_⟩
  simp only [Duo.step, hi, Node.arrive, hq.1, if_true, haccepts]
  refine ⟨⟨hleft, _, hq', ?_⟩, σ.link_offered hq.peer hq'.peer hacks⟩
  split_ifs <;> exact hb

/-- Whatever was answered may arrive. -/
lemma Paired.acknowledge (h : σ.Paired) {acked : Nat} (ha : acked ∈ σ.link.acks) :
    ∃ e, (σ.step e).Paired ∧ (σ.step e).link = σ.link.acknowledge acked := by
  obtain ⟨⟨p, hp, hb⟩, hright⟩ := h
  obtain ⟨a, ha⟩ := of_mem_acksOf ha
  obtain ⟨i, hi⟩ := List.mem_iff_getElem?.mp ha
  have hp' := hp.receive (World.here σ.right.dataPort) acked
  refine ⟨.toLeft i 0, ?_⟩
  simp only [Duo.step, hi, Node.arrive, hp.1, if_true]
  refine ⟨⟨⟨_, hp', hb⟩, hright⟩, ?_⟩
  rw [link_onLeft, hp'.proxy, hp.proxy, Node.out_receive_ackNack]
  simp [link, Link.acknowledge, hp.proxy]

/-- The writer may always make a change that nobody has accepted yet. -/
lemma Paired.write (h : σ.Paired) (hs : σ.Sound) :
    ∃ c, c ∉ σ.link.taken ∧ ∃ e, (σ.step e).Paired ∧ (σ.step e).link = σ.link.write c := by
  obtain ⟨⟨p, hp, hb⟩, hright⟩ := h
  obtain ⟨c, hc, hp', hdata⟩ := hp.dispose hs.left default
  refine ⟨c, fun hmem => ?_, .left (.submit w (.disposal default 0)), ⟨⟨_, hp', hb⟩, hright⟩, ?_⟩
  · have := hs.taken c hmem
    omega
  · simp only [Duo.step]
    rw [link_onLeft, hp'.proxy, hp.proxy, hdata, enqueued_next]
    simp [link, Link.write, hp.proxy]

/-- Whatever two that keep each other may come to. -/
lemma Sound.closed (h : σ.Sound) :
    Link.Closed fun l => ∃ es, σ.Together es ∧ (σ.run es).link = l := by
  have hsound : ∀ es, (σ.run es).Sound := fun es => h.run es
  have hsnoc : ∀ {es : List Event} {e : Event} {l : Link}, σ.Together es →
      ((σ.run es).step e).Paired → ((σ.run es).step e).link = l →
      ∃ es', σ.Together es' ∧ (σ.run es').link = l := fun {es e l} hes hp hl =>
    ⟨es ++ [e], hes.snoc hp, by rw [run_append]; exact hl⟩
  refine ⟨?_, ?_, ?_, ?_, ?_⟩
  · rintro _ ⟨es, -, rfl⟩
    exact (hsound es).grounded
  · rintro _ ⟨es, hes, rfl⟩
    exact hes.paired.joined
  · rintro _ n c ⟨es, hes, rfl⟩ hc
    obtain ⟨e, hp, hl⟩ := hes.paired.offer hc
    exact hsnoc hes hp hl
  · rintro _ a ⟨es, hes, rfl⟩ ha
    obtain ⟨e, hp, hl⟩ := hes.paired.acknowledge ha
    exact hsnoc hes hp hl
  · rintro _ ⟨es, hes, rfl⟩
    obtain ⟨c, hc, e, hp, hl⟩ := hes.paired.write (hsound es)
    exact ⟨c, hc, hsnoc hes hp hl⟩

/-- **When an acknowledgment can be trusted.** Two participants have come to have each other,
however often either one has lost the other one before. As long as both keep each other, nothing
pending means that the reader has accepted every change that the writer has enqueued for it
since it has last matched it, exactly if the reader, its answers and what is on its way to it
fit the numbering of the writer now. -/
theorem settled_iff_aligned (h : Reachable σ) (hp : σ.Paired) :
    (∀ es, σ.Together es → (σ.run es).link.Settled) ↔
      ∃ q, σ.right.peer? w r = some q ∧ Link.Aligned q σ.link := by
  constructor
  · intro hset
    obtain ⟨-, q, hq, -⟩ := hp.joined
    refine ⟨q, hq, h.sound.closed.aligned ?_ ⟨[], hp, rfl⟩ hq⟩
    rintro _ ⟨es, hes, rfl⟩
    exact hset es hes
  · rintro ⟨q, hq, ha⟩ es hes
    obtain ⟨q', ha'⟩ := h.sound.aligned_run hq ha hes
    exact ha'.settled

def newborn : Duo ⟨1, 2⟩ ⟨2, 2⟩ :=
  ⟨.new 1 0 "p" 7400 .default, .new 2 0 "q" 7401 .default, [], [], [], []⟩

def meeting : List Event :=
  [.left (.createGroup .publisher), .right (.createGroup .subscriber),
    .left (.createEndpoint .writer ⟨1, 1⟩ ⟨"t", SampleType.hello.name, 1⟩ .hello .reliable),
    .right (.createEndpoint .reader ⟨2, 1⟩ ⟨"t", SampleType.hello.name, 2⟩ .hello .reliable),
    .toRight 0 0, .toLeft 0 0]

lemma reachable_newborn : Reachable newborn := .start 1 2 0 0 "p" "q" 7400 7401 .default .default

lemma paired_meeting : (newborn.run meeting).Paired :=
  ⟨⟨_, ⟨rfl, _, rfl, rfl, rfl⟩, rfl⟩, _, ⟨rfl, _, rfl, rfl, rfl⟩, rfl⟩

/-- As long as neither one loses the other one, the acknowledgments can be trusted. -/
theorem settled_iff_aligned_meeting :
    Reachable (newborn.run meeting) ∧ (newborn.run meeting).Paired ∧
      ∀ es, (newborn.run meeting).Together es →
        ((newborn.run meeting).run es).link.Settled := by
  have hlink : (newborn.run meeting).link = (Link.fresh.enrol true).attach true [] := rfl
  have hsound : Link.Sound true (newborn.run meeting).link :=
    hlink ▸ ((Link.sound_fresh true).enrol rfl).attach rfl ordered_nil
  exact ⟨reachable_newborn.run meeting, paired_meeting,
    (settled_iff_aligned (reachable_newborn.run meeting) paired_meeting).mpr
      ⟨_, rfl, hsound.aligned rfl⟩⟩

/-- A change is accepted and acknowledged; then nothing is heard of the reader for longer than the
lease, until its participant announces itself again, and another change is made. -/
def parting : List Event :=
  [.left (.submit ⟨1, 2⟩ (.sample (.hello ⟨1, "a"⟩))), .toRight 1 0, .toLeft 1 0,
    .left (.expire 10000000001), .right .announce, .toLeft 2 10000000001,
    .left (.submit ⟨1, 2⟩ (.sample (.hello ⟨1, "b"⟩))), .toRight 2 10000000001,
    .toLeft 3 10000000001]

/-- The reader takes the second change for the first one, and acknowledges it. -/
theorem not_settled_parting :
    Reachable ((newborn.run meeting).run parting) ∧ ((newborn.run meeting).run parting).Paired ∧
      ¬((newborn.run meeting).run parting).link.Settled := by
  refine ⟨(reachable_newborn.run meeting).run parting,
    ⟨⟨_, ⟨rfl, _, rfl, rfl, rfl⟩, rfl⟩, _, ⟨rfl, _, rfl, rfl, rfl⟩, rfl⟩, fun hset => ?_⟩
  obtain ⟨c, hc⟩ : ∃ c, ((newborn.run meeting).run parting).link.owed = [c] := ⟨_, rfl⟩
  have htaken : ((newborn.run meeting).run parting).link.taken.map (·.sequence) = [1] := rfl
  have howed : ((newborn.run meeting).run parting).link.owed.map (·.sequence) = [2] := rfl
  have hmem := hset _ rfl rfl c (by simp [hc])
  have hone := List.mem_map_of_mem (f := (·.sequence)) hmem
  rw [hc] at howed
  rw [htaken] at hone
  simp_all

end Duo

end PubSub.Udp
