import PubSub.Proofs.Link

/-!
A writer and a reader of which one may have matched the other anew while the other one has not.
Their numberings then start at different moments, and the answers of the reader count changes
that the writer never numbered. When the writer, from some state on, can be misled into taking a
change for accepted is settled here, exactly: what the reader expects, what is on its way to it
and what it has answered have to fit the numbering of the writer.
-/

namespace PubSub.Link

variable {l l' : Link} {p : ReaderProxy} {q : WriterProxy}

/-- Once nothing is pending, the reader has taken everything. -/
def Settled (l : Link) : Prop :=
  ∀ p, l.proxy = some p → p.pending = [] → ∀ c ∈ l.owed, c ∈ l.taken

/-- Both have each other, as reliable ones. -/
def Joined (l : Link) : Prop :=
  (∃ p, l.proxy = some p ∧ p.reliable = true) ∧ ∃ q, l.peer = some q ∧ q.reliable = true

/-- What holds however often the two have been parted: the writer has numbered the changes of
its latest match and sent all of them. -/
structure Grounded (l : Link) : Prop where
  idle : l.proxy = none → l.owed = []
  proxy : ∀ p, l.proxy = some p → ∃ k, p.Keeps l.owed k
  pos : ∀ q, l.peer = some q → 1 ≤ q.next
  sent : ∀ e ∈ numbered 1 l.owed, e ∈ l.sent
  ordered : Ordered l.owed

/-- What the reader expects, what it has answered, and what is on its way to it under numbers
that are still ahead, all fit the numbering of the writer. -/
structure Aligned (q : WriterProxy) (l : Link) : Prop where
  reach : q.next ≤ l.owed.length + 1
  below : ∀ c ∈ l.owed.take (q.next - 1), c ∈ l.taken
  acks : ∀ a ∈ l.acks, a ≤ l.owed.length ∧ (a = l.owed.length → ∀ c ∈ l.owed, c ∈ l.taken)
  ahead : ∀ n c, (n, c) ∈ l.sent → q.next ≤ n →
    n ≤ l.owed.length ∧ ∀ d, (n, d) ∈ numbered 1 l.owed → d = c ∨ d ∈ l.taken
  settled : l.Settled

lemma Sound.aligned (h : Sound true l) (hq : l.peer = some q) : Aligned q l where
  reach := (h.peer q hq).le
  below c hc := by rwa [(h.peer q hq).exact rfl]
  acks a ha := by
    have hlen := h.taken_sublist.length_le
    have hle := h.acks rfl a ha
    refine ⟨by omega, fun heq c hc => ?_⟩
    rwa [h.taken_sublist.eq_of_length_le (by omega)]
  ahead n c hc hn := by
    obtain ⟨h1, hget⟩ := mem_numbered.mp (h.sent _ hc)
    have hlt := (List.getElem?_eq_some_iff.mp hget).1
    refine ⟨by omega, fun d hd => .inl ?_⟩
    obtain ⟨-, hget'⟩ := mem_numbered.mp hd
    exact Option.some.inj (hget'.symm.trans hget)
  settled p hp hnil c hc := by
    rcases h.settled hp hc with hc | hc
    · simp [hnil] at hc
    · exact hc

/-! ### An aligned pair stays aligned -/

lemma numbered_snoc (owed : List Change) (c : Change) :
    numbered 1 (owed ++ [c]) = numbered 1 owed ++ [(owed.length + 1, c)] := by
  rw [numbered_append, Nat.add_comm 1]
  rfl

lemma Aligned.write (h : Aligned q l) (hg : l.Grounded) (hp : l.proxy = some p)
    (hb : p.reliable = true) (c : Change) : Aligned q (l.write c) := by
  obtain ⟨k, hk⟩ := hg.proxy p hp
  have hlen : (l.owed ++ [c]).length = l.owed.length + 1 := by simp
  simp only [Link.write, hp]
  refine ⟨?_, fun d hd => ?_, fun a ha => ?_, fun n d hd hn => ?_, fun p' hp' hnil => ?_⟩
  · have := h.reach
    simp only [hlen]
    omega
  · rw [List.take_append_of_le_length (by have := h.reach; omega)] at hd
    exact h.below d hd
  · have := (h.acks a ha).1
    simp only [hlen]
    exact ⟨by omega, fun heq => by omega⟩
  · simp only [hlen, numbered_snoc, List.mem_append, List.mem_singleton, Prod.mk.injEq]
    rcases List.mem_append.mp hd with hd | hd
    · obtain ⟨hle, hget⟩ := h.ahead n d hd hn
      refine ⟨by omega, fun d' hd' => ?_⟩
      rcases hd' with hd' | ⟨hn', -⟩
      · exact hget d' hd'
      · omega
    · obtain ⟨rfl, rfl⟩ := Prod.mk.inj (List.mem_singleton.mp hd)
      rw [hk.next]
      refine ⟨Nat.le_refl _, fun d' hd' => ?_⟩
      rcases hd' with hd' | ⟨-, rfl⟩
      · obtain ⟨h1, h2⟩ := mem_numbered.mp hd'
        simp at h2
      · exact .inl rfl
  · -- the new change is pending
    obtain rfl := Option.some.inj hp'
    have heq := ((hk.enqueue c).pending_eq_nil hb).mp hnil
    have := hk.le
    rw [hlen] at heq
    omega

lemma Aligned.resend (h : Aligned q l) (hg : l.Grounded) : Aligned q l.resend := by
  refine ⟨h.reach, h.below, h.acks, fun n c hc hn => ?_, h.settled⟩
  rcases List.mem_append.mp hc with hc | hc
  · exact h.ahead n c hc hn
  · cases hp : l.proxy with
    | none => simp [hp] at hc
    | some p =>
      obtain ⟨k, hk⟩ := hg.proxy p hp
      simp only [hp, Option.map_some, Option.getD_some] at hc
      obtain ⟨h1, h2⟩ := mem_numbered.mp (hk.pending_subset hc)
      have hlt := (List.getElem?_eq_some_iff.mp h2).1
      have hle : n ≤ l.owed.length := by omega
      refine ⟨hle, fun d hd => .inl ?_⟩
      obtain ⟨-, h3⟩ := mem_numbered.mp hd
      exact Option.some.inj (h3.symm.trans h2)

lemma Aligned.offer (h : Aligned q l) (hq : l.peer = some q) (hb : q.reliable = true)
    (hpos : 1 ≤ q.next) {n : Nat} {c : Change} (hc : q.Takes n → (n, c) ∈ l.sent) :
    ∃ q', (l.offer n c).peer = some q' ∧ q'.reliable = true ∧ Aligned q' (l.offer n c) := by
  simp only [Link.offer, hq]
  split_ifs with ht
  · have hn : n = q.next := by
      rcases ht.2 with hn | hn
      · exact hn
      · rw [hb] at hn
        simp at hn
    subst hn
    obtain ⟨hle, hget⟩ := h.ahead q.next c (hc ht) (Nat.le_refl _)
    have hbelow : ∀ d ∈ l.owed.take q.next, d ∈ l.taken ++ [c] := by
      intro d hd
      obtain ⟨i, hi, hid⟩ := List.getElem_of_mem hd
      rw [List.length_take] at hi
      rw [List.getElem_take] at hid
      rcases Nat.lt_or_ge i (q.next - 1) with hlt | hge
      · refine List.mem_append_left _ (h.below d ?_)
        exact List.mem_take_iff_getElem.mpr ⟨i, by omega, hid⟩
      · -- the change that stands under the number itself
        have hmem : (q.next, d) ∈ numbered 1 l.owed :=
          mem_numbered.mpr ⟨hpos, by
            rw [List.getElem?_eq_some_iff]
            exact ⟨by omega, by simpa [show q.next - 1 = i by omega] using hid⟩⟩
        rcases hget d hmem with rfl | hd
        · exact List.mem_append_right _ (List.mem_singleton_self _)
        · exact List.mem_append_left _ hd
    refine ⟨_, rfl, hb, ⟨by simp; omega, by simpa using hbelow, fun a ha => ?_,
      fun m d hd hm => ?_, fun p hp hnil d hd => ?_⟩⟩
    · rcases List.mem_append.mp ha with ha | ha
      · obtain ⟨hle', hall⟩ := h.acks a ha
        exact ⟨hle', fun heq d hd => List.mem_append_left _ (hall heq d hd)⟩
      · obtain rfl := List.mem_singleton.mp ha
        refine ⟨hle, fun heq d hd => hbelow d ?_⟩
        rwa [heq, List.take_length]
    · obtain ⟨hle', hget'⟩ := h.ahead m d hd (by simp only at hm; omega)
      exact ⟨hle', fun e he => (hget' e he).imp_right (List.mem_append_left _)⟩
    · exact List.mem_append_left _ (h.settled p hp hnil d hd)
  · refine ⟨q, rfl, hb, ⟨h.reach, h.below, fun a ha => ?_, h.ahead, h.settled⟩⟩
    rcases List.mem_append.mp ha with ha | ha
    · exact h.acks a ha
    · obtain rfl := List.mem_singleton.mp ha
      have hle : q.next - 1 ≤ l.owed.length := by have := h.reach; omega
      refine ⟨hle, fun heq d hd => h.below d ?_⟩
      rwa [heq, List.take_length]

lemma Aligned.acknowledge (h : Aligned q l) (hg : l.Grounded) (hp : l.proxy = some p)
    (hb : p.reliable = true) {a : Nat} (ha : a ∈ l.acks) : Aligned q (l.acknowledge a) := by
  refine ⟨h.reach, h.below, h.acks, h.ahead, fun p' hp' hnil c hc => ?_⟩
  obtain ⟨k, hk⟩ := hg.proxy p hp
  simp only [Link.acknowledge, hp, Option.map_some, Option.some.injEq] at hp'
  subst hp'
  have heq := ((hk.acknowledge a).pending_eq_nil hb).mp hnil
  obtain ⟨hle, hall⟩ := h.acks a ha
  rcases Nat.lt_or_ge k l.owed.length with hlt | hge
  · exact hall (by omega) c hc
  · have := hk.le
    exact h.settled p hp ((hk.pending_eq_nil hb).mpr (by omega)) c hc

/-- Whatever happens to two that keep each other, they stay aligned. -/
theorem Aligned.step {b : Bool} (h : Aligned q l) (hg : l.Grounded) (hj : l.Joined)
    (hq : l.peer = some q) (hs : Step b l l') : ∃ q', l'.peer = some q' ∧ Aligned q' l' := by
  obtain ⟨⟨p, hp, hb⟩, q', hq', hb'⟩ := hj
  obtain rfl : q' = q := Option.some.inj (hq'.symm.trans hq)
  cases hs with
  | rest => exact ⟨q', hq, h⟩
  | write c hc => exact ⟨q', by simp [Link.write, hp, hq], h.write hg hp hb c⟩
  | attach cs hn hcs => simp [hp] at hn
  | enrol hn => simp [hq] at hn
  | resend => exact ⟨q', hq, h.resend hg⟩
  | offer n c hc =>
    obtain ⟨q'', hq'', -, h'⟩ := h.offer hq hb' (hg.pos q' hq) (hc q' hq)
    exact ⟨q'', hq'', h'⟩
  | disown hn => simp [hq] at hn
  | acknowledge a ha => exact ⟨q', hq, h.acknowledge hg hp hb ha⟩

/-! ### What survives being parted -/

/-- What can happen to two that may also lose each other, each on its own. -/
inductive Move : Link → Link → Prop
  | step {l l' : Link} (b : Bool) (h : Step b l l') : Move l l'
  | lose (l : Link) : Move l { l with proxy := none, owed := [] }
  | leave (l : Link) : Move l { l with peer := none }

/-- Two that keep each other through a move stay aligned. -/
lemma Aligned.move (h : Aligned q l) (hg : l.Grounded) (hj : l.Joined) (hq : l.peer = some q)
    (hm : Move l l') (hj' : l'.Joined) : ∃ q', l'.peer = some q' ∧ Aligned q' l' := by
  cases hm with
  | step b hs => exact h.step hg hj hq hs
  | lose =>
    obtain ⟨⟨p, hp, -⟩, -⟩ := hj'
    simp at hp
  | leave =>
    obtain ⟨-, q', hq', -⟩ := hj'
    simp at hq'

lemma grounded_fresh : Grounded fresh :=
  ⟨fun _ => rfl, by simp [fresh], by simp [fresh], by simp [fresh, numbered], ordered_nil⟩

lemma Grounded.write (h : Grounded l) {c : Change}
    (hc : ∀ d ∈ l.owed, d.sequence < c.sequence) : Grounded (l.write c) := by
  unfold Link.write
  cases hp : l.proxy with
  | none => exact h
  | some p =>
    obtain ⟨k, hk⟩ := h.proxy p hp
    refine ⟨by simp, fun p' hp' => ?_, h.pos, fun e he => ?_, h.ordered.snoc hc⟩
    · obtain rfl := Option.some.inj hp'
      exact ⟨k, hk.enqueue c⟩
    · rw [numbered_snoc] at he
      rcases List.mem_append.mp he with he | he
      · exact List.mem_append_left _ (h.sent e he)
      · exact List.mem_append_right _ (hk.next ▸ he)

lemma Grounded.attach (h : Grounded l) (hn : l.proxy = none) (b : Bool) {cs : List Change}
    (hcs : Ordered cs) : Grounded (l.attach b cs) := by
  have howed : (l.attach b cs).owed = cs := by simp [Link.attach, h.idle hn]
  refine ⟨by simp [Link.attach], fun p hp => ?_, h.pos, fun e he => ?_, by rw [howed]; exact hcs⟩
  · obtain rfl := Option.some.inj hp
    rw [howed]
    exact ⟨0, ReaderProxy.keeps_replayed b cs⟩
  · exact List.mem_append_right _ (howed ▸ he)

lemma Grounded.enrol (h : Grounded l) (b : Bool) : Grounded (l.enrol b) := by
  refine ⟨h.idle, h.proxy, fun q hq => ?_, h.sent, h.ordered⟩
  obtain rfl := Option.some.inj hq
  exact Nat.le_refl _

lemma Grounded.offer (h : Grounded l) (n : Nat) (c : Change) : Grounded (l.offer n c) := by
  unfold Link.offer
  cases hq : l.peer with
  | none => exact h
  | some q =>
    simp only
    split_ifs with ht
    · refine ⟨h.idle, h.proxy, fun q' hq' => ?_, h.sent, h.ordered⟩
      obtain rfl := Option.some.inj hq'
      simp
    · exact ⟨h.idle, h.proxy, fun q' hq' => h.pos q' (hq.trans hq'), h.sent, h.ordered⟩

lemma Grounded.acknowledge (h : Grounded l) (a : Nat) : Grounded (l.acknowledge a) := by
  refine ⟨fun hn => h.idle (by simpa [Link.acknowledge] using hn), fun p hp => ?_, h.pos,
    h.sent, h.ordered⟩
  obtain ⟨p', hp', rfl⟩ := Option.map_eq_some_iff.mp hp
  obtain ⟨k, hk⟩ := h.proxy p' hp'
  exact ⟨_, hk.acknowledge a⟩

/-- However often two lose each other, the writer has sent all that it has numbered. -/
theorem Grounded.move (h : Grounded l) (hm : Move l l') : Grounded l' := by
  cases hm with
  | lose => exact ⟨fun _ => rfl, by simp, h.pos, by simp [numbered], ordered_nil⟩
  | leave => exact ⟨h.idle, h.proxy, by simp, h.sent, h.ordered⟩
  | step b hs =>
    cases hs with
    | rest => exact h
    | write c hc => exact h.write hc
    | attach cs hn hcs => exact h.attach hn b hcs
    | enrol hn => exact h.enrol b
    | resend =>
      exact ⟨h.idle, h.proxy, h.pos, fun e he => List.mem_append_left _ (h.sent e he), h.ordered⟩
    | offer n c hc => exact h.offer n c
    | disown hn => exact ⟨h.idle, h.proxy, h.pos, h.sent, h.ordered⟩
    | acknowledge a ha => exact h.acknowledge a

/-! ### A pair that can never be misled is aligned -/

/-- Links of two that keep each other, among them everything that any one of them can become:
the writer can always make a new change, and whatever was sent may arrive. -/
structure Closed (R : Link → Prop) : Prop where
  grounded : ∀ l, R l → l.Grounded
  joined : ∀ l, R l → l.Joined
  offer : ∀ l n c, R l → (n, c) ∈ l.sent → R (l.offer n c)
  acknowledge : ∀ l a, R l → a ∈ l.acks → R (l.acknowledge a)
  write : ∀ l, R l → ∃ c, c ∉ l.taken ∧ R (l.write c)

variable {R : Link → Prop}

/-- No change stands under two numbers. -/
lemma ordered_index {cs : List Change} (h : Ordered cs) {i j : Nat} {c : Change}
    (hi : cs[i]? = some c) (hj : cs[j]? = some c) : i = j := by
  obtain ⟨hi', rfl⟩ := List.getElem?_eq_some_iff.mp hi
  obtain ⟨hj', hij⟩ := List.getElem?_eq_some_iff.mp hj
  have hlt := List.pairwise_iff_getElem.mp h
  simp only [List.length_map, List.getElem_map] at hlt
  rcases Nat.lt_trichotomy i j with h' | h' | h'
  · have := hlt i j hi' hj' h'
    rw [hij] at this
    omega
  · exact h'
  · have := hlt j i hj' hi' h'
    rw [hij] at this
    omega

/-- A new change is numbered, sent, and not taken yet. -/
lemma Closed.step_write (hR : Closed R) (h : R l) :
    ∃ c, c ∉ l.taken ∧ R (l.write c) ∧ (l.write c).owed = l.owed ++ [c] ∧
      (l.write c).taken = l.taken ∧ (l.write c).acks = l.acks ∧ (l.write c).peer = l.peer ∧
      (∀ e ∈ l.sent, e ∈ (l.write c).sent) ∧ (l.owed.length + 1, c) ∈ (l.write c).sent := by
  obtain ⟨c, hc, hw⟩ := hR.write l h
  obtain ⟨⟨p, hp, -⟩, -⟩ := hR.joined l h
  have howed : (l.write c).owed = l.owed ++ [c] := by simp [Link.write, hp]
  refine ⟨c, hc, hw, howed, by simp [Link.write, hp], by simp [Link.write, hp],
    by simp [Link.write, hp], fun e he => ?_, ?_⟩
  · simp only [Link.write, hp]
    exact List.mem_append_left _ he
  · refine (hR.grounded _ hw).sent _ ?_
    rw [howed, numbered_snoc]
    exact List.mem_append_right _ (List.mem_singleton_self _)

/-- An answer that counts everything means that everything was taken. -/
lemma Closed.taken_of_acks (hR : Closed R) (hset : ∀ l, R l → l.Settled) (h : R l)
    (ha : l.owed.length ∈ l.acks) : ∀ c ∈ l.owed, c ∈ l.taken := by
  obtain ⟨⟨p, hp, hb⟩, -⟩ := hR.joined l h
  obtain ⟨k, hk⟩ := (hR.grounded l h).proxy p hp
  have hle := hk.le
  have hnil : (p.acknowledge l.owed.length).pending = [] :=
    ((hk.acknowledge l.owed.length).pending_eq_nil hb).mpr (by omega)
  have hset' : (l.acknowledge l.owed.length).Settled := hset _ (hR.acknowledge l _ h ha)
  exact hset' _ (by simp [Link.acknowledge, hp]) hnil

/-- No answer counts more than there is: the writer would write until it did. -/
lemma Closed.acks_le (hR : Closed R) (hset : ∀ l, R l → l.Settled) (h : R l) {a : Nat}
    (ha : a ∈ l.acks) : a ≤ l.owed.length := by
  by_contra hlt
  obtain ⟨m, rfl⟩ : ∃ m, a = l.owed.length + 1 + m := ⟨a - l.owed.length - 1, by omega⟩
  clear hlt
  induction m generalizing l with
  | zero =>
    obtain ⟨c, hc, hw, howed, htaken, hacks, -⟩ := hR.step_write h
    refine hc (htaken ▸ hR.taken_of_acks hset hw ?_ c (by simp [howed]))
    simpa [howed, hacks] using ha
  | succ m ih =>
    obtain ⟨c, hc, hw, howed, htaken, hacks, -⟩ := hR.step_write h
    refine ih hw ?_
    rw [howed, hacks, List.length_append, List.length_singleton]
    rwa [show l.owed.length + 1 + 1 + m = l.owed.length + 1 + (m + 1) by omega]

/-- The reader expects no number that the writer has not come to: it would take the next change
for one that it has. -/
lemma Closed.reach (hR : Closed R) (hset : ∀ l, R l → l.Settled) (h : R l)
    (hq : l.peer = some q) : q.next ≤ l.owed.length + 1 := by
  by_contra hlt
  obtain ⟨c, hc, hw, howed, htaken, hacks, hpeer, -, hsent⟩ := hR.step_write h
  have hnot : ¬q.Takes (l.owed.length + 1) := fun ht => by have := ht.1; omega
  have hoffer := hR.offer _ _ c hw hsent
  have hack : q.next - 1 ∈ ((l.write c).offer (l.owed.length + 1) c).acks := by
    simp [Link.offer, hpeer, hq, hnot]
  have howed' : ((l.write c).offer (l.owed.length + 1) c).owed = l.owed ++ [c] := by
    simp [Link.offer, hpeer, hq, hnot, howed]
  have htaken' : ((l.write c).offer (l.owed.length + 1) c).taken = l.taken := by
    simp [Link.offer, hpeer, hq, hnot, htaken]
  have hle := hR.acks_le hset hoffer hack
  rw [howed', List.length_append, List.length_singleton] at hle
  -- so it answers with the number of the new change, which it does not have
  have heq : q.next - 1 = (l.owed ++ [c]).length := by
    simp only [List.length_append, List.length_singleton]
    omega
  have hall := hR.taken_of_acks hset hoffer (by rw [howed', ← heq]; exact hack)
  rw [howed', htaken'] at hall
  exact hc (hall c (by simp))

/-- The reader can be brought forward by what the writer has sent. -/
lemma Closed.advance (hR : Closed R) (h : R l) (hq : l.peer = some q) (m : Nat)
    (hm : q.next - 1 + m ≤ l.owed.length) :
    ∃ l', R l' ∧ l'.owed = l.owed ∧ l'.sent = l.sent ∧
      (∃ q', l'.peer = some q' ∧ q'.next = q.next + m) ∧
      ∀ c ∈ l'.taken, c ∈ l.taken ∨
        ∃ i, q.next - 1 ≤ i ∧ i < q.next - 1 + m ∧ l.owed[i]? = some c := by
  induction m with
  | zero => exact ⟨l, h, rfl, rfl, ⟨q, hq, rfl⟩, fun c hc => .inl hc⟩
  | succ m ih =>
    obtain ⟨l', hl', howed, hsent, ⟨q', hq', hnext⟩, htaken⟩ := ih (by omega)
    have hpos := (hR.grounded l h).pos q hq
    -- the next change has been sent, so it may arrive
    have hi : q.next - 1 + m < l.owed.length := by omega
    have hget : l.owed[q.next - 1 + m]? = some l.owed[q.next - 1 + m] :=
      List.getElem?_eq_getElem hi
    have hmem : (q'.next, l.owed[q.next - 1 + m]) ∈ l'.sent := by
      refine (hR.grounded l' hl').sent _ (mem_numbered.mpr ⟨by omega, ?_⟩)
      rw [howed, show q'.next - 1 = q.next - 1 + m by omega, hget]
    have ht : q'.Takes q'.next := ⟨Nat.le_refl _, .inl rfl⟩
    refine ⟨_, hR.offer l' _ _ hl' hmem, ?_, ?_, ⟨{ q' with next := q'.next + 1 }, ?_, ?_⟩,
      fun c hc => ?_⟩
    · simp [Link.offer, hq', ht, howed]
    · simp [Link.offer, hq', ht, hsent]
    · simp [Link.offer, hq', ht]
    · simp only
      omega
    · simp only [Link.offer, hq', ht, if_true, List.mem_append, List.mem_singleton] at hc
      rcases hc with hc | rfl
      · rcases htaken c hc with hc | ⟨i, h1, h2, h3⟩
        · exact .inl hc
        · exact .inr ⟨i, h1, by omega, h3⟩
      · exact .inr ⟨q.next - 1 + m, by omega, by omega, hget⟩

/-- Whatever the reader has left behind it has taken: it would come to the end without it. -/
lemma Closed.below (hR : Closed R) (hset : ∀ l, R l → l.Settled) (h : R l)
    (hq : l.peer = some q) {i : Nat} (hi : i < q.next - 1) {c : Change}
    (hc : l.owed[i]? = some c) : c ∈ l.taken := by
  have hreach := hR.reach hset h hq
  obtain ⟨hlt, -⟩ := List.getElem?_eq_some_iff.mp hc
  obtain ⟨l', hl', howed, hsent, ⟨q', hq', hnext⟩, htaken⟩ :=
    hR.advance h hq (l.owed.length - (q.next - 1)) (by omega)
  have hend : q'.next = l.owed.length + 1 := by omega
  -- the last change arrives once more
  obtain ⟨d, hd⟩ : ∃ d, l.owed[l.owed.length - 1]? = some d :=
    ⟨_, List.getElem?_eq_getElem (by omega)⟩
  have hmem : (l.owed.length, d) ∈ l'.sent := by
    refine (hR.grounded l' hl').sent _ (mem_numbered.mpr ⟨by omega, ?_⟩)
    rw [howed, hd]
  have hnot : ¬q'.Takes l.owed.length := fun ht => by have := ht.1; omega
  have hoffer := hR.offer l' _ _ hl' hmem
  have howed' : (l'.offer l.owed.length d).owed = l.owed := by
    simp [Link.offer, hq', hnot, howed]
  have hall := hR.taken_of_acks hset hoffer (by
    rw [howed']
    simp [Link.offer, hq', hnot, hend])
  have hmem' := hall c (by rw [howed']; exact List.mem_of_getElem? hc)
  simp only [Link.offer, hq', hnot, if_false] at hmem'
  rcases htaken c hmem' with htaken | ⟨j, h1, -, h3⟩
  · exact htaken
  · have := ordered_index (hR.grounded l h).ordered hc h3
    omega

lemma Closed.ahead_le (hR : Closed R) (hset : ∀ l, R l → l.Settled) (h : R l)
    (hq : l.peer = some q) {n : Nat} {c : Change} (hc : (n, c) ∈ l.sent) (hn : q.next ≤ n) :
    n ≤ l.owed.length := by
  by_contra hlt
  obtain ⟨m, rfl⟩ : ∃ m, n = l.owed.length + 1 + m := ⟨n - l.owed.length - 1, by omega⟩
  clear hlt
  induction m generalizing l with
  | zero =>
    have hpos := (hR.grounded l h).pos q hq
    have hreach := hR.reach hset h hq
    obtain ⟨l', hl', howed, hsent, ⟨q', hq', hnext⟩, -⟩ :=
      hR.advance h hq (l.owed.length - (q.next - 1)) (by omega)
    have ht : q'.Takes (l.owed.length + 1 + 0) := ⟨by omega, .inl (by omega)⟩
    have hoffer := hR.offer l' _ c hl' (hsent ▸ hc)
    have hpeer : (l'.offer (l.owed.length + 1 + 0) c).peer =
        some { q' with next := l.owed.length + 1 + 0 + 1 } := by
      simp only [Link.offer, hq', ht, if_true]
    have hle := hR.reach hset hoffer hpeer
    simp only [Link.offer, hq', ht, if_true, howed] at hle
    omega
  | succ m ih =>
    obtain ⟨d, -, hw, howed, -, -, hpeer, hsub, -⟩ := hR.step_write h
    have hlen : (l.write d).owed.length = l.owed.length + 1 := by simp [howed]
    have heq : l.owed.length + 1 + (m + 1) = (l.write d).owed.length + 1 + m := by omega
    rw [heq] at hc hn
    exact ih hw (hpeer.trans hq) (hsub _ hc) hn

lemma Closed.ahead (hR : Closed R) (hset : ∀ l, R l → l.Settled) (h : R l)
    (hq : l.peer = some q) {n : Nat} {c d : Change} (hc : (n, c) ∈ l.sent) (hn : q.next ≤ n)
    (hd : (n, d) ∈ numbered 1 l.owed) : d = c ∨ d ∈ l.taken := by
  have hpos := (hR.grounded l h).pos q hq
  have hle := hR.ahead_le hset h hq hc hn
  obtain ⟨-, hget⟩ := mem_numbered.mp hd
  obtain ⟨l', hl', howed, hsent, ⟨q', hq', hnext⟩, htaken⟩ :=
    hR.advance h hq (n - 1 - (q.next - 1)) (by omega)
  have ht : q'.Takes n := ⟨by omega, .inl (by omega)⟩
  have hoffer := hR.offer l' _ c hl' (hsent ▸ hc)
  have hpeer : (l'.offer n c).peer = some { q' with next := n + 1 } := by
    simp only [Link.offer, hq', ht, if_true]
  have howed' : (l'.offer n c).owed = l.owed := by
    simp only [Link.offer, hq', ht, if_true, howed]
  -- once the other change has arrived in its place, the reader must have had this one
  have hmem := hR.below hset hoffer hpeer (i := n - 1) (by simp only; omega) (howed' ▸ hget)
  simp only [Link.offer, hq', ht, if_true, List.mem_append, List.mem_singleton] at hmem
  rcases hmem with hmem | hmem
  · rcases htaken d hmem with hmem | ⟨i, -, h2, h3⟩
    · exact .inr hmem
    · have := ordered_index (hR.grounded l h).ordered hget h3
      omega
  · exact .inl hmem

/-- If the writer can never be misled, the pair is aligned. -/
theorem Closed.aligned (hR : Closed R) (hset : ∀ l, R l → l.Settled) (h : R l)
    (hq : l.peer = some q) : Aligned q l where
  reach := hR.reach hset h hq
  below c hc := by
    obtain ⟨i, hi, hic⟩ := List.mem_take_iff_getElem.mp hc
    exact hR.below hset h hq (by omega)
      (List.getElem?_eq_some_iff.mpr ⟨by omega, hic⟩)
  acks a ha := ⟨hR.acks_le hset h ha, fun heq => hR.taken_of_acks hset h (heq ▸ ha)⟩
  ahead n c hc hn := ⟨hR.ahead_le hset h hq hc hn, fun d hd => hR.ahead hset h hq hc hn hd⟩
  settled := hset l h

end PubSub.Link
