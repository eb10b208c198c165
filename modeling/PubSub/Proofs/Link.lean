import PubSub.History.Net
import PubSub.Proofs.History.Reader
import PubSub.Proofs.History.Writer

/-!
One writer and one of its readers, with everything that was ever sent between them. Any of it
may arrive, in any order and as often as it likes, so a network that loses, repeats, delays and
reorders is nothing but a choice of the next move. What holds after every move as long as the
two are never parted is settled here, for a reliable pair and for any other.
-/

namespace PubSub

/-- What the two sides keep of each other, the changes enqueued for the reader and the changes
that it has taken, and the numbered changes and acknowledgments ever sent. -/
structure Link where
  proxy : Option ReaderProxy
  peer : Option WriterProxy
  owed : List Change
  taken : List Change
  sent : List (Nat × Change)
  acks : List Nat

namespace Link

/-! ### Moves -/

def write (l : Link) (c : Change) : Link :=
  match l.proxy with
  | some p =>
    { l with
      proxy := some (p.enqueue c)
      owed := l.owed ++ [c]
      sent := l.sent ++ [(p.next, c)] }
  | none => l

/-- The writer adds the reader, and sends it the changes `cs` first. -/
def attach (b : Bool) (cs : List Change) (l : Link) : Link :=
  { l with
    proxy := some (.replayed b cs)
    owed := l.owed ++ cs
    sent := l.sent ++ numbered 1 cs }

def enrol (b : Bool) (l : Link) : Link := { l with peer := some ⟨b, 1⟩ }

def resend (l : Link) : Link :=
  { l with sent := l.sent ++ (l.proxy.map (·.pending)).getD [] }

def offer (l : Link) (n : Nat) (c : Change) : Link :=
  match l.peer with
  | some q =>
    if q.Takes n then
      { l with
        peer := some { q with next := n + 1 }
        taken := l.taken ++ [c]
        acks := l.acks ++ [n] }
    else { l with acks := l.acks ++ [q.next - 1] }
  | none => l

/-- A change arrives at a reader that does not have the writer. -/
def disown (l : Link) : Link := { l with acks := l.acks ++ [0] }

def acknowledge (l : Link) (a : Nat) : Link :=
  { l with proxy := l.proxy.map (·.acknowledge a) }

/-- What can happen between a writer and a reader that are never parted; `b` tells whether both
are reliable. What the reader does not take may come from anywhere. -/
inductive Step (b : Bool) : Link → Link → Prop
  | rest (l : Link) : Step b l l
  | write (l : Link) (c : Change) (h : ∀ d ∈ l.owed, d.sequence < c.sequence) :
    Step b l (l.write c)
  | attach (l : Link) (cs : List Change) (h : l.proxy = none) (hcs : Ordered cs) :
    Step b l (l.attach b cs)
  | enrol (l : Link) (h : l.peer = none) : Step b l (l.enrol b)
  | resend (l : Link) : Step b l l.resend
  | offer (l : Link) (n : Nat) (c : Change)
      (h : ∀ q, l.peer = some q → q.Takes n → (n, c) ∈ l.sent) : Step b l (l.offer n c)
  | disown (l : Link) (h : l.peer = none) : Step b l l.disown
  | acknowledge (l : Link) (a : Nat) (h : a ∈ l.acks) : Step b l (l.acknowledge a)

/-! ### The invariant -/

/-- What the reader has taken, seen from the number that it expects next: without a gap if the
pair is reliable, in order in any case. -/
structure Follows (b : Bool) (q : WriterProxy) (owed taken : List Change) : Prop where
  reliable : q.reliable = b
  pos : 1 ≤ q.next
  le : q.next ≤ owed.length + 1
  sublist : taken.Sublist (owed.take (q.next - 1))
  exact : b = true → taken = owed.take (q.next - 1)

/-- Writer, reader and everything on the way agree on one numbering. -/
structure Sound (b : Bool) (l : Link) : Prop where
  idle : l.proxy = none → l.owed = []
  proxy : ∀ p, l.proxy = some p →
    p.reliable = b ∧ ∃ k, p.Keeps l.owed k ∧ (b = true → k ≤ l.taken.length)
  strange : l.peer = none → l.taken = []
  peer : ∀ q, l.peer = some q → Follows b q l.owed l.taken
  sent : ∀ e ∈ l.sent, e ∈ numbered 1 l.owed
  acks : b = true → ∀ a ∈ l.acks, a ≤ l.taken.length
  ordered : Ordered l.owed

variable {b : Bool} {l l' : Link}

lemma numbered_mono {e : Nat × Change} {owed : List Change} (cs : List Change)
    (he : e ∈ numbered 1 owed) : e ∈ numbered 1 (owed ++ cs) := by
  rw [numbered_append]
  exact List.mem_append_left _ he

lemma Follows.grow {q : WriterProxy} {owed taken : List Change} (h : Follows b q owed taken)
    (cs : List Change) : Follows b q (owed ++ cs) taken := by
  have ht : (owed ++ cs).take (q.next - 1) = owed.take (q.next - 1) :=
    List.take_append_of_le_length (by have := h.le; omega)
  exact ⟨h.reliable, h.pos, by have := h.le; simp; omega, ht ▸ h.sublist, ht ▸ h.exact⟩

/-- A change that is taken is the one that was enqueued under its number. -/
lemma Follows.take {q : WriterProxy} {owed taken : List Change} (h : Follows b q owed taken)
    {n : Nat} {c : Change} (ht : q.Takes n) (hc : (n, c) ∈ numbered 1 owed) :
    Follows b { q with next := n + 1 } owed (taken ++ [c]) := by
  obtain ⟨h1, h2⟩ := mem_numbered.mp hc
  obtain ⟨i, rfl⟩ : ∃ i, n = i + 1 := ⟨n - 1, by omega⟩
  simp only [Nat.add_sub_cancel] at h2
  obtain ⟨hi, hget⟩ := List.getElem?_eq_some_iff.mp h2
  have hpos := h.pos
  have hlast : owed.take (i + 1) = owed.take i ++ [c] := by
    rw [List.take_add_one, h2]
    rfl
  refine ⟨h.reliable, by simp, by simp; omega, ?_, fun hb => ?_⟩
  · -- what was taken before lies in front of the new number
    simp only [Nat.add_sub_cancel, hlast]
    have hle : q.next - 1 ≤ i := by have := ht.1; omega
    exact (h.sublist.trans (List.take_sublist_take_left hle)).append_right [c]
  · have hq : q.next = i + 1 := by
      rcases ht.2 with hq | hq
      · exact hq.symm
      · rw [h.reliable, hb] at hq
        simp at hq
    simp only [Nat.add_sub_cancel, hlast]
    rw [h.exact hb, hq]
    simp

lemma Follows.length {q : WriterProxy} {owed taken : List Change} (h : Follows true q owed taken) :
    taken.length = q.next - 1 := by
  have := h.le
  rw [h.exact rfl, List.length_take]
  omega

/-! ### The invariant is kept -/

lemma Sound.write (h : Sound b l) {c : Change} (hc : ∀ d ∈ l.owed, d.sequence < c.sequence) :
    Sound b (l.write c) := by
  unfold Link.write
  cases hp : l.proxy with
  | none => exact h
  | some p =>
    obtain ⟨hb, k, hk, hle⟩ := h.proxy p hp
    refine ⟨by simp, fun p' hp' => ?_, h.strange, fun q hq => (h.peer q hq).grow [c],
      fun e he => ?_, h.acks, h.ordered.snoc hc⟩
    · obtain rfl := Option.some.inj hp'
      exact ⟨hb, k, hk.enqueue c, hle⟩
    · rcases List.mem_append.mp he with he | he
      · exact numbered_mono _ (h.sent e he)
      · obtain rfl := List.mem_singleton.mp he
        rw [numbered_append, hk.next]
        exact List.mem_append_right _ (by simp [numbered, Nat.add_comm])

lemma Sound.attach (h : Sound b l) (hn : l.proxy = none) {cs : List Change} (hcs : Ordered cs) :
    Sound b (l.attach b cs) := by
  have howed : (l.attach b cs).owed = cs := by simp [Link.attach, h.idle hn]
  refine ⟨by simp [Link.attach], fun p hp => ?_, h.strange, fun q hq => (h.peer q hq).grow cs,
    fun e he => ?_, h.acks, by rw [howed]; exact hcs⟩
  · obtain rfl := Option.some.inj hp
    rw [howed]
    exact ⟨by simp, 0, ReaderProxy.keeps_replayed b cs, fun _ => Nat.zero_le _⟩
  · rcases List.mem_append.mp he with he | he
    · exact numbered_mono _ (h.sent e he)
    · rwa [howed]

lemma Sound.enrol (h : Sound b l) (hn : l.peer = none) : Sound b (l.enrol b) := by
  refine ⟨h.idle, h.proxy, by simp [Link.enrol], fun q hq => ?_, h.sent, h.acks, h.ordered⟩
  obtain rfl := Option.some.inj hq
  have htaken := h.strange hn
  exact ⟨rfl, Nat.le_refl _, by simp, by simp [Link.enrol, htaken], by simp [Link.enrol, htaken]⟩

lemma Sound.resend (h : Sound b l) : Sound b l.resend := by
  refine ⟨h.idle, h.proxy, h.strange, h.peer, fun e he => ?_, h.acks, h.ordered⟩
  rcases List.mem_append.mp he with he | he
  · exact h.sent e he
  · cases hp : l.proxy with
    | none => simp [hp] at he
    | some p =>
      obtain ⟨-, k, hk, -⟩ := h.proxy p hp
      simp only [hp, Option.map_some, Option.getD_some] at he
      exact hk.pending_subset he

lemma Sound.offer (h : Sound b l) {n : Nat} {c : Change}
    (hc : ∀ q, l.peer = some q → q.Takes n → (n, c) ∈ l.sent) : Sound b (l.offer n c) := by
  unfold Link.offer
  cases hq : l.peer with
  | none => exact h
  | some q =>
    have hf := h.peer q hq
    simp only
    split_ifs with ht
    · -- taken: everything up to that number has been taken now
      have hf' := hf.take ht (h.sent _ (hc q hq ht))
      refine ⟨h.idle, fun p hp => ?_, by simp, fun q' hq' => ?_, h.sent, fun hb a ha => ?_,
        h.ordered⟩
      · obtain ⟨hb, k, hk, hle⟩ := h.proxy p hp
        exact ⟨hb, k, hk, fun hb => by have := hle hb; simp; omega⟩
      · obtain rfl := Option.some.inj hq'
        exact hf'
      · subst hb
        have hlen := hf'.length
        rcases List.mem_append.mp ha with ha | ha
        · have := h.acks rfl a ha
          simp
          omega
        · obtain rfl := List.mem_singleton.mp ha
          exact Nat.le_of_eq hlen.symm
    · -- passed over: the answer is the number before the one expected
      refine ⟨h.idle, h.proxy, by simp, fun q' hq' => ?_, h.sent, fun hb a ha => ?_,
        h.ordered⟩
      · obtain rfl := Option.some.inj hq'
        exact hf
      · subst hb
        rcases List.mem_append.mp ha with ha | ha
        · exact h.acks rfl a ha
        · obtain rfl := List.mem_singleton.mp ha
          exact Nat.le_of_eq hf.length.symm

lemma Sound.disown (h : Sound b l) : Sound b l.disown := by
  refine ⟨h.idle, h.proxy, h.strange, h.peer, h.sent, fun hb a ha => ?_, h.ordered⟩
  rcases List.mem_append.mp ha with ha | ha
  · exact h.acks hb a ha
  · obtain rfl := List.mem_singleton.mp ha
    exact Nat.zero_le _

lemma Sound.acknowledge (h : Sound b l) {a : Nat} (ha : b = true → a ≤ l.taken.length) :
    Sound b (l.acknowledge a) := by
  refine ⟨fun hn => h.idle (by simpa [Link.acknowledge] using hn), fun p hp => ?_, h.strange,
    h.peer, h.sent, h.acks, h.ordered⟩
  obtain ⟨p', hp', rfl⟩ := Option.map_eq_some_iff.mp hp
  obtain ⟨hb, k, hk, hle⟩ := h.proxy p' hp'
  refine ⟨hb, _, hk.acknowledge a, fun hb => ?_⟩
  have h1 := hle hb
  have h2 := ha hb
  show max k (min a l.owed.length) ≤ l.taken.length
  omega

/-- Every move keeps both sides in agreement. -/
theorem Sound.step (h : Sound b l) (hs : Step b l l') : Sound b l' := by
  cases hs with
  | rest => exact h
  | write c hc => exact h.write hc
  | attach cs hn hcs => exact h.attach hn hcs
  | enrol hn => exact h.enrol hn
  | resend => exact h.resend
  | offer n c hc => exact h.offer hc
  | disown => exact h.disown
  | acknowledge a ha => exact h.acknowledge fun hb => h.acks hb a ha

def fresh : Link := ⟨none, none, [], [], [], []⟩

lemma sound_fresh (b : Bool) : Sound b fresh :=
  ⟨fun _ => rfl, by simp [fresh], fun _ => rfl, by simp [fresh], by simp [fresh], by simp [fresh],
    ordered_nil⟩

/-! ### What the invariant says -/

lemma Sound.taken_sublist (h : Sound b l) : l.taken.Sublist l.owed := by
  cases hq : l.peer with
  | none => simp [h.strange hq]
  | some q => exact (h.peer q hq).sublist.trans (List.take_sublist _ _)

lemma Sound.taken_prefix (h : Sound true l) : l.taken <+: l.owed := by
  cases hq : l.peer with
  | none => simp [h.strange hq]
  | some q =>
    rw [(h.peer q hq).exact rfl]
    exact List.take_prefix _ _

/-- The changes for a reliable proxy: those the reader has taken, and those that wait. -/
lemma Sound.numbered_subset (h : Sound true l) {p : ReaderProxy} (hp : l.proxy = some p)
    {e : Nat × Change} (he : e ∈ numbered 1 l.owed) :
    e ∈ p.pending ∨ e ∈ numbered 1 l.taken := by
  obtain ⟨hb, k, hk, hle⟩ := h.proxy p hp
  have hsplit : numbered 1 l.owed = numbered 1 (l.owed.take k) ++ p.pending := by
    rw [hk.pending, if_pos hb, Nat.add_comm k 1]
    conv_lhs => rw [← List.take_append_drop k l.owed, numbered_append, List.length_take,
      Nat.min_eq_left hk.le]
  rcases List.mem_append.mp (hsplit ▸ he) with he | he
  · -- the acknowledged part lies within what was taken
    obtain ⟨cs, hcs⟩ := h.taken_prefix
    have htake : l.owed.take k = l.taken.take k := by
      rw [← hcs, List.take_append_of_le_length (hle rfl)]
    have hmem := numbered_mono (l.taken.drop k) (htake ▸ he)
    rw [List.take_append_drop] at hmem
    exact .inr hmem
  · exact .inl he

lemma Sound.settled (h : Sound true l) {p : ReaderProxy} (hp : l.proxy = some p) {c : Change}
    (hc : c ∈ l.owed) : c ∈ p.pending.map (·.2) ∨ c ∈ l.taken := by
  rw [← map_snd_numbered 1 l.owed] at hc
  obtain ⟨e, he, rfl⟩ := List.mem_map.mp hc
  rcases h.numbered_subset hp he with he | he
  · exact .inl (List.mem_map_of_mem he)
  · rw [← map_snd_numbered 1 l.taken]
    exact .inr (List.mem_map_of_mem he)

end Link

/-! ### Links within a net -/

/-- What a writer has sent to a reader, of a list of changes on their way. -/
def carried (w r : Guid) (fs : List Flight) : List (Nat × Change) :=
  fs.filterMap fun f =>
    if f.writer = w ∧ f.out.reader = r then some (f.out.number, f.out.change) else none

lemma carried_append (w r : Guid) (xs ys : List Flight) :
    carried w r (xs ++ ys) = carried w r xs ++ carried w r ys := List.filterMap_append

lemma carried_single (w r : Guid) (f : Flight) :
    carried w r [f] =
      if f.writer = w ∧ f.out.reader = r then [(f.out.number, f.out.change)] else [] := by
  unfold carried
  by_cases h : f.writer = w ∧ f.out.reader = r <;> simp [h]

lemma carried_from (g w r : Guid) (out : List Outgoing) :
    carried w r (out.map fun o => ⟨g, o⟩) = if g = w then addressed r out else [] := by
  unfold carried addressed
  rw [List.filterMap_map]
  by_cases h : g = w <;> simp [h]

lemma mem_carried {w r : Guid} {f : Flight} {fs : List Flight} (hf : f ∈ fs) (hw : f.writer = w)
    (hr : f.out.reader = r) : (f.out.number, f.out.change) ∈ carried w r fs :=
  List.mem_filterMap.mpr ⟨f, hf, by simp [hw, hr]⟩

lemma carried_subset {w r : Guid} {xs ys : List Flight} (h : ∀ f ∈ xs, f ∈ ys)
    {e : Nat × Change} (he : e ∈ carried w r xs) : e ∈ carried w r ys := by
  obtain ⟨f, hf, hfe⟩ := List.mem_filterMap.mp he
  exact List.mem_filterMap.mpr ⟨f, h f hf, hfe⟩

end PubSub
