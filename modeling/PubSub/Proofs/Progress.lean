import PubSub.Proofs.History.Net
import PubSub.Proofs.Link

/-!
What is left to do between a writer and a reader when leftovers are still in flight: old changes,
changes that come too early, and changes that are there twice. Once a writer has sent again what
is pending, the changes in flight, taken in their order, bring the reader to the last one and the
acknowledgments with it.
-/

namespace PubSub

/-- How far a pair has come: up to where the writer has its changes acknowledged, and the number
that the reader expects next. -/
structure Progress where
  acked : Nat
  next : Nat
deriving DecidableEq

namespace Progress

def arrive (s : Progress) (n : Nat) : Progress :=
  let next := if n = s.next then n + 1 else s.next
  ⟨max s.acked (next - 1), next⟩

def after (s : Progress) (es : List (Nat × Change)) : Progress :=
  es.foldl (fun s e => s.arrive e.1) s

@[simp] lemma after_nil (s : Progress) : s.after [] = s := rfl

@[simp] lemma after_cons (s : Progress) (e : Nat × Change) (es : List (Nat × Change)) :
    s.after (e :: es) = (s.arrive e.1).after es := rfl

lemma after_append (s : Progress) (es es' : List (Nat × Change)) :
    s.after (es ++ es') = (s.after es).after es' := List.foldl_append

/-- Nothing is acknowledged before it is taken, and nothing beyond `last` is taken. -/
def Within (s : Progress) (last : Nat) : Prop := s.acked < s.next ∧ s.next ≤ last + 1

variable {s : Progress} {last : Nat}

lemma Within.arrive (h : s.Within last) {n : Nat} (hn : n ≤ last) : (s.arrive n).Within last := by
  unfold Within Progress.arrive at *
  simp only
  split_ifs <;> omega

lemma acked_le_arrive (s : Progress) (n : Nat) : s.acked ≤ (s.arrive n).acked :=
  Nat.le_max_left _ _

lemma next_le_arrive (s : Progress) (n : Nat) : s.next ≤ (s.arrive n).next := by
  unfold Progress.arrive
  simp only
  split_ifs <;> omega

lemma next_le_after (s : Progress) (es : List (Nat × Change)) : s.next ≤ (s.after es).next := by
  induction es generalizing s with
  | nil => exact Nat.le_refl _
  | cons e es ih => exact Nat.le_trans (s.next_le_arrive e.1) (ih _)

/-- Arrivals never undo anything. -/
lemma Within.after (h : s.Within last) {es : List (Nat × Change)} (hes : ∀ e ∈ es, e.1 ≤ last) :
    (s.after es).Within last ∧ s.acked ≤ (s.after es).acked := by
  induction es generalizing s with
  | nil => exact ⟨h, Nat.le_refl _⟩
  | cons e es ih =>
    obtain ⟨he, hes⟩ := List.forall_mem_cons.mp hes
    obtain ⟨hw, hle⟩ := ih (h.arrive he) hes
    exact ⟨hw, Nat.le_trans (s.acked_le_arrive e.1) hle⟩

/-- Once everything that was not acknowledged has arrived in its order, nothing is missing. -/
lemma Within.after_numbered {k : Nat} {cs : List Change} (h : s.Within (k + cs.length))
    (hk : k ≤ s.acked) :
    s.after (numbered (k + 1) cs) = ⟨k + cs.length, k + cs.length + 1⟩ := by
  induction cs generalizing s k with
  | nil =>
    obtain ⟨acked, next⟩ := s
    have h1 : acked = k := by have := h.1; have := h.2; simp at *; omega
    have h2 : next = k + 1 := by have := h.1; have := h.2; simp at *; omega
    simp [numbered, h1, h2]
  | cons c cs ih =>
    have hlast : k + 1 + cs.length = k + (c :: cs).length := by simp; omega
    have hw : (s.arrive (k + 1)).Within (k + 1 + cs.length) := by
      rw [hlast]
      exact h.arrive (by simp)
    have hacked : k + 1 ≤ (s.arrive (k + 1)).acked := by
      have := h.1
      unfold Progress.arrive
      simp only
      split_ifs <;> omega
    rw [numbered, after_cons, ih hw hacked, hlast]

end Progress

namespace Net

def proxy? (n : Net) (w r : Guid) : Option ReaderProxy := (n.writers.get? w).bind (·.proxies.get? r)

def peer? (n : Net) (w r : Guid) : Option WriterProxy := (n.readers.get? r).bind (·.writers.get? w)

/-- Every change in flight has a writer and a reader in the net. -/
def Homely (n : Net) : Prop :=
  ∀ f ∈ n.flight, n.writers.has f.writer = true ∧ n.readers.has f.out.reader = true

/-- A writer and a reader that have each other, and what will have become of the pair once all
that is in flight between them has arrived: nothing is missing, and nothing waits. -/
structure Recovers (n : Net) (w r : Guid) (p : ReaderProxy) (q : WriterProxy) : Prop where
  reliable : q.reliable = p.reliable
  loose : p.reliable = false → p.pending = []
  exact : p.reliable = true → ∃ owed k, p.Keeps owed k ∧
    (⟨k, q.next⟩ : Progress).after (carried w r n.flight) = ⟨owed.length, owed.length + 1⟩

def Recovering (n : Net) : Prop :=
  n.Homely ∧ ∀ w r p, n.proxy? w r = some p → ∃ q, n.peer? w r = some q ∧ n.Recovers w r p q

variable {n n' : Net} {w r : Guid}

lemma isSome_proxy? {h : WriterHistory} (hw : n.writers.get? w = some h) (r : Guid) :
    (n.proxy? w r).isSome = h.isMatched r := by
  rw [proxy?, hw]
  rfl

/-- The net once its oldest change has arrived and was answered. -/
lemma deliver_front {f : Flight} {fs : List Flight} (hf : n.flight = f :: fs) {h : WriterHistory}
    {c : ReaderCache} (hw : n.writers.get? f.writer = some h)
    (hr : n.readers.get? f.out.reader = some c) :
    let got := c.receive f.writer f.out.number f.out.change
    ∃ d, n.deliver 0 false false =
      some ({ writers := n.writers.put Guid.before f.writer (h.acknowledge f.out.reader got.2.2).1
              readers := n.readers.put Guid.before f.out.reader got.1
              flight := fs }, d) := by
  intro got
  have hget : n.flight[0]? = some f := by rw [hf]; rfl
  obtain ⟨done, hd⟩ := deliver_eq false false hget hr hw
  refine ⟨⟨got.2.1, got.2.2, done⟩, ?_⟩
  rw [hd]
  simp [hf, got]

/-- What an arrival makes of a pair: the sender and the addressee move on, all others stay. -/
lemma proxy?_acknowledged {h : WriterHistory} {g : Guid} (hw : n.writers.get? g = some h)
    (d : Guid) (a : Nat) (w r : Guid) :
    ((n.writers.put Guid.before g (h.acknowledge d a).1).get? w).bind (·.proxies.get? r) =
      if w = g ∧ r = d then (n.proxy? w r).map (·.acknowledge a) else n.proxy? w r := by
  rw [Table.get?_put]
  by_cases hwg : w = g
  · subst hwg
    simp [WriterHistory.get?_acknowledge, proxy?, hw]
  · simp [hwg, proxy?]

lemma peer?_received {c : ReaderCache} {d : Guid} (hr : n.readers.get? d = some c) (g : Guid)
    (k : Nat) (x : Change) (w r : Guid) :
    ((n.readers.put Guid.before d (c.receive g k x).1).get? r).bind (·.writers.get? w) =
      if w = g ∧ r = d then
        (n.peer? w r).map fun q => if q.Takes k then { q with next := k + 1 } else q
      else n.peer? w r := by
  rw [Table.get?_put]
  by_cases hrd : r = d
  · subst hrd
    by_cases hwg : w = g <;> simp [ReaderCache.get?_receive, peer?, hr, hwg]
  · simp [hrd, peer?]

lemma carried_cons (w r : Guid) (f : Flight) (fs : List Flight) :
    carried w r (f :: fs) = carried w r [f] ++ carried w r fs := carried_append w r [f] fs

lemma takes_reliable {q : WriterProxy} (hq : q.reliable = true) (k : Nat) :
    q.Takes k ↔ k = q.next := by
  unfold WriterProxy.Takes
  simp [hq]
  omega

lemma answer_reliable {c : ReaderCache} {q : WriterProxy} (hc : c.writers.get? w = some q)
    (hq : q.reliable = true) (k : Nat) (x : Change) :
    (c.receive w k x).2.2 = (if k = q.next then k + 1 else q.next) - 1 := by
  by_cases hk : k = q.next
  · rw [if_pos hk, ReaderCache.receive_of_takes hc ((takes_reliable hq k).mpr hk)]
    rfl
  · have hnot : ¬q.Takes k := fun ht => hk ((takes_reliable hq k).mp ht)
    obtain ⟨e, -, -, he⟩ := ReaderCache.receive_of_not_takes (c := x) hc hnot
    rw [if_neg hk, he]

/-- The arrival of a change brings its pair one step on. -/
lemma Recovers.arrive {p : ReaderProxy} {q : WriterProxy} {f : Flight} {fs : List Flight}
    (hrec : n.Recovers w r p q) (hf : n.flight = f :: fs) (hpair : f.writer = w ∧ f.out.reader = r)
    (hflight : n'.flight = fs) {a : Nat}
    (ha : q.reliable = true →
      a = (if f.out.number = q.next then f.out.number + 1 else q.next) - 1) :
    n'.Recovers w r (p.acknowledge a)
      (if q.Takes f.out.number then { q with next := f.out.number + 1 } else q) where
  reliable := by
    split_ifs
    · exact hrec.reliable
    · exact hrec.reliable
  loose hb := by simp [ReaderProxy.acknowledge, hrec.loose hb]
  exact hb := by
    obtain ⟨owed, k, hk, hafter⟩ := hrec.exact hb
    have hq : q.reliable = true := hrec.reliable.trans hb
    rw [hf, carried_cons, carried_single, if_pos hpair, List.singleton_append,
      Progress.after_cons] at hafter
    have hle := Progress.next_le_after (Progress.arrive ⟨k, q.next⟩ f.out.number) (carried w r fs)
    rw [hafter] at hle
    have hnext : (if q.Takes f.out.number then { q with next := f.out.number + 1 } else q).next =
        if f.out.number = q.next then f.out.number + 1 else q.next := by
      simp only [takes_reliable hq]
      split_ifs <;> rfl
    refine ⟨owed, _, hk.acknowledge a, ?_⟩
    rw [hflight, hnext, ← hafter]
    congr 1
    unfold Progress.arrive at hle ⊢
    simp only at hle ⊢
    -- no more is acknowledged than was ever enqueued
    have hmin : min a owed.length = a := by
      have := ha hq
      omega
    rw [hmin, ha hq]

/-- The oldest change in flight always arrives, and its arrival loses nothing. -/
lemma Recovering.deliver (hn : n.Recovering) {f : Flight} {fs : List Flight}
    (hf : n.flight = f :: fs) :
    ∃ n' d, n.deliver 0 false false = some (n', d) ∧ n'.flight = fs ∧ n'.Recovering := by
  obtain ⟨hhome, hpairs⟩ := hn
  obtain ⟨hhas, hhas'⟩ := hhome f (hf ▸ List.mem_cons_self)
  obtain ⟨h, hw⟩ := Table.has_eq_true.mp hhas
  obtain ⟨c, hr⟩ := Table.has_eq_true.mp hhas'
  obtain ⟨d, hd⟩ := deliver_front hf hw hr
  refine ⟨_, d, hd, rfl, fun f' hf' => ?_, fun w r p' hp' => ?_⟩
  · obtain ⟨hw', hr'⟩ := hhome f' (hf ▸ List.mem_cons_of_mem _ hf')
    exact ⟨Table.has_put hw', Table.has_put hr'⟩
  · replace hp' := (proxy?_acknowledged hw f.out.reader _ w r).symm.trans hp'
    have hpeer := peer?_received hr f.writer f.out.number f.out.change w r
    by_cases hpair : w = f.writer ∧ r = f.out.reader
    · rw [if_pos hpair] at hp' hpeer
      obtain ⟨p, hp, rfl⟩ := Option.map_eq_some_iff.mp hp'
      obtain ⟨q, hq, hrec⟩ := hpairs w r p hp
      obtain ⟨rfl, rfl⟩ := hpair
      rw [hq, Option.map_some] at hpeer
      have hget : c.writers.get? f.writer = some q := by simpa [peer?, hr] using hq
      exact ⟨_, hpeer, hrec.arrive hf ⟨rfl, rfl⟩ rfl fun hb => answer_reliable hget hb _ _⟩
    · -- nobody else notices
      rw [if_neg hpair] at hp' hpeer
      obtain ⟨q, hq, hrec⟩ := hpairs w r p' hp'
      have hcarried : carried w r n.flight = carried w r fs := by
        rw [hf, carried_cons, carried_single, if_neg fun hp => hpair ⟨hp.1.symm, hp.2.symm⟩,
          List.nil_append]
      exact ⟨q, hpeer.trans hq, hrec.reliable, hrec.loose, hcarried ▸ hrec.exact⟩

/-- Everything in flight arrives in its order. -/
lemma Recovering.deliverAll (hn : n.Recovering) {k : Nat} (hk : n.flight.length ≤ k) :
    (n.deliverAll false k).1.flight = [] ∧ (n.deliverAll false k).1.Recovering := by
  induction k generalizing n with
  | zero => exact ⟨List.length_eq_zero_iff.mp (Nat.le_zero.mp hk), hn⟩
  | succ k ih =>
    unfold Net.deliverAll
    cases hf : n.flight with
    | nil =>
      have hnone : n.deliver 0 false false = none := by simp [Net.deliver, hf]
      rw [hnone]
      exact ⟨hf, hn⟩
    | cons f fs =>
      obtain ⟨n', d, hd, hflight, hn'⟩ := hn.deliver hf
      rw [hd]
      exact ih hn' (by rw [hflight]; rw [hf] at hk; simpa using hk)

/-! ### Retransmissions -/

/-- A writer and a reader that have each other, with arbitrary leftovers between them: the reader
is not behind what is acknowledged, and nothing in flight is ahead of what was enqueued. Once the
writer has sent again what is pending, the pair recovers. -/
structure Behind (n : Net) (w r : Guid) (p : ReaderProxy) (q : WriterProxy) (resent : Prop) :
    Prop where
  reliable : q.reliable = p.reliable
  loose : p.reliable = false → p.pending = []
  exact : p.reliable = true → ∃ owed k, p.Keeps owed k ∧
    (⟨k, q.next⟩ : Progress).Within owed.length ∧
    (∀ e ∈ carried w r n.flight, e.1 ≤ owed.length) ∧
    (resent → (⟨k, q.next⟩ : Progress).after (carried w r n.flight) =
      ⟨owed.length, owed.length + 1⟩)

/-- Every pair is behind at most, and those recover whose writers are in the list. -/
structure Resent (n : Net) (ws : List Guid) : Prop where
  home : n.Homely
  history : ∀ w h, n.writers.get? w = some h → h.guid = w ∧ h.Wf
  pair : ∀ w r p, n.proxy? w r = some p → ∃ q, n.peer? w r = some q ∧
    n.Behind w r p q (w ∈ ws)

/-- Sends everything again that a writer has pending; a writer that is not there sends nothing. -/
def resend (n : Net) (w : Guid) : Net := ((n.retransmit w).map (·.1)).getD n

lemma resend_of_none (hw : n.writers.get? w = none) : n.resend w = n := by
  simp [resend, retransmit, hw]

lemma resend_of_some {h : WriterHistory} (hw : n.writers.get? w = some h) :
    n.resend w = n.send h h.pending := by
  simp [resend, retransmit, hw]

lemma get?_writers_send_same {h : WriterHistory} (hw : n.writers.get? w = some h)
    (hg : h.guid = w) (out : List Outgoing) (w' : Guid) :
    (n.send h out).writers.get? w' = n.writers.get? w' := by
  simp only [send, Table.get?_put, hg]
  split_ifs with hw'
  · rw [hw', hw]
  · rfl

/-- What is pending at a writer is all that its retransmission adds. -/
lemma carried_resend {h : WriterHistory} (hw : n.writers.get? w = some h) (hg : h.guid = w)
    (hwf : h.Wf) (w' r : Guid) :
    carried w' r (n.send h h.pending).flight =
      carried w' r n.flight ++ if w' = w then ((n.proxy? w r).map (·.pending)).getD [] else [] := by
  have hproxy : n.proxy? w r = h.proxies.get? r := by simp [proxy?, hw]
  simp only [send, carried_append, carried_from, hg, hproxy, WriterHistory.addressed_pending hwf,
    eq_comm]

lemma Behind.resend {p : ReaderProxy} {q : WriterProxy} {P : Prop} (hb : n.Behind w r p q P)
    (hflight : carried w r n'.flight = carried w r n.flight ++ p.pending) (P' : Prop) :
    n'.Behind w r p q P' where
  reliable := hb.reliable
  loose := hb.loose
  exact hp := by
    obtain ⟨owed, k, hk, hwithin, hle, -⟩ := hb.exact hp
    have hpending : p.pending = numbered (k + 1) (owed.drop k) := by rw [hk.pending, if_pos hp]
    have hlast : k + (owed.drop k).length = owed.length := by
      have := hk.le
      rw [List.length_drop]
      omega
    refine ⟨owed, k, hk, hwithin, fun e he => ?_, fun _ => ?_⟩
    · rw [hflight] at he
      rcases List.mem_append.mp he with he | he
      · exact hle e he
      · have := (mem_numbered.mp (hk.pending_subset he)).2
        obtain ⟨hlt, -⟩ := List.getElem?_eq_some_iff.mp this
        omega
    · obtain ⟨hwithin', hacked⟩ := hwithin.after hle
      rw [hflight, Progress.after_append, hpending]
      rw [← hlast] at hwithin' ⊢
      exact hwithin'.after_numbered hacked

lemma Resent.resend {ws : List Guid} (hn : n.Resent ws) (w : Guid) :
    (n.resend w).Resent (w :: ws) := by
  cases hw : n.writers.get? w with
  | none =>
    -- nobody sends, and every pair of the list is one of another writer
    rw [resend_of_none hw]
    refine ⟨hn.home, hn.history, fun w' r p hp => ?_⟩
    obtain ⟨q, hq, hb⟩ := hn.pair w' r p hp
    have hne : w' ≠ w := by
      rintro rfl
      simp [proxy?, hw] at hp
    refine ⟨q, hq, hb.reliable, hb.loose, fun hrel => ?_⟩
    obtain ⟨owed, k, hk, hwithin, hle, hafter⟩ := hb.exact hrel
    exact ⟨owed, k, hk, hwithin, hle, fun hmem => hafter ((List.mem_cons.mp hmem).resolve_left hne)⟩
  | some h =>
    obtain ⟨hg, hwf⟩ := hn.history w h hw
    rw [resend_of_some hw]
    have hget := get?_writers_send_same hw hg h.pending
    have hproxy : ∀ w' r, (n.send h h.pending).proxy? w' r = n.proxy? w' r := fun w' r => by
      rw [proxy?, hget, proxy?]
    refine ⟨fun f hf => ?_, fun w' x hx => hn.history w' x (hget w' ▸ hx), fun w' r p hp => ?_⟩
    · -- what is sent again is for readers that the writer has
      rcases List.mem_append.mp hf with hf | hf
      · obtain ⟨hx, hc⟩ := hn.home f hf
        exact ⟨Table.has_put hx, hc⟩
      · obtain ⟨o, ho, rfl⟩ := List.mem_map.mp hf
        obtain ⟨e, he, hoe⟩ := List.mem_flatMap.mp ho
        obtain ⟨i, -, rfl⟩ := List.mem_map.mp hoe
        have hp : n.proxy? w e.1 = some e.2 := by
          simp [proxy?, hw, Table.get?_of_mem hwf.proxies he]
        obtain ⟨q, hq, -⟩ := hn.pair w e.1 e.2 hp
        obtain ⟨c, hc, -⟩ := Option.bind_eq_some_iff.mp hq
        have hself : n.writers.has h.guid = true := Table.has_eq_true.mpr ⟨h, hg ▸ hw⟩
        exact ⟨Table.has_put hself, Table.has_eq_true.mpr ⟨c, hc⟩⟩
    · rw [hproxy] at hp
      obtain ⟨q, hq, hb⟩ := hn.pair w' r p hp
      have hcarried := carried_resend hw hg hwf w' r
      refine ⟨q, hq, ?_⟩
      -- the pairs of that writer recover, the others stay behind at most
      by_cases hne : w' = w
      · subst hne
        rw [if_pos rfl, hp] at hcarried
        exact hb.resend hcarried _
      · rw [if_neg hne, List.append_nil] at hcarried
        refine ⟨hb.reliable, hb.loose, fun hrel => ?_⟩
        rw [hcarried]
        obtain ⟨owed, k, hk, hwithin, hle, hafter⟩ := hb.exact hrel
        exact ⟨owed, k, hk, hwithin, hle,
          fun hmem => hafter ((List.mem_cons.mp hmem).resolve_left hne)⟩

lemma Resent.get?_resend {ws : List Guid} (hn : n.Resent ws) (w w' : Guid) :
    (n.resend w).writers.get? w' = n.writers.get? w' := by
  cases hw : n.writers.get? w with
  | none => rw [resend_of_none hw]
  | some h =>
    rw [resend_of_some hw]
    exact get?_writers_send_same hw (hn.history w h hw).1 _ _

lemma Resent.foldl {ws : List Guid} (hn : n.Resent ws) (ws' : List Guid) :
    (ws'.foldl Net.resend n).Resent (ws'.reverse ++ ws) ∧
      ∀ w, (ws'.foldl Net.resend n).writers.get? w = n.writers.get? w := by
  induction ws' generalizing n ws with
  | nil => exact ⟨hn, fun _ => rfl⟩
  | cons w ws' ih =>
    obtain ⟨h, hget⟩ := ih (hn.resend w)
    refine ⟨by simpa using h, fun w' => ?_⟩
    rw [List.foldl_cons, hget, hn.get?_resend]

lemma Resent.recovering {ws : List Guid} (hn : n.Resent ws)
    (hws : ∀ w h, n.writers.get? w = some h → w ∈ ws) : n.Recovering := by
  refine ⟨hn.home, fun w r p hp => ?_⟩
  obtain ⟨q, hq, hb⟩ := hn.pair w r p hp
  obtain ⟨h, hw, -⟩ := Option.bind_eq_some_iff.mp hp
  refine ⟨q, hq, hb.reliable, hb.loose, fun hrel => ?_⟩
  obtain ⟨owed, k, hk, -, -, hafter⟩ := hb.exact hrel
  exact ⟨owed, k, hk, hafter (hws w h hw)⟩

/-- Nothing waits any more at a writer once all that was in flight has arrived. -/
lemma Recovering.unacknowledged (hn : n.Recovering) (hflight : n.flight = [])
    {h : WriterHistory} (hw : n.writers.get? w = some h) (hwf : h.Wf) : h.unacknowledged = 0 := by
  refine List.length_eq_zero_iff.mpr (List.flatMap_eq_nil_iff.mpr fun e he => ?_)
  have hp : n.proxy? w e.1 = some e.2 := by
    simp [proxy?, hw, Table.get?_of_mem hwf.proxies he]
  obtain ⟨q, -, hrec⟩ := hn.2 w e.1 e.2 hp
  have hnil : e.2.pending = [] := by
    by_cases hb : e.2.reliable = true
    · obtain ⟨owed, k, hk, hafter⟩ := hrec.exact hb
      rw [hflight] at hafter
      exact (hk.pending_eq_nil hb).mpr (congrArg Progress.acked hafter)
    · exact hrec.loose (Bool.not_eq_true _ ▸ hb)
  simp [hnil]

end Net

end PubSub
