import PubSub.Proofs.Loopback.Duet.Basic
import PubSub.Proofs.Value

/-!
What each thing that can happen to the writer or the reader of a duet makes of it.
-/

namespace PubSub.Loopback.Duet

variable {s : Scenario} {σ : Duet} {x x' : Writer} {y y' : Reader} {g : Guid}

/-! ### Parts of a list -/

section Window

variable {α : Type} {l : List α} {n k : Nat} {a : α} {rest : List α}

lemma window_snoc (ha : l[n]? = some a) (hk : k ≤ n) :
    (l.take (n + 1)).drop k = (l.take n).drop k ++ [a] := by
  have hn : n < l.length := (List.getElem?_eq_some_iff.mp ha).1
  rw [List.take_add_one, ha, List.drop_append_of_le_length (by simp; omega)]
  rfl

lemma window_cons (h : (l.take n).drop k = a :: rest) :
    k < n ∧ l[k]? = some a ∧ rest = (l.take n).drop (k + 1) := by
  have hlength : k < (l.take n).length := by
    by_contra hle
    rw [List.drop_eq_nil_of_le (Nat.not_lt.mp hle)] at h
    cases h
  rw [List.drop_eq_getElem_cons hlength] at h
  obtain ⟨ha, hrest⟩ := List.cons.inj h
  rw [List.getElem_take] at ha
  rw [List.length_take] at hlength
  exact ⟨by omega, List.getElem?_eq_some_iff.mpr ⟨by omega, ha⟩, hrest.symm⟩

end Window

/-! ### The changes of a scenario -/

lemma changes_zero : s.changes[0]? =
    some ⟨1, s.sample.key, .alive, some s.sample.payload⟩ := rfl

/-- A change after the first one ends the instance. -/
lemma changes_succ {n : Nat} {c : Change} (h : s.changes[n + 1]? = some c) :
    s.variant = .dispose ∧ n = 0 ∧ c = ⟨2, s.sample.key, .disposed, none⟩ := by
  rw [Scenario.changes, List.getElem?_cons_succ] at h
  cases hv : s.variant with
  | plain =>
    rw [hv] at h
    cases h
  | dispose =>
    rw [hv] at h
    cases n with
    | zero => exact ⟨rfl, rfl, (Option.some.inj h).symm⟩
    | succ n => cases h

lemma sequence_of_changes {n : Nat} {c : Change} (h : s.changes[n]? = some c) :
    c.sequence = n + 1 := by
  cases n with
  | zero => exact Option.some.inj h ▸ rfl
  | succ n =>
    obtain ⟨-, rfl, rfl⟩ := changes_succ h
    rfl

/-! ### The writer -/

lemma proxiesFit_nil (hr : σ.reader.presence.created = false) : σ.ProxiesFit s [] := by
  unfold ProxiesFit
  cases hp : σ.reader.presence <;> simp_all [Presence.created]

lemma ProxiesFit.eq_nil {proxies : Table Guid ReaderProxy} (h : σ.ProxiesFit s proxies)
    (hr : σ.reader.presence.created = false) : proxies = [] := by
  unfold ProxiesFit at h
  cases hp : σ.reader.presence <;> simp_all [Presence.created]

lemma writerFits_new (hw : σ.writer.presence = .active) (hr : σ.reader.presence.created = false)
    (hmade : σ.made = 0) : σ.WriterFits s (.new g s.topic s.sample.type s.qos) where
  key := rfl
  isOpen := by rw [hw]; rfl
  bound := iff_of_false (Nat.lt_irrefl 0) (Bool.eq_false_iff.mp hr)
  current := Nat.le_refl _
  history _ := ⟨rfl, by rw [hmade]; rfl, fun _ => rfl, proxiesFit_nil hr⟩

/-- The history of a writer goes on, or the rest of it changes where that does not show. -/
lemma WriterFits.update {σ' : Duet} (h : σ.WriterFits s x)
    (hw : σ'.writer.presence = σ.writer.presence)
    (hr : σ'.reader.presence.created = σ.reader.presence.created)
    (hcard : Card.ofWriter x' = Card.ofWriter x)
    (hcurrent : x'.matched.current ≤ x.matched.current)
    (hh : σ.writer.presence = .active → σ.HistoryFits s x.history → σ'.HistoryFits s x'.history) :
    σ'.WriterFits s x' where
  key := (congrArg Card.key hcard).trans h.key
  isOpen := by rw [hw]; exact (congrArg Card.isOpen hcard).trans h.isOpen
  bound := by
    have htotal : x'.matched.total = x.matched.total := congrArg Card.total hcard
    rw [htotal, hr]
    exact h.bound
  current := by
    have htotal : x'.matched.total = x.matched.total := congrArg Card.total hcard
    exact Nat.le_trans hcurrent (htotal ▸ h.current)
  history hactive := hh (hw ▸ hactive) (h.history (hw ▸ hactive))

/-- How far the reader has got is nothing to the writer. -/
lemma WriterFits.progress (h : σ.WriterFits s x) (n g b : Nat) :
    ({ σ with sent := n, got := g, read := b } : Duet).WriterFits s x :=
  h.update rfl rfl rfl (Nat.le_refl _) fun _ hh => ⟨hh.qos, hh.next, hh.retained, hh.proxies⟩

/-- The writer is bound to the reader, when it has not made a change yet. -/
lemma WriterFits.meet (h : σ.WriterFits s x) (hw : σ.writer.presence = .active)
    (hr : σ.reader.presence.created = false) (hmade : σ.made = 0) (hacked : σ.acked = 0)
    (hq : s.qos.isReliable = true) (q : Nat) :
    ({ σ with reader := ⟨q, .active⟩ } : Duet).WriterFits s
      (Domain.writerBound x (.sole q) s.qos).1 := by
  obtain ⟨c, hc⟩ := writerBound_eq x (.sole q) s.qos
  have hh := h.history hw
  have hnil := hh.proxies.eq_nil hr
  have hbacklog : x.history.backlog s.qos = [] := by
    rw [WriterHistory.backlog, hh.retained hmade, ite_self]
  have hmatch := WriterHistory.matchReader_of_none (h := x.history) (r := .sole q) (q := s.qos)
    (by rw [hnil]; rfl)
  rw [hc, hmatch]
  refine ⟨h.key, h.isOpen, iff_of_true (Nat.succ_pos _) rfl, Nat.succ_le_succ h.current,
    fun _ => ⟨hh.qos, hh.next, hh.retained, ?_⟩⟩
  refine ⟨.replayed true [], ?_, rfl, ?_⟩
  · rw [hnil, hbacklog, hh.qos, hq]
    rfl
  · change (ReaderProxy.replayed true []).Keeps (s.changes.take σ.made) σ.acked
    rw [hmade, hacked]
    exact ReaderProxy.keeps_replayed true []

/-- Nothing is replayed to that reader. -/
lemma WriterFits.replay_nil (h : σ.WriterFits s x) (hw : σ.writer.presence = .active)
    (hr : σ.reader.presence.created = false) (hmade : σ.made = 0) (q : Nat) :
    (Domain.writerBound x (.sole q) s.qos).2 = [] := by
  have hh := h.history hw
  have hmatch := WriterHistory.matchReader_of_none (h := x.history) (r := .sole q) (q := s.qos)
    (by rw [hh.proxies.eq_nil hr]; rfl)
  change (x.history.matchReader (.sole q) s.qos).2 = []
  rw [hmatch, WriterHistory.backlog, hh.retained hmade, ite_self]
  rfl

lemma HistoryFits.addChange {h : WriterHistory} (hh : σ.HistoryFits s h) {c : Change}
    (hc : s.changes[σ.made]? = some c) :
    ({ σ with made := σ.made + 1 } : Duet).HistoryFits s
      (h.addChange c.key c.kind c.payload).1 := by
  have hmade : h.made c.key c.kind c.payload = c := by
    rw [WriterHistory.made, hh.next, ← sequence_of_changes hc]
  refine ⟨hh.qos, congrArg (· + 1) hh.next, fun hz => absurd hz (Nat.succ_ne_zero _), ?_⟩
  have hproxies := hh.proxies
  unfold ProxiesFit at hproxies ⊢
  cases hp : σ.reader.presence with
  | active =>
    rw [hp] at hproxies
    obtain ⟨p, hlist, hreliable, hkeeps⟩ := hproxies
    have htake : s.changes.take (σ.made + 1) = s.changes.take σ.made ++ [c] := by
      rw [List.take_add_one, hc]
      rfl
    refine ⟨p.enqueue c, ?_, hreliable, by rw [htake]; exact hkeeps.enqueue c⟩
    rw [← hmade, WriterHistory.addChange, hlist]
    rfl
  | closing =>
    rw [hp] at hproxies
    obtain ⟨p, hlist⟩ := hproxies
    refine ⟨p.enqueue c, ?_⟩
    rw [← hmade, WriterHistory.addChange, hlist]
    rfl
  | _ =>
    rw [hp] at hproxies
    simp only [WriterHistory.addChange, hproxies, List.map_nil]

lemma HistoryFits.addressed {h : WriterHistory} (hh : σ.HistoryFits s h)
    (hr : σ.reader.presence = .active) {c : Change} (hc : s.changes[σ.made]? = some c) :
    (h.addChange c.key c.kind c.payload).2 = [⟨σ.reader.guid, σ.made + 1, c⟩] := by
  have hproxies := hh.proxies
  have hmade : h.made c.key c.kind c.payload = c := by
    rw [WriterHistory.made, hh.next, ← sequence_of_changes hc]
  unfold ProxiesFit at hproxies
  rw [hr] at hproxies
  obtain ⟨p, hlist, -, hkeeps⟩ := hproxies
  have hlt : σ.made < s.changes.length := (List.getElem?_eq_some_iff.mp hc).1
  have hnext : p.next = σ.made + 1 := by
    rw [hkeeps.next, List.length_take, Nat.min_eq_left (by omega)]
  simp only [WriterHistory.addChange, hlist, List.map_cons, List.map_nil, hnext]
  rw [← hmade]
  rfl

/-- An acknowledgment from the reader arrives. -/
lemma HistoryFits.acknowledge {h : WriterHistory} (hh : σ.HistoryFits s h) {n : Nat}
    (hn : σ.acked ≤ n) (hle : n ≤ σ.made) (hmade : σ.made ≤ s.changes.length)
    (hr : σ.reader.presence = .active) :
    ({ σ with acked := n } : Duet).HistoryFits s (h.acknowledge σ.reader.guid n).1 := by
  refine ⟨hh.qos, hh.next, hh.retained, ?_⟩
  have hproxies := hh.proxies
  unfold ProxiesFit at hproxies ⊢
  rw [hr] at hproxies ⊢
  obtain ⟨p, hlist, hreliable, hkeeps⟩ := hproxies
  refine ⟨p.acknowledge n, by simp [WriterHistory.acknowledge, Table.adjust, hlist], hreliable, ?_⟩
  have hmax : max σ.acked (min n (s.changes.take σ.made).length) = n := by
    rw [List.length_take, Nat.min_eq_left hmade]
    omega
  have hacked := hkeeps.acknowledge n
  rw [hmax] at hacked
  exact hacked

/-- Whatever is acknowledged by a reader that is not active does not matter. -/
lemma HistoryFits.acknowledge_late {h : WriterHistory} (hh : σ.HistoryFits s h)
    (hr : σ.reader.presence ≠ .active) (g : Guid) (n : Nat) :
    σ.HistoryFits s (h.acknowledge g n).1 := by
  refine ⟨hh.qos, hh.next, hh.retained, ?_⟩
  have hproxies := hh.proxies
  unfold ProxiesFit at hproxies ⊢
  cases hp : σ.reader.presence with
  | active => exact absurd hp hr
  | closing =>
    rw [hp] at hproxies
    obtain ⟨p, hlist⟩ := hproxies
    simp only [WriterHistory.acknowledge, Table.adjust, hlist, List.map_cons, List.map_nil]
    split_ifs <;> exact ⟨_, rfl⟩
  | _ =>
    rw [hp] at hproxies
    simp [WriterHistory.acknowledge, Table.adjust, hproxies]

/-- Everything is acknowledged once the reader has got everything, or has gone. -/
lemma HistoryFits.unacknowledged_eq_zero {h : WriterHistory} (hh : σ.HistoryFits s h)
    (hmade : σ.made ≤ s.changes.length) (hr : σ.reader.presence ≠ .closing)
    (hacked : σ.reader.presence = .active → σ.acked = σ.made) : h.unacknowledged = 0 := by
  have hproxies := hh.proxies
  unfold ProxiesFit at hproxies
  cases hp : σ.reader.presence with
  | active =>
    rw [hp] at hproxies
    obtain ⟨p, hlist, hreliable, hkeeps⟩ := hproxies
    have hall : σ.acked = (s.changes.take σ.made).length := by
      rw [List.length_take, Nat.min_eq_left hmade, hacked hp]
    simp [WriterHistory.unacknowledged, WriterHistory.pending, hlist,
      (hkeeps.pending_eq_nil hreliable).mpr hall]
  | closing => exact absurd hp hr
  | _ =>
    rw [hp] at hproxies
    simp [WriterHistory.unacknowledged, WriterHistory.pending, hproxies]

lemma HistoryFits.acked_eq {h : WriterHistory} (hh : σ.HistoryFits s h)
    (hmade : σ.made ≤ s.changes.length) (hr : σ.reader.presence = .active)
    (hnone : h.unacknowledged = 0) : σ.acked = σ.made := by
  have hproxies := hh.proxies
  unfold ProxiesFit at hproxies
  rw [hr] at hproxies
  obtain ⟨p, hlist, hreliable, hkeeps⟩ := hproxies
  have hpending : p.pending = [] := by
    simpa [WriterHistory.unacknowledged, WriterHistory.pending, hlist] using hnone
  have hall := (hkeeps.pending_eq_nil hreliable).mp hpending
  rwa [List.length_take, Nat.min_eq_left hmade] at hall

lemma WriterFits.part (h : σ.WriterFits s x) (hr : σ.reader.presence = .closing) :
    ({ σ with reader := ⟨σ.reader.home, .gone⟩ } : Duet).WriterFits s
      (Domain.writerUnbound x σ.reader.guid) := by
  have hcurrent : (Domain.writerUnbound x σ.reader.guid).matched.current ≤ x.matched.current := by
    unfold Domain.writerUnbound
    split_ifs
    · exact (MatchedStatus.unmatched_current _).trans_le (Nat.sub_le _ _)
    · exact Nat.le_refl _
  refine h.update rfl (by rw [hr]; rfl) (ofWriter_writerUnbound x _) hcurrent fun hw hh => ?_
  have hproxies := hh.proxies
  unfold ProxiesFit at hproxies
  rw [hr] at hproxies
  obtain ⟨p, hlist⟩ := hproxies
  have hmatched : x.history.isMatched σ.reader.guid = true := by
    simp [WriterHistory.isMatched, hlist, Table.has, Table.get?]
  rw [Domain.writerUnbound, if_pos hmatched]
  refine ⟨hh.qos, hh.next, hh.retained, ?_⟩
  change x.history.proxies.erase σ.reader.guid = []
  simp [hlist, Table.erase]

/-! ### The reader -/

lemma peersFit_nil (hw : σ.writer.presence.created = false) : σ.PeersFit [] := by
  unfold PeersFit
  cases hp : σ.writer.presence <;> simp_all [Presence.created]

lemma PeersFit.eq_nil {peers : Table Guid WriterProxy} (h : σ.PeersFit peers)
    (hw : σ.writer.presence.created = false) : peers = [] := by
  unfold PeersFit at h
  cases hp : σ.writer.presence <;> simp_all [Presence.created]

lemma PeersFit.eq_single {peers : Table Guid WriterProxy} (h : σ.PeersFit peers)
    (hw : σ.writer.presence.entered = true) :
    peers = [(σ.writer.guid, ⟨true, σ.got + 1⟩)] := by
  unfold PeersFit at h
  cases hp : σ.writer.presence <;> simp_all [Presence.entered]

lemma peersFit_single (hw : σ.writer.presence.entered = true) :
    σ.PeersFit [(σ.writer.guid, ⟨true, σ.got + 1⟩)] := by
  unfold PeersFit
  cases hp : σ.writer.presence <;> simp_all [Presence.entered]

lemma readerFits_new (hr : σ.reader.presence = .active) (hw : σ.writer.presence.created = false)
    (hgot : σ.got = 0) : σ.ReaderFits s (.new g s.topic s.sample.type s.qos) where
  key := rfl
  type := rfl
  isOpen := by rw [hr]; rfl
  bound := iff_of_false (Nat.lt_irrefl 0) (Bool.eq_false_iff.mp hw)
  cache _ :=
    ⟨rfl, peersFit_nil hw, [], by rw [hgot, List.take_zero, List.drop_nil]; rfl, fun _ => rfl⟩

/-- The cache of a reader changes, or the rest of it where that does not show. -/
lemma ReaderFits.update {σ' : Duet} (h : σ.ReaderFits s y)
    (hr : σ'.reader.presence = σ.reader.presence)
    (hw : σ'.writer.presence.created = σ.writer.presence.created)
    (hcard : Card.ofReader y' = Card.ofReader y) (htype : y'.type = y.type)
    (hc : σ.reader.presence = .active → σ.CacheFits s y.cache → σ'.CacheFits s y'.cache) :
    σ'.ReaderFits s y' where
  key := (congrArg Card.key hcard).trans h.key
  type := htype.trans h.type
  isOpen := by rw [hr]; exact (congrArg Card.isOpen hcard).trans h.isOpen
  bound := by
    have htotal : y'.matched.total = y.matched.total := congrArg Card.total hcard
    rw [htotal, hw]
    exact h.bound
  cache hactive := hc (hr ▸ hactive) (h.cache (hr ▸ hactive))

/-- How far the writer has got is nothing to the reader. -/
lemma ReaderFits.progress (h : σ.ReaderFits s y) (m n b : Nat) :
    ({ σ with made := m, sent := n, acked := b } : Duet).ReaderFits s y :=
  h.update rfl rfl rfl rfl fun _ hc => ⟨hc.qos, hc.peers, hc.unread⟩

lemma ReaderFits.meet (h : σ.ReaderFits s y) (hr : σ.reader.presence = .active)
    (hw : σ.writer.presence.created = false) (hgot : σ.got = 0) (hq : s.qos.isReliable = true)
    (p : Nat) :
    ({ σ with writer := ⟨p, .active⟩ } : Duet).ReaderFits s
      (Domain.readerBound y (.sole p) true) := by
  have hc := h.cache hr
  have hnil := hc.peers.eq_nil hw
  have hnone : y.cache.writers.get? (.sole p) = none := by rw [hnil]; rfl
  have hhas : y.cache.hasWriter (.sole p) = false := Table.has_eq_false.mpr hnone
  rw [readerBound_of_none hnone]
  refine ⟨h.key, h.type, h.isOpen, iff_of_true (Nat.succ_pos _) rfl, fun _ => ?_⟩
  change CacheFits s _ (y.cache.addWriter (.sole p) true)
  refine ⟨(y.cache.addWriter_qos _ _).trans hc.qos, ?_, ?_⟩
  · change (y.cache.addWriter (.sole p) true).writers = [(_, ⟨true, σ.got + 1⟩)]
    rw [ReaderCache.addWriter, hhas, hnil, hc.qos, hq, hgot]
    rfl
  · obtain ⟨extra, hunread, hextra⟩ := hc.unread
    have hgone : σ.writer.presence ≠ .gone := fun hgone => by rw [hgone] at hw; cases hw
    exact ⟨extra, (y.cache.addWriter_unread _ _).trans hunread, fun _ => hextra hgone⟩

/-- With a depth that allows anything, nothing is evicted. -/
lemma unread_apply {c : ReaderCache} {w : Guid} {d : Change} {got read : Nat}
    (hq : c.qos.history ≠ .keepLast 0) (hd : s.changes[got]? = some d) (hle : read ≤ got)
    (hunread : c.unread = ((s.changes.map ReaderCache.sampleOf).take got).drop read) :
    (c.apply w d).unread = ((s.changes.map ReaderCache.sampleOf).take (got + 1)).drop read := by
  have hsample : (s.changes.map ReaderCache.sampleOf)[got]? = some (ReaderCache.sampleOf d) := by
    rw [List.getElem?_map, hd]
    rfl
  rw [window_snoc hsample hle, ← hunread]
  cases got with
  | zero =>
    -- the first sample is the only one with data
    obtain rfl := (Option.some.inj (changes_zero.symm.trans hd))
    have hnil : c.unread = [] := by rw [hunread, List.take_zero, List.drop_nil]
    rw [ReaderCache.apply, hnil]
    change ReaderCache.enforceDepth c.qos.history.depth _ [_] = [_]
    cases hdepth : c.qos.history with
    | keepAll => rfl
    | keepLast n =>
      have hn : n ≠ 0 := fun hn => hq (by rw [hdepth, hn])
      have hfew : 1 - n = 0 := by omega
      simp [ReaderCache.enforceDepth, History.depth, ReaderCache.validFor, ReaderCache.sampleOf,
        hfew, ReaderCache.evict]
  | succ n =>
    obtain ⟨-, -, rfl⟩ := changes_succ hd
    rfl

/-- The next change arrives at the reader, which accepts it. -/
lemma ReaderFits.receive (h : σ.ReaderFits s y) (hr : σ.reader.presence = .active)
    (hw : σ.writer.presence.entered = true) (hq : s.qos.history ≠ .keepLast 0) {d : Change}
    (hd : s.changes[σ.got]? = some d) (hle : σ.read ≤ σ.got) :
    (y.receive σ.writer.guid (σ.got + 1) d).2 = some (σ.got + 1) ∧
      ({ σ with got := σ.got + 1 } : Duet).ReaderFits s
        (y.receive σ.writer.guid (σ.got + 1) d).1 := by
  have hc := h.cache hr
  have hopen : y.isOpen = true := by rw [h.isOpen, hr]; rfl
  have hpeers := hc.peers.eq_single hw
  have hpeer : y.cache.writers.get? σ.writer.guid = some ⟨true, σ.got + 1⟩ := by
    rw [hpeers, Table.get?_cons, if_pos rfl]
  have htakes : WriterProxy.Takes ⟨true, σ.got + 1⟩ (σ.got + 1) := ⟨Nat.le_refl _, .inl rfl⟩
  obtain ⟨k, hk⟩ := receive_of_takes hopen hpeer htakes d
  rw [hk]
  refine ⟨rfl, h.update rfl rfl ?_ rfl fun _ _ => ?_⟩
  · simp [Card.ofReader, Reader.qos, ReaderCache.receive_qos]
  · -- the cache expects the next number and has one more sample
    change CacheFits s _ (y.cache.receive σ.writer.guid (σ.got + 1) d).1
    refine ⟨ReaderCache.receive_qos.trans hc.qos, ?_, ?_⟩
    · rw [ReaderCache.receive_of_takes hpeer htakes]
      have hnext : y.cache.writers.adjust σ.writer.guid ({ · with next := σ.got + 1 + 1 }) =
          [(σ.writer.guid, ⟨true, σ.got + 1 + 1⟩)] := by
        simp [hpeers, Table.adjust]
      have hfit : ({ σ with got := σ.got + 1 } : Duet).PeersFit
          [(σ.writer.guid, ⟨true, σ.got + 1 + 1⟩)] := peersFit_single hw
      rw [← hnext] at hfit
      exact hfit
    · obtain ⟨extra, hunread, hextra⟩ := hc.unread
      have hgone : σ.writer.presence ≠ .gone := fun hgone => by rw [hgone] at hw; cases hw
      rw [hextra hgone, List.append_nil] at hunread
      refine ⟨[], ?_, fun _ => rfl⟩
      rw [ReaderCache.receive_of_takes hpeer htakes, List.append_nil]
      exact unread_apply (by rw [← hc.qos] at hq; exact hq) hd hle hunread

lemma ReaderFits.part (h : σ.ReaderFits s y) (hw : σ.writer.presence = .closing) :
    ({ σ with writer := ⟨σ.writer.home, .gone⟩ } : Duet).ReaderFits s
      (Domain.readerUnbound y σ.writer.guid) := by
  have htype : (Domain.readerUnbound y σ.writer.guid).type = y.type := by
    rcases readerUnbound_eq y σ.writer.guid with ⟨heq, -⟩ | ⟨-, m, heq⟩
    · rw [heq]
    · rw [heq]
      rfl
  refine h.update rfl (by rw [hw]; rfl) (ofReader_readerUnbound y _) htype fun hr hc => ?_
  obtain ⟨extra, hunread, -⟩ := hc.unread
  rcases readerUnbound_eq y σ.writer.guid with ⟨heq, -⟩ | ⟨hhas, m, heq⟩
  · rw [heq]
    exact ⟨hc.qos, trivial, extra, hunread, fun hgone => absurd rfl hgone⟩
  · rw [heq]
    refine ⟨(y.cache.removeWriter_qos _).trans hc.qos, trivial,
      extra ++ (y.cache.orphans σ.writer.guid).map fun k => .notification k .noWriters 0, ?_,
      fun hgone => absurd rfl hgone⟩
    change (y.cache.removeWriter σ.writer.guid).1.unread = _
    rw [ReaderCache.removeWriter, if_pos hhas, ← List.append_assoc, ← hunread]

lemma decode_samples (hs : s.sample.InRange) {n : Nat} {c : Change}
    (hc : s.changes[n]? = some c) :
    ∃ x, s.samples[n]? = some x ∧
      Sample.decode (Value.ofPayload s.sample.type) (ReaderCache.sampleOf c) = .ok x := by
  cases n with
  | zero =>
    obtain rfl := Option.some.inj (changes_zero.symm.trans hc)
    refine ⟨_, rfl, ?_⟩
    simp [Sample.decode, ReaderCache.sampleOf, Value.ofPayload_payload hs]
  | succ n =>
    obtain ⟨hv, rfl, rfl⟩ := changes_succ hc
    exact ⟨.notification s.sample.key .disposed 2, by rw [Scenario.samples, hv]; rfl, rfl⟩

lemma ReaderFits.take (h : σ.ReaderFits s y) (hr : σ.reader.presence = .active)
    (hs : s.sample.InRange) (hlt : σ.read < σ.got) (hgot : σ.got ≤ s.changes.length) :
    (∃ x, s.samples[σ.read]? = some x ∧ (y.take 1).2 = .ok [x]) ∧
      ({ σ with read := σ.read + 1 } : Duet).ReaderFits s (y.take 1).1 := by
  have hc := h.cache hr
  have hopen : y.isOpen = true := by rw [h.isOpen, hr]; rfl
  obtain ⟨extra, hunread, hextra⟩ := hc.unread
  obtain ⟨c, hchange⟩ : ∃ c, s.changes[σ.read]? = some c :=
    ⟨_, List.getElem?_eq_getElem (by omega)⟩
  have hfirst : ((s.changes.map ReaderCache.sampleOf).take σ.got).drop σ.read =
      ReaderCache.sampleOf c ::
        ((s.changes.map ReaderCache.sampleOf).take σ.got).drop (σ.read + 1) := by
    have hlength : σ.read < ((s.changes.map ReaderCache.sampleOf).take σ.got).length := by
      simp
      omega
    rw [List.drop_eq_getElem_cons hlength]
    simp [(List.getElem?_eq_some_iff.mp hchange).2]
  rw [hfirst, List.cons_append] at hunread
  obtain ⟨x, hx, hdecode⟩ := decode_samples hs hchange
  rw [Reader.take, if_pos hopen]
  refine ⟨⟨x, hx, ?_⟩, ?_⟩
  · simp only [ReaderCache.take, hunread, List.take_succ_cons, List.take_zero, h.type]
    simp [hdecode]
  · have hcache : ({ σ with read := σ.read + 1 } : Duet).CacheFits s (y.cache.take 1).1 := by
      refine ⟨hc.qos, hc.peers, extra, ?_, hextra⟩
      simp [ReaderCache.take, hunread]
    dsimp only
    split_ifs
    · exact h.update rfl rfl rfl rfl fun _ _ => hcache
    · exact h.update rfl rfl rfl rfl fun _ _ => hcache

end PubSub.Loopback.Duet
