import PubSub.Proofs.Loopback.Run

/-!
Who has whom in a domain. Endpoints are bound when they are created and forget each other when one
is closed, each side on its own, but at any time an open writer and an open reader have each other
exactly when their keys and their qualities of service say so, and everybody's counters say how
many peers that makes and has made.
-/

namespace PubSub.Loopback

/-! ### Counting -/

def Meeting.peer (m : Meeting) : EndpointKind → Guid
  | .writer => m.reader
  | .reader => m.writer

/-- No endpoint meets another one twice, so that meetings are counted by the peers. -/
lemma Sound.encard_met {met : List Meeting} {v : View} (h : Sound met v) (k : EndpointKind)
    (g : Guid) (c : Bool) :
    {g' | ∃ m ∈ met, (m.of k = g ∧ m.bound = c) ∧ m.peer k = g'}.encard =
      met.countP fun m => m.of k = g ∧ m.bound = c := by
  have hnodup : ((met.filter fun m => m.of k = g ∧ m.bound = c).map (·.peer k)).Nodup := by
    refine List.Nodup.map_on (fun m hm m' hm' hpeer => ?_) (h.once.of_map.filter _)
    obtain ⟨hmem, hg⟩ := List.mem_filter.mp hm
    obtain ⟨hmem', hg'⟩ := List.mem_filter.mp hm'
    have hof : m.of k = m'.of k := (of_decide_eq_true hg).1.trans (of_decide_eq_true hg').1.symm
    refine List.inj_on_of_nodup_map h.once hmem hmem' ?_
    cases k with
    | writer => exact Prod.ext hof hpeer
    | reader => exact Prod.ext hpeer hof
  have hlength := encard_mem hnodup
  rw [List.length_map, ← List.countP_eq_length_filter] at hlength
  rw [← hlength]
  congr 1
  ext g'
  simp [and_assoc]

/-! ### Open endpoints -/

namespace Domain

/-- Two open endpoints each of which has the other. -/
def Bound (d : Domain) (w r : Guid) : Prop :=
  ∃ x y, d.writers.get? w = some x ∧ d.readers.get? r = some y ∧ x.isOpen = true ∧
    y.isOpen = true ∧ x.history.isMatched r = true ∧ y.cache.hasWriter w = true

/-- Two open endpoints of one key that cannot have each other. -/
def Clashing (d : Domain) (w r : Guid) : Prop :=
  ∃ x y, d.writers.get? w = some x ∧ d.readers.get? r = some y ∧ x.isOpen = true ∧
    y.isOpen = true ∧ x.key = y.key ∧ Qos.conflict? x.qos y.qos ≠ none

def openCount (d : Domain) : Nat :=
  d.writers.values.countP (·.isOpen) + d.readers.values.countP (·.isOpen)

variable {d : Domain} {w r : Guid} {x : Writer} {y : Reader}

lemma beside_iff {m : Meeting} :
    d.Beside m ↔ ∃ x y, d.writers.get? m.writer = some x ∧ d.readers.get? m.reader = some y ∧
      x.isOpen = true ∧ y.isOpen = true ∧ x.key = y.key ∧
        m.bound = Qos.compatible x.qos y.qos := by
  simp only [Beside, openAs?_eq_some, card?, Option.map_eq_some_iff]
  constructor
  · rintro ⟨key, q, q', ⟨a, ⟨x, hx, rfl⟩, ho, hk, rfl⟩, ⟨b, ⟨y, hy, rfl⟩, ho', hk', rfl⟩, hc⟩
    exact ⟨x, y, hx, hy, ho, ho', hk.trans hk'.symm, hc⟩
  · rintro ⟨x, y, hx, hy, ho, ho', hk, hc⟩
    exact ⟨x.key, x.qos, y.qos, ⟨_, ⟨x, hx, rfl⟩, ho, rfl, rfl⟩, ⟨_, ⟨y, hy, rfl⟩, ho', hk.symm, rfl⟩,
      hc⟩

lemma clashing_iff : d.Clashing w r ↔ d.Beside ⟨w, r, false⟩ := by
  rw [beside_iff]
  simp only [Clashing, Qos.compatible]
  refine exists_congr fun x => exists_congr fun y => ?_
  cases Qos.conflict? x.qos y.qos <;> simp

def openEntries (d : Domain) : List Entry :=
  (d.writers.filter (·.2.isOpen)).map (fun e => ⟨e.1, .writer, e.2.qos⟩) ++
    (d.readers.filter (·.2.isOpen)).map (fun e => ⟨e.1, .reader, e.2.qos⟩)

lemma length_openEntries (d : Domain) : d.openEntries.length = d.openCount := by
  simp only [openEntries, openCount, List.length_append, List.length_map, Table.values,
    List.countP_map, ← List.countP_eq_length_filter]
  rfl

lemma mem_openEntries (h : d.Wf) {e : Entry} :
    e ∈ d.openEntries ↔ ∃ key, d.openAs? e.kind e.guid = some (key, e.qos) := by
  obtain ⟨g, k, q⟩ := e
  simp only [openEntries, List.mem_append, List.mem_map, List.mem_filter, Entry.mk.injEq,
    openAs?_eq_some]
  cases k with
  | writer =>
    simp only [card?, Option.map_eq_some_iff, reduceCtorEq, false_and, and_false, exists_false,
      or_false, true_and]
    constructor
    · rintro ⟨⟨_, x⟩, ⟨hx, ho⟩, rfl, rfl⟩
      exact ⟨x.key, _, ⟨x, Table.get?_of_mem h.writers hx, rfl⟩, ho, rfl, rfl⟩
    · rintro ⟨key, a, ⟨x, hx, rfl⟩, ho, -, hq⟩
      exact ⟨(g, x), ⟨Table.mem_of_get? hx, ho⟩, rfl, hq⟩
  | reader =>
    simp only [card?, Option.map_eq_some_iff, reduceCtorEq, false_and, and_false, exists_false,
      false_or, true_and]
    constructor
    · rintro ⟨⟨_, y⟩, ⟨hy, ho⟩, rfl, rfl⟩
      exact ⟨y.key, _, ⟨y, Table.get?_of_mem h.readers hy, rfl⟩, ho, rfl, rfl⟩
    · rintro ⟨key, a, ⟨y, hy, rfl⟩, ho, -, hq⟩
      exact ⟨(g, y), ⟨Table.mem_of_get? hy, ho⟩, rfl, hq⟩

lemma nodup_openEntries (h : d.Wf) : d.openEntries.Nodup := by
  have hwriters : ((d.writers.filter (·.2.isOpen)).map fun e =>
      (⟨e.1, .writer, e.2.qos⟩ : Entry)).Nodup := by
    refine List.Nodup.of_map Entry.guid ?_
    rw [List.map_map]
    exact h.writers.filter _
  have hreaders : ((d.readers.filter (·.2.isOpen)).map fun e =>
      (⟨e.1, .reader, e.2.qos⟩ : Entry)).Nodup := by
    refine List.Nodup.of_map Entry.guid ?_
    rw [List.map_map]
    exact h.readers.filter _
  refine List.nodup_append.mpr ⟨hwriters, hreaders, fun e he e' he' => ?_⟩
  obtain ⟨e₀, -, rfl⟩ := List.mem_map.mp he
  obtain ⟨e₁, -, rfl⟩ := List.mem_map.mp he'
  simp

lemma Listed.nodup_entries (h : d.Listed) : (d.entries.flatMap (·.2)).Nodup := by
  have hget : ∀ e ∈ d.entries, d.listed e.1 = e.2 := fun e he => by
    rw [listed, Table.get?_of_mem h.entries he]
    rfl
  refine List.nodup_flatMap.mpr ⟨fun e he => ?_, ?_⟩
  · exact hget e he ▸ (h.nodup e.1).of_map
  · refine (List.pairwise_map.mp h.entries).imp_of_mem fun {e e'} he he' hne => ?_
    refine List.disjoint_left.mpr fun a ha ha' => hne ?_
    -- who is listed twice is open under both keys
    have hkey := (h.mem e.1 a).mp (hget e he ▸ ha)
    have hkey' := (h.mem e'.1 a).mp (hget e' he' ▸ ha')
    exact (Prod.mk.inj (Option.some.inj (hkey.symm.trans hkey'))).1

lemma Listed.endpointCount (h : d.Listed) (hwf : d.Wf) : d.endpointCount = d.openCount := by
  have hmem : ∀ e, e ∈ d.entries.flatMap (·.2) ↔ e ∈ d.openEntries := by
    intro e
    rw [mem_openEntries hwf, List.mem_flatMap]
    constructor
    · rintro ⟨⟨key, es⟩, hes, he⟩
      have hlisted : d.listed key = es := by
        rw [listed, Table.get?_of_mem h.entries hes]
        rfl
      exact ⟨key, (h.mem key e).mp (hlisted ▸ he)⟩
    · rintro ⟨key, he⟩
      have hmem := (h.mem key e).mpr he
      rw [listed] at hmem
      cases hget : d.entries.get? key with
      | none => simp [hget] at hmem
      | some es => exact ⟨(key, es), Table.mem_of_get? hget, by simpa [hget] using hmem⟩
  have hperm := (List.perm_ext_iff_of_nodup h.nodup_entries (nodup_openEntries hwf)).mpr hmem
  have hlength := hperm.length_eq
  rw [length_openEntries, List.length_flatMap] at hlength
  rw [← hlength, Domain.endpointCount, Table.values, List.length_flatten, List.map_map]
  rfl

end Domain

namespace Good

open Domain

variable {met : List Meeting} {t : Trace} {w r : Guid} {x : Writer} {y : Reader}

/-- Two open endpoints have been bound exactly if they may have each other. -/
lemma met_iff (h : Good met t) (hx : t.domain.writers.get? w = some x)
    (hy : t.domain.readers.get? r = some y) (ho : x.isOpen = true) (ho' : y.isOpen = true) :
    ⟨w, r, true⟩ ∈ met ↔ x.key = y.key ∧ Qos.conflict? x.qos y.qos = none := by
  constructor
  · intro hm
    obtain ⟨a, b, ha, hb, hk, hc⟩ := h.sound.known _ hm
    have ha' : t.view.card .writer w = some (.ofWriter x) := by simp [Trace.view, card?, hx]
    have hb' : t.view.card .reader r = some (.ofReader y) := by simp [Trace.view, card?, hy]
    obtain rfl := Option.some.inj (ha.symm.trans ha')
    obtain rfl := Option.some.inj (hb.symm.trans hb')
    exact ⟨hk, Option.isNone_iff_eq_none.mp hc.symm⟩
  · rintro ⟨hk, hc⟩
    exact h.settled _ (beside_iff.mpr ⟨x, y, hx, hy, ho, ho', hk, by simp [Qos.compatible, hc]⟩)

lemma bound_pair (h : Good met t) (hx : t.domain.writers.get? w = some x)
    (hy : t.domain.readers.get? r = some y) (ho : x.isOpen = true) (ho' : y.isOpen = true)
    (hm : ⟨w, r, true⟩ ∈ met) :
    ∃ k, (t.view.pair w r).Bound (x.qos.isReliable && y.qos.isReliable) k :=
  h.sound.bound w r (.ofWriter x) (.ofReader y) (by simp [Trace.view, card?, hx])
    (by simp [Trace.view, card?, hy]) ho ho' hm

lemma isMatched_iff (h : Good met t) (hx : t.domain.writers.get? w = some x)
    (hy : t.domain.readers.get? r = some y) (ho : x.isOpen = true) (ho' : y.isOpen = true) :
    x.history.isMatched r = true ↔ ⟨w, r, true⟩ ∈ met := by
  have hproxy : (t.view.pair w r).proxy = x.history.proxies.get? r := by
    simp [Trace.view, proxy?, hx]
  rw [WriterHistory.isMatched, Table.has_eq_true, ← hproxy]
  constructor
  · rintro ⟨p, hp⟩
    by_contra hm
    rw [h.sound.apart w r hm] at hp
    simp [Pair.apart] at hp
  · intro hm
    obtain ⟨k, hk⟩ := h.bound_pair hx hy ho ho' hm
    obtain ⟨p, hp, -⟩ := hk.proxy
    exact ⟨p, hp⟩

lemma hasWriter_iff (h : Good met t) (hx : t.domain.writers.get? w = some x)
    (hy : t.domain.readers.get? r = some y) (ho : x.isOpen = true) (ho' : y.isOpen = true) :
    y.cache.hasWriter w = true ↔ ⟨w, r, true⟩ ∈ met := by
  have hpeer : (t.view.pair w r).peer = y.cache.writers.get? w := by
    simp [Trace.view, peer?, hy]
  rw [ReaderCache.hasWriter, Table.has_eq_true, ← hpeer]
  constructor
  · rintro ⟨q, hq⟩
    by_contra hm
    rw [h.sound.apart w r hm] at hq
    simp [Pair.apart] at hq
  · intro hm
    obtain ⟨k, hk⟩ := h.bound_pair hx hy ho ho' hm
    exact ⟨_, hk.peer⟩

lemma bound_iff (h : Good met t) :
    t.domain.Bound w r ↔ t.domain.Beside ⟨w, r, true⟩ := by
  rw [beside_iff]
  refine exists_congr fun x => exists_congr fun y => ?_
  have hc : true = Qos.compatible x.qos y.qos ↔ Qos.conflict? x.qos y.qos = none := by
    rw [eq_comm]
    exact Option.isNone_iff_eq_none
  constructor
  · rintro ⟨hx, hy, ho, ho', hm, -⟩
    obtain ⟨hk, hq⟩ := (h.met_iff hx hy ho ho').mp ((h.isMatched_iff hx hy ho ho').mp hm)
    exact ⟨hx, hy, ho, ho', hk, hc.mpr hq⟩
  · rintro ⟨hx, hy, ho, ho', hk, hq⟩
    have hm := (h.met_iff hx hy ho ho').mpr ⟨hk, hc.mp hq⟩
    exact ⟨hx, hy, ho, ho', (h.isMatched_iff hx hy ho ho').mpr hm,
      (h.hasWriter_iff hx hy ho ho').mpr hm⟩

/-- An open writer has none but open readers, all of which have it. -/
lemma bound_of_isMatched (h : Good met t) (hx : t.domain.writers.get? w = some x)
    (ho : x.isOpen = true) : t.domain.Bound w r ↔ x.history.isMatched r = true := by
  have hproxy : (t.view.pair w r).proxy = x.history.proxies.get? r := by
    simp [Trace.view, proxy?, hx]
  constructor
  · rintro ⟨x', y, hx', -, -, -, hm, -⟩
    obtain rfl := Option.some.inj (hx'.symm.trans hx)
    exact hm
  · intro hm
    obtain ⟨p, hp⟩ := Table.has_eq_true.mp hm
    have hmet : ⟨w, r, true⟩ ∈ met := by
      by_contra hnot
      rw [h.sound.apart w r hnot] at hproxy
      exact absurd (hproxy.trans hp) (by simp [Pair.apart])
    obtain ⟨-, b, -, hb, -⟩ := h.sound.known _ hmet
    obtain ⟨y, hy, rfl⟩ := Option.map_eq_some_iff.mp hb
    have ho' : y.isOpen = true := by
      by_contra hclosed
      have hopen : t.view.isOpen .writer w = true :=
        View.isOpen_iff.mpr ⟨.ofWriter x, by simp [Trace.view, card?, hx], ho⟩
      have hnone := h.sound.readerLost w r _ hopen hb (by simpa [Card.ofReader] using hclosed)
      exact absurd (hp.symm.trans (hproxy.symm.trans hnone)) (by simp)
    exact ⟨x, y, hx, hy, ho, ho', hm, (h.hasWriter_iff hx hy ho ho').mpr hmet⟩

lemma bound_of_hasWriter (h : Good met t) (hy : t.domain.readers.get? r = some y)
    (ho' : y.isOpen = true) : t.domain.Bound w r ↔ y.cache.hasWriter w = true := by
  have hpeer : (t.view.pair w r).peer = y.cache.writers.get? w := by
    simp [Trace.view, peer?, hy]
  constructor
  · rintro ⟨x, y', -, hy', -, -, -, hm⟩
    obtain rfl := Option.some.inj (hy'.symm.trans hy)
    exact hm
  · intro hm
    obtain ⟨q, hq⟩ := Table.has_eq_true.mp hm
    have hmet : ⟨w, r, true⟩ ∈ met := by
      by_contra hnot
      rw [h.sound.apart w r hnot] at hpeer
      exact absurd (hpeer.trans hq) (by simp [Pair.apart])
    obtain ⟨a, -, ha, -⟩ := h.sound.known _ hmet
    obtain ⟨x, hx, rfl⟩ := Option.map_eq_some_iff.mp ha
    have ho : x.isOpen = true := by
      by_contra hclosed
      have hopen : t.view.isOpen .reader r = true :=
        View.isOpen_iff.mpr ⟨.ofReader y, by simp [Trace.view, card?, hy], ho'⟩
      have hnone := h.sound.writerLost w r _ hopen ha (by simpa [Card.ofWriter] using hclosed)
      exact absurd (hq.symm.trans (hpeer.symm.trans hnone)) (by simp)
    exact ⟨x, y, hx, hy, ho, ho', (h.isMatched_iff hx hy ho ho').mpr hmet, hm⟩

/-- A writer has as many readers as its counters say. -/
lemma writer_counts (h : Good met t) (hx : t.domain.writers.get? w = some x)
    (ho : x.isOpen = true) :
    {r | t.domain.Bound w r}.encard = x.matched.current ∧
      {r | ⟨w, r, true⟩ ∈ met}.encard = x.matched.total ∧
      {r | ⟨w, r, false⟩ ∈ met}.encard = x.incompatible.total := by
  have htidy := h.wf.writer w x hx
  have hcard : t.view.card .writer w = some (.ofWriter x) := by simp [Trace.view, card?, hx]
  obtain ⟨htotal, hrefused⟩ := h.sound.counts .writer w _ hcard
  have hmet : ∀ c, {r | ⟨w, r, c⟩ ∈ met} =
      {r | ∃ m ∈ met, (m.of .writer = w ∧ m.bound = c) ∧ m.peer .writer = r} := by
    intro c
    ext r
    constructor
    · exact fun hm => ⟨_, hm, ⟨rfl, rfl⟩, rfl⟩
    · rintro ⟨m, hm, ⟨rfl, rfl⟩, rfl⟩
      exact hm
  refine ⟨?_, ?_, ?_⟩
  · have hbound : {r | t.domain.Bound w r} = {r | r ∈ x.history.proxies.keys} := by
      ext r
      exact (h.bound_of_isMatched hx ho).trans Table.has_iff_mem_keys
    rw [hbound, encard_mem htidy.history.proxies, Table.keys, List.length_map, htidy.current]
  · rw [hmet, h.sound.encard_met, ← htotal]
    rfl
  · rw [hmet, h.sound.encard_met, ← hrefused]
    rfl

/-- A reader has as many writers as its counters say. -/
lemma reader_counts (h : Good met t) (hy : t.domain.readers.get? r = some y)
    (ho : y.isOpen = true) :
    {w | t.domain.Bound w r}.encard = y.matched.current ∧
      {w | ⟨w, r, true⟩ ∈ met}.encard = y.matched.total ∧
      {w | ⟨w, r, false⟩ ∈ met}.encard = y.incompatible.total := by
  have htidy := h.wf.reader r y hy
  have hcard : t.view.card .reader r = some (.ofReader y) := by simp [Trace.view, card?, hy]
  obtain ⟨htotal, hrefused⟩ := h.sound.counts .reader r _ hcard
  have hmet : ∀ c, {w | ⟨w, r, c⟩ ∈ met} =
      {w | ∃ m ∈ met, (m.of .reader = r ∧ m.bound = c) ∧ m.peer .reader = w} := by
    intro c
    ext w
    constructor
    · exact fun hm => ⟨_, hm, ⟨rfl, rfl⟩, rfl⟩
    · rintro ⟨m, hm, ⟨rfl, rfl⟩, rfl⟩
      exact hm
  refine ⟨?_, ?_, ?_⟩
  · have hbound : {w | t.domain.Bound w r} = {w | w ∈ y.cache.writers.keys} := by
      ext w
      exact (h.bound_of_hasWriter hy ho).trans Table.has_iff_mem_keys
    rw [hbound, encard_mem htidy.writers, Table.keys, List.length_map, htidy.current]
  · rw [hmet, h.sound.encard_met, ← htotal]
    rfl
  · rw [hmet, h.sound.encard_met, ← hrefused]
    rfl

end Good

/-- **Matching is exact and symmetric.** Whatever has been done in a domain, an open writer and an
open reader have each other exactly if they are of one key and the reader asks for no more than
the writer offers. The counters of an open endpoint say how many peers it has, how many it has
ever had, and how many of its key it has been open together with and could not have; and as many
endpoints are listed as are open. -/
theorem matching_exact (registry id : Nat) (latency : Span) (clock : Nat) (as : List Act) :
    let d₀ := Domain.new registry id latency clock
    let d := d₀.after as
    (∀ w r x y, d.writers.get? w = some x → d.readers.get? r = some y →
      x.isOpen = true → y.isOpen = true →
        (x.history.isMatched r = true ↔ x.key = y.key ∧ Qos.conflict? x.qos y.qos = none) ∧
        (y.cache.hasWriter w = true ↔ x.key = y.key ∧ Qos.conflict? x.qos y.qos = none)) ∧
    (∀ w x, d.writers.get? w = some x → x.isOpen = true →
      {r | d.Bound w r}.encard = x.matched.current ∧
      {r | ∃ as', as' <+: as ∧ (d₀.after as').Bound w r}.encard = x.matched.total ∧
      {r | ∃ as', as' <+: as ∧ (d₀.after as').Clashing w r}.encard = x.incompatible.total) ∧
    (∀ r y, d.readers.get? r = some y → y.isOpen = true →
      {w | d.Bound w r}.encard = y.matched.current ∧
      {w | ∃ as', as' <+: as ∧ (d₀.after as').Bound w r}.encard = y.matched.total ∧
      {w | ∃ as', as' <+: as ∧ (d₀.after as').Clashing w r}.encard = y.incompatible.total) ∧
    d.endpointCount = d.openCount := by
  intro d₀ d
  obtain ⟨met, h, hmet⟩ := good_run registry id latency clock as
  have hdomain : ((Trace.start registry id latency clock).run as).domain = d :=
    Trace.domain_run _ as
  -- who has ever met whom is what some prefix of the run shows
  have hbound : ∀ w r, (∃ as', as' <+: as ∧ (d₀.after as').Bound w r) ↔ ⟨w, r, true⟩ ∈ met := by
    intro w r
    rw [hmet]
    refine exists_congr fun as' => and_congr_right fun _ => ?_
    obtain ⟨met', h', -⟩ := good_run registry id latency clock as'
    have hiff := h'.bound_iff (w := w) (r := r)
    rwa [Trace.domain_run] at hiff
  have hclashing : ∀ w r, (∃ as', as' <+: as ∧ (d₀.after as').Clashing w r) ↔
      ⟨w, r, false⟩ ∈ met := by
    intro w r
    rw [hmet]
    exact exists_congr fun as' => and_congr_right fun _ => Domain.clashing_iff
  simp only [hbound, hclashing, ← hdomain]
  refine ⟨fun w r x y hx hy ho ho' => ?_, fun w x hx ho => h.writer_counts hx ho,
    fun r y hy ho => h.reader_counts hy ho, h.listed.endpointCount h.wf⟩
  have hiff := h.met_iff hx hy ho ho'
  exact ⟨(h.isMatched_iff hx hy ho ho').trans hiff, (h.hasWriter_iff hx hy ho ho').trans hiff⟩

/-- A writer gets two readers, one of which is closed, and cannot have a third one. -/
def crowd : List Act :=
  [.join 1 "p", .join 2 "q", .createGroup 1 .publisher, .createGroup 2 .subscriber,
    .createEndpoint 1 .writer ⟨1, 1⟩ ⟨"t", SampleType.hello.name, 1⟩ .hello .reliable,
    .createEndpoint 2 .reader ⟨2, 1⟩ ⟨"t", SampleType.hello.name, 2⟩ .hello .reliable,
    .createEndpoint 2 .reader ⟨2, 1⟩ ⟨"t", SampleType.hello.name, 2⟩ .hello .bestEffort,
    .createEndpoint 2 .reader ⟨2, 1⟩ ⟨"t", SampleType.hello.name, 2⟩ .hello .interop,
    .close ⟨2, 3⟩]

/-- It has one reader, has had two, and has met one that asks for too much. -/
theorem matching_exact_crowd :
    let d₀ := Domain.new 0 0 .zero 0
    let d := d₀.after crowd
    {r | d.Bound ⟨1, 2⟩ r}.encard = 1 ∧
      {r | ∃ as', as' <+: crowd ∧ (d₀.after as').Bound ⟨1, 2⟩ r}.encard = 2 ∧
      {r | ∃ as', as' <+: crowd ∧ (d₀.after as').Clashing ⟨1, 2⟩ r}.encard = 1 ∧
      d.Bound ⟨1, 2⟩ ⟨2, 2⟩ ∧ d.openCount = 3 := by
  intro d₀ d
  obtain ⟨hmatch, hwriter, -, hcount⟩ := matching_exact 0 0 .zero 0 crowd
  have hw : (d.writers.get? ⟨1, 2⟩).map (fun x => (Card.ofWriter x, x.matched.current)) =
      some (⟨.of "t" SampleType.hello.name, .reliable, true, 2, 1⟩, 1) := by decide +kernel
  have hr : (d.readers.get? ⟨2, 2⟩).map Card.ofReader =
      some ⟨.of "t" SampleType.hello.name, .reliable, true, 1, 0⟩ := by decide +kernel
  have hn : d.endpointCount = 3 := by decide +kernel
  obtain ⟨x, hx, hcard⟩ := Option.map_eq_some_iff.mp hw
  obtain ⟨y, hy, hcard'⟩ := Option.map_eq_some_iff.mp hr
  simp only [Card.ofWriter, Card.ofReader, Prod.mk.injEq, Card.mk.injEq] at hcard hcard'
  obtain ⟨⟨hkey, hqos, ho, htotal, hrefused⟩, hcurrent⟩ := hcard
  obtain ⟨hkey', hqos', ho', -, -⟩ := hcard'
  obtain ⟨hbound, hever, hclash⟩ := hwriter ⟨1, 2⟩ x hx ho
  obtain ⟨hhas, hhas'⟩ := hmatch ⟨1, 2⟩ ⟨2, 2⟩ x y hx hy ho ho'
  have hmay : x.key = y.key ∧ Qos.conflict? x.qos y.qos = none := by
    rw [hkey, hkey', hqos, hqos']
    exact ⟨rfl, rfl⟩
  rw [hcurrent] at hbound
  rw [htotal] at hever
  rw [hrefused] at hclash
  exact ⟨hbound, hever, hclash, ⟨x, y, hx, hy, ho, ho', hhas.mpr hmay, hhas'.mpr hmay⟩,
    hcount.symm.trans hn⟩

end PubSub.Loopback
