import PubSub.Proofs.Link
import PubSub.Proofs.Loopback.Endpoint

/-!
What the endpoints of a domain know of each other, and what is queued between them. Two of them
that meet are bound or pass each other over, once and for all; what two bound endpoints keep of
each other then stays in step with the jobs of the queue until one of them is closed.
-/

namespace PubSub.Loopback

/-! ### A writer and a reader -/

/-- What a writer and a reader keep of each other, the jobs between them, the changes that the
writer has enqueued for the reader, and what became of those that have arrived there. -/
@[ext]
structure Pair where
  proxy : Option ReaderProxy
  peer : Option WriterProxy
  jobs : List (Nat × Change)
  owed : List Change
  got : List (Change × Reception)

namespace Pair

def apart : Pair := ⟨none, none, [], [], []⟩

def write (c : Change) (p : Pair) : Pair :=
  match p.proxy with
  | some x =>
    { p with
      proxy := some (x.enqueue c)
      jobs := p.jobs ++ [(x.next, c)]
      owed := p.owed ++ [c] }
  | none => p

def bind (b : Bool) (cs : List Change) (p : Pair) : Pair :=
  { p with
    proxy := some (.replayed b cs)
    peer := some ⟨b, 1⟩
    jobs := p.jobs ++ numbered 1 cs
    owed := p.owed ++ cs }

def accept (n : Nat) (c : Change) (p : Pair) : Pair :=
  { p with
    proxy := p.proxy.map (·.acknowledge n)
    peer := p.peer.map ({ · with next := n + 1 })
    jobs := p.jobs.tail
    got := p.got ++ [(c, .accepted)] }

def skip (es : List (Change × Reception)) (p : Pair) : Pair :=
  { p with jobs := p.jobs.tail, got := p.got ++ es }

/-- The two are in step: the reader has taken the first `k` changes, the writer has heard of all
of them, and the jobs are the changes after those. -/
structure Bound (b : Bool) (k : Nat) (p : Pair) : Prop where
  proxy : ∃ x, p.proxy = some x ∧ x.reliable = b ∧ x.Keeps p.owed k
  peer : p.peer = some ⟨b, k + 1⟩
  jobs : p.jobs = numbered (k + 1) (p.owed.drop k)
  got : p.got = (p.owed.take k).map fun c => (c, .accepted)
  ordered : Ordered p.owed

variable {b : Bool} {k : Nat} {p : Pair}

lemma bound_bind {cs : List Change} (hcs : Ordered cs) : Bound b 0 (apart.bind b cs) :=
  ⟨⟨_, rfl, ReaderProxy.replayed_reliable b cs, ReaderProxy.keeps_replayed b cs⟩, rfl, rfl, rfl,
    hcs⟩

lemma Bound.le (h : Bound b k p) : k ≤ p.owed.length := by
  obtain ⟨x, -, -, hx⟩ := h.proxy
  exact hx.le

lemma Bound.write (h : Bound b k p) {c : Change} (hc : ∀ d ∈ p.owed, d.sequence < c.sequence) :
    Bound b k (p.write c) := by
  obtain ⟨x, hp, hb, hx⟩ := h.proxy
  have hle := h.le
  have hwrite : p.write c = { p with
      proxy := some (x.enqueue c)
      jobs := p.jobs ++ [(x.next, c)]
      owed := p.owed ++ [c] } := by
    simp [Pair.write, hp]
  rw [hwrite]
  refine ⟨⟨_, rfl, hb, hx.enqueue c⟩, h.peer, ?_, ?_, h.ordered.snoc hc⟩
  · have hnext : x.next = k + 1 + (p.owed.length - k) := by
      rw [hx.next]
      omega
    simp only [h.jobs, hnext]
    rw [List.drop_append_of_le_length hle, numbered_append, List.length_drop]
    rfl
  · simp only [h.got]
    rw [List.take_append_of_le_length hle]

/-- The first job of a pair in step is the change that its reader expects. -/
lemma Bound.first (h : Bound b k p) {n : Nat} {c : Change} {js : List (Nat × Change)}
    (hj : p.jobs = (n, c) :: js) :
    n = k + 1 ∧ p.owed[k]? = some c ∧ js = numbered (k + 2) (p.owed.drop (k + 1)) := by
  have hjobs := h.jobs
  rw [hj] at hjobs
  cases hd : p.owed.drop k with
  | nil => simp [hd, numbered] at hjobs
  | cons c' cs =>
    rw [hd, numbered, List.cons.injEq, Prod.mk.injEq] at hjobs
    obtain ⟨⟨rfl, rfl⟩, rfl⟩ := hjobs
    have htail : p.owed.drop (k + 1) = cs := by
      rw [← List.tail_drop, hd, List.tail_cons]
    have hhead : p.owed[k]? = some c := by
      rw [← List.head?_drop, hd, List.head?_cons]
    exact ⟨rfl, hhead, by rw [htail]⟩

lemma Bound.accept (h : Bound b k p) {n : Nat} {c : Change} {js : List (Nat × Change)}
    (hj : p.jobs = (n, c) :: js) : Bound b (k + 1) (p.accept n c) := by
  obtain ⟨rfl, hc, hjs⟩ := h.first hj
  obtain ⟨x, hp, hb, hx⟩ := h.proxy
  have hlt : k < p.owed.length := (List.getElem?_eq_some_iff.mp hc).1
  refine ⟨⟨x.acknowledge (k + 1), by simp [Pair.accept, hp], hb, ?_⟩, by simp [Pair.accept, h.peer],
    ?_, ?_, h.ordered⟩
  · have hack := hx.acknowledge (k + 1)
    have hmax : max k (min (k + 1) p.owed.length) = k + 1 := by omega
    rwa [hmax] at hack
  · simp only [Pair.accept, hj, List.tail_cons]
    exact hjs
  · simp only [Pair.accept, h.got]
    rw [List.take_add_one, hc]
    simp

end Pair

/-! ### All endpoints -/

/-- A writer and a reader of one key that were open at the same time: they were bound, or passed
each other over. -/
structure Meeting where
  writer : Guid
  reader : Guid
  bound : Bool
deriving DecidableEq

def Meeting.of (m : Meeting) : EndpointKind → Guid
  | .writer => m.writer
  | .reader => m.reader

@[ext]
structure View where
  card : EndpointKind → Guid → Option Card
  /-- The number of the next change of a writer. -/
  next : Guid → Nat
  pair : Guid → Guid → Pair

namespace View

def enter (k : EndpointKind) (g : Guid) (a : Card) (v : View) : View :=
  { v with card := fun k' g' => if k' = k ∧ g' = g then some a else v.card k' g' }

def write (w : Guid) (c : Change) (v : View) : View :=
  { v with
    next := fun w' => if w' = w then v.next w + 1 else v.next w'
    pair := fun w' r => if w' = w then (v.pair w r).write c else v.pair w' r }

def meet (m : Meeting) (b : Bool) (cs : List Change) (v : View) : View :=
  { v with
    card := fun k g => if g = m.of k then (v.card k g).map (·.meet m.bound) else v.card k g
    pair := fun w r =>
      if m = ⟨w, r, true⟩ then (v.pair w r).bind b cs else v.pair w r }

def isOpen (k : EndpointKind) (g : Guid) (v : View) : Bool := (v.card k g).any (·.isOpen)

/-- An endpoint is closed, and every open endpoint of the other kind forgets it. -/
def close (k : EndpointKind) (g : Guid) (v : View) : View :=
  { v with
    card := fun k' g' =>
      if k' = k ∧ g' = g then (v.card k g).map ({ · with isOpen := false }) else v.card k' g'
    pair := fun w r =>
      match k with
      | .writer =>
        if w = g ∧ v.isOpen .reader r = true then { v.pair w r with peer := none } else v.pair w r
      | .reader =>
        if r = g ∧ v.isOpen .writer w = true then { v.pair w r with proxy := none }
        else v.pair w r }

def onPair (w r : Guid) (f : Pair → Pair) (v : View) : View :=
  { v with pair := fun w' r' => if w' = w ∧ r' = r then f (v.pair w r) else v.pair w' r' }

end View

/-- Whoever has met is counted, those that are bound are in step as long as both are open, and
everybody else knows nothing of the other. -/
structure Sound (met : List Meeting) (v : View) : Prop where
  known : ∀ m ∈ met, ∃ a b, v.card .writer m.writer = some a ∧ v.card .reader m.reader = some b ∧
    a.key = b.key ∧ m.bound = Qos.compatible a.qos b.qos
  once : (met.map fun m => (m.writer, m.reader)).Nodup
  counts : ∀ k g a, v.card k g = some a →
    a.total = met.countP (fun m => m.of k = g ∧ m.bound = true) ∧
      a.refused = met.countP (fun m => m.of k = g ∧ m.bound = false)
  apart : ∀ w r, ⟨w, r, true⟩ ∉ met → v.pair w r = .apart
  bound : ∀ w r a b, v.card .writer w = some a → v.card .reader r = some b →
    a.isOpen = true → b.isOpen = true → ⟨w, r, true⟩ ∈ met →
    ∃ k, (v.pair w r).Bound (a.qos.isReliable && b.qos.isReliable) k
  readerLost : ∀ w r b, v.isOpen .writer w = true → v.card .reader r = some b → b.isOpen = false →
    (v.pair w r).proxy = none
  writerLost : ∀ w r a, v.isOpen .reader r = true → v.card .writer w = some a → a.isOpen = false →
    (v.pair w r).peer = none
  earlier : ∀ w r, ∀ c ∈ (v.pair w r).owed, c.sequence < v.next w

namespace View

variable {v : View} {k k' : EndpointKind} {g g' w r : Guid} {m : Meeting} {b : Bool}
  {cs : List Change} {a' : Card}

lemma isOpen_iff : v.isOpen k g = true ↔ ∃ a, v.card k g = some a ∧ a.isOpen = true := by
  unfold isOpen
  cases v.card k g <;> simp

/-! ### Cards after a meeting -/

lemma card_of_meet (h : (v.meet m b cs).card k g = some a') :
    ∃ a, v.card k g = some a ∧ a' = if g = m.of k then a.meet m.bound else a := by
  simp only [meet] at h
  split_ifs at h ⊢ with hg
  · obtain ⟨a, ha, rfl⟩ := Option.map_eq_some_iff.mp h
    exact ⟨a, ha, rfl⟩
  · exact ⟨a', h, rfl⟩

lemma same_of_meet (h : (v.meet m b cs).card k g = some a') :
    ∃ a, v.card k g = some a ∧ a'.qos = a.qos ∧ a'.isOpen = a.isOpen := by
  obtain ⟨a, ha, rfl⟩ := card_of_meet h
  refine ⟨a, ha, ?_, ?_⟩ <;> split_ifs <;> simp

lemma origin_meet (v : View) (m : Meeting) (b : Bool) (cs : List Change) (k : EndpointKind)
    (g : Guid) : ((v.meet m b cs).card k g).map Card.origin = (v.card k g).map Card.origin := by
  simp only [meet]
  split_ifs
  · cases v.card k g <;> simp [Card.origin]
  · rfl

lemma isOpen_of_meet (h : (v.meet m b cs).isOpen k g = true) : v.isOpen k g = true := by
  obtain ⟨a', ha', ho⟩ := isOpen_iff.mp h
  obtain ⟨a, ha, -, hio⟩ := same_of_meet ha'
  exact isOpen_iff.mpr ⟨a, ha, hio ▸ ho⟩

/-! ### Cards and pairs after a close -/

lemma card_of_close (h : (v.close k g).card k' g' = some a') :
    ∃ a, v.card k' g' = some a ∧
      (a' = a ∧ ¬(k' = k ∧ g' = g) ∨ (k' = k ∧ g' = g) ∧ a' = { a with isOpen := false }) := by
  simp only [close] at h
  split_ifs at h with hg
  · obtain ⟨a, ha, rfl⟩ := Option.map_eq_some_iff.mp h
    obtain ⟨rfl, rfl⟩ := hg
    exact ⟨a, ha, .inr ⟨⟨rfl, rfl⟩, rfl⟩⟩
  · exact ⟨a', h, .inl ⟨rfl, hg⟩⟩

lemma origin_close (v : View) (k : EndpointKind) (g : Guid) (k' : EndpointKind) (g' : Guid) :
    ((v.close k g).card k' g').map Card.origin = (v.card k' g').map Card.origin := by
  simp only [close]
  split_ifs with hg
  · obtain ⟨rfl, rfl⟩ := hg
    cases v.card k' g' <;> rfl
  · rfl

lemma isOpen_of_close (h : (v.close k g).isOpen k' g' = true) :
    v.isOpen k' g' = true ∧ ¬(k' = k ∧ g' = g) := by
  obtain ⟨a', ha', ho⟩ := isOpen_iff.mp h
  obtain ⟨a, ha, ⟨rfl, hg⟩ | ⟨-, rfl⟩⟩ := card_of_close ha'
  · exact ⟨isOpen_iff.mpr ⟨a', ha, ho⟩, hg⟩
  · cases ho

/-- A pair loses at most what it keeps of the endpoint that is closed. -/
lemma pair_close (v : View) (k : EndpointKind) (g w r : Guid) :
    (v.close k g).pair w r = v.pair w r ∨
      (k = .writer ∧ w = g) ∧ (v.close k g).pair w r = { v.pair w r with peer := none } ∨
      (k = .reader ∧ r = g) ∧ (v.close k g).pair w r = { v.pair w r with proxy := none } := by
  simp only [close]
  cases k with
  | writer => split_ifs with hg <;> simp [*]
  | reader => split_ifs with hg <;> simp [*]

end View

/-- Two that have met are known wherever endpoints are as they were created. -/
lemma Meeting.known_of_origin {m : Meeting} {v v' : View} {a b : Card}
    (horigin : ∀ k g, (v'.card k g).map Card.origin = (v.card k g).map Card.origin)
    (ha : v.card .writer m.writer = some a) (hb : v.card .reader m.reader = some b)
    (hkey : a.key = b.key) (hq : m.bound = Qos.compatible a.qos b.qos) :
    ∃ a' b', v'.card .writer m.writer = some a' ∧ v'.card .reader m.reader = some b' ∧
      a'.key = b'.key ∧ m.bound = Qos.compatible a'.qos b'.qos := by
  have hstays : ∀ k g c, v.card k g = some c →
      ∃ c', v'.card k g = some c' ∧ c'.key = c.key ∧ c'.qos = c.qos := by
    intro k g c hc
    obtain ⟨c', hc', horig⟩ := Option.map_eq_some_iff.mp
      ((horigin k g).trans (congrArg (Option.map Card.origin) hc))
    obtain ⟨hk, hqos⟩ := Prod.mk.inj horig
    exact ⟨c', hc', hk, hqos⟩
  obtain ⟨a', ha', hka, hqa⟩ := hstays _ _ _ ha
  obtain ⟨b', hb', hkb, hqb⟩ := hstays _ _ _ hb
  exact ⟨a', b', ha', hb', by rw [hka, hkb, hkey], by rw [hqa, hqb, hq]⟩

namespace Sound

variable {met : List Meeting} {v : View}

lemma start (next : Guid → Nat) : Sound [] ⟨fun _ _ => none, next, fun _ _ => .apart⟩ where
  known := by simp
  once := List.nodup_nil
  counts := by simp
  apart _ _ _ := rfl
  bound := by simp
  readerLost := by simp
  writerLost := by simp
  earlier := by simp [Pair.apart]

lemma not_met (h : Sound met v) {k : EndpointKind} {g : Guid} (hg : v.card k g = none)
    {m : Meeting} (hm : m ∈ met) : m.of k ≠ g := by
  rintro rfl
  obtain ⟨a, b, ha, hb, -⟩ := h.known m hm
  cases k with
  | writer => exact absurd (ha.symm.trans hg) (by simp)
  | reader => exact absurd (hb.symm.trans hg) (by simp)

/-- A new endpoint has met nobody. -/
lemma enter (h : Sound met v) {k : EndpointKind} {g : Guid} (hg : v.card k g = none)
    {a : Card} (ht : a.total = 0) (hr : a.refused = 0) : Sound met (v.enter k g a) := by
  have hnot : ∀ k' g' c, (v.enter k g a).card k' g' = some c →
      (k' = k ∧ g' = g ∧ c = a) ∨ (¬(k' = k ∧ g' = g) ∧ v.card k' g' = some c) := by
    intro k' g' c hc
    simp only [View.enter] at hc
    split_ifs at hc with hkg
    · exact .inl ⟨hkg.1, hkg.2, (Option.some.inj hc).symm⟩
    · exact .inr ⟨hkg, hc⟩
  have hold : ∀ k' g' c, v.card k' g' = some c → (v.enter k g a).card k' g' = some c := by
    intro k' g' c hc
    simp only [View.enter]
    rw [if_neg, hc]
    rintro ⟨rfl, rfl⟩
    exact absurd (hc.symm.trans hg) (by simp)
  -- a pair with the new endpoint has never been bound
  have hnew : ∀ w r, (Meeting.mk w r true).of k = g → v.pair w r = .apart := by
    intro w r hof
    exact h.apart w r fun hm => h.not_met hg hm hof
  refine ⟨fun m hm => ?_, h.once, fun k' g' c hc => ?_, h.apart, ?_, ?_, ?_, h.earlier⟩
  · obtain ⟨a', b', ha, hb, hrest⟩ := h.known m hm
    exact ⟨a', b', hold _ _ _ ha, hold _ _ _ hb, hrest⟩
  · rcases hnot k' g' c hc with ⟨rfl, rfl, rfl⟩ | ⟨-, hc⟩
    · rw [ht, hr]
      constructor <;> refine (List.countP_eq_zero.mpr fun m hm => ?_).symm <;>
        simp [h.not_met hg hm]
    · exact h.counts k' g' c hc
  · intro w r a' b' ha hb hoa hob hm
    have hw : v.card .writer w = some a' := by
      rcases hnot _ _ _ ha with ⟨rfl, rfl, -⟩ | ⟨-, ha⟩
      · exact absurd rfl (h.not_met hg hm)
      · exact ha
    have hr : v.card .reader r = some b' := by
      rcases hnot _ _ _ hb with ⟨rfl, rfl, -⟩ | ⟨-, hb⟩
      · exact absurd rfl (h.not_met hg hm)
      · exact hb
    exact h.bound w r a' b' hw hr hoa hob hm
  · intro w r b' hopen hb hcb
    obtain ⟨a', ha, hoa⟩ := View.isOpen_iff.mp hopen
    rcases hnot _ _ _ ha with ⟨rfl, rfl, -⟩ | ⟨-, ha⟩
    · exact congrArg Pair.proxy (hnew w r rfl)
    · rcases hnot _ _ _ hb with ⟨rfl, rfl, -⟩ | ⟨-, hb⟩
      · exact congrArg Pair.proxy (hnew w r rfl)
      · exact h.readerLost w r b' (View.isOpen_iff.mpr ⟨a', ha, hoa⟩) hb hcb
  · intro w r a' hopen ha hca
    obtain ⟨b', hb, hob⟩ := View.isOpen_iff.mp hopen
    rcases hnot _ _ _ ha with ⟨rfl, rfl, -⟩ | ⟨-, ha⟩
    · exact congrArg Pair.peer (hnew w r rfl)
    · rcases hnot _ _ _ hb with ⟨rfl, rfl, -⟩ | ⟨-, hb⟩
      · exact congrArg Pair.peer (hnew w r rfl)
      · exact h.writerLost w r a' (View.isOpen_iff.mpr ⟨b', hb, hob⟩) ha hca

/-- A writer's change goes to everybody that it is bound to. -/
lemma write (h : Sound met v) {w : Guid} (hw : v.isOpen .writer w = true) {c : Change}
    (hc : c.sequence = v.next w) : Sound met (v.write w c) := by
  have hpair : ∀ w' r, (v.write w c).pair w' r = v.pair w' r ∨
      w' = w ∧ (v.write w c).pair w' r = (v.pair w r).write c := by
    intro w' r
    by_cases hw' : w' = w
    · exact .inr ⟨hw', if_pos hw'⟩
    · exact .inl (if_neg hw')
  refine ⟨h.known, h.once, h.counts, fun w' r hm => ?_, ?_, ?_, ?_, fun w' r c' hc' => ?_⟩
  · rcases hpair w' r with hp | ⟨rfl, hp⟩
    · rw [hp, h.apart w' r hm]
    · rw [hp, h.apart w' r hm]
      rfl
  · intro w' r a b ha hb hoa hob hm
    obtain ⟨k, hk⟩ := h.bound w' r a b ha hb hoa hob hm
    rcases hpair w' r with hp | ⟨rfl, hp⟩
    · exact ⟨k, by rwa [hp]⟩
    · refine ⟨k, ?_⟩
      rw [hp]
      exact hk.write fun d hd => hc ▸ h.earlier w' r d hd
  · intro w' r b ha hb hcb
    have hnone := h.readerLost w' r b ha hb hcb
    rcases hpair w' r with hp | ⟨rfl, hp⟩
    · rw [hp, hnone]
    · rw [hp]
      simp [Pair.write, hnone]
  · intro w' r a hb ha hca
    have hnone := h.writerLost w' r a hb ha hca
    rcases hpair w' r with hp | ⟨rfl, hp⟩
    · rw [hp, hnone]
    · -- an open writer is not closed
      obtain ⟨a', ha', hoa⟩ := View.isOpen_iff.mp hw
      obtain rfl : a' = a := Option.some.inj (ha'.symm.trans ha)
      exact absurd (hoa.symm.trans hca) (by simp)
  · simp only [View.write] at hc' ⊢
    split_ifs at hc' ⊢ with hw'
    · have hle : ∀ d ∈ (v.pair w r).owed, d.sequence < v.next w + 1 := fun d hd =>
        Nat.lt_succ_of_lt (h.earlier w r d hd)
      unfold Pair.write at hc'
      split at hc'
      · rcases List.mem_append.mp hc' with hc' | hc'
        · exact hle c' hc'
        · obtain rfl := List.mem_singleton.mp hc'
          omega
      · exact hle c' hc'
    · exact h.earlier w' r c' hc'

/-! ### A meeting -/

section Meet

variable {w r : Guid} {a b : Card} {c : Bool} {cs : List Change}

lemma known_meet (h : Sound met v) (ha : v.card .writer w = some a)
    (hb : v.card .reader r = some b) (hkey : a.key = b.key) (hc : c = Qos.compatible a.qos b.qos)
    (e : Bool) {m : Meeting} (hm : m ∈ met ++ [⟨w, r, c⟩]) :
    ∃ a' b', (v.meet ⟨w, r, c⟩ e cs).card .writer m.writer = some a' ∧
      (v.meet ⟨w, r, c⟩ e cs).card .reader m.reader = some b' ∧ a'.key = b'.key ∧
      m.bound = Qos.compatible a'.qos b'.qos := by
  rcases List.mem_append.mp hm with hm | hm
  · obtain ⟨a₀, b₀, ha₀, hb₀, hk, hq⟩ := h.known m hm
    exact Meeting.known_of_origin (v.origin_meet _ e cs) ha₀ hb₀ hk hq
  · obtain rfl := List.mem_singleton.mp hm
    exact Meeting.known_of_origin (v.origin_meet _ e cs) ha hb hkey hc

lemma once_meet (h : Sound met v) (hnew : ∀ c, ⟨w, r, c⟩ ∉ met) (c : Bool) :
    ((met ++ [Meeting.mk w r c]).map fun m => (m.writer, m.reader)).Nodup := by
  rw [List.map_append, List.nodup_append]
  refine ⟨h.once, List.nodup_singleton _, fun e he e' he' => ?_⟩
  obtain rfl := List.mem_singleton.mp he'
  rintro rfl
  obtain ⟨m, hm, he⟩ := List.mem_map.mp he
  obtain ⟨rfl, rfl⟩ := Prod.mk.inj he
  exact hnew m.bound hm

/-- One more is counted on both sides, as bound or as passed over. -/
lemma counts_meet (h : Sound met v) {m : Meeting} {e : Bool} {k : EndpointKind} {g : Guid}
    {a' : Card} (ha' : (v.meet m e cs).card k g = some a') :
    a'.total = (met ++ [m]).countP (fun m => m.of k = g ∧ m.bound = true) ∧
      a'.refused = (met ++ [m]).countP (fun m => m.of k = g ∧ m.bound = false) := by
  obtain ⟨a₀, h₀, rfl⟩ := View.card_of_meet ha'
  obtain ⟨ht, hr⟩ := h.counts k g a₀ h₀
  rw [List.countP_append, List.countP_append, ← ht, ← hr]
  by_cases hg : g = m.of k
  · subst hg
    cases hm : m.bound <;> simp [Card.meet, hm]
  · simp [hg, Ne.symm hg]

/-- The pair of the two starts anew if they are bound, and every other pair is as it was. -/
lemma pair_meet (h : Sound met v) (hnew : ⟨w, r, true⟩ ∉ met) (c e : Bool) (cs : List Change)
    (w' r' : Guid) :
    (v.meet ⟨w, r, c⟩ e cs).pair w' r' = v.pair w' r' ∧ ¬(w' = w ∧ r' = r ∧ c = true) ∨
      (w' = w ∧ r' = r ∧ c = true) ∧
        (v.meet ⟨w, r, c⟩ e cs).pair w' r' = Pair.apart.bind e cs := by
  simp only [View.meet, Meeting.mk.injEq]
  by_cases hm : w = w' ∧ r = r' ∧ c = true
  · obtain ⟨rfl, rfl, rfl⟩ := hm
    refine .inr ⟨⟨rfl, rfl, rfl⟩, ?_⟩
    rw [if_pos ⟨rfl, rfl, rfl⟩, h.apart w r hnew]
  · exact .inl ⟨if_neg hm, fun ⟨hw, hr, hc⟩ => hm ⟨hw.symm, hr.symm, hc⟩⟩

/-- Those that get bound are in step from the start, with nothing taken. -/
lemma bound_meet (h : Sound met v) (ha : v.card .writer w = some a)
    (hb : v.card .reader r = some b) (hnew : ⟨w, r, true⟩ ∉ met) (hcs : Ordered cs)
    {w' r' : Guid} {a₁ b₁ : Card} :
    let v' := v.meet ⟨w, r, c⟩ (a.qos.isReliable && b.qos.isReliable) cs
    v'.card .writer w' = some a₁ → v'.card .reader r' = some b₁ → a₁.isOpen = true →
      b₁.isOpen = true → ⟨w', r', true⟩ ∈ met ++ [⟨w, r, c⟩] →
      ∃ k, (v'.pair w' r').Bound (a₁.qos.isReliable && b₁.qos.isReliable) k := by
  intro v' ha₁ hb₁ hoa₁ hob₁ hm
  obtain ⟨a₀, ha₀, hqa, hia⟩ := View.same_of_meet ha₁
  obtain ⟨b₀, hb₀, hqb, hib⟩ := View.same_of_meet hb₁
  rw [hqa, hqb]
  rcases h.pair_meet hnew c (a.qos.isReliable && b.qos.isReliable) cs w' r' with
    ⟨hp, hne⟩ | ⟨⟨rfl, rfl, -⟩, hp⟩
  · -- another pair, which had been bound before
    have hmet : ⟨w', r', true⟩ ∈ met := by
      refine (List.mem_append.mp hm).resolve_right fun hlast => hne ?_
      obtain ⟨rfl, rfl, rfl⟩ := Meeting.mk.inj (List.mem_singleton.mp hlast)
      exact ⟨rfl, rfl, rfl⟩
    rw [hp]
    exact h.bound w' r' a₀ b₀ ha₀ hb₀ (hia ▸ hoa₁) (hib ▸ hob₁) hmet
  · obtain rfl : a₀ = a := Option.some.inj (ha₀.symm.trans ha)
    obtain rfl : b₀ = b := Option.some.inj (hb₀.symm.trans hb)
    exact ⟨0, hp ▸ Pair.bound_bind hcs⟩

/-- Two open endpoints of one key that have not met yet do. -/
lemma meet (h : Sound met v) (ha : v.card .writer w = some a)
    (hb : v.card .reader r = some b) (hoa : a.isOpen = true) (hob : b.isOpen = true)
    (hkey : a.key = b.key) (hnew : ∀ c, ⟨w, r, c⟩ ∉ met) (hcs : Ordered cs)
    (hlt : ∀ c ∈ cs, c.sequence < v.next w) (hc : c = Qos.compatible a.qos b.qos) :
    Sound (met ++ [⟨w, r, c⟩])
      (v.meet ⟨w, r, c⟩ (a.qos.isReliable && b.qos.isReliable) cs) := by
  have hpair := h.pair_meet (hnew true) c (a.qos.isReliable && b.qos.isReliable) cs
  refine ⟨fun m hm => h.known_meet ha hb hkey hc _ hm, h.once_meet hnew c,
    fun k g a₁ ha₁ => h.counts_meet ha₁, fun w' r' hm => ?_,
    fun w' r' a₁ b₁ => h.bound_meet ha hb (hnew true) hcs, fun w' r' b₁ hw hb₁ hcb => ?_,
    fun w' r' a₁ hr ha₁ hca => ?_, fun w' r' d hd => ?_⟩
  · have hmem : ⟨w', r', true⟩ ∉ met := fun hmem => hm (List.mem_append_left _ hmem)
    rcases hpair w' r' with ⟨hp, -⟩ | ⟨⟨rfl, rfl, rfl⟩, -⟩
    · rw [hp, h.apart w' r' hmem]
    · exact absurd (List.mem_append_right met (List.mem_singleton.mpr rfl)) hm
  · obtain ⟨b₀, hb₀, -, hib⟩ := View.same_of_meet hb₁
    rcases hpair w' r' with ⟨hp, -⟩ | ⟨⟨-, rfl, -⟩, -⟩
    · rw [hp]
      exact h.readerLost w' r' b₀ (View.isOpen_of_meet hw) hb₀ (hib ▸ hcb)
    · -- the reader that gets bound is open
      obtain rfl : b₀ = b := Option.some.inj (hb₀.symm.trans hb)
      exact absurd (hob.symm.trans (hib ▸ hcb)) (by simp)
  · obtain ⟨a₀, ha₀, -, hia⟩ := View.same_of_meet ha₁
    rcases hpair w' r' with ⟨hp, -⟩ | ⟨⟨rfl, -, -⟩, -⟩
    · rw [hp]
      exact h.writerLost w' r' a₀ (View.isOpen_of_meet hr) ha₀ (hia ▸ hca)
    · -- and so is its writer
      obtain rfl : a₀ = a := Option.some.inj (ha₀.symm.trans ha)
      exact absurd (hoa.symm.trans (hia ▸ hca)) (by simp)
  · change d.sequence < v.next w'
    rcases hpair w' r' with ⟨hp, -⟩ | ⟨⟨rfl, -, -⟩, hp⟩
    · exact h.earlier w' r' d (hp ▸ hd)
    · -- what is replayed was made before
      rw [hp] at hd
      exact hlt d (by simpa [Pair.bind, Pair.apart] using hd)

end Meet

/-! ### A close -/

/-- Two that are still open have not lost each other. -/
lemma bound_close (h : Sound met v) {k : EndpointKind} {g w r : Guid} {a b : Card}
    (ha : (v.close k g).card .writer w = some a) (hb : (v.close k g).card .reader r = some b)
    (hoa : a.isOpen = true) (hob : b.isOpen = true) (hm : ⟨w, r, true⟩ ∈ met) :
    ∃ n, ((v.close k g).pair w r).Bound (a.qos.isReliable && b.qos.isReliable) n := by
  obtain ⟨-, hgw⟩ := View.isOpen_of_close (View.isOpen_iff.mpr ⟨a, ha, hoa⟩)
  obtain ⟨-, hgr⟩ := View.isOpen_of_close (View.isOpen_iff.mpr ⟨b, hb, hob⟩)
  obtain ⟨a₀, ha₀, ⟨rfl, -⟩ | ⟨hg, -⟩⟩ := View.card_of_close ha
  swap
  · exact absurd hg hgw
  obtain ⟨b₀, hb₀, ⟨rfl, -⟩ | ⟨hg, -⟩⟩ := View.card_of_close hb
  swap
  · exact absurd hg hgr
  rcases v.pair_close k g w r with hp | ⟨⟨rfl, rfl⟩, -⟩ | ⟨⟨rfl, rfl⟩, -⟩
  · rw [hp]
    exact h.bound w r a b ha₀ hb₀ hoa hob hm
  · exact absurd ⟨rfl, rfl⟩ hgw
  · exact absurd ⟨rfl, rfl⟩ hgr

/-- A writer that is open has none of the readers that are closed. -/
lemma readerLost_close (h : Sound met v) {k : EndpointKind} {g w r : Guid} {b : Card}
    (hw : (v.close k g).isOpen .writer w = true) (hb : (v.close k g).card .reader r = some b)
    (hcb : b.isOpen = false) : ((v.close k g).pair w r).proxy = none := by
  obtain ⟨hopen, -⟩ := View.isOpen_of_close hw
  obtain ⟨b₀, hb₀, ⟨rfl, -⟩ | ⟨⟨rfl, rfl⟩, -⟩⟩ := View.card_of_close hb
  · -- a reader that was closed before
    have hnone := h.readerLost w r b hopen hb₀ hcb
    rcases v.pair_close k g w r with hp | ⟨-, hp⟩ | ⟨-, hp⟩ <;> simp [hp, hnone]
  · simp [View.close, hopen]

lemma writerLost_close (h : Sound met v) {k : EndpointKind} {g w r : Guid} {a : Card}
    (hr : (v.close k g).isOpen .reader r = true) (ha : (v.close k g).card .writer w = some a)
    (hca : a.isOpen = false) : ((v.close k g).pair w r).peer = none := by
  obtain ⟨hopen, -⟩ := View.isOpen_of_close hr
  obtain ⟨a₀, ha₀, ⟨rfl, -⟩ | ⟨⟨rfl, rfl⟩, -⟩⟩ := View.card_of_close ha
  · -- a writer that was closed before
    have hnone := h.writerLost w r a hopen ha₀ hca
    rcases v.pair_close k g w r with hp | ⟨-, hp⟩ | ⟨-, hp⟩ <;> simp [hp, hnone]
  · simp [View.close, hopen]

/-- When an endpoint is closed, nobody that is open has it any more. -/
lemma close (h : Sound met v) (k : EndpointKind) (g : Guid) : Sound met (v.close k g) where
  known m hm := by
    obtain ⟨a, b, ha, hb, hk, hq⟩ := h.known m hm
    exact Meeting.known_of_origin (v.origin_close k g) ha hb hk hq
  once := h.once
  counts k' g' a₁ ha₁ := by
    obtain ⟨a₀, h₀, ⟨rfl, -⟩ | ⟨-, rfl⟩⟩ := View.card_of_close ha₁
    · exact h.counts k' g' a₁ h₀
    · exact h.counts k' g' a₀ h₀
  apart w r hm := by
    have hapart := h.apart w r hm
    rcases v.pair_close k g w r with hp | ⟨-, hp⟩ | ⟨-, hp⟩ <;> rw [hp, hapart]
    · rfl
    · rfl
  bound w r a b ha hb hoa hob hm := h.bound_close ha hb hoa hob hm
  readerLost w r b hw hb hcb := h.readerLost_close hw hb hcb
  writerLost w r a hr ha hca := h.writerLost_close hr ha hca
  earlier w r d hd := by
    have howed : ((v.close k g).pair w r).owed = (v.pair w r).owed := by
      rcases v.pair_close k g w r with hp | ⟨-, hp⟩ | ⟨-, hp⟩ <;> rw [hp]
    change d.sequence < v.next w
    exact h.earlier w r d (howed ▸ hd)

/-! ### A job runs -/

/-- There are jobs only between endpoints that have been bound. -/
lemma met_of_job (h : Sound met v) {w r : Guid} {e : Nat × Change} {js : List (Nat × Change)}
    (hj : (v.pair w r).jobs = e :: js) : ⟨w, r, true⟩ ∈ met := by
  by_contra hm
  rw [h.apart w r hm] at hj
  simp [Pair.apart] at hj

/-- What one job does to its pair is all that has to be looked at. -/
lemma onPair (h : Sound met v) {w r : Guid} (hm : ⟨w, r, true⟩ ∈ met) {f : Pair → Pair}
    (hbound : ∀ a b, v.card .writer w = some a → v.card .reader r = some b →
      a.isOpen = true → b.isOpen = true →
      ∃ k, (f (v.pair w r)).Bound (a.qos.isReliable && b.qos.isReliable) k)
    (hproxy : (v.pair w r).proxy = none → (f (v.pair w r)).proxy = none)
    (hpeer : (v.pair w r).peer = none → (f (v.pair w r)).peer = none)
    (howed : (f (v.pair w r)).owed = (v.pair w r).owed) : Sound met (v.onPair w r f) := by
  have hpair : ∀ w' r', (v.onPair w r f).pair w' r' = v.pair w' r' ∨
      (w' = w ∧ r' = r) ∧ (v.onPair w r f).pair w' r' = f (v.pair w r) := by
    intro w' r'
    simp only [View.onPair]
    split_ifs with hg
    · exact .inr ⟨hg, rfl⟩
    · exact .inl rfl
  -- the job of one pair leaves every other pair as it is
  refine ⟨h.known, h.once, h.counts, fun w' r' hm' => ?_, fun w' r' a b ha hb hoa hob hm' => ?_,
    fun w' r' b hw hb hcb => ?_, fun w' r' a hr ha hca => ?_, fun w' r' d hd => ?_⟩
  · rcases hpair w' r' with hp | ⟨⟨rfl, rfl⟩, -⟩
    · rw [hp, h.apart w' r' hm']
    · exact absurd hm hm'
  · rcases hpair w' r' with hp | ⟨⟨rfl, rfl⟩, hp⟩
    · rw [hp]
      exact h.bound w' r' a b ha hb hoa hob hm'
    · rw [hp]
      exact hbound a b ha hb hoa hob
  · have hnone := h.readerLost w' r' b hw hb hcb
    rcases hpair w' r' with hp | ⟨⟨rfl, rfl⟩, hp⟩
    · rw [hp, hnone]
    · rw [hp, hproxy hnone]
  · have hnone := h.writerLost w' r' a hr ha hca
    rcases hpair w' r' with hp | ⟨⟨rfl, rfl⟩, hp⟩
    · rw [hp, hnone]
    · rw [hp, hpeer hnone]
  · rcases hpair w' r' with hp | ⟨⟨rfl, rfl⟩, hp⟩
    · exact h.earlier w' r' d (hp ▸ hd)
    · rw [hp, howed] at hd
      exact h.earlier w' r' d hd

variable {w r : Guid} {n : Nat} {c : Change} {js : List (Nat × Change)}

lemma accept (h : Sound met v) (hj : (v.pair w r).jobs = (n, c) :: js) :
    Sound met (v.onPair w r (Pair.accept n c)) := by
  have hm := h.met_of_job hj
  refine h.onPair hm (fun a b ha hb hoa hob => ?_) (fun hn => ?_) (fun hn => ?_) rfl
  · obtain ⟨k, hk⟩ := h.bound w r a b ha hb hoa hob hm
    exact ⟨k + 1, hk.accept hj⟩
  · simp [Pair.accept, hn]
  · simp [Pair.accept, hn]

lemma skip (h : Sound met v) (hj : (v.pair w r).jobs = (n, c) :: js)
    (hclosed : ¬(v.isOpen .writer w = true ∧ v.isOpen .reader r = true))
    (es : List (Change × Reception)) : Sound met (v.onPair w r (Pair.skip es)) := by
  refine h.onPair (h.met_of_job hj) (fun a b ha hb hoa hob => ?_) id id rfl
  have hw := View.isOpen_iff.mpr ⟨a, ha, hoa⟩
  have hr := View.isOpen_iff.mpr ⟨b, hb, hob⟩
  exact absurd ⟨hw, hr⟩ hclosed

/-- An open reader has the writer of a job if and only if that is open too, and then the job
carries what the reader expects. -/
lemma peer_of_job (h : Sound met v) (hj : (v.pair w r).jobs = (n, c) :: js)
    (hr : v.isOpen .reader r = true) :
    (v.isOpen .writer w = false ∧ (v.pair w r).peer = none) ∨
      (v.isOpen .writer w = true ∧ ∃ q, (v.pair w r).peer = some q ∧ q.Takes n) := by
  have hm := h.met_of_job hj
  obtain ⟨a, b, ha, hb, -⟩ := h.known _ hm
  obtain ⟨b', hb', hob⟩ := View.isOpen_iff.mp hr
  obtain rfl : b' = b := Option.some.inj (hb'.symm.trans hb)
  cases hoa : a.isOpen with
  | true =>
    obtain ⟨k, hk⟩ := h.bound w r a b' ha hb hoa hob hm
    obtain ⟨rfl, -, -⟩ := hk.first hj
    exact .inr ⟨View.isOpen_iff.mpr ⟨a, ha, hoa⟩, _, hk.peer, Nat.le_refl _, .inl rfl⟩
  | false =>
    refine .inl ⟨?_, h.writerLost w r a hr ha hoa⟩
    have hcard : v.card .writer w = some a := ha
    simp [View.isOpen, hcard, hoa]

end Sound

end PubSub.Loopback
