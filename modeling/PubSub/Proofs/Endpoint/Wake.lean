import Mathlib.Tactic.FinCases
import PubSub.Middleware
import PubSub.Proofs.Endpoint.Medium
import PubSub.Proofs.Endpoint.Report
import PubSub.Proofs.WaitSet

/-!
Waits that do not miss what they wait for. Whatever makes the condition of a wait true raises a bit
that the waiter listens to, the bit alerts the wait set, and the epoch of the wait set moves on from
what the waiter has read before it looked.
-/

namespace PubSub

open Udp (Look)

namespace StatusCondition

/-- A condition that is changed in such a way goes on to listen to those statuses, and takes no
alert back. -/
def KeepsListening (m : StatusMask) (f : StatusCondition → StatusCondition) : Prop :=
  ∀ k, (k.enabled.contains m = true → (f k).enabled.contains m = true) ∧ k.alerts ≤ (f k).alerts

end StatusCondition

open StatusCondition (KeepsListening)

/-! ### What an endpoint shows -/

def Endpoints.view? (e : Endpoints) : EndpointKind → Guid → Option EndpointView
  | .writer, g => (e.writer? g).map Writer.view
  | .reader, g => (e.reader? g).map Reader.view

lemma Endpoints.kind_of_view? {e : Endpoints} {kind : EndpointKind} {g : Guid} {v : EndpointView}
    (h : e.view? kind g = some v) : v.kind = kind := by
  cases kind <;> obtain ⟨x, -, rfl⟩ := Option.map_eq_some_iff.mp h <;> rfl

/-- An endpoint heeds a wait: it goes on to alert those that listen for it, and does so whenever the
condition of the wait comes true. -/
structure Heeds (c : WaitCondition) (v v' : EndpointView) : Prop where
  kind : v'.kind = v.kind
  listens : v.condition.enabled.contains (c.mask v.kind) = true →
    v'.condition.enabled.contains (c.mask v.kind) = true
  alerts : v.condition.alerts ≤ v'.condition.alerts
  turned : v.condition.enabled.contains (c.mask v.kind) = true →
    c.satisfied v.status = false → c.satisfied v'.status = true →
    v.condition.alerts < v'.condition.alerts

namespace Heeds

variable {c : WaitCondition} {v v' v'' : EndpointView}

/-- The condition of the wait does not come true. -/
lemma of_not_turned (hkind : v'.kind = v.kind)
    (hlistens : v.condition.enabled.contains (c.mask v.kind) = true →
      v'.condition.enabled.contains (c.mask v.kind) = true)
    (halerts : v.condition.alerts ≤ v'.condition.alerts)
    (hs : c.satisfied v'.status = true → c.satisfied v.status = true) : Heeds c v v' :=
  ⟨hkind, hlistens, halerts, fun _ hfalse htrue =>
    absurd (hfalse.symm.trans (hs htrue)) Bool.false_ne_true⟩

/-- The condition of the wait comes true, if at all, with a bit that is raised. -/
lemma of_raise {k : StatusCondition} {m : StatusMask} (hkind : v'.kind = v.kind)
    (hc : v'.condition = k.raise m) (he : k.enabled = v.condition.enabled)
    (ha : k.alerts = v.condition.alerts)
    (hs : c.satisfied v'.status = true →
      c.satisfied v.status = true ∨ (c.mask v.kind).intersects m = true) : Heeds c v v' := by
  refine ⟨hkind, fun hlistens => ?_, ?_, fun hlistens hfalse htrue => ?_⟩
  · rwa [hc, StatusCondition.raise_enabled, he]
  · rw [hc, ← ha]
    exact k.alerts_le_raise m
  · rcases hs htrue with h | h
    · exact absurd (hfalse.symm.trans h) Bool.false_ne_true
    · rw [hc, ← ha]
      exact StatusCondition.alerts_lt_raise (StatusMask.intersects_of_contains (he ▸ hlistens) h)

lemma refl (c : WaitCondition) (v : EndpointView) : Heeds c v v :=
  of_not_turned rfl id (Nat.le_refl _) id

lemma trans (h : Heeds c v v') (h' : Heeds c v' v'') : Heeds c v v'' := by
  refine ⟨h'.kind.trans h.kind, fun hl => h.kind ▸ h'.listens (h.kind.symm ▸ h.listens hl),
    h.alerts.trans h'.alerts, fun hl hfalse htrue => ?_⟩
  -- one of the two makes the condition true
  cases hmid : c.satisfied v'.status with
  | true => exact (h.turned hl hfalse hmid).trans_le h'.alerts
  | false => exact h.alerts.trans_lt (h'.turned (h.kind.symm ▸ h.listens hl) hmid htrue)

end Heeds

/-! ### What happens to an endpoint -/

lemma satisfied_matched_iff {s : EndpointStatus} {x : MatchedStatus} (hc : s.matched = x.current)
    (ht : s.totalMatched = x.total) :
    WaitCondition.matched.satisfied s = true ↔ x.Any := by
  simp [WaitCondition.satisfied, MatchedStatus.Any, hc, ht]

namespace Writer

variable {P : (StatusCondition → StatusCondition) → Prop} {x x' : Writer} {c : WaitCondition}

lemma satisfied_acknowledged_iff (x : Writer) :
    WaitCondition.acknowledged.satisfied x.status = true ↔ x.history.allAcknowledged = true :=
  Iff.rfl

/-- Whatever a writer waits for comes true with a bit that is raised. -/
lemma Reports.heard {cleared : Bool} {raised : StatusMask} (h : x.Reports x' cleared raised)
    (hc : c.satisfied x'.status = true) :
    c.satisfied x.status = true ∨ (c.mask .writer).intersects raised = true := by
  cases c with
  | matched =>
    rw [satisfied_matched_iff (x := x'.matched) rfl rfl] at hc
    rw [satisfied_matched_iff (x := x.matched) rfl rfl]
    refine (h.matched hc).imp id fun hr => ?_
    rwa [StatusMask.intersects_comm]
  | data => simp [WaitCondition.satisfied, status] at hc
  | acknowledged =>
    rw [satisfied_acknowledged_iff, h.pending, Bool.or_eq_true, Bool.and_eq_true] at hc
    rw [satisfied_acknowledged_iff]
    refine hc.imp (·.1) fun hr => ?_
    rw [WaitCondition.mask, StatusMask.or_intersects, StatusMask.intersects_comm, hr, Bool.true_or]

lemma heeds_look (hP : ∀ f, P f → KeepsListening (c.mask .writer) f) {l : Look}
    (hl : l.Within P) : Heeds c x.view (l.writer x).view := by
  have hs : c.satisfied (l.writer x).view.status = c.satisfied x.view.status := by
    cases l <;> cases c <;> rfl
  cases l with
  | take max => exact .refl _ _
  | matched => exact .of_not_turned rfl id (Nat.le_refl _) (hs ▸ id)
  | incompatible => exact .of_not_turned rfl id (Nat.le_refl _) (hs ▸ id)
  | condition f =>
    obtain ⟨hlistens, halerts⟩ := hP f hl x.condition
    exact .of_not_turned rfl hlistens halerts (hs ▸ id)

lemma Moves.heeds (h : x.Moves (·.Within P) x')
    (hP : ∀ f, P f → KeepsListening (c.mask .writer) f) :
    Heeds c x.view x'.view := by
  induction h with
  | refl => exact .refl _ _
  | tail _ hstep ih =>
    refine ih.trans ?_
    rcases hstep.reports with ⟨cleared, raised, hr⟩ | ⟨l, hl, rfl⟩
    · refine .of_raise rfl hr.condition ?_ ?_ hr.heard
      · cases cleared <;> rfl
      · cases cleared <;> rfl
    · exact heeds_look hP hl

end Writer

namespace Reader

variable {P : (StatusCondition → StatusCondition) → Prop} {y y' : Reader} {c : WaitCondition}

lemma satisfied_data_iff (y : Reader) :
    WaitCondition.data.satisfied y.status = true ↔ y.cache.unread ≠ [] := by
  simp [WaitCondition.satisfied, status, List.length_pos_iff]

/-- Whatever a reader waits for comes true with a bit that is raised. -/
lemma Reports.heard {s : Reader × StatusMask} (h : y.Reports s)
    (hc : c.satisfied s.1.status = true) :
    c.satisfied y.status = true ∨ (c.mask .reader).intersects s.2 = true := by
  cases c with
  | matched =>
    rw [satisfied_matched_iff (x := s.1.matched) rfl rfl] at hc
    rw [satisfied_matched_iff (x := y.matched) rfl rfl]
    refine (h.matched hc).imp id fun hr => ?_
    rwa [StatusMask.intersects_comm]
  | data =>
    rw [satisfied_data_iff] at hc ⊢
    refine (h.unread hc).imp id fun hr => ?_
    rwa [StatusMask.intersects_comm]
  | acknowledged => exact .inl rfl

lemma heeds_take (y : Reader) (max : Nat) : Heeds c y.view (y.take max).1.view := by
  cases ho : y.isOpen with
  | false =>
    have hsame : (y.take max).1 = y := by simp [Reader.take, ho]
    rw [hsame]
    exact .refl _ _
  | true =>
    rw [take_of_open ho]
    -- what is left was there before
    have hs : ∀ z : Reader, z.matched = y.matched → z.cache.unread = y.cache.unread.drop max →
        c.satisfied z.status = true → c.satisfied y.status = true := by
      intro z hm hu hz
      cases c with
      | matched =>
        rw [satisfied_matched_iff (x := z.matched) rfl rfl, hm] at hz
        exact (satisfied_matched_iff rfl rfl).mpr hz
      | data =>
        rw [satisfied_data_iff, hu] at hz
        exact (satisfied_data_iff y).mpr fun hnil => hz (by rw [hnil, List.drop_nil])
      | acknowledged => rfl
    simp only
    split_ifs
    · exact .of_not_turned rfl id (Nat.le_refl _) (hs _ rfl rfl)
    · exact .of_not_turned rfl id (Nat.le_refl _) (hs _ rfl rfl)

lemma heeds_look (hP : ∀ f, P f → KeepsListening (c.mask .reader) f) {l : Look}
    (hl : l.Within P) : Heeds c y.view (l.reader y).view := by
  cases l with
  | take max => exact heeds_take y max
  | matched => exact .of_not_turned rfl id (Nat.le_refl _) (by cases c <;> exact id)
  | incompatible => exact .of_not_turned rfl id (Nat.le_refl _) (by cases c <;> exact id)
  | condition f =>
    obtain ⟨hlistens, halerts⟩ := hP f hl y.condition
    exact .of_not_turned rfl hlistens halerts (by cases c <;> exact id)

lemma Moves.heeds (h : y.Moves (·.Within P) y')
    (hP : ∀ f, P f → KeepsListening (c.mask .reader) f) :
    Heeds c y.view y'.view := by
  induction h with
  | refl => exact .refl _ _
  | tail _ hstep ih =>
    refine ih.trans ?_
    rcases hstep.reports with ⟨s, hr, rfl⟩ | ⟨l, hl, rfl⟩ | rfl
    · exact .of_raise rfl rfl (congrArg _ hr.condition) (congrArg _ hr.condition) hr.heard
    · exact heeds_look hP hl
    · exact .of_not_turned rfl id (Nat.le_refl _) id

end Reader

/-- An endpoint that is there stays there, and heeds the waits of those who go on to listen. -/
lemma Evolves.heeds {P : Touches} {e e' : Endpoints} (h : Evolves P.looks e e')
    {kind : EndpointKind} {g : Guid} {c : WaitCondition} (hP : ∀ f, P kind g f → KeepsListening (c.mask kind) f)
    {v : EndpointView} (hv : e.view? kind g = some v) :
    ∃ v', e'.view? kind g = some v' ∧ Heeds c v v' := by
  cases kind with
  | writer =>
    obtain ⟨x, hx, rfl⟩ := Option.map_eq_some_iff.mp hv
    have hgrows := h.writer g
    rw [hx] at hgrows
    generalize hx' : e'.writer? g = o at hgrows
    cases hgrows with
    | kept hmoves => exact ⟨_, congrArg (Option.map Writer.view) hx', hmoves.heeds hP⟩
  | reader =>
    obtain ⟨y, hy, rfl⟩ := Option.map_eq_some_iff.mp hv
    have hgrows := h.reader g
    rw [hy] at hgrows
    generalize hy' : e'.reader? g = o at hgrows
    cases hgrows with
    | kept hmoves => exact ⟨_, congrArg (Option.map Reader.view) hy', hmoves.heeds hP⟩

namespace Medium

variable {S A : Type} {m : Medium S A} {start : S} {as bs : List A} {kind : EndpointKind} {g : Guid}
  {c : WaitCondition} {n w e : Nat} {t : S × Board}

/-- Something happens in the medium, and the board on which the status condition of an endpoint is
posted follows it. -/
def watch (m : Medium S A) (kind : EndpointKind) (g : Guid) (n : Nat) (t : S × Board) (a : A) :
    S × Board :=
  let s := m.step t.1 a
  (s, match (m.endpoints s).view? kind g with
    | some v => t.2.follow n v.condition
    | none => t.2)

def watchAll (m : Medium S A) (kind : EndpointKind) (g : Guid) (n : Nat) (t : S × Board)
    (as : List A) : S × Board := as.foldl (m.watch kind g n) t

lemma watchAll_fst (m : Medium S A) (kind : EndpointKind) (g : Guid) (n : Nat) (t : S × Board)
    (as : List A) : (m.watchAll kind g n t as).1 = m.run t.1 as := by
  induction as generalizing t with
  | nil => rfl
  | cons a as ih => exact ih (m.watch kind g n t a)

/-- Somebody waits on an endpoint: the wait set is attached to the condition of the endpoint, which
listens for the wait, and its epoch was read when it was no later than it is. -/
structure Waits (m : Medium S A) (kind : EndpointKind) (g : Guid) (c : WaitCondition) (n w e : Nat)
    (t : S × Board) : Prop where
  listens : ∃ v, (m.endpoints t.1).view? kind g = some v ∧
    v.condition.enabled.contains (c.mask kind) = true ∧
    t.2.condition? n = some (.status v.condition)
  attached : t.2.Attached w n
  epoch : e ≤ t.2.epoch w

/-- What happens leaves the waiter waiting, and moves the epoch if it makes the condition true. -/
lemma Waits.watch (h : m.Waits kind g c n w e t) {a : A} {P : Touches}
    (hev : Evolves P.looks (m.endpoints t.1) (m.endpoints (m.step t.1 a)))
    (hP : ∀ f, P kind g f → KeepsListening (c.mask kind) f) :
    m.Waits kind g c n w e (m.watch kind g n t a) ∧
      ∀ v v', (m.endpoints t.1).view? kind g = some v →
        (m.endpoints (m.step t.1 a)).view? kind g = some v' →
        c.satisfied v.status = false → c.satisfied v'.status = true →
        e < (m.watch kind g n t a).2.epoch w := by
  obtain ⟨v, hv, hlistens, hposted⟩ := h.listens
  obtain ⟨v', hv', hheeds⟩ := hev.heeds hP hv
  have hkind := Endpoints.kind_of_view? hv
  have hboard : (m.watch kind g n t a).2 = t.2.follow n v'.condition := by
    simp only [Medium.watch, hv']
  refine ⟨⟨⟨v', hv', ?_, ?_⟩, ?_, ?_⟩, fun v₁ v₁' hv₁ hv₁' hfalse htrue => ?_⟩
  · rw [← hkind]
    exact hheeds.listens (hkind.symm ▸ hlistens)
  · rw [hboard]
    exact Board.condition?_follow hposted _
  · exact hboard ▸ h.attached.follow _
  · rw [hboard]
    exact h.epoch.trans (Board.epoch_le_follow _ _ _ _)
  · obtain rfl : v₁ = v := Option.some.inj (hv₁.symm.trans hv)
    obtain rfl : v₁' = v' := Option.some.inj (hv₁'.symm.trans hv')
    have halerts := hheeds.turned (hkind.symm ▸ hlistens) hfalse htrue
    rw [hboard]
    exact h.epoch.trans_lt (h.attached.epoch_lt_follow hposted halerts)

lemma Waits.watchAll (hm : m.Begins start) (h : m.Waits kind g c n w e t)
    (ht : t.1 = m.run start as)
    (hbs : ∀ f, m.Touched bs kind g f → KeepsListening (c.mask kind) f) :
    m.Waits kind g c n w e (m.watchAll kind g n t bs) := by
  induction bs generalizing as t with
  | nil => exact h
  | cons b bs ih =>
    have hev : Evolves (m.Touched [b]).looks (m.endpoints t.1) (m.endpoints (m.step t.1 b)) := by
      have hrun := hm.evolves as [b]
      rw [run_append, ← ht] at hrun
      exact hrun
    have hnext : (m.watch kind g n t b).1 = m.run start (as ++ [b]) := by
      rw [run_append, ← ht]
      rfl
    refine ih (h.watch hev fun f ⟨a, ha, hf⟩ => ?_).1 hnext fun f ⟨a, ha, hf⟩ => ?_
    · exact hbs f ⟨a, List.mem_cons.mpr (.inl (List.mem_singleton.mp ha)), hf⟩
    · exact hbs f ⟨a, List.mem_cons_of_mem b ha, hf⟩

/-- **No wait misses its event.** A waiter finds an endpoint listening for what it waits for,
attaches its wait set to the condition of the endpoint and some time later reads the epoch. From
then on, whatever turns the condition of the wait from false to true moves the epoch on from what
was read. Unless its counter has gone all the way round meanwhile, a wait for the next epoch is
therefore over at once. -/
theorem no_wait_misses (hm : m.Begins start) (as before during : List A) (a : A)
    {v : EndpointView} {b b' : Board} {name : String}
    (hv : (m.endpoints (m.run start as)).view? kind g = some v)
    (henabled : v.condition.enabled.contains (c.mask kind) = true)
    (hposted : b.condition? n = some (.status v.condition)) (hw : b.waitSets.has w = true)
    (hattach : b.attach w n name = .ok b')
    (hlistens : ∀ f, m.Touched (before ++ during ++ [a]) kind g f →
      KeepsListening (c.mask kind) f) :
    let read := m.watchAll kind g n (m.run start as, b') before
    let looked := m.watchAll kind g n read during
    let done := m.watch kind g n looked a
    ∀ s s', (m.endpoints looked.1).view? kind g = some s →
      (m.endpoints done.1).view? kind g = some s' →
      c.satisfied s.status = false → c.satisfied s'.status = true →
      read.2.epoch w < done.2.epoch w ∧
        (done.2.epoch w < read.2.epoch w + 2 ^ 64 → done.2.clock w ≠ read.2.clock w ∧
          ∀ later, done.2.waitSince w (read.2.epoch w) later = true) := by
  intro read looked done s s' hs hs' hfalse htrue
  obtain ⟨hattached, hcondition⟩ := Board.attached_of_attach hw hposted hattach
  have hstart : m.Waits kind g c n w 0 (m.run start as, b') :=
    ⟨⟨v, hv, henabled, hcondition⟩, hattached, Nat.zero_le _⟩
  have hread : m.Waits kind g c n w 0 read :=
    hstart.watchAll hm rfl fun f ⟨b, hb, hf⟩ => hlistens f ⟨b, by simp [hb], hf⟩
  -- the epoch is read now
  have hread' : m.Waits kind g c n w (read.2.epoch w) read :=
    ⟨hread.listens, hread.attached, Nat.le_refl _⟩
  have hfst : read.1 = m.run start (as ++ before) := by
    rw [run_append]
    exact watchAll_fst ..
  have hlooked : m.Waits kind g c n w (read.2.epoch w) looked :=
    hread'.watchAll hm hfst fun f ⟨b, hb, hf⟩ => hlistens f ⟨b, by simp [hb], hf⟩
  have hfst' : looked.1 = m.run start (as ++ before ++ during) := by
    rw [run_append, ← hfst]
    exact watchAll_fst ..
  have hev : Evolves (m.Touched [a]).looks (m.endpoints looked.1) (m.endpoints done.1) := by
    have hrun := hm.evolves (as ++ before ++ during) [a]
    rw [run_append _ _ _ [a], ← hfst'] at hrun
    exact hrun
  have hlt := (hlooked.watch hev fun f ⟨b, hb, hf⟩ => hlistens f ⟨b, by simp_all, hf⟩).2
    s s' hs hs' hfalse htrue
  refine ⟨hlt, fun hfew => ?_⟩
  have hclock : done.2.clock w ≠ read.2.clock w := Board.clock_ne hlt hfew
  exact ⟨hclock, Board.waitSince_of_clock_ne hclock⟩

section Example

open Udp (Happening)

/-- A writer has made a change for a reader that does not answer, and somebody begins to wait for
the acknowledgment. -/
def unanswered : List Happening :=
  [.act (.createGroup .publisher),
    .act (.createEndpoint .writer ⟨1, 1⟩ ⟨"t", SampleType.hello.name, 1⟩ .hello .interop),
    .arrive 0 ⟨0, 7401⟩ (.group (.announce 2 0 "q" 7401 1000
      [⟨⟨2, 2⟩, .reader, "t", SampleType.hello.name, .interop⟩])),
    .act (.submit ⟨1, 2⟩ (.sample (.hello ⟨1, "a"⟩))),
    .act (.lookWriter ⟨1, 2⟩
      (.condition (·.enableAlso (WaitCondition.acknowledged.mask .writer))))]

/-- The wait is over when the reader goes, though nothing has been acknowledged. -/
theorem no_wait_misses_departure :
    let s := udp.run (.new 1 0 "p" 7400 .default) unanswered
    let more : Happening := .act (.submit ⟨1, 2⟩ (.sample (.hello ⟨2, "b"⟩)))
    let bye : Happening := .arrive 1 ⟨0, 7401⟩ (.group (.bye 2))
    ∃ (k : StatusCondition) (b' : Board),
      ((Board.empty.addWaitSet 0).addCondition 1 (.status k)).attach 0 1 "writer" = .ok b' ∧
        let looked := udp.watchAll .writer ⟨1, 2⟩ 1 (s, b') [more]
        let done := udp.watch .writer ⟨1, 2⟩ 1 looked bye
        ((udp.endpoints looked.1).writer? ⟨1, 2⟩).map (·.status.unacknowledged) = some 2 ∧
          ((udp.endpoints done.1).writer? ⟨1, 2⟩).map (·.status.unacknowledged) = some 0 ∧
          b'.epoch 0 < done.2.epoch 0 ∧ done.2.clock 0 ≠ b'.clock 0 ∧
          ∀ later, done.2.waitSince 0 (b'.epoch 0) later = true := by
  intro s more bye
  have hlistens : ∀ f, udp.Touched [more, bye] .writer ⟨1, 2⟩ f →
      KeepsListening (WaitCondition.acknowledged.mask .writer) f := by
    rintro f ⟨a, ha, hf⟩
    fin_cases ha <;> cases hf
  have hstart : ((udp.endpoints s).writer? ⟨1, 2⟩).map (fun x =>
      x.condition.enabled.contains (WaitCondition.acknowledged.mask .writer)) = some true := by
    decide +kernel
  have hlooked : ((udp.endpoints (udp.run s [more])).writer? ⟨1, 2⟩).map
      (·.status.unacknowledged) = some 2 := by decide +kernel
  have hdone : ((udp.endpoints (udp.run s [more, bye])).writer? ⟨1, 2⟩).map
      (·.status.unacknowledged) = some 0 := by decide +kernel
  obtain ⟨x, hx, henabled⟩ := Option.map_eq_some_iff.mp hstart
  obtain ⟨y, hy, hpending⟩ := Option.map_eq_some_iff.mp hlooked
  obtain ⟨z, hz, hnone⟩ := Option.map_eq_some_iff.mp hdone
  obtain ⟨b', hb'⟩ : ∃ b', ((Board.empty.addWaitSet 0).addCondition 1
      (.status x.condition)).attach 0 1 "writer" = .ok b' := ⟨_, rfl⟩
  -- two signals, nowhere near the width of the counter
  have hsignals : ((udp.endpoints s).writer? ⟨1, 2⟩).map (fun x =>
      (((Board.empty.addWaitSet 0).addCondition 1 (.status x.condition)).attach 0 1
        "writer").toOption.map fun b' => (udp.watch .writer ⟨1, 2⟩ 1
          (udp.watchAll .writer ⟨1, 2⟩ 1 (s, b') [more]) bye).2.epoch 0) = some (some 2) := by
    decide +kernel
  rw [hx, Option.map_some, hb'] at hsignals
  have hfew : 2 < b'.epoch 0 + 2 ^ 64 := by omega
  have hview : (udp.endpoints s).view? .writer ⟨1, 2⟩ = some x.view :=
    congrArg (Option.map Writer.view) hx
  have hmiss := no_wait_misses (.udp 1 0 "p" 7400 .default) unanswered [] [more] bye
    (c := .acknowledged) hview henabled rfl rfl hb' hlistens
  obtain ⟨hlt, hround⟩ := hmiss y.view z.view
    (congrArg (Option.map Writer.view) hy) (congrArg (Option.map Writer.view) hz)
    (decide_eq_false fun h => absurd (hpending.symm.trans h) (by decide)) (decide_eq_true hnone)
  exact ⟨x.condition, b', hb', hlooked, hdone, hlt,
    hround ((Option.some.inj (Option.some.inj hsignals)).trans_lt hfew)⟩

end Example

end Medium

end PubSub
