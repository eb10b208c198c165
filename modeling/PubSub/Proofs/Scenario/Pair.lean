import PubSub.Proofs.Loopback.Duet.Wait
import PubSub.Scenario.Catalogue

/-!
The two sides of a scenario on a loopback medium with nobody else. In whatever order they and the
worker take their steps, as long as no time is over, each side comes to its good end.
-/

namespace PubSub.Scenario

open Loopback Loopback.Duet

/-- A scenario and settings that the two sides can be run with: a topic has a name, a sample is a
value of its type, and the quality of service is a valid one that is reliable. -/
structure Playable (s : Scenario) (c : Config) : Prop where
  topic : s.topic ≠ ""
  sample : s.sample.InRange
  qos : s.qos.flaw? = none
  reliable : s.qos.isReliable = true
  config : c.validate = .ok ()

/-- A side owes what its present call has left to do, and comes to its good end with a medium that
grants what it is then entitled to. -/
def Plays (s : Scenario) (c : Config) (σ : Duet) (k : EndpointKind) (x : Side) : Prop :=
  ∃ D, σ.Owes s k D x.chores ∧ x.program.Fulfils s c k D x.phase

structure Sets (s : Scenario) (c : Config) (scope : Scope) (σ : Duet) (g : Stage) : Prop where
  domain : σ.domain = c.domain
  hosts : ∃ a, g.held = (a.map (0, ·)).toList ∧ Hosts s scope σ g.world a
  publisher : Plays s c σ .writer g.publisher
  subscriber : Plays s c σ .reader g.subscriber

variable {s : Scenario} {c : Config} {scope : Scope} {σ σ' : Duet} {w w' : World}
  {a : Option Domain.Receipt} {k : EndpointKind} {x x' : Side} {g g' : Stage}

lemma Playable.room (h : s.Playable c) : s.qos.history ≠ .keepLast 0 := by
  intro hzero
  have hflaw := h.qos
  rw [Qos.flaw?, if_pos hzero] at hflaw
  cases hflaw

lemma orderly (h : Hosts s scope σ w a) : σ.Orderly s.changes.length := by
  obtain ⟨d, -, hfits⟩ := h.domain
  exact hfits.order

/-- What a side has to do stays the same when it has no part in what happens. -/
lemma Plays.onward (h : Plays s c σ k x) (ho : σ.Onward σ' k)
    (horder : σ'.Orderly s.changes.length) : Plays s c σ' k x := by
  obtain ⟨D, howes, hprogram⟩ := h
  exact ⟨D, howes.onward ho horder, hprogram⟩

/-! ### The steps of a side -/

lemma endpoint_of_await {D : Duty} {e : Guid} {cond : WaitCondition} {limit : Span}
    {P : Unit → Duty → Prop} (h : s.Grants c k D (.await e cond limit) P) :
    D.endpoint? = some e := by
  cases cond with
  | matched => exact h.1
  | acknowledged =>
    obtain ⟨p, matched, made, settled, rfl, rfl, -⟩ := h
    rfl
  | data =>
    obtain ⟨p, read, ready, rfl, rfl, -⟩ := h
    rfl

/-- A side that asks for something else than a wait gets an answer at once. -/
lemma step?_ask {gate : Gate World} {q : Request} {next : Except Fault q.Answer → Program}
    (hwait : ∀ e cond limit, q ≠ .await e cond limit) (phase : Option Phase) (listening : Bool) :
    Side.step? gate w ⟨.ask q next, phase, [], listening⟩ =
      some ((w.begin gate q).1,
        ⟨next (w.begin gate q).2.2, phase, (w.begin gate q).2.1, listening⟩) := by
  cases q with
  | await e cond limit => exact absurd rfl (hwait e cond limit)
  | _ => rfl

/-- A side goes on as it should. -/
theorem Plays.step (hplay : s.Playable c) (hx : Plays s c σ k x) (hhosts : Hosts s scope σ w a)
    (hdomain : σ.domain = c.domain)
    (hstep : x.step? (fun w => w.join scope) w = some (w', x')) :
    ∃ σ', Hosts s scope σ' w' a ∧ Plays s c σ' k x' ∧ σ.Onward σ' (other k) ∧
      σ'.domain = σ.domain := by
  obtain ⟨D, howes, hprogram⟩ := hx
  obtain ⟨program, phase, chores, listening⟩ := x
  cases chores with
  | cons t rest =>
    -- what the call has left to do comes before the program
    obtain ⟨σ', w₁, more, hchore, hhosts', howes', honward, hdomain'⟩ := hhosts.chore howes
    simp only [Side.step?, hchore] at hstep
    cases hstep
    exact ⟨σ', hhosts', ⟨D, howes', hprogram⟩, honward, hdomain'⟩
  | nil =>
    obtain ⟨hD⟩ := howes
    cases program with
    | done outcome => cases hstep
    | say line next =>
      cases hstep
      exact ⟨σ, hhosts, ⟨D, .nothing hD, hprogram⟩, .refl σ _, rfl⟩
    | reach phase next =>
      cases hstep
      exact ⟨σ, hhosts, ⟨D, .nothing hD, hprogram⟩, .refl σ _, rfl⟩
    | ask q next =>
      by_cases hwait : ∃ e cond limit, q = .await e cond limit
      · obtain ⟨e, cond, limit, rfl⟩ := hwait
        obtain ⟨p, rfl, hk⟩ := hD.endpoint (endpoint_of_await hprogram)
        cases listening with
        | false =>
          -- a wait begins with listening, and is looked at after that
          cases hstep
          exact ⟨σ, hhosts.listen hk cond, ⟨D, .nothing hD, hprogram⟩, .refl σ _, rfl⟩
        | true =>
          obtain ⟨r, hr, hsome⟩ := Option.map_eq_some_iff.mp hstep
          cases hsome
          obtain ⟨D', rfl, hnext, hD'⟩ := hhosts.awaited hD hprogram hr
          exact ⟨σ, hhosts, ⟨D', .nothing hD', hnext⟩, .refl σ _, rfl⟩
      · -- any other request is served at once
        have hother : ∀ e cond limit, q ≠ .await e cond limit := fun e cond limit heq =>
          hwait ⟨e, cond, limit, heq⟩
        obtain ⟨w₁, chores, r, σ', D', hbegin, hnext, hhosts', howes', honward, hdomain'⟩ :=
          hhosts.serves hplay.config hdomain hplay.topic hplay.sample hplay.qos hplay.reliable hD
            hother hprogram
        rw [step?_ask hother, hbegin] at hstep
        cases hstep
        exact ⟨σ', hhosts', ⟨D', howes', hnext⟩, honward, hdomain'⟩

/-- A side that cannot go on is through, or waits for something that is not there. -/
lemma Plays.stuck (hx : Plays s c σ k x) (hhosts : Hosts s scope σ w a)
    (hstep : x.step? (fun w => w.join scope) w = none) :
    (x.program = .done (.ok ()) ∧ x.phase = some (donePhase k) ∧ (σ.post k).presence = .gone) ∨
      (σ.post k).presence = .active ∧ σ.Waits s k := by
  obtain ⟨D, howes, hprogram⟩ := hx
  obtain ⟨program, phase, chores, listening⟩ := x
  cases chores with
  | cons t rest => cases hstep
  | nil =>
    obtain ⟨hD⟩ := howes
    cases program with
    | done outcome =>
      obtain ⟨rfl, rfl, hphase⟩ := hprogram
      exact .inl ⟨rfl, hphase, hD⟩
    | say line next => cases hstep
    | reach phase next => cases hstep
    | ask q next =>
      by_cases hwait : ∃ e cond limit, q = .await e cond limit
      · obtain ⟨e, cond, limit, rfl⟩ := hwait
        cases listening with
        | false => cases hstep
        | true => exact .inr (hhosts.waits hD hprogram (Option.map_eq_none_iff.mp hstep))
      · rw [step?_ask fun e cond limit heq => hwait ⟨e, cond, limit, heq⟩] at hstep
        cases hstep

/-! ### The steps of the worker -/

/-- The worker passes something on, which is nothing that a side has a part in. -/
lemma Sets.deliver (h : Sets s c scope σ g) (honward : ∀ k, σ.Onward σ' k)
    (hhosts' : Hosts s scope σ' w a)
    (hdomain : σ'.domain = σ.domain) :
    Sets s c scope σ' { g with world := w, held := (a.map (0, ·)).toList } :=
  ⟨hdomain.trans h.domain, ⟨a, rfl, hhosts'⟩,
    h.publisher.onward (honward .writer) (orderly hhosts'),
    h.subscriber.onward (honward .reader) (orderly hhosts')⟩

/-- **Whatever step is taken, the stage stays set.** -/
theorem Sets.step (hplay : s.Playable c) (h : Sets s c scope σ g)
    (hstep : Stage.Step (fun w => w.join scope) g g') : ∃ σ', Sets s c scope σ' g' := by
  obtain ⟨a, hheld, hhosts⟩ := h.hosts
  cases hstep with
  | publish hstep =>
    obtain ⟨σ', hhosts', hplays, honward, hdomain⟩ := h.publisher.step hplay hhosts h.domain hstep
    exact ⟨σ', hdomain.trans h.domain, ⟨a, hheld, hhosts'⟩, hplays,
      h.subscriber.onward honward (orderly hhosts')⟩
  | subscribe hstep =>
    obtain ⟨σ', hhosts', hplays, honward, hdomain⟩ := h.subscriber.step hplay hhosts h.domain hstep
    exact ⟨σ', hdomain.trans h.domain, ⟨a, hheld, hhosts'⟩,
      h.publisher.onward honward (orderly hhosts'), hplays⟩
  | @store i d j rest hd hp hnone hq =>
    obtain ⟨rfl, hdomains, ⟨k, hk⟩, hfits⟩ := hhosts.worker hd
    -- no worker is at an acknowledgment, so none is on its way
    obtain rfl : a = none := by
      rw [hheld] at hnone
      cases a with
      | none => rfl
      | some n => cases hnone
    rw [hheld, hdomains]
    cases hend : σ.reader.presence.ending with
    | false =>
      obtain ⟨d', n, hstore, hfits'⟩ := hfits.store hend hplay.room hq
      rw [hstore]
      exact ⟨_, h.deliver (onward_deliver (Nat.le_succ _) (Nat.le_refl _))
        (hhosts.set hfits' rfl hk fun k => by cases k <;> rfl) rfl⟩
    | true =>
      obtain ⟨d', hstore, hfits'⟩ := hfits.store_late hend j rest
      -- the reader has been closed, and the job comes to nothing
      rw [hstore]
      exact ⟨σ, h.deliver (.refl σ) (hhosts.stay hk hfits') rfl⟩
  | @confirm i d n hd hheld' =>
    obtain ⟨rfl, hdomains, ⟨k, hk⟩, hfits⟩ := hhosts.worker hd
    -- the acknowledgment is the one that the worker is at
    obtain rfl : a = some n := by
      rw [hheld] at hheld'
      cases a with
      | none => cases hheld'
      | some m => exact congrArg some (Option.some.inj hheld')
    rw [hheld, hdomains]
    cases hend : σ.reader.presence.ending with
    | false =>
      have hacked := hfits.order.acked
      exact ⟨_, h.deliver (onward_deliver (Nat.le_refl _) hacked)
        (hhosts.set (hfits.confirm hend) rfl hk fun k => by cases k <;> rfl) rfl⟩
    | true => exact ⟨σ, h.deliver (.refl σ) (hhosts.stay hk (hfits.confirm_late hend)) rfl⟩

/-! ### From the start to the end -/

lemma fits_new (registry domain : Nat) (latency : Span) (now : Nat) :
    Fits s (.silent registry domain) (.new registry domain latency now) none where
  order := by
    refine ⟨fun h => absurd rfl h, ?_, ?_, ?_, ?_, ?_, fun hpos => absurd hpos (Nat.lt_irrefl 0),
      Bool.noConfusion, Bool.noConfusion⟩ <;> exact Nat.zero_le _
  registry := rfl
  id := rfl
  paused := rfl
  housed k := by cases k <;> trivial
  peopled _ := Bool.noConfusion
  noWriter _ := rfl
  noReader _ := rfl
  writer := Bool.noConfusion
  reader := Bool.noConfusion
  entries := .refl _
  jobs _ := by simp [Domain.new, silent]
  receipt _ := rfl

lemma sets_start (hplay : s.Playable c) (hw : w.domains = []) :
    Sets s c scope (.silent scope.registry c.domain)
      (Stage.start w (s.publisher c) (s.subscriber c)) where
  domain := rfl
  hosts := by
    refine ⟨none, rfl, rfl, ⟨_, .inr ⟨hw, rfl⟩, fits_new _ _ _ _⟩, fun k => ?_⟩
    have hbase : 0 < World.idBase + w.nextParticipant := Nat.add_pos_left (by decide) _
    cases k with
    | writer => exact hbase
    | reader => exact hbase
  publisher := ⟨.outside, .nothing rfl, publisher_fulfils hplay.config⟩
  subscriber := ⟨.outside, .nothing rfl, subscriber_fulfils hplay.config⟩

/-- **Whatever has happened so far, the stage is set.** -/
theorem sets_of_reaches (hplay : s.Playable c) (hw : w.domains = [])
    (hg : Stage.Reaches (fun w => w.join scope)
      (Stage.start w (s.publisher c) (s.subscriber c)) g) : ∃ σ, Sets s c scope σ g := by
  induction hg with
  | refl => exact ⟨_, sets_start hplay hw⟩
  | tail _ hstep ih =>
    obtain ⟨σ, hsets⟩ := ih
    exact hsets.step hplay hstep

/-- A side that has come to its end has come to its good one. -/
lemma Plays.outcome (h : Plays s c σ k x) {o : Except Failure Unit} (ho : x.program = .done o) :
    o = .ok () ∧ x.phase = some (donePhase k) := by
  obtain ⟨D, -, hprogram⟩ := h
  rw [ho] at hprogram
  exact ⟨hprogram.1, hprogram.2.2⟩

/-- Whenever samples are to be taken, there are some. -/
lemma Plays.taken (hplay : s.Playable c) (h : Plays s c σ k x) (hhosts : Hosts s scope σ w a)
    (hchores : x.chores = []) {r : Guid} {max : Nat}
    {next : Except Fault (List (Sample Value)) → Program}
    (hx : x.program = .ask (.take r max) next) :
    ∃ y ys, (Runner.answer (fun w => w.join scope) w (.take r max)).2 = .ok (y :: ys) := by
  obtain ⟨D, howes, hprogram⟩ := h
  rw [hchores] at howes
  rw [hx] at hprogram
  obtain ⟨hD⟩ := howes
  obtain ⟨p, read, rfl, rfl, rfl, -⟩ := hprogram
  obtain ⟨w', chores, taken, -, -, hbegin, ⟨y, htaken⟩, -⟩ :=
    hhosts.serves_take (P := fun taken _ => ∃ y, taken = [y]) hD hplay.sample fun y _ => ⟨y, rfl⟩
  have hanswer : (Runner.answer (fun w => w.join scope) w (.take (.sole p) 1)).2 = .ok taken :=
    congrArg (·.2.2) hbegin
  exact ⟨y, [], htaken ▸ hanswer⟩

/-- **When nobody can go on, both sides are through.** -/
lemma Sets.through (h : Sets s c scope σ g)
    (hnone : ∀ g', ¬Stage.Step (fun w => w.join scope) g g') :
    g.publisher.program = .done (.ok ()) ∧ g.subscriber.program = .done (.ok ()) := by
  obtain ⟨a, hheld, hhosts⟩ := h.hosts
  have hpublisher := h.publisher.stuck hhosts (Option.eq_none_iff_forall_ne_some.mpr
    fun _ hsome => hnone _ (.publish hsome))
  have hsubscriber := h.subscriber.stuck hhosts (Option.eq_none_iff_forall_ne_some.mpr
    fun _ hsome => hnone _ (.subscribe hsome))
  have hsides : ∀ k, (σ.post k).presence = .gone ∨
      (σ.post k).presence = .active ∧ σ.Waits s k := by
    intro k
    cases k with
    | writer => exact hpublisher.imp_left fun hdone => hdone.2.2
    | reader => exact hsubscriber.imp_left fun hdone => hdone.2.2
  have hthere : (σ.post .writer).presence ≠ .outside := by
    rcases hsides .writer with hgone | ⟨hactive, -⟩
    · rw [hgone]; decide
    · rw [hactive]; decide
  obtain ⟨d, hd, hfits, -⟩ := hhosts.opened hthere
  have hget : g.world.domains[0]? = some d := by rw [hd]; rfl
  -- the worker has nothing to do either
  obtain rfl : a = none := by
    cases a with
    | none => rfl
    | some n => exact absurd (.confirm hget (by rw [hheld]; rfl)) (hnone _)
  have hqueue : d.queue = [] := by
    cases hq : d.queue with
    | nil => rfl
    | cons j rest => exact absurd (.store hget hfits.paused (by rw [hheld]; rfl) hq) (hnone _)
  have hgone := hfits.gone_of_waits hqueue hsides
  refine ⟨?_, ?_⟩
  · rcases hpublisher with hdone | ⟨hactive, -⟩
    · exact hdone.1
    · exact absurd ((hgone .writer).symm.trans hactive) (by decide)
  · rcases hsubscriber with hdone | ⟨hactive, -⟩
    · exact hdone.1
    · exact absurd ((hgone .reader).symm.trans hactive) (by decide)

/-- **A scenario cannot fail on a loopback medium with nobody else.** In whatever order the steps of
the two sides and those of the worker are taken, and as long as no time is over: a side that has
come to its end has reached its last phase and succeeded, samples are there whenever some are to be
taken, both sides are through when nobody can go on any more, and it always comes to that. -/
theorem pair_succeeds (s : Scenario) (c : Config) (scope : Scope) (w : World)
    (hplay : s.Playable c) (hw : w.domains = []) :
    let gate : Gate World := fun w => w.join scope
    let start := Stage.start w (s.publisher c) (s.subscriber c)
    (∀ g, Stage.Reaches gate start g →
      (∀ o, g.publisher.program = .done o →
        o = .ok () ∧ g.publisher.phase = some (.publisher (some .done))) ∧
      (∀ o, g.subscriber.program = .done o →
        o = .ok () ∧ g.subscriber.phase = some (.subscriber (some .done))) ∧
      (∀ r max next, g.subscriber.chores = [] → g.subscriber.program = .ask (.take r max) next →
        ∃ x xs, (Runner.answer gate g.world (.take r max)).2 = .ok (x :: xs)) ∧
      ((∀ g', ¬Stage.Step gate g g') →
        ∃ p q, g.publisher.program = .done p ∧ g.subscriber.program = .done q ∧
          combined q p = .ok ())) ∧
    ¬∃ run : Nat → Stage, run 0 = start ∧ ∀ n, Stage.Step gate (run n) (run (n + 1)) := by
  intro gate start
  refine ⟨fun g hg => ?_, ?_⟩
  · obtain ⟨σ, hsets⟩ := sets_of_reaches hplay hw hg
    obtain ⟨a, -, hhosts⟩ := hsets.hosts
    refine ⟨fun o => hsets.publisher.outcome, fun o => hsets.subscriber.outcome,
      fun r max next hchores hx => hsets.subscriber.taken hplay hhosts hchores hx, fun hnone => ?_⟩
    obtain ⟨hpublisher, hsubscriber⟩ := hsets.through hnone
    exact ⟨_, _, hpublisher, hsubscriber, rfl⟩
  · rintro ⟨run, -, hrun⟩
    exact (wellFounded_iff_isEmpty_descending_chain.mp (Stage.wellFounded_step gate)).false
      ⟨run, hrun⟩

lemma playable_scenario (e : Entry) : e.scenario.Playable .default := by
  have hsample : e.scenario.sample.InRange := by
    cases e with
    | helloWorld => exact (by decide : 8 < UInt8.size)
    | dispose => exact (by decide : 1 < UInt32.size)
    | nestedSequence => simp [Entry.scenario, Value.InRange]
  refine ⟨?_, hsample, ?_, ?_, rfl⟩ <;> cases e <;> decide

theorem pair_succeeds_disposal :
    Entry.dispose.scenario.Playable .default ∧ World.new.domains = [] ∧
      let gate : Gate World := fun w => w.join ⟨0, .zero⟩
      let start := Stage.start .new (Entry.dispose.scenario.publisher .default)
        (Entry.dispose.scenario.subscriber .default)
      (∀ g, Stage.Reaches gate start g → (∀ g', ¬Stage.Step gate g g') →
        ∃ p q, g.publisher.program = .done p ∧ g.subscriber.program = .done q ∧
          combined q p = .ok ()) ∧
      ¬∃ run : Nat → Stage, run 0 = start ∧ ∀ n, Stage.Step gate (run n) (run (n + 1)) := by
  have hplay := playable_scenario .dispose
  obtain ⟨hreaches, hends⟩ :=
    pair_succeeds Entry.dispose.scenario .default ⟨0, .zero⟩ .new hplay rfl
  exact ⟨hplay, rfl, fun g hg => (hreaches g hg).2.2.2, hends⟩

end PubSub.Scenario
