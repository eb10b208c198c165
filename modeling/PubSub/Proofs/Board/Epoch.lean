import Mathlib.Tactic.Lemma
import Mathlib.Tactic.SplitIfs
import PubSub.Proofs.Board.Hooked
import PubSub.Proofs.Condition

/-!
The epochs of wait sets. What a condition tells its listeners of moves the epoch of each wait set
that it is attached to by one, and nothing else moves an epoch. A condition that a wait set finds
triggered, and that was not attached to it and triggered before, has moved its epoch meanwhile.
-/

namespace PubSub

namespace StatusCondition

@[simp] lemma enable_enabled (k : StatusCondition) (m : StatusMask) :
    (k.enable m).enabled = m := by
  unfold enable
  simp only
  split_ifs <;> rfl

@[simp] lemma enable_active (k : StatusCondition) (m : StatusMask) :
    (k.enable m).active = k.active := by
  unfold enable
  simp only
  split_ifs <;> rfl

lemma enable_alerts (k : StatusCondition) (m : StatusMask) :
    (k.enable m).alerts = if m.intersects k.active then k.alerts + 1 else k.alerts := by
  unfold enable triggered
  simp only
  split_ifs <;> rfl

end StatusCondition

namespace Condition

/-- What is done to a condition is something that its listeners are told of. -/
def notifies : Condition → Action → Bool
  | .status k, .raise m => k.enabled.intersects m
  | .status k, .enable m => m.intersects k.active
  | .guard _, .set v => v
  | _, _ => false

lemma alerts_act (x : Condition) (a : Action) :
    (x.act a).alerts = if x.notifies a then x.alerts + 1 else x.alerts := by
  cases x with
  | status k =>
    cases a with
    | raise m => exact k.raise_alerts m
    | clear m => rfl
    | enable m => exact k.enable_alerts m
    | set v => rfl
  | guard g =>
    cases a with
    | set v => rfl
    | _ => rfl

lemma triggered_act {x : Condition} {a : Action} (h : (x.act a).triggered = true) :
    x.triggered = true ∨ x.notifies a = true := by
  cases x with
  | status k =>
    cases a with
    | raise m =>
      simp only [act, triggered, StatusCondition.triggered, StatusCondition.raise_enabled,
        StatusCondition.raise_active] at h
      rw [StatusMask.intersects_comm, StatusMask.or_intersects, Bool.or_eq_true,
        StatusMask.intersects_comm, StatusMask.intersects_comm m] at h
      exact h
    | clear m =>
      obtain ⟨i, hi, hi'⟩ := StatusMask.intersects_iff.mp h
      refine .inl (StatusMask.intersects_iff.mpr ⟨i, hi, ?_⟩)
      simp only [StatusCondition.clear, StatusMask.testBit_without, Bool.and_eq_true] at hi'
      exact hi'.1
    | enable m =>
      simp only [act, triggered, StatusCondition.triggered, StatusCondition.enable_enabled,
        StatusCondition.enable_active] at h
      exact .inr h
    | set v => exact .inl h
  | guard g =>
    cases a with
    | set v => exact .inr h
    | _ => exact .inl h

end Condition

namespace Board

/-- An event is a notification that concerns a wait set: a condition attached to it tells its
listeners something, or a condition that is triggered gets attached to it. -/
def concerns (b : Board) (w : Nat) : Event → Bool
  | .act c a => b.has w c && ((b.condition? c).map (·.notifies a)).getD false
  | .attach w' c _ =>
    w' = w && !b.has w c && ((b.condition? c).map (·.triggered)).getD false
  | _ => false

def notifications (b : Board) (w : Nat) : List Event → Nat
  | [] => 0
  | e :: es => (if b.concerns w e then 1 else 0) + (b.step e).notifications w es

variable {b b' : Board} {w w' c c' n : Nat} {e : Event}

/-! ### What each operation does to epochs -/

lemma epoch_alertAll (hs : List Hook) (hw : b.waitSets.has w = true) :
    (b.alertAll hs).epoch w = b.epoch w + (hs.filter (·.listener = .waitSet w)).length := by
  induction hs generalizing b with
  | nil => rfl
  | cons h hs ih =>
    rw [alertAll, List.foldl_cons]
    refine (ih ((b.has_alert _ w).trans hw)).trans ?_
    rw [epoch_alert, List.filter_cons]
    by_cases hl : h.listener = .waitSet w
    · simp [hl, hw]
      omega
    · simp [hl]

lemma epoch_register (c : Nat) (h : Hook) (hw : b.waitSets.has w = true) :
    (b.register c h).waitSets.has w = true ∧
      (b.register c h).epoch w = b.epoch w +
        if h.listener = .waitSet w ∧ ((b.condition? c).map (·.triggered)).getD false = true
        then 1 else 0 := by
  unfold register condition?
  cases b.posts.get? c with
  | none => simp [hw]
  | some p =>
    simp only [Option.map_some, Option.getD_some]
    split_ifs with ht hl hl
    · exact ⟨(has_alert _ _ w).trans hw, by rw [epoch_alert, if_pos ⟨hl.1, hw⟩]; rfl⟩
    · refine ⟨(has_alert _ _ w).trans hw, ?_⟩
      rw [epoch_alert, if_neg fun h => hl ⟨h.1, ht⟩]
      rfl
    · exact absurd hl.2 ht
    · exact ⟨hw, rfl⟩

lemma epoch_setAttachments (b : Board) (w' : Nat) (as : List Attachment) (w : Nat) :
    (b.setAttachments w' as).waitSets.has w = b.waitSets.has w ∧
      (b.setAttachments w' as).epoch w = b.epoch w := by
  simp only [setAttachments, epoch, Table.has, Table.get?_adjust]
  split_ifs
  · cases b.waitSets.get? w <;> exact ⟨rfl, rfl⟩
  · exact ⟨rfl, rfl⟩

namespace Hooked

/-- A condition that tells its listeners something moves the epoch of those that it is attached to
by one. -/
lemma epoch_act (h : b.Hooked n) (hw : b.waitSets.has w = true) (c : Nat) (a : Condition.Action) :
    (b.act c a).waitSets.has w = true ∧
      (b.act c a).epoch w = b.epoch w + if b.concerns w (.act c a) then 1 else 0 := by
  simp only [concerns, condition?, Board.act]
  rcases Option.eq_none_or_eq_some (b.posts.get? c) with hp | ⟨p, hp⟩
  · simp [hp, hw]
  · have hhooks : b.hooks c = p.hooks := by
      rw [hooks, hp]
      rfl
    have hlength := h.length_hooksOf w c
    rw [hooksOf, hhooks] at hlength
    simp only [hp, Option.map_some, Option.getD_some, Condition.alerts_act]
    cases p.condition.notifies a with
    | false =>
      simp only [Bool.false_eq_true, Bool.and_false, if_true, if_false]
      exact ⟨hw, rfl⟩
    | true =>
      let b₁ : Board :=
        { b with posts := b.posts.adjust c ({ · with condition := p.condition.act a }) }
      have hepoch := epoch_alertAll (b := b₁) p.hooks hw
      rw [hlength] at hepoch
      simp only [if_true, Bool.and_true, Nat.succ_ne_self, if_false]
      exact ⟨(alertAll_spec b₁ p.hooks w).2.1.trans hw, hepoch⟩

lemma epoch_attach (hw : b.waitSets.has w = true) (w' c : Nat) (name : String) :
    (b.step (.attach w' c name)).waitSets.has w = true ∧
      (b.step (.attach w' c name)).epoch w =
        b.epoch w + if b.concerns w (.attach w' c name) then 1 else 0 := by
  simp only [Board.step, concerns]
  by_cases hlive : (b.waitSets.has w' && b.posts.has c) = true
  · rw [if_pos hlive]
    cases hhas : b.has w' c with
    | true =>
      -- attached already: nothing happens and nothing concerns anybody
      obtain ⟨f, hf⟩ := attach_of_has hhas name
      rw [hf]
      refine ⟨hw, ?_⟩
      by_cases hw' : w' = w
      · simp [hw' ▸ hhas]
      · simp [hw']
    | false =>
      -- the registration moves the epoch if the condition is triggered, the entry does not
      let b₁ : Board := { b with nextHook := b.nextHook + 1 }
      let b₂ := b₁.register c ⟨b.nextHook, .waitSet w'⟩
      obtain ⟨hlive', hepoch⟩ := epoch_register (b := b₁) c ⟨b.nextHook, .waitSet w'⟩ hw
      obtain ⟨hlive'', hepoch'⟩ :=
        b₂.epoch_setAttachments w' (b₂.attachments w' ++ [⟨c, b.nextHook⟩]) w
      have hconditions : b₁.condition? c = b.condition? c := rfl
      have hepochs : b₁.epoch w = b.epoch w := rfl
      rw [attach_of_new hhas]
      refine ⟨hlive''.trans hlive', (hepoch'.trans hepoch).trans ?_⟩
      by_cases hw' : w' = w
      · subst hw'
        simp [hhas, hconditions, hepochs]
      · simp [hw', hepochs]
  · rw [if_neg hlive]
    refine ⟨hw, ?_⟩
    by_cases hw' : w' = w
    · have hc : b.posts.has c = false := by simpa [hw', hw] using hlive
      simp [condition?, Table.has_eq_false.mp hc]
    · simp [hw']

/-- A notification moves the epoch of each wait set that it concerns by one, and nothing else moves
it as long as the wait set is there. -/
lemma epoch_step (h : b.Hooked n) (hw : b.waitSets.has w = true) (he : e ≠ .dropWaitSet w) :
    (b.step e).waitSets.has w = true ∧
      (b.step e).epoch w = b.epoch w + if b.concerns w e then 1 else 0 := by
  -- an event that leaves the wait set as it is moves no epoch
  have hquiet : ∀ b' : Board, b'.waitSets.get? w = b.waitSets.get? w →
      b'.waitSets.has w = true ∧ b'.epoch w = b.epoch w := fun b' hb' =>
    ⟨(congrArg Option.isSome hb').trans hw, congrArg (fun s => (s.map (·.epoch)).getD 0) hb'⟩
  cases e with
  | condition c x =>
    refine hquiet _ ?_
    simp only [Board.step]
    split_ifs <;> rfl
  | waitSet w' =>
    refine hquiet _ ?_
    simp only [Board.step]
    split_ifs with hw'
    · rfl
    · have hne : w ≠ w' := by
        rintro rfl
        exact hw' hw
      exact (Table.get?_put _ _ w' w _).trans (if_neg hne)
  | signal s id =>
    refine hquiet _ ?_
    simp only [Board.step]
    split_ifs <;> rfl
  | act c a => exact h.epoch_act hw c a
  | register c s =>
    simp only [Board.step, Board.registerSignal]
    split
    · exact ⟨hw, rfl⟩
    · next x hx =>
      obtain ⟨hlive, hepoch⟩ := epoch_register c ⟨x.id, .signal s⟩ hw
      exact ⟨hlive, by simpa [concerns] using hepoch⟩
  | unregister c id => exact hquiet _ rfl
  | dropSignal s => exact hquiet _ rfl
  | attach w' c name => exact epoch_attach hw w' c name
  | detach w' c name =>
    simp only [Board.step, Board.detach]
    split
    · next b' hb =>
      split at hb
      · cases hb
      · next a _ =>
        obtain rfl := Except.ok.inj hb
        -- detaching sets the list of attachments and nothing else
        obtain ⟨hlive, hepoch⟩ := (b.unregister c a.hook).epoch_setAttachments w'
          ((b.attachments w').filter (·.condition ≠ c)) w
        exact ⟨hlive.trans hw, hepoch⟩
    · exact ⟨hw, rfl⟩
  | dropWaitSet w' =>
    have hne : w ≠ w' := fun heq => he (heq ▸ rfl)
    exact hquiet _ ((b.waitSet_dropWaitSet w' w).trans (if_neg hne))

/-! ### Conditions that get triggered -/

/-- A condition that a wait set finds triggered was so before, or by a notification that concerns
the wait set. -/
lemma mem_triggered_step (h : b.Hooked n) (hc : c ∈ (b.step e).triggered w) :
    c ∈ b.triggered w ∨ b.concerns w e = true := by
  obtain ⟨hhas, x, hx, ht⟩ := mem_triggered.mp hc
  rcases has_step hhas with hold | ⟨hnew, hposted, name, rfl⟩
  · rw [condition?_step (h.posted_of_has hold), Option.map_eq_some_iff] at hx
    obtain ⟨x, hx, rfl⟩ := hx
    have hstay : x.triggered = true → c ∈ b.triggered w := fun ht =>
      mem_triggered.mpr ⟨hold, x, hx, ht⟩
    cases e with
    | act c' a =>
      by_cases hc' : c' = c
      · subst hc'
        rw [Event.change, if_pos rfl] at ht
        refine (Condition.triggered_act ht).imp hstay fun hn => ?_
        simp [concerns, hold, hx, hn]
      · rw [change_of_ne hc'] at ht
        exact .inl (hstay ht)
    | _ => exact .inl (hstay ht)
  · rw [condition?_step hposted, Option.map_eq_some_iff] at hx
    obtain ⟨x, hx, rfl⟩ := hx
    refine .inr ?_
    simp [concerns, hnew, hx, show x.triggered = true from ht]

/-! ### Runs -/

/-- Along a run the epoch counts the notifications that concern the wait set. -/
lemma epoch_after (h : b.Hooked n) {es : List Event}
    (hids : ∀ e ∈ es, ∀ id ∈ e.chosen?, Foreign n id) (hn : (b.after es).nextHook ≤ n)
    (hw : b.waitSets.has w = true) (he : .dropWaitSet w ∉ es) :
    (b.after es).epoch w = b.epoch w + b.notifications w es := by
  induction es generalizing b with
  | nil => rfl
  | cons e es ih =>
    obtain ⟨hne, he⟩ := not_or.mp (mt List.mem_cons.mpr he)
    obtain ⟨hlive, hepoch⟩ := h.epoch_step hw (Ne.symm hne)
    have hstep := h.step (hids e List.mem_cons_self) ((nextHook_le_after _ es).trans hn)
    have hrest := ih hstep (fun e he => hids e (List.mem_cons_of_mem _ he)) hn hlive he
    rw [notifications, ← Nat.add_assoc, ← hepoch]
    exact hrest

/-- A condition that is found triggered after a run, and was not before, has told the wait set of
it. -/
lemma notifications_pos (h : b.Hooked n) {es : List Event}
    (hids : ∀ e ∈ es, ∀ id ∈ e.chosen?, Foreign n id) (hn : (b.after es).nextHook ≤ n)
    (hc : c ∈ (b.after es).triggered w) (hc' : c ∉ b.triggered w) :
    0 < b.notifications w es := by
  induction es generalizing b with
  | nil => exact absurd hc hc'
  | cons e es ih =>
    have hstep := h.step (hids e List.mem_cons_self) ((nextHook_le_after _ es).trans hn)
    rw [notifications]
    by_cases hmid : c ∈ (b.step e).triggered w
    · rw [if_pos ((h.mem_triggered_step hmid).resolve_left hc')]
      omega
    · have hrest := ih hstep (fun e he => hids e (List.mem_cons_of_mem _ he)) hn hc hmid
      omega

end Hooked

end Board

end PubSub
