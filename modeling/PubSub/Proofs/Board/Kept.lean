import Mathlib.Tactic.Lemma
import Mathlib.Tactic.SplitIfs
import PubSub.Proofs.Board.Epoch

/-!
Hooks as a condition keeps them. A condition learns that a listener has gone only when it goes
through its hooks, for a notification or a new registration; until then it keeps the hook of a
listener that is no more. The live ones among those it keeps are the hooks of the board.
-/

namespace PubSub.Board

/-- A hook that a condition keeps, and whether its listener is still there. -/
structure Held where
  hook : Hook
  alive : Bool
deriving DecidableEq, Inhabited

def live (ks : List Held) : List Hook := (ks.filter (·.alive)).map (·.hook)

/-- What each condition keeps after an event on the board. Wait sets have their hooks taken off
before they go, other signals just go. -/
def keep (b : Board) (k : Nat → List Held) (c : Nat) : Event → List Held
  | .condition c' _ => if c = c' && !b.posts.has c' then [] else k c
  | .act c' a =>
    if c = c' && ((b.condition? c').map (·.notifies a)).getD false then (k c).filter (·.alive)
    else k c
  | .register c' s =>
    match b.signals.get? s with
    | some x =>
      if c = c' && b.posts.has c' then (k c).filter (·.alive) ++ [⟨⟨x.id, .signal s⟩, true⟩]
      else k c
    | none => k c
  | .unregister c' id => if c = c' then (k c).filter (·.hook.id ≠ id) else k c
  | .dropSignal s => (k c).map fun h => { h with alive := h.alive && h.hook.listener ≠ .signal s }
  | .attach w c' _ =>
    if c = c' && (b.waitSets.has w && b.posts.has c' && !b.has w c') then
      (k c).filter (·.alive) ++ [⟨⟨b.nextHook, .waitSet w⟩, true⟩]
    else k c
  | .detach w c' _ =>
    match (b.attachments w).find? (·.condition = c') with
    | some a => if c = c' then (k c).filter (·.hook.id ≠ a.hook) else k c
    | none => k c
  | .dropWaitSet w => (k c).filter fun h => ⟨c, h.hook.id⟩ ∉ b.attachments w
  | _ => k c

def kept (b : Board) (k : Nat → List Held) : List Event → Nat → List Held
  | [] => k
  | e :: es => (b.step e).kept (fun c => b.keep k c e) es

variable {b b' : Board} {w w' c c' n : Nat} {e : Event} {k : Nat → List Held} {ks : List Held}

lemma live_filter (ks : List Held) (P : Hook → Bool) :
    live (ks.filter fun h => P h.hook) = (live ks).filter P := by
  rw [live, live, List.filter_map, List.filter_filter, List.filter_filter]
  congr 1
  exact List.filter_congr fun _ _ => Bool.and_comm _ _

lemma live_alive (ks : List Held) : live (ks.filter (·.alive)) = live ks := by
  rw [live, live, List.filter_filter]
  simp

lemma live_push (ks : List Held) (h : Hook) :
    live (ks.filter (·.alive) ++ [⟨h, true⟩]) = live ks ++ [h] := by
  rw [live, List.filter_append, List.map_append]
  exact congrArg (· ++ [h]) (live_alive ks)

lemma live_bury (ks : List Held) (P : Hook → Bool) :
    live (ks.map fun h => { h with alive := h.alive && P h.hook }) = (live ks).filter P := by
  rw [live, live, List.filter_map, List.map_map, List.filter_map, List.filter_filter]
  congr 1
  exact List.filter_congr fun _ _ => Bool.and_comm _ _

lemma live_register (hk : live ks = b.hooks c) (c' : Nat) (h : Hook) :
    live (if c = c' && b.posts.has c' then ks.filter (·.alive) ++ [⟨h, true⟩] else ks) =
      (b.register c' h).hooks c := by
  rw [hooks_register]
  simp only [Bool.and_eq_true, decide_eq_true_eq]
  split_ifs
  · rw [live_push, hk]
  · exact hk

lemma live_unregister (hk : live ks = b.hooks c) (c' id : Nat) :
    live (if c = c' then ks.filter (·.hook.id ≠ id) else ks) = (b.unregister c' id).hooks c := by
  rw [hooks_unregister]
  split_ifs
  · rw [← hk]
    exact live_filter ks fun h => h.id ≠ id
  · exact hk

lemma live_keep_attach (hk : ∀ c, live (k c) = b.hooks c) (w c' : Nat) (name : String) (c : Nat) :
    live (b.keep k c (.attach w c' name)) = (b.step (.attach w c' name)).hooks c := by
  simp only [keep, step]
  by_cases hlive : (b.waitSets.has w && b.posts.has c') = true
  · cases hhas : b.has w c' with
    | true =>
      -- attached already, so nothing is registered
      obtain ⟨f, hf⟩ := attach_of_has hhas name
      simpa [hlive, hf] using hk c
    | false =>
      obtain ⟨-, hc'⟩ := Bool.and_eq_true_iff.mp hlive
      -- the hook gets the next number, which changes nothing else of the board
      let b₁ : Board := { b with nextHook := b.nextHook + 1 }
      have hpush := live_register (b := b₁) (hk c) c' ⟨b.nextHook, .waitSet w⟩
      rw [show b₁.posts.has c' = true from hc', Bool.and_true] at hpush
      simp only [hlive, attach_of_new hhas, if_true, Bool.not_false, Bool.and_true]
      exact hpush
  · simpa [hlive] using hk c

/-- What is live among the kept hooks are the hooks of the board, also after an event. -/
lemma live_keep (hk : ∀ c, live (k c) = b.hooks c) (e : Event) (c : Nat) :
    live (b.keep k c e) = (b.step e).hooks c := by
  cases e with
  | condition c' x =>
    simp only [keep, step]
    cases hc' : b.posts.has c' with
    | true => simpa using hk c
    | false =>
      refine Eq.trans ?_ (hooks_addCondition hc' x c).symm
      -- a condition that comes has no hooks yet
      by_cases hc : c = c'
      · subst hc
        simpa [live] using (hooks_of_none hc').symm
      · simpa [hc] using hk c
  | waitSet w =>
    refine (hk c).trans ?_
    simp only [step]
    split_ifs <;> rfl
  | signal s id =>
    refine (hk c).trans ?_
    simp only [step]
    split_ifs <;> rfl
  | act c' a =>
    refine Eq.trans ?_ ((hk c).trans ((Same.act b c' a).hooks c).symm)
    simp only [keep]
    split_ifs
    · exact live_alive _
    · rfl
  | register c' s =>
    simp only [keep, step, registerSignal]
    cases b.signals.get? s with
    | none => exact hk c
    | some x => exact live_register (hk c) c' ⟨x.id, .signal s⟩
  | unregister c' id => exact live_unregister (hk c) c' id
  | dropSignal s =>
    refine Eq.trans ?_ (hooks_dropSignal b s c).symm
    rw [← hk]
    exact live_bury (k c) fun h => h.listener ≠ .signal s
  | attach w c' name => exact live_keep_attach hk w c' name c
  | detach w c' name =>
    simp only [keep, step, detach]
    cases (b.attachments w).find? (·.condition = c') with
    | none => exact hk c
    | some a => exact live_unregister (hk c) c' a.hook
  | dropWaitSet w =>
    refine Eq.trans ?_ (hooks_unhook b (b.attachments w) c).symm
    rw [← hk]
    exact live_filter (k c) fun h => ⟨c, h.id⟩ ∉ b.attachments w

lemma live_kept (hk : ∀ c, live (k c) = b.hooks c) (es : List Event) (c : Nat) :
    live (b.kept k es c) = (b.after es).hooks c := by
  induction es generalizing b k with
  | nil => exact hk c
  | cons e es ih => exact ih fun c => live_keep hk e c

/-! ### Wait sets over whole runs -/

/-- A wait set has its hooks where they were as long as the same is attached to it. -/
lemma Hooked.hooksOf_eq (h : b.Hooked n) (h' : b'.Hooked n)
    (hw : b'.attachments w = b.attachments w) (c : Nat) : b'.hooksOf w c = b.hooksOf w c := by
  have hids : ∀ b : Board, b.hooksOf w c = (idsOf w (b.hooks c)).map (⟨·, .waitSet w⟩) := by
    intro b
    rw [idsOf, List.map_map]
    conv_lhs => rw [← List.map_id (b.hooksOf w c)]
    refine List.map_congr_left fun x hx => ?_
    have hl : x.listener = .waitSet w := of_decide_eq_true (List.mem_filter.mp hx).2
    rw [Function.comp_apply, ← hl]
    rfl
  rw [hids, hids, h'.mine, h.mine, hw]

lemma Hooked.detach_other (h : b.Hooked n) (hw : w' ≠ w) (c : Nat) (name : String) :
    (b.step (.detach w c name)).attachments w' = b.attachments w' ∧
      (b.step (.detach w c name)).Hooked n := by
  simp only [Board.step]
  split
  · next b' hb =>
    obtain ⟨a, -, -, -, hattachments, -⟩ := detach_spec hb
    exact ⟨(hattachments w').trans (if_neg hw), h.detach hb⟩
  · exact ⟨rfl, h⟩

/-- Whatever has been attached, detached, changed, registered and dropped, a condition keeps one
live hook of each wait set that it is attached to and none of any other, and to detach or drop one
wait set leaves the hooks of the others alone. A notification moves the epoch of each wait set that
it concerns by one, and nothing else moves it. So if a condition is found triggered later on that
was not attached and triggered before, then the epoch is another one, unless its counter has gone
all the way round. -/
theorem hooks_and_epochs (es later : List Event)
    (hids : ∀ e ∈ es ++ later, ∀ id ∈ e.chosen?,
      Foreign (empty.after (es ++ later)).nextHook id) :
    let b := empty.after es
    (∀ w c, ((live (empty.kept (fun _ => []) es c)).filter (·.listener = .waitSet w)).length =
        if b.has w c then 1 else 0) ∧
      (∀ w w' c c' name, w' ≠ w →
        (b.step (.detach w c name)).hooksOf w' c' = b.hooksOf w' c' ∧
          (b.step (.dropWaitSet w)).hooksOf w' c' = b.hooksOf w' c' ∧
          (b.step (.detach w c name)).attachments w' = b.attachments w' ∧
          (b.step (.dropWaitSet w)).attachments w' = b.attachments w') ∧
      (∀ w e, b.waitSets.has w = true → e ≠ .dropWaitSet w → (b.step e).waitSets.has w = true ∧
        (b.step e).epoch w = b.epoch w + if b.concerns w e then 1 else 0) ∧
      ∀ w c, b.waitSets.has w = true → .dropWaitSet w ∉ later →
        c ∈ (b.after later).triggered w → c ∉ b.triggered w →
        b.notifications w later < 2 ^ 64 → (b.after later).clock w ≠ b.clock w := by
  intro b
  have hafter : empty.after (es ++ later) = b.after later := List.foldl_append
  rw [hafter] at hids
  have hn : b.nextHook ≤ (b.after later).nextHook := nextHook_le_after b later
  have hfirst : (1 : Nat) ≤ (b.after later).nextHook := (nextHook_le_after empty es).trans hn
  -- no more identities are given out than by the end of the run
  have h : b.Hooked (b.after later).nextHook :=
    (hooked_empty hfirst).after (fun e he => hids e (List.mem_append_left _ he)) hn
  have hlater : ∀ e ∈ later, ∀ id ∈ e.chosen?, Foreign (b.after later).nextHook id :=
    fun e he => hids e (List.mem_append_right _ he)
  refine ⟨fun w c => ?_, fun w w' c c' name hw => ?_, fun w e hw he => h.epoch_step hw he,
    fun w c hw hkeep hc hc' hfew => ?_⟩
  · rw [live_kept (b := empty) (fun _ => rfl)]
    exact h.length_hooksOf w c
  · obtain ⟨hattachments, hdetached⟩ := h.detach_other hw c name
    have hdropped : (b.dropWaitSet w).attachments w' = b.attachments w' :=
      (b.attachments_dropWaitSet w w').trans (if_neg hw)
    exact ⟨h.hooksOf_eq hdetached hattachments c', h.hooksOf_eq (h.dropWaitSet w) hdropped c',
      hattachments, hdropped⟩
  · have hcount := h.epoch_after hlater (Nat.le_refl _) hw hkeep
    have hpos := h.notifications_pos hlater (Nat.le_refl _) hc hc'
    exact clock_ne (by omega) (by omega)

/-- Two wait sets share a condition with a signal; one of them goes, the other one is attached anew
and told once when the condition is triggered. -/
theorem hooks_and_epochs_shared :
    let es : List Event := [.condition 0 (.status .new), .condition 1 (.guard .new), .waitSet 0,
      .waitSet 1, .signal 0 100, .attach 0 0 "a", .attach 1 0 "a", .register 0 0, .attach 0 1 "b",
      .detach 0 0 "a", .attach 0 0 "a", .dropSignal 0, .dropWaitSet 1]
    let later : List Event := [.act 0 (.enable .dataAvailable), .act 0 (.raise .dataAvailable)]
    (∀ e ∈ es ++ later, ∀ id ∈ e.chosen?, Foreign (empty.after (es ++ later)).nextHook id) ∧
      ((live (empty.kept (fun _ => []) es 0)).filter (·.listener = .waitSet 0)).length = 1 ∧
      ((empty.after es).after later).clock 0 ≠ (empty.after es).clock 0 := by
  intro es later
  have hids : ∀ e ∈ es ++ later, ∀ id ∈ e.chosen?,
      Foreign (empty.after (es ++ later)).nextHook id := by decide
  obtain ⟨hone, -, -, hturned⟩ := hooks_and_epochs es later hids
  exact ⟨hids, hone 0 0, hturned 0 0 (by decide) (by decide) (by decide) (by decide) (by decide)⟩

end PubSub.Board
