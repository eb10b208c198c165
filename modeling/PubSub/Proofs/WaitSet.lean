import Mathlib.Tactic.Lemma
import Mathlib.Tactic.SplitIfs
import PubSub.Proofs.Table
import PubSub.WaitSet

/-!
What a wait set gets to know of a condition that it is attached to: its epoch never falls, and it
rises with every alert of the condition.
-/

namespace PubSub

def Board.Attached (b : Board) (w c : Nat) : Prop :=
  b.waitSets.has w = true ∧
    ∃ p, b.posts.get? c = some p ∧ ∃ h ∈ p.hooks, h.listener = .waitSet w

/-- A status condition on the board changes as the endpoint that owns it changes it: the hooks are
called once for each of its alerts. -/
def Board.follow (b : Board) (c : Nat) (k : StatusCondition) : Board :=
  match b.posts.get? c with
  | none => b
  | some p =>
    (·.alertAll p.hooks)^[k.alerts - p.condition.alerts]
      { b with posts := b.posts.adjust c ({ · with condition := .status k }) }

namespace Board

variable {b b' : Board} {w c : Nat} {k k' : StatusCondition}

/-! ### Alerts -/

lemma posts_alert (b : Board) (l : Listener) : (b.alert l).posts = b.posts := by
  cases l <;> rfl

lemma has_alert (b : Board) (l : Listener) (w : Nat) :
    (b.alert l).waitSets.has w = b.waitSets.has w := by
  cases l with
  | waitSet w' =>
    simp only [alert, Table.has, Table.get?_adjust]
    split_ifs <;> simp
  | signal s => rfl

/-- An alert moves the epoch of the wait set that it is for, and of no other. -/
lemma epoch_alert (b : Board) (l : Listener) (w : Nat) :
    (b.alert l).epoch w =
      if l = .waitSet w ∧ b.waitSets.has w = true then b.epoch w + 1 else b.epoch w := by
  cases l with
  | waitSet w' =>
    simp only [alert, epoch, Table.has, Table.get?_adjust, Listener.waitSet.injEq]
    by_cases hw : w = w'
    · subst hw
      cases b.waitSets.get? w <;> simp
    · simp [hw, Ne.symm hw]
  | signal s => simp [alert, epoch]

lemma epoch_le_alert (b : Board) (l : Listener) (w : Nat) : b.epoch w ≤ (b.alert l).epoch w := by
  rw [epoch_alert]
  split_ifs
  · exact Nat.le_succ _
  · exact Nat.le_refl _

lemma alertAll_spec (b : Board) (hs : List Hook) (w : Nat) :
    (b.alertAll hs).posts = b.posts ∧ (b.alertAll hs).waitSets.has w = b.waitSets.has w ∧
      b.epoch w ≤ (b.alertAll hs).epoch w := by
  induction hs generalizing b with
  | nil => exact ⟨rfl, rfl, Nat.le_refl _⟩
  | cons h hs ih =>
    obtain ⟨hposts, hhas, hepoch⟩ := ih (b.alert h.listener)
    exact ⟨hposts.trans (b.posts_alert _), hhas.trans (b.has_alert _ w),
      (b.epoch_le_alert _ w).trans hepoch⟩

lemma epoch_lt_alertAll {hs : List Hook} (hw : b.waitSets.has w = true)
    (hh : ∃ h ∈ hs, h.listener = .waitSet w) : b.epoch w < (b.alertAll hs).epoch w := by
  induction hs generalizing b with
  | nil => simp at hh
  | cons h hs ih =>
    by_cases hl : h.listener = .waitSet w
    · have hlt : b.epoch w < (b.alert h.listener).epoch w := by
        rw [epoch_alert, if_pos ⟨hl, hw⟩]
        exact Nat.lt_succ_self _
      exact hlt.trans_le (alertAll_spec _ hs w).2.2
    · have hh' : ∃ h ∈ hs, h.listener = .waitSet w := by simpa [hl] using hh
      exact (b.epoch_le_alert _ w).trans_lt (ih ((b.has_alert _ w).trans hw) hh')

lemma iterate_alertAll_spec (b : Board) (hs : List Hook) (w n : Nat) :
    ((·.alertAll hs)^[n] b).posts = b.posts ∧
      ((·.alertAll hs)^[n] b).waitSets.has w = b.waitSets.has w ∧
      b.epoch w ≤ ((·.alertAll hs)^[n] b).epoch w := by
  induction n generalizing b with
  | zero => exact ⟨rfl, rfl, Nat.le_refl _⟩
  | succ n ih =>
    obtain ⟨hposts, hhas, hepoch⟩ := ih (b.alertAll hs)
    obtain ⟨hposts', hhas', hepoch'⟩ := b.alertAll_spec hs w
    exact ⟨hposts.trans hposts', hhas.trans hhas', hepoch'.trans hepoch⟩

/-! ### Conditions that change -/

/-- What is done to a status condition on the board is followed like any other change of it. -/
theorem act_eq_follow {hooks : List Hook} (hc : b.posts.get? c = some ⟨.status k, hooks⟩)
    (a : Condition.Action) :
    ∃ k', (Condition.status k).act a = .status k' ∧ b.act c a = b.follow c k' := by
  have hfollow : ∀ k', (Condition.status k).act a = .status k' →
      k'.alerts = k.alerts ∨ k'.alerts = k.alerts + 1 → b.act c a = b.follow c k' := by
    intro k' hk' halerts
    simp only [act, follow, hc, hk']
    rcases halerts with h | h
    · simp [Condition.alerts, h]
    · simp [Condition.alerts, h, alertAll]
  cases a with
  | raise m =>
    refine ⟨k.raise m, rfl, hfollow _ rfl ?_⟩
    simp only [StatusCondition.raise]
    split_ifs <;> simp
  | clear m => exact ⟨k.clear m, rfl, hfollow _ rfl (.inl rfl)⟩
  | enable m =>
    refine ⟨k.enable m, rfl, hfollow _ rfl ?_⟩
    simp only [StatusCondition.enable]
    split_ifs <;> simp
  | set v => exact ⟨k, rfl, hfollow _ rfl (.inl rfl)⟩

lemma condition?_follow {x : Condition} (hc : b.condition? c = some x) (k : StatusCondition) :
    (b.follow c k).condition? c = some (.status k) := by
  obtain ⟨p, hp, -⟩ := Option.map_eq_some_iff.mp hc
  have hposts := (iterate_alertAll_spec
    { b with posts := b.posts.adjust c ({ · with condition := .status k }) } p.hooks 0
    (k.alerts - p.condition.alerts)).1
  simp only [follow, hp, condition?, hposts, Table.get?_adjust, if_true, Option.map_some]

lemma epoch_le_follow (b : Board) (w c : Nat) (k : StatusCondition) :
    b.epoch w ≤ (b.follow c k).epoch w := by
  unfold follow
  split
  · exact Nat.le_refl _
  · next p hp => exact (iterate_alertAll_spec
      { b with posts := b.posts.adjust c ({ · with condition := .status k }) } _ w _).2.2

lemma Attached.follow (h : b.Attached w c) (k : StatusCondition) :
    (b.follow c k).Attached w c := by
  obtain ⟨hw, p, hp, hh⟩ := h
  obtain ⟨hposts, hhas, -⟩ := iterate_alertAll_spec
    { b with posts := b.posts.adjust c ({ · with condition := .status k }) } p.hooks w
    (k.alerts - p.condition.alerts)
  simp only [Board.follow, hp]
  refine ⟨hhas.trans hw, { p with condition := .status k }, ?_, hh⟩
  rw [hposts, Table.get?_adjust, if_pos rfl, hp]
  rfl

/-- A condition that alerts moves the epoch of the wait sets attached to it. -/
lemma Attached.epoch_lt_follow (h : b.Attached w c) (hc : b.condition? c = some (.status k))
    (hlt : k.alerts < k'.alerts) : b.epoch w < (b.follow c k').epoch w := by
  obtain ⟨hw, p, hp, hh⟩ := h
  have hcondition : p.condition = .status k := by simpa [condition?, hp] using hc
  obtain ⟨n, hn⟩ : ∃ n, k'.alerts - p.condition.alerts = n + 1 :=
    Nat.exists_eq_add_one.mpr (by rw [hcondition]; exact Nat.sub_pos_of_lt hlt)
  simp only [Board.follow, hp, hn, Function.iterate_succ_apply]
  have hfirst : b.epoch w < (alertAll
      { b with posts := b.posts.adjust c ({ · with condition := .status k' }) } p.hooks).epoch w :=
    epoch_lt_alertAll (b := { b with
      posts := b.posts.adjust c ({ · with condition := .status k' }) }) hw hh
  exact hfirst.trans_le (iterate_alertAll_spec _ p.hooks w n).2.2

/-! ### Attaching -/

lemma register_spec {p : Post} (hc : b.posts.get? c = some p) (h : Hook) (w : Nat) :
    (b.register c h).posts.get? c = some { p with hooks := p.hooks ++ [h] } ∧
      (b.register c h).waitSets.has w = b.waitSets.has w := by
  have hposts : (b.posts.adjust c fun p => { p with hooks := p.hooks ++ [h] }).get? c =
      some { p with hooks := p.hooks ++ [h] } := by
    rw [Table.get?_adjust, if_pos rfl, hc]
    rfl
  simp only [register, hc]
  split_ifs
  · exact ⟨by rw [posts_alert, hposts], has_alert _ _ w⟩
  · exact ⟨hposts, rfl⟩

lemma has_setAttachments (b : Board) (w : Nat) (as : List Attachment) :
    (b.setAttachments w as).waitSets.has w = b.waitSets.has w := by
  simp only [setAttachments, Table.has, Table.get?_adjust, if_true, Option.isSome_map]

/-- Once it is attached, a wait set has a hook on the condition, which is as it was. -/
lemma attached_of_attach {name : String} {x : Condition} (hw : b.waitSets.has w = true)
    (hc : b.condition? c = some x) (h : b.attach w c name = .ok b') :
    b'.Attached w c ∧ b'.condition? c = some x := by
  obtain ⟨p, hp, rfl⟩ := Option.map_eq_some_iff.mp hc
  unfold attach at h
  split_ifs at h
  obtain rfl := Except.ok.inj h
  obtain ⟨hposts, hhas⟩ := register_spec (b := { b with nextHook := b.nextHook + 1 }) hp
    ⟨b.nextHook, .waitSet w⟩ w
  refine ⟨⟨?_, _, hposts, ⟨b.nextHook, .waitSet w⟩, ?_, rfl⟩, congrArg (Option.map _) hposts⟩
  · rw [has_setAttachments, hhas]
    exact hw
  · exact List.mem_append_right _ (List.mem_singleton.mpr rfl)

/-! ### The counter of the epoch -/

/-- The counter is another one after fewer steps than it takes to go all the way round. -/
lemma clock_ne {e : Nat} (h : e < b.epoch w) (hfew : b.epoch w < e + 2 ^ 64) :
    b.clock w ≠ .ofNat e := by
  intro heq
  have hnat := congrArg UInt64.toNat heq
  rw [clock, UInt64.toNat_ofNat', UInt64.toNat_ofNat'] at hnat
  omega

/-- The wait for another epoch than one that has passed is over at once. -/
lemma waitSince_of_clock_ne {e : Nat} (h : b.clock w ≠ .ofNat e) (later : Option Board) :
    b.waitSince w e later = true := by
  simp [waitSince, h]

end Board

end PubSub
