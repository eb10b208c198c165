import Mathlib.Tactic.ByContra
import Mathlib.Tactic.Lemma
import Mathlib.Tactic.SplitIfs
import PubSub.Proofs.Table
import PubSub.Proofs.WaitSet

/-!
What can happen to conditions, wait sets and other signals, and what it does to the hooks on each
condition and to what is attached to each wait set.
-/

namespace PubSub.Board

/-! ### What can happen -/

/-- What can be done with conditions, wait sets and other signals. -/
inductive Event where
  | condition (c : Nat) (x : Condition)
  | waitSet (w : Nat)
  /-- A signal comes into being, with the identity that it has chosen. -/
  | signal (s id : Nat)
  | act (c : Nat) (a : Condition.Action)
  | register (c s : Nat)
  | unregister (c id : Nat)
  | dropSignal (s : Nat)
  | attach (w c : Nat) (name : String)
  | detach (w c : Nat) (name : String)
  | dropWaitSet (w : Nat)
deriving DecidableEq, Inhabited

/-- The identity that somebody else than a wait set uses for a hook by it. -/
def Event.chosen? : Event → Option Nat
  | signal _ id => some id
  | unregister _ id => some id
  | _ => none

/-- Does it. Nothing comes into being twice, nothing is attached that is not there, and what fails
has no effect. -/
def step (b : Board) : Event → Board
  | .condition c x => if b.posts.has c then b else b.addCondition c x
  | .waitSet w => if b.waitSets.has w then b else b.addWaitSet w
  | .signal s id =>
    if b.signals.has s then b else { b with signals := b.signals.put (· < ·) s ⟨id, 0⟩ }
  | .act c a => b.act c a
  | .register c s => b.registerSignal c s
  | .unregister c id => b.unregister c id
  | .dropSignal s => b.dropSignal s
  | .attach w c name =>
    if b.waitSets.has w && b.posts.has c then
      match b.attach w c name with
      | .ok b' => b'
      | .error _ => b
    else b
  | .detach w c name =>
    match b.detach w c name with
    | .ok b' => b'
    | .error _ => b
  | .dropWaitSet w => b.dropWaitSet w

def after (b : Board) (es : List Event) : Board := es.foldl step b

def hooks (b : Board) (c : Nat) : List Hook := ((b.posts.get? c).map (·.hooks)).getD []

def hooksOf (b : Board) (w c : Nat) : List Hook := (b.hooks c).filter (·.listener = .waitSet w)

def idsOf (w : Nat) (hs : List Hook) : List Nat :=
  (hs.filter (·.listener = .waitSet w)).map (·.id)

def has (b : Board) (w c : Nat) : Bool := (b.attachments w).any (·.condition = c)

/-- An identity that wait sets are not given as long as they have been given fewer than so many. -/
def Foreign (n id : Nat) : Prop := id = 0 ∨ n ≤ id

instance (n id : Nat) : Decidable (Foreign n id) := inferInstanceAs (Decidable (id = 0 ∨ n ≤ id))

variable {b b' : Board} {w w' c c' s id n : Nat} {hs : List Hook} {as : List Attachment}

/-! ### What an operation does to hooks and attachments -/

lemma hooks_alert (b : Board) (l : Listener) (c : Nat) : (b.alert l).hooks c = b.hooks c := by
  rw [hooks, posts_alert, hooks]

lemma attachments_alert (b : Board) (l : Listener) (w : Nat) :
    (b.alert l).attachments w = b.attachments w := by
  cases l with
  | waitSet w' =>
    simp only [alert, attachments, Table.get?_adjust]
    split_ifs
    · cases b.waitSets.get? w <;> rfl
    · rfl
  | signal s => rfl

lemma nextHook_alert (b : Board) (l : Listener) : (b.alert l).nextHook = b.nextHook := by
  cases l <;> rfl

lemma chosen_alert {x : Signal} (l : Listener) (h : (b.alert l).signals.get? s = some x) :
    ∃ x', b.signals.get? s = some x' ∧ x'.id = x.id := by
  cases l with
  | waitSet w => exact ⟨x, h, rfl⟩
  | signal s' =>
    simp only [alert, Table.get?_adjust] at h
    split_ifs at h
    · obtain ⟨x', hx', rfl⟩ := Option.map_eq_some_iff.mp h
      exact ⟨x', hx', rfl⟩
    · exact ⟨x, h, rfl⟩

lemma posted_adjust (b : Board) (c : Nat) (f : Post → Post) (c' : Nat) :
    ({ b with posts := b.posts.adjust c f } : Board).posts.has c' = b.posts.has c' :=
  Table.has_adjust b.posts c f c'

/-- What an alert leaves as it is: everything but epochs and hits. -/
structure Same (b b' : Board) : Prop where
  hooks : ∀ c, b'.hooks c = b.hooks c
  posted : ∀ c, b'.posts.has c = b.posts.has c
  attachments : ∀ w, b'.attachments w = b.attachments w
  next : b'.nextHook = b.nextHook
  chosen : ∀ s x, b'.signals.get? s = some x → ∃ x', b.signals.get? s = some x' ∧ x'.id = x.id

namespace Same

lemma refl (b : Board) : Same b b := ⟨fun _ => rfl, fun _ => rfl, fun _ => rfl, rfl,
  fun _ x h => ⟨x, h, rfl⟩⟩

lemma trans {b'' : Board} (h : Same b b') (h' : Same b' b'') : Same b b'' where
  hooks c := (h'.hooks c).trans (h.hooks c)
  posted c := (h'.posted c).trans (h.posted c)
  attachments w := (h'.attachments w).trans (h.attachments w)
  next := h'.next.trans h.next
  chosen s x hx := by
    obtain ⟨x', hx', hid⟩ := h'.chosen s x hx
    obtain ⟨x'', hx'', hid'⟩ := h.chosen s x' hx'
    exact ⟨x'', hx'', hid'.trans hid⟩

lemma alert (b : Board) (l : Listener) : Same b (b.alert l) where
  hooks := b.hooks_alert l
  posted c := by rw [posts_alert]
  attachments := b.attachments_alert l
  next := b.nextHook_alert l
  chosen _ _ h := chosen_alert l h

lemma alertAll (b : Board) (hs : List Hook) : Same b (b.alertAll hs) := by
  induction hs generalizing b with
  | nil => exact refl b
  | cons h hs ih => exact (alert b h.listener).trans (ih _)

lemma condition (b : Board) (c : Nat) (x : Condition) :
    Same b { b with posts := b.posts.adjust c ({ · with condition := x }) } where
  hooks c' := by
    simp only [Board.hooks, Table.get?_adjust]
    split_ifs
    · cases b.posts.get? c' <;> rfl
    · rfl
  posted c' := b.posted_adjust c _ c'
  attachments _ := rfl
  next := rfl
  chosen _ x h := ⟨x, h, rfl⟩

lemma act (b : Board) (c : Nat) (a : Condition.Action) : Same b (b.act c a) := by
  unfold Board.act
  split
  · exact refl b
  · simp only
    split_ifs
    · exact condition b c _
    · exact (condition b c _).trans (alertAll _ _)

end Same

lemma hooks_of_none (h : b.posts.has c = false) : b.hooks c = [] := by
  rw [hooks, Table.has_eq_false.mp h]
  rfl

lemma hooks_addCondition (hc : b.posts.has c = false) (x : Condition) (c' : Nat) :
    (b.addCondition c x).hooks c' = b.hooks c' := by
  simp only [hooks, addCondition, Table.get?_put]
  split_ifs with heq
  · rw [heq, Table.has_eq_false.mp hc]
    rfl
  · rfl

lemma hooks_adjust (b : Board) (c c' : Nat) (f : List Hook → List Hook) :
    ({ b with posts := b.posts.adjust c fun p => { p with hooks := f p.hooks } } : Board).hooks c' =
      if c' = c ∧ b.posts.has c = true then f (b.hooks c') else b.hooks c' := by
  simp only [hooks, Table.get?_adjust]
  by_cases hc : c' = c
  · subst hc
    cases hp : b.posts.has c' with
    | false => simp [Table.has_eq_false.mp hp]
    | true =>
      obtain ⟨p, hp⟩ := Table.has_eq_true.mp hp
      simp [hp]
  · simp [hc]

/-- A registration puts a hook behind the others of a condition, and is otherwise no more than an
alert. -/
lemma same_register (b : Board) (c : Nat) (h : Hook) :
    Same { b with posts := b.posts.adjust c fun p => { p with hooks := p.hooks ++ [h] } }
      (b.register c h) := by
  unfold register
  split
  · next hnone => rw [Table.adjust_of_none hnone]; exact .refl b
  · simp only
    split_ifs
    · exact .alert _ _
    · exact .refl _

lemma hooks_register (b : Board) (c : Nat) (h : Hook) (c' : Nat) :
    (b.register c h).hooks c' =
      if c' = c ∧ b.posts.has c = true then b.hooks c' ++ [h] else b.hooks c' :=
  ((b.same_register c h).hooks c').trans (b.hooks_adjust c c' (· ++ [h]))

lemma posted_register (b : Board) (c : Nat) (h : Hook) (c' : Nat) :
    (b.register c h).posts.has c' = b.posts.has c' :=
  ((b.same_register c h).posted c').trans (b.posted_adjust c _ c')

lemma attachments_register (b : Board) (c : Nat) (h : Hook) (w : Nat) :
    (b.register c h).attachments w = b.attachments w := (b.same_register c h).attachments w

lemma hooks_unregister (b : Board) (c id c' : Nat) :
    (b.unregister c id).hooks c' =
      if c' = c then (b.hooks c').filter (·.id ≠ id) else b.hooks c' := by
  refine (b.hooks_adjust c c' (List.filter (·.id ≠ id))).trans ?_
  by_cases hc : c' = c
  · subst hc
    cases hp : b.posts.has c' with
    | true => simp
    | false => simp [hooks_of_none hp]
  · simp [hc]

lemma posted_unregister (b : Board) (c id c' : Nat) :
    (b.unregister c id).posts.has c' = b.posts.has c' := b.posted_adjust c _ c'

lemma hooks_dropSignal (b : Board) (s c : Nat) :
    (b.dropSignal s).hooks c = (b.hooks c).filter (·.listener ≠ Listener.signal s) := by
  have hget := Table.get?_map b.posts
    (fun _ p => { p with hooks := p.hooks.filter (·.listener ≠ Listener.signal s) }) c
  rw [hooks, dropSignal, hget, hooks]
  cases b.posts.get? c <;> rfl

lemma attachments_setAttachments (b : Board) (w w' : Nat) (as : List Attachment) :
    (b.setAttachments w as).attachments w' =
      if w' = w ∧ b.waitSets.has w = true then as else b.attachments w' := by
  simp only [attachments, setAttachments, Table.get?_adjust]
  by_cases hw : w' = w
  · subst hw
    cases hs : b.waitSets.has w' with
    | false => simp [Table.has_eq_false.mp hs]
    | true =>
      obtain ⟨s, hs⟩ := Table.has_eq_true.mp hs
      simp [hs]
  · simp [hw]

lemma attachments_of_none (h : b.waitSets.has w = false) : b.attachments w = [] := by
  rw [attachments, Table.has_eq_false.mp h]
  rfl

def unhook (b : Board) (as : List Attachment) : Board :=
  as.foldl (fun b a => b.unregister a.condition a.hook) b

lemma hooks_unhook (b : Board) (as : List Attachment) (c : Nat) :
    (b.unhook as).hooks c = (b.hooks c).filter fun h => ⟨c, h.id⟩ ∉ as := by
  induction as generalizing b with
  | nil => exact (List.filter_eq_self.mpr (by simp)).symm
  | cons a as ih =>
    rw [unhook, List.foldl_cons]
    refine (ih _).trans ?_
    rw [hooks_unregister]
    obtain ⟨c', id⟩ := a
    by_cases hc : c = c'
    · subst hc
      rw [if_pos rfl, List.filter_filter]
      refine List.filter_congr fun h _ => ?_
      simp [not_or, Bool.and_comm]
    · rw [if_neg hc]
      refine List.filter_congr fun h _ => ?_
      simp [hc]

lemma unhook_rest (b : Board) (as : List Attachment) :
    (∀ c, (b.unhook as).posts.has c = b.posts.has c) ∧ (b.unhook as).waitSets = b.waitSets ∧
      (b.unhook as).signals = b.signals ∧ (b.unhook as).nextHook = b.nextHook := by
  induction as generalizing b with
  | nil => exact ⟨fun _ => rfl, rfl, rfl, rfl⟩
  | cons a as ih =>
    obtain ⟨hposted, hwaitSets, hsignals, hnext⟩ := ih (b.unregister a.condition a.hook)
    exact ⟨fun c => (hposted c).trans (posted_unregister ..), hwaitSets, hsignals, hnext⟩

lemma attachments_addWaitSet (hw : b.waitSets.has w = false) (w' : Nat) :
    (b.addWaitSet w).attachments w' = b.attachments w' := by
  simp only [attachments, addWaitSet, Table.get?_put]
  split_ifs with heq
  · rw [heq, Table.has_eq_false.mp hw]
    rfl
  · rfl

lemma waitSet_dropWaitSet (b : Board) (w w' : Nat) :
    (b.dropWaitSet w).waitSets.get? w' = if w' = w then none else b.waitSets.get? w' :=
  (congrArg (fun t => Table.get? (Table.erase t w) w') (b.unhook_rest (b.attachments w)).2.1).trans
    (b.waitSets.get?_erase w w')

lemma attachments_dropWaitSet (b : Board) (w w' : Nat) :
    (b.dropWaitSet w).attachments w' = if w' = w then [] else b.attachments w' := by
  rw [attachments, waitSet_dropWaitSet]
  split_ifs <;> rfl

lemma has_eq_false_iff : b.has w c = false ↔ ∀ a ∈ b.attachments w, a.condition ≠ c := by
  simp [has]

lemma mem_triggered :
    c ∈ b.triggered w ↔ b.has w c = true ∧ ∃ x, b.condition? c = some x ∧ x.triggered = true := by
  simp only [triggered, has, List.mem_filter, List.mem_map, List.any_eq_true, decide_eq_true_eq]
  refine and_congr_right fun _ => ?_
  cases b.condition? c <;> simp

lemma attach_of_has (h : b.has w c = true) (name : String) :
    ∃ f, b.attach w c name = .error f := ⟨_, if_pos h⟩

/-- What an attachment comes to: an identity is given out, the hook registered and remembered. -/
lemma attach_of_new (h : b.has w c = false) (name : String) :
    let b₁ := { b with nextHook := b.nextHook + 1 }.register c ⟨b.nextHook, .waitSet w⟩
    b.attach w c name = .ok (b₁.setAttachments w (b₁.attachments w ++ [⟨c, b.nextHook⟩])) :=
  if_neg (Bool.not_eq_true _ ▸ h)

/-- An attachment that succeeds is a new one, and puts one hook of the wait set on the condition. -/
lemma attach_spec {name : String} (hw : b.waitSets.has w = true) (hc : b.posts.has c = true)
    (h : b.attach w c name = .ok b') :
    b.has w c = false ∧
      (∀ c', b'.hooks c' =
        if c' = c then b.hooks c' ++ [⟨b.nextHook, .waitSet w⟩] else b.hooks c') ∧
      (∀ w', b'.attachments w' =
        if w' = w then b.attachments w ++ [⟨c, b.nextHook⟩] else b.attachments w') ∧
      (∀ c', b'.posts.has c' = b.posts.has c') ∧
      (∀ s x, b'.signals.get? s = some x → ∃ x', b.signals.get? s = some x' ∧ x'.id = x.id) ∧
      b'.nextHook = b.nextHook + 1 := by
  unfold attach at h
  split_ifs at h with hnew
  obtain rfl := Except.ok.inj h
  let b₁ : Board := { b with nextHook := b.nextHook + 1 }
  have hspec := same_register b₁ c ⟨b.nextHook, .waitSet w⟩
  have hlive : (b₁.register c ⟨b.nextHook, .waitSet w⟩).waitSets.has w = true := by
    obtain ⟨p, hp⟩ := Table.has_eq_true.mp hc
    exact (register_spec (b := b₁) hp _ w).2.trans hw
  refine ⟨Bool.not_eq_true _ ▸ hnew, fun c' => ?_, fun w' => ?_, fun c' => ?_, hspec.chosen,
    hspec.next⟩
  · -- the hook is on that condition only
    refine (hooks_register b₁ c _ c').trans ?_
    by_cases hc' : c' = c
    · rw [if_pos ⟨hc', hc⟩, if_pos hc']
      rfl
    · rw [if_neg fun hp => hc' hp.1, if_neg hc']
      rfl
  · -- and the attachment is one of that wait set only
    rw [attachments_setAttachments, attachments_register]
    by_cases hw' : w' = w
    · rw [if_pos ⟨hw', hlive⟩, if_pos hw']
      rfl
    · rw [if_neg fun hp => hw' hp.1, if_neg hw']
      exact attachments_register b₁ c _ w'
  · exact posted_register b₁ c _ c'

/-- A detachment that succeeds takes the hook of one attachment off, and the attachment with it. -/
lemma detach_spec {name : String} (h : b.detach w c name = .ok b') :
    ∃ a ∈ b.attachments w, a.condition = c ∧
      (∀ c', b'.hooks c' = (b.hooks c').filter fun h => c' ≠ c || h.id ≠ a.hook) ∧
      (∀ w', b'.attachments w' =
        if w' = w then (b.attachments w).filter (·.condition ≠ c) else b.attachments w') ∧
      (∀ c', b'.posts.has c' = b.posts.has c') ∧ b'.signals = b.signals ∧
      b'.nextHook = b.nextHook := by
  unfold detach at h
  split at h
  · cases h
  · next a hfind =>
    obtain rfl := Except.ok.inj h
    have ha := List.mem_of_find?_eq_some hfind
    refine ⟨a, ha, by simpa using List.find?_some hfind, fun c' => ?_, fun w' => ?_,
      posted_unregister b c a.hook, rfl, rfl⟩
    · refine (hooks_unregister b c a.hook c').trans ?_
      split_ifs with hc
      · simp [hc]
      · simp [hc]
    · have hlive : b.waitSets.has w = true := by
        by_contra hw
        rw [attachments_of_none (Bool.not_eq_true _ ▸ hw)] at ha
        cases ha
      rw [attachments_setAttachments]
      by_cases hw' : w' = w
      · rw [if_pos ⟨hw', hlive⟩, if_pos hw']
      · rw [if_neg fun hp => hw' hp.1, if_neg hw']
        rfl

/-! ### What an event does to the conditions and to what is attached -/

def Event.change (c : Nat) : Event → Condition → Condition
  | act c' a, x => if c' = c then x.act a else x
  | _, x => x

lemma change_of_ne (hc : c ≠ c') (a : Condition.Action) :
    (Event.act c a).change c' = fun x => x := by
  funext x
  exact if_neg hc

lemma condition?_adjust (b : Board) (c c' : Nat) (f : List Hook → List Hook) :
    ({ b with posts := b.posts.adjust c fun p => { p with hooks := f p.hooks } } :
      Board).condition? c' = b.condition? c' := by
  simp only [condition?, Table.get?_adjust]
  split_ifs
  · cases b.posts.get? c' <;> rfl
  · rfl

lemma condition?_register (b : Board) (c : Nat) (h : Hook) (c' : Nat) :
    (b.register c h).condition? c' = b.condition? c' := by
  unfold register
  split
  · rfl
  · simp only
    split_ifs
    · rw [condition?, posts_alert]
      exact b.condition?_adjust c c' (· ++ [h])
    · exact b.condition?_adjust c c' (· ++ [h])

lemma condition?_unregister (b : Board) (c id c' : Nat) :
    (b.unregister c id).condition? c' = b.condition? c' :=
  b.condition?_adjust c c' (List.filter (·.id ≠ id))

lemma condition?_unhook (b : Board) (as : List Attachment) (c : Nat) :
    (b.unhook as).condition? c = b.condition? c := by
  induction as generalizing b with
  | nil => rfl
  | cons a as ih => exact (ih (b.unregister a.condition a.hook)).trans (condition?_unregister ..)

lemma condition?_dropSignal (b : Board) (s c : Nat) :
    (b.dropSignal s).condition? c = b.condition? c := by
  have hget := Table.get?_map b.posts
    (fun _ p => { p with hooks := p.hooks.filter (·.listener ≠ Listener.signal s) }) c
  rw [condition?, dropSignal, hget, condition?]
  cases b.posts.get? c <;> rfl

lemma condition?_act (b : Board) (c : Nat) (a : Condition.Action) (c' : Nat) :
    (b.act c a).condition? c' =
      (b.condition? c').map ((Event.act c a).change c') := by
  rcases Option.eq_none_or_eq_some (b.posts.get? c) with hp | ⟨p, hp⟩
  · by_cases hc : c = c'
    · subst hc
      simp [act, condition?, hp]
    · simp [act, hp, change_of_ne hc]
  · let b₁ : Board :=
      { b with posts := b.posts.adjust c ({ · with condition := p.condition.act a }) }
    have hchange : b₁.condition? c' = (b.condition? c').map ((Event.act c a).change c') := by
      simp only [b₁, condition?, Table.get?_adjust]
      by_cases hc : c = c'
      · subst hc
        simp [Event.change, hp]
      · simp [change_of_ne hc, Ne.symm hc, Function.comp_def]
    have halerted : (b₁.alertAll p.hooks).condition? c' = b₁.condition? c' := by
      rw [condition?, (alertAll_spec b₁ p.hooks 0).1, condition?]
    have hact : b.act c a = if (p.condition.act a).alerts = p.condition.alerts then b₁
        else b₁.alertAll p.hooks := by
      simp only [act, hp]
      rfl
    rw [hact]
    split_ifs
    · exact hchange
    · exact halerted.trans hchange

/-- A condition that is there changes by nothing but what is done to it. -/
lemma condition?_step (hc : b.posts.has c = true) (e : Event) :
    (b.step e).condition? c = (b.condition? c).map (e.change c) := by
  -- most events leave the condition as it is
  have hid : (b.condition? c).map (fun x => x) = b.condition? c := Option.map_id'
  cases e with
  | condition c' x =>
    refine Eq.trans ?_ hid.symm
    simp only [step]
    split_ifs with hc'
    · rfl
    · have hne : c ≠ c' := by
        rintro rfl
        exact hc' hc
      exact congrArg (Option.map _) ((Table.get?_put _ _ c' c _).trans (if_neg hne))
  | waitSet w =>
    refine Eq.trans ?_ hid.symm
    simp only [step]
    split_ifs <;> rfl
  | signal s id =>
    refine Eq.trans ?_ hid.symm
    simp only [step]
    split_ifs <;> rfl
  | act c' a => exact condition?_act b c' a c
  | register c' s =>
    refine Eq.trans ?_ hid.symm
    simp only [step, registerSignal]
    split
    · rfl
    · exact condition?_register ..
  | unregister c' id => exact (condition?_unregister ..).trans hid.symm
  | dropSignal s => exact (condition?_dropSignal ..).trans hid.symm
  | attach w c' name =>
    refine Eq.trans ?_ hid.symm
    simp only [step, attach]
    split_ifs
    · rfl
    · exact condition?_register { b with nextHook := b.nextHook + 1 } c' _ c
    · rfl
  | detach w c' name =>
    refine Eq.trans ?_ hid.symm
    simp only [step, detach]
    split
    · next b' hb =>
      split at hb
      · cases hb
      · obtain rfl := Except.ok.inj hb
        exact condition?_unregister ..
    · rfl
  | dropWaitSet w => exact (condition?_unhook b (b.attachments w) c).trans hid.symm

/-- An attachment attaches its condition to its wait set, and nothing else. -/
lemma has_attach {name : String} (hw : b.waitSets.has w' = true) (hc : b.posts.has c' = true)
    (hb : b.attach w' c' name = .ok b') (h : b'.has w c = true) :
    b.has w c = true ∨ b.has w c = false ∧ w' = w ∧ c' = c := by
  obtain ⟨hnew, -, hattachments, -⟩ := attach_spec hw hc hb
  rw [has, hattachments] at h
  split_ifs at h with heq
  · subst heq
    rw [List.any_append, Bool.or_eq_true] at h
    rcases h with h | h
    · exact .inl h
    · obtain rfl : c' = c := by simpa using h
      exact .inr ⟨hnew, rfl, rfl⟩
  · exact .inl h

lemma has_of_detach {name : String} (hb : b.detach w' c' name = .ok b') (h : b'.has w c = true) :
    b.has w c = true := by
  obtain ⟨a, -, -, -, hattachments, -⟩ := detach_spec hb
  rw [has, hattachments] at h
  split_ifs at h with heq
  · subst heq
    rw [List.any_filter] at h
    obtain ⟨a, ha, hac⟩ := List.any_eq_true.mp h
    exact List.any_eq_true.mpr ⟨a, ha, (Bool.and_eq_true_iff.mp hac).2⟩
  · exact h

/-- Nothing but an attachment attaches a condition, and a wait set that goes has none. -/
lemma has_step {e : Event} (h : (b.step e).has w c = true) :
    b.has w c = true ∨
      b.has w c = false ∧ b.posts.has c = true ∧ ∃ name, e = .attach w c name := by
  have hsame : ∀ b' : Board, b'.attachments w = b.attachments w → b'.has w c = true →
      b.has w c = true := fun b' hb' h => by rwa [has, ← hb']
  cases e with
  | attach w' c' name =>
    simp only [step] at h
    split_ifs at h with hlive
    · obtain ⟨hw', hc'⟩ := Bool.and_eq_true_iff.mp hlive
      split at h
      · next b' hb =>
        refine (has_attach hw' hc' hb h).imp_right ?_
        rintro ⟨hnew, rfl, rfl⟩
        exact ⟨hnew, hc', name, rfl⟩
      · exact .inl h
    · exact .inl h
  | detach w' c' name =>
    simp only [step] at h
    split at h
    · next b' hb => exact .inl (has_of_detach hb h)
    · exact .inl h
  | dropWaitSet w' =>
    change (b.dropWaitSet w').has w c = true at h
    rw [has, attachments_dropWaitSet] at h
    split_ifs at h
    · cases h
    · exact .inl h
  | condition c' x =>
    -- what comes into being has nothing attached yet
    refine .inl (hsame _ ?_ h)
    simp only [step]
    split_ifs <;> rfl
  | waitSet w' =>
    refine .inl (hsame _ ?_ h)
    simp only [step]
    split_ifs with hw'
    · rfl
    · exact attachments_addWaitSet (Bool.not_eq_true _ ▸ hw') w
  | signal s id =>
    refine .inl (hsame _ ?_ h)
    simp only [step]
    split_ifs <;> rfl
  -- hooks that are no wait set's, and what is done to conditions, change no attachment
  | act c' a => exact .inl (hsame _ ((Same.act b c' a).attachments w) h)
  | register c' s =>
    refine .inl (hsame _ ?_ h)
    simp only [step, registerSignal]
    split
    · rfl
    · exact attachments_register ..
  | unregister c' id => exact .inl h
  | dropSignal s => exact .inl h

/-- Identities are given out in order. -/
lemma nextHook_le_step (b : Board) (e : Event) : b.nextHook ≤ (b.step e).nextHook := by
  cases e with
  | condition c x =>
    simp only [step]
    split_ifs <;> exact Nat.le_refl _
  | waitSet w =>
    simp only [step]
    split_ifs <;> exact Nat.le_refl _
  | signal s id =>
    simp only [step]
    split_ifs <;> exact Nat.le_refl _
  | act c a => exact Nat.le_of_eq (Same.act b c a).next.symm
  | register c s =>
    simp only [step, registerSignal]
    split
    · exact Nat.le_refl _
    · exact Nat.le_of_eq (same_register b c _).next.symm
  | unregister c id => exact Nat.le_refl _
  | dropSignal s => exact Nat.le_refl _
  | attach w c name =>
    simp only [step]
    split_ifs with hlive
    · -- an attachment takes one number, whether or not it alerts at once
      obtain ⟨hw, hc⟩ := Bool.and_eq_true_iff.mp hlive
      split
      · next b' hb =>
        obtain ⟨-, -, -, -, -, hnext⟩ := attach_spec hw hc hb
        exact hnext ▸ Nat.le_succ _
      · exact Nat.le_refl _
    · exact Nat.le_refl _
  | detach w c name =>
    simp only [step]
    split
    · next b' hb =>
      obtain ⟨a, -, -, -, -, -, -, hnext⟩ := detach_spec hb
      exact Nat.le_of_eq hnext.symm
    · exact Nat.le_refl _
  | dropWaitSet w => exact Nat.le_of_eq (unhook_rest b (b.attachments w)).2.2.2.symm

lemma nextHook_le_after (b : Board) (es : List Event) : b.nextHook ≤ (b.after es).nextHook := by
  induction es generalizing b with
  | nil => exact Nat.le_refl _
  | cons e es ih => exact (b.nextHook_le_step e).trans (ih (b.step e))

end PubSub.Board
