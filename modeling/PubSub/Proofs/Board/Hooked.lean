import Mathlib.Data.List.Nodup
import PubSub.Proofs.Board.Hooks

/-!
Hooks in step with attachments. Whatever is attached, detached and dropped, a condition bears one
hook of a wait set for as long as it is attached to it, and none otherwise: the identities of hooks
keep those of different wait sets apart, and those of other listeners from them.
-/

namespace PubSub.Board

variable {b b' : Board} {w w' c c' s id n : Nat} {hs : List Hook}

lemma idsOf_append (w : Nat) (hs hs' : List Hook) :
    idsOf w (hs ++ hs') = idsOf w hs ++ idsOf w hs' := by
  rw [idsOf, List.filter_append, List.map_append]
  rfl

lemma mem_idsOf : id ∈ idsOf w hs ↔ ⟨id, .waitSet w⟩ ∈ hs := by
  simp only [idsOf, List.mem_map, List.mem_filter, decide_eq_true_eq]
  constructor
  · rintro ⟨⟨_, _⟩, ⟨hh, rfl⟩, rfl⟩
    exact hh
  · exact fun hh => ⟨_, ⟨hh, rfl⟩, rfl⟩

/-- Hooks that are removed for other reasons than those of a wait set are not its own. -/
lemma idsOf_filter {P : Hook → Bool} {Q : Nat → Bool}
    (h : ∀ id, ⟨id, .waitSet w⟩ ∈ hs → P ⟨id, .waitSet w⟩ = Q id) :
    idsOf w (hs.filter P) = (idsOf w hs).filter Q := by
  rw [idsOf, idsOf, List.filter_map, List.filter_filter, List.filter_filter]
  congr 1
  refine List.filter_congr fun x hx => ?_
  obtain ⟨id, l⟩ := x
  by_cases hl : l = .waitSet w
  · subst hl
    simp [h id hx]
  · simp [hl]

/-- The hooks on the conditions are in step with what is attached: those of a wait set are the ones
that it knows of, one for each condition. Their identities have been given out, no two of them the
same one, and signals have others, given that wait sets are not given so many. -/
structure Hooked (n : Nat) (b : Board) : Prop where
  mine : ∀ w c, idsOf w (b.hooks c) = ((b.attachments w).filter (·.condition = c)).map (·.hook)
  once : ∀ w, ((b.attachments w).map (·.condition)).Nodup
  posted : ∀ w, ∀ a ∈ b.attachments w, b.posts.has a.condition = true
  given : ∀ c w id, ⟨id, .waitSet w⟩ ∈ b.hooks c → 0 < id ∧ id < b.nextHook
  apart : ∀ c w w' id, ⟨id, .waitSet w⟩ ∈ b.hooks c → ⟨id, .waitSet w'⟩ ∈ b.hooks c → w = w'
  foreign : ∀ c s id, ⟨id, .signal s⟩ ∈ b.hooks c → Foreign n id
  chosen : ∀ s x, b.signals.get? s = some x → Foreign n x.id
  start : 0 < b.nextHook
  bound : b.nextHook ≤ n

lemma hooked_empty (h : 1 ≤ n) : Hooked n empty where
  mine _ _ := rfl
  once _ := List.nodup_nil
  posted _ _ ha := nomatch ha
  given _ _ _ h := nomatch h
  apart _ _ _ _ h := nomatch h
  foreign _ _ _ h := nomatch h
  chosen _ _ h := nomatch h
  start := Nat.one_pos
  bound := h

namespace Hooked

/-- Identities that wait sets are not given are not those of their hooks. -/
lemma ne_of_foreign (h : b.Hooked n) (hid : Foreign n id) {id' : Nat}
    (hh : ⟨id', .waitSet w⟩ ∈ b.hooks c) : id' ≠ id := by
  have hgiven := h.given c w id' hh
  have hbound := h.bound
  rintro rfl
  rcases hid with hid | hid
  · omega
  · omega

lemma same (h : b.Hooked n) (hs : Same b b') : b'.Hooked n where
  mine w c := by rw [hs.hooks, hs.attachments, h.mine]
  once w := by
    rw [hs.attachments]
    exact h.once w
  posted w a ha := by
    rw [hs.posted]
    exact h.posted w a (hs.attachments w ▸ ha)
  given c w id hid := by
    rw [hs.next]
    exact h.given c w id (hs.hooks c ▸ hid)
  apart c w w' id hid hid' := h.apart c w w' id (hs.hooks c ▸ hid) (hs.hooks c ▸ hid')
  foreign c s id hid := h.foreign c s id (hs.hooks c ▸ hid)
  chosen s x hx := by
    obtain ⟨x', hx', hid⟩ := hs.chosen s x hx
    exact hid ▸ h.chosen s x' hx'
  start := hs.next ▸ h.start
  bound := hs.next ▸ h.bound

/-- Hooks go, those of some wait sets with what is attached to these, and others that are not of
wait sets. -/
lemma removed (h : b.Hooked n) {P : Nat → Hook → Bool}
    (hhooks : ∀ c, b'.hooks c = (b.hooks c).filter (P c))
    (hmine : ∀ w c, idsOf w ((b.hooks c).filter (P c)) =
      ((b'.attachments w).filter (·.condition = c)).map (·.hook))
    (hsub : ∀ w, (b'.attachments w).Sublist (b.attachments w))
    (hposted : ∀ c, b'.posts.has c = b.posts.has c)
    (hchosen : ∀ s x, b'.signals.get? s = some x → b.signals.get? s = some x)
    (hnext : b'.nextHook = b.nextHook) : b'.Hooked n where
  mine w c := by rw [hhooks, hmine]
  once w := (h.once w).sublist ((hsub w).map _)
  posted w a ha := by
    rw [hposted]
    exact h.posted w a ((hsub w).subset ha)
  given c w id hid := by
    rw [hhooks] at hid
    exact hnext ▸ h.given c w id (List.mem_of_mem_filter hid)
  apart c w w' id hid hid' := by
    rw [hhooks] at hid hid'
    exact h.apart c w w' id (List.mem_of_mem_filter hid) (List.mem_of_mem_filter hid')
  foreign c s id hid := by
    rw [hhooks] at hid
    exact h.foreign c s id (List.mem_of_mem_filter hid)
  chosen s x hx := h.chosen s x (hchosen s x hx)
  start := hnext ▸ h.start
  bound := hnext ▸ h.bound

lemma idsOf_kept (h : b.Hooked n) {P : Hook → Bool}
    (hP : ∀ id, ⟨id, .waitSet w⟩ ∈ b.hooks c → P ⟨id, .waitSet w⟩ = true) :
    idsOf w ((b.hooks c).filter P) = ((b.attachments w).filter (·.condition = c)).map (·.hook) := by
  rw [idsOf_filter (Q := fun _ => true) hP, h.mine, List.filter_eq_self]
  exact fun _ _ => rfl

lemma addCondition (h : b.Hooked n) (hc : b.posts.has c = false) (x : Condition) :
    (b.addCondition c x).Hooked n := by
  have hhooks := hooks_addCondition hc x
  refine ⟨fun w c' => (hhooks c').symm ▸ h.mine w c', h.once, fun w a ha => ?_,
    fun c' => (hhooks c').symm ▸ h.given c', fun c' => (hhooks c').symm ▸ h.apart c',
    fun c' => (hhooks c').symm ▸ h.foreign c', h.chosen, h.start, h.bound⟩
  simp only [Board.addCondition, Table.has, Table.get?_put]
  split_ifs
  · rfl
  · exact h.posted w a ha

lemma addWaitSet (h : b.Hooked n) (hw : b.waitSets.has w = false) :
    (b.addWaitSet w).Hooked n :=
  h.same ⟨fun _ => rfl, fun _ => rfl, attachments_addWaitSet hw, rfl, fun _ x hx => ⟨x, hx, rfl⟩⟩

lemma addSignal (h : b.Hooked n) (hid : Foreign n id) :
    ({ b with signals := b.signals.put (· < ·) s ⟨id, 0⟩ } : Board).Hooked n := by
  refine ⟨h.mine, h.once, h.posted, h.given, h.apart, h.foreign, fun s' x hx => ?_, h.start,
    h.bound⟩
  rw [Table.get?_put] at hx
  split_ifs at hx
  · rw [← Option.some.inj hx]
    exact hid
  · exact h.chosen s' x hx

lemma registerSignal (h : b.Hooked n) (c s : Nat) : (b.registerSignal c s).Hooked n := by
  unfold Board.registerSignal
  split
  · exact h
  · next x hx =>
    have hspec := b.same_register c ⟨x.id, .signal s⟩
    have hmem : ∀ c' h', h' ∈ (b.register c ⟨x.id, .signal s⟩).hooks c' →
        h' ∈ b.hooks c' ∨ h' = ⟨x.id, .signal s⟩ := by
      intro c' h' hh'
      rw [hooks_register] at hh'
      split_ifs at hh'
      · exact (List.mem_append.mp hh').imp id List.mem_singleton.mp
      · exact .inl hh'
    -- a wait set gets no hook by that, so all but the signals is as before
    have hown : ∀ c' w id, ⟨id, .waitSet w⟩ ∈ (b.register c ⟨x.id, .signal s⟩).hooks c' →
        ⟨id, .waitSet w⟩ ∈ b.hooks c' := fun c' w id hid =>
      (hmem c' _ hid).resolve_right (by simp)
    refine ⟨fun w c' => ?_, fun w => ?_, fun w a ha => ?_, fun c' w id hid => ?_,
      fun c' w w' id hid hid' => h.apart c' w w' id (hown c' w id hid) (hown c' w' id hid'),
      fun c' s' id hid => ?_, fun s' x' hx' => ?_, hspec.next ▸ h.start, hspec.next ▸ h.bound⟩
    · rw [attachments_register, ← h.mine, hooks_register]
      split_ifs
      · rw [idsOf_append]
        exact List.append_nil _
      · rfl
    · rw [attachments_register]
      exact h.once w
    · rw [posted_register]
      exact h.posted w a (attachments_register b c _ w ▸ ha)
    · rw [hspec.next]
      exact h.given c' w id (hown c' w id hid)
    · rcases hmem c' _ hid with hold | hnew
      · exact h.foreign c' s' id hold
      · cases hnew
        -- the hook of a signal stands under the identity that the signal has chosen
        exact h.chosen s x hx
    · obtain ⟨x'', hx'', hid⟩ := hspec.chosen s' x' hx'
      exact hid ▸ h.chosen s' x'' hx''

lemma unregister (h : b.Hooked n) (hid : Foreign n id) (c : Nat) :
    (b.unregister c id).Hooked n := by
  refine h.removed (P := fun c' h => c' ≠ c || h.id ≠ id) (fun c' => ?_)
    (fun w c' => h.idsOf_kept fun id' hid' => ?_) (fun _ => List.Sublist.refl _)
    (posted_unregister b c id) (fun _ _ hx => hx) rfl
  · rw [hooks_unregister]
    split_ifs with hc
    · simp [hc]
    · simp [hc]
  · simp [h.ne_of_foreign hid hid']

lemma dropSignal (h : b.Hooked n) (s : Nat) : (b.dropSignal s).Hooked n := by
  refine h.removed (P := fun _ h => h.listener ≠ Listener.signal s) (hooks_dropSignal b s)
    (fun w c' => h.idsOf_kept fun id' _ => by simp) (fun _ => List.Sublist.refl _) (fun c' => ?_)
    (fun s' x hx => ?_) rfl
  · exact congrArg Option.isSome (Table.get?_map b.posts
      (fun _ p => { p with hooks := p.hooks.filter (·.listener ≠ Listener.signal s) }) c') |>.trans
        Option.isSome_map
  · have hget := b.signals.get?_erase s s'
    rw [show (b.dropSignal s).signals = b.signals.erase s from rfl, hget] at hx
    split_ifs at hx
    exact hx

lemma posted_of_has (h : b.Hooked n) (hc : b.has w c = true) : b.posts.has c = true := by
  obtain ⟨a, ha, hac⟩ := List.any_eq_true.mp hc
  exact of_decide_eq_true hac ▸ h.posted w a ha

lemma mem_hooks (h : b.Hooked n) {a : Attachment} (ha : a ∈ b.attachments w) :
    ⟨a.hook, .waitSet w⟩ ∈ b.hooks a.condition := by
  rw [← mem_idsOf, h.mine]
  exact List.mem_map_of_mem (List.mem_filter.mpr ⟨ha, by simp⟩)

/-- A hook of a wait set is that of an attachment. -/
lemma mem_attachments (h : b.Hooked n) (hid : ⟨id, .waitSet w⟩ ∈ b.hooks c) :
    ⟨c, id⟩ ∈ b.attachments w := by
  rw [← mem_idsOf, h.mine, List.mem_map] at hid
  obtain ⟨⟨c', id'⟩, ha, rfl⟩ := hid
  obtain ⟨hmem, hc⟩ := List.mem_filter.mp ha
  obtain rfl : c' = c := of_decide_eq_true hc
  exact hmem

/-- Whoever takes the hooks of a wait set off takes off none of another one. -/
lemma notMem_of_ne (h : b.Hooked n) (hw : w' ≠ w) (hid : ⟨id, .waitSet w'⟩ ∈ b.hooks c) :
    ⟨c, id⟩ ∉ b.attachments w := fun ha =>
  hw (h.apart c w' w id hid (h.mem_hooks ha))

lemma dropWaitSet (h : b.Hooked n) (w : Nat) : (b.dropWaitSet w).Hooked n := by
  obtain ⟨hposted, -, hsignals, hnext⟩ := b.unhook_rest (b.attachments w)
  refine h.removed (P := fun c h => decide ((⟨c, h.id⟩ : Attachment) ∉ b.attachments w))
    (fun c => b.hooks_unhook (b.attachments w) c)
    (fun w' c => ?_) (fun w' => ?_) hposted (fun s x hx => hsignals ▸ hx) hnext
  · rw [attachments_dropWaitSet]
    split_ifs with hw
    · subst hw
      rw [idsOf_filter (Q := fun _ => false) fun id hid => by simpa using h.mem_attachments hid]
      simp
    · exact h.idsOf_kept fun id hid => by simpa using h.notMem_of_ne hw hid
  · rw [attachments_dropWaitSet]
    split_ifs
    · exact List.nil_sublist _
    · exact List.Sublist.refl _

/-- A hook that goes behind the others of a condition stays in step with an attachment that goes
behind the others of a wait set. -/
lemma idsOf_push (h : b.Hooked n) (w c id w' c' : Nat) :
    idsOf w' (if c' = c then b.hooks c' ++ [⟨id, .waitSet w⟩] else b.hooks c') =
      ((if w' = w then b.attachments w ++ [⟨c, id⟩] else b.attachments w').filter
        (·.condition = c')).map (·.hook) := by
  by_cases hw' : w' = w
  · subst hw'
    rw [if_pos rfl, List.filter_append, List.map_append, ← h.mine]
    by_cases hc' : c' = c
    · subst hc'
      simp [idsOf]
    · simp [hc', Ne.symm hc']
  · rw [if_neg hw', ← h.mine]
    split_ifs
    · simp [idsOf, Ne.symm hw']
    · rfl

lemma once_push (h : b.Hooked n) (hnew : b.has w c = false) (id : Nat) :
    ((b.attachments w ++ [(⟨c, id⟩ : Attachment)]).map (·.condition)).Nodup := by
  rw [List.map_append]
  refine (h.once w).append (List.nodup_singleton c) fun c' hc' hc'' => ?_
  obtain rfl := List.mem_singleton.mp hc''
  obtain ⟨a, ha, rfl⟩ := List.mem_map.mp hc'
  exact has_eq_false_iff.mp hnew a ha rfl

lemma attach (h : b.Hooked n) {name : String} (hw : b.waitSets.has w = true)
    (hc : b.posts.has c = true) (hb : b.attach w c name = .ok b') (hn : b'.nextHook ≤ n) :
    b'.Hooked n := by
  obtain ⟨hnew, hhooks, hattachments, hposted, hchosen, hnext⟩ := attach_spec hw hc hb
  have hmem : ∀ c' h', h' ∈ b'.hooks c' →
      h' ∈ b.hooks c' ∨ c' = c ∧ h' = ⟨b.nextHook, .waitSet w⟩ := by
    intro c' h' hh'
    rw [hhooks] at hh'
    split_ifs at hh' with hc'
    · exact (List.mem_append.mp hh').imp id fun hh => ⟨hc', List.mem_singleton.mp hh⟩
    · exact .inl hh'
  refine ⟨fun w' c' => ?_, fun w' => ?_, fun w' a ha => ?_, fun c' w' id hid => ?_,
    fun c' w' w'' id hid hid' => ?_, fun c' s id hid => ?_, fun s x hx => ?_, ?_, hn⟩
  · rw [hhooks, hattachments]
    exact h.idsOf_push w c b.nextHook w' c'
  · rw [hattachments]
    split_ifs
    · exact h.once_push hnew b.nextHook
    · exact h.once w'
  · rw [hposted]
    rw [hattachments] at ha
    split_ifs at ha with hw'
    · rcases List.mem_append.mp ha with ha | ha
      · exact h.posted w a ha
      · rw [List.mem_singleton.mp ha]
        exact hc
    · exact h.posted w' a ha
  · have hstart := h.start
    rw [hnext]
    rcases hmem c' _ hid with hold | ⟨-, hold⟩
    · obtain ⟨hpos, hlt⟩ := h.given c' w' id hold
      exact ⟨hpos, hlt.trans (Nat.lt_succ_self _)⟩
    · cases hold
      exact ⟨hstart, Nat.lt_succ_self _⟩
  · -- an identity that was given out before is not the new one
    rcases hmem c' _ hid with hold | ⟨-, hnew⟩ <;> rcases hmem c' _ hid' with hold' | ⟨-, hnew'⟩
    · exact h.apart c' w' w'' id hold hold'
    · cases hnew'
      exact absurd (h.given c' w' _ hold).2 (Nat.lt_irrefl _)
    · cases hnew
      exact absurd (h.given c' w'' _ hold').2 (Nat.lt_irrefl _)
    · cases hnew
      cases hnew'
      rfl
  · rcases hmem c' _ hid with hold | ⟨-, hnew⟩
    · exact h.foreign c' s id hold
    · cases hnew
  · obtain ⟨x', hx', hid⟩ := hchosen s x hx
    exact hid ▸ h.chosen s x' hx'
  · rw [hnext]
    exact Nat.succ_pos _

/-- What is detached is one attachment, and the hook that is taken off is its own. -/
lemma detach (h : b.Hooked n) {name : String} (hb : b.detach w c name = .ok b') :
    b'.Hooked n := by
  obtain ⟨a, ha, hac, hhooks, hattachments, hposted, hsignals, hnext⟩ := detach_spec hb
  refine h.removed (P := fun c' h => c' ≠ c || h.id ≠ a.hook) hhooks (fun w' c' => ?_)
    (fun w' => ?_) hposted (fun s x hx => hsignals ▸ hx) hnext
  · by_cases hc' : c' = c
    · subst hc'
      rw [hattachments]
      split_ifs with hw'
      · subst hw'
        rw [idsOf_filter (Q := fun _ => false) fun id hid => ?_]
        · rw [List.filter_filter]
          simp
        · -- one attachment of the wait set has that condition, so the hook is its own
          have hsame := h.mem_attachments hid
          have heq := List.inj_on_of_nodup_map (h.once w') hsame ha hac.symm
          simp [← heq]
      · -- other wait sets keep their hooks, whose identities are others
        refine h.idsOf_kept fun id hid => ?_
        have hne : id ≠ a.hook := by
          rintro rfl
          exact h.notMem_of_ne hw' hid (hac ▸ ha)
        simp [hne]
    · rw [h.idsOf_kept fun id _ => by simp [hc'], hattachments]
      split_ifs with hw'
      · subst hw'
        rw [List.filter_filter]
        congr 1
        refine List.filter_congr fun a' _ => ?_
        by_cases ha' : a'.condition = c'
        · simp [ha', hc']
        · simp [ha']
      · rfl
  · rw [hattachments]
    split_ifs with hw'
    · subst hw'
      exact List.filter_sublist
    · exact List.Sublist.refl _

/-! ### Runs -/

/-- Whatever happens, hooks stay in step with attachments, as long as nobody else uses identities
of wait sets. -/
lemma step (h : b.Hooked n) {e : Event} (hid : ∀ id ∈ e.chosen?, Foreign n id)
    (hn : (b.step e).nextHook ≤ n) : (b.step e).Hooked n := by
  cases e with
  | condition c x =>
    simp only [Board.step]
    split_ifs with hc
    · exact h
    · exact h.addCondition (Bool.not_eq_true _ ▸ hc) x
  | waitSet w =>
    simp only [Board.step]
    split_ifs with hw
    · exact h
    · exact h.addWaitSet (Bool.not_eq_true _ ▸ hw)
  | signal s id =>
    simp only [Board.step]
    split_ifs
    · exact h
    · exact h.addSignal (hid id rfl)
  | act c a => exact h.same (.act b c a)
  | register c s => exact h.registerSignal c s
  | unregister c id => exact h.unregister (hid id rfl) c
  | dropSignal s => exact h.dropSignal s
  | attach w c name =>
    simp only [Board.step] at hn ⊢
    split_ifs at hn ⊢ with hlive
    · obtain ⟨hw, hc⟩ := Bool.and_eq_true_iff.mp hlive
      split at hn
      · next b' hb =>
        exact h.attach hw hc hb hn
      · exact h
    · exact h
  | detach w c name =>
    simp only [Board.step]
    split
    · next b' hb => exact h.detach hb
    · exact h
  | dropWaitSet w => exact h.dropWaitSet w

/-- A run keeps hooks in step with attachments, given that nobody else uses an identity that it
gives to wait sets. -/
lemma after (h : b.Hooked n) {es : List Event}
    (hids : ∀ e ∈ es, ∀ id ∈ e.chosen?, Foreign n id) (hn : (b.after es).nextHook ≤ n) :
    (b.after es).Hooked n := by
  induction es generalizing b with
  | nil => exact h
  | cons e es ih =>
    have hstep := h.step (hids e List.mem_cons_self) ((nextHook_le_after _ es).trans hn)
    exact ih hstep (fun e he => hids e (List.mem_cons_of_mem _ he)) hn

/-- One hook for each attachment. -/
lemma length_hooksOf (h : b.Hooked n) (w c : Nat) :
    (b.hooksOf w c).length = if b.has w c then 1 else 0 := by
  calc (b.hooksOf w c).length
    _ = (idsOf w (b.hooks c)).length := List.length_map _ |>.symm
    _ = ((b.attachments w).filter (·.condition = c)).length := by rw [h.mine, List.length_map]
    _ = ((b.attachments w).map (·.condition)).count c := by
      rw [← List.countP_eq_length_filter, List.count, List.countP_map]
      rfl
    _ = if b.has w c then 1 else 0 := by
      rw [(h.once w).count]
      simp [has]

end Hooked

end PubSub.Board
