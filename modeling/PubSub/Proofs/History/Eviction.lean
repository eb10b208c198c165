import PubSub.Proofs.History.Instance
import PubSub.Proofs.History.Run

/-!
What an event makes of the queue of a cache. New samples go to its end, a take hands the first ones
out, and where an instance has one sample with data too many, its oldest one is lost. The elements
may carry more than the samples, for a sample to be followed through the queue.
-/

namespace PubSub.ReaderCache

/-! ### Eviction by a predicate -/

section Evict

variable {α β : Type} {p p' : α → Bool} {l : List α} {n : Nat}

lemma filter_of_false (h : ∀ a ∈ l, p a = false) : l.filter p = [] :=
  List.filter_eq_nil_iff.mpr fun a ha => ne_true_of_eq_false (h a ha)

def evictBy (p : α → Bool) : Nat → List α → List α
  | 0, l => l
  | _ + 1, [] => []
  | n + 1, a :: l => if p a then evictBy p n l else a :: evictBy p (n + 1) l

/-- Keeps the last elements of which `p` holds, as many as `depth` allows, and all others. -/
def keepNewest (depth : Option Nat) (p : α → Bool) (l : List α) : List α :=
  match depth with
  | some n => evictBy p ((l.filter p).length - n) l
  | none => l

lemma evict_eq_evictBy (key : InstanceKey) (n : Nat) (ss : List (Sample Json)) :
    evict key n ss = evictBy (validFor key) n ss := by
  fun_induction evict key n ss with
  | case1 ss => rw [evictBy]
  | case2 n => rw [evictBy]
  | case3 n s ss hs ih => rw [evictBy, if_pos hs, ih]
  | case4 n s ss hs ih => rw [evictBy, if_neg hs, ih]

lemma enforceDepth_eq_keepNewest (depth : Option Nat) (key : InstanceKey)
    (ss : List (Sample Json)) : enforceDepth depth key ss = keepNewest depth (validFor key) ss := by
  cases depth with
  | none => rfl
  | some n => exact evict_eq_evictBy ..

lemma map_evictBy (f : β → α) (n : Nat) (l : List β) :
    (evictBy (fun b => p (f b)) n l).map f = evictBy p n (l.map f) := by
  fun_induction evictBy (fun b => p (f b)) n l with
  | case1 l => rw [evictBy]
  | case2 n => rfl
  | case3 n b l hb ih => rw [List.map_cons, evictBy, if_pos hb, ih]
  | case4 n b l hb ih => rw [List.map_cons, List.map_cons, evictBy, if_neg hb, ih]

lemma map_keepNewest (f : β → α) (depth : Option Nat) (l : List β) :
    (keepNewest depth (fun b => p (f b)) l).map f = keepNewest depth p (l.map f) := by
  cases depth with
  | none => rfl
  | some n =>
    have hcount : ((l.map f).filter p).length = (l.filter fun b => p (f b)).length := by
      rw [List.filter_map, List.length_map]
      rfl
    rw [keepNewest, map_evictBy, keepNewest, hcount]

lemma evictBy_one (h : l.filter p ≠ []) :
    ∃ before a after, l = before ++ a :: after ∧ (∀ b ∈ before, p b = false) ∧ p a = true ∧
      evictBy p 1 l = before ++ after := by
  induction l with
  | nil => exact absurd rfl h
  | cons b l ih =>
    cases hb : p b with
    | true => exact ⟨[], b, l, rfl, by simp, hb, by rw [evictBy, if_pos hb, evictBy]; rfl⟩
    | false =>
      rw [List.filter_cons_of_neg (by simp [hb])] at h
      obtain ⟨before, a, after, rfl, hbefore, ha, hevict⟩ := ih h
      refine ⟨b :: before, a, after, rfl, ?_, ha, ?_⟩
      · exact List.forall_mem_cons.mpr ⟨hb, hbefore⟩
      · rw [evictBy, if_neg (by simp [hb]), hevict]
        rfl

/-- Where there is one too many, the oldest one goes and the others fill the depth. -/
lemma keepNewest_cases {depth : Option Nat} (h : ∀ n ∈ depth, (l.filter p).length ≤ n + 1) :
    keepNewest depth p l = l ∧ (∀ n ∈ depth, (l.filter p).length ≤ n) ∨
      ∃ n before a after, depth = some n ∧ l = before ++ a :: after ∧
        (∀ b ∈ before, p b = false) ∧ p a = true ∧ (after.filter p).length = n ∧
        keepNewest depth p l = before ++ after := by
  cases depth with
  | none => exact .inl ⟨rfl, by simp⟩
  | some n =>
    have hle := h n rfl
    rcases Nat.lt_or_ge n (l.filter p).length with hmany | hfew
    · have hone : (l.filter p).length - n = 1 := by omega
      obtain ⟨before, a, after, rfl, hbefore, ha, hevict⟩ :=
        evictBy_one (List.ne_nil_of_length_pos (Nat.lt_of_le_of_lt (Nat.zero_le n) hmany))
      refine .inr ⟨n, before, a, after, rfl, rfl, hbefore, ha, ?_, by rw [keepNewest, hone, hevict]⟩
      rw [List.filter_append, filter_of_false hbefore, List.filter_cons_of_pos ha, List.nil_append,
        List.length_cons] at hone
      omega
    · have hzero : (l.filter p).length - n = 0 := by omega
      exact .inl ⟨by rw [keepNewest, hzero, evictBy], fun m hm => Option.some.inj hm ▸ hfew⟩

end Evict

/-! ### What a cache makes and hands out -/

variable {r : ReaderCache} {e : Event} {es : List Event} {q : Qos} {key : InstanceKey}

/-- The samples that an event makes: one for a change that is accepted, and one for every instance
that loses its last writer. -/
def produces (r : ReaderCache) : Event → List (Sample Json)
  | .receive w n c => if (r.receive w n c).2.1 = .accepted then [sampleOf c] else []
  | .remove w =>
    if r.hasWriter w then (r.orphans w).map fun key => .notification key .noWriters 0 else []
  | .add .. | .take _ => []

def hands (r : ReaderCache) : Event → List (Sample Json)
  | .take max => (r.take max).2
  | .add .. | .remove _ | .receive .. => []

def made (r : ReaderCache) (es : List Event) : List (Sample Json) := along step produces r es

def returned (r : ReaderCache) (es : List Event) : List (Sample Json) := along step hands r es

lemma made_concat (r : ReaderCache) (es : List Event) (e : Event) :
    r.made (es ++ [e]) = r.made es ++ (r.run es).produces e := along_concat ..

lemma returned_concat (r : ReaderCache) (es : List Event) (e : Event) :
    r.returned (es ++ [e]) = r.returned es ++ (r.run es).hands e := along_concat ..

def Event.asked : Event → Nat
  | .take max => max
  | .add .. | .remove _ | .receive .. => 0

lemma Event.asked_eq_zero (he : ∀ max, e ≠ .take max) : e.asked = 0 := by
  cases e with
  | take max => exact absurd rfl (he max)
  | add | remove | receive => rfl

lemma take_asked (r : ReaderCache) (e : Event) :
    (r.unread ++ r.produces e).take e.asked = r.hands e := by
  cases e with
  | take max => rw [produces, List.append_nil]; rfl
  | add | remove | receive => rfl

/-- What is left of a queue to which the samples of an event have been added. -/
def settle (r : ReaderCache) (e : Event) {α : Type} (sample : α → Sample Json) (l : List α) :
    List α :=
  match e with
  | .take max => l.drop max
  | .receive w n c =>
    if (r.receive w n c).2.1 = .accepted ∧ c.kind = .alive then
      keepNewest r.qos.history.depth (fun a => validFor c.key (sample a)) l
    else l
  | .add .. | .remove _ => l

lemma unread_step (r : ReaderCache) (e : Event) :
    (r.step e).unread = r.settle e id (r.unread ++ r.produces e) := by
  cases e with
  | add w b => simpa [settle, produces, step] using r.addWriter_unread w b
  | take max => simp [settle, produces, step, take]
  | remove w =>
    rw [step, removeWriter, settle, produces]
    split_ifs <;> simp
  | receive w n c =>
    by_cases hacc : (r.receive w n c).2.1 = .accepted
    · rw [step, receive_of_accepted hacc, produces, if_pos hacc, settle]
      cases hc : c.kind with
      | alive =>
        simp only [hacc, and_self, if_true, apply, hc]
        exact enforceDepth_eq_keepNewest ..
      | disposed => simp [apply, hc]
    · rw [step, receive_of_not_accepted hacc, produces, if_neg hacc, settle]
      simp [hacc]

lemma map_settle {α : Type} (r : ReaderCache) (e : Event) (sample : α → Sample Json) (l : List α) :
    (r.settle e sample l).map sample = r.settle e id (l.map sample) := by
  cases e with
  | add w b | remove w => rfl
  | take max => exact List.map_drop
  | receive w n c =>
    rw [settle, settle]
    split_ifs
    · exact map_keepNewest ..
    · rfl

/-! ### The depth of the history -/

/-- No instance has more samples with data unread than the depth of the history allows. -/
def WithinDepth (r : ReaderCache) : Prop :=
  ∀ n ∈ r.qos.history.depth, ∀ key, (r.unread.filter (validFor key)).length ≤ n

lemma validFor_of_invalid {s : Sample Json} (h : s.valid = false) (key : InstanceKey) :
    validFor key s = false := by simp [validFor, h]

lemma valid_sampleOf (c : Change) : (sampleOf c).valid = true ↔ c.kind = .alive := by
  rw [sampleOf]
  cases c.kind <;> simp [Sample.notification]

/-- A sample with data is made of a change that brings them, and no other sample with it. -/
lemma produces_of_valid {s : Sample Json} (hs : s ∈ r.produces e) (hv : s.valid = true) :
    r.produces e = [s] := by
  cases e with
  | add | take => cases hs
  | remove w =>
    rw [produces] at hs
    split_ifs at hs
    · obtain ⟨key, -, rfl⟩ := List.mem_map.mp hs
      cases hv
    · cases hs
  | receive w n c =>
    rw [produces] at hs ⊢
    split_ifs at hs ⊢
    · rw [List.mem_singleton.mp hs]
    · cases hs

/-- Samples that are none of an instance's with data do not count for it. -/
lemma WithinDepth.append (h : r.WithinDepth) {ss : List (Sample Json)} {n : Nat}
    (hn : n ∈ r.qos.history.depth) (hss : ∀ s ∈ ss, validFor key s = false) :
    ((r.unread ++ ss).filter (validFor key)).length ≤ n := by
  rw [List.filter_append, filter_of_false hss, List.append_nil]
  exact h n hn key

section Settles

variable {α : Type} {sample : α → Sample Json} {l : List α}

lemma count_map (sample : α → Sample Json) (l : List α) (key : InstanceKey) :
    (l.filter fun a => validFor key (sample a)).length =
      ((l.map sample).filter (validFor key)).length := by
  rw [List.filter_map, List.length_map]
  rfl

/-- What an event leaves of a queue: all of it, or all but the first elements, which are handed out,
or all but the oldest sample with data of an instance that has one too many. -/
inductive Settles (r : ReaderCache) (sample : α → Sample Json) (l : List α) :
    Event → List α → Prop where
  | all {e : Event} (he : ∀ max, e ≠ .take max)
    (hfit : ∀ n ∈ r.qos.history.depth, ∀ key,
      (l.filter fun a => validFor key (sample a)).length ≤ n) : Settles r sample l e l
  | hand (max : Nat) : Settles r sample l (.take max) (l.drop max)
  | evict {e : Event} {n : Nat} {key : InstanceKey} {before after : List α} {a : α}
    (he : ∀ max, e ≠ .take max) (hn : r.qos.history.depth = some n) (hl : l = before ++ a :: after)
    (hbefore : ∀ b ∈ before, validFor key (sample b) = false) (ha : validFor key (sample a) = true)
    (hafter : (after.filter fun a => validFor key (sample a)).length = n)
    (hothers : ∀ key' ≠ key, (l.filter fun a => validFor key' (sample a)).length ≤ n) :
    Settles r sample l e (before ++ after)

/-- **What an event does to a queue** that keeps within the depth of the history. -/
theorem settles (h : r.WithinDepth) (e : Event)
    (hl : l.map sample = r.unread ++ r.produces e) :
    Settles r sample l e (r.settle e sample l) := by
  -- without a new sample with data the queue stays within the depth
  have hfit (hquiet : ∀ s ∈ r.produces e, s.valid = false) :
      ∀ n ∈ r.qos.history.depth, ∀ key, (l.filter fun a => validFor key (sample a)).length ≤ n := by
    intro n hn key
    rw [count_map, hl]
    exact h.append hn fun s hs => validFor_of_invalid (hquiet s hs) key
  cases e with
  | take max => exact .hand max
  | add w b => exact .all (fun _ => Event.noConfusion) (hfit (by simp [produces]))
  | remove w =>
    -- the last writer gone: notifications only, which are no samples with data
    refine .all (fun _ => Event.noConfusion) (hfit fun s hs => ?_)
    rw [produces] at hs
    split_ifs at hs
    · obtain ⟨key, -, rfl⟩ := List.mem_map.mp hs
      rfl
    · cases hs
  | receive w n c =>
    rw [settle]
    split_ifs with hc
    · -- the new sample counts for its own instance only, which may have one too many
      rw [produces, if_pos hc.1] at hl
      have hsample : ∀ key, key ≠ c.key → validFor key (sampleOf c) = false := fun key hkey => by
        simp [validFor, Ne.symm hkey]
      have hothers : ∀ m ∈ r.qos.history.depth, ∀ key ≠ c.key,
          (l.filter fun a => validFor key (sample a)).length ≤ m := fun m hm key hkey => by
        rw [count_map, hl]
        exact h.append hm (by simpa using hsample key hkey)
      have hcrowded : ∀ m ∈ r.qos.history.depth,
          (l.filter fun a => validFor c.key (sample a)).length ≤ m + 1 := fun m hm => by
        have hle := h m hm c.key
        have hlast : ([sampleOf c].filter (validFor c.key)).length ≤ 1 := List.length_filter_le ..
        rw [count_map, hl, List.filter_append, List.length_append]
        omega
      rcases keepNewest_cases hcrowded with ⟨hall, hfew⟩ | ⟨m, before, a, after, hm, rfl, hbefore,
          ha, hafter, hevict⟩
      · rw [hall]
        refine .all (fun _ => Event.noConfusion) fun m hm key => ?_
        by_cases hkey : key = c.key
        · exact hkey ▸ hfew m hm
        · exact hothers m hm key hkey
      · rw [hevict]
        exact .evict (fun _ => Event.noConfusion) hm rfl hbefore ha hafter (hothers m hm)
    · -- refused, or accepted without data
      refine .all (fun _ => Event.noConfusion) (hfit fun s hs => ?_)
      rw [produces] at hs
      split_ifs at hs with hacc
      · obtain rfl := List.mem_singleton.mp hs
        rw [← Bool.not_eq_true, valid_sampleOf]
        exact fun halive => hc ⟨hacc, halive⟩
      · cases hs

end Settles

/-- The queue after an event, as the event has left it of the samples before and the new ones. -/
lemma settles_unread (h : r.WithinDepth) (e : Event) :
    Settles r id (r.unread ++ r.produces e) e (r.step e).unread :=
  unread_step r e ▸ settles h e (List.map_id _)

lemma withinDepth_new (q : Qos) : (new q).WithinDepth := fun _ _ _ => Nat.zero_le _

lemma WithinDepth.step (h : r.WithinDepth) (e : Event) : (r.step e).WithinDepth := by
  intro n hn key
  rw [qos_step] at hn
  have hsettles := settles_unread h e
  generalize (r.step e).unread = ss at hsettles
  cases hsettles with
  | all he hfit => exact hfit n hn key
  | hand max =>
    have hsub : ((r.unread ++ r.produces (.take max)).drop max).Sublist r.unread := by
      simpa [produces] using List.drop_sublist max r.unread
    exact Nat.le_trans (hsub.filter _).length_le (h n hn key)
  | @evict _ m key' before after a he hm hl hbefore ha hafter hothers =>
    obtain rfl : m = n := Option.some.inj (hm.symm.trans hn)
    by_cases hkey : key = key'
    · subst hkey
      rw [List.filter_append, filter_of_false (p := validFor key) hbefore]
      exact hafter.le
    · refine Nat.le_trans ?_ (hothers key hkey)
      rw [hl]
      exact (((List.sublist_cons_self a after).append_left before).filter _).length_le

/-- **Only a take makes the queue shorter.** -/
lemma WithinDepth.length_le_step (h : r.WithinDepth) (he : ∀ max, e ≠ .take max) :
    r.unread.length ≤ (r.step e).unread.length := by
  have hsettles := settles_unread h e
  generalize (r.step e).unread = ss at hsettles
  cases hsettles with
  | all => exact (List.sublist_append_left ..).length_le
  | hand max => exact absurd rfl (he max)
  | @evict _ n key before after a _ hn hl hbefore ha hafter hothers =>
    have hlength := congrArg List.length hl
    simp only [List.length_append, List.length_cons] at hlength ⊢
    suffices hnew : r.produces e ≠ [] by
      have := List.length_pos_of_ne_nil hnew
      omega
    -- without a new sample there would not be one too many
    intro hnone
    rw [hnone, List.append_nil] at hl
    have hle := h n hn key
    have ha : validFor key a = true := ha
    rw [hl, List.filter_append, List.filter_cons_of_pos ha, List.length_append,
      List.length_cons] at hle
    have hafter : (after.filter (validFor key)).length = n := hafter
    omega

lemma WithinDepth.run (h : r.WithinDepth) (es : List Event) : (r.run es).WithinDepth := by
  induction es using List.reverseRecOn with
  | nil => exact h
  | append_singleton es e ih => exact run_concat .. ▸ ih.step e

end PubSub.ReaderCache
