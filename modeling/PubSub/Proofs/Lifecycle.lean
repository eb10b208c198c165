import Mathlib.Data.List.Induction
import PubSub.Lifecycle
import PubSub.Proofs.Table

/-!
The histories that a verifier lets an instance have: alive for a while, and once it has been
alive, disposed at the very end.
-/

namespace PubSub

def Lawful (ss : List InstanceState) : Prop :=
  ∃ m, ss = List.replicate m .alive ∨ 0 < m ∧ ss = List.replicate m .alive ++ [.disposed]

lemma lawful_replicate (m : Nat) : Lawful (List.replicate m .alive) := ⟨m, .inl rfl⟩

lemma lawful_ended {m : Nat} (hm : 0 < m) : Lawful (List.replicate m .alive ++ [.disposed]) :=
  ⟨m, .inr ⟨hm, rfl⟩⟩

lemma Lawful.left {ss : List InstanceState} {s : InstanceState} (h : Lawful (ss ++ [s])) :
    Lawful ss := by
  obtain ⟨m, h | ⟨hm, h⟩⟩ := h
  · cases m with
    | zero => simp at h
    | succ m =>
      rw [List.replicate_succ'] at h
      rw [List.append_inj_left' h rfl]
      exact lawful_replicate m
  · rw [List.append_inj_left' h rfl]
    exact lawful_replicate m

namespace LifecycleVerifier

variable {v v' : LifecycleVerifier} {key : InstanceKey} {s : InstanceState}

lemma history_observe (h : v.observe key s = .ok v') (key' : InstanceKey) :
    v'.history key' = if key' = key then v.history key ++ [s] else v.history key' := by
  unfold observe at h
  split at h
  · cases h
  · cases h
    rw [history, Table.get?_put]
    split_ifs <;> rfl

lemma observe_of_objection (h : objection? key (v.latest? key) s = none) :
    ∃ v', v.observe key s = .ok v' := by
  rw [observe, h]
  exact ⟨_, rfl⟩

lemma objection_of_lawful {ss : List InstanceState} (h : Lawful (ss ++ [s])) :
    objection? key ss.getLast? s = none := by
  obtain ⟨m, h | ⟨hm, h⟩⟩ := h
  · cases m with
    | zero => simp at h
    | succ m =>
      rw [List.replicate_succ'] at h
      obtain ⟨rfl, hs⟩ := List.append_inj' h rfl
      obtain rfl := List.singleton_inj.mp hs
      cases m <;> simp [objection?, List.getLast?_replicate]
  · obtain ⟨rfl, hs⟩ := List.append_inj' h rfl
    obtain rfl := List.singleton_inj.mp hs
    rw [List.getLast?_replicate, if_neg (Nat.ne_of_gt hm)]
    rfl

/-- The first thing that is expected of an instance is that it is alive. -/
lemma observeExpected_new (key : InstanceKey) :
    ∃ v, new.observeExpected key .alive .alive = .ok v ∧ v.history key = [.alive] := by
  have hobjection : objection? key (new.latest? key) .alive = none := rfl
  obtain ⟨v, hv⟩ := observe_of_objection hobjection
  exact ⟨v, hv, by rw [history_observe hv, if_pos rfl]; rfl⟩

/-- After that it can be expected to have been disposed of. -/
lemma observeExpected_disposed (h : v.history key = [.alive]) :
    ∃ v', v.observeExpected key .disposed .disposed = .ok v' :=
  observe_of_objection (by rw [latest?, h]; rfl)

def observeAll (v : LifecycleVerifier) (key : InstanceKey) (ss : List InstanceState) :
    Except Fault LifecycleVerifier := ss.foldlM (fun v s => v.observe key s) v

/-- **A lawful history is observed without a fault**, and is what the verifier then has of the
instance. -/
theorem observeAll_of_lawful {ss : List InstanceState} (h : Lawful ss) (key : InstanceKey) :
    ∃ v, new.observeAll key ss = .ok v ∧ v.history key = ss := by
  induction ss using List.reverseRecOn with
  | nil => exact ⟨new, rfl, rfl⟩
  | append_singleton ss s ih =>
    obtain ⟨v, hv, hhistory⟩ := ih h.left
    have hobjection : objection? key (v.latest? key) s = none := by
      rw [latest?, hhistory]
      exact objection_of_lawful h
    obtain ⟨v', hv'⟩ := observe_of_objection hobjection
    refine ⟨v', ?_, ?_⟩
    · rw [observeAll] at hv ⊢
      rw [List.foldlM_append, hv]
      simp [bind, Except.bind, hv', pure, Except.pure]
    · rw [history_observe hv', if_pos rfl, hhistory]

end LifecycleVerifier

end PubSub
