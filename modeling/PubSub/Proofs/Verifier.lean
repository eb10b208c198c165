import Mathlib.Tactic.Lemma
import Mathlib.Tactic.SplitIfs
import PubSub.Proofs.Lifecycle
import PubSub.Proofs.Table

/-!
Whole runs of a verifier. Calls about any instances come in any order, and those that fail are
followed by others. Every instance has a lawful history all the same, and a state is recorded
exactly if it keeps the history of its instance lawful, whatever became of the other instances.
-/

namespace PubSub

lemma Lawful.of_append {ss ts : List InstanceState} (h : Lawful (ss ++ ts)) : Lawful ss := by
  induction ts using List.reverseRecOn with
  | nil => rwa [List.append_nil] at h
  | append_singleton ts t ih =>
    rw [← List.append_assoc] at h
    exact ih h.left

lemma lawful_nil : Lawful [] := lawful_replicate 0

namespace LifecycleVerifier

/-- What can be asked of a verifier. -/
inductive Call where
  | observe (key : InstanceKey) (s : InstanceState)
  | expect (key : InstanceKey) (s : InstanceState)
  | observeExpected (key : InstanceKey) (observed expected : InstanceState)

namespace Call

def key : Call → InstanceKey
  | observe key _ => key
  | expect key _ => key
  | observeExpected key _ _ => key

/-- The states that it adds to the history of its instance if it does not fail. -/
def states : Call → List InstanceState
  | observe _ s => [s]
  | expect _ _ => []
  | observeExpected _ s _ => [s]

end Call

def enroll (v : LifecycleVerifier) (key : InstanceKey) : LifecycleVerifier :=
  if v.observed.has key then v else ⟨v.observed.put (· < ·) key []⟩

/-- The verifier after a call, and the answer. Room for a history is made before it is known
whether the state will be recorded. -/
def serve (v : LifecycleVerifier) : Call → LifecycleVerifier × Except Fault Unit
  | .observe key s =>
    match v.observe key s with
    | .ok v' => (v', .ok ())
    | .error f => (v.enroll key, .error f)
  | .expect key s => (v, v.expect key s)
  | .observeExpected key observed expected =>
    match v.observeExpected key observed expected with
    | .ok v' => (v', .ok ())
    | .error f => (if observed = expected then v.enroll key else v, .error f)

def after (v : LifecycleVerifier) (cs : List Call) : LifecycleVerifier :=
  cs.foldl (fun v c => (v.serve c).1) v

def answers (v : LifecycleVerifier) : List Call → List (Except Fault Unit)
  | [] => []
  | c :: cs => (v.serve c).2 :: (v.serve c).1.answers cs

/-- Some states of some instances are observed one after the other, and none is refused. -/
def Accepts (v : LifecycleVerifier) (os : List (InstanceKey × InstanceState)) : Prop :=
  ∀ a ∈ v.answers (os.map fun o => .observe o.1 o.2), a = .ok ()

def statesOf (key : InstanceKey) (os : List (InstanceKey × InstanceState)) : List InstanceState :=
  (os.filter (·.1 = key)).map (·.2)

variable {v : LifecycleVerifier} {key : InstanceKey} {s : InstanceState} {c : Call}
  {ss : List InstanceState}

/-! ### One call -/

lemma history_enroll (v : LifecycleVerifier) (key key' : InstanceKey) :
    (v.enroll key).history key' = v.history key' := by
  unfold enroll
  split_ifs with h
  · rfl
  · rw [history, Table.get?_put]
    split_ifs with hk
    · -- there was no history to forget
      rw [history, hk, Table.has_eq_false.mp (Bool.eq_false_iff.mpr h)]
      rfl
    · rfl

/-- The objections are those to histories that are not lawful. -/
lemma objection_eq_none_iff (key : InstanceKey) (h : Lawful ss) :
    objection? key ss.getLast? s = none ↔ Lawful (ss ++ [s]) := by
  refine ⟨fun hnone => ?_, objection_of_lawful⟩
  obtain ⟨m, rfl | ⟨hm, rfl⟩⟩ := h
  · rw [List.getLast?_replicate] at hnone
    cases s with
    | alive => exact ⟨m + 1, .inl List.replicate_succ'.symm⟩
    | disposed =>
      split_ifs at hnone with hm
      · cases hnone
      · exact lawful_ended (Nat.pos_of_ne_zero hm)
    | noWriters =>
      split_ifs at hnone
      · cases hnone
      · cases hnone
  · rw [List.getLast?_append] at hnone
    cases hnone

lemma observe_eq_ok_iff (h : Lawful (v.history key)) :
    (v.serve (.observe key s)).2 = .ok () ↔ Lawful (v.history key ++ [s]) := by
  rw [← objection_eq_none_iff key h, serve, observe, ← latest?]
  cases objection? key (v.latest? key) s <;> simp

/-- A state that is expected is observed like any other. -/
lemma serve_observeExpected (v : LifecycleVerifier) (key : InstanceKey) (s : InstanceState) :
    v.serve (.observeExpected key s s) = v.serve (.observe key s) := by
  rw [serve, serve, observeExpected, if_pos rfl]
  cases v.observe key s with
  | ok v' => rfl
  | error f => simp only [if_true]

lemma serve_observeExpected_of_ne {t : InstanceState} (h : s ≠ t) :
    v.serve (.observeExpected key s t) = (v, .error (.lifecycle key t s)) := by
  rw [serve, observeExpected, if_neg h]
  simp only [if_neg h]

lemma observeExpected_eq_ok_iff {t : InstanceState} :
    (v.serve (.observeExpected key s t)).2 = .ok () ↔
      s = t ∧ (v.serve (.observe key s)).2 = .ok () := by
  by_cases h : s = t
  · subst h
    rw [serve_observeExpected, and_iff_right rfl]
  · rw [serve_observeExpected_of_ne h]
    exact ⟨nofun, fun hok => absurd hok.1 h⟩

lemma expect_eq_ok_iff : (v.serve (.expect key s)).2 = .ok () ↔ v.latest? key = some s := by
  rw [serve, expect]
  cases v.latest? key with
  | none => simp
  | some t =>
    by_cases h : t = s
    · simp [h]
    · simp [h]

/-- **A call that fails leaves every history as it was.** -/
lemma history_of_error {f : Fault} (h : (v.serve c).2 = .error f) (key : InstanceKey) :
    (v.serve c).1.history key = v.history key := by
  have hobserve : ∀ (k : InstanceKey) (s : InstanceState), (v.serve (.observe k s)).2 = .error f →
      (v.serve (.observe k s)).1.history key = v.history key := by
    intro k s
    rw [serve]
    cases v.observe k s with
    | ok v' => exact nofun
    | error f' => exact fun _ => history_enroll v k key
  cases c with
  | observe k s => exact hobserve k s h
  | expect k s => rfl
  | observeExpected k s t =>
    by_cases hs : s = t
    · subst hs
      rw [serve_observeExpected] at h ⊢
      exact hobserve k s h
    · rw [serve_observeExpected_of_ne hs]

/-- **A call that does not fail adds its states to the history of its instance**, and leaves every
other history as it was. -/
lemma history_of_ok (h : (v.serve c).2 = .ok ()) (key : InstanceKey) :
    (v.serve c).1.history key =
      if key = c.key then v.history key ++ c.states else v.history key := by
  have hobserve : ∀ (k : InstanceKey) (s : InstanceState), (v.serve (.observe k s)).2 = .ok () →
      (v.serve (.observe k s)).1.history key =
        if key = k then v.history key ++ [s] else v.history key := by
    intro k s
    rw [serve]
    cases hv : v.observe k s with
    | ok v' =>
      intro _
      rw [history_observe hv]
      split_ifs with hk
      · rw [hk]
      · rfl
    | error f => exact nofun
  cases c with
  | observe k s => exact hobserve k s h
  | expect k s =>
    rw [Call.states, List.append_nil, ite_self]
    rfl
  | observeExpected k s t =>
    obtain ⟨rfl, hok⟩ := observeExpected_eq_ok_iff.mp h
    rw [serve_observeExpected]
    exact hobserve k s hok

/-- What is recorded keeps the history lawful. -/
lemma lawful_of_ok (h : ∀ key, Lawful (v.history key)) (hok : (v.serve c).2 = .ok ()) :
    Lawful (v.history c.key ++ c.states) := by
  cases c with
  | observe k s => exact (observe_eq_ok_iff (h k)).mp hok
  | expect k s =>
    rw [Call.states, List.append_nil]
    exact h k
  | observeExpected k s t =>
    exact (observe_eq_ok_iff (h k)).mp (observeExpected_eq_ok_iff.mp hok).2

/-- Histories stay lawful whatever a call comes to. -/
lemma lawful_serve (h : ∀ key, Lawful (v.history key)) (c : Call) (key : InstanceKey) :
    Lawful ((v.serve c).1.history key) := by
  cases hanswer : (v.serve c).2 with
  | error f =>
    rw [history_of_error hanswer]
    exact h key
  | ok _ =>
    rw [history_of_ok hanswer]
    split_ifs with hk
    · rw [hk]
      exact lawful_of_ok h hanswer
    · exact h key

/-! ### Runs -/

/-- Every instance has a lawful history at all times. -/
theorem lawful_after (cs : List Call) (h : ∀ key, Lawful (v.history key)) (key : InstanceKey) :
    Lawful ((v.after cs).history key) := by
  induction cs generalizing v with
  | nil => exact h key
  | cons c cs ih => exact ih (lawful_serve h c)

lemma statesOf_cons (key k : InstanceKey) (s : InstanceState)
    (os : List (InstanceKey × InstanceState)) :
    statesOf key ((k, s) :: os) = if key = k then s :: statesOf key os else statesOf key os := by
  by_cases h : key = k
  · simp [statesOf, h]
  · simp [statesOf, h, Ne.symm h]

lemma accepts_cons {k : InstanceKey} {os : List (InstanceKey × InstanceState)} :
    v.Accepts ((k, s) :: os) ↔
      (v.serve (.observe k s)).2 = .ok () ∧ (v.serve (.observe k s)).1.Accepts os := by
  simp only [Accepts, List.map_cons, answers, List.forall_mem_cons]

/-- **Observations are accepted instance by instance**: none is refused exactly if those of every
instance go on lawfully from the history that it has. -/
theorem accepts_iff (os : List (InstanceKey × InstanceState))
    (h : ∀ key, Lawful (v.history key)) :
    v.Accepts os ↔ ∀ key, Lawful (v.history key ++ statesOf key os) := by
  induction os generalizing v with
  | nil =>
    refine ⟨fun _ key => ?_, fun _ a ha => nomatch ha⟩
    rw [statesOf, List.filter_nil, List.map_nil, List.append_nil]
    exact h key
  | cons o os ih =>
    obtain ⟨k, s⟩ := o
    -- what the histories are once the first state has been recorded
    have hnext : (v.serve (.observe k s)).2 = .ok () → ∀ key,
        (v.serve (.observe k s)).1.history key ++ statesOf key os =
          v.history key ++ statesOf key ((k, s) :: os) := by
      intro hok key
      rw [history_of_ok hok, statesOf_cons, Call.key]
      split_ifs
      · exact List.append_assoc ..
      · rfl
    rw [accepts_cons, ih (lawful_serve h _)]
    constructor
    · rintro ⟨hok, hrest⟩ key
      exact hnext hok key ▸ hrest key
    · intro hall
      have hfirst : Lawful (v.history k ++ [s]) := by
        have hk := hall k
        rw [statesOf_cons, if_pos rfl, ← List.singleton_append, ← List.append_assoc] at hk
        exact hk.of_append
      have hok := (observe_eq_ok_iff (h k)).mpr hfirst
      exact ⟨hok, fun key => hnext hok key ▸ hall key⟩

/-- **A verifier accepts the lawful histories and no others.** After any calls, every instance has
a lawful history. A state is recorded exactly if it keeps the history of its instance lawful, one
that is to be another than it is never is, and what is expected is compared with the latest state.
A call that fails changes no history, one that does not fail changes that of its instance alone,
and observations are accepted as a whole exactly if those of every instance are. -/
theorem accepts_exactly (cs : List Call) :
    let v := new.after cs
    (∀ key, Lawful (v.history key)) ∧
      (∀ key s, (v.serve (.observe key s)).2 = .ok () ↔ Lawful (v.history key ++ [s])) ∧
      (∀ key s t, (v.serve (.observeExpected key s t)).2 = .ok () ↔
        s = t ∧ (v.serve (.observe key s)).2 = .ok ()) ∧
      (∀ key s, (v.serve (.expect key s)).2 = .ok () ↔ v.latest? key = some s) ∧
      (∀ c, (v.serve c).2 = .ok () →
        (v.serve c).1.history c.key = v.history c.key ++ c.states ∧
          ∀ key, key ≠ c.key → (v.serve c).1.history key = v.history key ∧
            (v.serve c).1.latest? key = v.latest? key) ∧
      (∀ c f, (v.serve c).2 = .error f → ∀ key, (v.serve c).1.history key = v.history key ∧
        (v.serve c).1.latest? key = v.latest? key) ∧
      (∀ os, v.Accepts os ↔ ∀ key, Lawful (v.history key ++ statesOf key os)) ∧
      ∀ os, new.Accepts os ↔ ∀ key, Lawful (statesOf key os) := by
  intro v
  have hlawful : ∀ key, Lawful (v.history key) := lawful_after cs fun _ => lawful_nil
  refine ⟨hlawful, fun key s => observe_eq_ok_iff (hlawful key), fun _ _ _ =>
    observeExpected_eq_ok_iff, fun _ _ => expect_eq_ok_iff, fun c hok => ⟨?_, fun key hk => ?_⟩,
    fun c f hf key => ?_, fun os => accepts_iff os hlawful, fun os => ?_⟩
  · rw [history_of_ok hok, if_pos rfl]
  · have hsame : (v.serve c).1.history key = v.history key := by
      rw [history_of_ok hok, if_neg hk]
    exact ⟨hsame, congrArg List.getLast? hsame⟩
  · have hsame := history_of_error hf key
    exact ⟨hsame, congrArg List.getLast? hsame⟩
  · exact accepts_iff os fun _ => lawful_nil

end LifecycleVerifier

end PubSub
