import Mathlib.Data.List.Chain
import PubSub.Proofs.History.Run
import PubSub.Status

/-!
The counters of matches along a run. Whoever takes the status reads what has changed since it was
taken last, so that all that was ever read, and what is still to be read, add up to the counters
themselves.
-/

namespace PubSub.MatchedStatus

inductive Event where
  | matched
  | unmatched
  | take
deriving DecidableEq

def step (s : MatchedStatus) : Event → MatchedStatus
  | .matched => s.matched
  | .unmatched => s.unmatched
  | .take => s.taken

def run (s : MatchedStatus) (es : List Event) : MatchedStatus := es.foldl step s

def snapshot (s : MatchedStatus) (e : Event) : List MatchedStatus := if e = .take then [s] else []

/-- Whether the event is an unmatch that finds a peer to lose. -/
def loses (s : MatchedStatus) (e : Event) : Bool := e = .unmatched ∧ 0 < s.current

def snapshots (s : MatchedStatus) (es : List Event) : List MatchedStatus := along step snapshot s es

def losses (s : MatchedStatus) (es : List Event) : List Event :=
  along step (fun s e => [e].filter s.loses) s es

/-- The changes of `b` count from `a` on. -/
structure Since (a b : MatchedStatus) : Prop where
  total : b.totalChange = b.total - a.total
  current : b.currentChange = b.current - a.current

/-- The counters are within 32 bits, and so are their changes with a sign. -/
structure Fits (s : MatchedStatus) : Prop where
  total : s.total < 2 ^ 32
  current : s.current < 2 ^ 32
  totalChange : -2 ^ 31 ≤ s.totalChange ∧ s.totalChange < 2 ^ 31
  currentChange : -2 ^ 31 ≤ s.currentChange ∧ s.currentChange < 2 ^ 31

variable {s a b : MatchedStatus} {es : List Event} {e : Event}

@[simp] lemma unmatched_current (s : MatchedStatus) :
    s.unmatched.current = s.current - 1 := by
  unfold unmatched
  split
  · next h => rw [h]
  · rfl

@[simp] lemma unmatched_total (s : MatchedStatus) : s.unmatched.total = s.total := by
  unfold unmatched
  split <;> rfl

lemma run_concat (s : MatchedStatus) (es : List Event) (e : Event) :
    s.run (es ++ [e]) = (s.run es).step e := List.foldl_concat ..

lemma snapshots_concat (s : MatchedStatus) (es : List Event) (e : Event) :
    s.snapshots (es ++ [e]) = s.snapshots es ++ (s.run es).snapshot e := along_concat ..

lemma losses_concat (s : MatchedStatus) (es : List Event) (e : Event) :
    s.losses (es ++ [e]) = s.losses es ++ [e].filter (s.run es).loses := along_concat ..

/-! ### The counters -/

/-- Every match counts for good. -/
lemma total_run (s : MatchedStatus) (es : List Event) :
    (s.run es).total = s.total + es.count .matched := by
  induction es using List.reverseRecOn with
  | nil => rfl
  | append_singleton es e ih =>
    rw [run_concat, List.count_append]
    cases e with
    | matched => simp [step, matched, ih, Nat.add_assoc]
    | unmatched => simp [step, ih]
    | take => simp [step, taken, ih]

/-- Every match counts until a peer is lost. -/
lemma current_run (s : MatchedStatus) (es : List Event) :
    (s.run es).current + (s.losses es).length = s.current + es.count .matched := by
  induction es using List.reverseRecOn with
  | nil => rfl
  | append_singleton es e ih =>
    rw [run_concat, losses_concat, List.count_append, List.length_append]
    cases e with
    | matched =>
      simp [step, matched, loses]
      omega
    | unmatched =>
      by_cases hpos : 0 < (s.run es).current
      · simp [step, loses, hpos]
        omega
      · simp [step, loses, hpos]
        omega
    | take =>
      simp [step, taken, loses]
      omega

/-! ### Their changes -/

lemma Since.matched (h : Since a s) : Since a s.matched := by
  refine ⟨?_, ?_⟩
  · have := h.total
    simp only [MatchedStatus.matched]
    omega
  · have := h.current
    simp only [MatchedStatus.matched]
    omega

lemma Since.unmatched (h : Since a s) : Since a s.unmatched := by
  unfold MatchedStatus.unmatched
  split_ifs with hzero
  · exact h
  · refine ⟨h.total, ?_⟩
    have := h.current
    simp only
    omega

/-- Once the status has been taken, its changes count from there. -/
lemma since_taken (s : MatchedStatus) : Since s s.taken := ⟨by simp [taken], by simp [taken]⟩

/-- The status as it was taken last, or at the start if it was not. -/
def lastRead (es : List Event) : MatchedStatus := (empty.snapshots es).getLastD empty

lemma lastRead_concat (es : List Event) (e : Event) :
    lastRead (es ++ [e]) = if e = .take then empty.run es else lastRead es := by
  rw [lastRead, snapshots_concat, snapshot]
  split_ifs
  · simp
  · rw [List.append_nil, lastRead]

lemma since_lastRead (es : List Event) : Since (lastRead es) (empty.run es) := by
  induction es using List.reverseRecOn with
  | nil => exact ⟨rfl, rfl⟩
  | append_singleton es e ih =>
    rw [run_concat, lastRead_concat]
    cases e with
    | matched => exact ih.matched
    | unmatched => exact ih.unmatched
    | take => exact since_taken _

lemma isChain_concat (h : (empty :: empty.snapshots es).IsChain Since)
    (hs : Since (lastRead es) s) : (empty :: (empty.snapshots es ++ [s])).IsChain Since := by
  rw [← List.cons_append]
  refine h.append (List.isChain_singleton _) fun a ha b hb => ?_
  obtain rfl : s = b := Option.some.inj hb
  obtain rfl : lastRead es = a := by simpa [lastRead, List.getLast?_cons] using ha
  exact hs

/-- **Every snapshot counts from the one before it**, and the first one from the start. -/
lemma isChain_snapshots (es : List Event) :
    (empty :: empty.snapshots es).IsChain Since := by
  induction es using List.reverseRecOn with
  | nil => exact List.isChain_singleton _
  | append_singleton es e ih =>
    rw [snapshots_concat, snapshot]
    split_ifs
    · exact isChain_concat ih (since_lastRead es)
    · rwa [List.append_nil]

/-- Changes that count one from the other add up to the whole way. -/
lemma sum_changes {l : List MatchedStatus} (h : (a :: l).IsChain Since) :
    (l.map (·.totalChange)).sum = ((l.getLastD a).total : Int) - a.total ∧
      (l.map (·.currentChange)).sum = ((l.getLastD a).current : Int) - a.current := by
  induction l generalizing a with
  | nil => simp
  | cons b l ih =>
    obtain ⟨hb, hl⟩ := List.isChain_cons_cons.mp h
    obtain ⟨htotal, hcurrent⟩ := ih hl
    rw [List.getLastD_cons]
    simp only [List.map_cons, List.sum_cons]
    rw [htotal, hcurrent, hb.total, hb.current]
    omega

/-! ### What they tell of a run -/

lemma current_le_total (es : List Event) : (empty.run es).current ≤ (empty.run es).total := by
  have hcurrent := current_run empty es
  have htotal := total_run empty es
  simp only [empty, Nat.zero_add] at *
  omega

lemma total_le_step (s : MatchedStatus) (e : Event) : s.total ≤ (s.step e).total := by
  have := total_run s [e]
  simp only [run, List.foldl_cons, List.foldl_nil] at this
  omega

lemma lastRead_le (es : List Event) :
    (lastRead es).current ≤ (lastRead es).total ∧
      (lastRead es).total ≤ (empty.run es).total := by
  induction es using List.reverseRecOn with
  | nil => exact ⟨Nat.le_refl _, Nat.le_refl _⟩
  | append_singleton es e ih =>
    have hstep := total_le_step (empty.run es) e
    rw [lastRead_concat, run_concat]
    split_ifs
    · exact ⟨current_le_total es, hstep⟩
    · exact ⟨ih.1, ih.2.trans hstep⟩

/-- Below 2^31 matches nothing overflows. -/
lemma fits_run (hes : es.count .matched < 2 ^ 31) : (empty.run es).Fits := by
  have htotal : (empty.run es).total = es.count .matched := by
    simpa [empty] using total_run empty es
  have hcurrent := current_le_total es
  have hsince := since_lastRead es
  have hlast := lastRead_le es
  refine ⟨by omega, by omega, ?_, ?_⟩
  · rw [hsince.total]
    omega
  · rw [hsince.current]
    omega

/-- **No match and no loss is ever missed or read twice.** The counters tell how many peers were
matched and how many of them have not been lost since. All the changes that were ever read, and what
would be read now, add up to them, since every reading counts from the one before it. -/
theorem every_match_accounted (es : List Event) :
    let s := empty.run es
    s.current + (empty.losses es).length = es.count .matched ∧
      s.total = es.count .matched ∧
      (∀ es', s.total ≤ (s.run es').total) ∧
      ((empty.snapshots es).map (·.currentChange)).sum + s.currentChange = s.current ∧
      ((empty.snapshots es).map (·.totalChange)).sum + s.totalChange = s.total ∧
      (empty :: (empty.snapshots es ++ [s])).IsChain Since ∧
      (es.count .matched < 2 ^ 31 → s.Fits) := by
  intro s
  have hchain := isChain_snapshots es
  have hsince : Since (lastRead es) s := since_lastRead es
  obtain ⟨htotal, hcurrent⟩ := sum_changes hchain
  have hzero : empty.total = 0 ∧ empty.current = 0 := ⟨rfl, rfl⟩
  refine ⟨?_, ?_, fun es' => ?_, ?_, ?_, ?_, fits_run⟩
  · simpa [hzero] using current_run empty es
  · simpa [hzero] using total_run empty es
  · rw [total_run s es']
    exact Nat.le_add_right _ _
  · rw [hcurrent, hsince.current, lastRead, hzero.2]
    omega
  · rw [htotal, hsince.total, lastRead, hzero.1]
    omega
  · exact isChain_concat hchain hsince

/-- More peers are lost than were matched, and the status is taken in between. -/
def surplus : List Event :=
  [.unmatched, .matched, .matched, .take, .unmatched, .unmatched, .unmatched, .take, .matched]

theorem every_match_accounted_surplus :
    surplus.count .matched < 2 ^ 31 ∧ (empty.losses surplus).length = 2 ∧
      (empty.snapshots surplus).map (·.currentChange) = [2, -2] ∧
      (empty.run surplus).current = 1 ∧ (empty.run surplus).Fits := by
  have hfew : surplus.count .matched < 2 ^ 31 := by decide
  obtain ⟨-, -, -, -, -, -, hfits⟩ := every_match_accounted surplus
  exact ⟨hfew, rfl, rfl, rfl, hfits hfew⟩

end PubSub.MatchedStatus
