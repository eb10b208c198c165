import PubSub.History.Writer
import PubSub.Proofs.Table

/-!
What a writer keeps for one reader. The changes for that reader are numbered from one without a
gap, and those that wait for an acknowledgment are always the last ones of that sequence.
-/

namespace PubSub

def numbered (n : Nat) : List Change → List (Nat × Change)
  | [] => []
  | c :: cs => (n, c) :: numbered (n + 1) cs

lemma numbered_append (n : Nat) (xs ys : List Change) :
    numbered n (xs ++ ys) = numbered n xs ++ numbered (n + xs.length) ys := by
  induction xs generalizing n with
  | nil => simp [numbered]
  | cons c cs ih =>
    simp only [List.cons_append, numbered, ih, List.length_cons]
    congr 3
    omega

@[simp] lemma map_snd_numbered (n : Nat) (cs : List Change) : (numbered n cs).map (·.2) = cs := by
  induction cs generalizing n with
  | nil => rfl
  | cons c cs ih => simp [numbered, ih]

lemma map_fst_numbered (n : Nat) (cs : List Change) :
    (numbered n cs).map (·.1) = List.range' n cs.length := by
  induction cs generalizing n with
  | nil => rfl
  | cons c cs ih => rw [numbered, List.map_cons, ih, List.length_cons, List.range'_succ]

@[simp] lemma length_numbered (n : Nat) (cs : List Change) :
    (numbered n cs).length = cs.length := by
  rw [← List.length_map (·.2), map_snd_numbered]

lemma numbered_eq_nil {n : Nat} {cs : List Change} : numbered n cs = [] ↔ cs = [] := by
  cases cs <;> simp [numbered]

lemma mem_numbered {n m : Nat} {c : Change} {cs : List Change} :
    (m, c) ∈ numbered n cs ↔ n ≤ m ∧ cs[m - n]? = some c := by
  induction cs generalizing n with
  | nil => simp [numbered]
  | cons d cs ih =>
    rw [numbered, List.mem_cons, ih, Prod.mk.injEq]
    rcases Nat.lt_trichotomy m n with h | rfl | h
    · exact ⟨by rintro (⟨rfl, -⟩ | ⟨h', -⟩) <;> omega, fun h' => by omega⟩
    · simp only [Nat.sub_self, List.getElem?_cons_zero, Option.some.injEq, true_and]
      exact ⟨by rintro (rfl | ⟨h', -⟩); exacts [⟨Nat.le_refl _, rfl⟩, by omega],
        fun h' => Or.inl h'.2.symm⟩
    · obtain ⟨i, rfl⟩ : ∃ i, m = n + 1 + i := ⟨m - (n + 1), by omega⟩
      have hi : n + 1 + i - n = i + 1 := by omega
      simp only [hi, List.getElem?_cons_succ, Nat.add_sub_cancel_left]
      exact ⟨by rintro (⟨h', -⟩ | h'); exacts [by omega, ⟨by omega, h'.2⟩],
        fun h' => Or.inr ⟨by omega, h'.2⟩⟩

lemma getElem?_numbered (n k : Nat) (cs : List Change) :
    (numbered n cs)[k]? = cs[k]?.map (n + k, ·) := by
  induction cs generalizing n k with
  | nil => rfl
  | cons c cs ih =>
    cases k with
    | zero => rfl
    | succ k =>
      rw [numbered, List.getElem?_cons_succ, List.getElem?_cons_succ, ih, Nat.add_right_comm n 1 k]
      rfl

lemma dropWhile_numbered (n a : Nat) (cs : List Change) :
    (numbered n cs).dropWhile (fun e => e.1 ≤ a) =
      numbered (n + (a + 1 - n)) (cs.drop (a + 1 - n)) := by
  induction cs generalizing n with
  | nil => simp [numbered]
  | cons c cs ih =>
    rw [numbered, List.dropWhile_cons]
    by_cases h : n ≤ a
    · obtain ⟨i, hi⟩ : ∃ i, a + 1 - n = i + 1 := ⟨a - n, by omega⟩
      have hn : a + 1 - (n + 1) = i := by omega
      simp only [h, decide_true, if_true, ih, hi, hn, List.drop_succ_cons]
      congr 1
      omega
    · have hz : a + 1 - n = 0 := by omega
      simp [h, hz, numbered]

/-! ### The proxy of a reader -/

namespace ReaderProxy

/-- The proxy has numbered the changes `owed`, of which the first `k` are acknowledged. -/
structure Keeps (p : ReaderProxy) (owed : List Change) (k : Nat) : Prop where
  next : p.next = owed.length + 1
  le : k ≤ owed.length
  pending : p.pending = if p.reliable then numbered (k + 1) (owed.drop k) else []

lemma keeps_new (b : Bool) : (ReaderProxy.new b).Keeps [] 0 :=
  ⟨rfl, Nat.le_refl _, by simp [ReaderProxy.new, numbered]⟩

@[simp] lemma enqueue_reliable (p : ReaderProxy) (c : Change) :
    (p.enqueue c).reliable = p.reliable := rfl

@[simp] lemma acknowledge_reliable (p : ReaderProxy) (a : Nat) :
    (p.acknowledge a).reliable = p.reliable := rfl

variable {p : ReaderProxy} {owed : List Change} {k : Nat}

lemma Keeps.enqueue (h : p.Keeps owed k) (c : Change) : (p.enqueue c).Keeps (owed ++ [c]) k := by
  refine ⟨by simp [ReaderProxy.enqueue, h.next], by have := h.le; simp; omega, ?_⟩
  simp only [ReaderProxy.enqueue, h.pending, h.next]
  split_ifs with hb
  · have hk : k + 1 + (owed.length - k) = owed.length + 1 := by have := h.le; omega
    rw [List.drop_append_of_le_length h.le, numbered_append, List.length_drop, hk]
    rfl
  · rfl

/-- An acknowledgment settles everything up to its number, and never less than before. -/
lemma Keeps.acknowledge (h : p.Keeps owed k) (a : Nat) :
    (p.acknowledge a).Keeps owed (max k (min a owed.length)) := by
  have hle := h.le
  refine ⟨h.next, by omega, ?_⟩
  simp only [ReaderProxy.acknowledge, h.pending]
  split_ifs with hb
  · rw [dropWhile_numbered, List.drop_drop]
    rcases Nat.lt_or_ge owed.length a with ha | ha
    · -- everything is acknowledged
      have h1 : owed.drop (k + (a + 1 - (k + 1))) = [] := List.drop_eq_nil_of_le (by omega)
      have h2 : owed.drop (max k (min a owed.length)) = [] := List.drop_eq_nil_of_le (by omega)
      rw [h1, h2]
      rfl
    · have h1 : k + (a + 1 - (k + 1)) = max k (min a owed.length) := by omega
      have h2 : k + 1 + (a + 1 - (k + 1)) = max k (min a owed.length) + 1 := by omega
      rw [h1, h2]
  · rfl

lemma Keeps.pending_eq_nil (h : p.Keeps owed k) (hp : p.reliable = true) :
    p.pending = [] ↔ k = owed.length := by
  rw [h.pending, if_pos hp, numbered_eq_nil, List.drop_eq_nil_iff]
  have := h.le
  omega

lemma Keeps.pending_subset (h : p.Keeps owed k) {e : Nat × Change} (he : e ∈ p.pending) :
    e ∈ numbered 1 owed := by
  obtain ⟨n, c⟩ := e
  rw [h.pending] at he
  split_ifs at he
  · obtain ⟨h1, h2⟩ := mem_numbered.mp he
    rw [List.getElem?_drop] at h2
    have hn : k + (n - (k + 1)) = n - 1 := by omega
    exact mem_numbered.mpr ⟨by omega, hn ▸ h2⟩
  · simp at he

/-- The proxy of a new reader once `cs` are numbered for it. -/
def replayed (b : Bool) (cs : List Change) : ReaderProxy := cs.foldl enqueue (.new b)

@[simp] lemma foldl_enqueue_reliable (cs : List Change) (p : ReaderProxy) :
    (cs.foldl enqueue p).reliable = p.reliable := by
  induction cs generalizing p with
  | nil => rfl
  | cons c cs ih => simp [ih]

@[simp] lemma replayed_reliable (b : Bool) (cs : List Change) : (replayed b cs).reliable = b := by
  simp [replayed, ReaderProxy.new]

lemma Keeps.foldl_enqueue (h : p.Keeps owed k) (cs : List Change) :
    (cs.foldl ReaderProxy.enqueue p).Keeps (owed ++ cs) k := by
  induction cs generalizing p owed with
  | nil => simpa using h
  | cons c cs ih =>
    have := ih (h.enqueue c)
    simpa using this

lemma keeps_replayed (b : Bool) (cs : List Change) : (replayed b cs).Keeps cs 0 := by
  simpa [replayed] using (keeps_new b).foldl_enqueue cs

end ReaderProxy

end PubSub
