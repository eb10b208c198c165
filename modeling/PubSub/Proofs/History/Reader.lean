import PubSub.History.Reader
import PubSub.Proofs.Table

/-!
The cache of a reader, as one writer sees it: which changes it takes, what it answers, and what
becomes of the number that it expects next.
-/

namespace PubSub

/-- A change is taken under the number that is expected, or, where gaps are allowed, under a
later one. -/
def WriterProxy.Takes (q : WriterProxy) (n : Nat) : Prop :=
  q.next ≤ n ∧ (n = q.next ∨ q.reliable = false)

instance (q : WriterProxy) (n : Nat) : Decidable (q.Takes n) :=
  inferInstanceAs (Decidable (_ ∧ _))

namespace ReaderCache

variable {r : ReaderCache} {w : Guid} {n : Nat} {c : Change} {q : WriterProxy}

lemma receive_of_none (h : r.writers.get? w = none) :
    r.receive w n c = (r, .unknownWriter, 0) := by
  simp [receive, h]

lemma receive_of_takes (h : r.writers.get? w = some q) (ht : q.Takes n) :
    r.receive w n c =
      ({ r with writers := r.writers.adjust w ({ · with next := n + 1 }) }.apply w c,
        .accepted, n) := by
  obtain ⟨h1, h2⟩ := ht
  have h3 : ¬(q.next < n ∧ q.reliable = true) := by
    rintro ⟨h3, h4⟩
    rcases h2 with rfl | h2
    · omega
    · rw [h2] at h4
      simp at h4
  simp [receive, h, Nat.not_lt.mpr h1, h3]

/-- A change that is not taken leaves the cache as it is, and the answer is the number before
the expected one. -/
lemma receive_of_not_takes (h : r.writers.get? w = some q) (ht : ¬q.Takes n) :
    ∃ e : Reception, e ≠ .accepted ∧ e ≠ .unknownWriter ∧
      r.receive w n c = (r, e, q.next - 1) := by
  by_cases h1 : n < q.next
  · exact ⟨.duplicate, by decide, by decide, by simp [receive, h, h1]⟩
  · have h2 : q.next < n ∧ q.reliable = true := by
      refine ⟨?_, ?_⟩
      · by_contra h2
        exact ht ⟨by omega, Or.inl (by omega)⟩
      · by_contra h2
        exact ht ⟨by omega, Or.inr (by simpa using h2)⟩
    exact ⟨.outOfOrder, by decide, by decide, by simp [receive, h, h1, h2]⟩

lemma receive_accepted_iff :
    (r.receive w n c).2.1 = .accepted ↔ ∃ q, r.writers.get? w = some q ∧ q.Takes n := by
  cases h : r.writers.get? w with
  | none => simp [receive_of_none h]
  | some q =>
    by_cases ht : q.Takes n
    · simp [receive_of_takes h ht, ht]
    · obtain ⟨e, he, -, hr⟩ := receive_of_not_takes (c := c) h ht
      simp [hr, he, ht]

lemma receive_of_accepted (h : (r.receive w n c).2.1 = .accepted) :
    (r.receive w n c).1 =
      { r with writers := r.writers.adjust w ({ · with next := n + 1 }) }.apply w c := by
  obtain ⟨q, hq, ht⟩ := receive_accepted_iff.mp h
  rw [receive_of_takes hq ht]

lemma receive_of_not_accepted (h : (r.receive w n c).2.1 ≠ .accepted) :
    (r.receive w n c).1 = r := by
  cases hq : r.writers.get? w with
  | none => rw [receive_of_none hq]
  | some q =>
    by_cases ht : q.Takes n
    · exact absurd (receive_accepted_iff.mpr ⟨q, hq, ht⟩) h
    · obtain ⟨x, -, -, hx⟩ := receive_of_not_takes (c := c) hq ht
      rw [hx]

lemma hasWriter_of_accepted (h : (r.receive w n c).2.1 = .accepted) : r.hasWriter w = true := by
  obtain ⟨q, hq, -⟩ := receive_accepted_iff.mp h
  exact Table.has_eq_true.mpr ⟨q, hq⟩

/-- Only the expected number of the sender moves. -/
lemma get?_receive (w' : Guid) :
    (r.receive w n c).1.writers.get? w' =
      if w' = w then (r.writers.get? w).map fun q => if q.Takes n then { q with next := n + 1 } else q
      else r.writers.get? w' := by
  by_cases hw : w' = w
  · subst hw
    rw [if_pos rfl]
    cases h : r.writers.get? w' with
    | none => simp [receive_of_none h, h]
    | some q =>
      by_cases ht : q.Takes n
      · rw [receive_of_takes h ht]
        simp [apply, Table.get?_adjust, h, ht]
      · obtain ⟨e, -, -, hr⟩ := receive_of_not_takes (c := c) h ht
        simp [hr, h, ht]
  · rw [if_neg hw]
    by_cases hacc : (r.receive w n c).2.1 = .accepted
    · rw [receive_of_accepted hacc]
      simp [apply, Table.get?_adjust, hw]
    · rw [receive_of_not_accepted hacc]

lemma keys_receive (r : ReaderCache) (w : Guid) (n : Nat) (c : Change) :
    (r.receive w n c).1.writers.keys = r.writers.keys := by
  by_cases hacc : (r.receive w n c).2.1 = .accepted
  · rw [receive_of_accepted hacc]
    exact Table.keys_adjust r.writers w ({ · with next := n + 1 })
  · rw [receive_of_not_accepted hacc]

lemma receive_qos : (r.receive w n c).1.qos = r.qos := by
  by_cases hacc : (r.receive w n c).2.1 = .accepted
  · rw [receive_of_accepted hacc]
    rfl
  · rw [receive_of_not_accepted hacc]

/-! ### What is unread -/

lemma evict_ne_nil {key : InstanceKey} {k : Nat} {ss : List (Sample Json)}
    (hk : k < (ss.filter (validFor key)).length) : evict key k ss ≠ [] := by
  fun_induction evict key k ss with
  | case1 ss => exact List.ne_nil_of_mem (List.mem_filter.mp (List.getElem_mem hk)).1
  | case2 k => simp at hk
  | case3 k s ss hs ih => exact ih (by simpa [List.filter_cons, hs] using hk)
  | case4 k s ss hs ih => simp

/-- A change that is taken in leaves something unread, if the depth of the history allows any. -/
lemma apply_unread_ne_nil (h : r.qos.history ≠ .keepLast 0) (w : Guid) (c : Change) :
    (r.apply w c).unread ≠ [] := by
  unfold apply
  cases hc : c.kind with
  | disposed => simp
  | alive =>
    cases hd : r.qos.history with
    | keepAll => simp [History.depth, enforceDepth]
    | keepLast n =>
      have hn : n ≠ 0 := fun hn => h (by rw [hd, hn])
      have hvalid : validFor c.key (sampleOf c) = true := by simp [sampleOf, hc, validFor]
      have hpos : 0 < ((r.unread ++ [sampleOf c]).filter (validFor c.key)).length := by
        simp [hvalid]
      exact evict_ne_nil (by omega)

/-! ### Writers that come and go -/

lemma addWriter_qos (r : ReaderCache) (w : Guid) (b : Bool) : (r.addWriter w b).qos = r.qos := by
  unfold addWriter
  split_ifs <;> rfl

lemma addWriter_unread (r : ReaderCache) (w : Guid) (b : Bool) :
    (r.addWriter w b).unread = r.unread := by
  unfold addWriter
  split_ifs <;> rfl

lemma get?_addWriter (w w' : Guid) (b : Bool) :
    (r.addWriter w b).writers.get? w' =
      if w' = w then some ((r.writers.get? w).getD ⟨b && r.qos.isReliable, 1⟩)
      else r.writers.get? w' := by
  unfold addWriter hasWriter
  split_ifs with h hw hw
  · obtain ⟨q, hq⟩ := Table.has_eq_true.mp h
    rw [hw, hq]
    rfl
  · rfl
  · have hn := Table.has_eq_false.mp (Bool.not_eq_true _ ▸ h)
    simp [Table.get?_insertNew _ _ _ _ _ hn, hw, hn]
  · have hn := Table.has_eq_false.mp (Bool.not_eq_true _ ▸ h)
    simp [Table.get?_insertNew _ _ _ _ _ hn, hw]

lemma removeWriter_qos (r : ReaderCache) (w : Guid) : (r.removeWriter w).1.qos = r.qos := by
  unfold removeWriter
  split_ifs <;> rfl

lemma get?_removeWriter (w w' : Guid) :
    (r.removeWriter w).1.writers.get? w' = if w' = w then none else r.writers.get? w' := by
  unfold removeWriter hasWriter
  split_ifs with h hw hw
  · simp [Table.get?_erase, hw]
  · simp [Table.get?_erase, hw]
  · rw [hw]
    exact Table.has_eq_false.mp (Bool.not_eq_true _ ▸ h)
  · rfl

end ReaderCache

end PubSub
