import Mathlib.Tactic.ByContra
import Mathlib.Tactic.Lemma
import Mathlib.Tactic.SplitIfs
import PubSub.Condition

/-!
Sets of statuses, and what a condition makes of a change of them. Whether one set has all of
another or meets it is told bit by bit, and the statuses that endpoints use have one bit each.
-/

namespace PubSub

namespace StatusMask

variable {a b c m : StatusMask}

lemma testBit_or (a b : StatusMask) (i : Nat) :
    (a.or b).bits.testBit i = (a.bits.testBit i || b.bits.testBit i) := Nat.testBit_or ..

lemma testBit_and (a b : StatusMask) (i : Nat) :
    (a.and b).bits.testBit i = (a.bits.testBit i && b.bits.testBit i) := Nat.testBit_and ..

lemma testBit_without (a b : StatusMask) (i : Nat) :
    (a.without b).bits.testBit i = (a.bits.testBit i && !b.bits.testBit i) := by
  simp only [without, Nat.testBit_xor, Nat.testBit_and]
  cases a.bits.testBit i <;> cases b.bits.testBit i <;> rfl

lemma ext_testBit (h : ∀ i, a.bits.testBit i = b.bits.testBit i) : a = b := by
  cases a
  cases b
  exact congrArg StatusMask.mk (Nat.eq_of_testBit_eq h)

lemma contains_iff :
    a.contains b = true ↔ ∀ i, b.bits.testBit i = true → a.bits.testBit i = true := by
  rw [contains, decide_eq_true_iff]
  constructor
  · intro h i hi
    rw [← h, testBit_and, Bool.and_eq_true] at hi
    exact hi.1
  · intro h
    refine ext_testBit fun i => ?_
    rw [testBit_and]
    cases hi : b.bits.testBit i with
    | false => exact Bool.and_false _
    | true => rw [h i hi, Bool.and_self]

lemma intersects_iff :
    a.intersects b = true ↔ ∃ i, a.bits.testBit i = true ∧ b.bits.testBit i = true := by
  rw [intersects, decide_eq_true_iff]
  constructor
  · intro h
    by_contra hnone
    refine h (ext_testBit fun i => ?_)
    rw [testBit_and, none, Nat.zero_testBit, Bool.and_eq_false_iff]
    cases hi : a.bits.testBit i with
    | false => exact .inl rfl
    | true => exact .inr (Bool.eq_false_iff.mpr fun hb => hnone ⟨i, hi, hb⟩)
  · rintro ⟨i, ha, hb⟩ h
    have hi := testBit_and a b i
    rw [h, ha, hb, none, Nat.zero_testBit] at hi
    simp at hi

lemma contains_or : (a.or b).contains a = true ∧ (a.or b).contains b = true := by
  constructor <;> refine contains_iff.mpr fun i hi => ?_ <;> simp [testBit_or, hi]

lemma intersects_of_contains (h : a.contains b = true) (h' : b.intersects c = true) :
    a.intersects c = true := by
  obtain ⟨i, hb, hc⟩ := intersects_iff.mp h'
  exact intersects_iff.mpr ⟨i, contains_iff.mp h i hb, hc⟩

lemma intersects_comm (a b : StatusMask) : a.intersects b = b.intersects a := by
  rw [Bool.eq_iff_iff, intersects_iff, intersects_iff]
  simp only [and_comm]

@[simp] lemma none_intersects (a : StatusMask) : none.intersects a = false := by
  simp [intersects, StatusMask.and, none]

lemma or_intersects : (a.or b).intersects c = (a.intersects c || b.intersects c) := by
  rw [Bool.eq_iff_iff, Bool.or_eq_true, intersects_iff, intersects_iff, intersects_iff]
  simp only [testBit_or, Bool.or_eq_true, or_and_right, exists_or]

lemma none_or (a : StatusMask) : none.or a = a := congrArg StatusMask.mk (Nat.zero_or _)

lemma or_none (a : StatusMask) : a.or none = a := congrArg StatusMask.mk (Nat.or_zero _)

def IsSingle (m : StatusMask) : Prop := ∃ i, m.bits = 1 <<< i

lemma isSingle_dataAvailable : IsSingle .dataAvailable := ⟨0, rfl⟩

lemma isSingle_acknowledged : IsSingle .acknowledged := ⟨11, rfl⟩

lemma IsSingle.testBit (h : m.IsSingle) :
    ∃ i, ∀ a : StatusMask, a.contains m = a.bits.testBit i ∧ a.intersects m = a.bits.testBit i := by
  obtain ⟨i, hi⟩ := h
  have hbit : ∀ j, m.bits.testBit j = true ↔ i = j := fun j => by
    rw [hi, Nat.one_shiftLeft, Nat.testBit_two_pow, decide_eq_true_iff]
  refine ⟨i, fun a => ⟨?_, ?_⟩⟩ <;> rw [Bool.eq_iff_iff]
  · rw [contains_iff]
    exact ⟨fun h => h i ((hbit i).mpr rfl), fun h j hj => (hbit j).mp hj ▸ h⟩
  · rw [intersects_iff]
    exact ⟨fun ⟨j, ha, hj⟩ => (hbit j).mp hj ▸ ha, fun h => ⟨i, h, (hbit i).mpr rfl⟩⟩

end StatusMask

namespace StatusCondition

variable {k : StatusCondition} {m n : StatusMask}

@[simp] lemma raise_enabled (k : StatusCondition) (m : StatusMask) :
    (k.raise m).enabled = k.enabled := by
  unfold raise
  simp only
  split_ifs <;> rfl

@[simp] lemma raise_active (k : StatusCondition) (m : StatusMask) :
    (k.raise m).active = k.active.or m := by
  unfold raise
  simp only
  split_ifs <;> rfl

lemma raise_alerts (k : StatusCondition) (m : StatusMask) :
    (k.raise m).alerts = if k.enabled.intersects m then k.alerts + 1 else k.alerts := by
  unfold raise
  simp only
  split_ifs <;> rfl

lemma raise_none (k : StatusCondition) : k.raise .none = k := by
  simp [raise, StatusMask.or_none, StatusMask.intersects_comm k.enabled]

lemma alerts_le_raise (k : StatusCondition) (m : StatusMask) :
    k.alerts ≤ (k.raise m).alerts := by
  rw [raise_alerts]
  split_ifs
  · exact Nat.le_succ _
  · exact Nat.le_refl _

lemma alerts_lt_raise (h : k.enabled.intersects m = true) : k.alerts < (k.raise m).alerts := by
  rw [raise_alerts, if_pos h]
  exact Nat.lt_succ_self _

/-- A status that is raised holds, and one that is not raised stays as it is. -/
lemma isActive_raise (hm : m.IsSingle) (k : StatusCondition) (n : StatusMask) :
    (k.raise n).isActive m = (k.isActive m || n.intersects m) := by
  obtain ⟨i, hi⟩ := hm.testBit
  rw [isActive, isActive, (hi _).1, (hi _).1, (hi _).2, raise_active, StatusMask.testBit_or]

/-- A status that is cleared does not hold, and one that is not cleared stays as it is. -/
lemma isActive_clear (hm : m.IsSingle) (k : StatusCondition) (n : StatusMask) :
    (k.clear n).isActive m = (k.isActive m && !n.intersects m) := by
  obtain ⟨i, hi⟩ := hm.testBit
  rw [isActive, isActive, (hi _).1, (hi _).1, (hi _).2, clear, StatusMask.testBit_without]

end StatusCondition

end PubSub
