import Mathlib.Data.List.Nodup
import Mathlib.Data.Set.Card
import Mathlib.Tactic.Lemma
import PubSub.Table

/-!
Tables whose keys are distinct. Such a table is the list of its look-ups, so what a pass over
the entries does for one key is what it does for the value found at that key.
-/

namespace PubSub

lemma encard_mem {α : Type} {l : List α} (h : l.Nodup) : {a | a ∈ l}.encard = l.length := by
  classical
  have hset : {a | a ∈ l} = (l.toFinset : Set α) := by simp
  rw [hset, Set.encard_coe_eq_coe_finsetCard, List.toFinset_card_of_nodup h]

namespace Table

variable {κ α β : Type}

def Distinct (t : Table κ α) : Prop := t.keys.Nodup

@[simp] lemma distinct_nil : Distinct ([] : Table κ α) := List.nodup_nil

lemma distinct_cons {e : κ × α} {r : Table κ α} :
    Distinct (e :: r) ↔ e.1 ∉ keys r ∧ Distinct r := List.nodup_cons

lemma mem_keys_of_mem {t : Table κ α} {e : κ × α} (h : e ∈ t) : e.1 ∈ t.keys :=
  List.mem_map_of_mem h

lemma keys_map (t : Table κ α) (f : κ → α → β) :
    keys (t.map fun e => (e.1, f e.1 e.2)) = t.keys := by
  simp [keys]

lemma insertNew_perm (before : κ → κ → Bool) (t : Table κ α) (k : κ) (a : α) :
    (t.insertNew before k a).Perm ((k, a) :: t) := by
  induction t with
  | nil => exact List.Perm.refl _
  | cons e r ih =>
    unfold insertNew
    split
    · exact List.Perm.refl _
    · exact (List.Perm.cons _ ih).trans (List.Perm.swap _ _ _)

lemma keys_insertNew_perm (before : κ → κ → Bool) (t : Table κ α) (k : κ) (a : α) :
    (t.insertNew before k a).keys.Perm (k :: t.keys) := (insertNew_perm before t k a).map _

lemma length_insertNew (before : κ → κ → Bool) (t : Table κ α) (k : κ) (a : α) :
    (t.insertNew before k a).length = t.length + 1 := by
  simpa using (insertNew_perm before t k a).length_eq

lemma Distinct.map {t : Table κ α} (ht : Distinct t) (f : κ → α → β) :
    Distinct (t.map fun e => (e.1, f e.1 e.2)) := by
  rwa [Distinct, keys_map]

lemma Distinct.filter {t : Table κ α} (ht : Distinct t) (P : κ × α → Bool) :
    Distinct (t.filter P) :=
  List.Nodup.sublist (List.Sublist.map _ List.filter_sublist) ht

variable [DecidableEq κ]

/-! ### Look-ups after each operation -/

@[simp] lemma get?_nil (k : κ) : get? ([] : Table κ α) k = none := rfl

lemma get?_cons (e : κ × α) (r : Table κ α) (k : κ) :
    get? (e :: r) k = if e.1 = k then some e.2 else get? r k := rfl

lemma get?_adjust (t : Table κ α) (k j : κ) (f : α → α) :
    (t.adjust k f).get? j = if j = k then (t.get? j).map f else t.get? j := by
  induction t with
  | nil => simp [adjust]
  | cons e r ih =>
    simp only [adjust, List.map_cons] at ih ⊢
    by_cases hk : e.1 = k <;> by_cases hj : e.1 = j <;> simp_all [get?_cons]

lemma get?_erase (t : Table κ α) (k j : κ) :
    (t.erase k).get? j = if j = k then none else t.get? j := by
  induction t with
  | nil => simp [erase]
  | cons e r ih =>
    simp only [erase] at ih ⊢
    by_cases hk : e.1 = k <;> by_cases hj : e.1 = j <;> simp_all [get?_cons]

lemma get?_insertNew (before : κ → κ → Bool) (t : Table κ α) (k j : κ) (a : α)
    (h : t.get? k = none) :
    (t.insertNew before k a).get? j = if j = k then some a else t.get? j := by
  induction t with
  | nil => simp [insertNew, get?_cons, eq_comm]
  | cons e r ih =>
    rw [get?_cons] at h
    by_cases hk : e.1 = k
    · simp [hk] at h
    · simp only [hk, if_false] at h
      unfold insertNew
      split
      · rw [get?_cons]
        simp only [@eq_comm _ k j]
      · rw [get?_cons, ih h, get?_cons]
        by_cases hj : e.1 = j <;> simp_all

/-- A key that was put is there with its value, every other key is as before. -/
lemma get?_put (before : κ → κ → Bool) (t : Table κ α) (k j : κ) (a : α) :
    (t.put before k a).get? j = if j = k then some a else t.get? j := by
  unfold put has
  cases h : t.get? k with
  | none => simpa [h] using get?_insertNew before t k j a h
  | some b =>
    simp only [Option.isSome_some, if_true, get?_adjust]
    by_cases hj : j = k
    · subst hj
      simp [h]
    · simp [hj]

/-! ### Distinct keys -/

lemma get?_eq_none_iff {t : Table κ α} {k : κ} : t.get? k = none ↔ k ∉ t.keys := by
  induction t with
  | nil => simp [keys]
  | cons e r ih =>
    by_cases h : e.1 = k
    · simp [get?_cons, h, keys]
    · simp only [get?_cons, h, if_false, ih, keys, List.map_cons, List.mem_cons, not_or]
      exact ⟨fun hr => ⟨fun he => h he.symm, hr⟩, fun hr => hr.2⟩

lemma mem_of_get? {t : Table κ α} {k : κ} {a : α} (h : t.get? k = some a) : (k, a) ∈ t := by
  induction t with
  | nil => simp at h
  | cons e r ih =>
    rw [get?_cons] at h
    split_ifs at h with he
    · obtain ⟨k', a'⟩ := e
      simp_all
    · exact List.mem_cons_of_mem _ (ih h)

lemma get?_of_mem {t : Table κ α} (ht : Distinct t) {k : κ} {a : α} (h : (k, a) ∈ t) :
    t.get? k = some a := by
  induction t with
  | nil => simp at h
  | cons e r ih =>
    obtain ⟨hn, hr⟩ := distinct_cons.mp ht
    rw [get?_cons]
    rcases List.mem_cons.mp h with rfl | h
    · simp
    · have hne : e.1 ≠ k := fun he => hn (he ▸ mem_keys_of_mem h)
      rw [if_neg hne, ih hr h]

lemma has_eq_false {t : Table κ α} {k : κ} : t.has k = false ↔ t.get? k = none := by
  simp [has]

lemma has_eq_true {t : Table κ α} {k : κ} : t.has k = true ↔ ∃ a, t.get? k = some a := by
  simp [has, Option.isSome_iff_exists]

lemma has_iff_mem_keys {t : Table κ α} {k : κ} : t.has k = true ↔ k ∈ t.keys := by
  rw [← not_iff_not, ← get?_eq_none_iff, Bool.not_eq_true, has_eq_false]

/-- A pass that changes every value is seen at every key. -/
lemma get?_map (t : Table κ α) (f : κ → α → β) (k : κ) :
    get? (t.map fun e => (e.1, f e.1 e.2)) k = (t.get? k).map (f k) := by
  induction t with
  | nil => rfl
  | cons e r ih =>
    simp only [List.map_cons, get?_cons, ih]
    by_cases h : e.1 = k
    · subst h; simp
    · simp [h]

lemma keys_adjust (t : Table κ α) (k : κ) (f : α → α) : (t.adjust k f).keys = t.keys := by
  simp only [keys, adjust, List.map_map]
  refine List.map_congr_left fun e _ => ?_
  by_cases h : e.1 = k <;> simp [h]

lemma has_adjust (t : Table κ α) (k : κ) (f : α → α) (j : κ) : (t.adjust k f).has j = t.has j := by
  rw [has, get?_adjust]
  split_ifs
  · exact Option.isSome_map
  · rfl

lemma keys_erase (t : Table κ α) (k : κ) : (t.erase k).keys = t.keys.filter (· ≠ k) := by
  simp only [keys, erase, List.filter_map]
  rfl

lemma Distinct.adjust {t : Table κ α} (ht : Distinct t) (k : κ) (f : α → α) :
    Distinct (t.adjust k f) := by
  rwa [Distinct, keys_adjust]

lemma Distinct.erase {t : Table κ α} (ht : Distinct t) (k : κ) : Distinct (t.erase k) := by
  rw [Distinct, keys_erase]
  exact List.Nodup.filter _ ht

lemma Distinct.adjust_of_fixed {t : Table κ α} (ht : Distinct t) {k : κ} {a : α}
    (hk : t.get? k = some a) {f : α → α} (hf : f a = a) : t.adjust k f = t := by
  unfold Table.adjust
  conv_rhs => rw [← List.map_id t]
  refine List.map_congr_left fun e he => ?_
  split_ifs with h
  · have hget := get?_of_mem ht (k := e.1) (a := e.2) he
    rw [h, hk] at hget
    rw [← Option.some.inj hget, hf, Option.some.inj hget]
    rfl
  · rfl

lemma Distinct.adjust_self {t : Table κ α} (ht : Distinct t) {k : κ} {a : α}
    (hk : t.get? k = some a) : (t.adjust k fun _ => a) = t := ht.adjust_of_fixed hk rfl

/-! Changes at one key pass by everything that happens at another. -/

lemma adjust_of_none {t : Table κ α} {k : κ} (h : t.get? k = none) (f : α → α) :
    t.adjust k f = t := by
  unfold Table.adjust
  conv_rhs => rw [← List.map_id t]
  refine List.map_congr_left fun e he => if_neg fun hk => ?_
  exact get?_eq_none_iff.mp h (hk ▸ mem_keys_of_mem he)

lemma adjust_adjust (t : Table κ α) (k : κ) (f g : α → α) :
    (t.adjust k f).adjust k g = t.adjust k fun a => g (f a) := by
  simp only [Table.adjust, List.map_map]
  refine List.map_congr_left fun e _ => ?_
  by_cases h : e.1 = k <;> simp [h]

lemma adjust_comm (t : Table κ α) {k j : κ} (hkj : k ≠ j) (f g : α → α) :
    (t.adjust k f).adjust j g = (t.adjust j g).adjust k f := by
  simp only [Table.adjust, List.map_map]
  refine List.map_congr_left fun e _ => ?_
  by_cases hk : e.1 = k <;> by_cases hj : e.1 = j <;> simp_all

lemma erase_adjust (t : Table κ α) (k j : κ) (f : α → α) :
    (t.adjust k f).erase j = (t.erase j).adjust k f := by
  simp only [Table.erase, Table.adjust, List.filter_map]
  congr 2
  funext e
  by_cases h : e.1 = k <;> simp [h]

lemma adjust_cons (e : κ × α) (r : Table κ α) (k : κ) (f : α → α) :
    Table.adjust (e :: r) k f = (if e.1 = k then (e.1, f e.2) else e) :: r.adjust k f := rfl

lemma insertNew_adjust (before : κ → κ → Bool) (t : Table κ α) {k j : κ} (hkj : k ≠ j) (a : α)
    (f : α → α) : (t.adjust k f).insertNew before j a = (t.insertNew before j a).adjust k f := by
  induction t with
  | nil => simp [Table.adjust, Table.insertNew, Ne.symm hkj]
  | cons e r ih =>
    have hkey : (if e.1 = k then (e.1, f e.2) else e).1 = e.1 := by split_ifs <;> rfl
    rw [adjust_cons, Table.insertNew, Table.insertNew, hkey]
    cases before j e.1 with
    | true => simp only [if_true, adjust_cons, if_neg (Ne.symm hkj)]
    | false => simp only [Bool.false_eq_true, if_false, adjust_cons, ih]

lemma adjust_insertNew_self (before : κ → κ → Bool) {t : Table κ α} {k : κ}
    (h : t.get? k = none) (a : α) (f : α → α) :
    (t.insertNew before k a).adjust k f = t.insertNew before k (f a) := by
  induction t with
  | nil => simp [Table.adjust, Table.insertNew]
  | cons e r ih =>
    have hsame : Table.adjust (e :: r) k f = e :: r := adjust_of_none h f
    rw [get?_cons] at h
    split_ifs at h with hk
    rw [Table.insertNew, Table.insertNew]
    split_ifs
    · rw [adjust_cons, if_pos rfl, hsame]
    · rw [adjust_cons, if_neg hk, ih h]

/-- A key that is there stays where it is when it is put. -/
lemma put_of_has {before : κ → κ → Bool} {t : Table κ α} {k : κ} (h : t.has k = true) (a : α) :
    t.put before k a = t.adjust k fun _ => a := if_pos h

lemma has_put_of_has {before : κ → κ → Bool} {t : Table κ α} {k : κ} (h : t.has k = true) (a : α)
    (j : κ) : (t.put before k a).has j = t.has j := by
  rw [put_of_has h, has_adjust]

lemma put_put {before : κ → κ → Bool} {t : Table κ α} {k : κ} (h : t.has k = true) (a b : α) :
    (t.put before k a).put before k b = t.put before k b := by
  rw [put_of_has ((has_put_of_has h a k).trans h), put_of_has h, put_of_has h, adjust_adjust]

lemma put_comm {before : κ → κ → Bool} {t : Table κ α} {k j : κ} (hk : t.has k = true)
    (hj : t.has j = true) (hkj : k ≠ j) (a b : α) :
    (t.put before k a).put before j b = (t.put before j b).put before k a := by
  rw [put_of_has ((has_put_of_has hk a j).trans hj), put_of_has ((has_put_of_has hj b k).trans hk),
    put_of_has hk, put_of_has hj, adjust_comm t hkj]

lemma length_adjust (t : Table κ α) (k : κ) (f : α → α) : (t.adjust k f).length = t.length := by
  simp [adjust]

lemma Distinct.length_erase {t : Table κ α} (ht : Distinct t) {k : κ} (hk : t.has k = true) :
    (t.erase k).length + 1 = t.length := by
  have hmem : k ∈ t.keys := has_iff_mem_keys.mp hk
  have hkeys : (t.erase k).keys = t.keys.erase k := by
    rw [keys_erase, List.Nodup.erase_eq_filter ht]
    congr 1
    funext j
    simp [bne, Bool.beq_eq_decide_eq]
  have herase : (t.erase k).length = t.length - 1 := by
    simpa [keys] using (congrArg List.length hkeys).trans (List.length_erase_of_mem hmem)
  have hpos : 0 < t.length := by
    simpa [keys] using List.length_pos_of_mem hmem
  omega

lemma Distinct.insertNew {t : Table κ α} (ht : Distinct t) (before : κ → κ → Bool) {k : κ}
    (hk : t.get? k = none) (a : α) : Distinct (t.insertNew before k a) := by
  refine (keys_insertNew_perm before t k a).nodup_iff.mpr (List.nodup_cons.mpr ⟨?_, ht⟩)
  exact get?_eq_none_iff.mp hk

lemma Distinct.put {t : Table κ α} (ht : Distinct t) (before : κ → κ → Bool) (k : κ) (a : α) :
    Distinct (t.put before k a) := by
  unfold Table.put
  split_ifs with h
  · exact ht.adjust k _
  · exact ht.insertNew before (has_eq_false.mp (Bool.not_eq_true _ ▸ h)) a

/-- The keys stand in the order in which new ones are put. -/
def Ascending (before : κ → κ → Bool) (t : Table κ α) : Prop :=
  t.keys.Pairwise fun j k => before j k = true

lemma Ascending.insertNew {before : κ → κ → Bool} {t : Table κ α} (ht : t.Ascending before)
    (htrans : ∀ i j k, before i j → before j k → before i k)
    (htotal : ∀ j k, j ≠ k → before j k = false → before k j) {k : κ} (hk : t.get? k = none)
    (a : α) : (t.insertNew before k a).Ascending before := by
  induction t with
  | nil => exact List.pairwise_singleton _ _
  | cons e r ih =>
    obtain ⟨he, hr⟩ := List.pairwise_cons.mp ht
    rw [get?_cons] at hk
    split_ifs at hk with hne
    rw [Table.insertNew]
    split_ifs with hfirst
    · refine List.pairwise_cons.mpr ⟨fun j hj => ?_, ht⟩
      rcases List.mem_cons.mp hj with rfl | hj
      · exact hfirst
      · exact htrans _ _ _ hfirst (he j hj)
    · refine List.pairwise_cons.mpr ⟨fun j hj => ?_, ih hr hk⟩
      rcases List.mem_cons.mp ((keys_insertNew_perm before r k a).subset hj) with rfl | hj
      · exact htotal _ _ (Ne.symm hne) (Bool.not_eq_true _ ▸ hfirst)
      · exact he j hj

lemma Ascending.put {before : κ → κ → Bool} {t : Table κ α} (ht : t.Ascending before)
    (htrans : ∀ i j k, before i j → before j k → before i k)
    (htotal : ∀ j k, j ≠ k → before j k = false → before k j) (k : κ) (a : α) :
    (t.put before k a).Ascending before := by
  unfold Table.put
  split_ifs with h
  · rw [Ascending, keys_adjust]
    exact ht
  · exact ht.insertNew htrans htotal (has_eq_false.mp (Bool.not_eq_true _ ▸ h)) a

lemma get?_insertLast (t : Table κ α) (k : κ) (a : α) (j : κ) :
    (t.insertLast k a).get? j = (t.get? j).or (if j = k then some a else none) := by
  unfold insertLast
  induction t with
  | nil => simp [insertNew, get?_cons, eq_comm]
  | cons e r ih =>
    simp only [insertNew, Bool.false_eq_true, if_false, get?_cons, ih]
    split_ifs <;> simp

lemma has_put {before : κ → κ → Bool} {t : Table κ α} {j : κ}
    (h : t.has j = true) {k : κ} {a : α} : (t.put before k a).has j = true := by
  obtain ⟨b, hb⟩ := has_eq_true.mp h
  rw [has_eq_true, get?_put]
  split_ifs
  · exact ⟨a, rfl⟩
  · exact ⟨b, hb⟩

/-- Whatever is found in a table that was filled from a list was made from an entry of it. -/
lemma get?_fill (before : κ → κ → Bool) (f : κ → β → α) {l : List (κ × β)} {t : Table κ α} {k : κ}
    {a : α} (h : get? (l.foldl (fun t e => t.put before e.1 (f e.1 e.2)) t) k = some a) :
    t.get? k = some a ∨ ∃ b, a = f k b := by
  induction l generalizing t with
  | nil => exact .inl h
  | cons e l ih =>
    rcases ih h with h | h
    · rw [get?_put] at h
      split_ifs at h with hk
      · exact .inr ⟨e.2, hk ▸ (Option.some.inj h).symm⟩
      · exact .inl h
    · exact .inr h

/-- What is found in a table that was filled from a list was there before or comes from the list. -/
lemma has_fill (before : κ → κ → Bool) (key : β → κ) (f : β → α) (l : List β) (t : Table κ α)
    (k : κ) :
    has (l.foldl (fun t b => t.put before (key b) (f b)) t) k = true ↔
      t.has k = true ∨ ∃ b ∈ l, key b = k := by
  induction l generalizing t with
  | nil => simp
  | cons b l ih =>
    have hput : (t.put before (key b) (f b)).has k = true ↔ t.has k = true ∨ key b = k := by
      simp only [has, get?_put]
      by_cases hk : k = key b
      · simp [hk]
      · simp [hk, Ne.symm hk]
    rw [List.foldl_cons, ih, hput, or_assoc, List.exists_mem_cons_iff]

/-- Whatever is found in a table that was filled from a list was there before or comes from an
entry of the list under that key. -/
lemma exists_of_get?_fill (before : κ → κ → Bool) (key : β → κ) (f : β → α) {l : List β}
    {t : Table κ α} {k : κ} {a : α}
    (h : get? (l.foldl (fun t b => t.put before (key b) (f b)) t) k = some a) :
    t.get? k = some a ∨ ∃ b ∈ l, key b = k ∧ f b = a := by
  induction l generalizing t with
  | nil => exact .inl h
  | cons b l ih =>
    rcases ih h with h | ⟨b', hb', hk, hf⟩
    · rw [get?_put] at h
      split_ifs at h with hk
      · exact .inr ⟨b, List.mem_cons_self, hk.symm, Option.some.inj h⟩
      · exact .inl h
    · exact .inr ⟨b', List.mem_cons_of_mem b hb', hk, hf⟩

lemma Distinct.fill (before : κ → κ → Bool) (key : β → κ) (f : β → α) (l : List β)
    {t : Table κ α} (ht : Distinct t) :
    Distinct (l.foldl (fun t b => t.put before (key b) (f b)) t) := by
  induction l generalizing t with
  | nil => exact ht
  | cons b l ih => exact ih (ht.put before (key b) (f b))

lemma get?_filter (t : Table κ α) (P : κ → Bool) (k : κ) :
    get? (t.filter fun e => P e.1) k = if P k then t.get? k else none := by
  induction t with
  | nil => simp
  | cons e t ih =>
    rw [List.filter_cons]
    by_cases hk : e.1 = k
    · subst hk
      by_cases hP : P e.1 <;> simp [hP, ih, get?_cons]
    · by_cases hP : P e.1 <;> simp [hP, ih, get?_cons, hk]

lemma Distinct.get?_filter_value {t : Table κ α} (ht : Distinct t) (P : α → Bool) (k : κ) :
    get? (t.filter fun e => P e.2) k = (t.get? k).filter P := by
  induction t with
  | nil => rfl
  | cons e r ih =>
    obtain ⟨hn, hr⟩ := distinct_cons.mp ht
    rw [List.filter_cons, get?_cons]
    by_cases hk : e.1 = k
    · subst hk
      cases hP : P e.2 with
      | true => simp [get?_cons, Option.filter, hP]
      | false => simp [ih hr, get?_eq_none_iff.mpr hn, Option.filter, hP]
    · cases P e.2 <;> simp [get?_cons, hk, ih hr]

/-- A pass that keeps to the entry of one key comes to what is found at that key. -/
lemma flatMap_at {t : Table κ α} (ht : Distinct t) (k : κ) (f : α → List β) :
    (t.flatMap fun e => if e.1 = k then f e.2 else []) = ((t.get? k).map f).getD [] := by
  induction t with
  | nil => rfl
  | cons e r ih =>
    obtain ⟨hn, hr⟩ := distinct_cons.mp ht
    rw [List.flatMap_cons, ih hr, get?_cons]
    by_cases h : e.1 = k
    · subst h
      simp [get?_eq_none_iff.mpr hn]
    · simp [h]

end Table

end PubSub
