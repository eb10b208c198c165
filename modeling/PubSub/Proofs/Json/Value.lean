import Mathlib.Tactic.Lemma
import Mathlib.Tactic.SplitIfs
import PubSub.Json.Basic

/-!
The shape of JSON values: how deep arrays and objects nest, and what the scalars are. The
canonical form has no other scalars and nests no deeper, and it is its own canonical form.
-/

namespace PubSub.Json

mutual

def depth : Json → Nat
  | .arr items => depthItems items + 1
  | .obj members => depthMembers members + 1
  | _ => 0

def depthItems : List Json → Nat
  | [] => 0
  | j :: r => max (depth j) (depthItems r)

def depthMembers : List (String × Json) → Nat
  | [] => 0
  | (_, j) :: r => max (depth j) (depthMembers r)

end

mutual

/-- Whether `p` holds of every scalar: of every value that is neither array nor object. -/
def scalars (p : Json → Bool) : Json → Bool
  | .arr items => scalarsItems p items
  | .obj members => scalarsMembers p members
  | j => p j

def scalarsItems (p : Json → Bool) : List Json → Bool
  | [] => true
  | j :: r => scalars p j && scalarsItems p r

def scalarsMembers (p : Json → Bool) : List (String × Json) → Bool
  | [] => true
  | (_, j) :: r => scalars p j && scalarsMembers p r

end

/-- Anything but a double. -/
def isExact : Json → Bool
  | .real _ => false
  | _ => true

/-- Anything but a whole number that sixty-four bits hold neither with a sign nor without. -/
def fits : Json → Bool
  | .int n => -((UInt64.size / 2 : Nat) : Int) ≤ n && n < UInt64.size
  | _ => true

def IsScalar : Json → Prop
  | .arr _ => False
  | .obj _ => False
  | _ => True

/-- What is proved of scalars and carried from the parts to the whole holds of every value. -/
@[elab_as_elim]
lemma induction {motive : Json → Prop} (scalar : ∀ j, j.IsScalar → motive j)
    (arr : ∀ items, (∀ j ∈ items, motive j) → motive (.arr items))
    (obj : ∀ members : List (String × Json), (∀ m ∈ members, motive m.2) → motive (.obj members))
    (j : Json) : motive j :=
  match j with
  | .null => scalar _ trivial
  | .bool _ => scalar _ trivial
  | .int _ => scalar _ trivial
  | .real _ => scalar _ trivial
  | .str _ => scalar _ trivial
  | .arr items => arr items fun j _ => induction scalar arr obj j
  | .obj members => obj members fun m _ => induction scalar arr obj m.2
termination_by sizeOf j
decreasing_by
  · have hlt := List.sizeOf_lt_of_mem ‹_›
    simp only [Json.arr.sizeOf_spec]
    omega
  · have hlt := List.sizeOf_lt_of_mem ‹_›
    have hpair : sizeOf m = 1 + sizeOf m.1 + sizeOf m.2 := rfl
    simp only [Json.obj.sizeOf_spec]
    omega

variable {p q : Json → Bool} {j : Json} {n : Nat} {items : List Json}
  {members : List (String × Json)}

/-! ### Depth and scalars, part by part -/

lemma depth_of_isScalar (h : j.IsScalar) : j.depth = 0 := by
  cases j <;> first | rfl | exact h.elim

lemma depthItems_le : depthItems items ≤ n ↔ ∀ j ∈ items, j.depth ≤ n := by
  induction items with
  | nil => simp [depthItems]
  | cons j items ih => rw [depthItems, Nat.max_le, ih, List.forall_mem_cons]

lemma depthMembers_le : depthMembers members ≤ n ↔ ∀ m ∈ members, m.2.depth ≤ n := by
  induction members with
  | nil => simp [depthMembers]
  | cons m members ih => rw [depthMembers, Nat.max_le, ih, List.forall_mem_cons]

lemma depth_arr_le : (arr items).depth ≤ n + 1 ↔ ∀ j ∈ items, j.depth ≤ n := by
  rw [depth, Nat.add_le_add_iff_right, depthItems_le]

lemma depth_obj_le : (obj members).depth ≤ n + 1 ↔ ∀ m ∈ members, m.2.depth ≤ n := by
  rw [depth, Nat.add_le_add_iff_right, depthMembers_le]

lemma scalars_of_isScalar (h : j.IsScalar) : j.scalars p = p j := by
  cases j <;> first | rfl | exact h.elim

lemma scalars_arr : (arr items).scalars p = true ↔ ∀ j ∈ items, j.scalars p = true := by
  rw [scalars]
  induction items with
  | nil => simp [scalarsItems]
  | cons j items ih => rw [scalarsItems, Bool.and_eq_true, ih, List.forall_mem_cons]

lemma scalars_obj :
    (obj members).scalars p = true ↔ ∀ m ∈ members, m.2.scalars p = true := by
  rw [scalars]
  induction members with
  | nil => simp [scalarsMembers]
  | cons m members ih => rw [scalarsMembers, Bool.and_eq_true, ih, List.forall_mem_cons]

/-! ### The canonical form -/

lemma canonical_of_isScalar (h : j.IsScalar) : j.canonical = j := by
  cases j <;> first | rfl | exact h.elim

lemma canonicalItems_eq_map (items : List Json) : canonicalItems items = items.map canonical := by
  induction items with
  | nil => rfl
  | cons j items ih => rw [canonicalItems, List.map_cons, ih]

lemma mem_putMember {k : String} {v : Json} {m : String × Json} :
    m ∈ putMember k v members → m = (k, v) ∨ m ∈ members := by
  induction members with
  | nil => simp [putMember]
  | cons m' members ih =>
    unfold putMember
    split_ifs
    · simp
    · exact fun h => (List.mem_cons.mp h).imp_right (List.mem_cons_of_mem _)
    · intro h
      rcases List.mem_cons.mp h with rfl | h
      · exact .inr List.mem_cons_self
      · exact (ih h).imp_right (List.mem_cons_of_mem _)

lemma mem_canonicalMembers {sorted : List (String × Json)} {m : String × Json} :
    m ∈ canonicalMembers members sorted →
      (∃ m' ∈ members, m = (m'.1, m'.2.canonical)) ∨ m ∈ sorted := by
  induction members generalizing sorted with
  | nil => exact .inr
  | cons m' members ih =>
    intro h
    rw [canonicalMembers] at h
    rcases ih h with ⟨m'', hm'', hm⟩ | h
    · exact .inl ⟨m'', List.mem_cons_of_mem _ hm'', hm⟩
    · exact (mem_putMember h).imp_left fun hm => ⟨m', List.mem_cons_self, hm⟩

lemma exists_of_mem_canonical {m : String × Json} (h : m ∈ canonicalMembers members []) :
    ∃ m' ∈ members, m = (m'.1, m'.2.canonical) :=
  (mem_canonicalMembers h).resolve_right List.not_mem_nil

lemma scalars_canonical : j.scalars p = true → j.canonical.scalars p = true := by
  induction j using induction with
  | scalar j hj => rw [canonical_of_isScalar hj]; exact id
  | arr items ih =>
    rw [canonical, canonicalItems_eq_map, scalars_arr, scalars_arr]
    intro h v hv
    obtain ⟨j, hj, rfl⟩ := List.mem_map.mp hv
    exact ih j hj (h j hj)
  | obj members ih =>
    rw [canonical, scalars_obj, scalars_obj]
    intro h m hm
    obtain ⟨m', hm', rfl⟩ := exists_of_mem_canonical hm
    exact ih m' hm' (h m' hm')

lemma depth_canonical_le (j : Json) : j.canonical.depth ≤ j.depth := by
  induction j using induction with
  | scalar j hj => exact Nat.le_of_eq (congrArg depth (canonical_of_isScalar hj))
  | arr items ih =>
    rw [canonical, canonicalItems_eq_map, depth.eq_1 items, depth_arr_le]
    intro v hv
    obtain ⟨j, hj, rfl⟩ := List.mem_map.mp hv
    exact Nat.le_trans (ih j hj) (depthItems_le.mp (Nat.le_refl _) j hj)
  | obj members ih =>
    rw [canonical, depth.eq_2 members, depth_obj_le]
    intro m hm
    obtain ⟨m', hm', rfl⟩ := exists_of_mem_canonical hm
    exact Nat.le_trans (ih m' hm') (depthMembers_le.mp (Nat.le_refl _) m' hm')

def Sorted (members : List (String × Json)) : Prop := members.Pairwise (·.1 < ·.1)

lemma Sorted.putMember {k : String} {v : Json} (h : Sorted members) :
    Sorted (putMember k v members) := by
  induction members with
  | nil => exact List.pairwise_singleton _ _
  | cons m members ih =>
    obtain ⟨hm, hr⟩ := List.pairwise_cons.mp h
    unfold Json.putMember
    split_ifs with hlt heq
    · refine List.pairwise_cons.mpr ⟨fun m' hm' => ?_, h⟩
      rcases List.mem_cons.mp hm' with rfl | hm'
      · exact hlt
      · exact String.lt_trans hlt (hm m' hm')
    · exact List.pairwise_cons.mpr ⟨fun m' hm' => heq ▸ hm m' hm', hr⟩
    · refine List.pairwise_cons.mpr ⟨fun m' hm' => ?_, ih hr⟩
      rcases mem_putMember hm' with rfl | hm'
      · exact Decidable.byContradiction fun hge =>
          heq (String.le_antisymm (String.not_lt.mp hge) (String.not_lt.mp hlt))
      · exact hm m' hm'

lemma Sorted.canonicalMembers {sorted : List (String × Json)} (h : Sorted sorted) :
    Sorted (canonicalMembers members sorted) := by
  induction members generalizing sorted with
  | nil => exact h
  | cons m members ih => exact ih h.putMember

lemma putMember_of_last {k : String} {v : Json} (h : ∀ m ∈ members, m.1 < k) :
    putMember k v members = members ++ [(k, v)] := by
  induction members with
  | nil => rfl
  | cons m members ih =>
    have hm := h m List.mem_cons_self
    have hne : k ≠ m.1 := fun he => String.lt_irrefl _ (he ▸ hm)
    rw [putMember, if_neg (String.lt_asymm hm), if_neg hne, ih fun m' hm' =>
      h m' (List.mem_cons_of_mem _ hm')]
    rfl

lemma canonicalMembers_of_sorted {sorted : List (String × Json)}
    (h : Sorted (sorted ++ members)) (hc : ∀ m ∈ members, m.2.canonical = m.2) :
    canonicalMembers members sorted = sorted ++ members := by
  induction members generalizing sorted with
  | nil => rw [canonicalMembers, List.append_nil]
  | cons m members ih =>
    obtain ⟨hm, hr⟩ := List.forall_mem_cons.mp hc
    have hlast : ∀ m' ∈ sorted, m'.1 < m.1 := fun m' hm' =>
      (List.pairwise_append.mp h).2.2 m' hm' m List.mem_cons_self
    have happend : sorted ++ m :: members = sorted ++ [m] ++ members := by simp
    rw [canonicalMembers, hm, putMember_of_last hlast, happend]
    exact ih (happend ▸ h) hr

lemma canonical_canonical (j : Json) : j.canonical.canonical = j.canonical := by
  induction j using induction with
  | scalar j hj => rw [canonical_of_isScalar hj, canonical_of_isScalar hj]
  | arr items ih =>
    rw [canonical, canonical, canonicalItems_eq_map, canonicalItems_eq_map, List.map_map]
    exact congrArg _ (List.map_congr_left ih)
  | obj members ih =>
    have hsorted : Sorted ([] ++ canonicalMembers members []) := Sorted.canonicalMembers .nil
    have hfixed : ∀ m ∈ canonicalMembers members [], m.2.canonical = m.2 := by
      intro m hm
      obtain ⟨m', hm', rfl⟩ := exists_of_mem_canonical hm
      exact ih m' hm'
    rw [canonical, canonical, canonicalMembers_of_sorted hsorted hfixed, List.nil_append]

end PubSub.Json
