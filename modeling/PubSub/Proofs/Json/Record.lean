import Mathlib.Tactic.Lemma
import Mathlib.Tactic.SplitIfs
import PubSub.Json.Record
import PubSub.Proofs.Json.Value

/-!
Records as objects. An object with exactly the fields of a record gives their values in order; and
whatever value stands in the place of a record, the fields are found directly in it.
-/

namespace PubSub.Json

/-! ### Lists of optional results -/

lemma mapM_eq_some_map {α β : Type} {f : α → Option β} {g : α → β} {l : List α}
    (h : ∀ a ∈ l, f a = some (g a)) : l.mapM f = some (l.map g) := by
  induction l with
  | nil => rfl
  | cons a l ih =>
    obtain ⟨ha, hl⟩ := List.forall_mem_cons.mp h
    simp [List.mapM_cons, ha, ih hl]

lemma exists_of_mem_mapM {α β : Type} {f : α → Option β} {l : List α} {bs : List β} {b : β}
    (h : l.mapM f = some bs) (hb : b ∈ bs) : ∃ a ∈ l, f a = some b := by
  induction l generalizing bs with
  | nil =>
    obtain rfl : [] = bs := Option.some.inj h
    exact absurd hb List.not_mem_nil
  | cons a l ih =>
    rw [List.mapM_cons] at h
    obtain ⟨b', hb', h⟩ := Option.bind_eq_some_iff.mp h
    obtain ⟨bs', hbs', h⟩ := Option.bind_eq_some_iff.mp h
    obtain rfl : b' :: bs' = bs := Option.some.inj h
    rcases List.mem_cons.mp hb with rfl | hb
    · exact ⟨a, List.mem_cons_self, hb'⟩
    · obtain ⟨a', ha', hf⟩ := ih hbs' hb
      exact ⟨a', List.mem_cons_of_mem _ ha', hf⟩

/-! ### What a record is written as -/

variable {j v : Json} {members : List (String × Json)} {names : List String} {k : String}
  {vs : List (Option Json)}

lemma filter_name (h : (members.map (·.1)).Nodup) (hm : (k, v) ∈ members) :
    members.filter (·.1 = k) = [(k, v)] := by
  induction members with
  | nil => exact absurd hm List.not_mem_nil
  | cons m members ih =>
    obtain ⟨hnot, hr⟩ := List.nodup_cons.mp h
    rcases List.mem_cons.mp hm with rfl | hm
    · have hnone : members.filter (·.1 = k) = [] := by
        refine List.filter_eq_nil_iff.mpr fun m hm he => hnot ?_
        exact List.mem_map.mpr ⟨m, hm, of_decide_eq_true he⟩
      simp [hnone]
    · have hne : m.1 ≠ k := fun he => hnot (List.mem_map.mpr ⟨_, hm, he.symm⟩)
      rw [List.filter_cons_of_neg (by simpa using hne), ih hr hm]

lemma fields?_obj (h : members.map (·.1) = names) (hnodup : names.Nodup) :
    fields? names (.obj members) = some (members.map fun m => some m.2) := by
  subst h
  rw [fields?, List.mapM_map]
  refine mapM_eq_some_map fun m hm => ?_
  rw [Function.comp_apply, field?, filter_name hnodup hm]

lemma closedFields?_obj (h : members.map (·.1) = names) (hnodup : names.Nodup) :
    closedFields? names (.obj members) = some (members.map fun m => some m.2) := by
  have hall : members.all (names.contains ·.1) = true := by
    refine List.all_eq_true.mpr fun m hm => List.contains_iff_mem.mpr ?_
    exact h ▸ List.mem_map_of_mem hm
  rw [closedFields?, if_pos hall, fields?_obj h hnodup]

@[simp] lemma natBelow?_ofNat {bound n : Nat} (h : n < bound) :
    (ofNat n).natBelow? bound = some n := by
  rw [natBelow?, ofNat, intIn?, if_pos ⟨Int.natCast_nonneg n, Int.ofNat_lt.mpr h⟩]
  rfl

/-! ### What a record is read from -/

def parts : Json → List Json
  | .arr items => items
  | .obj members => members.map (·.2)
  | _ => []

lemma depth_lt_of_mem_parts (hv : v ∈ j.parts) : v.depth < j.depth := by
  cases j with
  | arr items => exact Nat.lt_succ_of_le (depthItems_le.mp (Nat.le_refl _) v hv)
  | obj members =>
    obtain ⟨m, hm, rfl⟩ := List.mem_map.mp hv
    exact Nat.lt_succ_of_le (depthMembers_le.mp (Nat.le_refl _) m hm)
  | _ => exact absurd hv List.not_mem_nil

lemma scalars_of_mem_parts {p : Json → Bool} (h : j.scalars p = true) (hv : v ∈ j.parts) :
    v.scalars p = true := by
  cases j with
  | arr items => exact scalars_arr.mp h v hv
  | obj members =>
    obtain ⟨m, hm, rfl⟩ := List.mem_map.mp hv
    exact scalars_obj.mp h m hm
  | _ => exact absurd hv List.not_mem_nil

lemma mem_parts_of_fields? (h : fields? names j = some vs) (hv : some v ∈ vs) : v ∈ j.parts := by
  cases j with
  | arr items =>
    rw [fields?] at h
    split_ifs at h
    obtain rfl := Option.some.inj h
    obtain ⟨v', hv', he⟩ := List.mem_map.mp hv
    exact Option.some.inj he ▸ hv'
  | obj members =>
    obtain ⟨name, -, hfield⟩ := exists_of_mem_mapM h hv
    unfold field? at hfield
    split at hfield
    · cases hfield
    · next k v' hfilter =>
      obtain rfl : v' = v := Option.some.inj (Option.some.inj hfield)
      have hmem : (k, v') ∈ members.filter (·.1 = name) := hfilter ▸ List.mem_singleton_self _
      exact List.mem_map_of_mem (List.mem_filter.mp hmem).1
    · cases hfield
  | _ => cases h

lemma lt_of_natBelow? {bound n : Nat} (h : j.natBelow? bound = some n) : n < bound := by
  obtain ⟨i, hi, rfl⟩ := Option.map_eq_some_iff.mp h
  unfold intIn? at hi
  split at hi
  · split_ifs at hi with hin
    obtain rfl := Option.some.inj hi
    omega
  · cases hi

end PubSub.Json
