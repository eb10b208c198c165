import PubSub.Proofs.History.Reader

/-!
One instance in the cache of a reader: what eviction, new changes and the loss of a writer do to
its samples. An instance that one writer alone uses keeps a sample of its life as long as it has
had any, whatever the depth of the history, and ends with the sample that tells of its end.
-/

namespace PubSub.ReaderCache

def samplesOf (key : InstanceKey) (ss : List (Sample Json)) : List (Sample Json) :=
  ss.filter (·.key = key)

variable {key key' : InstanceKey} {r : ReaderCache} {w w' : Guid} {c : Change}
  {ss : List (Sample Json)}

lemma samplesOf_append (xs ys : List (Sample Json)) :
    samplesOf key (xs ++ ys) = samplesOf key xs ++ samplesOf key ys := List.filter_append ..

/-! ### Eviction -/

lemma samplesOf_evict_of_ne (hne : key' ≠ key) (n : Nat) :
    samplesOf key (evict key' n ss) = samplesOf key ss := by
  fun_induction evict key' n ss with
  | case1 ss => rfl
  | case2 n => rfl
  | case3 n s ss hs ih =>
    have hkey : s.key ≠ key := by
      simp only [validFor, Bool.and_eq_true, decide_eq_true_eq] at hs
      exact hs.2 ▸ hne
    rw [ih, samplesOf, samplesOf, List.filter_cons_of_neg (by simpa using hkey)]
  | case4 n s ss hs ih =>
    simp only [samplesOf] at ih ⊢
    rw [List.filter_cons, List.filter_cons, ih]

/-- Where all samples of an instance have data, the oldest ones go. -/
lemma samplesOf_evict (hv : ∀ s ∈ samplesOf key ss, s.valid = true) (n : Nat) :
    samplesOf key (evict key n ss) = (samplesOf key ss).drop n := by
  fun_induction evict key n ss with
  | case1 ss => rfl
  | case2 n => rfl
  | case3 n s ss hs ih =>
    simp only [validFor, Bool.and_eq_true, decide_eq_true_eq] at hs
    have hcons : samplesOf key (s :: ss) = s :: samplesOf key ss :=
      List.filter_cons_of_pos (by simpa using hs.2)
    rw [hcons] at hv ⊢
    exact ih fun s' hs' => hv s' (List.mem_cons_of_mem _ hs')
  | case4 n s ss hs ih =>
    have hkey : s.key ≠ key := fun hkey => hs <| by
      have hmem : s ∈ samplesOf key (s :: ss) := List.mem_filter.mpr ⟨List.mem_cons_self, by simpa⟩
      simp [validFor, hv s hmem, hkey]
    have hcons : ∀ ss', samplesOf key (s :: ss') = samplesOf key ss' := fun ss' =>
      List.filter_cons_of_neg (by simpa using hkey)
    rw [hcons] at hv ⊢
    rw [hcons]
    exact ih hv

lemma filter_validFor (hv : ∀ s ∈ samplesOf key ss, s.valid = true) :
    ss.filter (validFor key) = samplesOf key ss := by
  refine List.filter_congr fun s hs => ?_
  by_cases hkey : s.key = key
  · simp [validFor, hkey, hv s (List.mem_filter.mpr ⟨hs, by simpa⟩)]
  · simp [validFor, hkey]

lemma evict_subset {n : Nat} {s : Sample Json} (h : s ∈ evict key n ss) : s ∈ ss := by
  fun_induction evict key n ss with
  | case1 ss => exact h
  | case2 n => exact h
  | case3 n s' ss hs ih => exact List.mem_cons_of_mem _ (ih h)
  | case4 n s' ss hs ih =>
    rcases List.mem_cons.mp h with rfl | h
    · exact List.mem_cons_self
    · exact List.mem_cons_of_mem _ (ih h)

/-! ### Changes -/

@[simp] lemma key_sampleOf (c : Change) : (sampleOf c).key = c.key := by
  unfold sampleOf
  cases c.kind <;> rfl

lemma state_sampleOf (c : Change) : (sampleOf c).state = stateOf c.kind := by
  unfold sampleOf
  cases c.kind <;> rfl

lemma samplesOf_sampleOf (c : Change) :
    samplesOf key [sampleOf c] = if c.key = key then [sampleOf c] else [] := by
  by_cases hkey : c.key = key <;> simp [samplesOf, hkey]

lemma instance_apply (w : Guid) (c : Change) (key : InstanceKey) :
    (r.apply w c).instances.get? key =
      if key = c.key then some (r.record w c) else r.instances.get? key :=
  Table.get?_put _ _ _ _ _

lemma samplesOf_apply_of_ne (hne : c.key ≠ key) (w : Guid) :
    samplesOf key (r.apply w c).unread = samplesOf key r.unread := by
  have hadd : samplesOf key (r.unread ++ [sampleOf c]) = samplesOf key r.unread := by
    rw [samplesOf_append, samplesOf_sampleOf, if_neg hne, List.append_nil]
  unfold apply
  cases c.kind with
  | disposed => exact hadd
  | alive =>
    cases hd : r.qos.history.depth with
    | none => exact hadd
    | some n => exact (samplesOf_evict_of_ne hne _).trans hadd

lemma samplesOf_apply_disposed (hk : c.kind = .disposed) (hkey : c.key = key) (w : Guid) :
    samplesOf key (r.apply w c).unread = samplesOf key r.unread ++ [sampleOf c] := by
  simp only [apply, hk]
  rw [samplesOf_append, samplesOf_sampleOf, if_pos hkey]

/-- A sample with data stands behind the others, of which the oldest may have given way. -/
lemma samplesOf_apply_alive (hk : c.kind = .alive) (hkey : c.key = key) (w : Guid)
    (hq : r.qos.history ≠ .keepLast 0) (hv : ∀ s ∈ samplesOf key r.unread, s.valid = true) :
    ∃ j ≤ (samplesOf key r.unread).length,
      samplesOf key (r.apply w c).unread = (samplesOf key r.unread ++ [sampleOf c]).drop j := by
  have hadd : samplesOf key (r.unread ++ [sampleOf c]) = samplesOf key r.unread ++ [sampleOf c] := by
    rw [samplesOf_append, samplesOf_sampleOf, if_pos hkey]
  have hv' : ∀ s ∈ samplesOf key (r.unread ++ [sampleOf c]), s.valid = true := by
    rw [hadd]
    intro s hs
    rcases List.mem_append.mp hs with hs | hs
    · exact hv s hs
    · rw [List.mem_singleton.mp hs]
      simp [sampleOf, hk]
  simp only [apply, hk, hkey]
  cases hd : r.qos.history with
  | keepAll => exact ⟨0, Nat.zero_le _, hadd⟩
  | keepLast n =>
    have hn : n ≠ 0 := fun hn => hq (by rw [hd, hn])
    simp only [History.depth, enforceDepth]
    rw [samplesOf_evict hv', filter_validFor hv', hadd]
    refine ⟨_, ?_, rfl⟩
    simp
    omega

lemma mem_unread_apply {s : Sample Json} (h : s ∈ (r.apply w c).unread) :
    s ∈ r.unread ∨ s = sampleOf c := by
  have hadd : s ∈ r.unread ++ [sampleOf c] := by
    simp only [apply] at h
    cases hk : c.kind with
    | disposed =>
      rw [hk] at h
      exact h
    | alive =>
      rw [hk] at h
      simp only [enforceDepth] at h
      cases hd : r.qos.history.depth with
      | none =>
        rw [hd] at h
        exact h
      | some n =>
        rw [hd] at h
        exact evict_subset h
  rcases List.mem_append.mp hadd with h | h
  · exact .inl h
  · exact .inr (List.mem_singleton.mp h)

/-! ### Writers that come and go -/

lemma addWriter_instances (r : ReaderCache) (w : Guid) (b : Bool) :
    (r.addWriter w b).instances = r.instances := by
  unfold addWriter
  split_ifs <;> rfl

lemma instance_removeWriter (r : ReaderCache) (w : Guid) (key : InstanceKey) :
    (r.removeWriter w).1.instances.get? key =
      if r.hasWriter w then (r.instances.get? key).map (forget w) else r.instances.get? key := by
  unfold removeWriter
  split_ifs with h
  · exact Table.get?_map r.instances (fun _ => forget w) key
  · rfl

lemma samplesOf_removeWriter (hd : Table.Distinct r.instances)
    (hi : ∀ i, r.instances.get? key = some i → orphanedBy w i = false) :
    samplesOf key (r.removeWriter w).1.unread = samplesOf key r.unread := by
  have hnot : key ∉ r.orphans w := fun hmem => by
    obtain ⟨⟨k, i⟩, he, rfl⟩ := List.mem_map.mp hmem
    obtain ⟨he, ho⟩ := List.mem_filter.mp he
    rw [hi i (Table.get?_of_mem hd he)] at ho
    cases ho
  unfold removeWriter
  split_ifs with h
  · rw [samplesOf_append, List.append_right_eq_self]
    refine List.filter_eq_nil_iff.mpr fun s hs => ?_
    obtain ⟨k, hk, rfl⟩ := List.mem_map.mp hs
    exact fun hkey => hnot (of_decide_eq_true hkey ▸ hk)
  · rfl

lemma distinct_instances_apply (hd : Table.Distinct r.instances) :
    Table.Distinct (r.apply w c).instances := hd.put _ _ _

lemma distinct_instances_removeWriter (hd : Table.Distinct r.instances) :
    Table.Distinct (r.removeWriter w).1.instances := by
  unfold removeWriter
  split_ifs
  · exact hd.map fun _ => forget w
  · exact hd

/-! ### An instance of one writer -/

/-- The course that an instance takes: alive some times, and disposed of at the end. -/
def course (n : Nat) : List ChangeKind := List.replicate n .alive ++ [.disposed]

/-- A beginning of the course is the course itself, or the instance is alive all along. -/
lemma prefix_course_iff {kinds : List ChangeKind} {n : Nat} :
    kinds <+: course n ↔
      kinds = course n ∨ kinds.length ≤ n ∧ kinds = List.replicate kinds.length .alive := by
  rw [course, List.prefix_concat_iff, List.prefix_replicate_iff]

lemma eq_replicate_of_course {kinds : List ChangeKind} {n : Nat}
    (h : kinds ++ [ChangeKind.alive] <+: course n) :
    kinds = List.replicate kinds.length .alive := by
  rcases prefix_course_iff.mp h with h | ⟨-, h⟩
  · cases (List.append_inj' h rfl).2
  · rw [List.length_append, List.length_singleton, List.replicate_succ'] at h
    exact List.append_inj_left' h rfl

/-- What a reader has of an instance that it knows from one writer only: the kinds of the changes
that it has accepted, the samples that it has handed out, and what is in its cache. -/
structure Sole (w : Guid) (key : InstanceKey) (kinds : List ChangeKind)
    (handed : List (Sample Json)) (r : ReaderCache) : Prop where
  distinct : Table.Distinct r.instances
  record : r.instances.get? key = kinds.getLast?.map fun k => ⟨stateOf k, [w]⟩
  states : ∃ m, m ≤ kinds.count .alive ∧ (0 < kinds.count .alive → 0 < m) ∧
    (samplesOf key (handed ++ r.unread)).map (·.state) =
      List.replicate m .alive ++ (kinds.filter (· = .disposed)).map stateOf
  valid : ∀ s ∈ samplesOf key r.unread, s.state = .alive → s.valid = true

lemma sole_new (w : Guid) (key : InstanceKey) (q : Qos) : Sole w key [] [] (.new q) :=
  ⟨List.nodup_nil, rfl, ⟨0, Nat.le_refl _, id, rfl⟩, by simp [new, samplesOf]⟩

namespace Sole

variable {kinds : List ChangeKind} {handed : List (Sample Json)}

/-- Its state and its queue are all that matters of a cache. -/
lemma congr {r' : ReaderCache} (h : Sole w key kinds handed r) (hi : r'.instances = r.instances)
    (hu : r'.unread = r.unread) : Sole w key kinds handed r' := by
  obtain ⟨hd, hr, hs, hv⟩ := h
  exact ⟨hi ▸ hd, hi ▸ hr, hu ▸ hs, hu ▸ hv⟩

lemma take (h : Sole w key kinds handed r) (max : Nat) :
    Sole w key kinds (handed ++ (r.take max).2) (r.take max).1 := by
  refine ⟨h.distinct, h.record, ?_, fun s hs => h.valid s ?_⟩
  · rw [List.append_assoc, show (r.take max).2 ++ (r.take max).1.unread = r.unread from
      List.take_append_drop max r.unread]
    exact h.states
  · obtain ⟨hs, hkey⟩ := List.mem_filter.mp hs
    exact List.mem_filter.mpr ⟨List.mem_of_mem_drop hs, hkey⟩

lemma apply_of_ne (h : Sole w key kinds handed r) (hne : c.key ≠ key) (w' : Guid) :
    Sole w key kinds handed (r.apply w' c) := by
  refine ⟨distinct_instances_apply h.distinct, ?_, ?_, ?_⟩
  · rw [instance_apply, if_neg hne.symm]
    exact h.record
  · rw [samplesOf_append, samplesOf_apply_of_ne hne, ← samplesOf_append]
    exact h.states
  · rw [samplesOf_apply_of_ne hne]
    exact h.valid

lemma record_eq (h : Sole w key kinds handed r) (hkey : c.key = key) :
    r.record w c = ⟨stateOf c.kind, [w]⟩ := by
  rw [ReaderCache.record, hkey, h.record]
  cases kinds.getLast? with
  | none => rfl
  | some k => simp

lemma record_apply (h : Sole w key kinds handed r) (hkey : c.key = key) :
    (r.apply w c).instances.get? key =
      (kinds ++ [c.kind]).getLast?.map fun k => ⟨stateOf k, [w]⟩ := by
  rw [instance_apply, if_pos hkey.symm, h.record_eq hkey, List.getLast?_concat]
  rfl

/-- **The next change of its writer.** However many samples give way, one of its life is left. -/
lemma apply {n : Nat} (h : Sole w key kinds handed r) (hkey : c.key = key)
    (hc : kinds ++ [c.kind] <+: course n) (hq : r.qos.history ≠ .keepLast 0) :
    Sole w key (kinds ++ [c.kind]) handed (r.apply w c) := by
  obtain ⟨m, hle, hpos, hstates⟩ := h.states
  refine ⟨distinct_instances_apply h.distinct, h.record_apply hkey, ?_, fun s hs hstate => ?_⟩
  · cases hk : c.kind with
    | disposed =>
      refine ⟨m, by simpa [List.count_append] using hle, by simpa [List.count_append] using hpos, ?_⟩
      rw [samplesOf_append, samplesOf_apply_disposed hk hkey, ← List.append_assoc,
        ← samplesOf_append, List.map_append, hstates]
      simp [state_sampleOf, hk]
    | alive =>
      rw [hk] at hc
      have hall := eq_replicate_of_course hc
      have hnone : kinds.filter (· = .disposed) = [] := by
        rw [hall]
        simp
      rw [hnone, List.map_nil, List.append_nil] at hstates
      have hlives : ∀ s ∈ samplesOf key (handed ++ r.unread), s.state = .alive := fun s hs =>
        List.eq_of_mem_replicate (hstates ▸ List.mem_map_of_mem hs)
      have hunread : ∀ s ∈ samplesOf key r.unread, s.state = .alive := fun s hs =>
        hlives s (samplesOf_append .. ▸ List.mem_append_right _ hs)
      obtain ⟨j, hj, hdrop⟩ := samplesOf_apply_alive hk hkey w hq fun s hs =>
        h.valid s hs (hunread s hs)
      have hm : (samplesOf key handed).length + (samplesOf key r.unread).length = m := by
        have hlen := congrArg List.length hstates
        simpa [samplesOf_append] using hlen
      -- what has been handed out stays, and of what is unread at most the older part gives way
      refine ⟨m + 1 - j, ?_, fun _ => by omega, ?_⟩
      · rw [List.count_append]
        simp
        omega
      · rw [List.filter_append, hnone]
        simp only [reduceCtorEq, decide_false, List.filter_singleton, cond_false, List.append_nil,
          List.map_nil]
        refine List.eq_replicate_iff.mpr ⟨?_, fun state hstate => ?_⟩
        · simp [samplesOf_append, hdrop]
          omega
        · obtain ⟨x, hx, rfl⟩ := List.mem_map.mp hstate
          rw [samplesOf_append, hdrop] at hx
          rcases List.mem_append.mp hx with hx | hx
          · exact hlives x (samplesOf_append .. ▸ List.mem_append_left _ hx)
          · rcases List.mem_append.mp (List.mem_of_mem_drop hx) with hx | hx
            · exact hunread x hx
            · rw [List.mem_singleton.mp hx, state_sampleOf, hk]
              rfl
  · obtain ⟨hs, hskey⟩ := List.mem_filter.mp hs
    rcases mem_unread_apply hs with hs | rfl
    · exact h.valid s (List.mem_filter.mpr ⟨hs, hskey⟩) hstate
    · rw [state_sampleOf] at hstate
      cases hk : c.kind with
      | alive => simp [sampleOf, hk]
      | disposed =>
        rw [hk] at hstate
        cases hstate

lemma orphanedBy_of_ne (h : Sole w key kinds handed r) (hne : w' ≠ w) (i : InstanceRecord)
    (hi : r.instances.get? key = some i) : orphanedBy w' i = false := by
  rw [h.record] at hi
  obtain ⟨k, -, rfl⟩ := Option.map_eq_some_iff.mp hi
  simp [orphanedBy, hne]

lemma removeWriter_of_ne (h : Sole w key kinds handed r) (hne : w' ≠ w) :
    Sole w key kinds handed (r.removeWriter w').1 := by
  have hunread := samplesOf_removeWriter h.distinct (h.orphanedBy_of_ne hne)
  refine ⟨distinct_instances_removeWriter h.distinct, ?_, ?_, hunread ▸ h.valid⟩
  · rw [instance_removeWriter]
    split_ifs
    · rw [h.record, Option.map_map]
      cases kinds.getLast? with
      | none => rfl
      | some k => simp [forget, orphanedBy, hne, Ne.symm hne]
    · exact h.record
  · rw [samplesOf_append, hunread, ← samplesOf_append]
    exact h.states

/-- **An instance that has ended is not told of again** when its writer is lost. -/
lemma samplesOf_removeWriter (h : Sole w key (kinds ++ [.disposed]) handed r) :
    samplesOf key (r.removeWriter w).1.unread = samplesOf key r.unread := by
  refine ReaderCache.samplesOf_removeWriter h.distinct fun i hi => ?_
  rw [h.record, List.getLast?_concat] at hi
  obtain rfl := Option.some.inj hi
  simp [orphanedBy, stateOf]

end Sole

end PubSub.ReaderCache
