import PubSub.Proofs.History.Record
import PubSub.Udp.Node

/-!
A reader that loses several writers at a time, one after the other. The order has no bearing on the
writers and the instances that are left, and only on the places of the notifications in the queue:
whichever removal it is that takes the last writer of an instance, one of them does.
-/

namespace PubSub.ReaderCache

variable {r : ReaderCache} {P Q : Guid → Bool} {i : InstanceRecord} {w : Guid} {ws ws' : List Guid}
  {key : InstanceKey}

/-- Removes writers one after the other, and counts the instances that are notified of it. -/
def lose (r : ReaderCache) (ws : List Guid) : ReaderCache × Nat :=
  ws.foldl (fun s w => ((s.1.removeWriter w).1, s.2 + (s.1.removeWriter w).2.getD 0)) (r, 0)

lemma lose_concat (r : ReaderCache) (ws : List Guid) (w : Guid) :
    r.lose (ws ++ [w]) = (((r.lose ws).1.removeWriter w).1,
      (r.lose ws).2 + ((r.lose ws).1.removeWriter w).2.getD 0) := List.foldl_concat ..

/-! ### One instance -/

def forsaken (P : Guid → Bool) (i : InstanceRecord) : Bool :=
  i.state = .alive && !i.writers.isEmpty && i.writers.all P

def without (P : Guid → Bool) (i : InstanceRecord) : InstanceRecord :=
  { writers := i.writers.filter (!P ·)
    state := if forsaken P i then .noWriters else i.state }

lemma forsaken_iff :
    forsaken P i = true ↔ i.state = .alive ∧ i.writers ≠ [] ∧ ∀ v ∈ i.writers, P v = true := by
  simp [forsaken, and_assoc]

lemma forsaken_none (i : InstanceRecord) : forsaken (fun _ => false) i = false := by
  rw [← Bool.not_eq_true, forsaken_iff]
  rintro ⟨-, hne, hall⟩
  obtain ⟨v, hv⟩ := List.exists_mem_of_ne_nil _ hne
  exact Bool.false_ne_true (hall v hv)

lemma without_none (i : InstanceRecord) : without (fun _ => false) i = i := by
  simp [without, forsaken_none]

/-- An instance that is forsaken already is not lost once more. -/
lemma not_orphanedBy_without (h : forsaken P i = true) (w : Guid) :
    orphanedBy w (without P i) = false := by
  rw [← Bool.not_eq_true, orphanedBy_iff]
  rintro ⟨hstate, -⟩
  rw [without, if_pos h] at hstate
  cases hstate

/-- **With one more writer** those instances are forsaken that were so before, and those that lose
their last writer by it. -/
lemma forsaken_or (hw : P w = false) (i : InstanceRecord) :
    forsaken (fun v => P v || v = w) i = (forsaken P i || orphanedBy w (without P i)) := by
  rw [Bool.eq_iff_iff, Bool.or_eq_true]
  by_cases h : forsaken P i = true
  · obtain ⟨hstate, hne, hall⟩ := forsaken_iff.mp h
    exact iff_of_true (forsaken_iff.mpr ⟨hstate, hne, fun v hv => by simp [hall v hv]⟩) (.inl h)
  · rw [or_iff_right h, forsaken_iff, orphanedBy_iff, without, if_neg h]
    refine and_congr_right fun hstate => ?_
    have hmem (v : Guid) : v ∈ i.writers.filter (!P ·) ↔ v ∈ i.writers ∧ P v = false := by simp
    constructor
    · rintro ⟨hne, hall⟩
      -- one of its writers was left, and that is the one which goes now
      obtain ⟨v, hv, hPv⟩ : ∃ v ∈ i.writers, P v = false := by
        by_contra hnot
        push Not at hnot
        exact h (forsaken_iff.mpr ⟨hstate, hne, fun v hv => Bool.not_eq_false _ ▸ hnot v hv⟩)
      have hvw : v = w := by simpa [hPv] using hall v hv
      refine ⟨(hmem w).mpr ⟨hvw ▸ hv, hw⟩, List.filter_eq_nil_iff.mpr fun u hu => ?_⟩
      obtain ⟨hu, hPu⟩ := (hmem u).mp hu
      simpa [hPu] using hall u hu
    · rintro ⟨hmw, hnil⟩
      refine ⟨List.ne_nil_of_mem ((hmem w).mp hmw).1, fun v hv => ?_⟩
      cases hPv : P v with
      | true => rfl
      | false => simpa using List.filter_eq_nil_iff.mp hnil v ((hmem v).mpr ⟨hv, hPv⟩)

lemma forget_without (hw : P w = false) (i : InstanceRecord) :
    forget w (without P i) = without (fun v => P v || v = w) i := by
  have hwriters : (i.writers.filter (!P ·)).filter (· ≠ w) =
      i.writers.filter fun v => !(P v || v = w) := by
    rw [List.filter_filter]
    exact List.filter_congr fun v _ => by by_cases hv : v = w <;> simp [hv]
  have hstate : (if orphanedBy w (without P i) then .noWriters else (without P i).state) =
      if forsaken (fun v => P v || v = w) i then .noWriters else i.state := by
    rw [forsaken_or hw]
    cases h : forsaken P i with
    | true | false => simp [without, h]
  rw [forget, hstate, without, without]
  simp only [hwriters]

/-! ### All of them -/

def gone (r : ReaderCache) (ws : List Guid) (w : Guid) : Bool := r.hasWriter w && ws.contains w

lemma gone_congr (r : ReaderCache) (h : ∀ w, w ∈ ws ↔ w ∈ ws') : r.gone ws = r.gone ws' := by
  funext w
  rw [gone, gone, List.contains_eq_mem, List.contains_eq_mem, decide_eq_decide.mpr (h w)]

lemma filter_or_perm {α : Type} {p q : α → Bool} (l : List α)
    (h : ∀ a ∈ l, p a = true → q a = false) :
    (l.filter fun a => p a || q a).Perm (l.filter p ++ l.filter q) := by
  have hleft : (l.filter fun a => p a || q a).filter p = l.filter p := by
    rw [List.filter_filter]
    exact List.filter_congr fun a _ => by cases p a <;> simp
  have hright : (l.filter fun a => p a || q a).filter (!p ·) = l.filter q := by
    rw [List.filter_filter]
    refine List.filter_congr fun a ha => ?_
    cases hp : p a with
    | true => simp [h a ha hp]
    | false => simp
  rw [← hleft, ← hright]
  exact (List.filter_append_perm p _).symm

/-- **What the loss of several writers comes to**, told by which writers they are. -/
structure Lost (r : ReaderCache) (ws : List Guid) (s : ReaderCache × Nat) : Prop where
  qos : s.1.qos = r.qos
  writers : s.1.writers = r.writers.filter fun e => !ws.contains e.1
  instances : s.1.instances = r.instances.map fun e => (e.1, without (r.gone ws) e.2)
  notified : ∃ keys : List InstanceKey,
    s.1.unread = r.unread ++ keys.map (.notification · .noWriters 0) ∧ s.2 = keys.length ∧
    keys.Perm ((r.instances.filter fun e => forsaken (r.gone ws) e.2).map (·.1))

namespace Lost

variable {s : ReaderCache × Nat}

lemma hasWriter (h : Lost r ws s) (w : Guid) :
    s.1.hasWriter w = (r.hasWriter w && !ws.contains w) := by
  rw [ReaderCache.hasWriter, ReaderCache.hasWriter, Table.has, h.writers,
    Table.get?_filter _ fun v => !ws.contains v]
  cases ws.contains w <;> simp [Table.has]

lemma erase (h : Lost r ws s) (w : Guid) :
    s.1.writers.erase w = r.writers.filter fun e => !(ws ++ [w]).contains e.1 := by
  rw [h.writers, Table.erase, List.filter_filter]
  exact List.filter_congr fun e _ => by simp [Bool.and_comm]

lemma matched (h : Lost r ws s) (hw : s.1.hasWriter w = true) :
    Lost r (ws ++ [w]) ((s.1.removeWriter w).1, s.2 + (s.1.removeWriter w).2.getD 0) := by
  have hnew : r.hasWriter w = true ∧ w ∉ ws := by simpa [h.hasWriter] using hw
  have hP : r.gone ws w = false := by simp [gone, hnew.2]
  have hgone : r.gone (ws ++ [w]) = fun v => r.gone ws v || v = w := by
    funext v
    by_cases hv : v = w
    · simp [gone, hv, hnew.1]
    · simp [gone, hv]
  have horphans : s.1.orphans w =
      (r.instances.filter fun e => orphanedBy w (without (r.gone ws) e.2)).map (·.1) := by
    rw [orphans, h.instances, List.filter_map, List.map_map]
    rfl
  obtain ⟨keys, hunread, hcount, hkeys⟩ := h.notified
  rw [removeWriter, if_pos hw]
  refine ⟨h.qos, h.erase w, ?_, keys ++ s.1.orphans w, ?_, ?_, ?_⟩
  · rw [h.instances, hgone, List.map_map]
    exact List.map_congr_left fun e _ => congrArg (e.1, ·) (forget_without hP e.2)
  · dsimp only
    rw [hunread, List.map_append, List.append_assoc]
  · rw [hcount, List.length_append]
    rfl
  · rw [hgone, horphans]
    simp only [forsaken_or hP]
    refine (hkeys.append_right _).trans ?_
    rw [← List.map_append]
    exact ((filter_or_perm r.instances fun e _ he => not_orphanedBy_without he w).map _).symm

/-- A writer that is not matched, or not any more, makes no difference. -/
lemma unmatched (h : Lost r ws s) (hw : s.1.hasWriter w = false) :
    Lost r (ws ++ [w]) ((s.1.removeWriter w).1, s.2 + (s.1.removeWriter w).2.getD 0) := by
  have hsame : s.1.removeWriter w = (s.1, none) := if_neg (Bool.not_eq_true _ ▸ hw)
  have hnone : w ∉ s.1.writers.keys :=
    Table.get?_eq_none_iff.mp (Table.has_eq_false.mp hw)
  have herase : s.1.writers.erase w = s.1.writers :=
    List.filter_eq_self.mpr fun e he => decide_eq_true fun hew : e.1 = w =>
      hnone (hew ▸ Table.mem_keys_of_mem he)
  have hgone : r.gone (ws ++ [w]) = r.gone ws := by
    rw [h.hasWriter] at hw
    funext v
    by_cases hv : v = w
    · subst hv
      cases hr : r.hasWriter v <;> simp_all [gone]
    · simp [gone, hv]
  rw [hsame]
  exact ⟨h.qos, herase ▸ h.erase w, hgone ▸ h.instances, hgone ▸ h.notified⟩

end Lost

theorem lost (r : ReaderCache) (ws : List Guid) : Lost r ws (r.lose ws) := by
  induction ws using List.reverseRecOn with
  | nil =>
    have hgone : r.gone [] = fun _ => false := by
      funext w
      simp [gone]
    refine ⟨rfl, ?_, ?_, [], ?_⟩
    · exact (List.filter_eq_self.mpr fun _ _ => rfl).symm
    · rw [hgone]
      simp [lose, without_none]
    · rw [hgone]
      simp [lose, forsaken_none]
  | append_singleton ws w ih =>
    rw [lose_concat]
    cases hw : (r.lose ws).1.hasWriter w with
    | true => exact ih.matched hw
    | false => exact ih.unmatched hw

/-! ### Runs -/

/-- An instance is alive by matched writers only, and by one at least. -/
lemma Tells.forsaken_iff {log : List Entry} (h : Tells log r)
    (hi : r.instances.get? key = some i) :
    forsaken (r.gone ws) i = true ↔ i.state = .alive ∧ ∀ v ∈ i.writers, v ∈ ws := by
  have hrecorded := h.recorded key
  rw [hi] at hrecorded
  have hmatched : ∀ v ∈ i.writers, r.hasWriter v = true := fun v hv =>
    (h.matched v).mpr (h.proper.asserting_iff.mpr ((hrecorded.writers v).mp hv)).1
  rw [ReaderCache.forsaken_iff]
  constructor
  · rintro ⟨hstate, -, hall⟩
    refine ⟨hstate, fun v hv => ?_⟩
    have hgone := hall v hv
    rw [gone, Bool.and_eq_true, List.contains_iff_mem] at hgone
    exact hgone.2
  · rintro ⟨hstate, hall⟩
    refine ⟨hstate, hrecorded.alive i rfl hstate, fun v hv => ?_⟩
    rw [gone, Bool.and_eq_true, List.contains_iff_mem]
    exact ⟨hmatched v hv, hall v hv⟩

/-- How often an instance is notified: once if it is alive by these writers alone, else never. -/
lemma Tells.count_forsaken {log : List Entry} (h : Tells log r) (ws : List Guid)
    (key : InstanceKey) :
    ((r.instances.filter fun e => forsaken (r.gone ws) e.2).map (·.1)).count key =
      if ∃ i ∈ r.instances.get? key, i.state = .alive ∧ ∀ v ∈ i.writers, v ∈ ws then 1 else 0 := by
  have hnodup : ((r.instances.filter fun e => forsaken (r.gone ws) e.2).map (·.1)).Nodup :=
    h.distinct.filter _
  have hmem : key ∈ (r.instances.filter fun e => forsaken (r.gone ws) e.2).map (·.1) ↔
      ∃ i ∈ r.instances.get? key, i.state = .alive ∧ ∀ v ∈ i.writers, v ∈ ws := by
    constructor
    · intro hkey
      obtain ⟨⟨k, i⟩, hki, rfl⟩ := List.mem_map.mp hkey
      obtain ⟨hki, hlost⟩ := List.mem_filter.mp hki
      have hi := Table.get?_of_mem h.distinct hki
      exact ⟨i, hi, (h.forsaken_iff hi).mp hlost⟩
    · rintro ⟨i, hi, halive⟩
      refine List.mem_map.mpr ⟨(key, i), List.mem_filter.mpr ⟨Table.mem_of_get? hi, ?_⟩, rfl⟩
      exact (h.forsaken_iff hi).mpr halive
  split_ifs with hone
  · exact List.count_eq_one_of_mem hnodup (hmem.mpr hone)
  · exact List.count_eq_zero_of_not_mem fun hkey => hone (hmem.mp hkey)

/-- **Writers may be lost in any order.** The writers and the instances that are left are the same,
and so are the notifications but for their order. There is one for every instance that is alive by
no other writer, and none for any other instance. -/
theorem lose_any_order (r : ReaderCache) (ws ws' : List Guid) (h : ∀ w, w ∈ ws ↔ w ∈ ws') :
    (r.lose ws).1.writers = (r.lose ws').1.writers ∧
      (r.lose ws).1.instances = (r.lose ws').1.instances ∧
      ∃ keys keys' : List InstanceKey,
        (r.lose ws).1.unread = r.unread ++ keys.map (.notification · .noWriters 0) ∧
        (r.lose ws').1.unread = r.unread ++ keys'.map (.notification · .noWriters 0) ∧
        keys.Perm keys' ∧ (r.lose ws).2 = keys.length ∧ (r.lose ws').2 = keys.length ∧
        ∀ q es, r = (new q).run es → ∀ key, keys.count key =
          if ∃ i ∈ r.instances.get? key, i.state = .alive ∧ ∀ v ∈ i.writers, v ∈ ws then 1
          else 0 := by
  have hgone := r.gone_congr h
  have hleft := lost r ws
  have hright := lost r ws'
  obtain ⟨keys, hunread, hcount, hkeys⟩ := hleft.notified
  obtain ⟨keys', hunread', hcount', hkeys'⟩ := hright.notified
  have hperm : keys.Perm keys' := hkeys.trans (hgone ▸ hkeys'.symm)
  refine ⟨?_, ?_, keys, keys', hunread, hunread', hperm, hcount, ?_, ?_⟩
  · rw [hleft.writers, hright.writers]
    exact List.filter_congr fun e _ => by simp [h e.1]
  · rw [hleft.instances, hright.instances, hgone]
  · rw [hcount', hperm.length_eq]
  · rintro q es rfl key
    rw [hkeys.count_eq]
    exact (tells_run q es).count_forsaken ws key

/-- Two writers share an instance and have another one each, of which one is disposed of; a third
writer shares an instance with the first. -/
def shared : List Event :=
  [.add ⟨1, 1⟩ true, .add ⟨2, 1⟩ true, .add ⟨3, 1⟩ true,
    .receive ⟨1, 1⟩ 1 ⟨1, "a", .alive, some (.str "x")⟩,
    .receive ⟨2, 1⟩ 1 ⟨1, "a", .alive, some (.str "y")⟩,
    .receive ⟨1, 1⟩ 2 ⟨2, "b", .alive, some (.str "z")⟩,
    .receive ⟨2, 1⟩ 2 ⟨2, "c", .disposed, none⟩,
    .receive ⟨1, 1⟩ 3 ⟨3, "d", .alive, some (.str "u")⟩,
    .receive ⟨3, 1⟩ 1 ⟨1, "d", .alive, some (.str "v")⟩]

theorem lose_any_order_shared :
    let r := (new .interop).run shared
    (∀ w : Guid, w ∈ [⟨1, 1⟩, ⟨2, 1⟩] ↔ w ∈ [⟨2, 1⟩, ⟨1, 1⟩]) ∧
      ∃ keys keys' : List InstanceKey,
        (r.lose [⟨1, 1⟩, ⟨2, 1⟩]).1.unread =
          r.unread ++ keys.map (.notification · .noWriters 0) ∧
        (r.lose [⟨2, 1⟩, ⟨1, 1⟩]).1.unread =
          r.unread ++ keys'.map (.notification · .noWriters 0) ∧
        keys.Perm keys' ∧ keys.count "a" = 1 ∧
        keys.count "b" = 1 ∧ keys.count "c" = 0 ∧ keys.count "d" = 0 := by
  intro r
  have hsame : ∀ w : Guid, w ∈ [⟨1, 1⟩, ⟨2, 1⟩] ↔ w ∈ [⟨2, 1⟩, ⟨1, 1⟩] := by simp [or_comm]
  obtain ⟨-, -, keys, keys', hunread, hunread', hperm, -, -, honce⟩ :=
    lose_any_order r [⟨1, 1⟩, ⟨2, 1⟩] [⟨2, 1⟩, ⟨1, 1⟩] hsame
  have hcount := honce .interop shared rfl
  exact ⟨hsame, keys, keys', hunread, hunread', hperm, (hcount "a").trans (by decide),
    (hcount "b").trans (by decide), (hcount "c").trans (by decide),
    (hcount "d").trans (by decide)⟩

end PubSub.ReaderCache

namespace PubSub.Udp.LinkedReader

lemma cache_drop (s : Reader × StatusMask) (w : Guid) :
    (drop s w).1.cache = (s.1.cache.removeWriter w).1 := by
  simp only [drop, Reader.removeWriter, ReaderCache.removeWriter]
  cases s.1.cache.hasWriter w <;> rfl

/-- A reader that is brought in line with what is announced loses the writers that it no longer
wants, in whatever order they come. -/
theorem cache_foldl_drop (s : Reader × StatusMask) (ws : List Guid) :
    (ws.foldl drop s).1.cache = (s.1.cache.lose ws).1 := by
  induction ws using List.reverseRecOn with
  | nil => rfl
  | append_singleton ws w ih => rw [List.foldl_concat, cache_drop, ih, ReaderCache.lose_concat]

end PubSub.Udp.LinkedReader
