import PubSub.Proofs.History.Instance
import PubSub.Proofs.History.Run

/-!
The records that a cache keeps of instances. A record is told by the log: its writers are those that
have changed the instance and were not lost since, and its state is that of the latest change, or
that of an instance which all of them have left alive.
-/

namespace PubSub.ReaderCache

variable {r r' : ReaderCache} {e : Event} {es : List Event} {q : Qos} {log log' : List Entry}
  {x : Entry} {key : InstanceKey} {v w : Guid} {c : Change} {o : Option InstanceRecord}

/-! ### What the log says -/

def Entry.Changes (key : InstanceKey) : Entry → Prop
  | .accepted _ c => c.key = key
  | .added _ | .removed _ => False

def Entry.Asserts (w : Guid) (key : InstanceKey) : Entry → Prop
  | .accepted v c => v = w ∧ c.key = key
  | .added _ | .removed _ => False

lemma Entry.Asserts.changes (h : x.Asserts w key) : x.Changes key := by
  cases x with
  | accepted v c => exact h.2
  | added | removed => exact h

/-- The writer was added and not removed since. -/
def Matched (log : List Entry) (w : Guid) : Prop := Stands (· = .added w) (· = .removed w) log

/-- A matched writer from which a change of the instance was accepted since it was last added. -/
def Asserting (log : List Entry) (key : InstanceKey) (w : Guid) : Prop :=
  Matched log w ∧ Stands (Entry.Asserts w key) (· = .added w) log

/-- What may be logged next: only matched writers are removed and have changes accepted, and only
others are added. -/
def Entry.Fits (log : List Entry) : Entry → Prop
  | .added w => ¬Matched log w
  | .removed w | .accepted w _ => Matched log w

inductive Proper : List Entry → Prop
  | nil : Proper []
  | concat {log : List Entry} {x : Entry} (h : Proper log) (hx : x.Fits log) : Proper (log ++ [x])

lemma Proper.of_concat (h : Proper (log ++ [x])) : Proper log := by
  generalize hl : log ++ [x] = log' at h
  cases h with
  | nil => simp at hl
  | concat h =>
    obtain ⟨rfl, -⟩ := List.append_inj' hl rfl
    exact h

lemma Proper.of_append (h : Proper (log ++ log')) : Proper log := by
  induction log' using List.reverseRecOn with
  | nil => rwa [List.append_nil] at h
  | append_singleton log' x ih =>
    rw [← List.append_assoc] at h
    exact ih h.of_concat

lemma matched_concat : Matched (log ++ [x]) w ↔ x = .added w ∨ Matched log w ∧ x ≠ .removed w :=
  stands_concat

/-- A writer that has changed the instance asserts it until the writer is removed. -/
lemma Proper.asserting_iff (h : Proper log) :
    Asserting log key w ↔ Stands (Entry.Asserts w key) (· = .removed w) log := by
  induction h with
  | nil => exact iff_of_false (fun h => not_stands_nil h.1) not_stands_nil
  | @concat log x _ hx ih =>
    rw [Asserting, matched_concat, stands_concat, stands_concat, ← ih, Asserting]
    cases x with
    | added v =>
      have hv : ¬Matched log v := hx
      by_cases hvw : v = w
      · subst hvw
        simp [Entry.Asserts, hv]
      · simp [Entry.Asserts, hvw]
    | removed v => simp [Entry.Asserts, and_right_comm]
    | accepted v c =>
      have hv : Matched log v := hx
      by_cases hvw : v = w
      · subst hvw
        simp [Entry.Asserts, hv]
      · simp [Entry.Asserts, hvw]

/-! ### What an event comes to -/

inductive Turn (r : ReaderCache) : List Entry → ReaderCache → Prop where
  | idle {r' : ReaderCache} (hi : r'.instances = r.instances)
    (hw : ∀ v, r'.hasWriter v = r.hasWriter v) : Turn r [] r'
  | added {r' : ReaderCache} (w : Guid) (hnew : r.hasWriter w = false)
    (hi : r'.instances = r.instances)
    (hw : ∀ v, r'.hasWriter v = true ↔ v = w ∨ r.hasWriter v = true) : Turn r [.added w] r'
  | removed {r' : ReaderCache} (w : Guid) (hold : r.hasWriter w = true)
    (hi : r'.instances = r.instances.map fun e => (e.1, forget w e.2))
    (hw : ∀ v, r'.hasWriter v = true ↔ v ≠ w ∧ r.hasWriter v = true) : Turn r [.removed w] r'
  | accepted {r' : ReaderCache} (w : Guid) (c : Change) (hold : r.hasWriter w = true)
    (hi : r'.instances = r.instances.put (· < ·) c.key (r.record w c))
    (hw : ∀ v, r'.hasWriter v = r.hasWriter v) : Turn r [.accepted w c] r'

theorem turn_step (r : ReaderCache) (e : Event) : Turn r (r.entries e) (r.step e) := by
  cases e with
  | take max => exact .idle rfl fun _ => rfl
  | add w b =>
    rw [entries]
    split_ifs with h
    · have hsame : r.addWriter w b = r := if_pos h
      rw [step, hsame]
      exact .idle rfl fun _ => rfl
    · have hnone : r.writers.get? w = none := Table.has_eq_false.mp (Bool.not_eq_true _ ▸ h)
      refine .added w (Bool.not_eq_true _ ▸ h) (addWriter_instances r w b) fun v => ?_
      rw [hasWriter, hasWriter, Table.has, Table.has, step, get?_addWriter]
      by_cases hv : v = w <;> simp [hv, hnone]
  | remove w =>
    rw [entries]
    split_ifs with h
    · refine .removed w h (by rw [step, removeWriter, if_pos h]) fun v => ?_
      rw [hasWriter, hasWriter, Table.has, Table.has, step, get?_removeWriter]
      by_cases hv : v = w <;> simp [hv]
    · have hsame : (r.removeWriter w).1 = r := by rw [removeWriter, if_neg h]
      rw [step, hsame]
      exact .idle rfl fun _ => rfl
  | receive w n c =>
    rw [entries]
    split_ifs with h
    · refine .accepted w c (hasWriter_of_accepted h) (by rw [step, receive_of_accepted h]; rfl)
        fun v => ?_
      rw [step, receive_of_accepted h]
      exact Table.has_adjust r.writers w ({ · with next := n + 1 }) v
    · rw [step, receive_of_not_accepted h]
      exact .idle rfl fun _ => rfl

/-! ### Records -/

lemma orphanedBy_iff (w : Guid) (i : InstanceRecord) :
    orphanedBy w i = true ↔ i.state = .alive ∧ w ∈ i.writers ∧ i.writers.filter (· ≠ w) = [] := by
  rw [orphanedBy, Bool.and_eq_true, Bool.and_eq_true, List.contains_iff_mem, List.isEmpty_iff,
    decide_eq_true_iff, and_comm]

/-- The state to which a change leads, at once or when the writers are lost. -/
def Leads (state : InstanceState) (kind : ChangeKind) : Prop :=
  state = stateOf kind ∨ state = .noWriters ∧ kind = .alive

lemma Leads.eq_alive {kind : ChangeKind} (h : Leads .alive kind) : kind = .alive := by
  rcases h with h | ⟨h, -⟩
  · cases kind with
    | alive => rfl
    | disposed => cases h
  · cases h

def Entry.LeadsTo (key : InstanceKey) (state : InstanceState) : Entry → Prop
  | .accepted _ c => c.key = key ∧ Leads state c.kind
  | .added _ | .removed _ => False

lemma Entry.LeadsTo.forget {i : InstanceRecord} (h : x.LeadsTo key i.state) (w : Guid) :
    x.LeadsTo key (forget w i).state := by
  rw [ReaderCache.forget]
  split_ifs with hlost
  · -- the change has left the instance alive
    have halive := ((orphanedBy_iff w i).mp hlost).1
    rw [halive] at h
    cases x with
    | added | removed => exact h
    | accepted v c => exact ⟨h.1, .inr ⟨rfl, h.2.eq_alive⟩⟩
  · exact h

def asserters (o : Option InstanceRecord) : List Guid := o.elim [] (·.writers)

lemma asserters_forget (w : Guid) (o : Option InstanceRecord) :
    asserters (o.map (forget w)) = (asserters o).filter (· ≠ w) := by
  cases o <;> rfl

lemma writers_record (r : ReaderCache) (w : Guid) (c : Change) :
    (r.record w c).writers =
      if (asserters (r.instances.get? c.key)).contains w then asserters (r.instances.get? c.key)
      else asserters (r.instances.get? c.key) ++ [w] := by
  rw [record]
  cases r.instances.get? c.key <;> rfl

lemma mem_writers_record :
    v ∈ (r.record w c).writers ↔ v ∈ asserters (r.instances.get? c.key) ∨ v = w := by
  rw [writers_record]
  split_ifs with hw
  · exact (or_iff_left_of_imp fun hv => hv ▸ List.contains_iff_mem.mp hw).symm
  · simp

lemma nodup_writers_record (h : (asserters (r.instances.get? c.key)).Nodup) (w : Guid) :
    (r.record w c).writers.Nodup := by
  rw [writers_record]
  split_ifs with hw
  · exact h
  · refine List.nodup_append.mpr ⟨h, List.nodup_singleton w, ?_⟩
    rintro v hv u hu rfl
    exact hw (List.contains_iff_mem.mpr (List.mem_singleton.mp hu ▸ hv))

structure Recorded (log : List Entry) (key : InstanceKey) (o : Option InstanceRecord) : Prop where
  known : o.isSome = true ↔ ∃ x ∈ log, x.Changes key
  nodup : (asserters o).Nodup
  writers : ∀ w, w ∈ asserters o ↔ Stands (Entry.Asserts w key) (· = .removed w) log
  alive : ∀ i ∈ o, i.state = .alive → i.writers ≠ []
  forsaken : ∀ i ∈ o, i.state = .noWriters → i.writers = []
  latest : ∀ i ∈ o, Stands (Entry.LeadsTo key i.state) (Entry.Changes key) log

namespace Recorded

lemma nil (key : InstanceKey) : Recorded [] key none where
  known := by simp
  nodup := List.nodup_nil
  writers := fun w => iff_of_false List.not_mem_nil not_stands_nil
  alive := by simp
  forsaken := by simp
  latest := by simp

lemma idle (h : Recorded log key o) (hx : ¬x.Changes key) (hr : ∀ w, x ≠ .removed w) :
    Recorded (log ++ [x]) key o where
  known := by
    rw [h.known]
    simp [hx]
  nodup := h.nodup
  writers := fun w => by
    rw [h.writers, stands_concat, or_iff_right fun ha => hx ha.changes]
    exact (and_iff_left (hr w)).symm
  alive := h.alive
  forsaken := h.forsaken
  latest := fun i hi => stands_concat.mpr (.inr ⟨h.latest i hi, hx⟩)

lemma removed (h : Recorded log key o) (w : Guid) :
    Recorded (log ++ [.removed w]) key (o.map (forget w)) := by
  refine ⟨?_, ?_, fun v => ?_, fun i hi halive => ?_, fun i hi hnone => ?_, fun i hi => ?_⟩
  · rw [Option.isSome_map, h.known]
    simp [Entry.Changes]
  · rw [asserters_forget]
    exact h.nodup.filter _
  · have hne : v ≠ w ↔ Entry.removed w ≠ Entry.removed v := by simp [eq_comm]
    rw [asserters_forget, List.mem_filter, h.writers, stands_concat,
      or_iff_right (by simp [Entry.Asserts]), decide_eq_true_iff, hne]
  · obtain ⟨i, ho, rfl⟩ := Option.map_eq_some_iff.mp hi
    rw [forget] at halive ⊢
    split_ifs at halive with hlost
    -- a writer of an instance that is still alive is left
    intro hnil
    have hw : w ∉ i.writers := fun hw => hlost ((orphanedBy_iff w i).mpr ⟨halive, hw, hnil⟩)
    have hsame : i.writers.filter (· ≠ w) = i.writers :=
      List.filter_eq_self.mpr fun v hv => decide_eq_true fun hvw => hw (hvw ▸ hv)
    exact h.alive i ho halive (hsame ▸ hnil)
  · obtain ⟨i, ho, rfl⟩ := Option.map_eq_some_iff.mp hi
    rw [forget] at hnone ⊢
    split_ifs at hnone with hlost
    · exact ((orphanedBy_iff w i).mp hlost).2.2
    · simp [h.forsaken i ho hnone]
  · obtain ⟨i, ho, rfl⟩ := Option.map_eq_some_iff.mp hi
    exact stands_concat.mpr (.inr ⟨(h.latest i ho).imp fun x hx => hx.forget w, id⟩)

lemma accepted (h : Recorded log c.key (r.instances.get? c.key)) (w : Guid) :
    Recorded (log ++ [.accepted w c]) c.key (some (r.record w c)) := by
  refine ⟨?_, nodup_writers_record h.nodup w, fun v => ?_, fun i hi _ => ?_, fun i hi hnone => ?_,
    fun i hi => ?_⟩
  · simp [Entry.Changes]
  · change v ∈ (r.record w c).writers ↔ _
    rw [mem_writers_record, h.writers, stands_concat]
    simp [Entry.Asserts, or_comm, eq_comm]
  · obtain rfl := Option.some.inj hi
    exact List.ne_nil_of_mem (mem_writers_record.mpr (.inr rfl))
  · obtain rfl := Option.some.inj hi
    rw [record] at hnone
    cases hc : c.kind <;> simp [hc, stateOf] at hnone
  · obtain rfl := Option.some.inj hi
    exact stands_concat.mpr (.inl ⟨rfl, .inl rfl⟩)

end Recorded

/-! ### Runs -/

structure Tells (log : List Entry) (r : ReaderCache) : Prop where
  proper : Proper log
  matched : ∀ w, r.hasWriter w = true ↔ Matched log w
  recorded : ∀ key, Recorded log key (r.instances.get? key)
  ascending : r.instances.Ascending (· < ·)

lemma tells_new (q : Qos) : Tells [] (new q) where
  proper := .nil
  matched := fun _ => iff_of_false Bool.false_ne_true not_stands_nil
  recorded := .nil
  ascending := List.Pairwise.nil

namespace Tells

lemma step (h : Tells log r) (e : Event) : Tells (log ++ r.entries e) (r.step e) := by
  have hturn := turn_step r e
  generalize r.entries e = xs, r.step e = r' at hturn
  cases hturn with
  | idle hi hw =>
    rw [List.append_nil]
    exact ⟨h.proper, fun v => hw v ▸ h.matched v, fun key => hi ▸ h.recorded key, hi ▸ h.ascending⟩
  | added w hnew hi hw =>
    have hunmatched : ¬Matched log w := fun hm => by
      rw [(h.matched w).mpr hm] at hnew
      cases hnew
    refine ⟨h.proper.concat hunmatched, fun v => ?_, fun key => ?_, hi ▸ h.ascending⟩
    · rw [hw, matched_concat, h.matched]
      simp [eq_comm]
    · exact hi ▸ (h.recorded key).idle id fun _ => Entry.noConfusion
  | removed w hold hi hw =>
    refine ⟨h.proper.concat ((h.matched w).mp hold), fun v => ?_, fun key => ?_, ?_⟩
    · rw [hw, matched_concat, h.matched]
      simp [eq_comm, and_comm]
    · rw [hi, Table.get?_map r.instances (fun _ => forget w)]
      exact (h.recorded key).removed w
    · rw [hi, Table.Ascending, Table.keys_map r.instances fun _ => forget w]
      exact h.ascending
  | accepted w c hold hi hw =>
    refine ⟨h.proper.concat ((h.matched w).mp hold), fun v => ?_, fun key => ?_, ?_⟩
    · rw [hw, matched_concat, h.matched]
      simp
    · rw [hi, Table.get?_put]
      split_ifs with hkey
      · subst hkey
        exact (h.recorded c.key).accepted w
      · exact (h.recorded key).idle (Ne.symm hkey) fun _ => Entry.noConfusion
    · rw [hi]
      -- the records stand in the order of their instances
      refine h.ascending.put (fun i j k hij hjk => ?_) (fun j k hjk hlt => ?_) _ _
      · exact decide_eq_true (String.lt_trans (of_decide_eq_true hij) (of_decide_eq_true hjk))
      · exact decide_eq_true (Decidable.byContradiction fun hge => hjk
          (String.le_antisymm (String.not_lt.mp hge) (String.not_lt.mp (of_decide_eq_false hlt))))

lemma distinct (h : Tells log r) : Table.Distinct r.instances := by
  refine List.Pairwise.imp ?_ h.ascending
  rintro j _ hlt rfl
  exact String.lt_irrefl j (of_decide_eq_true hlt)

lemma mem_orphans (h : Tells log r) :
    key ∈ r.orphans w ↔
      ∃ i, r.instances.get? key = some i ∧ i.state = .alive ∧ i.writers = [w] := by
  constructor
  · intro hmem
    obtain ⟨⟨k, i⟩, hki, rfl⟩ := List.mem_map.mp hmem
    obtain ⟨hki, hlost⟩ := List.mem_filter.mp hki
    have hi := Table.get?_of_mem h.distinct hki
    obtain ⟨halive, hw, hnil⟩ := (orphanedBy_iff w i).mp hlost
    have hnodup : i.writers.Nodup := by simpa [hi, asserters] using (h.recorded k).nodup
    refine ⟨i, hi, halive, ?_⟩
    have hall : ∀ v ∈ i.writers, v = w := by simpa using hnil
    exact List.perm_singleton.mp ((List.perm_ext_iff_of_nodup hnodup (List.nodup_singleton w)).mpr
      fun v => ⟨fun hv => by simp [hall v hv], fun hv => List.mem_singleton.mp hv ▸ hw⟩)
  · rintro ⟨i, hi, halive, hw⟩
    refine List.mem_map.mpr ⟨(key, i), List.mem_filter.mpr ⟨Table.mem_of_get? hi, ?_⟩, rfl⟩
    exact (orphanedBy_iff w i).mpr ⟨halive, by simp [hw], by simp [hw]⟩

lemma orphans_sorted (h : Tells log r) (w : Guid) : (r.orphans w).Pairwise (· < ·) := by
  have hsub : (r.orphans w).Sublist r.instances.keys := List.filter_sublist.map _
  exact (List.Pairwise.sublist hsub h.ascending).imp of_decide_eq_true

/-- **The state of an instance** is that of its latest change, until the last of the writers that
asserted it then is lost. -/
lemma state (h : Tells log r) {i : InstanceRecord} (hi : r.instances.get? key = some i) :
    ∃ before w c after, log = before ++ .accepted w c :: after ∧ c.key = key ∧
      (∀ x ∈ after, ¬x.Changes key) ∧ (i.state ≠ .noWriters → i.state = stateOf c.kind) ∧
      (i.state = .noWriters ↔ c.kind = .alive ∧
        ∀ v, Asserting (before ++ [.accepted w c]) key v → .removed v ∈ after) := by
  have hrecorded := h.recorded key
  rw [hi] at hrecorded
  obtain ⟨before, x, after, hl, hx, hafter⟩ := hrecorded.latest i rfl
  cases x with
  | added | removed => cases hx
  | accepted w c =>
    obtain ⟨hkey, hleads⟩ := hx
    have hlog : log = before ++ [.accepted w c] ++ after := by simp [hl]
    have hproper : Proper (before ++ [.accepted w c]) := (hlog ▸ h.proper).of_append
    -- who asserts the instance now has done so at the change, and was not removed
    have hsince (v : Guid) : v ∈ i.writers ↔
        Asserting (before ++ [.accepted w c]) key v ∧ .removed v ∉ after := by
      have hstands := hrecorded.writers v
      rw [hlog, stands_append fun y hy ha => hafter y hy ha.changes, ← hproper.asserting_iff]
        at hstands
      simpa [asserters, List.forall_mem_ne'] using hstands
    refine ⟨before, w, c, after, hl, hkey, hafter, fun hne => ?_, fun hnone => ?_, ?_⟩
    · exact hleads.resolve_right fun hnone => hne hnone.1
    · refine ⟨?_, fun v hv => ?_⟩
      · rcases hleads with hstate | ⟨-, hkind⟩
        · cases hc : c.kind <;> simp [hnone, hc, stateOf] at hstate
        · exact hkind
      · by_contra hkept
        have hmem := (hsince v).mpr ⟨hv, hkept⟩
        rw [hrecorded.forsaken i rfl hnone] at hmem
        cases hmem
    · rintro ⟨hkind, hall⟩
      rcases hleads with hstate | ⟨hnone, -⟩
      · rw [hkind] at hstate
        obtain ⟨v, hv⟩ := List.exists_mem_of_ne_nil _ (hrecorded.alive i rfl hstate)
        obtain ⟨hasserting, hkept⟩ := (hsince v).mp hv
        exact absurd (hall v hasserting) hkept
      · exact hnone

lemma orphans_of_not_matched (h : Tells log r) (hw : r.hasWriter w = false) : r.orphans w = [] := by
  refine List.eq_nil_iff_forall_not_mem.mpr fun key hkey => ?_
  obtain ⟨i, hi, -, hwriters⟩ := h.mem_orphans.mp hkey
  have hrecorded := (h.recorded key).writers w
  rw [hi, ← h.proper.asserting_iff] at hrecorded
  have hmatched := (h.matched w).mpr (hrecorded.mp (by simp [asserters, hwriters])).1
  rw [hw] at hmatched
  cases hmatched

end Tells

theorem tells_run (q : Qos) (es : List Event) : Tells ((new q).log es) ((new q).run es) := by
  induction es using List.reverseRecOn with
  | nil => exact tells_new q
  | append_singleton es e ih =>
    rw [log_concat, run_concat]
    exact ih.step e

/-- **The law of the instance records.** A record tells of the writers that assert the instance: the
matched ones from which a change of it was accepted since they were last added. The instance is in
the state of its latest change, or without writers if that change left it alive and all who asserted
it then were removed after it. Removing a writer notifies of the instances that are alive by it
alone, one notification for each, in the order of their keys, and tells how many they are. -/
theorem record_law (q : Qos) (es : List Event) :
    let r := (new q).run es
    let log := (new q).log es
    (∀ w, r.hasWriter w = true ↔ Matched log w) ∧
      (∀ key, (r.instances.get? key).isSome = true ↔ ∃ x ∈ log, x.Changes key) ∧
      (∀ key i, r.instances.get? key = some i →
        i.writers.Nodup ∧ (∀ w, w ∈ i.writers ↔ Asserting log key w) ∧
        (i.state = .alive → i.writers ≠ []) ∧ (i.state = .noWriters → i.writers = []) ∧
        ∃ before w c after, log = before ++ .accepted w c :: after ∧ c.key = key ∧
          (∀ x ∈ after, ¬x.Changes key) ∧ (i.state ≠ .noWriters → i.state = stateOf c.kind) ∧
          (i.state = .noWriters ↔ c.kind = .alive ∧
            ∀ v, Asserting (before ++ [.accepted w c]) key v → .removed v ∈ after)) ∧
      ∀ w, ∃ keys : List InstanceKey, keys.Pairwise (· < ·) ∧
        (∀ key, key ∈ keys ↔
          ∃ i, r.instances.get? key = some i ∧ i.state = .alive ∧ i.writers = [w]) ∧
        (r.removeWriter w).1.unread = r.unread ++ keys.map (.notification · .noWriters 0) ∧
        (r.removeWriter w).2 = if r.hasWriter w then some keys.length else none := by
  intro r log
  have h : Tells log r := tells_run q es
  refine ⟨h.matched, fun key => (h.recorded key).known, fun key i hi => ?_, fun w => ?_⟩
  · have hrecorded := h.recorded key
    rw [hi] at hrecorded
    have hwriters (w : Guid) : w ∈ i.writers ↔ Asserting log key w :=
      (hrecorded.writers w).trans h.proper.asserting_iff.symm
    exact ⟨hrecorded.nodup, hwriters, hrecorded.alive i rfl, hrecorded.forsaken i rfl, h.state hi⟩
  · refine ⟨r.orphans w, h.orphans_sorted w, fun key => h.mem_orphans, ?_⟩
    rw [removeWriter]
    split_ifs with hw
    · exact ⟨rfl, rfl⟩
    · rw [h.orphans_of_not_matched (Bool.not_eq_true _ ▸ hw)]
      exact ⟨(List.append_nil _).symm, rfl⟩

/-- A writer that comes back does not assert what it asserted before it left. -/
example :
    ((new .interop).run [.add ⟨1, 1⟩ true, .receive ⟨1, 1⟩ 1 ⟨1, "a", .alive, some .null⟩,
      .remove ⟨1, 1⟩, .add ⟨1, 1⟩ true]).instances.get? "a" = some ⟨.noWriters, []⟩ := by
  decide

end PubSub.ReaderCache
