import PubSub.Proofs.History.Proxy

/-!
The history of a writer, as one reader sees it: the proxy that is found under the identity of
the reader, and what each operation addresses to it.
-/

namespace PubSub

def addressed (r : Guid) (out : List Outgoing) : List (Nat × Change) :=
  out.filterMap fun o => if o.reader = r then some (o.number, o.change) else none

@[simp] lemma addressed_nil (r : Guid) : addressed r [] = [] := rfl

lemma addressed_append (r : Guid) (xs ys : List Outgoing) :
    addressed r (xs ++ ys) = addressed r xs ++ addressed r ys := List.filterMap_append

lemma addressed_flatMap {α : Type} (r : Guid) (l : List α) (f : α → List Outgoing) :
    addressed r (l.flatMap f) = l.flatMap fun a => addressed r (f a) := by
  induction l with
  | nil => rfl
  | cons a l ih => simp [addressed_append, ih]

lemma addressed_to (r r' : Guid) (es : List (Nat × Change)) :
    addressed r' (es.map fun e => ⟨r, e.1, e.2⟩) = if r = r' then es else [] := by
  induction es with
  | nil => simp
  | cons e es ih =>
    rw [addressed] at ih ⊢
    rw [List.map_cons, List.filterMap_cons, ih]
    by_cases h : r = r' <;> simp [h]

def Ordered (cs : List Change) : Prop := (cs.map (·.sequence)).Pairwise (· < ·)

@[simp] lemma ordered_nil : Ordered [] := List.Pairwise.nil

lemma Ordered.snoc {cs : List Change} (h : Ordered cs) {c : Change}
    (hc : ∀ d ∈ cs, d.sequence < c.sequence) : Ordered (cs ++ [c]) := by
  rw [Ordered, List.map_append, List.pairwise_append]
  refine ⟨h, List.pairwise_singleton _ _, fun a ha b hb => ?_⟩
  obtain ⟨d, hd, rfl⟩ := List.mem_map.mp ha
  simp only [List.map_cons, List.map_nil, List.mem_singleton] at hb
  exact hb ▸ hc d hd

namespace WriterHistory

/-- No reader has two proxies, and what is retained are earlier changes in their order. -/
structure Wf (h : WriterHistory) : Prop where
  proxies : h.proxies.Distinct
  ordered : Ordered h.retained
  earlier : ∀ c ∈ h.retained, c.sequence < h.next

lemma wf_new (g : Guid) (q : Qos) : (WriterHistory.new g q).Wf :=
  ⟨Table.distinct_nil, ordered_nil, by simp [WriterHistory.new]⟩

variable {h : WriterHistory}

/-! ### Making changes -/

def made (h : WriterHistory) (key : InstanceKey) (kind : ChangeKind) (payload : Option Json) :
    Change := ⟨h.next, key, kind, payload⟩

lemma dropFirst_sublist (key : InstanceKey) (cs : List Change) :
    (dropFirst key cs).Sublist cs := by
  induction cs with
  | nil => exact List.Sublist.refl _
  | cons c cs ih =>
    unfold dropFirst
    split_ifs
    · exact List.sublist_cons_self _ _
    · exact ih.cons_cons _

lemma retain_sublist (depth : Option Nat) (cs : List Change) (c : Change) :
    (retain depth cs c).Sublist (cs ++ [c]) := by
  unfold retain
  cases depth with
  | none => exact List.Sublist.refl _
  | some n =>
    simp only
    split_ifs
    · exact dropFirst_sublist _ _
    · exact List.Sublist.refl _

variable (key : InstanceKey) (kind : ChangeKind) (payload : Option Json)

lemma get?_addChange (r : Guid) :
    (h.addChange key kind payload).1.proxies.get? r =
      (h.proxies.get? r).map (·.enqueue (h.made key kind payload)) :=
  Table.get?_map h.proxies (fun _ p => p.enqueue (h.made key kind payload)) r

lemma addressed_addChange (hw : h.Wf) (r : Guid) :
    addressed r (h.addChange key kind payload).2 =
      ((h.proxies.get? r).map fun p => [(p.next, h.made key kind payload)]).getD [] := by
  rw [← Table.flatMap_at hw.proxies r fun p => [(p.next, h.made key kind payload)]]
  simp only [addChange, addressed, List.filterMap_map]
  induction h.proxies with
  | nil => rfl
  | cons e t ih =>
    rw [List.filterMap_cons, ih, List.flatMap_cons]
    by_cases he : e.1 = r <;> simp [he, made]

lemma Wf.addChange (hw : h.Wf) : (h.addChange key kind payload).1.Wf := by
  have hsub : (h.addChange key kind payload).1.retained.Sublist
      (h.retained ++ [h.made key kind payload]) := by
    simp only [WriterHistory.addChange]
    split_ifs
    · exact retain_sublist _ _ _
    · exact List.sublist_append_left _ _
  refine ⟨hw.proxies.map fun _ p => p.enqueue (h.made key kind payload),
    List.Pairwise.sublist (hsub.map _) (hw.ordered.snoc hw.earlier), fun c hc => ?_⟩
  show c.sequence < h.next + 1
  rcases List.mem_append.mp (hsub.subset hc) with hc | hc
  · have := hw.earlier c hc
    omega
  · simp_all [made]

/-! ### Readers that come and go -/

/-- The changes that a reader of that quality of service gets when it is matched. -/
def backlog (h : WriterHistory) (q : Qos) : List Change :=
  if q.durability = .transientLocal then h.retained else []

lemma backlog_subset {q : Qos} {c : Change} (hc : c ∈ h.backlog q) : c ∈ h.retained := by
  unfold backlog at hc
  split_ifs at hc
  · exact hc
  · simp at hc

lemma Wf.backlog (hw : h.Wf) (q : Qos) : Ordered (h.backlog q) := by
  unfold WriterHistory.backlog
  split_ifs
  · exact hw.ordered
  · exact ordered_nil

lemma foldl_replay (r : Guid) (cs : List Change) (p : ReaderProxy) (out : List Outgoing) :
    cs.foldl (fun (x : ReaderProxy × List Outgoing) c =>
        (x.1.enqueue c, x.2 ++ [⟨r, x.1.next, c⟩])) (p, out) =
      (cs.foldl ReaderProxy.enqueue p,
        out ++ (numbered p.next cs).map fun e => ⟨r, e.1, e.2⟩) := by
  induction cs generalizing p out with
  | nil => simp [numbered]
  | cons c cs ih =>
    rw [List.foldl_cons, ih, numbered]
    simp [ReaderProxy.enqueue]

lemma replay_eq (r : Guid) (q : Qos) :
    h.replay r q = (ReaderProxy.replayed (q.isReliable && h.qos.isReliable) (h.backlog q),
      (numbered 1 (h.backlog q)).map fun e => ⟨r, e.1, e.2⟩) := by
  have := foldl_replay r (h.backlog q) (.new (q.isReliable && h.qos.isReliable)) []
  simpa [replay, backlog, ReaderProxy.replayed, ReaderProxy.new] using this

lemma matchReader_of_some {r : Guid} {q : Qos} {p : ReaderProxy} (hp : h.proxies.get? r = some p) :
    h.matchReader r q = (h, []) := by
  have : h.proxies.has r = true := Table.has_eq_true.mpr ⟨p, hp⟩
  simp [matchReader, this]

lemma matchReader_of_none {r : Guid} {q : Qos} (hn : h.proxies.get? r = none) :
    h.matchReader r q =
      ({ h with
          proxies := h.proxies.insertNew Guid.before r
            (ReaderProxy.replayed (q.isReliable && h.qos.isReliable) (h.backlog q)) },
        (numbered 1 (h.backlog q)).map fun e => ⟨r, e.1, e.2⟩) := by
  have : h.proxies.has r = false := Table.has_eq_false.mpr hn
  simp [matchReader, this, replay_eq]

lemma get?_matchReader_of_ne {r r' : Guid} (q : Qos) (hne : r' ≠ r) :
    (h.matchReader r q).1.proxies.get? r' = h.proxies.get? r' := by
  cases hp : h.proxies.get? r with
  | some p => rw [matchReader_of_some hp]
  | none =>
    rw [matchReader_of_none hp]
    simp [Table.get?_insertNew _ _ _ _ _ hp, hne]

lemma get?_matchReader_self {r : Guid} (q : Qos) (hn : h.proxies.get? r = none) :
    (h.matchReader r q).1.proxies.get? r =
      some (ReaderProxy.replayed (q.isReliable && h.qos.isReliable) (h.backlog q)) := by
  rw [matchReader_of_none hn]
  simp [Table.get?_insertNew _ _ _ _ _ hn]

lemma addressed_matchReader_of_ne {r r' : Guid} (q : Qos) (hne : r' ≠ r) :
    addressed r' (h.matchReader r q).2 = [] := by
  cases hp : h.proxies.get? r with
  | some p => rw [matchReader_of_some hp, addressed_nil]
  | none => rw [matchReader_of_none hp, addressed_to, if_neg hne.symm]

lemma addressed_matchReader_self {r : Guid} (q : Qos) (hn : h.proxies.get? r = none) :
    addressed r (h.matchReader r q).2 = numbered 1 (h.backlog q) := by
  rw [matchReader_of_none hn, addressed_to, if_pos rfl]

lemma retained_of_matchReader {r : Guid} {q : Qos} {o : Outgoing}
    (ho : o ∈ (h.matchReader r q).2) : o.change ∈ h.retained := by
  cases hp : h.proxies.get? r with
  | some p =>
    rw [matchReader_of_some hp] at ho
    simp at ho
  | none =>
    rw [matchReader_of_none hp] at ho
    obtain ⟨⟨n, c⟩, he, rfl⟩ := List.mem_map.mp ho
    obtain ⟨-, hget⟩ := mem_numbered.mp he
    exact backlog_subset (List.mem_of_getElem? hget)

lemma matchReader_next (r : Guid) (q : Qos) : (h.matchReader r q).1.next = h.next := by
  unfold matchReader
  split_ifs <;> rfl

lemma matchReader_guid (r : Guid) (q : Qos) : (h.matchReader r q).1.guid = h.guid := by
  unfold matchReader
  split_ifs <;> rfl

lemma matchReader_qos (r : Guid) (q : Qos) : (h.matchReader r q).1.qos = h.qos := by
  unfold matchReader
  split_ifs <;> rfl

lemma matchReader_retained (r : Guid) (q : Qos) :
    (h.matchReader r q).1.retained = h.retained := by
  unfold matchReader
  split_ifs <;> rfl

lemma Wf.matchReader (hw : h.Wf) (r : Guid) (q : Qos) : (h.matchReader r q).1.Wf := by
  refine ⟨?_, ?_, ?_⟩
  · cases hp : h.proxies.get? r with
    | some p => rw [matchReader_of_some hp]; exact hw.proxies
    | none => rw [matchReader_of_none hp]; exact hw.proxies.insertNew _ hp _
  · rw [matchReader_retained]; exact hw.ordered
  · rw [matchReader_retained, matchReader_next]; exact hw.earlier

lemma get?_unmatchReader (r r' : Guid) :
    (h.unmatchReader r).proxies.get? r' = if r' = r then none else h.proxies.get? r' :=
  Table.get?_erase _ _ _

lemma Wf.unmatchReader (hw : h.Wf) (r : Guid) : (h.unmatchReader r).Wf :=
  ⟨hw.proxies.erase r, hw.ordered, hw.earlier⟩

/-! ### Acknowledgments -/

lemma get?_acknowledge (r r' : Guid) (a : Nat) :
    (h.acknowledge r a).1.proxies.get? r' =
      if r' = r then (h.proxies.get? r').map (·.acknowledge a) else h.proxies.get? r' :=
  Table.get?_adjust h.proxies r r' (·.acknowledge a)

lemma Wf.acknowledge (hw : h.Wf) (r : Guid) (a : Nat) : (h.acknowledge r a).1.Wf :=
  ⟨hw.proxies.adjust r (·.acknowledge a), hw.ordered, hw.earlier⟩

lemma addressed_pending (hw : h.Wf) (r : Guid) :
    addressed r h.pending = ((h.proxies.get? r).map (·.pending)).getD [] := by
  rw [← Table.flatMap_at hw.proxies r (·.pending), pending, addressed_flatMap]
  congr 1
  funext e
  exact addressed_to e.1 r e.2.pending

/-! ### What waits for an acknowledgment -/

lemma allAcknowledged_iff :
    h.allAcknowledged = true ↔ ∀ e ∈ h.proxies, e.2.pending = [] := by
  rw [allAcknowledged, decide_eq_true_iff, unacknowledged, List.length_eq_zero_iff, pending,
    List.flatMap_eq_nil_iff]
  simp only [List.map_eq_nil_iff]

/-- A change leaves nothing acknowledged that was not. -/
lemma allAcknowledged_of_addChange
    (ha : (h.addChange key kind payload).1.allAcknowledged = true) : h.allAcknowledged = true := by
  rw [allAcknowledged_iff] at ha ⊢
  intro e he
  have hnil := ha _ (List.mem_map_of_mem he)
  unfold ReaderProxy.enqueue at hnil
  split_ifs at hnil
  · simp at hnil
  · exact hnil

lemma allAcknowledged_of_matchReader {r : Guid} {q : Qos}
    (ha : (h.matchReader r q).1.allAcknowledged = true) : h.allAcknowledged = true := by
  cases hp : h.proxies.get? r with
  | some p => rwa [matchReader_of_some hp] at ha
  | none =>
    rw [matchReader_of_none hp, allAcknowledged_iff] at ha
    refine allAcknowledged_iff.mpr fun e he => ha e ?_
    exact (Table.insertNew_perm _ _ _ _).mem_iff.mpr (List.mem_cons_of_mem _ he)

/-- Nothing becomes pending when a reader goes. -/
lemma allAcknowledged_unmatchReader (ha : h.allAcknowledged = true) (r : Guid) :
    (h.unmatchReader r).allAcknowledged = true :=
  allAcknowledged_iff.mpr fun e he => allAcknowledged_iff.mp ha e (List.mem_filter.mp he).1

lemma allAcknowledged_acknowledge (ha : h.allAcknowledged = true) (r : Guid) (a : Nat) :
    (h.acknowledge r a).1.allAcknowledged = true := by
  refine allAcknowledged_iff.mpr fun e he => ?_
  obtain ⟨e', he', rfl⟩ := List.mem_map.mp he
  have hnil := allAcknowledged_iff.mp ha e' he'
  split_ifs
  · simp [ReaderProxy.acknowledge, hnil]
  · exact hnil

/-! ### Whom a writer addresses -/

lemma isMatched_of_mem {e : Guid × ReaderProxy} (he : e ∈ h.proxies) : h.isMatched e.1 = true :=
  Table.has_iff_mem_keys.mpr (Table.mem_keys_of_mem he)

lemma isMatched_addChange (r : Guid) :
    (h.addChange key kind payload).1.isMatched r = h.isMatched r := by
  rw [isMatched, Table.has, get?_addChange, Option.isSome_map]
  rfl

lemma isMatched_matchReader (r : Guid) (q : Qos) (r' : Guid) :
    (h.matchReader r q).1.isMatched r' = true ↔ r' = r ∨ h.isMatched r' = true := by
  by_cases hne : r' = r
  · subst hne
    cases hp : h.proxies.get? r' with
    | some p => simp [matchReader_of_some hp, isMatched, Table.has, hp]
    | none => simp [isMatched, Table.has, get?_matchReader_self q hp]
  · simp [isMatched, Table.has, get?_matchReader_of_ne q hne, hne]

lemma isMatched_of_unmatchReader {r r' : Guid} (hm : (h.unmatchReader r).isMatched r' = true) :
    h.isMatched r' = true := by
  rw [isMatched, Table.has, get?_unmatchReader] at hm
  split_ifs at hm
  · simp at hm
  · exact hm

variable {key kind payload} in
lemma isMatched_of_addChange {o : Outgoing} (ho : o ∈ (h.addChange key kind payload).2) :
    h.isMatched o.reader = true := by
  obtain ⟨e, he, rfl⟩ := List.mem_map.mp ho
  exact isMatched_of_mem he

lemma isMatched_of_pending {o : Outgoing} (ho : o ∈ h.pending) : h.isMatched o.reader = true := by
  obtain ⟨e, he, hoe⟩ := List.mem_flatMap.mp ho
  obtain ⟨i, -, rfl⟩ := List.mem_map.mp hoe
  exact isMatched_of_mem he

lemma reader_of_matchReader {r : Guid} {q : Qos} {o : Outgoing}
    (ho : o ∈ (h.matchReader r q).2) : o.reader = r := by
  cases hp : h.proxies.get? r with
  | some p =>
    rw [matchReader_of_some hp] at ho
    simp at ho
  | none =>
    rw [matchReader_of_none hp] at ho
    obtain ⟨e, -, rfl⟩ := List.mem_map.mp ho
    rfl

end WriterHistory

end PubSub
