import PubSub.Proofs.History.Run
import PubSub.Proofs.Loopback.Lane

/-!
The writers of a reader do not interfere. What a cache answers a writer is settled by the number
that it expects of this writer next, and that number is moved by the comings and goings and by the
changes of this writer alone. Two runs that one writer cannot tell apart by what it does itself
answer it alike, and accept the same of what it offers, whatever the others do in between.
-/

namespace PubSub

namespace ReaderCache

variable {r r' : ReaderCache} {w : Guid} {e : Event} {es es' : List Event}

/-! ### What is seen of one writer -/

/-- What one writer does: it comes, it goes, or it offers a change under a number. -/
inductive Mark where
  | came (reliable : Bool)
  | went
  | offered (n : Nat)
deriving DecidableEq

def Event.mark? (w : Guid) : Event → Option Mark
  | .add v reliable => if v = w then some (.came reliable) else none
  | .remove v => if v = w then some .went else none
  | .receive v n _ => if v = w then some (.offered n) else none
  | .take _ => none

def Event.offer? (w : Guid) : Event → Option Change
  | .receive v _ c => if v = w then some c else none
  | .add .. | .remove _ | .take _ => none

def Entry.from? (w : Guid) : Entry → Option Change
  | .accepted v c => if v = w then some c else none
  | .added _ | .removed _ => none

/-- Everything that a writer does in a run, with the numbers of its changes. -/
def marks (w : Guid) (es : List Event) : List Mark := es.filterMap (Event.mark? w)

def offers (w : Guid) (es : List Event) : List Change := es.filterMap (Event.offer? w)

def replies (w : Guid) (r : ReaderCache) : Event → List (Reception × Nat)
  | .receive v n c => if v = w then [(r.receive v n c).2] else []
  | .add .. | .remove _ | .take _ => []

/-- What a writer is answered in a run, one change after the other: what became of it, and the
number up to which nothing is missing. -/
def answers (w : Guid) (r : ReaderCache) (es : List Event) : List (Reception × Nat) :=
  along step (replies w) r es

def accepted (w : Guid) (r : ReaderCache) (es : List Event) : List Change :=
  (r.log es).filterMap (Entry.from? w)

/-! ### What is kept for one writer -/

def reply (o : Option WriterProxy) (n : Nat) : Reception × Nat :=
  match o with
  | none => (.unknownWriter, 0)
  | some q => (q.answer n, if q.Takes n then n else q.next - 1)

def Mark.step (reliable : Bool) (o : Option WriterProxy) : Mark → Option WriterProxy
  | .came b => some (o.getD ⟨b && reliable, 1⟩)
  | .went => none
  | .offered n => o.map (·.offered n)

def Mark.replies (o : Option WriterProxy) : Mark → List (Reception × Nat)
  | .offered n => [reply o n]
  | .came _ | .went => []

lemma receive_reply (r : ReaderCache) (w : Guid) (n : Nat) (c : Change) :
    (r.receive w n c).2 = reply (r.writers.get? w) n := by
  cases hq : r.writers.get? w with
  | none => rw [receive_of_none hq, reply]
  | some q =>
    refine Prod.ext (receive_answer hq n c) ?_
    by_cases ht : q.Takes n
    · simp only [receive_of_takes hq ht, reply, if_pos ht]
    · obtain ⟨e, -, -, he⟩ := receive_of_not_takes (c := c) hq ht
      simp only [he, reply, if_neg ht]

/-- **An event moves what is kept for a writer** only if it is an event of this writer. -/
lemma get?_step (r : ReaderCache) (w : Guid) (e : Event) :
    (r.step e).writers.get? w =
      ((e.mark? w).map (Mark.step r.qos.isReliable (r.writers.get? w))).getD
        (r.writers.get? w) := by
  cases e with
  | add v reliable =>
    rw [step, get?_addWriter, Event.mark?]
    by_cases hv : v = w
    · rw [if_pos hv.symm, if_pos hv, hv]
      rfl
    · rw [if_neg (Ne.symm hv), if_neg hv]
      rfl
  | remove v =>
    rw [step, get?_removeWriter, Event.mark?]
    by_cases hv : v = w
    · rw [if_pos hv.symm, if_pos hv]
      rfl
    · rw [if_neg (Ne.symm hv), if_neg hv]
      rfl
  | receive v n c =>
    rw [step, get?_receive, Event.mark?]
    by_cases hv : v = w
    · rw [if_pos hv.symm, if_pos hv, hv]
      rfl
    · rw [if_neg (Ne.symm hv), if_neg hv]
      rfl
  | take max => rfl

lemma replies_eq (r : ReaderCache) (w : Guid) (e : Event) :
    r.replies w e = ((e.mark? w).map (Mark.replies (r.writers.get? w))).getD [] := by
  cases e with
  | receive v n c =>
    rw [replies, Event.mark?]
    split_ifs with hv
    · rw [receive_reply, hv]
      rfl
    · rfl
  | add v reliable | remove v =>
    rw [replies, Event.mark?]
    split_ifs <;> rfl
  | take max => rfl

/-- What a writer is answered can be told from what is kept for it and from what it does. -/
lemma answers_eq (r : ReaderCache) (w : Guid) (es : List Event) :
    r.answers w es =
      along (Mark.step r.qos.isReliable) Mark.replies (r.writers.get? w) (marks w es) := by
  induction es generalizing r with
  | nil => rfl
  | cons e es ih =>
    have hrest : r.answers w (e :: es) = r.replies w e ++ (r.step e).answers w es := rfl
    rw [hrest, ih, qos_step, get?_step, replies_eq, marks, marks]
    cases hmark : e.mark? w with
    | none => rw [List.filterMap_cons_none hmark, Option.map_none, Option.getD_none,
        Option.map_none, Option.getD_none, List.nil_append]
    | some m => rw [List.filterMap_cons_some hmark, along, Option.map_some, Option.getD_some,
        Option.map_some, Option.getD_some]

/-- What is accepted from a writer are the offers that are answered so. -/
lemma accepted_eq (r : ReaderCache) (w : Guid) (es : List Event) :
    r.accepted w es =
      (((offers w es).zip (r.answers w es)).filter (·.2.1 = .accepted)).map (·.1) := by
  induction es generalizing r with
  | nil => rfl
  | cons e es ih =>
    have hanswers : r.answers w (e :: es) = r.replies w e ++ (r.step e).answers w es := rfl
    have haccepted : r.accepted w (e :: es) =
        (r.entries e).filterMap (Entry.from? w) ++ (r.step e).accepted w es :=
      List.filterMap_append
    rw [hanswers, haccepted, ih, offers, offers]
    cases e with
    | take max => rfl
    | add v reliable | remove v =>
      rw [entries]
      split_ifs <;> rfl
    | receive v n c =>
      rw [entries, replies]
      by_cases hv : v = w
      · have hoffer : (Event.receive v n c).offer? w = some c := if_pos hv
        rw [if_pos hv, List.filterMap_cons_some hoffer, List.singleton_append, List.zip_cons_cons]
        by_cases hacc : (r.receive v n c).2.1 = .accepted
        · rw [if_pos hacc, List.filter_cons_of_pos (by simpa using hacc)]
          simp [Entry.from?, hv]
        · rw [if_neg hacc, List.filter_cons_of_neg (by simpa using hacc)]
          rfl
      · have hoffer : (Event.receive v n c).offer? w = none := if_neg hv
        rw [if_neg hv, List.filterMap_cons_none hoffer]
        split_ifs <;> simp [Entry.from?, hv]

/-! ### Two runs -/

/-- Two caches that keep the same for a writer answer it alike for ever. -/
lemma answers_congr (hq : r.qos.isReliable = r'.qos.isReliable)
    (hw : r.writers.get? w = r'.writers.get? w) (hes : marks w es = marks w es') :
    r.answers w es = r'.answers w es' := by
  rw [answers_eq, answers_eq, hq, hw, hes]

/-- **Writers do not interfere.** Where a writer does the same in two runs, under the same numbers,
it is answered the same, change by change, and if it offers the same changes, the same ones are
accepted from it. -/
theorem no_interference (q : Qos) (w : Guid) (es es' : List Event)
    (h : marks w es = marks w es') :
    (new q).answers w es = (new q).answers w es' ∧
      (offers w es = offers w es' → (new q).accepted w es = (new q).accepted w es') := by
  have hanswers : (new q).answers w es = (new q).answers w es' := answers_congr rfl rfl h
  refine ⟨hanswers, fun hoffers => ?_⟩
  rw [accepted_eq, accepted_eq, hoffers, hanswers]

/-- A writer with a gap in its numbers, by itself. -/
def lone : List Event :=
  [.receive ⟨1, 1⟩ 1 ⟨1, "a", .alive, some (.str "x")⟩, .add ⟨1, 1⟩ true,
    .receive ⟨1, 1⟩ 1 ⟨1, "a", .alive, some (.str "x")⟩,
    .receive ⟨1, 1⟩ 3 ⟨3, "a", .disposed, none⟩, .remove ⟨1, 1⟩]

/-- The same writer beside another one, which changes the same instance until it leaves. -/
def beside : List Event :=
  [.add ⟨2, 1⟩ false, .receive ⟨1, 1⟩ 1 ⟨1, "a", .alive, some (.str "x")⟩,
    .receive ⟨2, 1⟩ 3 ⟨3, "a", .alive, some (.str "y")⟩, .add ⟨1, 1⟩ true, .take 9,
    .receive ⟨1, 1⟩ 1 ⟨1, "a", .alive, some (.str "x")⟩,
    .receive ⟨2, 1⟩ 4 ⟨4, "a", .disposed, none⟩, .remove ⟨2, 1⟩,
    .receive ⟨1, 1⟩ 3 ⟨3, "a", .disposed, none⟩, .remove ⟨1, 1⟩]

theorem no_interference_beside :
    marks ⟨1, 1⟩ lone = marks ⟨1, 1⟩ beside ∧
      (new .interop).answers ⟨1, 1⟩ beside =
        [(.unknownWriter, 0), (.accepted, 1), (.outOfOrder, 1)] ∧
      (new .interop).accepted ⟨1, 1⟩ beside = [⟨1, "a", .alive, some (.str "x")⟩] := by
  obtain ⟨hanswers, haccepted⟩ := no_interference .interop ⟨1, 1⟩ lone beside rfl
  exact ⟨rfl, hanswers ▸ rfl, (haccepted rfl) ▸ rfl⟩

end ReaderCache

end PubSub
