import PubSub.Proofs.Udp.Arrival
import PubSub.Proofs.Udp.Peers

/-!
Whom the endpoints of a participant have, and what is announced to it. Matches are looked at anew
only when something seems to have changed; whatever happens in between, every open endpoint has
exactly the announced peers that it can have, and the ones that it cannot have are refused once.
-/

namespace PubSub.Udp

def Face.shut (b : Bool) (f : Face) : Face := { f with isOpen := f.isOpen && b }

namespace Face

@[simp] lemma shut_true (f : Face) : f.shut true = f := by simp [shut]

@[simp] lemma shut_shut (b b' : Bool) (f : Face) : (f.shut b).shut b' = f.shut (b && b') := by
  simp [shut, Bool.and_assoc]

lemma shut_of_closed {f : Face} (h : f.isOpen = false) (b : Bool) : f.shut b = f := by
  rw [shut, h, Bool.false_and, ← h]

lemma Counted.shut {f : Face} (h : f.Counted) (b : Bool) : (f.shut b).Counted :=
  ⟨h.peers, h.current, h.refused, h.refusals⟩

end Face

lemma rel_right {α β : Type} {R : α → β → Prop} {o : Option α} {b : β}
    (h : Option.Rel R o (some b)) : ∃ a, o = some a ∧ R a b := by
  cases h with
  | some h => exact ⟨_, rfl, h⟩

lemma rel_left {α β : Type} {R : α → β → Prop} {a : α} {o : Option β}
    (h : Option.Rel R (some a) o) : ∃ b, o = some b ∧ R a b := by
  cases h with
  | some h => exact ⟨_, rfl, h⟩

namespace Node

variable {n m n' : Node} {kind : EndpointKind} {g r : Guid} {f f' : Face}

def face? (n : Node) (kind : EndpointKind) (g : Guid) : Option Face :=
  match kind with
  | .writer => (n.writers.get? g).map (·.face)
  | .reader => (n.readers.get? g).map (·.face)

/-- The remote endpoints that an endpoint could have as peers, were it not for their quality of
service. -/
def offered (n : Node) (kind : EndpointKind) (f : Face) : List Announcement :=
  (n.candidates kind.counterpart f.topic f.typeName).map (·.endpoint)

/-- What a remote participant has announced last, as far as it is known. -/
def announcedBy (n : Node) (p : Nat) : List Announcement :=
  ((n.remotes.get? p).map (·.endpoints)).getD []

lemma mem_offered (h : n.remotes.Distinct) {a : Announcement} :
    a ∈ n.offered kind f ↔ (∃ p, a ∈ n.announcedBy p) ∧
      a.kind = kind.counterpart ∧ a.topic = f.topic ∧ a.typeName = f.typeName := by
  simp only [offered, candidates, List.mem_map, List.mem_flatMap, List.mem_filter, Table.values,
    Bool.and_eq_true, decide_eq_true_eq, announcedBy]
  constructor
  · rintro ⟨c, ⟨x, ⟨⟨p, x⟩, hx, rfl⟩, a, ⟨ha, ⟨hk, ht⟩, hn⟩, rfl⟩, rfl⟩
    refine ⟨⟨p, ?_⟩, hk, ht, hn⟩
    rw [Table.get?_of_mem h hx]
    exact ha
  · rintro ⟨⟨p, ha⟩, hk, ht, hn⟩
    cases hx : n.remotes.get? p with
    | none => simp [hx] at ha
    | some x =>
      rw [hx] at ha
      exact ⟨⟨a, x.address⟩,
        ⟨x, ⟨(p, x), Table.mem_of_get? hx, rfl⟩, a, ⟨ha, ⟨hk, ht⟩, hn⟩, rfl⟩, rfl⟩

/-- An endpoint has exactly those of the announced peers that it can have, and it has refused all
the others of them. -/
structure Meets (n : Node) (kind : EndpointKind) (f : Face) : Prop where
  peers : ∀ g, g ∈ f.peers ↔
    ∃ a ∈ n.offered kind f, a.guid = g ∧ objection? kind f.qos a.qos = none
  refused : ∀ a ∈ n.offered kind f, objection? kind f.qos a.qos ≠ none → a.guid ∈ f.refused

/-- All endpoints count their peers, and the open ones have those that they should have. -/
structure Exact (n : Node) : Prop where
  counted : ∀ kind g f, n.face? kind g = some f → f.Counted
  meets : ∀ kind g f, n.face? kind g = some f → f.isOpen = true → n.Meets kind f

def Refused (n : Node) (kind : EndpointKind) (g r : Guid) : Prop :=
  ∃ f, n.face? kind g = some f ∧ r ∈ f.refused

def Refusing (n : Node) (kind : EndpointKind) (g r : Guid) : Prop :=
  ∃ f, n.face? kind g = some f ∧ f.isOpen = true ∧
    ∃ a ∈ n.offered kind f, a.guid = r ∧ objection? kind f.qos a.qos ≠ none

lemma Exact.refused_of_refusing (h : n.Exact) (hr : n.Refusing kind g r) : n.Refused kind g r := by
  obtain ⟨f, hf, ho, a, ha, rfl, hobject⟩ := hr
  exact ⟨f, hf, (h.meets kind g f hf ho).refused a ha hobject⟩

/-- Something has happened, after which the endpoints are in order, and have refused those that
they had refused before and those that they cannot have now. -/
structure Kept (n n' : Node) : Prop where
  exact : n'.Exact
  refused : ∀ kind g r, n'.Refused kind g r ↔ n.Refused kind g r ∨ n'.Refusing kind g r

/-! ### Reconciliation -/

/-- What a reconciliation makes of an endpoint: an open one is brought in line with what is
announced, and a closed one stays as it is. -/
inductive Settled (n : Node) (kind : EndpointKind) (f : Face) : Face → Prop
  | aligned {f' : Face} (ho : f.isOpen = true) (h : Face.Aligned kind (n.offered kind f) f f') :
    Settled n kind f f'
  | closed (hc : f.isOpen = false) : Settled n kind f f

namespace Settled

lemma counted (h : Settled n kind f f') (hf : f.Counted) : f'.Counted := by
  cases h with
  | aligned ho h => exact h.counted
  | closed hc => exact hf

lemma isOpen (h : Settled n kind f f') : f'.isOpen = f.isOpen := by
  cases h with
  | aligned ho h => rw [h.same]
  | closed hc => rfl

lemma qos (h : Settled n kind f f') : f'.qos = f.qos := by
  cases h with
  | aligned ho h => rw [h.same]
  | closed hc => rfl

lemma offered (h : Settled n kind f f') : n.reconciled.offered kind f' = n.offered kind f := by
  cases h with
  | aligned ho h =>
    rw [h.same]
    rfl
  | closed hc => rfl

lemma refused_iff (h : Settled n kind f f') :
    r ∈ f'.refused ↔ r ∈ f.refused ∨ f'.isOpen = true ∧
      ∃ a ∈ n.reconciled.offered kind f', a.guid = r ∧ objection? kind f'.qos a.qos ≠ none := by
  rw [h.isOpen, h.qos, h.offered]
  cases h with
  | aligned ho h =>
    rw [h.refused]
    simp only [ho, true_and]
  | closed hc => simp [hc]

lemma meets (h : Settled n kind f f') (ho : f'.isOpen = true) : n.reconciled.Meets kind f' := by
  refine ⟨fun g => ?_, fun a ha hobject => h.refused_iff.mpr (.inr ⟨ho, a, ha, rfl, hobject⟩)⟩
  rw [h.qos, h.offered]
  rw [h.isOpen] at ho
  cases h with
  | aligned _ h => exact h.peers g
  | closed hc => exact absurd ho (by simp [hc])

end Settled

lemma settled_reconciled (h : ∀ f, n.face? kind g = some f → f.Counted) :
    Option.Rel (Settled n kind) (n.face? kind g) (n.reconciled.face? kind g) := by
  cases kind with
  | writer =>
    simp only [face?, n.get?_reconciled g] at h ⊢
    cases hx : n.writers.get? g with
    | none => exact .none
    | some x =>
      rw [hx] at h
      refine .some ?_
      simp only
      split_ifs with ho
      · exact .aligned ho (n.aligned_reconcileWriter (h _ rfl))
      · exact .closed (Bool.not_eq_true _ ▸ ho)
  | reader =>
    simp only [face?, n.get?_reconciled_reader g] at h ⊢
    cases hy : n.readers.get? g with
    | none => exact .none
    | some y =>
      rw [hy] at h
      refine .some ?_
      simp only
      split_ifs with ho
      · exact .aligned ho (n.aligned_reconcileReader (h _ rfl))
      · exact .closed (Bool.not_eq_true _ ▸ ho)

/-- An endpoint of the reconciled participant was there before. -/
lemma settled_of_reconciled (h : ∀ f, n.face? kind g = some f → f.Counted)
    (hf' : n.reconciled.face? kind g = some f') :
    ∃ f, n.face? kind g = some f ∧ Settled n kind f f' :=
  rel_right (hf' ▸ settled_reconciled h)

/-- **A reconciliation puts the open endpoints in order.** -/
theorem kept_reconciled (h : ∀ kind g f, n.face? kind g = some f → f.Counted) :
    Kept n n.reconciled := by
  have hexact : n.reconciled.Exact := by
    refine ⟨fun kind g f' hf' => ?_, fun kind g f' hf' ho => ?_⟩
    · obtain ⟨f, hf, hsettled⟩ := settled_of_reconciled (h kind g) hf'
      exact hsettled.counted (h kind g f hf)
    · obtain ⟨f, hf, hsettled⟩ := settled_of_reconciled (h kind g) hf'
      exact hsettled.meets ho
  refine ⟨hexact, fun kind g r => ⟨?_, ?_⟩⟩
  · rintro ⟨f', hf', hr⟩
    obtain ⟨f, hf, hsettled⟩ := settled_of_reconciled (h kind g) hf'
    rcases hsettled.refused_iff.mp hr with hr | hr
    · exact .inl ⟨f, hf, hr⟩
    · exact .inr ⟨f', hf', hr⟩
  · rintro (⟨f, hf, hr⟩ | hr)
    · obtain ⟨f', hf', hsettled⟩ := rel_left (hf ▸ settled_reconciled (h kind g))
      exact ⟨f', hf', hsettled.refused_iff.mpr (.inl hr)⟩
    · exact hexact.refused_of_refusing hr

/-! ### What leaves the matches alone -/

structure Quiet (n m : Node) : Prop where
  faces : ∀ kind g, ∃ b, m.face? kind g = (n.face? kind g).map (Face.shut b)
  offered : ∀ kind f a, a ∈ m.offered kind f ↔ a ∈ n.offered kind f

lemma quiet_of_same (hfaces : ∀ kind g, m.face? kind g = n.face? kind g)
    (hoffered : ∀ kind f a, a ∈ m.offered kind f ↔ a ∈ n.offered kind f) : Quiet n m :=
  ⟨fun kind g => ⟨true, by rw [hfaces]; cases n.face? kind g <;> simp⟩, hoffered⟩

lemma Quiet.exists_face (hq : Quiet n m) (hf' : m.face? kind g = some f') :
    ∃ b f, n.face? kind g = some f ∧ f' = f.shut b := by
  obtain ⟨b, hb⟩ := hq.faces kind g
  rw [hb] at hf'
  obtain ⟨f, hf, rfl⟩ := Option.map_eq_some_iff.mp hf'
  exact ⟨b, f, hf, rfl⟩

lemma Quiet.refused_iff (hq : Quiet n m) : m.Refused kind g r ↔ n.Refused kind g r := by
  constructor
  · rintro ⟨f', hf', hr⟩
    obtain ⟨b, f, hf, rfl⟩ := hq.exists_face hf'
    exact ⟨f, hf, hr⟩
  · rintro ⟨f, hf, hr⟩
    obtain ⟨b, hb⟩ := hq.faces kind g
    exact ⟨f.shut b, by rw [hb, hf]; rfl, hr⟩

lemma Quiet.refusing (hq : Quiet n m) (h : m.Refusing kind g r) : n.Refusing kind g r := by
  obtain ⟨f', hf', ho, a, ha, hguid, hobject⟩ := h
  obtain ⟨b, f, hf, rfl⟩ := hq.exists_face hf'
  exact ⟨f, hf, (Bool.and_eq_true_iff.mp ho).1, a, (hq.offered kind _ a).mp ha, hguid, hobject⟩

lemma Quiet.kept (hq : Quiet n m) (h : n.Exact) : Kept n m := by
  refine ⟨⟨fun kind g f' hf' => ?_, fun kind g f' hf' ho => ?_⟩, fun kind g r => ?_⟩
  · obtain ⟨b, f, hf, rfl⟩ := hq.exists_face hf'
    exact (h.counted kind g f hf).shut b
  · obtain ⟨b, f, hf, rfl⟩ := hq.exists_face hf'
    have hmeets := h.meets kind g f hf (Bool.and_eq_true_iff.mp ho).1
    refine ⟨fun g' => (hmeets.peers g').trans ?_, fun a ha => ?_⟩
    · simp only [hq.offered]
      rfl
    · exact hmeets.refused a ((hq.offered kind _ a).mp ha)
  · rw [hq.refused_iff]
    refine ⟨.inl, ?_⟩
    rintro (hr | hr)
    · exact hr
    · exact h.refused_of_refusing (hq.refusing hr)

lemma Quiet.andKept (hq : Quiet n m) (hk : Kept m n') : Kept n n' :=
  ⟨hk.exact, fun kind g r => by rw [hk.refused, hq.refused_iff]⟩

/-- Matches are looked at anew once the announcements have changed, or an endpoint has come that
has met nobody yet. -/
lemma Exact.kept_reconciled (h : n.Exact)
    (hfaces : ∀ kind g, m.face? kind g = n.face? kind g ∨ n.face? kind g = none ∧
      ∃ f, m.face? kind g = some f ∧ f.Counted ∧ f.refused = []) : Kept n m.reconciled := by
  have hkept : Kept m m.reconciled := by
    refine Node.kept_reconciled fun kind g f hf => ?_
    rcases hfaces kind g with hsame | ⟨-, f', hf', hcounted, -⟩
    · exact h.counted kind g f (hsame ▸ hf)
    · obtain rfl := Option.some.inj (hf'.symm.trans hf)
      exact hcounted
  have hrefused : ∀ kind g r, m.Refused kind g r ↔ n.Refused kind g r := by
    intro kind g r
    rcases hfaces kind g with hsame | ⟨hnone, f', hf', -, hempty⟩
    · rw [Refused, Refused, hsame]
    · constructor
      · rintro ⟨f, hf, hr⟩
        obtain rfl := Option.some.inj (hf'.symm.trans hf)
        rw [hempty] at hr
        simp at hr
      · rintro ⟨f, hf, -⟩
        rw [hnone] at hf
        simp at hf
  refine ⟨hkept.exact, fun kind g r => ?_⟩
  rw [hkept.refused, hrefused]

lemma Quiet.trans {m' : Node} (h : Quiet n m) (h' : Quiet m m') : Quiet n m' := by
  refine ⟨fun kind g => ?_, fun kind f a => (h'.offered kind f a).trans (h.offered kind f a)⟩
  obtain ⟨b, hb⟩ := h.faces kind g
  obtain ⟨b', hb'⟩ := h'.faces kind g
  refine ⟨b && b', ?_⟩
  rw [hb', hb, Option.map_map]
  refine congrArg (Option.map · _) (funext fun f => ?_)
  exact f.shut_shut b b'

lemma Quiet.refl (n : Node) : Quiet n n := quiet_of_same (fun _ _ => rfl) fun _ _ _ => Iff.rfl

lemma face?_adjustWriter {w : Guid} {c : LinkedWriter → LinkedWriter}
    (hc : ∀ x, n.writers.get? w = some x → (c x).face = x.face) (kind : EndpointKind) (g : Guid) :
    (n.adjustWriter w c).face? kind g = n.face? kind g := by
  cases kind with
  | writer =>
    simp only [face?, get?_adjustWriter]
    split_ifs with hw
    · subst hw
      cases hx : n.writers.get? g with
      | none => rfl
      | some x => exact congrArg some (hc x hx)
    · rfl
  | reader => rfl

lemma face?_adjustReader {r : Guid} {c : LinkedReader → LinkedReader}
    (hc : ∀ y, n.readers.get? r = some y → (c y).face = y.face) (kind : EndpointKind) (g : Guid) :
    (n.adjustReader r c).face? kind g = n.face? kind g := by
  cases kind with
  | writer => rfl
  | reader =>
    simp only [face?, get?_adjustReader]
    split_ifs with hr
    · subst hr
      cases hy : n.readers.get? g with
      | none => rfl
      | some y => exact congrArg some (hc y hy)
    · rfl

lemma quiet_adjustWriter {w : Guid} {c : LinkedWriter → LinkedWriter}
    (hc : ∀ x, n.writers.get? w = some x → (c x).face = x.face) : Quiet n (n.adjustWriter w c) :=
  quiet_of_same (face?_adjustWriter hc) fun _ _ _ => Iff.rfl

lemma quiet_adjustReader {r : Guid} {c : LinkedReader → LinkedReader}
    (hc : ∀ y, n.readers.get? r = some y → (c y).face = y.face) : Quiet n (n.adjustReader r c) :=
  quiet_of_same (face?_adjustReader hc) fun _ _ _ => Iff.rfl

/-! ### What an application does -/

lemma face_look (l : Look) (x : LinkedWriter) :
    LinkedWriter.face { x with writer := l.writer x.writer } = x.face := by
  cases l <;> rfl

lemma faceOf_look (l : Look) (y : Reader) (refused : List Guid) :
    faceOf (l.reader y) refused = faceOf y refused := by
  cases l with
  | take max =>
    simp only [Look.reader, Reader.take]
    split_ifs <;> rfl
  | matched => rfl
  | incompatible => rfl
  | condition c => rfl

lemma face_made (x : LinkedWriter) (key : InstanceKey) (kind : ChangeKind)
    (payload : Option Json) :
    LinkedWriter.face { x with writer := { x.writer with
      history := (x.writer.history.addChange key kind payload).1 }.notePending } = x.face := by
  unfold Writer.notePending
  split_ifs <;> rfl

lemma face?_submit (h : n.Wf) {w : Guid} {s : Submission} {acted : Node × List Dispatch}
    (hok : n.submit w s = .ok acted) (kind : EndpointKind) (g : Guid) :
    acted.1.face? kind g = n.face? kind g := by
  obtain ⟨x, hx⟩ := get?_of_submit hok
  obtain ⟨-, rfl⟩ := submit_shipped hok hx
  refine face?_adjustWriter (fun x' hx' => ?_) kind g
  have hguid := congrArg WriterHistory.guid (notePending_history { x.writer with
    history := (x.writer.history.addChange (s.change x.writer.history.next).key
      (s.change x.writer.history.next).kind (s.change x.writer.history.next).payload).1 })
  rw [Writer.guid, hguid] at hx'
  have hsame : x' = x :=
    Option.some.inj (hx'.symm.trans ((congrArg n.writers.get? (h.writer w x hx).1).trans hx))
  rw [hsame]
  exact face_made x _ _ _

lemma submit_rest {w : Guid} {s : Submission} {acted : Node × List Dispatch}
    (hok : n.submit w s = .ok acted) :
    acted.1.remotes = n.remotes ∧ acted.1.participant = n.participant ∧
      acted.1.readers = n.readers := by
  obtain ⟨x, hx⟩ := get?_of_submit hok
  obtain ⟨-, rfl⟩ := submit_shipped hok hx
  exact ⟨rfl, rfl, rfl⟩

/-- Whatever stands under an identity is closed together. -/
lemma face?_close (n : Node) (g g' : Guid) (kind : EndpointKind) :
    (n.close g).1.face? kind g' = (n.face? kind g').map (Face.shut (g' ≠ g)) := by
  by_cases hg : g' = g
  · subst hg
    simp only [ne_eq, not_true_eq_false, decide_false]
    unfold close
    split_ifs with ho
    · cases kind with
      | writer =>
        simp only [announced, face?, adjustReader, get?_adjustWriter, if_true, Option.map_map]
        refine congrArg (Option.map · _) (funext fun x => ?_)
        simp [Face.shut, LinkedWriter.face, Writer.qos]
      | reader =>
        simp only [announced, face?, get?_adjustReader, if_true, Option.map_map]
        refine congrArg (Option.map · _) (funext fun y => ?_)
        simp [Face.shut, LinkedReader.face, faceOf, Reader.qos]
    · -- nothing under the identity is open, so that there is nothing to close
      have hclosed : ∀ f, n.face? kind g' = some f → f.isOpen = false := by
        intro f hf
        simp only [isOpen, Bool.or_eq_true, not_or] at ho
        cases kind with
        | writer =>
          obtain ⟨x, hx, rfl⟩ := Option.map_eq_some_iff.mp hf
          simpa [hx, LinkedWriter.face] using ho.1
        | reader =>
          obtain ⟨y, hy, rfl⟩ := Option.map_eq_some_iff.mp hf
          simpa [hy, LinkedReader.face, faceOf] using ho.2
      cases hf : n.face? kind g' with
      | none => rfl
      | some f => rw [Option.map_some, Face.shut_of_closed (hclosed f hf)]
  · simp only [ne_eq, hg, not_false_eq_true, decide_true]
    have hsame : (n.close g).1.face? kind g' = n.face? kind g' := by
      unfold close
      split_ifs
      · cases kind with
        | writer => simp [announced, face?, adjustReader, get?_adjustWriter, hg]
        | reader => simp [announced, face?, get?_adjustReader, hg, adjustWriter]
      · rfl
    rw [hsame]
    cases n.face? kind g' <;> simp

lemma close_rest (n : Node) (g : Guid) :
    (n.close g).1.remotes = n.remotes ∧ (n.close g).1.participant = n.participant := by
  unfold close
  split_ifs <;> exact ⟨rfl, rfl⟩

lemma foldl_close (gs : List Guid) (n : Node) (out : List Dispatch) :
    let s := gs.foldl (fun (s : Node × List Dispatch) g =>
      ((s.1.close g).1, s.2 ++ (s.1.close g).2)) (n, out)
    s.1.remotes = n.remotes ∧ s.1.participant = n.participant ∧
      ∀ kind g, s.1.face? kind g = (n.face? kind g).map (Face.shut (g ∉ gs)) := by
  induction gs generalizing n out with
  | nil =>
    refine ⟨rfl, rfl, fun kind g => ?_⟩
    cases hf : n.face? kind g <;> simp [hf]
  | cons g gs ih =>
    obtain ⟨hremotes, hparticipant, hfaces⟩ := ih (n.close g).1 (out ++ (n.close g).2)
    refine ⟨hremotes.trans (n.close_rest g).1, hparticipant.trans (n.close_rest g).2,
      fun kind g' => (hfaces kind g').trans ?_⟩
    rw [face?_close, Option.map_map]
    refine congrArg (Option.map · _) (funext fun f => ?_)
    simp [Face.shut_shut, List.mem_cons, not_or, Bool.decide_and]

/-- A participant that is deleted closes all its endpoints. -/
lemma delete_spec (n : Node) :
    n.delete.1.remotes = n.remotes ∧
      n.delete.1.participant = { n.participant with deleted := true } ∧
      ∀ kind g, n.delete.1.face? kind g = (n.face? kind g).map (Face.shut false) := by
  obtain ⟨hremotes, hparticipant, hfaces⟩ := foldl_close (n.writers.keys ++ n.readers.keys)
    { n with participant := { n.participant with deleted := true } } []
  refine ⟨hremotes, hparticipant, fun kind g => (hfaces kind g).trans ?_⟩
  have hsame : Node.face? { n with participant := { n.participant with deleted := true } } kind g =
      n.face? kind g := by
    cases kind <;> rfl
  rw [hsame]
  cases hf : n.face? kind g with
  | none => rfl
  | some f =>
    have hmem : g ∈ n.writers.keys ++ n.readers.keys := by
      rw [List.mem_append, ← Table.has_iff_mem_keys, ← Table.has_iff_mem_keys]
      cases kind with
      | writer =>
        obtain ⟨x, hx, -⟩ := Option.map_eq_some_iff.mp hf
        exact .inl (Table.has_eq_true.mpr ⟨x, hx⟩)
      | reader =>
        obtain ⟨y, hy, -⟩ := Option.map_eq_some_iff.mp hf
        exact .inr (Table.has_eq_true.mpr ⟨y, hy⟩)
    simp [hmem]

lemma offered_congr (h : m.remotes = n.remotes) (kind : EndpointKind) (f : Face) :
    m.offered kind f = n.offered kind f := by
  rw [offered, offered, candidates, candidates, h]

lemma quiet_submit (h : n.Wf) {w : Guid} {s : Submission} {acted : Node × List Dispatch}
    (hok : n.submit w s = .ok acted) : Quiet n acted.1 :=
  quiet_of_same (face?_submit h hok) fun kind f a => by rw [offered_congr (submit_rest hok).1]

lemma quiet_close (n : Node) (g : Guid) : Quiet n (n.close g).1 :=
  ⟨fun kind g' => ⟨_, face?_close n g g' kind⟩,
    fun kind f a => by rw [offered_congr (n.close_rest g).1]⟩

lemma quiet_delete (n : Node) : Quiet n n.delete.1 :=
  ⟨fun kind g => ⟨_, n.delete_spec.2.2 kind g⟩,
    fun kind f a => by rw [offered_congr n.delete_spec.1]⟩

lemma quiet_participant (n : Node) (p : Participant) : Quiet n { n with participant := p } :=
  quiet_of_same (fun kind _ => by cases kind <;> rfl) fun _ _ _ => Iff.rfl

lemma quiet_leave (n : Node) : Quiet n n.leave.1 := by
  unfold leave
  split_ifs
  · exact (quiet_delete n).trans (quiet_participant _ _)
  · exact .refl n

/-! ### Creations -/

lemma counted_new (topic : String) (typeName : String) (q : Qos) :
    Face.Counted ⟨topic, typeName, q, true, [], 0, [], 0⟩ :=
  ⟨List.nodup_nil, rfl, List.nodup_nil, rfl⟩

/-- A new writer has met nobody, and nobody else is seen to change. -/
lemma face?_insertWriter {g : Guid} (hg : n.writers.get? g = none) (topic : String)
    (type : SampleType) (q : Qos) (kind : EndpointKind) (g' : Guid) :
    Node.face? { n with writers := n.writers.insertLast g ⟨.new g topic type q, [], []⟩ } kind g' =
      if kind = .writer ∧ g' = g then some ⟨topic, type.name, q, true, [], 0, [], 0⟩
      else n.face? kind g' := by
  cases kind with
  | reader => simp [face?]
  | writer =>
    have hget := Table.get?_insertNew (fun _ _ => false) n.writers g g'
      (⟨.new g topic type q, [], []⟩ : LinkedWriter) hg
    refine (congrArg (Option.map LinkedWriter.face) hget).trans ?_
    simp only [true_and]
    split_ifs <;> rfl

lemma face?_insertReader {g : Guid} (hg : n.readers.get? g = none) (topic : String)
    (type : SampleType) (q : Qos) (kind : EndpointKind) (g' : Guid) :
    Node.face? { n with readers := n.readers.insertLast g ⟨.new g topic type q, []⟩ } kind g' =
      if kind = .reader ∧ g' = g then some ⟨topic, type.name, q, true, [], 0, [], 0⟩
      else n.face? kind g' := by
  cases kind with
  | writer => simp [face?]
  | reader =>
    have hget := Table.get?_insertNew (fun _ _ => false) n.readers g g'
      (⟨.new g topic type q, []⟩ : LinkedReader) hg
    refine (congrArg (Option.map LinkedReader.face) hget).trans ?_
    simp only [true_and]
    split_ifs <;> rfl

/-- An endpoint that has met nobody yet comes, and matches are looked at anew. -/
lemma Exact.kept_insert (h : n.Exact) (kind : EndpointKind) {g : Guid}
    (hg : n.face? kind g = none) {topic typeName : String} {q : Qos}
    (hm : ∀ kind' g', m.face? kind' g' = if kind' = kind ∧ g' = g then
      some ⟨topic, typeName, q, true, [], 0, [], 0⟩ else n.face? kind' g') :
    Kept n m.reconciled := by
  refine h.kept_reconciled fun kind' g' => ?_
  rw [hm]
  split_ifs with hnew
  · obtain ⟨rfl, rfl⟩ := hnew
    exact .inr ⟨hg, _, rfl, counted_new topic typeName q, rfl⟩
  · exact .inl rfl

lemma kept_addWriter (h : n.Exact) {g : Guid} (hg : n.writers.get? g = none) (topic : String)
    (type : SampleType) (q : Qos) : Kept n (n.addWriter (.new g topic type q)).1 :=
  h.kept_insert .writer (by simp [face?, hg]) (face?_insertWriter hg topic type q)

lemma kept_addReader (h : n.Exact) {g : Guid} (hg : n.readers.get? g = none) (topic : String)
    (type : SampleType) (q : Qos) : Kept n (n.addReader (.new g topic type q)).1 :=
  h.kept_insert .reader (by simp [face?, hg]) (face?_insertReader hg topic type q)

lemma kept_createEndpoint (h : n.Exact) (hwf : n.Wf) {kind : EndpointKind} {e : Group} {t : Topic}
    {type : SampleType} {q : Qos} {acted : Node × List Dispatch} {guid : Guid}
    (hok : n.createEndpoint kind e t type q = .ok (acted, guid)) : Kept n acted.1 := by
  obtain ⟨⟨p', guid'⟩, hp, hok⟩ := bind_ok hok
  obtain ⟨rfl, rfl⟩ := createEndpoint_ok hp
  have hquiet := quiet_participant n { n.participant with next := n.participant.next + 1 }
  cases kind with
  | writer =>
    obtain ⟨rfl, -⟩ := Prod.mk.inj (Except.ok.inj hok)
    exact hquiet.andKept (kept_addWriter (hquiet.kept h).exact hwf.fresh_writer t.name type q)
  | reader =>
    obtain ⟨rfl, -⟩ := Prod.mk.inj (Except.ok.inj hok)
    exact hquiet.andKept (kept_addReader (hquiet.kept h).exact hwf.fresh_reader t.name type q)

lemma quiet_createGroup {entity : EntityKind} {e : Group}
    (hok : n.createGroup entity = .ok (m, e)) : Quiet n m := by
  obtain ⟨⟨p', e'⟩, -, hok⟩ := bind_ok hok
  obtain ⟨rfl, -⟩ := Prod.mk.inj (Except.ok.inj hok)
  exact quiet_participant n p'

/-! ### Whatever happens -/

lemma kept_remotes (h : n.Exact) (t : Table Nat Remote) :
    Kept n { n with remotes := t }.reconciled :=
  h.kept_reconciled fun kind _ => .inl (by cases kind <;> rfl)

lemma kept_expire (h : n.Exact) (now : Nat) : Kept n (n.expire now).1 := by
  unfold expire
  split_ifs
  · exact kept_remotes h _
  · exact (Quiet.refl n).kept h

/-- **Whatever a participant does, its endpoints are in order after it.** -/
theorem kept_perform (h : n.Exact) (hwf : n.Wf) (a : Act) : Kept n (n.perform a).1 := by
  cases a with
  | createGroup entity =>
    simp only [perform]
    split
    · next hok => exact (quiet_createGroup hok).kept h
    · exact (Quiet.refl n).kept h
  | createEndpoint kind e t type q =>
    simp only [perform]
    split
    · next hok => exact kept_createEndpoint h hwf hok
    · exact (Quiet.refl n).kept h
  | submit w s =>
    simp only [perform]
    split
    · next hok => exact (quiet_submit hwf hok).kept h
    · exact (Quiet.refl n).kept h
  | lookWriter w l => exact (quiet_adjustWriter fun x _ => face_look l x).kept h
  | lookReader r l =>
    have hquiet : Quiet n (n.adjustReader r fun y => { y with reader := l.reader y.reader }) :=
      quiet_adjustReader fun y _ => faceOf_look l y.reader y.refused
    exact hquiet.kept h
  | close g => exact (quiet_close n g).kept h
  | delete => exact (quiet_delete n).kept h
  | leave => exact (quiet_leave n).kept h
  | announce => exact (Quiet.refl n).kept h
  | expire now =>
    simp only [perform]
    split_ifs
    · exact kept_expire h now
    · exact (Quiet.refl n).kept h
  | retransmit => exact (Quiet.refl n).kept h

/-- What is announced once more changes nothing. -/
lemma quiet_repeated (hd : n.remotes.Distinct) {p : Nat} {x : Remote}
    (hx : n.announcedBy p = x.endpoints) :
    Quiet n { n with remotes := n.remotes.put (· < ·) p x } := by
  refine quiet_of_same (fun kind _ => by cases kind <;> rfl) fun kind f a => ?_
  have hsame : ∀ p', Node.announcedBy { n with remotes := n.remotes.put (· < ·) p x } p' =
      n.announcedBy p' := by
    intro p'
    simp only [announcedBy, Table.get?_put]
    split_ifs with hp
    · rw [hp]
      exact hx.symm
    · rfl
  rw [mem_offered (hd.put _ p x), mem_offered hd]
  simp only [hsame]

lemma kept_hearAnnouncement (h : n.Exact) (hd : n.remotes.Distinct) (now p : Nat) (a : Address)
    (lease : Span) (es : List Announcement) :
    Kept n (n.hearAnnouncement now p a lease es).1 := by
  unfold hearAnnouncement
  simp only
  split_ifs with hsame
  · refine (quiet_repeated hd (x := ⟨a, now, lease, es⟩) ?_).kept h
    rw [← hsame.1, announcedBy]
    cases n.remotes.get? p <;> rfl
  · exact kept_remotes h _

lemma kept_hear (h : n.Exact) (hd : n.remotes.Distinct) (now host : Nat) (m : Message) :
    Kept n (n.hear now host m).1 := by
  unfold hear
  split_ifs
  · exact (Quiet.refl n).kept h
  · cases m with
    | announce p domain name port lease es =>
      simp only
      split_ifs
      · exact kept_hearAnnouncement h hd now p ⟨host, port⟩ _ es
      · exact (Quiet.refl n).kept h
    | bye p => exact kept_remotes h _
    | data w r number c => exact (Quiet.refl n).kept h
    | ackNack r w acked => exact (Quiet.refl n).kept h

/-- Taking in a change changes neither whom a reader has nor whom it has refused. -/
lemma faceOf_receive (y : Reader) (w : Guid) (number : Nat) (c : Change) (refused : List Guid) :
    faceOf (y.receive w number c).1 refused = faceOf y refused := by
  have hkeys := y.cache.keys_receive w number c
  have hqos := ReaderCache.receive_qos (r := y.cache) (w := w) (n := number) (c := c)
  unfold Reader.receive
  split_ifs
  · split
    · next heq =>
      rw [heq] at hkeys hqos
      simp only [faceOf, Reader.raise, Reader.qos] at hkeys hqos ⊢
      rw [hkeys, hqos]
    · rfl
    · rfl
  · rfl

lemma face_acknowledge (x : LinkedWriter) (r : Guid) (acked : Nat) :
    LinkedWriter.face { x with writer := x.writer.acknowledge r acked } = x.face := by
  unfold Writer.acknowledge
  simp only
  split_ifs <;> rfl

lemma face?_receive (n : Node) (source : Address) (m : Message) (kind : EndpointKind) (g : Guid) :
    (n.receive source m).1.face? kind g = n.face? kind g := by
  cases m with
  | announce p domain name port lease es => rfl
  | bye p => rfl
  | data w r number c =>
    simp only [receive]
    cases hy : n.readers.get? r with
    | none => rfl
    | some y =>
      refine face?_adjustReader (fun y' hy' => ?_) kind g
      obtain rfl := Option.some.inj (hy'.symm.trans hy)
      exact faceOf_receive y'.reader w number c y'.refused
  | ackNack r w acked =>
    simp only [receive]
    cases hx : n.writers.get? w with
    | none => rfl
    | some x =>
      simp only
      split_ifs
      · refine face?_adjustWriter (fun x' hx' => ?_) kind g
        obtain rfl := Option.some.inj (hx'.symm.trans hx)
        exact face_acknowledge x' r acked
      · rfl

lemma receive_rest (n : Node) (source : Address) (m : Message) :
    (n.receive source m).1.remotes = n.remotes ∧
      (n.receive source m).1.participant = n.participant ∧
      (n.receive source m).1.readers.keys = n.readers.keys := by
  cases m with
  | announce p domain name port lease es => exact ⟨rfl, rfl, rfl⟩
  | bye p => exact ⟨rfl, rfl, rfl⟩
  | data w r number c =>
    simp only [receive]
    cases n.readers.get? r with
    | none => exact ⟨rfl, rfl, rfl⟩
    | some y => simp only [adjustReader, Table.keys_adjust, and_self]
  | ackNack r w acked =>
    simp only [receive]
    cases n.writers.get? w with
    | none => exact ⟨rfl, rfl, rfl⟩
    | some x =>
      simp only
      split_ifs <;> exact ⟨rfl, rfl, rfl⟩

lemma quiet_receive (n : Node) (source : Address) (m : Message) :
    Quiet n (n.receive source m).1 :=
  quiet_of_same (n.face?_receive source m) fun kind f a => by
    rw [offered_congr (n.receive_rest source m).1]

/-- **Whatever arrives at a participant, its endpoints are in order after it.** -/
theorem kept_arrive (h : n.Exact) (hd : n.remotes.Distinct) (now : Nat) (source : Address)
    (d : Dispatch) : Kept n (n.arrive now source d).1 := by
  unfold arrive
  split_ifs
  · cases d with
    | group m => exact kept_hear h hd now source.host m
    | unicast a m => exact (quiet_receive n source m).kept h
  · exact (Quiet.refl n).kept h

end Node

end PubSub.Udp
