import Mathlib.Logic.Relation
import PubSub.Loopback.Domain
import PubSub.Proofs.Table
import PubSub.Proofs.Udp.Act

/-!
What can happen to one endpoint, in whatever medium it is: the steps of a writer and of a reader.
The endpoints of a medium come into being as new ones and then go from step to step.
-/

namespace PubSub

open Udp (Look LinkedWriter LinkedReader)
open Udp.Node (bind_ok)

/-! ### Steps -/

/-- The look changes a status condition, if at all, in one of these ways. -/
def Udp.Look.Within (P : (StatusCondition → StatusCondition) → Prop) : Look → Prop
  | .condition f => P f
  | _ => True

section Steps

variable (P : Look → Prop)

/-- One thing happens to a writer, at which its application looks in some ways only. A writer that
is brought in line with what is announced knows one address for each reader that it has. -/
inductive Writer.Step (x : Writer) : Writer → Prop
  | made (key : InstanceKey) (kind : ChangeKind) (payload : Option Json) :
      Step x { x with history := (x.history.addChange key kind payload).1 }.notePending
  | acknowledged (r : Guid) (n : Nat) : Step x (x.acknowledge r n)
  | bound (r : Guid) (q : Qos) : Step x (Loopback.Domain.writerBound x r q).1
  | unbound (r : Guid) : Step x (Loopback.Domain.writerUnbound x r)
  | synced (addresses : Table Guid Udp.Address) (refused : List Guid)
      (wanted : Udp.WantedReaders) (ht : LinkedWriter.Tidy ⟨x, addresses, refused⟩)
      (hd : addresses.Distinct) :
      Step x ((LinkedWriter.mk x addresses refused).sync wanted).1.writer
  | refused (p : Policy) : Step x (x.refuse p)
  | looked (l : Look) (h : P l) : Step x (l.writer x)
  | closed : Step x { x with isOpen := false }

inductive Reader.Step (y : Reader) : Reader → Prop
  | received (w : Guid) (n : Nat) (c : Change) : Step y (y.receive w n c).1
  | bound (w : Guid) (reliable : Bool) : Step y (Loopback.Domain.readerBound y w reliable)
  | unbound (w : Guid) : Step y (Loopback.Domain.readerUnbound y w)
  | synced (refused : List Guid) (wanted : Table Guid Bool) :
      Step y ((LinkedReader.mk y refused).sync wanted).reader
  | refused (p : Policy) : Step y (y.refuse p)
  | looked (l : Look) (h : P l) : Step y (l.reader y)
  | closed : Step y { y with isOpen := false }

def Writer.Moves : Writer → Writer → Prop := Relation.ReflTransGen (Writer.Step P)

def Reader.Moves : Reader → Reader → Prop := Relation.ReflTransGen (Reader.Step P)

end Steps

/-- A writer as it is created; a quality of service with a flaw is refused. -/
def Writer.Fresh (g : Guid) (x : Writer) : Prop :=
  ∃ topic type q, q.flaw? = none ∧ x = .new g topic type q

def Reader.Fresh (g : Guid) (y : Reader) : Prop :=
  ∃ topic type q, q.flaw? = none ∧ y = .new g topic type q

/-- An endpoint is created only with a quality of service that has no flaw. -/
lemma Participant.flaw?_of_createEndpoint {p p' : Participant} {kind : EndpointKind} {e : Group}
    {t : Topic} {type : SampleType} {q : Qos} {g : Guid}
    (h : p.createEndpoint kind e t type q = .ok (p', g)) : q.flaw? = none := by
  obtain ⟨-, -, h⟩ := bind_ok h
  split_ifs at h
  · simp [throw, throwThe, MonadExceptOf.throw, bind, Except.bind] at h
  · obtain ⟨-, -, h⟩ := bind_ok h
    obtain ⟨u, hqos, -⟩ := bind_ok h
    unfold checkQos at hqos
    cases hflaw : q.flaw? with
    | none => rfl
    | some reason => simp [hflaw] at hqos

/-! ### What becomes of a place -/

/-- What is at a place stays there and goes on; where nothing is, something may come, and go on. -/
inductive Grows {α : Type} (fresh : α → Prop) (R : α → α → Prop) : Option α → Option α → Prop
  | absent : Grows fresh R none none
  | kept {a b : α} (h : R a b) : Grows fresh R (some a) (some b)
  | made {a b : α} (h : fresh a) (h' : R a b) : Grows fresh R none (some b)

namespace Grows

variable {α : Type} {fresh : α → Prop} {R : α → α → Prop} {o o' o'' : Option α}

lemma refl (hR : ∀ a, R a a) (o : Option α) : Grows fresh R o o := by
  cases o with
  | none => exact .absent
  | some a => exact .kept (hR a)

lemma trans (hR : ∀ {a b c}, R a b → R b c → R a c) (h : Grows fresh R o o')
    (h' : Grows fresh R o' o'') : Grows fresh R o o'' := by
  cases h with
  | absent => exact h'
  | kept h =>
    cases h' with
    | kept h' => exact .kept (hR h h')
  | made hf h =>
    cases h' with
    | kept h' => exact .made hf (hR h h')

lemma map {f : α → α} (h : ∀ a, o = some a → R a (f a)) : Grows fresh R o (o.map f) := by
  cases o with
  | none => exact .absent
  | some a => exact .kept (h a rfl)

/-- Something new comes to a place, unless something is there. -/
lemma or {b : α} (hR : ∀ a, R a a) (h : fresh b) (o : Option α) :
    Grows fresh R o (o.or (some b)) := by
  cases o with
  | none => exact .made h (hR b)
  | some a => exact .kept (hR a)

end Grows

/-! ### The endpoints of a medium -/

structure Endpoints where
  writer? : Guid → Option Writer
  reader? : Guid → Option Reader

abbrev Looks := EndpointKind → Guid → Look → Prop

abbrev Touches := EndpointKind → Guid → (StatusCondition → StatusCondition) → Prop

/-- Any look, if it does no more than that to a status condition. -/
def Touches.looks (P : Touches) : Looks := fun k g l => l.Within (P k g)

/-- The endpoints go from step to step, and new ones may come. -/
structure Evolves (P : Looks) (e e' : Endpoints) : Prop where
  writer : ∀ g, Grows (Writer.Fresh g) (Writer.Moves (P .writer g)) (e.writer? g) (e'.writer? g)
  reader : ∀ g, Grows (Reader.Fresh g) (Reader.Moves (P .reader g)) (e.reader? g) (e'.reader? g)

namespace Evolves

variable {P : Looks} {e e' e'' : Endpoints}

lemma refl (e : Endpoints) : Evolves P e e :=
  ⟨fun _ => .refl (fun _ => .refl) _, fun _ => .refl (fun _ => .refl) _⟩

lemma trans (h : Evolves P e e') (h' : Evolves P e' e'') : Evolves P e e'' :=
  ⟨fun g => (h.writer g).trans .trans (h'.writer g),
    fun g => (h.reader g).trans .trans (h'.reader g)⟩

lemma of_eq (h : e' = e) : Evolves P e e' := by
  rw [h]
  exact .refl e

lemma of_writer {g : Guid} (hr : e'.reader? = e.reader?)
    (hw : ∀ g', g' ≠ g → e'.writer? g' = e.writer? g')
    (h : Grows (Writer.Fresh g) (Writer.Moves (P .writer g)) (e.writer? g) (e'.writer? g)) :
    Evolves P e e' := by
  refine ⟨fun g' => ?_, fun g' => hr ▸ .refl (fun _ => .refl) _⟩
  by_cases hg : g' = g
  · exact hg ▸ h
  · exact hw g' hg ▸ .refl (fun _ => .refl) _

lemma of_reader {g : Guid} (hw : e'.writer? = e.writer?)
    (hr : ∀ g', g' ≠ g → e'.reader? g' = e.reader? g')
    (h : Grows (Reader.Fresh g) (Reader.Moves (P .reader g)) (e.reader? g) (e'.reader? g)) :
    Evolves P e e' := by
  refine ⟨fun g' => hw ▸ .refl (fun _ => .refl) _, fun g' => ?_⟩
  by_cases hg : g' = g
  · exact hg ▸ h
  · exact hr g' hg ▸ .refl (fun _ => .refl) _

lemma foldl {S β : Type} {v : S → Endpoints} {f : S → β → S} (l : List β) (s : S)
    (h : ∀ s b, Evolves P (v s) (v (f s b))) : Evolves P (v s) (v (l.foldl f s)) := by
  induction l generalizing s with
  | nil => exact .refl _
  | cons b l ih => exact (h s b).trans (ih _)

end Evolves

end PubSub
