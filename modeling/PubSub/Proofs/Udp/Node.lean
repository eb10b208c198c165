import Mathlib.Tactic.Lemma
import Mathlib.Tactic.SplitIfs
import PubSub.Udp.Node

/-!
What an application hands to a writer of a participant, and what becomes of it: one change, which
every matched reader is sent.
-/

namespace PubSub.Udp

inductive Submission where
  | sample (v : Value)
  | disposal (v : Value) (handle : Handle)

def Submission.change (next : Nat) : Submission → Change
  | .sample v => ⟨next, v.key, .alive, some v.payload⟩
  | .disposal v _ => ⟨next, v.key, .disposed, none⟩

namespace Node

def submit (n : Node) (w : Guid) : Submission → Except Fault (Node × List Dispatch)
  | .sample v => (n.write w v).map (·.1)
  | .disposal v handle => n.dispose w v handle

lemma bind_ok {ε α β : Type} {x : Except ε α} {f : α → Except ε β} {b : β}
    (h : x.bind f = .ok b) : ∃ a, x = .ok a ∧ f a = .ok b := by
  cases x with
  | error e => simp [Except.bind] at h
  | ok a => exact ⟨a, rfl, h⟩

variable {n : Node} {w : Guid} {x : LinkedWriter}

lemma openWriter_of_open (hx : n.writers.get? w = some x) (ho : x.writer.isOpen = true) :
    n.openWriter w = .ok x := by
  simp [openWriter, hx, Writer.checkOpen, ho, bind, Except.bind, pure, Except.pure]

lemma openWriter_ok {y : LinkedWriter} (hx : n.writers.get? w = some x)
    (h : n.openWriter w = .ok y) : x.writer.isOpen = true ∧ y = x := by
  cases ho : x.writer.isOpen with
  | true => exact ⟨rfl, Except.ok.inj ((openWriter_of_open hx ho).symm.trans h).symm⟩
  | false =>
    simp [openWriter, hx, Writer.checkOpen, ho, bind, Except.bind] at h

lemma checkPayload_ok {j : Json} :
    checkPayload j = .ok () ↔ j.text.utf8ByteSize ≤ Wire.maxBytes := by
  unfold checkPayload
  simp only
  split_ifs with h
  · simp [h]
  · simp [Nat.le_of_not_lt h]

lemma notePending_history (w : Writer) : w.notePending.history = w.history := by
  unfold Writer.notePending
  split_ifs <;> rfl

/-- Only an open writer accepts anything, and what it accepts becomes one change. -/
lemma submit_shipped {s : Submission} {acted : Node × List Dispatch}
    (h : n.submit w s = .ok acted) (hx : n.writers.get? w = some x) :
    let c := s.change x.writer.history.next
    let made := x.writer.history.addChange c.key c.kind c.payload
    x.writer.isOpen = true ∧
      acted = n.ship x { x.writer with history := made.1 }.notePending made.2 := by
  cases s with
  | sample v =>
    simp only [submit] at h
    cases hres : n.write w v with
    | error f => simp [hres, Except.map] at h
    | ok res =>
      obtain rfl : res.1 = acted := by simpa [hres, Except.map] using h
      obtain ⟨x', hx', hres⟩ := bind_ok hres
      obtain ⟨ho, rfl⟩ := openWriter_ok hx hx'
      obtain ⟨u, -, hres⟩ := bind_ok hres
      exact ⟨ho, (congrArg Prod.fst (Except.ok.inj hres)).symm⟩
  | disposal v handle =>
    obtain ⟨x', hx', h⟩ := bind_ok h
    obtain ⟨ho, rfl⟩ := openWriter_ok hx hx'
    obtain ⟨⟨y, out⟩, hy, h⟩ := bind_ok h
    obtain ⟨⟨g, out'⟩, hg, hy⟩ := bind_ok hy
    obtain ⟨rfl, rfl⟩ := Prod.mk.inj (Except.ok.inj hy)
    unfold WriterHistory.dispose at hg
    split_ifs at hg
    have hmade : x'.writer.history.addChange v.key .disposed none = (g, out') := Except.ok.inj hg
    simp only [Submission.change, hmade]
    exact ⟨ho, (Except.ok.inj h).symm⟩

lemma submit_ok {s : Submission} {acted : Node × List Dispatch} (h : n.submit w s = .ok acted)
    (hx : n.writers.get? w = some x) :
    let c := s.change x.writer.history.next
    x.writer.isOpen = true ∧
      ∃ y : Writer, y.history = (x.writer.history.addChange c.key c.kind c.payload).1 ∧
        acted = n.ship x y (x.writer.history.addChange c.key c.kind c.payload).2 := by
  obtain ⟨ho, hship⟩ := submit_shipped h hx
  exact ⟨ho, _, notePending_history _, hship⟩

/-- A sample is accepted if its payload alone fits a datagram. -/
lemma submit_sample (hx : n.writers.get? w = some x) (ho : x.writer.isOpen = true) {v : Value}
    (hfit : v.payload.text.utf8ByteSize ≤ Wire.maxBytes) :
    n.submit w (.sample v) = .ok (n.ship x (x.writer.write v).1 (x.writer.write v).2) := by
  simp [submit, write, openWriter_of_open hx ho, checkPayload_ok.mpr hfit, bind, Except.bind,
    pure, Except.pure, Except.map]

/-- The end of an instance is always accepted if it does not name a handle. -/
lemma submit_disposal (hx : n.writers.get? w = some x) (ho : x.writer.isOpen = true) (v : Value) :
    n.submit w (.disposal v 0) =
      .ok (n.ship x
        { x.writer with history := (x.writer.history.addChange v.key .disposed none).1 }.notePending
        (x.writer.history.addChange v.key .disposed none).2) := by
  simp [submit, dispose, openWriter_of_open hx ho, Writer.dispose, WriterHistory.dispose, bind,
    Except.bind, pure, Except.pure]

end Node

end PubSub.Udp
