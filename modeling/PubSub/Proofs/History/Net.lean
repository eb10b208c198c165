import Mathlib.Tactic.Lemma
import PubSub.History.Net

/-!
The operations of a net, each as one equation for the writer and the reader that it finds.
-/

namespace PubSub.Net

variable {n : Net} {w r : Guid} {h : WriterHistory} {c : ReaderCache}

lemma connect_of_compatible (hw : n.writers.get? w = some h) (hr : n.readers.get? r = some c)
    (hq : Qos.conflict? h.qos c.qos = none) :
    ∃ d, n.connect w r =
      some (({ n with
          readers := n.readers.put Guid.before r (c.addWriter w h.qos.isReliable) } : Net).send
        (h.matchReader r c.qos).1 (h.matchReader r c.qos).2, d) := by
  simp [connect, hw, hr, hq]

lemma connect_of_conflict {p : Policy} (hw : n.writers.get? w = some h)
    (hr : n.readers.get? r = some c) (hq : Qos.conflict? h.qos c.qos = some p) :
    n.connect w r = some (n, .conflict p) := by
  simp [connect, hw, hr, hq]

lemma disconnect_eq (hw : n.writers.get? w = some h) (hr : n.readers.get? r = some c) :
    n.disconnect w r =
      some ({ n with
          writers := n.writers.put Guid.before w (h.unmatchReader r)
          readers := n.readers.put Guid.before r (c.removeWriter w).1 },
        h.isMatched r, (c.removeWriter w).2) := by
  simp [disconnect, hw, hr]

lemma deliver_eq {i : Nat} {f : Flight} (keep noAck : Bool) (hf : n.flight[i]? = some f)
    (hr : n.readers.get? f.out.reader = some c) (hw : n.writers.get? f.writer = some h) :
    let got := c.receive f.writer f.out.number f.out.change
    ∃ done, n.deliver i keep noAck =
      some ({
          writers := if noAck then n.writers
            else n.writers.put Guid.before f.writer (h.acknowledge f.out.reader got.2.2).1
          readers := n.readers.put Guid.before f.out.reader got.1
          flight := if keep then n.flight else n.flight.eraseIdx i },
        ⟨got.2.1, got.2.2, done⟩) := by
  cases noAck <;> simp [deliver, hf, hr, hw]

/-- A change arrives only where its writer and its reader are there. -/
lemma deliver_some {i : Nat} {keep noAck : Bool} {x : Net × Delivery}
    (hx : n.deliver i keep noAck = some x) :
    ∃ f c h, n.flight[i]? = some f ∧ n.readers.get? f.out.reader = some c ∧
      n.writers.get? f.writer = some h := by
  simp only [deliver, Option.bind_eq_bind, Option.bind_eq_some_iff] at hx
  obtain ⟨f, hf, c, hc, h, hh, -⟩ := hx
  exact ⟨f, c, h, hf, hc, hh⟩

end PubSub.Net
