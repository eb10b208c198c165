import PubSub.Proofs.Endpoint.Step

/-!
What becomes of endpoints when a participant is deleted. Its own are closed and keep what they know;
those of others are to forget them, and to have whomever they had besides.
-/

namespace PubSub

def Writer.closed (x : Writer) : Writer := { x with isOpen := false }

def Reader.closed (y : Reader) : Reader := { y with isOpen := false }

lemma Writer.closed_of_closed {x : Writer} (h : x.isOpen = false) : x.closed = x := by
  rw [closed, ← h]

lemma Reader.closed_of_closed {y : Reader} (h : y.isOpen = false) : y.closed = y := by
  rw [closed, ← h]

@[simp] lemma Writer.closed_comp_closed : closed ∘ closed = closed := rfl

@[simp] lemma Reader.closed_comp_closed : closed ∘ closed = closed := rfl

lemma rel_of_isSome {α β : Type} {R : α → β → Prop} {o : Option α} {o' : Option β}
    (h : o.isSome = o'.isSome) (hR : ∀ a b, o = some a → o' = some b → R a b) :
    Option.Rel R o o' := by
  cases o <;> cases o'
  · exact .none
  · cases h
  · cases h
  · exact .some (hR _ _ rfl rfl)

/-- A writer has lost the readers of a participant and no others, and counts those that it has. -/
structure Writer.Loses (p : Nat) (x x' : Writer) : Prop where
  readers : ∀ r, x'.history.isMatched r = true ↔
    x.history.isMatched r = true ∧ r.participant ≠ p
  matched : {r | x'.history.isMatched r = true}.encard = x'.status.matched

structure Reader.Loses (p : Nat) (y y' : Reader) : Prop where
  writers : ∀ w, y'.cache.hasWriter w = true ↔ y.cache.hasWriter w = true ∧ w.participant ≠ p
  matched : {w | y'.cache.hasWriter w = true}.encard = y'.status.matched

namespace Endpoints

def openWriter? (e : Endpoints) (w : Guid) : Option Writer := (e.writer? w).filter (·.isOpen)

def openReader? (e : Endpoints) (r : Guid) : Option Reader := (e.reader? r).filter (·.isOpen)

/-- No endpoint of the participant reports a match, and no writer of it anything that is
unacknowledged. -/
structure Idle (p : Nat) (e : Endpoints) : Prop where
  writer : ∀ w x, w.participant = p → e.writer? w = some x →
    x.status.matched = 0 ∧ x.status.unacknowledged = 0
  reader : ∀ r y, r.participant = p → e.reader? r = some y → y.status.matched = 0

/-- The open endpoints of all others have lost those of the participant and nothing else. -/
structure Loses (p : Nat) (e e' : Endpoints) : Prop where
  writer : ∀ w, w.participant ≠ p →
    Option.Rel (Writer.Loses p) (e.openWriter? w) (e'.openWriter? w)
  reader : ∀ r, r.participant ≠ p →
    Option.Rel (Reader.Loses p) (e.openReader? r) (e'.openReader? r)

end Endpoints

end PubSub
