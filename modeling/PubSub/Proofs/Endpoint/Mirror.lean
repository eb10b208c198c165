import Mathlib.Tactic.FinCases
import PubSub.Proofs.Endpoint.Medium
import PubSub.Proofs.Endpoint.Report

/-!
Status bits that mirror the state of a session. The acknowledgment bit of a writer and the data bit
of a reader are raised and cleared by whatever happens to the endpoint; as long as the application
leaves them alone, they always tell whether everything is acknowledged and whether there is
something to take.
-/

namespace PubSub

open Udp (Look)

def StatusCondition.KeepsActive (f : StatusCondition → StatusCondition) : Prop :=
  ∀ k, (f k).active = k.active

open StatusCondition (KeepsActive)

/-! ### Writers -/

/-- The acknowledgment bit holds exactly while nothing is pending. -/
def Writer.Mirrors (x : Writer) : Prop :=
  x.condition.isActive .acknowledged = x.history.allAcknowledged

namespace Writer

variable {P : (StatusCondition → StatusCondition) → Prop} {x x' : Writer}

lemma mirrors_new (g : Guid) (topic : String) (type : SampleType) (q : Qos) :
    (Writer.new g topic type q).Mirrors :=
  (by decide : (StatusCondition.new.raise .acknowledged).isActive .acknowledged = true)

lemma Mirrors.reports (h : x.Mirrors) {cleared : Bool} {raised : StatusMask}
    (hr : x.Reports x' cleared raised) : x'.Mirrors := by
  have hself : StatusMask.acknowledged.intersects .acknowledged = true := by decide
  have hsingle := StatusMask.isSingle_acknowledged
  unfold Mirrors at h ⊢
  rw [hr.condition, hr.pending, StatusCondition.isActive_raise hsingle, ← h]
  cases cleared with
  | false => simp
  | true => simp [StatusCondition.isActive_clear hsingle, hself]

lemma Mirrors.look (h : x.Mirrors) (hP : ∀ f, P f → KeepsActive f) {l : Look}
    (hl : l.Within P) : (l.writer x).Mirrors := by
  cases l with
  | take max => exact h
  | matched => exact h
  | incompatible =>
    have hother : StatusMask.offeredIncompatible.intersects .acknowledged = false := by decide
    have hclear := StatusCondition.isActive_clear StatusMask.isSingle_acknowledged x.condition
      .offeredIncompatible
    rw [hother, Bool.not_false, Bool.and_true] at hclear
    exact hclear.trans h
  | condition f =>
    have hactive : (f x.condition).active = x.condition.active := hP f hl x.condition
    have hbit : (f x.condition).isActive .acknowledged = x.condition.isActive .acknowledged :=
      congrArg (StatusMask.contains · .acknowledged) hactive
    exact hbit.trans h

lemma Mirrors.moves (h : x.Mirrors) (hP : ∀ f, P f → KeepsActive f) (hm : x.Moves (·.Within P) x') :
    x'.Mirrors := by
  induction hm with
  | refl => exact h
  | tail _ hstep ih =>
    rcases hstep.reports with ⟨cleared, raised, hr⟩ | ⟨l, hl, rfl⟩
    · exact ih.reports hr
    · exact ih.look hP hl

end Writer

/-! ### Readers -/

/-- The data bit holds exactly while something is unread, and the history has room for it. -/
structure Reader.Mirrors (y : Reader) : Prop where
  bit : y.condition.isActive .dataAvailable = true ↔ y.cache.unread ≠ []
  room : y.cache.qos.history ≠ .keepLast 0

namespace Reader

variable {P : (StatusCondition → StatusCondition) → Prop} {y y' : Reader}

lemma mirrors_new (g : Guid) (topic : String) (type : SampleType) {q : Qos}
    (hq : q.flaw? = none) : (Reader.new g topic type q).Mirrors := by
  refine ⟨⟨fun h => ?_, fun h => absurd rfl h⟩, fun hroom => ?_⟩
  · exact absurd h (by decide : ¬StatusCondition.new.isActive .dataAvailable = true)
  · have hhistory : q.history = .keepLast 0 := hroom
    simp [Qos.flaw?, hhistory] at hq

lemma Mirrors.reports (h : y.Mirrors) {s : Reader × StatusMask} (hr : y.Reports s) :
    (s.1.raise s.2).Mirrors := by
  refine ⟨?_, fun hroom => h.room (hr.qos ▸ hroom)⟩
  have hbit : (s.1.raise s.2).condition.isActive .dataAvailable =
      (y.condition.isActive .dataAvailable || s.2.intersects .dataAvailable) := by
    rw [← hr.condition]
    exact StatusCondition.isActive_raise StatusMask.isSingle_dataAvailable _ _
  rw [hbit, Bool.or_eq_true, h.bit]
  exact ⟨hr.filled h.room, hr.unread⟩

/-- Whoever takes the last sample clears the bit. -/
lemma Mirrors.take (h : y.Mirrors) (max : Nat) : (y.take max).1.Mirrors := by
  cases ho : y.isOpen with
  | false =>
    have hsame : (y.take max).1 = y := by simp [Reader.take, ho]
    rwa [hsame]
  | true =>
    rw [take_of_open ho]
    by_cases hnil : y.cache.unread.drop max = []
    · rw [if_pos (List.isEmpty_iff.mpr hnil)]
      have hself : StatusMask.dataAvailable.intersects .dataAvailable = true := by decide
      have hclear := StatusCondition.isActive_clear StatusMask.isSingle_dataAvailable y.condition
        .dataAvailable
      rw [hself, Bool.not_true, Bool.and_false] at hclear
      exact ⟨⟨fun hb => absurd (hclear.symm.trans hb) Bool.false_ne_true,
        fun hne => absurd hnil hne⟩, h.room⟩
    · rw [if_neg fun hempty => hnil (List.isEmpty_iff.mp hempty)]
      have hold : y.cache.unread ≠ [] := fun hold => hnil (by rw [hold, List.drop_nil])
      exact ⟨⟨fun _ => hnil, fun _ => h.bit.mpr hold⟩, h.room⟩

lemma Mirrors.look (h : y.Mirrors) (hP : ∀ f, P f → KeepsActive f) {l : Look}
    (hl : l.Within P) : (l.reader y).Mirrors := by
  cases l with
  | take max => exact h.take max
  | matched => exact ⟨h.bit, h.room⟩
  | incompatible =>
    have hother : StatusMask.requestedIncompatible.intersects .dataAvailable = false := by decide
    have hclear := StatusCondition.isActive_clear StatusMask.isSingle_dataAvailable y.condition
      .requestedIncompatible
    rw [hother, Bool.not_false, Bool.and_true] at hclear
    exact ⟨(Bool.eq_iff_iff.mp hclear).trans h.bit, h.room⟩
  | condition f =>
    have hactive : (f y.condition).active = y.condition.active := hP f hl y.condition
    have hbit : (f y.condition).isActive .dataAvailable = y.condition.isActive .dataAvailable :=
      congrArg (StatusMask.contains · .dataAvailable) hactive
    exact ⟨(Bool.eq_iff_iff.mp hbit).trans h.bit, h.room⟩

lemma Mirrors.moves (h : y.Mirrors) (hP : ∀ f, P f → KeepsActive f) (hm : y.Moves (·.Within P) y') :
    y'.Mirrors := by
  induction hm with
  | refl => exact h
  | tail _ hstep ih =>
    rcases hstep.reports with ⟨s, hr, rfl⟩ | ⟨l, hl, rfl⟩ | rfl
    · exact ih.reports hr
    · exact ih.look hP hl
    · exact ⟨ih.bit, ih.room⟩

end Reader

/-! ### Whatever happens -/

namespace Medium

variable {S A : Type} {m : Medium S A} {start : S}

/-- **The acknowledgment bit of a writer is active exactly when nothing that it has sent is
unacknowledged, and the data bit of a reader exactly when something is unread**, in either medium
and after whatever has happened, unless an application has raised or cleared bits of that endpoint
itself. -/
theorem status_bits_mirror (h : m.Begins start) (as : List A) :
    (∀ w x, (∀ f, m.Touched as .writer w f → KeepsActive f) →
      (m.endpoints (m.run start as)).writer? w = some x →
      (x.condition.isActive .acknowledged = true ↔ x.history.pending = [])) ∧
    ∀ r y, (∀ f, m.Touched as .reader r f → KeepsActive f) →
      (m.endpoints (m.run start as)).reader? r = some y →
      (y.condition.isActive .dataAvailable = true ↔ y.cache.unread ≠ []) := by
  refine ⟨fun w x hkeeps hx => ?_, fun r y hkeeps hy => ?_⟩
  · obtain ⟨x₀, ⟨topic, type, q, -, rfl⟩, hmoves⟩ := h.writer_origin hx
    have hmirrors : x.condition.isActive .acknowledged = x.history.allAcknowledged :=
      (Writer.mirrors_new w topic type q).moves hkeeps hmoves
    rw [hmirrors, WriterHistory.allAcknowledged, decide_eq_true_iff,
      WriterHistory.unacknowledged, List.length_eq_zero_iff]
  · obtain ⟨y₀, ⟨topic, type, q, hq, rfl⟩, hmoves⟩ := h.reader_origin hy
    exact ((Reader.mirrors_new r topic type hq).moves hkeeps hmoves).bit

section Example

open Loopback (Act)
open Udp (Happening)

/-- An application listens to a writer, whose first change arrives before the delivery is paused. -/
def interrupted : List Act :=
  [.join 1 "p", .join 2 "q", .createGroup 1 .publisher, .createGroup 2 .subscriber,
    .createEndpoint 1 .writer ⟨1, 1⟩ ⟨"t", SampleType.hello.name, 1⟩ .hello .interop,
    .lookWriter ⟨1, 2⟩ (.condition (·.enableAlso .acknowledged)),
    .createEndpoint 2 .reader ⟨2, 1⟩ ⟨"t", SampleType.hello.name, 2⟩ .hello .interop,
    .submit ⟨1, 2⟩ (.sample (.hello ⟨1, "a"⟩)), .deliver, .pause true,
    .submit ⟨1, 2⟩ (.sample (.hello ⟨2, "b"⟩))]

/-- A writer makes a change for a reader that does not acknowledge it before it goes. -/
def abandoned : List Happening :=
  [.act (.createGroup .publisher),
    .act (.createEndpoint .writer ⟨1, 1⟩ ⟨"t", SampleType.hello.name, 1⟩ .hello .interop),
    .arrive 0 ⟨0, 7401⟩ (.group (.announce 2 0 "q" 7401 1000
      [⟨⟨2, 2⟩, .reader, "t", SampleType.hello.name, .interop⟩])),
    .act (.submit ⟨1, 2⟩ (.sample (.hello ⟨1, "a"⟩))),
    .arrive 1 ⟨0, 7401⟩ (.group (.bye 2))]

lemma keepsActive_enableAlso (m : StatusMask) : KeepsActive (·.enableAlso m) := by
  intro k
  simp only [StatusCondition.enableAlso, StatusCondition.enable]
  split_ifs <;> rfl

/-- In the domain something is pending and something unread; at the participant nothing is pending
any more, though nothing was acknowledged. -/
theorem status_bits_mirror_interrupted :
    let d := loopback.endpoints (loopback.run (.new 0 0 .zero 0) interrupted)
    let n := udp.endpoints (udp.run (.new 1 0 "p" 7400 .default) abandoned)
    (∀ k g f, loopback.Touched interrupted k g f → KeepsActive f) ∧
      (∀ k g f, udp.Touched abandoned k g f → KeepsActive f) ∧
      (∃ x, d.writer? ⟨1, 2⟩ = some x ∧ x.history.unacknowledged = 1 ∧
        x.condition.isActive .acknowledged = false) ∧
      (∃ y, d.reader? ⟨2, 2⟩ = some y ∧ y.cache.unread.length = 1 ∧
        y.condition.isActive .dataAvailable = true) ∧
      ∃ x, n.writer? ⟨1, 2⟩ = some x ∧ x.history.unacknowledged = 0 ∧
        x.history.next = 2 ∧ x.condition.isActive .acknowledged = true := by
  intro d n
  have hd : ∀ k g f, loopback.Touched interrupted k g f → KeepsActive f := by
    rintro k g f ⟨a, ha, hf⟩
    fin_cases ha <;> cases hf
    exact keepsActive_enableAlso _
  have hn : ∀ k g f, udp.Touched abandoned k g f → KeepsActive f := by
    rintro k g f ⟨a, ha, hf⟩
    fin_cases ha <;> cases hf
  obtain ⟨hwriter, hreader⟩ := status_bits_mirror (.loopback 0 0 .zero 0) interrupted
  obtain ⟨hwriter', -⟩ := status_bits_mirror (.udp 1 0 "p" 7400 .default) abandoned
  have hx : (d.writer? ⟨1, 2⟩).map (·.history.unacknowledged) = some 1 := by decide +kernel
  have hy : (d.reader? ⟨2, 2⟩).map (·.cache.unread.length) = some 1 := by decide +kernel
  have hx' : (n.writer? ⟨1, 2⟩).map (fun x => (x.history.unacknowledged, x.history.next)) =
      some (0, 2) := by decide +kernel
  obtain ⟨x, hx, hpending⟩ := Option.map_eq_some_iff.mp hx
  obtain ⟨y, hy, hunread⟩ := Option.map_eq_some_iff.mp hy
  obtain ⟨x', hx', hpending'⟩ := Option.map_eq_some_iff.mp hx'
  obtain ⟨hnone, hnext⟩ := Prod.mk.inj hpending'
  refine ⟨hd, hn, ⟨x, hx, hpending, ?_⟩, ⟨y, hy, hunread, ?_⟩, x', hx', hnone, hnext, ?_⟩
  · refine Bool.eq_false_iff.mpr fun hactive => ?_
    have hnil := (hwriter _ x (hd _ _) hx).mp hactive
    rw [WriterHistory.unacknowledged, hnil] at hpending
    cases hpending
  · refine (hreader _ y (hd _ _) hy).mpr fun hnil => ?_
    rw [hnil] at hunread
    cases hunread
  · exact (hwriter' _ x' (hn _ _) hx').mpr (List.length_eq_zero_iff.mp hnone)

end Example

end Medium

end PubSub
