import Mathlib.Tactic.SplitIfs
import PubSub.Proofs.Endpoint.Medium
import PubSub.Proofs.Endpoint.Report

/-!
Takes that fail. Samples leave the cache before their payloads are decoded, so that a payload that
is no value of the type takes with it everything that was taken together with it. Only a reader that
was closed before has nothing to lose.
-/

namespace PubSub

/-! ### Samples that cannot be decoded -/

/-- The payload counts, and is no value of that type. -/
def Sample.Garbled (t : SampleType) (s : Sample Json) : Prop :=
  s.valid = true ∧ ∃ j, s.data = some j ∧ Value.ofJson? t j = none

lemma Sample.decode_fails_iff {t : SampleType} {s : Sample Json} :
    (∃ f, s.decode (Value.ofPayload t) = .error f) ↔ s.Garbled t := by
  obtain ⟨data, valid, state, key, handle, sequence⟩ := s
  cases data with
  | none => simp [Sample.decode, Sample.Garbled]
  | some j =>
    cases valid with
    | false => simp [Sample.decode, Sample.Garbled]
    | true => cases hj : Value.ofJson? t j <;>
        simp [Sample.decode, Sample.Garbled, Value.ofPayload, hj, bind, Except.bind, pure,
          Except.pure]

lemma mapM_fails_iff {α β ε : Type} {f : α → Except ε β} {l : List α} :
    (∃ e, l.mapM f = .error e) ↔ ∃ a ∈ l, ∃ e, f a = .error e := by
  induction l with
  | nil => simp [pure, Except.pure]
  | cons a l ih =>
    rw [List.mapM_cons, List.exists_mem_cons_iff, ← ih]
    cases f a with
    | error e => simp [bind, Except.bind]
    | ok b => cases l.mapM f <;> simp [bind, Except.bind, pure, Except.pure]

/-! ### What a take does to a reader -/

namespace Reader

variable {y y' : Reader} {max : Nat}

/-- Nothing that there was to take has been lost, and the data bit tells of it as before. -/
def Keeps (y y' : Reader) : Prop :=
  y'.cache.unread = y.cache.unread ∧
    y'.condition.isActive .dataAvailable = y.condition.isActive .dataAvailable

/-- A take fails if the reader is closed, or if what it takes cannot all be decoded. -/
lemma take_fails_iff (y : Reader) (max : Nat) :
    (∃ f, (y.take max).2 = .error f) ↔
      y.isOpen = false ∨ ∃ s ∈ y.cache.unread.take max, s.Garbled y.type := by
  cases ho : y.isOpen with
  | false => simp [Reader.take, ho]
  | true =>
    have hanswer : (y.take max).2 =
        (y.cache.unread.take max).mapM (Sample.decode (Value.ofPayload y.type)) := by
      rw [Reader.take, if_pos ho]
      rfl
    rw [hanswer, mapM_fails_iff]
    simp only [Sample.decode_fails_iff, Bool.true_eq_false, false_or]

lemma take_of_closed (ho : y.isOpen = false) (max : Nat) : (y.take max).1 = y := by
  simp [Reader.take, ho]

/-- What was taken is not in the cache any more, whatever the answer. -/
lemma unread_take (ho : y.isOpen = true) (max : Nat) :
    (y.take max).1.cache.unread = y.cache.unread.drop max := by
  rw [take_of_open ho]
  dsimp only
  split_ifs <;> rfl

/-- The data bit goes off with the last sample. -/
lemma isActive_take (ho : y.isOpen = true) (max : Nat) :
    (y.take max).1.condition.isActive .dataAvailable =
      (y.condition.isActive .dataAvailable && !(y.cache.unread.drop max).isEmpty) := by
  rw [take_of_open ho]
  dsimp only
  cases h : (y.cache.unread.drop max).isEmpty with
  | true =>
    rw [if_pos rfl, Bool.not_true, Bool.and_false]
    refine (StatusCondition.isActive_clear StatusMask.isSingle_dataAvailable _ _).trans ?_
    rw [show StatusMask.dataAvailable.intersects .dataAvailable = true from by decide,
      Bool.not_true, Bool.and_false]
  | false => rw [if_neg Bool.false_ne_true, Bool.not_false, Bool.and_true]

/-- What cannot be decoded has been there, and is not there after the take. -/
lemma not_keeps_of_garbled (ho : y.isOpen = true)
    (h : ∃ s ∈ y.cache.unread.take max, s.Garbled y.type) : ¬y.Keeps (y.take max).1 := by
  rintro ⟨hunread, -⟩
  obtain ⟨s, hs, -⟩ := h
  have htaken : 0 < (y.cache.unread.take max).length := List.length_pos_of_mem hs
  have hlength := congrArg List.length hunread
  rw [unread_take ho, List.length_drop] at hlength
  rw [List.length_take] at htaken
  omega

/-- A take that fails leaves a closed reader as it was, and no other. -/
lemma keeps_iff_of_fails {f : Fault} (hf : (y.take max).2 = .error f) :
    y.Keeps (y.take max).1 ↔ y.isOpen = false := by
  cases ho : y.isOpen with
  | false =>
    rw [take_of_closed ho]
    exact iff_of_true ⟨rfl, rfl⟩ rfl
  | true =>
    have hgarbled := ((take_fails_iff y max).mp ⟨f, hf⟩).resolve_left (by simp [ho])
    exact iff_of_false (not_keeps_of_garbled ho hgarbled) (by simp)

end Reader

/-! ### Takes in a medium -/

namespace Medium

/-- An application takes samples from a reader, so many at most. -/
inductive Takes : {S A : Type} → Medium S A → A → Guid → Nat → Prop
  | loopback (r : Guid) (max : Nat) : Takes loopback (.lookReader r (.take max)) r max
  | udp (r : Guid) (max : Nat) : Takes udp (.act (.lookReader r (.take max))) r max

variable {S A : Type} {m : Medium S A} {a : A} {g : Guid} {max : Nat} {y : Reader}

lemma Takes.reader? (h : m.Takes a g max) (s : S) :
    (m.endpoints (m.step s a)).reader? g =
      ((m.endpoints s).reader? g).map fun y => (y.take max).1 := by
  cases h with
  | loopback r max => exact Loopback.Domain.looked_reader s g (.take max)
  | udp r max => exact Udp.Node.looked_reader s g (.take max)

/-- **A take that fails loses what it has taken**, unless the reader was closed before. It fails if
the reader is closed, or if one of the samples that it takes cannot be decoded. Of an open reader it
removes all samples that it has taken, also those that could be decoded, and the data bit stays on
only if others are left. -/
theorem failed_take_keeps_iff (ha : m.Takes a g max) (s : S)
    (hy : (m.endpoints s).reader? g = some y) :
    ((∃ f, (y.take max).2 = .error f) ↔
        y.isOpen = false ∨ ∃ x ∈ y.cache.unread.take max, x.Garbled y.type) ∧
      ∃ y', (m.endpoints (m.step s a)).reader? g = some y' ∧
        (∀ f, (y.take max).2 = .error f → (y.Keeps y' ↔ y.isOpen = false)) ∧
        (y.isOpen = true → y'.cache.unread = y.cache.unread.drop max ∧
          y'.condition.isActive .dataAvailable =
            (y.condition.isActive .dataAvailable && !(y.cache.unread.drop max).isEmpty)) := by
  refine ⟨y.take_fails_iff max, (y.take max).1, ?_, fun f hf => Reader.keeps_iff_of_fails hf,
    fun ho => ⟨Reader.unread_take ho max, Reader.isActive_take ho max⟩⟩
  rw [ha.reader?, hy]
  rfl

section Example

open Udp (Happening)

/-- A reader has accepted a greeting, and after it a payload that is none. -/
def mumbled : List Happening :=
  [.act (.createGroup .subscriber),
    .act (.createEndpoint .reader ⟨1, 1⟩ ⟨"t", SampleType.hello.name, 1⟩ .hello .interop),
    .arrive 0 ⟨0, 7401⟩ (.group (.announce 2 0 "q" 7401 1000
      [⟨⟨2, 2⟩, .writer, "t", SampleType.hello.name, .interop⟩])),
    .arrive 0 ⟨0, 7401⟩ (.unicast ⟨0, 7400⟩ (.data ⟨2, 2⟩ ⟨1, 2⟩ 1
      ⟨1, "1", .alive, some (Value.hello ⟨1, "a"⟩).payload⟩)),
    .arrive 0 ⟨0, 7401⟩ (.unicast ⟨0, 7400⟩ (.data ⟨2, 2⟩ ⟨1, 2⟩ 2
      ⟨2, "2", .alive, some (.str "?")⟩))]

lemma reader_mumbled : ∃ y, (udp.endpoints (udp.run (.new 1 0 "p" 7400 .default) mumbled)).reader?
    ⟨1, 2⟩ = some y ∧ y.isOpen = true ∧ y.condition.isActive .dataAvailable = true ∧
      y.cache.unread.map (·.sequence) = [1, 2] ∧ ∃ f, (y.take 10).2 = .error f := by
  have hfacts : ((udp.endpoints (udp.run (.new 1 0 "p" 7400 .default) mumbled)).reader?
      ⟨1, 2⟩).map (fun y => (y.isOpen, y.condition.isActive .dataAvailable,
        y.cache.unread.map (·.sequence), (y.take 10).2.isOk)) =
      some (true, true, [1, 2], false) := by decide +kernel
  obtain ⟨y, hy, hfacts⟩ := Option.map_eq_some_iff.mp hfacts
  simp only [Prod.mk.injEq] at hfacts
  obtain ⟨ho, hactive, hunread, hfails⟩ := hfacts
  refine ⟨y, hy, ho, hactive, hunread, ?_⟩
  cases h : (y.take 10).2 with
  | error f => exact ⟨f, rfl⟩
  | ok _ =>
    rw [h] at hfails
    cases hfails

def gulp : Happening := .act (.lookReader ⟨1, 2⟩ (.take 10))

/-- The take fails, and both samples are gone with it. -/
theorem failed_take_keeps_iff_mumbled :
    let s := udp.run (.new 1 0 "p" 7400 .default) mumbled
    udp.Takes gulp ⟨1, 2⟩ 10 ∧ ∃ y y', (udp.endpoints s).reader? ⟨1, 2⟩ = some y ∧
      (udp.endpoints (udp.step s gulp)).reader? ⟨1, 2⟩ = some y' ∧
      (∃ x ∈ y.cache.unread.take 10, x.Garbled y.type) ∧ ¬y.Keeps y' ∧
      y'.cache.unread = y.cache.unread.drop 10 := by
  intro s
  obtain ⟨y, hy, ho, -, -, f, hf⟩ := reader_mumbled
  obtain ⟨hfails, y', hy', hkeeps, hleft⟩ := failed_take_keeps_iff (.udp ⟨1, 2⟩ 10) s hy
  refine ⟨.udp ⟨1, 2⟩ 10, y, y', hy, hy', (hfails.mp ⟨_, hf⟩).resolve_left (by simp [ho]), ?_,
    (hleft ho).1⟩
  rw [hkeeps f hf, ho]
  exact nofun

/-- The greeting could be decoded, and yet nobody gets it: the take that it was taken with has
failed, nothing is left to take, and no bit tells that there was something. -/
theorem not_kept_mumbled :
    let s := udp.run (.new 1 0 "p" 7400 .default) mumbled
    ∃ y y', (udp.endpoints s).reader? ⟨1, 2⟩ = some y ∧
      (udp.endpoints (udp.step s gulp)).reader? ⟨1, 2⟩ = some y' ∧
      (∃ f, (y.take 10).2 = .error f) ∧ y.cache.unread.map (·.sequence) = [1, 2] ∧
      y.condition.isActive .dataAvailable = true ∧ y'.cache.unread = [] ∧
      y'.condition.isActive .dataAvailable = false ∧ ¬y.Keeps y' := by
  intro s
  obtain ⟨y, hy, ho, hactive, hunread, hf⟩ := reader_mumbled
  have hleft : y.cache.unread.drop 10 = [] := by
    refine List.drop_eq_nil_of_le ?_
    have hlength := congrArg List.length hunread
    rw [List.length_map] at hlength
    rw [hlength]
    decide
  have hafter : (udp.endpoints (udp.step s gulp)).reader? ⟨1, 2⟩ = some (y.take 10).1 := by
    rw [Takes.reader? (a := gulp) (.udp ⟨1, 2⟩ 10), hy]
    rfl
  have hcache : (y.take 10).1.cache.unread = [] := (Reader.unread_take ho 10).trans hleft
  refine ⟨y, _, hy, hafter, hf, hunread, hactive, hcache, ?_, fun hkeeps => ?_⟩
  · rw [Reader.isActive_take ho, hleft]
    exact Bool.and_false _
  · rw [← hkeeps.1, hcache] at hunread
    cases hunread

end Example

end Medium

end PubSub
