import PubSub.Proofs.Endpoint.Account

/-!
Status bits that tell of changes. The bit for refusals holds exactly while a peer has been refused
since the refusals were last read. The bit for matches is raised by the first match and never goes
off again, so it tells whether anything has changed since the matches were last read only as long
as something has, or as long as nothing ever did.
-/

namespace PubSub

open Udp (Look)
open StatusCondition (KeepsActive)
open Account (Goes)

/-! ### Endpoints -/

def Endpoints.account (e : Endpoints) : EndpointKind → Guid → Account
  | .writer, g => ((e.writer? g).map Writer.account).getD .blank
  | .reader, g => ((e.reader? g).map Reader.account).getD .blank

lemma Writer.Moves.goes {P : Look → Prop} {x x' : Writer} (h : x.Moves P x')
    (hP : ∀ l, P l → l.Gentle) (hs : x.account.Sized) : Goes x.account x'.account := by
  induction h with
  | refl => exact .refl hs
  | tail _ hstep ih => exact ih.trans (hstep.goes hP ih.sized)

lemma Reader.Moves.goes {P : Look → Prop} {y y' : Reader} (h : y.Moves P y')
    (hP : ∀ l, P l → l.Gentle) (hs : y.account.Sized) : Goes y.account y'.account := by
  induction h with
  | refl => exact .refl hs
  | tail _ hstep ih => exact ih.trans (hstep.goes hP ih.sized)

lemma Writer.Fresh.account {g : Guid} {x : Writer} (h : Writer.Fresh g x) :
    x.account = .blank := by
  obtain ⟨topic, type, q, -, rfl⟩ := h
  have htold : (StatusCondition.new.raise .acknowledged).isActive .publicationMatched = false := by
    decide
  have hwarned : (StatusCondition.new.raise .acknowledged).isActive .offeredIncompatible =
      false := by decide
  exact congrArg₂ (Account.mk [] 0 0 · 0 0 ·) htold hwarned

lemma Reader.Fresh.account {g : Guid} {y : Reader} (h : Reader.Fresh g y) :
    y.account = .blank := by
  obtain ⟨topic, type, q, -, rfl⟩ := h
  have htold : StatusCondition.new.isActive .subscriptionMatched = false := by decide
  have hwarned : StatusCondition.new.isActive .requestedIncompatible = false := by decide
  exact congrArg₂ (Account.mk [] 0 0 · 0 0 ·) htold hwarned

lemma Evolves.goes {P : Looks} {e e' : Endpoints} (h : Evolves P e e') {k : EndpointKind}
    {g : Guid} (hP : ∀ l, P k g l → l.Gentle) (hs : (e.account k g).Sized) :
    Goes (e.account k g) (e'.account k g) := by
  cases k with
  | writer =>
    have hgrows := h.writer g
    simp only [Endpoints.account] at hs ⊢
    generalize e.writer? g = o at hgrows hs
    generalize e'.writer? g = o' at hgrows
    cases hgrows with
    | absent => exact .refl hs
    | kept hmoves => exact hmoves.goes hP hs
    | made hfresh hmoves =>
      have hblank := hfresh.account
      exact hblank ▸ hmoves.goes hP (hblank ▸ hs)
  | reader =>
    have hgrows := h.reader g
    simp only [Endpoints.account] at hs ⊢
    generalize e.reader? g = o at hgrows hs
    generalize e'.reader? g = o' at hgrows
    cases hgrows with
    | absent => exact .refl hs
    | kept hmoves => exact hmoves.goes hP hs
    | made hfresh hmoves =>
      have hblank := hfresh.account
      exact hblank ▸ hmoves.goes hP (hblank ▸ hs)

/-! ### Runs -/

namespace Medium

variable {S A : Type} {m : Medium S A} {start : S} {as : List A} {a : A} {k : EndpointKind}
  {g : Guid} {look? : A → Option (EndpointKind × Guid × Look)}

/-- Something has happened in the course of a run, and nothing has been read since. -/
def Since (m : Medium S A) (start : S) (as : List A) (event : S → S → Prop) (read : A → Prop) :
    Prop :=
  ∃ before a after, as = before ++ a :: after ∧
    event (m.run start before) (m.step (m.run start before) a) ∧ ∀ b ∈ after, ¬read b

def Rematched (m : Medium S A) (k : EndpointKind) (g : Guid) (s s' : S) : Prop :=
  ((m.endpoints s).account k g).met ≠ ((m.endpoints s').account k g).met

def Refused (m : Medium S A) (k : EndpointKind) (g : Guid) (s s' : S) : Prop :=
  ((m.endpoints s).account k g).refused ≠ ((m.endpoints s').account k g).refused

variable {event : S → S → Prop} {read : A → Prop}

lemma not_since_nil : ¬m.Since start [] event read := by
  rintro ⟨before, a, after, h, -⟩
  simp at h

lemma since_concat :
    m.Since start (as ++ [a]) event read ↔
      event (m.run start as) (m.step (m.run start as) a) ∨
        m.Since start as event read ∧ ¬read a := by
  constructor
  · rintro ⟨before, b, after, h, hevent, hread⟩
    rcases List.eq_nil_or_concat' after with rfl | ⟨after, c, rfl⟩
    · obtain ⟨rfl, hlast⟩ := List.append_inj' h rfl
      obtain rfl := List.singleton_inj.mp hlast
      exact .inl hevent
    · rw [← List.cons_append, ← List.append_assoc] at h
      obtain ⟨rfl, hlast⟩ := List.append_inj' h rfl
      obtain rfl := List.singleton_inj.mp hlast
      exact .inr ⟨⟨before, b, after, rfl, hevent, fun d hd => hread d (by simp [hd])⟩,
        hread a (by simp)⟩
  · rintro (hevent | ⟨⟨before, b, after, rfl, hevent, hread⟩, ha⟩)
    · exact ⟨as, a, [], rfl, hevent, fun _ h => absurd h List.not_mem_nil⟩
    · refine ⟨before, b, after ++ [a], by simp, hevent, fun d hd => ?_⟩
      rcases List.mem_append.mp hd with hd | hd
      · exact hread d hd
      · exact List.mem_singleton.mp hd ▸ ha

lemma Opens.looked_writer (h : m.Opens look? start) (as : List A) {l : Look}
    (ha : look? a = some (.writer, g, l)) :
    (m.endpoints (m.run start (as ++ [a]))).writer? g =
      ((m.endpoints (m.run start as)).writer? g).map l.writer := by
  rw [run_concat]
  cases h with
  | loopback registry id latency clock =>
    cases a <;> cases ha
    exact Loopback.Domain.looked_writer _ _ _
  | udp id domain name port t =>
    rcases a with _ | a
    · cases ha
    · cases a <;> cases ha
      exact Udp.Node.looked_writer _ _ _

lemma Opens.looked_reader (h : m.Opens look? start) (as : List A) {l : Look}
    (ha : look? a = some (.reader, g, l)) :
    (m.endpoints (m.run start (as ++ [a]))).reader? g =
      ((m.endpoints (m.run start as)).reader? g).map l.reader := by
  rw [run_concat]
  cases h with
  | loopback registry id latency clock =>
    cases a <;> cases ha
    exact Loopback.Domain.looked_reader _ _ _
  | udp id domain name port t =>
    rcases a with _ | a
    · cases ha
    · cases a <;> cases ha
      exact Udp.Node.looked_reader _ _ _

lemma Opens.account_read (h : m.Opens look? start) (as : List A)
    (ha : look? a = some (k, g, .incompatible)) :
    (m.endpoints (m.run start (as ++ [a]))).account k g =
      ((m.endpoints (m.run start as)).account k g).read := by
  cases k with
  | writer =>
    rw [Endpoints.account, h.looked_writer as ha, Endpoints.account]
    cases (m.endpoints (m.run start as)).writer? g with
    | none => rfl
    | some x => exact Account.of_taken .writer _ _ _ _
  | reader =>
    rw [Endpoints.account, h.looked_reader as ha, Endpoints.account]
    cases (m.endpoints (m.run start as)).reader? g with
    | none => rfl
    | some y => exact Account.of_taken .reader _ _ _ _

/-- What the two bits of an endpoint and its count of refusals tell of a run. -/
structure Tells (m : Medium S A) (look? : A → Option (EndpointKind × Guid × Look)) (start : S)
    (as : List A) (k : EndpointKind) (g : Guid) (a : Account) : Prop where
  sized : a.Sized
  told : a.told = true ↔ m.Since start as (m.Rematched k g) fun _ => False
  warned : a.warned = true ↔ a.change ≠ 0
  change : a.change ≠ 0 ↔
    m.Since start as (m.Refused k g) fun b => look? b = some (k, g, .incompatible)
  nonneg : 0 ≤ a.change

namespace Tells

variable {x y : Account}

/-- A step counts and tells of what happens in it. -/
lemma goes (h : m.Tells look? start as k g x) (hgoes : Goes x y)
    (hx : (m.endpoints (m.run start as)).account k g = x)
    (hy : (m.endpoints (m.step (m.run start as) a)).account k g = y)
    (hread : look? a ≠ some (k, g, .incompatible)) :
    m.Tells look? start (as ++ [a]) k g y := by
  have hmet : m.Rematched k g (m.run start as) (m.step (m.run start as) a) ↔
      ¬(x.total = y.total ∧ x.current = y.current) := by
    rw [Rematched, hx, hy]
    exact hgoes.met_ne_iff
  have hrefused : m.Refused k g (m.run start as) (m.step (m.run start as) a) ↔
      x.refused ≠ y.refused := by
    rw [Refused, hx, hy]
  have hle := hgoes.refused
  have hchange := hgoes.change
  have hnonneg := h.nonneg
  refine ⟨hgoes.sized, ?_, ?_, ?_, by omega⟩
  · rw [hgoes.told, since_concat, hmet, and_iff_left not_false, h.told, or_comm]
  · rw [hgoes.warned, h.warned]
    omega
  · rw [since_concat, hrefused, and_iff_left hread, ← h.change]
    omega

lemma refusals_read (h : m.Tells look? start as k g x)
    (hx : (m.endpoints (m.run start as)).account k g = x)
    (hy : (m.endpoints (m.step (m.run start as) a)).account k g = x.read)
    (hread : look? a = some (k, g, .incompatible)) :
    m.Tells look? start (as ++ [a]) k g x.read := by
  have hmet : ¬m.Rematched k g (m.run start as) (m.step (m.run start as) a) := by
    rw [Rematched, hx, hy]
    exact fun hne => hne rfl
  have hrefused : ¬m.Refused k g (m.run start as) (m.step (m.run start as) a) := by
    rw [Refused, hx, hy]
    exact fun hne => hne rfl
  refine ⟨h.sized, ?_, ?_, ?_, Int.le_refl _⟩
  · rw [since_concat, or_iff_right hmet, and_iff_left not_false]
    exact h.told
  · exact iff_of_false Bool.false_ne_true fun hne => hne rfl
  · rw [since_concat, or_iff_right hrefused]
    exact iff_of_false (fun hne => hne rfl) fun hsince => hsince.2 hread

end Tells

lemma Opens.tells (h : m.Opens look? start) (as : List A)
    (hkeeps : ∀ a ∈ as, ∀ f, look? a = some (k, g, .condition f) → KeepsActive f) :
    m.Tells look? start as k g ((m.endpoints (m.run start as)).account k g) := by
  induction as using List.reverseRecOn with
  | nil =>
    have hblank : (m.endpoints (m.run start [])).account k g = .blank := by
      cases h <;> cases k <;> rfl
    rw [hblank]
    refine ⟨Nat.le_refl _, ?_, ?_, ?_, Int.le_refl _⟩
    · exact iff_of_false Bool.false_ne_true not_since_nil
    · exact iff_of_false Bool.false_ne_true fun hne => hne rfl
    · exact iff_of_false (fun hne => hne rfl) not_since_nil
  | append_singleton as a ih =>
    have hold := ih fun b hb => hkeeps b (List.mem_append_left _ hb)
    have hlast : m.endpoints (m.step (m.run start as) a) = m.endpoints (m.run start (as ++ [a])) :=
      congrArg m.endpoints (run_concat m start as a).symm
    by_cases hread : look? a = some (k, g, .incompatible)
    · have hnew := h.account_read as hread
      rw [hnew]
      exact hold.refusals_read rfl (by rw [hlast, hnew]) hread
    · refine hold.goes ?_ rfl (by rw [hlast]) hread
      have hstep := h.evolves_step as (P := fun k g l => look? a = some (k, g, l))
        fun _ _ _ hl => hl
      refine hstep.goes (fun l hl => ?_) hold.sized
      cases l with
      | take max => trivial
      | matched => trivial
      | incompatible => exact hread hl
      | condition f => exact hkeeps a (List.mem_append_right _ (List.mem_singleton.mpr rfl)) f hl

/-- **Which bits tell of changes.** Unless an application has raised or cleared bits of an endpoint
itself, in either medium and after whatever has happened, the bit for refusals is active exactly if
the change of the refusals is not zero, that is, if a peer has been refused since the refusals were
last read. The bit for matches is active exactly if there has ever been a match or an unmatch: so it
tells whether there has been one since the matches were last read exactly if there has, or if there
never was one. A condition that listens to one of the two bits alone is triggered by that bit. -/
theorem change_bits (h : m.Opens look? start) (as : List A) {v : EndpointView}
    (hv : (m.endpoints (m.run start as)).view? k g = some v)
    (hkeeps : ∀ a ∈ as, ∀ f, look? a = some (k, g, .condition f) → KeepsActive f) :
    let ever := m.Since start as (m.Rematched k g) fun _ => False
    let unread := m.Since start as (m.Rematched k g) fun a => look? a = some (k, g, .matched)
    (v.condition.isActive k.matchedBit = true ↔ ever) ∧
      ((v.condition.isActive k.matchedBit = true ↔ unread) ↔ (ever → unread)) ∧
      (v.condition.isActive k.incompatibleBit = true ↔ v.status.incompatible.change ≠ 0) ∧
      (v.status.incompatible.change ≠ 0 ↔
        m.Since start as (m.Refused k g) fun a => look? a = some (k, g, .incompatible)) ∧
      (v.condition.enabled = k.matchedBit ∨ v.condition.enabled = k.incompatibleBit →
        v.condition.triggered = v.condition.isActive v.condition.enabled) := by
  intro ever unread
  have htells := h.tells as hkeeps
  have haccount : ∃ peers s, (m.endpoints (m.run start as)).account k g =
      .of k peers s v.status.incompatible v.condition := by
    cases k <;> obtain ⟨x, hx, rfl⟩ := Option.map_eq_some_iff.mp hv <;>
      exact ⟨_, _, by rw [Endpoints.account, hx]; rfl⟩
  obtain ⟨peers, s, haccount⟩ := haccount
  rw [haccount] at htells
  have hmatched : v.condition.isActive k.matchedBit = true ↔ ever := htells.told
  have hever : unread → ever := fun ⟨before, a, after, has, hevent, _⟩ =>
    ⟨before, a, after, has, hevent, fun _ _ => not_false⟩
  refine ⟨hmatched, ?_, htells.warned, htells.change, fun henabled => ?_⟩
  · rw [hmatched]
    exact ⟨fun hiff => hiff.mp, fun hsome => ⟨hsome, hever⟩⟩
  · refine StatusCondition.triggered_of_single ?_
    rcases henabled with heq | heq
    · exact heq ▸ k.isSingle_matchedBit
    · exact heq ▸ k.isSingle_incompatibleBit

section Example

open Loopback (Act)

/-- A reader comes to a writer that listens to its matches. -/
def encountered : List Act :=
  [.join 1 "p", .join 2 "q", .createGroup 1 .publisher, .createGroup 2 .subscriber,
    .createEndpoint 1 .writer ⟨1, 1⟩ ⟨"t", SampleType.hello.name, 1⟩ .hello .reliable,
    .lookWriter ⟨1, 2⟩ (.condition (·.enableAlso .publicationMatched)),
    .createEndpoint 2 .reader ⟨2, 1⟩ ⟨"t", SampleType.hello.name, 2⟩ .hello .reliable]

/-- The matches are read, the reader goes, and one comes that asks for more than is offered. The
refusal is read as well. -/
def parted : List Act :=
  encountered ++
    [.lookWriter ⟨1, 2⟩ .matched, .close ⟨2, 2⟩,
      .createEndpoint 2 .reader ⟨2, 1⟩ ⟨"t", SampleType.hello.name, 2⟩ .hello .interop,
      .lookWriter ⟨1, 2⟩ .incompatible]

lemma keepsActive_of_mem {as : List Act} (h : ∀ a ∈ as, a ∈ parted) :
    ∀ a ∈ as, ∀ f, a.look? = some (.writer, ⟨1, 2⟩, .condition f) → KeepsActive f := by
  intro a ha f hf
  have hmem := h a ha
  simp only [parted, encountered, List.cons_append, List.nil_append] at hmem
  fin_cases hmem <;> cases hf
  exact keepsActive_enableAlso _

/-- The unmatch has not been read and the bit tells of it, while the refusal has been read and its
bit is off. -/
theorem change_bits_parted :
    let d := loopback.run (.new 0 0 .zero 0) parted
    ∃ v, (loopback.endpoints d).view? .writer ⟨1, 2⟩ = some v ∧
      v.condition.isActive .publicationMatched = true ∧
      (loopback.Since (.new 0 0 .zero 0) parted (loopback.Rematched .writer ⟨1, 2⟩)
        fun a => a.look? = some (.writer, ⟨1, 2⟩, .matched)) ∧
      v.status.incompatible.total = 1 ∧ v.condition.isActive .offeredIncompatible = false ∧
      ¬(loopback.Since (.new 0 0 .zero 0) parted (loopback.Refused .writer ⟨1, 2⟩)
        fun a => a.look? = some (.writer, ⟨1, 2⟩, .incompatible)) ∧
      v.condition.triggered = true := by
  intro d
  have hfacts : ((loopback.endpoints d).view? .writer ⟨1, 2⟩).map (fun v =>
      (v.status.incompatible.total, v.status.incompatible.change, v.condition.enabled)) =
        some (1, 0, .publicationMatched) := by decide +kernel
  obtain ⟨v, hv, hfacts⟩ := Option.map_eq_some_iff.mp hfacts
  simp only [Prod.mk.injEq] at hfacts
  obtain ⟨htotal, hchange, henabled⟩ := hfacts
  obtain ⟨-, hlaw, hwarned, hrefused, htriggered⟩ := change_bits (.loopback 0 0 .zero 0) parted hv
    (keepsActive_of_mem fun _ ha => ha)
  have hunread : loopback.Since (.new 0 0 .zero 0) parted (loopback.Rematched .writer ⟨1, 2⟩)
      fun a => a.look? = some (.writer, ⟨1, 2⟩, .matched) := by
    refine ⟨encountered ++ [.lookWriter ⟨1, 2⟩ .matched], .close ⟨2, 2⟩,
      [.createEndpoint 2 .reader ⟨2, 1⟩ ⟨"t", SampleType.hello.name, 2⟩ .hello .interop,
        .lookWriter ⟨1, 2⟩ .incompatible], rfl, ?_, fun b hb => ?_⟩
    · rw [Rematched]
      decide +kernel
    · fin_cases hb <;> exact fun hread => by cases hread
  have hactive := (hlaw.mpr fun _ => hunread).mpr hunread
  have hnone : ¬v.status.incompatible.change ≠ 0 := fun hne => hne hchange
  refine ⟨v, hv, hactive, hunread, htotal, ?_, fun hsince => hnone (hrefused.mpr hsince), ?_⟩
  · exact Bool.eq_false_iff.mpr fun hbit => hnone (hwarned.mp hbit)
  · rw [htriggered (.inl henabled), henabled]
    exact hactive

/-- The match has been read, and nothing has happened since. Yet the bit is active, and a wait on it
is over at once, however often the matches are read. -/
theorem not_cleared_by_reading :
    let as := encountered ++ [.lookWriter ⟨1, 2⟩ .matched]
    let d := loopback.run (.new 0 0 .zero 0) as
    (∀ a ∈ as, ∀ f, a.look? = some (.writer, ⟨1, 2⟩, .condition f) → KeepsActive f) ∧
      ∃ v, (loopback.endpoints d).view? .writer ⟨1, 2⟩ = some v ∧
        v.condition.enabled = .publicationMatched ∧ v.condition.triggered = true ∧
        ¬(v.condition.isActive .publicationMatched = true ↔
          loopback.Since (.new 0 0 .zero 0) as (loopback.Rematched .writer ⟨1, 2⟩)
            fun a => a.look? = some (.writer, ⟨1, 2⟩, .matched)) := by
  intro as d
  refine ⟨keepsActive_of_mem fun a ha => ?_, ?_⟩
  · rw [parted, List.mem_append]
    exact (List.mem_append.mp ha).imp id fun h => List.mem_cons.mpr (.inl (List.mem_singleton.mp h))
  · have hfacts : ((loopback.endpoints d).view? .writer ⟨1, 2⟩).map (fun v => (v.condition.enabled,
        v.condition.triggered, v.condition.isActive .publicationMatched)) =
          some (.publicationMatched, true, true) := by decide +kernel
    obtain ⟨v, hv, hfacts⟩ := Option.map_eq_some_iff.mp hfacts
    simp only [Prod.mk.injEq] at hfacts
    obtain ⟨henabled, htriggered, hactive⟩ := hfacts
    refine ⟨v, hv, henabled, htriggered, fun hiff => ?_⟩
    rcases since_concat.mp (hiff.mp hactive) with hevent | ⟨-, hread⟩
    · refine hevent ?_
      decide +kernel
    · exact hread rfl

end Example

end Medium

end PubSub
