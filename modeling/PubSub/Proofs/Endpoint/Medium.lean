import PubSub.Proofs.Loopback.Step
import PubSub.Proofs.Udp.Step

/-!
The two media as systems that take step after step, with the endpoints that each shows. What is
true of one step of an endpoint is carried from here to all that can happen in either medium.
-/

namespace PubSub

/-- A system with endpoints: what can happen in it, and what an application does by it to the
status condition of an endpoint. -/
structure Medium (S A : Type) where
  step : S → A → S
  endpoints : S → Endpoints
  touch? : A → Option (EndpointKind × Guid × (StatusCondition → StatusCondition))

namespace Medium

def loopback : Medium Loopback.Domain Loopback.Act :=
  ⟨Loopback.Domain.perform, Loopback.Domain.endpoints, Loopback.Act.touch?⟩

def udp : Medium Udp.Node Udp.Happening :=
  ⟨Udp.Node.happen, Udp.Node.endpoints, Udp.Happening.touch?⟩

/-- A medium in which nothing has happened yet: a new domain, or a new participant. -/
inductive Begins : {S A : Type} → Medium S A → S → Prop
  | loopback (registry id : Nat) (latency : Span) (clock : Nat) :
      Begins loopback (.new registry id latency clock)
  | udp (id domain : Nat) (name : String) (port : Nat) (t : Udp.Timing) :
      Begins udp (.new id domain name port t)

/-- The same, with what tells how an application looks at an endpoint by something that happens. -/
inductive Opens : {S A : Type} → Medium S A → (A → Option (EndpointKind × Guid × Udp.Look)) → S →
    Prop
  | loopback (registry id : Nat) (latency : Span) (clock : Nat) :
      Opens loopback Loopback.Act.look? (.new registry id latency clock)
  | udp (id domain : Nat) (name : String) (port : Nat) (t : Udp.Timing) :
      Opens udp Udp.Happening.look? (.new id domain name port t)

variable {S A : Type} (m : Medium S A)

def run (s : S) (as : List A) : S := as.foldl m.step s

def Touched (as : List A) : Touches := fun k g f => ∃ a ∈ as, m.touch? a = some (k, g, f)

variable {m} {s : S} {as bs : List A} {g : Guid}
  {look? : A → Option (EndpointKind × Guid × Udp.Look)}

lemma run_append (m : Medium S A) (s : S) (as bs : List A) :
    m.run s (as ++ bs) = m.run (m.run s as) bs := List.foldl_append

lemma run_concat (m : Medium S A) (s : S) (as : List A) (a : A) :
    m.run s (as ++ [a]) = m.step (m.run s as) a := run_append m s as [a]

/-- **Whatever happens in a medium, its endpoints go from step to step**, and are looked at only as
their application does by it. -/
theorem Opens.evolves_step (h : m.Opens look? s) (as : List A) {a : A} {P : Looks}
    (ha : ∀ k g l, look? a = some (k, g, l) → P k g l) :
    Evolves P (m.endpoints (m.run s as)) (m.endpoints (m.run s (as ++ [a]))) := by
  rw [run_concat]
  cases h with
  | loopback registry id latency clock => exact Loopback.Domain.evolves_perform _ a ha
  | udp id domain name port t =>
    have habreast := Udp.Node.abreast_after id domain name port t as
    refine Udp.Node.evolves_happen habreast.wf ⟨fun w x hx => ?_, fun w x hx => ?_⟩ a ha
    · exact (habreast.wf.writer w x hx).2.1
    · exact (habreast.exact.counted .writer w x.face (by simp [Udp.Node.face?, hx])).peers

/-- What changes a status condition is a look. -/
lemma Begins.opens (h : m.Begins s) :
    ∃ look?, m.Opens look? s ∧
      ∀ a k g f, look? a = some (k, g, .condition f) → m.touch? a = some (k, g, f) := by
  cases h with
  | loopback registry id latency clock =>
    refine ⟨_, .loopback registry id latency clock, fun a k g f ha => ?_⟩
    cases a <;> cases ha <;> rfl
  | udp id domain name port t =>
    refine ⟨_, .udp id domain name port t, fun a k g f ha => ?_⟩
    rcases a with _ | a
    · cases ha
    · cases a <;> cases ha <;> rfl

lemma Begins.evolves_step (h : m.Begins s) (as : List A) {a : A} {P : Touches}
    (ha : ∀ k g f, m.touch? a = some (k, g, f) → P k g f) :
    Evolves P.looks (m.endpoints (m.run s as)) (m.endpoints (m.run s (as ++ [a]))) := by
  obtain ⟨look?, hopens, htouch⟩ := h.opens
  refine hopens.evolves_step as fun k g l hl => ?_
  cases l with
  | condition f => exact ha k g f (htouch a k g f hl)
  | take | matched | incompatible => trivial

lemma Begins.evolves_within (h : m.Begins s) (as : List A) {P : Touches}
    (hbs : ∀ k g f, m.Touched bs k g f → P k g f) :
    Evolves P.looks (m.endpoints (m.run s as)) (m.endpoints (m.run s (as ++ bs))) := by
  induction bs using List.reverseRecOn with
  | nil =>
    rw [List.append_nil]
    exact .refl _
  | append_singleton bs b ih =>
    rw [← List.append_assoc]
    refine .trans (ih fun k g f ⟨a, ha, hf⟩ => hbs k g f ⟨a, List.mem_append_left _ ha, hf⟩)
      (h.evolves_step (as ++ bs) fun k g f hf => hbs k g f ⟨b, ?_, hf⟩)
    exact List.mem_append_right _ (List.mem_singleton.mpr rfl)

theorem Begins.evolves (h : m.Begins s) (as bs : List A) :
    Evolves (m.Touched bs).looks (m.endpoints (m.run s as)) (m.endpoints (m.run s (as ++ bs))) :=
  h.evolves_within as fun _ _ _ hf => hf

/-- Every writer that there is was created as a new one, and has gone from step to step. -/
lemma Begins.writer_origin (h : m.Begins s) {x : Writer}
    (hx : (m.endpoints (m.run s as)).writer? g = some x) :
    ∃ x₀, Writer.Fresh g x₀ ∧ x₀.Moves ((m.Touched as).looks .writer g) x := by
  have hgrows := (h.evolves [] as).writer g
  have hnone : (m.endpoints (m.run s [])).writer? g = none := by
    cases h <;> rfl
  rw [List.nil_append, hx, hnone] at hgrows
  cases hgrows with
  | made hfresh hmoves => exact ⟨_, hfresh, hmoves⟩

lemma Begins.reader_origin (h : m.Begins s) {y : Reader}
    (hy : (m.endpoints (m.run s as)).reader? g = some y) :
    ∃ y₀, Reader.Fresh g y₀ ∧ y₀.Moves ((m.Touched as).looks .reader g) y := by
  have hgrows := (h.evolves [] as).reader g
  have hnone : (m.endpoints (m.run s [])).reader? g = none := by
    cases h <;> rfl
  rw [List.nil_append, hy, hnone] at hgrows
  cases hgrows with
  | made hfresh hmoves => exact ⟨_, hfresh, hmoves⟩

end Medium

end PubSub
