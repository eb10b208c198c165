import Mathlib.Data.List.Basic
import PubSub.Proofs.Scenario.Play
import PubSub.Scenario.Basic

/-!
How a side goes wrong. Each side has a course: what it does, and is answered, when nothing fails.
A play follows the course up to the first answer that is a fault or that the side objects to;
after that there is nothing but the release of the entities. One rule stands for each part of a
program, and what holds of all plays is proved by induction on the rules.
-/

namespace PubSub

namespace Request

def releases : Request → Bool
  | .delete _ | .leave _ => true
  | _ => false

def deleted? : Request → Option Nat
  | .delete p => some p
  | _ => none

end Request

namespace Mark

def isLine : Mark → Bool
  | .said _ => true
  | _ => false

def isCall : Mark → Bool
  | .asked .. => true
  | _ => false

def releases : Mark → Bool
  | .asked q _ => q.releases
  | _ => false

def phase? : Mark → Option Phase
  | .reached phase => some phase
  | _ => none

def deleted? : Mark → Option Nat
  | .asked q _ => q.deleted?
  | _ => none

def fault? : Mark → Option Fault
  | .asked _ (.error f) => some f
  | _ => none

def creates : Mark → Bool
  | .asked (.createEndpoint ..) (.ok _) => true
  | _ => false

def disposes : Mark → Bool
  | .asked (.dispose ..) _ => true
  | _ => false

def read : Mark → List (Sample Value)
  | .asked (.take ..) (.ok taken) => taken.take 1
  | _ => []

end Mark

/-- What a side does on its way: a request of its own, whatever the answer, or a phase. -/
inductive Step where
  | made (q : Request)
  | passed (phase : Phase)

def Mark.step? : Mark → Option Step
  | .said _ => none
  | .reached phase => some (.passed phase)
  | .asked q _ => if q.releases then none else some (.made q)

/-- The steps of a play, the release of the entities aside. -/
def steps (ms : List Mark) : List Step := ms.filterMap Mark.step?

def phases (ms : List Mark) : List Phase := ms.filterMap Mark.phase?

def calls (ms : List Mark) : List Mark := ms.filter Mark.isCall

/-- A play without what is said in it. -/
def unsaid (ms : List Mark) : List Mark := ms.filter (!·.isLine)

def Step.size? : Step → Option Nat
  | .made (.take _ max) => some max
  | _ => none

def Step.phase? : Step → Option Phase
  | .made _ => none
  | .passed phase => some phase

lemma phases_eq_steps (ms : List Mark) : phases ms = (steps ms).filterMap Step.phase? := by
  rw [phases, steps, List.filterMap_filterMap]
  congr 1
  funext m
  cases m with
  | asked q a => cases hq : q.releases <;> simp [Mark.phase?, Mark.step?, hq, Step.phase?]
  | _ => rfl

lemma calls_unsaid (ms : List Mark) : calls (unsaid ms) = calls ms := by
  rw [calls, unsaid, List.filter_filter]
  exact List.filter_congr fun m _ => by cases m <;> rfl

lemma phases_unsaid (ms : List Mark) : phases (unsaid ms) = phases ms := by
  rw [phases, unsaid, List.filterMap_filter]
  exact List.filterMap_congr fun m _ => by cases m <;> rfl

/-- What a side has against the samples that it has taken, given those that it read before. -/
abbrev Objection := List (Sample Value) → List (Sample Value) → Option Fault

def Objection.none : Objection := fun _ _ => .none

def Mark.trouble? (object : Objection) (read : List (Sample Value)) : Mark → Option Fault
  | .asked _ (.error f) => some f
  | .asked (.take ..) (.ok taken) => object read taken
  | _ => none

/-- The first thing that goes wrong in a play, with the last phase before it. -/
def firstFailure (object : Objection) : List (Sample Value) → Phase → List Mark → Option Failure
  | _, _, [] => none
  | read, phase, m :: ms =>
    match m.trouble? object read with
    | some f => some ⟨phase, f⟩
    | none => firstFailure object (read ++ m.read) (m.phase?.getD phase) ms

def outcome : Option Failure → Except Failure Unit
  | some failure => .error failure
  | none => .ok ()

def release (p : Nat) (r : Except Fault Unit) : List Mark :=
  [.asked (.delete p) r, .asked (.leave p) (.ok ())]

lemma mem_release {p : Nat} {r : Except Fault Unit} {m : Mark} :
    m ∈ release p r ↔ m = .asked (.delete p) r ∨ m = .asked (.leave p) (.ok ()) := by
  simp [release]

/-- A play with all entities at hand that follows a course from a phase on. -/
inductive Follows (object : Objection) (p : Nat) :
    List (Sample Value) → Phase → List Mark → List Mark → Except Failure Unit → Prop where
  | said {read phase course ms out line} :
    Follows object p read phase course ms out →
    Follows object p read phase course (.said line :: ms) out
  | reached {read phase phase' course ms out} :
    Follows object p read phase' course ms out →
    Follows object p read phase (.reached phase' :: course) (.reached phase' :: ms) out
  | passed {read phase course ms out q a} (hm : (Mark.asked q (.ok a)).trouble? object read = none) :
    Follows object p (read ++ (Mark.asked q (.ok a)).read) phase course ms out →
    Follows object p read phase (.asked q (.ok a) :: course) (.asked q (.ok a) :: ms) out
  | failed {read phase course q a b f r lines}
    (hm : (Mark.asked q b).trouble? object read = some f) (hl : ∀ m ∈ lines, m.isLine = true) :
    Follows object p read phase (.asked q (.ok a) :: course) (.asked q b :: (lines ++ release p r))
      (.error ⟨phase, f⟩)
  | closed {read phase r} :
    Follows object p read phase [] (release p r) (r.mapError (⟨phase, ·⟩))

/-- Nothing goes wrong in a play exactly when nothing is wrong with the answers. -/
lemma firstFailure_calls (object : Objection) (read : List (Sample Value)) (phase phase' : Phase)
    (ms : List Mark) :
    firstFailure object read phase ms = none ↔
      firstFailure object read phase' (calls ms) = none := by
  induction ms generalizing read phase phase' with
  | nil => exact Iff.rfl
  | cons m ms ih =>
    cases m with
    | said line => simpa [firstFailure, calls, Mark.isCall, Mark.trouble?, Mark.read] using ih ..
    | reached phase =>
      simpa [firstFailure, calls, Mark.isCall, Mark.trouble?, Mark.read] using ih ..
    | asked q a =>
      rw [calls, List.filter_cons_of_pos (by rfl), firstFailure, firstFailure]
      cases (Mark.asked q a).trouble? object read with
      | none => exact ih ..
      | some f => exact iff_of_false nofun nofun

/-- A side that objects to nothing fails with the fault of an answer. -/
lemma fault_of_firstFailure {read : List (Sample Value)} {phase : Phase} {ms : List Mark}
    {failure : Failure} (h : firstFailure .none read phase ms = some failure) :
    ∃ m ∈ ms, m.fault? = some failure.fault := by
  induction ms generalizing read phase with
  | nil => cases h
  | cons m ms ih =>
    rw [firstFailure] at h
    cases hm : m.trouble? .none read with
    | none =>
      rw [hm] at h
      obtain ⟨m', hm', hf⟩ := ih h
      exact ⟨m', List.mem_cons_of_mem _ hm', hf⟩
    | some f =>
      rw [hm] at h
      cases h
      refine ⟨m, List.mem_cons_self, ?_⟩
      unfold Mark.trouble? at hm
      split at hm
      · exact hm
      · cases hm
      · cases hm

namespace Follows

variable {object : Objection} {p : Nat} {read : List (Sample Value)} {phase : Phase}
  {course ms : List Mark} {out : Except Failure Unit}

/-- **The outcome is the first thing that goes wrong, with the last phase before it.** -/
theorem outcome_eq (h : Follows object p read phase course ms out) :
    out = outcome (firstFailure object read phase ms) := by
  induction h with
  | said _ ih => simpa [firstFailure, Mark.trouble?, Mark.read, Mark.phase?] using ih
  | reached _ ih => simpa [firstFailure, Mark.trouble?, Mark.read, Mark.phase?] using ih
  | passed hm _ ih => simpa [firstFailure, hm, Mark.phase?] using ih
  | failed hm hl => simp [firstFailure, hm, outcome]
  | @closed read phase r =>
    cases r <;> simp [release, firstFailure, Mark.trouble?, outcome, Except.mapError]

lemma steps_release (p : Nat) (r : Except Fault Unit) : steps (release p r) = [] := by
  simp [steps, release, Mark.step?, Request.releases]

lemma steps_lines {lines : List Mark} (hl : ∀ m ∈ lines, m.isLine = true) : steps lines = [] := by
  refine List.filterMap_eq_nil_iff.mpr fun m hm => ?_
  cases m with
  | said line => rfl
  | reached phase => cases hl _ hm
  | asked q a => cases hl _ hm

/-- **No step is left out, made twice or made in another order.** -/
theorem steps_prefix (h : Follows object p read phase course ms out) :
    steps ms <+: steps course := by
  induction h with
  | said _ ih => exact ih
  | reached _ ih => exact (List.prefix_cons_inj _).mpr ih
  | @passed read phase course ms out q a hm _ ih =>
    rw [steps, steps, List.filterMap_cons, List.filterMap_cons]
    cases (Mark.asked q (.ok a)).step? with
    | none => exact ih
    | some st => exact (List.prefix_cons_inj _).mpr ih
  | @failed read phase course q a b f r lines hm hl =>
    have hrest : steps (lines ++ release p r) = [] := by
      rw [steps, List.filterMap_append]
      exact List.append_eq_nil_iff.mpr ⟨steps_lines hl, steps_release p r⟩
    have hq : (Mark.asked q b).step? = (Mark.asked q (.ok a)).step? := rfl
    rw [steps, steps, List.filterMap_cons, List.filterMap_cons, ← steps, hrest, hq]
    cases (Mark.asked q (.ok a)).step? with
    | none => exact List.nil_prefix
    | some st => exact (List.prefix_cons_inj _).mpr List.nil_prefix
  | closed => exact List.nil_prefix

/-- **The phases come in the order of the course**, none left out and none twice. -/
theorem phases_prefix (h : Follows object p read phase course ms out) :
    phases ms <+: phases course := by
  rw [phases_eq_steps, phases_eq_steps]
  exact h.steps_prefix.filterMap _

lemma releases_or_isLine {lines : List Mark} (hl : ∀ m ∈ lines, m.isLine = true)
    {r : Except Fault Unit} {m : Mark} (hm : m ∈ lines ++ release p r) :
    m.releases = true ∨ m.isLine = true := by
  rcases List.mem_append.mp hm with hm | hm
  · exact .inr (hl m hm)
  · rcases mem_release.mp hm with rfl | rfl <;> exact .inl rfl

/-- **Nothing but the release of the entities comes after a fault**, apart from what is said of
it. -/
theorem pairwise (h : Follows object p read phase course ms out) :
    ms.Pairwise fun m m' => m.fault?.isSome → m'.releases = true ∨ m'.isLine = true := by
  induction h with
  | said _ ih => exact List.pairwise_cons.mpr ⟨fun _ _ hf => (nomatch hf), ih⟩
  | reached _ ih => exact List.pairwise_cons.mpr ⟨fun _ _ hf => (nomatch hf), ih⟩
  | passed hm _ ih => exact List.pairwise_cons.mpr ⟨fun _ _ hf => (nomatch hf), ih⟩
  | @failed read phase course q a b f r lines hm hl =>
    refine List.pairwise_cons.mpr ⟨fun m hm _ => releases_or_isLine hl hm, ?_⟩
    exact List.Pairwise.imp_of_mem (fun _ hm' _ _ => releases_or_isLine hl hm')
      (List.pairwise_of_forall fun _ _ => trivial)
  | @closed read phase r =>
    refine List.Pairwise.imp_of_mem (fun _ hm' _ _ => ?_)
      (List.pairwise_of_forall fun _ _ => trivial)
    exact releases_or_isLine (List.forall_mem_nil _) hm'

/-- **The entities are released exactly once.** -/
theorem deleted_eq (h : Follows object p read phase course ms out)
    (hc : ∀ m ∈ course, m.deleted? = none) : ms.filterMap Mark.deleted? = [p] := by
  induction h with
  | said _ ih => exact ih hc
  | reached _ ih => exact ih fun m hm => hc m (List.mem_cons_of_mem _ hm)
  | passed hm _ ih =>
    rw [List.filterMap_cons_none (hc _ List.mem_cons_self)]
    exact ih fun m hm => hc m (List.mem_cons_of_mem _ hm)
  | @failed read phase course q a b f r lines hm hl =>
    have hq : (Mark.asked q b).deleted? = none := hc (.asked q (.ok a)) List.mem_cons_self
    have hlines : lines.filterMap Mark.deleted? = [] :=
      List.filterMap_eq_nil_iff.mpr fun m hm => by
        cases m with
        | said line => rfl
        | reached phase => rfl
        | asked q a => cases hl _ hm
    rw [List.filterMap_cons_none hq, List.filterMap_append, hlines]
    rfl
  | closed => rfl

/-- **What was asked was asked after everything that the course has before it.** -/
theorem before (h : Follows object p read phase course ms out) {q : Request}
    {b : Except Fault q.Answer} (hq : q.releases = false) (hm : Mark.asked q b ∈ ms) :
    ∃ pre a, pre ++ [.asked q (.ok a)] <+: course ∧ List.Sublist (pre ++ [.asked q b]) ms := by
  have hrelease : ∀ r, Mark.asked q b ∉ release p r := fun r hm => by
    rcases mem_release.mp hm with h | h <;> cases h <;> cases hq
  induction h with
  | said _ ih =>
    rcases List.mem_cons.mp hm with h | h
    · cases h
    · obtain ⟨pre, a, hpre, hsub⟩ := ih h
      exact ⟨pre, a, hpre, hsub.cons _⟩
  | reached _ ih =>
    rcases List.mem_cons.mp hm with h | h
    · cases h
    · obtain ⟨pre, a, hpre, hsub⟩ := ih h
      exact ⟨_ :: pre, a, (List.prefix_cons_inj _).mpr hpre, hsub.cons_cons _⟩
  | passed _ _ ih =>
    rcases List.mem_cons.mp hm with h | h
    · cases h
      exact ⟨[], _, (List.prefix_cons_inj _).mpr List.nil_prefix, (List.nil_sublist _).cons_cons _⟩
    · obtain ⟨pre, a, hpre, hsub⟩ := ih h
      exact ⟨_ :: pre, a, (List.prefix_cons_inj _).mpr hpre, hsub.cons_cons _⟩
  | @failed _ _ _ _ a _ _ r lines _ hl =>
    rcases List.mem_cons.mp hm with h | h
    · cases h
      exact ⟨[], a, (List.prefix_cons_inj _).mpr List.nil_prefix, (List.nil_sublist _).cons_cons _⟩
    · rcases List.mem_append.mp h with h | h
      · cases hl _ h
      · exact absurd h (hrelease r)
  | closed => exact absurd hm (hrelease _)

/-- **A play that succeeds is the whole course**, and its release succeeds. -/
theorem unsaid_eq_course (h : Follows object p read phase course ms out) (hout : out = .ok ()) :
    unsaid ms = course ++ release p (.ok ()) := by
  induction h with
  | said _ ih => exact ih hout
  | reached _ ih => exact congrArg _ (ih hout)
  | passed _ _ ih => exact congrArg _ (ih hout)
  | failed => cases hout
  | @closed read phase r =>
    cases r with
    | ok u => rfl
    | error f => cases hout

lemma calls_eq_course (h : Follows object p read phase course ms out) (hout : out = .ok ()) :
    calls ms = calls course ++ release p (.ok ()) := by
  rw [← calls_unsaid, h.unsaid_eq_course hout, calls, List.filter_append]
  rfl

end Follows

/-- Where there is one element of a kind only, what is before it is known. -/
lemma eq_of_prefix_of_unique {α : Type} {P : α → Prop} {pre A B : List α} {x y : α}
    (h : pre ++ [x] <+: A ++ y :: B) (hx : P x) (hA : ∀ a ∈ A, ¬ P a) (hB : ∀ b ∈ B, ¬ P b) :
    pre = A ∧ x = y := by
  obtain ⟨rest, h⟩ := h
  rw [List.append_assoc, List.singleton_append] at h
  rcases List.append_eq_append_iff.mp h with ⟨mid, rfl, hmid⟩ | ⟨mid, rfl, hmid⟩
  · cases mid with
    | nil => exact ⟨(List.append_nil _).symm, (List.cons.inj hmid).1⟩
    | cons z mid =>
      obtain ⟨rfl, -⟩ := List.cons.inj hmid
      exact absurd hx (hA x (by simp))
  · cases mid with
    | nil => exact ⟨List.append_nil _, (List.cons.inj hmid).1.symm⟩
    | cons z mid =>
      obtain ⟨-, rfl⟩ := List.cons.inj hmid
      exact absurd hx (hB x (by simp))

/-! ### Failing and coming to an end -/

namespace Program.Plays

variable {p : Nat} {phase : Phase} {f : Fault} {ms : List Mark} {out : Except Failure Unit}

lemma forsake (h : (Scenario.forsake p phase f).Plays ms out) :
    ms = [.asked (.leave p) (.ok ())] ∧ out = .error ⟨phase, f⟩ := by
  obtain ⟨_, _, rfl, hend⟩ := h.ask_certain rfl
  obtain ⟨rfl, rfl⟩ := plays_done.1 hend
  exact ⟨rfl, rfl⟩

lemma abandon (h : (Scenario.abandon p phase f).Plays ms out) :
    ∃ r, ms = release p r ∧ out = .error ⟨phase, f⟩ := by
  obtain ⟨r, _, rfl, -, hleave⟩ := plays_ask.1 h
  obtain ⟨_, _, rfl, hend⟩ := hleave.ask_certain rfl
  obtain ⟨rfl, rfl⟩ := plays_done.1 hend
  exact ⟨r, rfl, rfl⟩

lemma conclude (h : (Scenario.conclude p phase).Plays ms out) :
    ∃ r, ms = release p r ∧ out = r.mapError (⟨phase, ·⟩) := by
  obtain ⟨r, _, rfl, -, hleave⟩ := plays_ask.1 h
  obtain ⟨_, _, rfl, hend⟩ := hleave.ask_certain rfl
  obtain ⟨rfl, rfl⟩ := plays_done.1 hend
  exact ⟨r, rfl, rfl⟩

/-- A fault of which a line may be said before the entities are released. -/
lemma sayMaybe {line : Option String}
    (h : (Program.sayMaybe line (Scenario.abandon p phase f)).Plays ms out) :
    ∃ lines r, (∀ m ∈ lines, m.isLine = true) ∧ ms = lines ++ release p r ∧
      out = .error ⟨phase, f⟩ := by
  cases line with
  | none =>
    obtain ⟨r, rfl, rfl⟩ := abandon h
    exact ⟨[], r, by simp, rfl, rfl⟩
  | some line =>
    obtain ⟨_, rfl, hend⟩ := plays_say.1 h
    obtain ⟨r, rfl, rfl⟩ := abandon hend
    exact ⟨[.said line], r, by simp [Mark.isLine], rfl, rfl⟩

end Program.Plays

namespace Follows

variable {object : Objection} {p : Nat} {read : List (Sample Value)} {phase : Phase}
  {course ms : List Mark} {out : Except Failure Unit} {q : Request} {a : q.Answer} {f : Fault}

/-- A request fails, or its answer is objected to, and the side gives up. -/
lemma abandoned {b : Except Fault q.Answer} (hm : (Mark.asked q b).trouble? object read = some f)
    (h : (Scenario.abandon p phase f).Plays ms out) :
    Follows object p read phase (.asked q (.ok a) :: course) (.asked q b :: ms) out := by
  obtain ⟨r, rfl, rfl⟩ := h.abandon
  exact .failed hm (List.forall_mem_nil _)

/-- A request fails, and the side says something of it and gives up. -/
lemma reported {line : Option String}
    (h : (Program.sayMaybe line (Scenario.abandon p phase f)).Plays ms out) :
    Follows object p read phase (.asked q (.ok a) :: course) (.asked q (.error f) :: ms) out := by
  obtain ⟨lines, r, hl, rfl, rfl⟩ := h.sayMaybe
  exact .failed rfl hl

/-- The entities are released, and that is the end. -/
lemma concluded (h : (Scenario.conclude p phase).Plays ms out) :
    Follows object p read phase [] ms out := by
  obtain ⟨r, rfl, rfl⟩ := h.conclude
  exact .closed

/-- A failure is told with a phase that was reached. -/
lemma phase_of_error (h : Follows object p read phase course ms out) {failure : Failure}
    (hout : out = .error failure) :
    failure.phase = phase ∨ .reached failure.phase ∈ course := by
  induction h with
  | said _ ih => exact ih hout
  | reached _ ih =>
    rcases ih hout with h | h
    · exact .inr (h ▸ List.mem_cons_self)
    · exact .inr (List.mem_cons_of_mem _ h)
  | passed _ _ ih => exact (ih hout).imp_right (List.mem_cons_of_mem _)
  | failed => exact .inl (by cases hout; rfl)
  | @closed read phase r =>
    cases r with
    | ok u => cases hout
    | error f => exact .inl (by cases hout; rfl)

end Follows

/-! ### Creating the entities -/

namespace Scenario

variable {s : Scenario} {c : Config} {kind : EndpointKind} {nameStart : String} {phase : Phase}
  {next : Nat → Guid → Program} {ms : List Mark} {out : Except Failure Unit}

def entry (s : Scenario) (c : Config) (kind : EndpointKind) (nameStart : String) (p : Nat)
    (t : Topic) (g : Group) (e : Guid) : List Mark :=
  [.asked (.join c.domain (nameStart ++ s.topic)) (.ok p),
    .asked (.createTopic p s.topic s.sample.type) (.ok t),
    .asked (.createGroup p kind) (.ok g),
    .asked (.createEndpoint p kind g t s.sample.type s.qos) (.ok e)]

/-- A creation that fails: what was created goes with its participant. -/
inductive Barred (s : Scenario) (c : Config) (kind : EndpointKind) (nameStart : String) :
    List Mark → Fault → Prop where
  | config {f} (hf : c.validate = .error f) : Barred s c kind nameStart [] f
  | join {f} (hc : c.validate = .ok ()) :
    Barred s c kind nameStart [.asked (.join c.domain (nameStart ++ s.topic)) (.error f)] f
  | topic {p f} (hc : c.validate = .ok ()) :
    Barred s c kind nameStart
      [.asked (.join c.domain (nameStart ++ s.topic)) (.ok p),
        .asked (.createTopic p s.topic s.sample.type) (.error f), .asked (.leave p) (.ok ())] f
  | group {p t f} (hc : c.validate = .ok ()) :
    Barred s c kind nameStart
      [.asked (.join c.domain (nameStart ++ s.topic)) (.ok p),
        .asked (.createTopic p s.topic s.sample.type) (.ok t),
        .asked (.createGroup p kind) (.error f), .asked (.leave p) (.ok ())] f
  | endpoint {p t g f} (hc : c.validate = .ok ()) :
    Barred s c kind nameStart
      [.asked (.join c.domain (nameStart ++ s.topic)) (.ok p),
        .asked (.createTopic p s.topic s.sample.type) (.ok t),
        .asked (.createGroup p kind) (.ok g),
        .asked (.createEndpoint p kind g t s.sample.type s.qos) (.error f),
        .asked (.leave p) (.ok ())] f

namespace Barred

variable {f : Fault}

lemma steps_prefix (h : s.Barred c kind nameStart ms f) :
    ∃ p t g e, ∀ rest, steps ms <+: steps (s.entry c kind nameStart p t g e ++ rest) := by
  cases h with
  | config hf => exact ⟨default, default, default, default, fun _ => List.nil_prefix⟩
  | join => exact ⟨default, default, default, default, fun _ => ⟨_, rfl⟩⟩
  | @topic p => exact ⟨p, default, default, default, fun _ => ⟨_, rfl⟩⟩
  | @group p t => exact ⟨p, t, default, default, fun _ => ⟨_, rfl⟩⟩
  | @endpoint p t g => exact ⟨p, t, g, default, fun _ => ⟨_, rfl⟩⟩

lemma phases_eq (h : s.Barred c kind nameStart ms f) : phases ms = [] := by cases h <;> rfl

lemma deleted_eq (h : s.Barred c kind nameStart ms f) : ms.filterMap Mark.deleted? = [] := by
  cases h <;> rfl

lemma creates_eq (h : s.Barred c kind nameStart ms f) : ∀ m ∈ ms, m.creates = false := by
  cases h <;> simp [Mark.creates]

lemma pairwise (h : s.Barred c kind nameStart ms f) :
    ms.Pairwise fun m m' => m.fault?.isSome → m'.releases = true ∨ m'.isLine = true := by
  cases h <;> simp [Mark.fault?, Mark.releases, Request.releases]

lemma firstFailure_eq (h : s.Barred c kind nameStart ms f) (hc : c.validate = .ok ())
    (object : Objection) : firstFailure object [] phase ms = some ⟨phase, f⟩ := by
  cases h with
  | config hf => cases hc.symm.trans hf
  | _ => rfl

lemma fault_eq (h : s.Barred c kind nameStart ms f) :
    c.validate = .error f ∨ ∃ m ∈ ms, m.fault? = some f := by
  cases h with
  | config hf => exact .inl hf
  | _ => exact .inr (by simp [Mark.fault?])

lemma eq_nil (h : s.Barred c kind nameStart ms f) {f' : Fault} (hc : c.validate = .error f') :
    ms = [] ∧ f = f' := by
  cases h with
  | config hf => exact ⟨rfl, Except.error.inj (hf.symm.trans hc)⟩
  | join h | topic h | group h | endpoint h => cases h.symm.trans hc

end Barred

/-- **A side that enters** fails to create its entities, or goes on with all of them. -/
theorem enter_plays (h : (s.enter c kind nameStart phase next).Plays ms out) :
    (∃ f, s.Barred c kind nameStart ms f ∧ out = .error ⟨phase, f⟩) ∨
    ∃ p t g e ms', c.validate = .ok () ∧ ms = s.entry c kind nameStart p t g e ++ ms' ∧
      (next p e).Plays ms' out := by
  unfold enter Program.ensure at h
  cases hc : c.validate with
  | error f =>
    rw [hc] at h
    obtain ⟨rfl, rfl⟩ := Program.plays_done.1 h
    exact .inl ⟨f, .config hc, rfl⟩
  | ok _ =>
    rw [hc] at h
    rcases h.require with ⟨p, _, rfl, hp⟩ | ⟨f, _, rfl, hf⟩
    swap
    · obtain ⟨rfl, rfl⟩ := Program.plays_done.1 hf
      exact .inl ⟨f, .join hc, rfl⟩
    rcases hp.require with ⟨t, _, rfl, ht⟩ | ⟨f, _, rfl, hf⟩
    swap
    · obtain ⟨rfl, rfl⟩ := hf.forsake
      exact .inl ⟨f, .topic hc, rfl⟩
    rcases ht.require with ⟨g, _, rfl, hg⟩ | ⟨f, _, rfl, hf⟩
    swap
    · obtain ⟨rfl, rfl⟩ := hf.forsake
      exact .inl ⟨f, .group hc, rfl⟩
    rcases hg.require with ⟨e, ms', rfl, he⟩ | ⟨f, _, rfl, hf⟩
    swap
    · obtain ⟨rfl, rfl⟩ := hf.forsake
      exact .inl ⟨f, .endpoint hc, rfl⟩
    exact .inr ⟨p, t, g, e, ms', rfl, rfl, he⟩

/-- A side that has entered follows its course from the very beginning. -/
lemma follows_entry {object : Objection} {p : Nat} {course : List Mark} (t : Topic) (g : Group)
    (e : Guid) (h : Follows object p [] phase course ms out) :
    Follows object p [] phase (s.entry c kind nameStart p t g e ++ course)
      (s.entry c kind nameStart p t g e ++ ms) out :=
  .passed rfl <| .passed rfl <| .passed rfl <| .passed rfl h

end Scenario

end PubSub
