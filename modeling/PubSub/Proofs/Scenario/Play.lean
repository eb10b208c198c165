import Mathlib.Tactic.Lemma
import PubSub.Scenario.Script

/-!
What a side of a scenario does on a medium, seen from outside: the lines it reports, the phases it
reaches, and every request with its answer, in order. A medium may answer as it likes, so a play
is a path through the program down to an outcome.
-/

namespace PubSub

/-- Whether a request has an answer whatever happens. -/
def Request.certain : Request → Bool
  | .takeMatched .. | .leave _ | .rest _ => true
  | _ => false

inductive Mark where
  | said (line : String)
  | reached (phase : Phase)
  | asked (q : Request) (answer : Except Fault q.Answer)

/-- A medium that serves one side: how it answers may depend on all that it was asked before. -/
structure Server (σ : Type) where
  serve : σ → (q : Request) → σ × Except Fault q.Answer
  certain : ∀ x q, q.certain = true → ∃ a, (serve x q).2 = .ok a

def Server.play (M : Server σ) (x : σ) : Program → List Mark × Except Failure Unit
  | .done outcome => ([], outcome)
  | .say line next => let (ms, out) := M.play x next; (.said line :: ms, out)
  | .reach phase next => let (ms, out) := M.play x next; (.reached phase :: ms, out)
  | .ask q next =>
    let (x, a) := M.serve x q
    let (ms, out) := M.play x (next a)
    (.asked q a :: ms, out)

namespace Program

/-- A program can be played like this and comes to that outcome. -/
inductive Plays : Program → List Mark → Except Failure Unit → Prop where
  | done {out} : Plays (.done out) [] out
  | say {line next ms out} : Plays next ms out → Plays (.say line next) (.said line :: ms) out
  | reach {phase next ms out} :
    Plays next ms out → Plays (.reach phase next) (.reached phase :: ms) out
  | ask {q next ms out} (a : Except Fault q.Answer) (ha : q.certain = true → ∃ v, a = .ok v) :
    Plays (next a) ms out → Plays (.ask q next) (.asked q a :: ms) out

/-- **Every medium has a side play its program.** -/
theorem plays_play (M : Server σ) (x : σ) (p : Program) :
    p.Plays (M.play x p).1 (M.play x p).2 := by
  induction p generalizing x with
  | done outcome => exact .done
  | say line next ih => exact .say (ih x)
  | reach phase next ih => exact .reach (ih x)
  | ask q next ih => exact .ask _ (M.certain x q) (ih _ _)

/-! ### One rule for each part of a program -/

variable {next : Program} {ms : List Mark} {out : Except Failure Unit} {f : Fault}

@[simp] lemma plays_done {r : Except Failure Unit} : Plays (.done r) ms out ↔ ms = [] ∧ out = r := by
  refine ⟨fun h => ?_, ?_⟩
  · cases h
    exact ⟨rfl, rfl⟩
  · rintro ⟨rfl, rfl⟩
    exact .done

@[simp] lemma plays_say {line : String} :
    Plays (.say line next) ms out ↔ ∃ ms', ms = .said line :: ms' ∧ next.Plays ms' out := by
  refine ⟨fun h => ?_, ?_⟩
  · cases h with
    | say h => exact ⟨_, rfl, h⟩
  · rintro ⟨ms', rfl, h⟩
    exact .say h

@[simp] lemma plays_reach {phase : Phase} :
    Plays (.reach phase next) ms out ↔ ∃ ms', ms = .reached phase :: ms' ∧ next.Plays ms' out := by
  refine ⟨fun h => ?_, ?_⟩
  · cases h with
    | reach h => exact ⟨_, rfl, h⟩
  · rintro ⟨ms', rfl, h⟩
    exact .reach h

lemma plays_ask {q : Request} {next : Except Fault q.Answer → Program} :
    Plays (.ask q next) ms out ↔
      ∃ a ms', ms = .asked q a :: ms' ∧ (q.certain = true → ∃ v, a = .ok v) ∧
        (next a).Plays ms' out := by
  refine ⟨fun h => ?_, ?_⟩
  · cases h with
    | ask a ha h => exact ⟨a, _, rfl, ha, h⟩
  · rintro ⟨a, ms', rfl, ha, h⟩
    exact .ask a ha h

/-- What has to succeed is answered, or its fault is handed on. -/
lemma Plays.require {q : Request} {onFault : Fault → Program} {next : q.Answer → Program}
    (h : (Program.require q onFault next).Plays ms out) :
    (∃ a ms', ms = .asked q (.ok a) :: ms' ∧ (next a).Plays ms' out) ∨
    ∃ f ms', ms = .asked q (.error f) :: ms' ∧ (onFault f).Plays ms' out := by
  obtain ⟨a, ms', rfl, -, h⟩ := plays_ask.1 h
  cases a with
  | ok a => exact .inl ⟨a, ms', rfl, h⟩
  | error f => exact .inr ⟨f, ms', rfl, h⟩

lemma Plays.ask_certain {q : Request} {next : Except Fault q.Answer → Program}
    (hq : q.certain = true) (h : Plays (.ask q next) ms out) :
    ∃ a ms', ms = .asked q (.ok a) :: ms' ∧ (next (.ok a)).Plays ms' out := by
  obtain ⟨a, ms', rfl, ha, h⟩ := plays_ask.1 h
  obtain ⟨v, rfl⟩ := ha hq
  exact ⟨v, ms', rfl, h⟩

end Program

/-! ### Scripted media -/

namespace Script

variable {s : Script}

/-- A script under which nothing fails that cannot fail. -/
def Sensible (s : Script) : Prop := ∀ q, q.certain = true → s.fault? q = none

lemma certain_serve (hs : s.Sensible) (r : Record) (q : Request) (hq : q.certain = true) :
    ∃ a, (s.serve r q).2 = .ok a := by
  have hf := hs q hq
  cases q with
  | takeMatched e k => exact ⟨s.matched, by simp [serve, hf, answer]⟩
  | leave p => exact ⟨(), by simp [serve, hf, answer]⟩
  | rest d => exact ⟨(), by simp [serve, hf, answer]⟩
  | _ => cases hq

def server (s : Script) (hs : s.Sensible) : Server Record := ⟨s.serve, certain_serve hs⟩

/-- The lines reported so far have no bearing on the answers. -/
lemma serve_lines (s : Script) (r : Record) (lines : List String) (q : Request) :
    s.serve { r with lines } q = ({ (s.serve r q).1 with lines }, (s.serve r q).2) := by
  cases q <;> simp only [serve, Request.logLine?] <;> cases s.fault? _ <;> rfl

/-- **A run on a scripted medium is a play**: it comes to the same outcome and reports the lines of
the play. -/
theorem run_eq_play (hs : s.Sensible) (r : Record) (p : Program) :
    (s.run r p).2 = ((s.server hs).play r p).2 ∧
    (s.run r p).1.lines = r.lines ++ ((s.server hs).play r p).1.filterMap fun
      | .said line => some line
      | _ => none := by
  -- the play does not write down the lines, so its record differs from that of the run in them
  suffices h : ∀ lines, (s.run { r with lines } p).2 = ((s.server hs).play r p).2 ∧
      (s.run { r with lines } p).1.lines = lines ++ ((s.server hs).play r p).1.filterMap fun
        | .said line => some line
        | _ => none from h r.lines
  intro lines
  induction p generalizing r lines with
  | done outcome => simp [run, Server.play]
  | say line next ih =>
    obtain ⟨h₁, h₂⟩ := ih r (lines ++ [line])
    simp [run, Server.play, h₁, h₂]
  | reach phase next ih => simpa [run, Server.play] using ih r lines
  | ask q next ih =>
    simpa [run, Server.play, server, serve_lines] using ih _ (s.serve r q).1 lines

end Script

end PubSub
