import Mathlib.Data.List.Basic
import Mathlib.Order.WellFounded
import PubSub.Proofs.Loopback.Call

/-!
Two programs on one medium, in any order of their steps and of those of the workers that deliver
the changes. The parts of a call are steps of their own. A wait is over as soon as its condition is
seen to hold, and never before.
-/

namespace PubSub

open Loopback

/-! ### Programs that take turns -/

/-- A program on its way: the last phase that it has reached, what its present call has still to
do, and whether it listens to what the wait that it is at is for. -/
structure Side where
  program : Program
  phase : Option Phase
  chores : List Chore
  listening : Bool

namespace Side

def start (p : Program) : Side := ⟨p, none, [], false⟩

def step? (gate : Gate World) (w : World) (x : Side) : Option (World × Side) :=
  match x.chores, x.program with
  | t :: rest, _ => let (w, more) := w.chore t; some (w, { x with chores := more ++ rest })
  | [], .done _ => none
  | [], .say _ next => some (w, { x with program := next })
  | [], .reach phase next => some (w, { x with program := next, phase := some phase })
  | [], .ask (.await e c limit) next =>
    -- its time is never over
    if x.listening then
      (Runner.verdict? w e c limit (Middleware.now w + 1)).map fun r =>
        (w, { x with program := next r, listening := false })
    else some (Runner.listen w e c, { x with listening := true })
  | [], .ask q next =>
    let (w, chores, r) := w.begin gate q
    some (w, { x with program := next r, chores })

/-- How many steps are left at most before the program goes on. -/
def work (x : Side) : Nat := (x.chores.map Chore.weight).sum + if x.listening then 0 else 1

end Side

/-- Both sides of a scenario, their medium, and the acknowledgments that the workers of its domains
are about to pass on. -/
structure Stage where
  world : World
  publisher : Side
  subscriber : Side
  held : Table Nat Domain.Receipt

namespace Stage

def start (w : World) (publisher subscriber : Program) : Stage :=
  ⟨w, .start publisher, .start subscriber, []⟩

inductive Step (gate : Gate World) (g : Stage) : Stage → Prop
  | publish {w : World} {x : Side} (h : g.publisher.step? gate g.world = some (w, x)) :
    Step gate g { g with world := w, publisher := x }
  | subscribe {w : World} {x : Side} (h : g.subscriber.step? gate g.world = some (w, x)) :
    Step gate g { g with world := w, subscriber := x }
  | store {i : Nat} {d : Domain} {j : Job} {rest : List Job} (hd : g.world.domains[i]? = some d)
    (hp : d.paused = false) (hheld : g.held.get? i = none) (hq : d.queue = j :: rest) :
    Step gate g { g with
      world := { g.world with
        domains := g.world.domains.set i ({ d with queue := rest }.store j).1 }
      held := (({ d with queue := rest }.store j).2.map (i, ·)).toList ++ g.held }
  | confirm {i : Nat} {d : Domain} {a : Domain.Receipt} (hd : g.world.domains[i]? = some d)
    (hheld : g.held.get? i = some a) :
    Step gate g { g with
      world := { g.world with domains := g.world.domains.set i (d.confirm a) }
      held := g.held.erase i }

def Reaches (gate : Gate World) : Stage → Stage → Prop := Relation.ReflTransGen (Step gate)

end Stage

/-! ### No interleaving goes on forever -/

inductive Program.Next : Program → Program → Prop
  | say {line : String} {next : Program} : Next next (.say line next)
  | reach {phase : Phase} {next : Program} : Next next (.reach phase next)
  | ask {q : Request} {next : Except Fault q.Answer → Program} (r : Except Fault q.Answer) :
    Next (next r) (.ask q next)

lemma Program.wellFounded_next : WellFounded Program.Next := by
  refine ⟨fun p => ?_⟩
  induction p with
  | done outcome => exact ⟨_, fun _ h => nomatch h⟩
  | say line next ih => exact ⟨_, fun | _, .say => ih⟩
  | reach phase next ih => exact ⟨_, fun | _, .reach => ih⟩
  | ask q next ih => exact ⟨_, fun | _, .ask r => ih r⟩

lemma Loopback.Chore.weight_pos (t : Chore) : 0 < t.weight := by
  cases t <;> simp [weight]

lemma Loopback.Chore.weight_run (d : Domain) (t : Chore) :
    ((t.run d).2.map Chore.weight).sum < t.weight := by
  cases t with
  | closeWriter w =>
    rw [Chore.run]
    split
    · split_ifs
      · exact Nat.one_lt_two
      · exact Nat.two_pos
    · exact Nat.two_pos
  | closeReader r =>
    rw [Chore.run]
    split
    · split_ifs
      · exact Nat.one_lt_two
      · exact Nat.two_pos
    · exact Nat.two_pos
  | _ => exact Nat.one_pos

/-- A step lets the program go on, or leaves less to do before that. -/
lemma Side.next_of_step {gate : Gate World} {w w' : World} {x x' : Side}
    (h : x.step? gate w = some (w', x')) :
    Program.Next x'.program x.program ∨ x'.program = x.program ∧ x'.work < x.work := by
  unfold Side.step? at h
  split at h
  · next t rest hchores =>
    obtain ⟨-, rfl⟩ := Prod.mk.inj (Option.some.inj h)
    refine .inr ⟨rfl, ?_⟩
    -- a chore weighs more than all that it leaves
    have hweight : ((w.chore t).2.map Chore.weight).sum < t.weight := by
      unfold World.chore
      split
      · exact t.weight_run _
      · exact t.weight_pos
    change ((((w.chore t).2 ++ rest).map Chore.weight).sum + if x.listening then 0 else 1) < _
    simp only [Side.work, hchores, List.map_append, List.sum_append, List.map_cons, List.sum_cons]
    omega
  · cases h
  · next hprogram =>
    obtain ⟨-, rfl⟩ := Prod.mk.inj (Option.some.inj h)
    exact .inl (hprogram ▸ .say)
  · next hprogram =>
    obtain ⟨-, rfl⟩ := Prod.mk.inj (Option.some.inj h)
    exact .inl (hprogram ▸ .reach)
  · next hprogram =>
    -- a wait is over, or has begun to listen, which it does once
    split_ifs at h with hlistening
    · obtain ⟨r, -, hr⟩ := Option.map_eq_some_iff.mp h
      obtain ⟨-, rfl⟩ := Prod.mk.inj hr
      exact .inl (hprogram ▸ .ask r)
    · obtain ⟨-, rfl⟩ := Prod.mk.inj (Option.some.inj h)
      exact .inr ⟨rfl, by simp [Side.work, hlistening]⟩
  · next hprogram =>
    obtain ⟨-, rfl⟩ := Prod.mk.inj (Option.some.inj h)
    exact .inl (hprogram ▸ .ask _)

namespace Stage

def load (g : Stage) : Nat :=
  2 * (g.world.domains.map (·.queue.length)).sum + g.held.length

lemma sum_map_set {α : Type} {f : α → Nat} {l : List α} {i : Nat} {a b : α} (h : l[i]? = some a) :
    ((l.set i b).map f).sum + f a = (l.map f).sum + f b := by
  induction l generalizing i with
  | nil => cases h
  | cons c l ih =>
    cases i with
    | zero =>
      obtain rfl := Option.some.inj h
      simp only [List.set_cons_zero, List.map_cons, List.sum_cons]
      omega
    | succ i =>
      have hl := ih h
      simp only [List.set_cons_succ, List.map_cons, List.sum_cons]
      omega

/-- The order in which a step leads down: the programs first, then what they have to do before
they go on, then the load of the workers. -/
def order : Program × Program × Nat × Nat → Program × Program × Nat × Nat → Prop :=
  Prod.Lex Program.Next (Prod.Lex Program.Next (Prod.Lex (· < ·) (· < ·)))

def rank (g : Stage) : Program × Program × Nat × Nat :=
  (g.publisher.program, g.subscriber.program, g.publisher.work + g.subscriber.work, g.load)

lemma queue_store (d : Domain) (j : Job) : (d.store j).1.queue = d.queue := by
  unfold Domain.store
  split <;> rfl

lemma rank_step {gate : Gate World} {g g' : Stage} (h : Step gate g g') : order g'.rank g.rank := by
  cases h with
  | publish h =>
    rcases Side.next_of_step h with hnext | ⟨hsame, hwork⟩
    · exact .left _ _ hnext
    · rw [rank, rank, hsame]
      exact .right _ (.right _ (.left _ _ (Nat.add_lt_add_right hwork _)))
  | subscribe h =>
    rcases Side.next_of_step h with hnext | ⟨hsame, hwork⟩
    · exact .right _ (.left _ _ hnext)
    · rw [rank, rank, hsame]
      exact .right _ (.right _ (.left _ _ (Nat.add_lt_add_left hwork _)))
  | @store i d j rest hd hp hheld hq =>
    refine .right _ (.right _ (.right _ ?_))
    have hsum := sum_map_set (f := (·.queue.length)) (b := ({ d with queue := rest }.store j).1) hd
    have hreceipt : ((({ d with queue := rest }.store j).2.map (i, ·)).toList).length ≤ 1 := by
      cases ({ d with queue := rest }.store j).2 <;> simp
    simp only [queue_store, hq, List.length_cons] at hsum
    simp only [load, List.length_append]
    omega
  | @confirm i d a hd hheld =>
    refine .right _ (.right _ (.right _ ?_))
    have hsum := sum_map_set (f := (·.queue.length)) (b := d.confirm a) hd
    have herase : (g.held.erase i).length < g.held.length :=
      List.length_filter_lt_length_iff_exists.mpr
        ⟨(i, a), Table.mem_of_get? hheld, by simp⟩
    have hqueue : (d.confirm a).queue = d.queue := rfl
    rw [hqueue] at hsum
    simp only [load]
    omega

/-- **No interleaving of two programs goes on forever.** -/
theorem wellFounded_step (gate : Gate World) : WellFounded fun g' g => Step gate g g' :=
  have horder : WellFounded order :=
    Program.wellFounded_next.prod_lex
      (Program.wellFounded_next.prod_lex (Nat.lt_wfRel.wf.prod_lex Nat.lt_wfRel.wf))
  (InvImage.wf rank horder).mono fun _ _ => rank_step

end Stage

end PubSub
