import Mathlib.Data.List.Basic
import PubSub.Loopback.World
import PubSub.Proofs.Table
import PubSub.Scenario.Runner

/-!
The parts of a call. A call that does several things to the medium does them one by one, and
anything may happen in between: a change is made before it is queued, an endpoint is closed before
it is taken off the entries, and an arrived change is stored before it is acknowledged. Whatever is
done under the lock on the entries is one part. With nothing in between, the parts make up the call.
-/

namespace PubSub.Loopback

/-- What a call has still to do to the medium. -/
inductive Chore where
  | submit (w : Guid) (out : List Outgoing)
  | closeWriter (w : Guid)
  | closeReader (r : Guid)
  | unlist (key : MatchKey) (g : Guid)
  /-- The participant leaves for good. -/
  | retire (p : Nat)

namespace Chore

def close : EndpointKind → Guid → Chore
  | .writer => closeWriter
  | .reader => closeReader

def home : Chore → Nat
  | submit w _ => w.participant
  | closeWriter w => w.participant
  | closeReader r => r.participant
  | unlist _ g => g.participant
  | retire p => p

/-- Does it; there may be more to do because of that. -/
def run (d : Domain) : Chore → Domain × List Chore
  | submit w out => (d.submit w out, [])
  | closeWriter w =>
    match d.writers.get? w with
    | some x =>
      if x.isOpen then (d.adjustWriter w ({ · with isOpen := false }), [unlist x.key w])
      else (d, [])
    | none => (d, [])
  | closeReader r =>
    match d.readers.get? r with
    | some y =>
      if y.isOpen then (d.adjustReader r ({ · with isOpen := false }), [unlist y.key r])
      else (d, [])
    | none => (d, [])
  | unlist key g => (d.unlist key g, [])
  | retire p => ({ d with participants := d.participants.adjust p ({ · with left := true }) }, [])

def complete (d : Domain) (t : Chore) : Domain :=
  let (d, more) := t.run d
  more.foldl (fun d t => (t.run d).1) d

def weight : Chore → Nat
  | closeWriter _ => 2
  | closeReader _ => 2
  | _ => 1

end Chore

namespace Domain

def condemn (d : Domain) (p : Nat) : Domain :=
  { d with participants := d.participants.adjust p ({ · with deleted := true }) }

def closings (d : Domain) (p : Nat) : List Chore :=
  (d.writers.keys.filter (·.participant = p)).map .closeWriter ++
    (d.readers.keys.filter (·.participant = p)).map .closeReader

lemma complete_closeWriter (d : Domain) (w : Guid) :
    (Chore.closeWriter w).complete d = d.closeWriter w := by
  rw [Chore.complete, Chore.run, closeWriter]
  cases d.writers.get? w with
  | none => rfl
  | some x =>
    dsimp only
    split_ifs <;> rfl

lemma complete_closeReader (d : Domain) (r : Guid) :
    (Chore.closeReader r).complete d = d.closeReader r := by
  rw [Chore.complete, Chore.run, closeReader]
  cases d.readers.get? r with
  | none => rfl
  | some y =>
    dsimp only
    split_ifs <;> rfl

lemma keys_readers_part (d : Domain) (gone peer : Entry) :
    (d.part gone peer).readers.keys = d.readers.keys := by
  unfold part
  split
  · exact Table.keys_adjust d.readers peer.guid (readerUnbound · gone.guid)
  · rfl
  · rfl

lemma keys_readers_closeWriter (d : Domain) (w : Guid) :
    (d.closeWriter w).readers.keys = d.readers.keys := by
  have hfold : ∀ (es : List Entry) (e : Entry) (d : Domain),
      (es.foldl (fun d peer => d.part e peer) d).readers.keys = d.readers.keys := by
    intro es e
    induction es with
    | nil => exact fun d => rfl
    | cons e' es ih => exact fun d => (ih _).trans (keys_readers_part d e e')
  unfold closeWriter
  split
  · split_ifs
    · unfold unlist
      split
      · exact hfold _ _ _
      · rfl
    · rfl
  · rfl

/-- All endpoints of a participant are closed, one after the other. -/
theorem foldl_closings (d : Domain) (p : Nat) :
    (d.closings p).foldl Chore.complete (d.condemn p) = d.delete p := by
  have hkeys : ∀ (ws : List Guid) (d : Domain),
      (ws.foldl closeWriter d).readers.keys = d.readers.keys := by
    intro ws
    induction ws with
    | nil => exact fun d => rfl
    | cons w ws ih => exact fun d => (ih _).trans (keys_readers_closeWriter d w)
  rw [closings, List.foldl_append, List.foldl_map, List.foldl_map, delete]
  simp only [complete_closeWriter, complete_closeReader, hkeys]
  rfl

/-- A participant leaves after that. -/
theorem foldl_closings_retire (d : Domain) (p : Nat) :
    (d.closings p ++ [Chore.retire p]).foldl Chore.complete (d.condemn p) = d.leave p := by
  rw [List.foldl_append, foldl_closings]
  rfl

/-- An acknowledgment that is on its way to its writer. -/
structure Receipt where
  writer : Guid
  reader : Guid
  number : Nat

/-- The first half of a job: the change arrives at its reader. -/
def store (d : Domain) (j : Job) : Domain × Option Receipt :=
  match d.readers.get? j.out.reader with
  | none => (d, none)
  | some y =>
    let (y, acked) := y.receive j.writer j.out.number j.out.change
    (d.adjustReader j.out.reader fun _ => y, acked.map fun n => ⟨j.writer, j.out.reader, n⟩)

/-- The second half of a job: the acknowledgment arrives at the writer. -/
def confirm (d : Domain) (a : Receipt) : Domain :=
  d.adjustWriter a.writer (·.acknowledge a.reader a.number)

/-- The two halves make up the job. -/
theorem run_eq_store (d : Domain) (j : Job) :
    d.run j = ((d.store j).2.map (d.store j).1.confirm).getD (d.store j).1 := by
  rw [run, store]
  cases d.readers.get? j.out.reader with
  | none => rfl
  | some y =>
    dsimp only
    cases (y.receive j.writer j.out.number j.out.change).2 <;> rfl

end Domain

namespace World

def closings (w : World) (p : Nat) : List Chore :=
  ((w.domainOf? p).map (·.closings p)).getD []

def chore (w : World) (t : Chore) : World × List Chore :=
  match w.domainOf? t.home with
  | some d => let (d, more) := t.run d; (w.adjust t.home fun _ => d, more)
  | none => (w, [])

/-- A call begins: it does the first thing to the medium, which decides about the answer, and the
chores are left for later. -/
def begin (gate : Gate World) (w : World) :
    (q : Request) → World × List Chore × Except Fault q.Answer
  | .write e v =>
    match w.within e.participant (.deleted .writer) (·.append e v) with
    | .ok (w, out) => (w, [.submit e out], .ok v.key.handle)
    | .error f => (w, [], .error f)
  | .dispose e v h =>
    match w.within e.participant (.deleted .writer) (·.appendDisposal e v h) with
    | .ok (w, out) => (w, [.submit e out], .ok ())
    | .error f => (w, [], .error f)
  | .delete p => (w.adjust p (·.condemn p), w.closings p, .ok ())
  | .leave p => (w.adjust p (·.condemn p), w.closings p ++ [.retire p], .ok ())
  | q => let (w, r) := Runner.answer gate w q; (w, [], r)

end World

/-! ### Calls that nothing interrupts -/

lemma Domain.participants_part (d : Domain) (gone peer : Entry) :
    (d.part gone peer).participants = d.participants := by
  unfold part
  split <;> rfl

lemma Domain.participants_unlist (d : Domain) (key : MatchKey) (g : Guid) :
    (d.unlist key g).participants = d.participants := by
  have hfold : ∀ (es : List Entry) (e : Entry) (d : Domain),
      (es.foldl (fun d peer => d.part e peer) d).participants = d.participants := by
    intro es e
    induction es with
    | nil => exact fun d => rfl
    | cons e' es ih => exact fun d => (ih _).trans (participants_part d e e')
  unfold unlist
  split
  · exact hfold _ _ _
  · rfl

namespace Chore

lemma has_run (d : Domain) (t : Chore) (p : Nat) :
    (t.run d).1.participants.has p = d.participants.has p := by
  cases t with
  | submit w out =>
    rw [run, Domain.submit]
    split <;> rfl
  | closeWriter w =>
    rw [run]
    split
    · split_ifs <;> rfl
    · rfl
  | closeReader r =>
    rw [run]
    split
    · split_ifs <;> rfl
    · rfl
  | unlist key g => exact congrArg (Table.has · p) (d.participants_unlist key g)
  | retire q => exact Table.has_adjust d.participants q ({ · with left := true }) p

lemma home_run (d : Domain) (t t' : Chore) (h : t' ∈ (t.run d).2) : t'.home = t.home := by
  cases t with
  | closeWriter w =>
    rw [run] at h
    split at h
    · split_ifs at h
      · rw [List.mem_singleton.mp h]
        rfl
      · cases h
    · cases h
  | closeReader r =>
    rw [run] at h
    split at h
    · split_ifs at h
      · rw [List.mem_singleton.mp h]
        rfl
      · cases h
    · cases h
  | _ => cases h

lemma has_foldl_run (ts : List Chore) (d : Domain) (p : Nat) :
    (ts.foldl (fun d t => (t.run d).1) d).participants.has p = d.participants.has p := by
  induction ts generalizing d with
  | nil => rfl
  | cons t ts ih => exact (ih _).trans (has_run d t p)

lemma has_complete (d : Domain) (t : Chore) (p : Nat) :
    (t.complete d).participants.has p = d.participants.has p :=
  (has_foldl_run _ _ p).trans (has_run d t p)

end Chore

lemma Domain.home_closings (d : Domain) (p : Nat) (t : Chore) (h : t ∈ d.closings p) :
    t.home = p := by
  rcases List.mem_append.mp h with h | h
  · obtain ⟨g, hg, rfl⟩ := List.mem_map.mp h
    exact of_decide_eq_true (List.mem_filter.mp hg).2
  · obtain ⟨g, hg, rfl⟩ := List.mem_map.mp h
    exact of_decide_eq_true (List.mem_filter.mp hg).2

namespace World

def complete (w : World) (t : Chore) : World :=
  let (w, more) := w.chore t
  more.foldl (fun w t => (w.chore t).1) w

variable {w : World} {p : Nat} {d d' : Domain}

lemma has_of_domainOf? (h : w.domainOf? p = some d) : d.participants.has p = true := by
  simpa using List.find?_some h

lemma domainOf?_adjust (h : w.domainOf? p = some d) (hp : d'.participants.has p = true) :
    (w.adjust p fun _ => d').domainOf? p = some d' := by
  have hsame : ((·.participants.has p) ∘ fun d : Domain => if d.participants.has p then d' else d) =
      (·.participants.has p) := by
    funext d
    simp only [Function.comp_apply]
    split_ifs with hd
    · rw [hp, hd]
    · rfl
  rw [domainOf?, adjust, List.find?_map, hsame]
  change (w.domainOf? p).map _ = _
  rw [h, Option.map_some, if_pos (has_of_domainOf? h)]

lemma adjust_adjust (w : World) (hp : d.participants.has p = true) (f : Domain → Domain) :
    (w.adjust p fun _ => d).adjust p f = w.adjust p fun _ => f d := by
  simp only [adjust, List.map_map]
  congr 1
  refine List.map_congr_left fun d' _ => ?_
  simp only [Function.comp_apply]
  split_ifs <;> rfl

lemma adjust_of_none (h : w.domainOf? p = none) (f : Domain → Domain) : w.adjust p f = w := by
  have hsame : w.domains.map (fun d => if d.participants.has p then f d else d) = w.domains := by
    conv_rhs => rw [← List.map_id w.domains]
    exact List.map_congr_left fun d hd => if_neg (List.find?_eq_none.mp h d hd)
  rw [adjust, hsame]

/-- A participant is in one domain only. -/
def Settled (w : World) (p : Nat) : Prop :=
  ∀ d ∈ w.domains, d.participants.has p = true → w.domainOf? p = some d

lemma adjust_once (h : w.domainOf? p = some d) (honce : w.Settled p) (f : Domain → Domain) :
    w.adjust p f = w.adjust p fun _ => f d := by
  rw [adjust, adjust]
  congr 1
  refine List.map_congr_left fun d' hd' => ?_
  split_ifs with hp
  · rw [Option.some.inj (h.symm.trans (honce d' hd' hp))]
  · rfl

section Uninterrupted

variable (h : w.domainOf? p = some d) (hp : d'.participants.has p = true)

include h hp

lemma chore_adjust {t : Chore} (ht : t.home = p) :
    (w.adjust p fun _ => d').chore t = (w.adjust p fun _ => (t.run d').1, (t.run d').2) := by
  subst ht
  rw [chore, domainOf?_adjust h hp]
  exact congrArg (·, (t.run d').2) (adjust_adjust w hp _)

lemma foldl_chore {ts : List Chore} (hts : ∀ t ∈ ts, t.home = p) :
    ts.foldl (fun w t => (w.chore t).1) (w.adjust p fun _ => d') =
      w.adjust p fun _ => ts.foldl (fun d t => (t.run d).1) d' := by
  induction ts generalizing d' with
  | nil => rfl
  | cons t ts ih =>
    rw [List.foldl_cons, List.foldl_cons, chore_adjust h hp (hts t List.mem_cons_self)]
    exact ih ((t.has_run d' p).trans hp) fun t ht => hts t (List.mem_cons_of_mem _ ht)

lemma complete_adjust {t : Chore} (ht : t.home = p) :
    (w.adjust p fun _ => d').complete t = w.adjust p fun _ => t.complete d' := by
  rw [complete, chore_adjust h hp ht]
  exact foldl_chore h ((t.has_run d' p).trans hp) fun t' ht' =>
    (Chore.home_run d' t t' ht').trans ht

lemma foldl_complete {ts : List Chore} (hts : ∀ t ∈ ts, t.home = p) :
    ts.foldl complete (w.adjust p fun _ => d') =
      w.adjust p fun _ => ts.foldl Chore.complete d' := by
  induction ts generalizing d' with
  | nil => rfl
  | cons t ts ih =>
    rw [List.foldl_cons, List.foldl_cons, complete_adjust h hp (hts t List.mem_cons_self)]
    exact ih ((t.has_complete d' p).trans hp) fun t ht => hts t (List.mem_cons_of_mem _ ht)

end Uninterrupted

/-- A change that is made and then submitted by a call has been written. -/
lemma within_submit {e : Guid} {f : Fault} {α : Type} {b : α}
    {F : Domain → Except Fault (Domain × List Outgoing)}
    (hF : ∀ d d' out, F d = .ok (d', out) → d'.participants = d.participants) :
    w.within e.participant f (fun d => do let (d, out) ← F d; return (d.submit e out, b)) =
      match w.within e.participant f F with
      | .ok (w, out) => .ok (complete w (.submit e out), b)
      | .error f => .error f := by
  cases hd : w.domainOf? e.participant with
  | none => simp only [within, hd]
  | some d =>
    simp only [within, hd]
    cases hm : F d with
    | error f => rfl
    | ok r =>
      obtain ⟨d', out⟩ := r
      have hp : d'.participants.has e.participant = true := by
        rw [hF d d' out hm]
        exact has_of_domainOf? hd
      have hsubmit := complete_adjust hd hp (t := .submit e out) rfl
      exact congrArg (fun w => Except.ok (w, b)) hsubmit.symm

lemma participants_append {d : Domain} {e : Guid} {v : Value} {out : List Outgoing}
    (h : d.append e v = .ok (d', out)) : d'.participants = d.participants := by
  rw [Domain.append] at h
  cases hx : d.openWriter e with
  | error f => rw [hx] at h; cases h
  | ok x => rw [hx] at h; cases h; rfl

lemma participants_appendDisposal {d : Domain} {e : Guid} {v : Value} {handle : Handle}
    {out : List Outgoing} (h : d.appendDisposal e v handle = .ok (d', out)) :
    d'.participants = d.participants := by
  rw [Domain.appendDisposal] at h
  cases hx : d.openWriter e with
  | error f => rw [hx] at h; cases h
  | ok x =>
    rw [hx] at h
    change (x.dispose v handle >>= _) = _ at h
    cases hd : x.dispose v handle with
    | error f => rw [hd] at h; cases h
    | ok r => rw [hd] at h; cases h; rfl

/-- A participant is condemned, and what there is to do because of that is done. -/
lemma foldl_condemn {chores : List Chore} {f : Domain → Domain} (hw : w.Settled p)
    (hhome : ∀ t ∈ chores, t.home = p)
    (hchores : ∀ d, w.domainOf? p = some d →
      chores.foldl Chore.complete (d.condemn p) = f d) :
    chores.foldl complete (w.adjust p (·.condemn p)) = w.adjust p f := by
  cases hd : w.domainOf? p with
  | none =>
    rw [adjust_of_none hd, adjust_of_none hd]
    clear hchores
    induction chores with
    | nil => rfl
    | cons t ts ih =>
      have ht : w.complete t = w := by
        rw [complete, chore, hhome t List.mem_cons_self, hd]
        rfl
      rw [List.foldl_cons, ht]
      exact ih fun t ht => hhome t (List.mem_cons_of_mem _ ht)
  | some d =>
    have hp : (d.condemn p).participants.has p = true :=
      (Table.has_adjust d.participants p ({ · with deleted := true }) p).trans
        (has_of_domainOf? hd)
    rw [adjust_once hd hw (·.condemn p), adjust_once hd hw f, foldl_complete hd hp hhome,
      hchores d hd]

lemma home_closings (w : World) (p : Nat) (t : Chore) (h : t ∈ w.closings p) : t.home = p := by
  rw [closings] at h
  cases hd : w.domainOf? p with
  | none => rw [hd] at h; cases h
  | some d => rw [hd] at h; exact d.home_closings p t h

/-- **A call that nothing interrupts does what it is to do**: with nothing else in between, its
first step and its chores make up the answer of the medium. -/
theorem answer_eq_complete (gate : Gate World) (w : World) (hw : ∀ p, w.Settled p) (q : Request) :
    Runner.answer gate w q =
      ((w.begin gate q).2.1.foldl complete (w.begin gate q).1, (w.begin gate q).2.2) := by
  cases q with
  | write e v =>
    have hwrite : Middleware.write w e v = _ :=
      within_submit (b := v.key.handle) (F := (·.append e v)) fun _ _ _ => participants_append
    rw [Runner.answer, hwrite, begin]
    cases w.within e.participant (.deleted .writer) (·.append e v) <;> rfl
  | dispose e v h =>
    -- the disposal is an append whose answer is dropped
    have hsame : (fun d : Domain => do return (← d.dispose e v h, ())) =
        fun d => do let (d, out) ← d.appendDisposal e v h; return (d.submit e out, ()) := by
      funext d
      rw [Domain.dispose]
      cases d.appendDisposal e v h <;> rfl
    have hdispose : w.within e.participant (.deleted .writer)
        (fun d => do return (← d.dispose e v h, ())) = _ :=
      (congrArg _ hsame).trans (within_submit (b := ()) (F := (·.appendDisposal e v h))
        fun _ _ _ => participants_appendDisposal)
    change Runner.attempt w (Except.map (·, ()) (do let (w, ()) ← _; return w)) = _
    rw [hdispose, begin]
    cases w.within e.participant (.deleted .writer) (·.appendDisposal e v h) <;> rfl
  | delete p =>
    have hdelete : (w.closings p).foldl complete (w.adjust p (·.condemn p)) =
        w.adjust p (·.delete p) := by
      refine foldl_condemn (hw p) (home_closings w p) fun d hd => ?_
      rw [closings, hd]
      exact d.foldl_closings p
    exact congrArg (·, Except.ok ()) hdelete.symm
  | leave p =>
    have hleave : (w.closings p ++ [Chore.retire p]).foldl complete (w.adjust p (·.condemn p)) =
        w.adjust p (·.leave p) := by
      refine foldl_condemn (hw p) (fun t ht => ?_) fun d hd => ?_
      · rcases List.mem_append.mp ht with ht | ht
        · exact home_closings w p t ht
        · rw [List.mem_singleton.mp ht]
          rfl
      · rw [closings, hd]
        exact d.foldl_closings_retire p
    exact congrArg (·, Except.ok ()) hleave.symm
  -- every other call is its first step
  | _ => rfl

end World

end PubSub.Loopback
