import PubSub.Proofs.Udp.Matching
import PubSub.Proofs.Udp.Node

/-!
What a participant does, as one writer and one reader see it. Whatever happens to a participant,
for one of its writers and one remote reader it comes to one of few things: nothing, a match that
is gained or lost, a new change, what is pending sent again, or an acknowledgment.
-/

namespace PubSub.Udp

/-! ### What messages carry -/

def dataOf (w r : Guid) (out : List Dispatch) : List (Nat × Change) :=
  out.filterMap fun
    | .unicast _ (.data w' r' n c) => if w' = w ∧ r' = r then some (n, c) else none
    | _ => none

def acksOf (w r : Guid) (out : List Dispatch) : List Nat :=
  out.filterMap fun
    | .unicast _ (.ackNack r' w' a) => if w' = w ∧ r' = r then some a else none
    | _ => none

@[simp] lemma dataOf_nil (w r : Guid) : dataOf w r [] = [] := rfl

@[simp] lemma acksOf_nil (w r : Guid) : acksOf w r [] = [] := rfl

lemma dataOf_append (w r : Guid) (xs ys : List Dispatch) :
    dataOf w r (xs ++ ys) = dataOf w r xs ++ dataOf w r ys := List.filterMap_append

lemma acksOf_append (w r : Guid) (xs ys : List Dispatch) :
    acksOf w r (xs ++ ys) = acksOf w r xs ++ acksOf w r ys := List.filterMap_append

def Silent (out : List Dispatch) : Prop := ∀ w r, dataOf w r out = [] ∧ acksOf w r out = []

lemma silent_nil : Silent [] := fun _ _ => ⟨rfl, rfl⟩

lemma silent_group (m : Message) : Silent [.group m] := fun _ _ => ⟨rfl, rfl⟩

lemma Silent.append {xs ys : List Dispatch} (h : Silent xs) (h' : Silent ys) :
    Silent (xs ++ ys) := by
  intro w r
  rw [dataOf_append, acksOf_append, (h w r).1, (h w r).2, (h' w r).1, (h' w r).2]
  exact ⟨rfl, rfl⟩

lemma dataOf_flatMap {α : Type} (w r : Guid) (l : List α) (f : α → List Dispatch) :
    dataOf w r (l.flatMap f) = l.flatMap fun a => dataOf w r (f a) := by
  induction l with
  | nil => rfl
  | cons a l ih => simp [dataOf_append, ih]

lemma acksOf_flatMap {α : Type} (w r : Guid) (l : List α) (f : α → List Dispatch) :
    acksOf w r (l.flatMap f) = l.flatMap fun a => acksOf w r (f a) := by
  induction l with
  | nil => rfl
  | cons a l ih => simp [acksOf_append, ih]

namespace LinkedWriter

variable {x : LinkedWriter}

lemma dataOf_address (x : LinkedWriter) (w r : Guid) (out : List Outgoing) :
    dataOf w r (x.address out) =
      if x.writer.guid = w ∧ x.addresses.has r then addressed r out else [] := by
  induction out with
  | nil => simp [address]
  | cons o out ih =>
    unfold address at ih ⊢
    rw [List.filterMap_cons]
    cases ha : x.addresses.get? o.reader with
    | none =>
      have hr : x.addresses.has r = true → o.reader ≠ r := by
        rintro hr rfl
        rw [Table.has, ha] at hr
        simp at hr
      simp only [Option.map_none, ih]
      split_ifs with h
      · simp [addressed, hr h.2]
      · rfl
    | some a =>
      have hr : o.reader = r → x.addresses.has r = true := by
        rintro rfl
        rw [Table.has, ha]
        rfl
      simp only [Option.map_some]
      rw [dataOf, List.filterMap_cons, ← dataOf, ih]
      by_cases hw : x.writer.guid = w <;> by_cases ho : o.reader = r
      · simp [hw, ho, hr ho, addressed]
      · by_cases hh : x.addresses.has r <;> simp [hw, ho, hh, addressed]
      · simp [hw]
      · simp [hw]

lemma Tidy.dataOf_address (h : x.Tidy) (w r : Guid) {out : List Outgoing}
    (ho : x.writer.history.proxies.get? r = none → addressed r out = []) :
    dataOf w r (x.address out) = if x.writer.guid = w then addressed r out else [] := by
  rw [LinkedWriter.dataOf_address, h.has_eq]
  cases hp : x.writer.history.proxies.get? r with
  | some p => simp [Table.has, hp]
  | none => simp [ho hp]

lemma acksOf_address (x : LinkedWriter) (w r : Guid) (out : List Outgoing) :
    acksOf w r (x.address out) = [] := by
  refine List.filterMap_eq_nil_iff.mpr fun d hd => ?_
  obtain ⟨o, -, ho⟩ := List.mem_filterMap.mp hd
  obtain ⟨a, -, rfl⟩ := Option.map_eq_some_iff.mp ho
  rfl

end LinkedWriter

namespace Node

/-! ### What a participant keeps -/

/-- Every writer stands under its own identity and is tidy, and identities to come are new. -/
structure Wf (n : Node) : Prop where
  distinct : n.writers.Distinct
  writer : ∀ w x, n.writers.get? w = some x →
    x.writer.guid = w ∧ x.Tidy ∧ w.entity < n.participant.next
  reader : ∀ r y, n.readers.get? r = some y → r.entity < n.participant.next

lemma wf_new (id domain : Nat) (name : String) (port : Nat) (t : Timing) :
    (Node.new id domain name port t).Wf :=
  ⟨Table.distinct_nil, by simp [Node.new], by simp [Node.new]⟩

def proxy? (n : Node) (w r : Guid) : Option ReaderProxy :=
  (n.writers.get? w).bind (·.writer.history.proxies.get? r)

def peer? (n : Node) (w r : Guid) : Option WriterProxy :=
  (n.readers.get? r).bind (·.reader.cache.writers.get? w)

def nextOf (n : Node) (w : Guid) : Nat :=
  ((n.writers.get? w).map (·.writer.history.next)).getD 1

variable {n n' n'' : Node} {out : List Dispatch}

/-- An open writer has the reader, and keeps `p` for it. -/
def WritesTo (n : Node) (w r : Guid) (p : ReaderProxy) : Prop :=
  n.running = true ∧ ∃ x, n.writers.get? w = some x ∧ x.writer.isOpen = true ∧
    x.writer.history.proxies.get? r = some p

def ReadsFrom (n : Node) (w r : Guid) (q : WriterProxy) : Prop :=
  n.running = true ∧ ∃ y, n.readers.get? r = some y ∧ y.reader.isOpen = true ∧
    y.reader.cache.writers.get? w = some q

lemma WritesTo.proxy {w r : Guid} {p : ReaderProxy} (h : n.WritesTo w r p) :
    n.proxy? w r = some p := by
  obtain ⟨-, x, hx, -, hp⟩ := h
  rw [proxy?, hx, Option.bind_some, hp]

lemma ReadsFrom.peer {w r : Guid} {q : WriterProxy} (h : n.ReadsFrom w r q) :
    n.peer? w r = some q := by
  obtain ⟨-, y, hy, -, hq⟩ := h
  rw [peer?, hy, Option.bind_some, hq]

/-- What can become of a writer's side of a pair when its participant does something: nothing,
the reader is lost, it is gained with the changes `cs` sent first, a change is made, or what is
pending is sent again. -/
inductive WriterTurn (w r : Guid) (n n' : Node) (out : List Dispatch) : Prop
  | rest (hp : n'.proxy? w r = n.proxy? w r) (hd : dataOf w r out = [])
  | lost (hp : n'.proxy? w r = none) (hd : dataOf w r out = [])
  | gained (b : Bool) (cs : List Change) (hn : n.proxy? w r = none)
    (hp : n'.proxy? w r = some (.replayed b cs)) (ho : Ordered cs)
    (hc : ∀ c ∈ cs, c.sequence < n'.nextOf w) (hd : dataOf w r out = numbered 1 cs)
  | wrote (c : Change) (hc : c.sequence = n.nextOf w) (hlt : n.nextOf w < n'.nextOf w)
    (hp : n'.proxy? w r = (n.proxy? w r).map (·.enqueue c))
    (hd : dataOf w r out = ((n.proxy? w r).map fun p => [(p.next, c)]).getD [])
  | resent (hp : n'.proxy? w r = n.proxy? w r)
    (hd : dataOf w r out = ((n.proxy? w r).map (·.pending)).getD [])

inductive ReaderTurn (w r : Guid) (n n' : Node) : Prop
  | rest (hp : n'.peer? w r = n.peer? w r)
  | lost (hp : n'.peer? w r = none)
  | gained (b : Bool) (hn : n.peer? w r = none) (hp : n'.peer? w r = some ⟨b, 1⟩)

structure Turned (n n' : Node) (out : List Dispatch) : Prop where
  wf : n'.Wf
  writer : ∀ w r, WriterTurn w r n n' out
  reader : ∀ w r, ReaderTurn w r n n'
  next : ∀ w, n.nextOf w ≤ n'.nextOf w
  acks : ∀ w r, acksOf w r out = []

/-- Whatever a participant has done, its endpoints are matched as before. -/
structure Still (n n' : Node) : Prop where
  wf : n'.Wf
  proxy : ∀ w r, n'.proxy? w r = n.proxy? w r
  peer : ∀ w r, n'.peer? w r = n.peer? w r
  next : ∀ w, n'.nextOf w = n.nextOf w

lemma Wf.still (h : n.Wf) : Still n n := ⟨h, fun _ _ => rfl, fun _ _ => rfl, fun _ => rfl⟩

lemma Still.trans (h : Still n n') (h' : Still n' n'') : Still n n'' :=
  ⟨h'.wf, fun w r => (h'.proxy w r).trans (h.proxy w r),
    fun w r => (h'.peer w r).trans (h.peer w r), fun w => (h'.next w).trans (h.next w)⟩

lemma Still.turned (h : Still n n') (hs : Silent out) : Turned n n' out :=
  ⟨h.wf, fun w r => .rest (h.proxy w r) (hs w r).1, fun w r => .rest (h.peer w r),
    fun w => Nat.le_of_eq (h.next w).symm, fun w r => (hs w r).2⟩

/-- What a participant does when nothing has changed, it does all the same. -/
lemma Still.andTurned (h : Still n n') (h' : Turned n' n'' out) : Turned n n'' out where
  wf := h'.wf
  writer w r := by
    have hproxy := h.proxy w r
    have hnext := h.next w
    cases h'.writer w r with
    | rest hp hd => exact .rest (hp.trans hproxy) hd
    | lost hp hd => exact .lost hp hd
    | gained b cs hn hp ho hc hd => exact .gained b cs (hproxy ▸ hn) hp ho hc hd
    | wrote c hc hlt hp hd =>
      exact .wrote c (hnext ▸ hc) (hnext ▸ hlt) (hproxy ▸ hp) (hproxy ▸ hd)
    | resent hp hd => exact .resent (hp.trans hproxy) (hproxy ▸ hd)
  reader w r := by
    cases h'.reader w r with
    | rest hp => exact .rest (hp.trans (h.peer w r))
    | lost hp => exact .lost hp
    | gained b hn hp => exact .gained b (h.peer w r ▸ hn) hp
  next w := h.next w ▸ h'.next w
  acks := h'.acks

lemma Turned.append (h : Turned n n' out) {more : List Dispatch} (hs : Silent more) :
    Turned n n' (out ++ more) := by
  have hdata : ∀ w r, dataOf w r (out ++ more) = dataOf w r out := by
    intro w r
    rw [dataOf_append, (hs w r).1, List.append_nil]
  refine ⟨h.wf, fun w r => ?_, h.reader, h.next, fun w r => ?_⟩
  · cases h.writer w r with
    | rest hp hd => exact .rest hp ((hdata w r).trans hd)
    | lost hp hd => exact .lost hp ((hdata w r).trans hd)
    | gained b cs hn hp ho hc hd => exact .gained b cs hn hp ho hc ((hdata w r).trans hd)
    | wrote c hc hlt hp hd => exact .wrote c hc hlt hp ((hdata w r).trans hd)
    | resent hp hd => exact .resent hp ((hdata w r).trans hd)
  · rw [acksOf_append, h.acks, (hs w r).2]
    rfl

/-! ### Reconciliation -/

lemma flatMap_openWriters {β : Type} (t : Table Guid LinkedWriter) (f : LinkedWriter → List β) :
    (t.values.filter (·.writer.isOpen)).flatMap f =
      t.flatMap fun e => if e.2.writer.isOpen then f e.2 else [] := by
  induction t with
  | nil => rfl
  | cons e t ih =>
    rw [Table.values] at ih ⊢
    rw [List.map_cons, List.filter_cons, List.flatMap_cons]
    split_ifs with ho
    · rw [List.flatMap_cons, ih]
    · rw [ih]
      rfl

/-- What all open writers send to a reader in the name of one of them is what that one sends. -/
lemma dataOf_openWriters (h : n.Wf) (w r : Guid) (f : LinkedWriter → List Dispatch)
    (g : LinkedWriter → List (Nat × Change))
    (hf : ∀ w' x, n.writers.get? w' = some x →
      dataOf w r (f x) = if x.writer.guid = w then g x else []) :
    dataOf w r (n.openWriters.flatMap f) =
      ((n.writers.get? w).map fun x => if x.writer.isOpen then g x else []).getD [] := by
  rw [← Table.flatMap_at h.distinct w fun x => if x.writer.isOpen then g x else [],
    openWriters, flatMap_openWriters, dataOf_flatMap]
  refine congrArg List.flatten (List.map_congr_left fun e he => ?_)
  have hget := Table.get?_of_mem h.distinct he
  rw [← (h.writer e.1 e.2 hget).1]
  split_ifs with ho hg <;> simp_all [hf e.1 e.2 hget]

lemma acksOf_openWriters (n : Node) (w r : Guid) (g : LinkedWriter → LinkedWriter × List Outgoing) :
    acksOf w r (n.openWriters.flatMap fun x => (g x).1.address (g x).2) = [] := by
  rw [acksOf_flatMap]
  exact List.flatMap_eq_nil_iff.mpr fun x _ => (g x).1.acksOf_address w r (g x).2

lemma get?_reconciled (n : Node) (w : Guid) :
    n.reconciled.writers.get? w =
      (n.writers.get? w).map fun x =>
        if x.writer.isOpen then (n.reconcileWriter x).1 else x :=
  Table.get?_map n.writers
    (fun _ x => if x.writer.isOpen then (n.reconcileWriter x).1 else x) w

lemma get?_reconciled_reader (n : Node) (r : Guid) :
    n.reconciled.readers.get? r =
      (n.readers.get? r).map fun y => if y.reader.isOpen then n.reconcileReader y else y :=
  Table.get?_map n.readers
    (fun _ y => if y.reader.isOpen then n.reconcileReader y else y) r

lemma Wf.reconciled (h : n.Wf) : n.reconciled.Wf := by
  refine ⟨h.distinct.map fun _ x => if x.writer.isOpen then (n.reconcileWriter x).1 else x,
    fun w x hx => ?_, fun r y hy => ?_⟩
  · rw [get?_reconciled] at hx
    obtain ⟨x', hx', rfl⟩ := Option.map_eq_some_iff.mp hx
    obtain ⟨hguid, htidy, hentity⟩ := h.writer w x' hx'
    split_ifs
    · obtain ⟨htidy', halike, -⟩ := n.reconcileWriter_spec htidy
      exact ⟨halike.guid.trans hguid, htidy', hentity⟩
    · exact ⟨hguid, htidy, hentity⟩
  · rw [get?_reconciled_reader] at hy
    obtain ⟨y', hy', -⟩ := Option.map_eq_some_iff.mp hy
    exact h.reader r y' hy'

/-- What the open writers replay to a reader comes from the one writer. -/
lemma dataOf_replays (h : n.Wf) (w r : Guid) :
    dataOf w r n.replays =
      ((n.writers.get? w).map fun x =>
        if x.writer.isOpen then addressed r (n.reconcileWriter x).2 else []).getD [] := by
  refine dataOf_openWriters h w r _ (fun x => addressed r (n.reconcileWriter x).2)
    fun w' x hx => ?_
  obtain ⟨-, htidy, -⟩ := h.writer w' x hx
  obtain ⟨htidy', halike, hr⟩ := n.reconcileWriter_spec htidy
  rw [← halike.guid]
  refine htidy'.dataOf_address w r fun hnone => ?_
  rcases hr r with ⟨-, ho⟩ | ⟨-, ho⟩ | ⟨b, q, -, hsome, -⟩
  · exact ho
  · exact ho
  · rw [hnone] at hsome
    simp at hsome

lemma proxy?_reconciled (n : Node) (w r : Guid) :
    n.reconciled.proxy? w r =
      (n.writers.get? w).bind fun x =>
        (if x.writer.isOpen then (n.reconcileWriter x).1 else x).writer.history.proxies.get? r := by
  rw [proxy?, get?_reconciled]
  cases n.writers.get? w <;> rfl

lemma nextOf_reconciled (h : n.Wf) (w : Guid) : n.reconciled.nextOf w = n.nextOf w := by
  rw [nextOf, nextOf, get?_reconciled]
  cases hx : n.writers.get? w with
  | none => rfl
  | some x =>
    obtain ⟨-, htidy, -⟩ := h.writer w x hx
    obtain ⟨-, halike, -⟩ := n.reconcileWriter_spec htidy
    simp only [Option.map_some, Option.getD_some]
    split_ifs
    · exact halike.next
    · rfl

lemma writerTurn_reconcile (h : n.Wf) (w r : Guid) :
    WriterTurn w r n n.reconciled n.replays := by
  have hdata := dataOf_replays h w r
  have hproxy := n.proxy?_reconciled w r
  cases hx : n.writers.get? w with
  | none =>
    rw [hx] at hdata hproxy
    exact .rest (hproxy.trans (by simp [proxy?, hx])) hdata
  | some x =>
    obtain ⟨-, htidy, -⟩ := h.writer w x hx
    obtain ⟨-, halike, hr⟩ := n.reconcileWriter_spec htidy
    have hbefore : n.proxy? w r = x.writer.history.proxies.get? r := by simp [proxy?, hx]
    have hnext : n.nextOf w = x.writer.history.next := by simp [nextOf, hx]
    simp only [hx, Option.map_some, Option.getD_some, Option.bind_some] at hdata hproxy
    split_ifs at hdata hproxy with ho
    · rcases hr r with ⟨h1, h2⟩ | ⟨h1, h2⟩ | ⟨b, q, h0, h1, h2⟩
      · exact .rest (hproxy.trans (h1.trans hbefore.symm)) (hdata.trans h2)
      · exact .lost (hproxy.trans h1) (hdata.trans h2)
      · refine .gained b _ (hbefore.trans h0) (hproxy.trans h1) (htidy.history.backlog q)
          (fun c hc => ?_) (hdata.trans h2)
        rw [nextOf_reconciled h, hnext]
        exact htidy.history.earlier c (WriterHistory.backlog_subset hc)
    · exact .rest (hproxy.trans hbefore.symm) hdata

lemma readerTurn_reconcile (n : Node) (w r : Guid) : ReaderTurn w r n n.reconciled := by
  have hpeer : n.reconciled.peer? w r =
      (n.readers.get? r).bind fun y =>
        (if y.reader.isOpen then n.reconcileReader y else y).reader.cache.writers.get? w := by
    rw [peer?, get?_reconciled_reader]
    cases n.readers.get? r <;> rfl
  cases hy : n.readers.get? r with
  | none =>
    rw [hy] at hpeer
    exact .rest (hpeer.trans (by simp [peer?, hy]))
  | some y =>
    have hbefore : n.peer? w r = y.reader.cache.writers.get? w := by simp [peer?, hy]
    simp only [hy, Option.bind_some] at hpeer
    split_ifs at hpeer with ho
    · rcases (n.reconcileReader_spec y w).1 with h1 | h1 | ⟨b, h0, h1⟩
      · exact .rest (hpeer.trans (h1.trans hbefore.symm))
      · exact .lost (hpeer.trans h1)
      · exact .gained b (hbefore.trans h0) (hpeer.trans h1)
    · exact .rest (hpeer.trans hbefore.symm)

/-- **A reconciliation gains or loses matches, and does nothing else.** -/
theorem turned_reconcile (h : n.Wf) : Turned n n.reconcile.1 n.reconcile.2 where
  wf := h.reconciled
  writer w r := writerTurn_reconcile h w r
  reader w r := readerTurn_reconcile n w r
  next w := Nat.le_of_eq (nextOf_reconciled h w).symm
  acks w r := acksOf_openWriters n w r n.reconcileWriter

end Node

end PubSub.Udp
