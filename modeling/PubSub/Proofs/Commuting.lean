import PubSub.Proofs.Residents

/-!
Changes that arrive at different readers. An arrival moves its reader and the queue that the
sender has for that reader, so arrivals at different readers do not notice each other, not even
if they come from one writer: only which of them empties the last queue depends on their order,
not whether one does. So what arrives can be followed reader by reader.
-/

namespace PubSub

namespace WriterHistory

/-- Acknowledgments of different readers concern different queues. -/
lemma acknowledge_comm (h : WriterHistory) {r r' : Guid} (hne : r ≠ r') (a b : Nat) :
    ((h.acknowledge r a).1.acknowledge r' b).1 = ((h.acknowledge r' b).1.acknowledge r a).1 :=
  congrArg (fun t => { h with proxies := t })
    (h.proxies.adjust_comm hne (·.acknowledge a) (·.acknowledge b))

/-- Of two acknowledgments one is the last to come if something waited before them and nothing
does behind them; otherwise none is. -/
lemma completions_acknowledge (h : WriterHistory) (r r' : Guid) (a b : Nat) :
    let mid := (h.acknowledge r a).1
    (h.acknowledge r a).2.toNat + (mid.acknowledge r' b).2.toNat =
      (!h.allAcknowledged && (mid.acknowledge r' b).1.allAcknowledged).toNat := by
  intro mid
  have hmid : h.allAcknowledged = true → mid.allAcknowledged = true :=
    fun ha => allAcknowledged_acknowledge ha r a
  have hlast : mid.allAcknowledged = true → (mid.acknowledge r' b).1.allAcknowledged = true :=
    fun ha => allAcknowledged_acknowledge ha r' b
  show (!h.allAcknowledged && mid.allAcknowledged).toNat +
    (!mid.allAcknowledged && (mid.acknowledge r' b).1.allAcknowledged).toNat = _
  cases hh : h.allAcknowledged <;> cases hm : mid.allAcknowledged <;> simp_all

lemma completions_comm (h : WriterHistory) {r r' : Guid} (hne : r ≠ r') (a b : Nat) :
    (h.acknowledge r a).2.toNat + ((h.acknowledge r a).1.acknowledge r' b).2.toNat =
      (h.acknowledge r' b).2.toNat + ((h.acknowledge r' b).1.acknowledge r a).2.toNat := by
  rw [completions_acknowledge, completions_acknowledge, acknowledge_comm h hne]

end WriterHistory

namespace Net

variable {n : Net} {f g : Flight}

/-! ### One arrival -/

def answer (c : ReaderCache) (f : Flight) : ReaderCache × Reception × Nat :=
  c.receive f.writer f.out.number f.out.change

/-- The net once a reader has received a change and the writer has got the answer. -/
def answered (n : Net) (f : Flight) (c : ReaderCache) (h : WriterHistory) : Net :=
  { n with
    writers := n.writers.put Guid.before f.writer (h.acknowledge f.out.reader (answer c f).2.2).1
    readers := n.readers.put Guid.before f.out.reader (answer c f).1 }

def outcome (f : Flight) (c : ReaderCache) (h : WriterHistory) : Delivery :=
  ⟨(answer c f).2.1, (answer c f).2.2, some (h.acknowledge f.out.reader (answer c f).2.2).2⟩

/-- A change arrives at its reader, and the answer at its writer, whatever is in flight. -/
def arrive (n : Net) (f : Flight) : Option (Net × Delivery) := do
  let c ← n.readers.get? f.out.reader
  let h ← n.writers.get? f.writer
  return (n.answered f c h, outcome f c h)

def Hosts (n : Net) (f : Flight) : Prop :=
  n.writers.has f.writer = true ∧ n.readers.has f.out.reader = true

lemma arrive_eq {c : ReaderCache} {h : WriterHistory} (hr : n.readers.get? f.out.reader = some c)
    (hw : n.writers.get? f.writer = some h) :
    n.arrive f = some (n.answered f c h, outcome f c h) := by
  simp [arrive, hr, hw]

lemma arrive_eq_none (hf : ¬n.Hosts f) : n.arrive f = none := by
  unfold arrive
  cases hr : n.readers.get? f.out.reader with
  | none => rfl
  | some c =>
    cases hw : n.writers.get? f.writer with
    | none => rfl
    | some h => exact absurd ⟨Table.has_eq_true.mpr ⟨h, hw⟩, Table.has_eq_true.mpr ⟨c, hr⟩⟩ hf

/-- What is in flight behind the delivery of the change at a position. -/
def remaining (fs : List Flight) (i : Nat) (keep : Bool) : List Flight :=
  if keep then fs else fs.eraseIdx i

/-- A delivery is an arrival, behind which the change may stay in flight. -/
lemma deliver_eq_arrive {i : Nat} (hf : n.flight[i]? = some f) (keep : Bool) :
    n.deliver i keep false = (n.arrive f).map fun x =>
      ({ x.1 with flight := remaining n.flight i keep }, x.2) := by
  simp only [deliver, arrive, hf, Option.bind_eq_bind, Option.bind_some]
  cases n.readers.get? f.out.reader with
  | none => rfl
  | some c =>
    cases n.writers.get? f.writer with
    | none => rfl
    | some h => rfl

lemma hosts_answered {c : ReaderCache} {h : WriterHistory} (hf : n.Hosts f) (g : Flight) :
    (n.answered f c h).Hosts g ↔ n.Hosts g := by
  unfold Hosts answered
  rw [Table.has_put_of_has hf.1, Table.has_put_of_has hf.2]

/-! ### Two arrivals -/

def arriveBoth (n : Net) (f g : Flight) : Option (Net × Delivery × Delivery) := do
  let (n', d) ← n.arrive f
  let (n'', e) ← n'.arrive g
  return (n'', d, e)

def completions (ds : List Delivery) : Nat := ds.countP fun d => d.completed = some true

/-- Two deliveries and the same two the other way round: the net is the same in the end, and so
are the answer of each reader and the number of completions. -/
structure Swapped (x y : Net × Delivery × Delivery) : Prop where
  net : x.1 = y.1
  reception : x.2.1.reception = y.2.2.reception ∧ x.2.2.reception = y.2.1.reception
  acked : x.2.1.acked = y.2.2.acked ∧ x.2.2.acked = y.2.1.acked
  completions : completions [x.2.1, x.2.2] = completions [y.2.1, y.2.2]

lemma completions_pair (d e : Delivery) {a b : Bool} (hd : d.completed = some a)
    (he : e.completed = some b) : completions [d, e] = a.toNat + b.toNat := by
  cases a <;> cases b <;> simp [completions, hd, he]

lemma arriveBoth_eq_none (h : ¬(n.Hosts f ∧ n.Hosts g)) : n.arriveBoth f g = none := by
  by_cases hf : n.Hosts f
  · have hg : ¬n.Hosts g := fun hg => h ⟨hf, hg⟩
    obtain ⟨s, hw⟩ := Table.has_eq_true.mp hf.1
    obtain ⟨c, hr⟩ := Table.has_eq_true.mp hf.2
    have hg' : ¬(n.answered f c s).Hosts g := fun hg' => hg ((hosts_answered hf g).mp hg')
    simp [arriveBoth, arrive_eq hr hw, arrive_eq_none hg']
  · simp [arriveBoth, arrive_eq_none hf]

/-- Two arrivals at different readers: the second reader is as it was, and so is the second writer
unless it is the first. -/
lemma arriveBoth_eq (hne : f.out.reader ≠ g.out.reader) {c d : ReaderCache} {h s : WriterHistory}
    (hr : n.readers.get? f.out.reader = some c) (hw : n.writers.get? f.writer = some h)
    (hr' : n.readers.get? g.out.reader = some d)
    (hw' : (n.answered f c h).writers.get? g.writer = some s) :
    n.arriveBoth f g =
      some ((n.answered f c h).answered g d s, outcome f c h, outcome g d s) := by
  have hget : (n.answered f c h).readers.get? g.out.reader = some d := by
    simp [answered, Table.get?_put, hne.symm, hr']
  simp [arriveBoth, arrive_eq hr hw, arrive_eq hget hw']

/-- **Arrivals at different readers commute.** -/
theorem arriveBoth_comm (n : Net) (hne : f.out.reader ≠ g.out.reader) :
    Option.Rel Swapped (n.arriveBoth f g) (n.arriveBoth g f) := by
  by_cases hosts : n.Hosts f ∧ n.Hosts g
  · obtain ⟨hf, hg⟩ := hosts
    obtain ⟨c, hr⟩ := Table.has_eq_true.mp hf.2
    obtain ⟨d, hr'⟩ := Table.has_eq_true.mp hg.2
    obtain ⟨h, hw⟩ := Table.has_eq_true.mp hf.1
    obtain ⟨s, hw'⟩ := Table.has_eq_true.mp hg.1
    by_cases hwriter : f.writer = g.writer
    · -- one writer, which hears of both readers
      obtain rfl : h = s := Option.some.inj (hw.symm.trans (hwriter ▸ hw'))
      have hafter : (n.answered f c h).writers.get? g.writer =
          some (h.acknowledge f.out.reader (answer c f).2.2).1 := by
        simp [answered, Table.get?_put, hwriter]
      have hafter' : (n.answered g d h).writers.get? f.writer =
          some (h.acknowledge g.out.reader (answer d g).2.2).1 := by
        simp [answered, Table.get?_put, hwriter]
      rw [arriveBoth_eq hne hr hw hr' hafter, arriveBoth_eq hne.symm hr' hw' hr hafter']
      refine .some ⟨?_, ⟨rfl, rfl⟩, ⟨rfl, rfl⟩, ?_⟩
      · have hwriters := hwriter ▸ hf.1
        simp only [answered, hwriter, Table.put_put hwriters, Table.put_comm hf.2 hg.2 hne,
          WriterHistory.acknowledge_comm h hne]
      · rw [completions_pair _ _ rfl rfl, completions_pair _ _ rfl rfl]
        exact h.completions_comm hne _ _
    · -- two writers, each of which hears of its own reader
      have hafter : (n.answered f c h).writers.get? g.writer = some s := by
        simp [answered, Table.get?_put, Ne.symm hwriter, hw']
      have hafter' : (n.answered g d s).writers.get? f.writer = some h := by
        simp [answered, Table.get?_put, hwriter, hw]
      rw [arriveBoth_eq hne hr hw hr' hafter, arriveBoth_eq hne.symm hr' hw' hr hafter']
      refine .some ⟨?_, ⟨rfl, rfl⟩, ⟨rfl, rfl⟩, ?_⟩
      · simp only [answered, Table.put_comm hf.1 hg.1 hwriter, Table.put_comm hf.2 hg.2 hne]
      · rw [completions_pair _ _ rfl rfl, completions_pair _ _ rfl rfl, Nat.add_comm]
  · rw [arriveBoth_eq_none hosts, arriveBoth_eq_none fun hgf => hosts hgf.symm]
    exact .none

/-! ### Two deliveries -/

/-- Where the change at position `j` is in flight then. -/
def moved (i : Nat) (keep : Bool) (j : Nat) : Nat := if keep = true ∨ j < i then j else j - 1

lemma getElem?_remaining (fs : List Flight) {i j : Nat} (hij : i ≠ j) (keep : Bool) :
    (remaining fs i keep)[moved i keep j]? = fs[j]? := by
  cases keep with
  | true => rfl
  | false =>
    simp only [remaining, moved, Bool.false_eq_true, if_false, false_or, List.getElem?_eraseIdx]
    split_ifs <;> congr 1 <;> omega

lemma remaining_comm (fs : List Flight) (i j : Nat) (keep keep' : Bool) :
    remaining (remaining fs i keep) (moved i keep j) keep' =
      remaining (remaining fs j keep') (moved j keep' i) keep := by
  cases keep with
  | true => cases keep' <;> rfl
  | false =>
    cases keep' with
    | true => rfl
    | false =>
      refine List.ext_getElem? fun k => ?_
      simp only [remaining, moved, Bool.false_eq_true, if_false, false_or, List.getElem?_eraseIdx]
      split_ifs <;> congr 1 <;> omega

def deliverBoth (n : Net) (i j : Nat) (keep keep' : Bool) : Option (Net × Delivery × Delivery) := do
  let (n', d) ← n.deliver i keep false
  let (n'', e) ← n'.deliver (moved i keep j) keep' false
  return (n'', d, e)

lemma arrive_flight (n : Net) (fs : List Flight) (f : Flight) :
    Net.arrive { n with flight := fs } f =
      (n.arrive f).map fun x => ({ x.1 with flight := fs }, x.2) := by
  simp only [arrive]
  cases n.readers.get? f.out.reader with
  | none => rfl
  | some c =>
    cases n.writers.get? f.writer with
    | none => rfl
    | some h => rfl

lemma deliverBoth_eq {i j : Nat} (hf : n.flight[i]? = some f) (hg : n.flight[j]? = some g)
    (hij : i ≠ j) (keep keep' : Bool) :
    n.deliverBoth i j keep keep' = (n.arriveBoth f g).map fun x =>
      ({ x.1 with flight := remaining (remaining n.flight i keep) (moved i keep j) keep' },
        x.2) := by
  rw [deliverBoth, arriveBoth, deliver_eq_arrive hf]
  cases n.arrive f with
  | none => rfl
  | some x =>
    have hg' : (remaining n.flight i keep)[moved i keep j]? = some g :=
      (getElem?_remaining n.flight hij keep).trans hg
    simp only [Option.map_some, Option.bind_eq_bind, Option.bind_some]
    rw [deliver_eq_arrive (n := { x.1 with flight := remaining n.flight i keep }) hg',
      arrive_flight]
    cases x.1.arrive g with
    | none => rfl
    | some y => rfl

/-! ### Different readers -/

lemma isSome_arriveBoth (hf : n.Hosts f) (hg : n.Hosts g) : (n.arriveBoth f g).isSome = true := by
  obtain ⟨h, hw⟩ := Table.has_eq_true.mp hf.1
  obtain ⟨c, hr⟩ := Table.has_eq_true.mp hf.2
  obtain ⟨hg, hg'⟩ := (hosts_answered (c := c) (h := h) hf g).mpr hg
  obtain ⟨s, hw'⟩ := Table.has_eq_true.mp hg
  obtain ⟨d, hr'⟩ := Table.has_eq_true.mp hg'
  simp [arriveBoth, arrive_eq hr hw, arrive_eq hr' hw']

/-- **Deliveries to different readers commute.** Two changes in flight that are addressed to
different readers, from one writer or from two, can be delivered in either order: every history,
every cache and what is left in flight are the same in the end, each change is received in the
same way and answered with the same number, and as many deliveries tell a writer that nothing
waits any more. In a net that a run has come to, both always arrive. -/
theorem deliveries_commute (n : Net) {i j : Nat} {f g : Flight} (hf : n.flight[i]? = some f)
    (hg : n.flight[j]? = some g) (hne : f.out.reader ≠ g.out.reader) (keep keep' : Bool) :
    Option.Rel Swapped (n.deliverBoth i j keep keep') (n.deliverBoth j i keep' keep) ∧
      (n.Reachable → (n.deliverBoth i j keep keep').isSome = true) := by
  have hij : i ≠ j := by
    rintro rfl
    exact hne (Option.some.inj (hf.symm.trans hg) ▸ rfl)
  rw [deliverBoth_eq hf hg hij, deliverBoth_eq hg hf hij.symm, remaining_comm n.flight i j]
  refine ⟨?_, fun hn => ?_⟩
  · have hcomm := n.arriveBoth_comm hne
    generalize n.arriveBoth f g = x, n.arriveBoth g f = y at hcomm ⊢
    cases hcomm with
    | none => exact .none
    | some hs => exact .some ⟨by simp only [hs.net], hs.reception, hs.acked, hs.completions⟩
  · have hhome := hn.peopled.home
    rw [Option.isSome_map]
    exact isSome_arriveBoth (hhome f (List.mem_of_getElem? hf)) (hhome g (List.mem_of_getElem? hg))

/-- One change on its way to two readers. -/
def bothWaiting : List Event :=
  [.connect ⟨1, 1⟩ ⟨2, 1⟩, .connect ⟨1, 1⟩ ⟨3, 1⟩, .write ⟨1, 1⟩ "a" (.str "x")]

/-- Whichever arrives last is the one that completes. -/
theorem deliveries_commute_bothWaiting :
    let n := ((Trace.start [(⟨1, 1⟩, .reliable)]
      [(⟨2, 1⟩, .reliable), (⟨3, 1⟩, .reliable)]).run bothWaiting).net
    let completed := fun x : Net × Delivery × Delivery => (x.2.1.completed, x.2.2.completed)
    n.flight.map (·.out.reader) = [⟨2, 1⟩, ⟨3, 1⟩] ∧
      Option.Rel Swapped (n.deliverBoth 0 1 false false) (n.deliverBoth 1 0 false false) ∧
      (n.deliverBoth 0 1 false false).isSome = true ∧
      (n.deliverBoth 0 1 false false).map completed = some (some false, some true) ∧
      (n.deliverBoth 1 0 false false).map completed = some (some false, some true) := by
  intro n completed
  obtain ⟨hswapped, hboth⟩ :=
    deliveries_commute n (i := 0) (j := 1) rfl rfl (by decide) false false
  exact ⟨rfl, hswapped, hboth ⟨_, _, _, rfl⟩, rfl, rfl⟩

/-! ### Reader by reader -/

def arriveAll (n : Net) : List Flight → Option (Net × List (Flight × Delivery))
  | [] => some (n, [])
  | f :: fs => do
    let (n', d) ← n.arrive f
    let (n'', ds) ← n'.arriveAll fs
    return (n'', (f, d) :: ds)

def answersOf (r : Guid) (ds : List (Flight × Delivery)) : List (Reception × Nat) :=
  (ds.filter fun x => x.1.out.reader = r).map fun x => (x.2.reception, x.2.acked)

/-- The net is the same in the end, and so are all answers of each reader and the number of
completions. -/
structure SameEnd (x y : Net × List (Flight × Delivery)) : Prop where
  net : x.1 = y.1
  answers : ∀ r, answersOf r x.2 = answersOf r y.2
  completions : completions (x.2.map (·.2)) = completions (y.2.map (·.2))

lemma SameEnd.refl (x : Net × List (Flight × Delivery)) : SameEnd x x := ⟨rfl, fun _ => rfl, rfl⟩

lemma sameEnd_refl (x : Option (Net × List (Flight × Delivery))) : Option.Rel SameEnd x x := by
  cases x with
  | none => exact .none
  | some x => exact .some (.refl x)

lemma sameEnd_trans {x y z : Option (Net × List (Flight × Delivery))}
    (hxy : Option.Rel SameEnd x y) (hyz : Option.Rel SameEnd y z) : Option.Rel SameEnd x z := by
  cases hxy with
  | none => exact hyz
  | some h =>
    cases hyz with
    | some h' =>
      exact .some ⟨h.net.trans h'.net, fun r => (h.answers r).trans (h'.answers r),
        h.completions.trans h'.completions⟩

lemma answersOf_cons (r : Guid) (f : Flight) (d : Delivery) (ds : List (Flight × Delivery)) :
    answersOf r ((f, d) :: ds) =
      (if f.out.reader = r then [(d.reception, d.acked)] else []) ++ answersOf r ds := by
  by_cases hr : f.out.reader = r <;> simp [answersOf, hr]

lemma completions_append (ds es : List Delivery) :
    completions (ds ++ es) = completions ds + completions es := List.countP_append

/-- What arrives first has no part in how the rest is arranged. -/
lemma sameEnd_cons {fs gs : List Flight}
    (h : ∀ n : Net, Option.Rel SameEnd (n.arriveAll fs) (n.arriveAll gs)) (n : Net) (f : Flight) :
    Option.Rel SameEnd (n.arriveAll (f :: fs)) (n.arriveAll (f :: gs)) := by
  simp only [arriveAll]
  cases n.arrive f with
  | none => exact .none
  | some x =>
    obtain ⟨n', d⟩ := x
    have hrest := h n'
    simp only [Option.bind_eq_bind, Option.bind_some]
    generalize n'.arriveAll fs = y, n'.arriveAll gs = z at hrest ⊢
    cases hrest with
    | none => exact .none
    | @some y z hs =>
      refine .some ⟨hs.net, fun r => ?_, ?_⟩
      · simp only [answersOf_cons, hs.answers r]
      · simp only [List.map_cons, ← List.singleton_append (l := List.map _ _), completions_append,
          hs.completions]

lemma arriveAll_pair (n : Net) (f g : Flight) (fs : List Flight) :
    n.arriveAll (f :: g :: fs) = (n.arriveBoth f g).bind fun x =>
      (x.1.arriveAll fs).map fun y => (y.1, (f, x.2.1) :: (g, x.2.2) :: y.2) := by
  simp only [arriveAll, arriveBoth]
  cases n.arrive f with
  | none => rfl
  | some x =>
    cases hg : x.1.arrive g with
    | none => simp [hg]
    | some y => cases hfs : y.1.arriveAll fs <;> simp [hg, hfs]

/-- Two changes for different readers that arrive next to each other trade places. -/
lemma sameEnd_swap (n : Net) {f g : Flight} (hne : f.out.reader ≠ g.out.reader)
    (fs : List Flight) :
    Option.Rel SameEnd (n.arriveAll (f :: g :: fs)) (n.arriveAll (g :: f :: fs)) := by
  have hcomm := n.arriveBoth_comm hne
  rw [arriveAll_pair, arriveAll_pair]
  generalize n.arriveBoth f g = x, n.arriveBoth g f = y at hcomm ⊢
  cases hcomm with
  | none => exact .none
  | @some x y hs =>
    simp only [Option.bind_some, hs.net]
    cases y.1.arriveAll fs with
    | none => exact .none
    | some z =>
      refine .some ⟨rfl, fun r => ?_, ?_⟩
      · simp only [answersOf_cons, hs.reception, hs.acked]
        by_cases hf : f.out.reader = r
        · have hg : g.out.reader ≠ r := fun hg => hne (hf.trans hg.symm)
          simp [hf, hg]
        · simp [hf]
      · have hpair := congrArg (· + completions (z.2.map (·.2))) hs.completions
        simp only [← completions_append] at hpair
        exact hpair

/-- The first change may wait for changes that are for other readers. -/
lemma sameEnd_wait {f : Flight} {gs : List Flight} (hgs : ∀ g ∈ gs, g.out.reader ≠ f.out.reader)
    (fs : List Flight) (n : Net) :
    Option.Rel SameEnd (n.arriveAll (f :: (gs ++ fs))) (n.arriveAll (gs ++ f :: fs)) := by
  induction gs generalizing n with
  | nil => exact sameEnd_refl _
  | cons g gs ih =>
    obtain ⟨hg, hgs⟩ := List.forall_mem_cons.mp hgs
    exact sameEnd_trans (n.sameEnd_swap hg.symm (gs ++ fs)) (sameEnd_cons (ih hgs) n g)

/-- **Only the order for each reader counts.** However the changes for different readers are
mixed, what arrives comes to the same: the net, what each reader makes of its changes one by one
and answers, and how often a writer is told that nothing waits any more. -/
theorem arriveAll_reorder {fs gs : List Flight}
    (h : ∀ r, fs.filter (·.out.reader = r) = gs.filter (·.out.reader = r)) (n : Net) :
    Option.Rel SameEnd (n.arriveAll fs) (n.arriveAll gs) := by
  induction fs generalizing gs n with
  | nil =>
    have hnil : gs = [] := by
      cases gs with
      | nil => rfl
      | cons g gs => simpa using h g.out.reader
    exact hnil ▸ sameEnd_refl _
  | cons f fs ih =>
    -- the first change for its reader stands behind changes for others only
    have hfirst := (h f.out.reader).symm
    rw [List.filter_cons_of_pos (by simp)] at hfirst
    obtain ⟨before, after, rfl, hbefore, -, hafter⟩ := List.filter_eq_cons_iff.mp hfirst
    have hothers : ∀ g ∈ before, g.out.reader ≠ f.out.reader := fun g hg => by
      simpa using hbefore g hg
    have hrest : ∀ r, fs.filter (·.out.reader = r) =
        (before ++ after).filter (·.out.reader = r) := by
      intro r
      have hr := h r
      rw [List.filter_append] at hr ⊢
      by_cases hfr : f.out.reader = r
      · subst hfr
        rw [List.filter_eq_nil_iff.mpr hbefore, List.nil_append, hafter]
      · simpa [hfr] using hr
    exact sameEnd_trans (sameEnd_cons (ih hrest) n f) (sameEnd_wait hothers after n)

/-! ### Everything in flight -/

lemma arriveAll_flight (n : Net) (gs fs : List Flight) :
    Net.arriveAll { n with flight := gs } fs =
      (n.arriveAll fs).map fun x => ({ x.1 with flight := gs }, x.2) := by
  induction fs generalizing n with
  | nil => rfl
  | cons f fs ih =>
    simp only [arriveAll, arrive_flight]
    cases n.arrive f with
    | none => rfl
    | some x =>
      simp only [Option.map_some, Option.bind_eq_bind, Option.bind_some, ih]
      cases x.1.arriveAll fs <;> rfl

lemma exists_arriveAll {fs : List Flight} (hfs : ∀ f ∈ fs, n.Hosts f) :
    ∃ x, n.arriveAll fs = some x := by
  induction fs generalizing n with
  | nil => exact ⟨_, rfl⟩
  | cons f fs ih =>
    obtain ⟨hf, hfs⟩ := List.forall_mem_cons.mp hfs
    obtain ⟨h, hw⟩ := Table.has_eq_true.mp hf.1
    obtain ⟨c, hr⟩ := Table.has_eq_true.mp hf.2
    obtain ⟨x, hx⟩ := ih fun g hg => (hosts_answered (c := c) (h := h) hf g).mpr (hfs g hg)
    refine ⟨(x.1, (f, outcome f c h) :: x.2), ?_⟩
    simp [arriveAll, arrive_eq hr hw, hx]

/-- Delivering from the front, everything in flight arrives in its order. -/
lemma deliverAll_eq {fs : List Flight} (hfs : n.flight = fs) {x : Net × List (Flight × Delivery)}
    (hx : n.arriveAll fs = some x) :
    n.deliverAll false fs.length = ({ x.1 with flight := [] }, x.2.map (·.2)) := by
  induction fs generalizing n x with
  | nil =>
    obtain rfl := Option.some.inj hx
    obtain ⟨writers, readers, flight⟩ := n
    obtain rfl : flight = [] := hfs
    rfl
  | cons f fs ih =>
    simp only [arriveAll, Option.bind_eq_bind, Option.bind_eq_some_iff] at hx
    obtain ⟨⟨m, d⟩, hm, ⟨m', ds⟩, hds, hx⟩ := hx
    obtain rfl := Option.some.inj hx
    have hfront : n.flight[0]? = some f := by rw [hfs]; rfl
    have hrest : remaining n.flight 0 false = fs := by rw [hfs]; rfl
    have harrives : Net.arriveAll { m with flight := fs } fs =
        some ({ m' with flight := fs }, ds) := by
      rw [arriveAll_flight, hds]
      rfl
    rw [List.length_cons, Net.deliverAll, deliver_eq_arrive hfront, hm, hrest]
    simp only [Option.map_some]
    rw [ih rfl harrives]
    rfl

/-- What is in flight may stand in any other order that keeps the changes for each reader in
theirs: once everything is delivered the net is the same, after as many completions. -/
theorem deliverAll_reorder (hn : n.Homely) {fs : List Flight}
    (h : ∀ r, n.flight.filter (·.out.reader = r) = fs.filter (·.out.reader = r)) :
    let x := n.deliverAll false n.flight.length
    let y := Net.deliverAll { n with flight := fs } false fs.length
    x.1 = y.1 ∧ completions x.2 = completions y.2 := by
  intro x y
  obtain ⟨a, ha⟩ := exists_arriveAll hn
  have hrel := arriveAll_reorder h n
  generalize hb : n.arriveAll fs = b at hrel
  rw [ha] at hrel
  cases hrel with
  | @some a b hs =>
    have hb' : Net.arriveAll { n with flight := fs } fs =
        some ({ b.1 with flight := fs }, b.2) := by
      rw [arriveAll_flight, hb]
      rfl
    have hx : x = ({ a.1 with flight := [] }, a.2.map (·.2)) := deliverAll_eq rfl ha
    have hy : y = ({ b.1 with flight := [] }, b.2.map (·.2)) :=
      deliverAll_eq (x := ({ b.1 with flight := fs }, b.2)) rfl hb'
    rw [hx, hy]
    exact ⟨congrArg (fun m : Net => { m with flight := [] }) hs.net, hs.completions⟩

end Net

end PubSub
