import PubSub.Proofs.History.Run

/-!
What waits for an acknowledgment, told by a log of what was enqueued for whom and of who
acknowledged what. A proxy numbers its changes from one on, so that taking away from the front
whatever is not above an acknowledgment takes away exactly what it settles: stale, repeated and
disordered acknowledgments do no harm, and one beyond everything that was sent settles no more than
that.
-/

namespace PubSub

namespace ReaderProxy

variable {p : ReaderProxy} {owed : List Change} {k : Nat}

/-- What is taken away from the front is all that is not above the acknowledgment. -/
lemma Keeps.pending_acknowledge (h : p.Keeps owed k) (a : Nat) :
    (p.acknowledge a).pending = p.pending.filter (a < ·.1) := by
  have hsorted : p.pending.Pairwise (·.1 < ·.1) := by
    rw [h.pending, ← List.pairwise_map]
    split_ifs
    · exact map_fst_numbered .. ▸ List.pairwise_lt_range'
    · exact .nil
  show p.pending.dropWhile _ = _
  generalize p.pending = es at hsorted
  induction es with
  | nil => rfl
  | cons e es ih =>
    obtain ⟨hlater, hsorted⟩ := List.pairwise_cons.mp hsorted
    by_cases he : e.1 ≤ a
    · rw [List.dropWhile_cons_of_pos (by simpa using he),
        List.filter_cons_of_neg (by simpa using he), ih hsorted]
    · rw [List.dropWhile_cons_of_neg (by simpa using he), List.filter_eq_self.mpr]
      intro e' he'
      rcases List.mem_cons.mp he' with rfl | he'
      · simpa using he
      · have := hlater e' he'
        simp
        omega

lemma Keeps.acknowledge_zero (h : p.Keeps owed k) : p.acknowledge 0 = p := by
  have hpending : (p.acknowledge 0).pending = p.pending := by
    rw [h.pending_acknowledge, List.filter_eq_self]
    intro e he
    have hle := (mem_numbered.mp (h.pending_subset he)).1
    simp
    omega
  cases p
  exact congrArg _ hpending

/-- Of two acknowledgments the higher one counts. -/
lemma acknowledge_acknowledge (p : ReaderProxy) (a b : Nat) :
    (p.acknowledge a).acknowledge b = p.acknowledge (max a b) := by
  have hpending : (p.pending.dropWhile (·.1 ≤ a)).dropWhile (·.1 ≤ b) =
      p.pending.dropWhile (·.1 ≤ max a b) := by
    induction p.pending with
    | nil => rfl
    | cons e es ih =>
      by_cases ha : e.1 ≤ a
      · rw [List.dropWhile_cons_of_pos (by simpa using ha), ih,
          List.dropWhile_cons_of_pos (by simpa using Or.inl ha)]
      · rw [List.dropWhile_cons_of_neg (by simpa using ha)]
        by_cases hb : e.1 ≤ b
        · have hab : max a b = b := by omega
          rw [hab]
        · rw [List.dropWhile_cons_of_neg (by simpa using hb),
            List.dropWhile_cons_of_neg (by simp; omega)]
  exact congrArg (ReaderProxy.mk p.reliable p.next) hpending

end ReaderProxy

namespace WriterHistory

/-! ### The log of a history -/

/-- What is logged of a history: which reader was matched anew, what was enqueued for it under which
number, and what it acknowledged. -/
inductive Entry where
  | joined (r : Guid)
  | enqueued (r : Guid) (n : Nat) (c : Change)
  | acked (r : Guid) (a : Nat)

namespace Entry

def reader : Entry → Guid
  | .joined r | .enqueued r _ _ | .acked r _ => r

/-- What has been enqueued for the reader of the entry; a reader that is matched anew starts from
nothing. -/
def send (sent : List (Nat × Change)) : Entry → List (Nat × Change)
  | .joined _ => []
  | .enqueued _ n c => sent ++ [(n, c)]
  | .acked .. => sent

def await (awaited : List (Nat × Change)) : Entry → List (Nat × Change)
  | .joined _ => []
  | .enqueued _ n c => awaited ++ [(n, c)]
  | .acked _ a => awaited.filter (a < ·.1)

def Settles (r : Guid) (n : Nat) : Entry → Prop
  | .joined r' => r' = r
  | .enqueued .. => False
  | .acked r' a => r' = r ∧ n ≤ a

end Entry

/-- What an event logs before what it enqueues. -/
def heading (h : WriterHistory) : Event → List Entry
  | .attach r _ => if h.isMatched r then [] else [.joined r]
  | .acknowledge r a => [.acked r a]
  | _ => []

def entries (h : WriterHistory) (e : Event) : List Entry :=
  h.heading e ++ (h.step e).2.map fun o => .enqueued o.reader o.number o.change

def log (h : WriterHistory) (es : List Event) : List Entry :=
  along (fun h e => (h.step e).1) entries h es

def about (r : Guid) (log : List Entry) : List Entry := log.filter (·.reader = r)

/-- What was enqueued for a reader since it was matched last. -/
def sent (r : Guid) (log : List Entry) : List (Nat × Change) := (about r log).foldl Entry.send []

/-- What the reader has not acknowledged of that. -/
def awaited (r : Guid) (log : List Entry) : List (Nat × Change) :=
  (about r log).foldl Entry.await []

variable {h : WriterHistory} {e : Event} {es : List Event} {l l' : List Entry} {r : Guid}
  {p : ReaderProxy} {n : Nat} {c : Change}

lemma log_concat (h : WriterHistory) (es : List Event) (e : Event) :
    h.log (es ++ [e]) = h.log es ++ (h.run es).entries e := along_concat ..

lemma about_append (r : Guid) (l l' : List Entry) :
    about r (l ++ l') = about r l ++ about r l' := List.filter_append ..

lemma about_enqueued (r : Guid) (out : List Outgoing) :
    about r (out.map fun o => .enqueued o.reader o.number o.change) =
      (addressed r out).map fun e => .enqueued r e.1 e.2 := by
  induction out with
  | nil => rfl
  | cons o out ih =>
    rw [about, addressed] at ih ⊢
    rw [List.map_cons, List.filterMap_cons, List.filter_cons, ih]
    by_cases ho : o.reader = r <;> simp [Entry.reader, ho]

lemma sent_concat {e : Entry} (he : e.reader = r) : sent r (l ++ [e]) = e.send (sent r l) := by
  rw [sent, about_append, List.foldl_append]
  simp [about, he, sent]

lemma awaited_concat {e : Entry} (he : e.reader = r) :
    awaited r (l ++ [e]) = e.await (awaited r l) := by
  rw [awaited, about_append, List.foldl_append]
  simp [about, he, awaited]

lemma about_concat_of_ne {e : Entry} (he : e.reader ≠ r) : about r (l ++ [e]) = about r l := by
  rw [about_append]
  simp [about, he]

/-- What is still awaited was enqueued, and nothing that is logged since then settles it. -/
lemma mem_awaited :
    (n, c) ∈ awaited r l ↔ Stands (· = .enqueued r n c) (Entry.Settles r n) l := by
  induction l using List.reverseRecOn with
  | nil => simp [awaited, about, not_stands_nil]
  | append_singleton l e ih =>
    rw [stands_concat, ← ih]
    by_cases he : e.reader = r
    · rw [awaited_concat he]
      cases e with
      | joined r' =>
        obtain rfl : r' = r := he
        simp [Entry.await, Entry.Settles]
      | enqueued r' n' c' =>
        obtain rfl : r' = r := he
        simp only [Entry.await, Entry.Settles, List.mem_append, List.mem_singleton, Prod.mk.injEq,
          Entry.enqueued.injEq, true_and, not_false_eq_true, and_true]
        rw [or_comm, @eq_comm _ n, @eq_comm _ c]
      | acked r' a =>
        obtain rfl : r' = r := he
        simp [Entry.await, Entry.Settles]
    · have hother : ¬e = .enqueued r n c := fun h => he (h ▸ rfl)
      have hsettles : ¬e.Settles r n := by
        cases e with
        | joined r' => exact he
        | enqueued r' n' c' => exact not_false
        | acked r' a => exact fun h => he h.1
      rw [awaited, about_concat_of_ne he, ← awaited]
      tauto

/-! ### A proxy and the log -/

structure Tallies (l : List Entry) (r : Guid) (p : ReaderProxy) : Prop where
  keeps : ∃ k, p.Keeps ((sent r l).map (·.2)) k
  counted : sent r l = numbered 1 ((sent r l).map (·.2))
  pending : p.reliable = true → p.pending = awaited r l

lemma Tallies.congr (h : Tallies l r p) (hl : about r l' = about r l) : Tallies l' r p := by
  have hsent : sent r l' = sent r l := by rw [sent, sent, hl]
  have hawaited : awaited r l' = awaited r l := by rw [awaited, awaited, hl]
  exact ⟨hsent ▸ h.keeps, hsent ▸ h.counted, hawaited ▸ h.pending⟩

lemma tallies_joined (b : Bool) : Tallies (l ++ [.joined r]) r (.new b) := by
  have hsent : sent r (l ++ [.joined r]) = [] := sent_concat rfl
  refine ⟨⟨0, ?_⟩, ?_, fun _ => ?_⟩
  · rw [hsent]
    exact ReaderProxy.keeps_new b
  · rw [hsent]
    rfl
  · exact (awaited_concat (e := .joined r) rfl).symm

lemma Tallies.enqueue (h : Tallies l r p) (c : Change) :
    Tallies (l ++ [.enqueued r p.next c]) r (p.enqueue c) := by
  obtain ⟨⟨k, hkeeps⟩, hcounted, hpending⟩ := h
  have hsent : sent r (l ++ [.enqueued r p.next c]) = sent r l ++ [(p.next, c)] := sent_concat rfl
  refine ⟨⟨k, ?_⟩, ?_, fun hb => ?_⟩
  · rw [hsent, List.map_append]
    exact hkeeps.enqueue c
  · rw [hsent, List.map_append, numbered_append, ← hcounted, hkeeps.next, Nat.add_comm 1]
    rfl
  · have hawaited : awaited r (l ++ [.enqueued r p.next c]) = awaited r l ++ [(p.next, c)] :=
      awaited_concat rfl
    have hb : p.reliable = true := hb
    rw [hawaited, ← hpending hb, ReaderProxy.enqueue]
    exact if_pos hb

lemma Tallies.enqueueAll (h : Tallies l r p) (cs : List Change) :
    Tallies (l ++ (numbered p.next cs).map fun e => .enqueued r e.1 e.2) r
      (cs.foldl ReaderProxy.enqueue p) := by
  induction cs generalizing l p with
  | nil => simpa [numbered] using h
  | cons c cs ih =>
    have htail := ih (h.enqueue c)
    rwa [List.append_assoc] at htail

lemma Tallies.acknowledge (h : Tallies l r p) (a : Nat) :
    Tallies (l ++ [.acked r a]) r (p.acknowledge a) := by
  obtain ⟨⟨k, hkeeps⟩, hcounted, hpending⟩ := h
  have hsent : sent r (l ++ [.acked r a]) = sent r l := sent_concat rfl
  have hawaited : awaited r (l ++ [.acked r a]) = (awaited r l).filter (a < ·.1) :=
    awaited_concat rfl
  refine ⟨⟨_, hsent ▸ hkeeps.acknowledge a⟩, by rw [hsent]; exact hcounted, fun hb => ?_⟩
  rw [hawaited, hkeeps.pending_acknowledge, hpending hb]

lemma heading_of_change {x : InstanceKey × ChangeKind × Option Json} (he : e.change? = some x) :
    h.heading e = [] := by
  cases e <;> first | rfl | cases he

/-- Whatever happens, every proxy stays as the log has it. -/
lemma tallies_step (hw : h.Wf) (ht : ∀ p, h.proxies.get? r = some p → Tallies l r p)
    {p' : ReaderProxy} (hp' : (h.step e).1.proxies.get? r = some p') :
    Tallies (l ++ h.entries e) r p' := by
  have hturn := turn_step h e
  rw [entries]
  generalize (h.step e).1 = h', (h.step e).2 = out at *
  cases hturn with
  | @change e key kind payload he =>
    rw [get?_addChange] at hp'
    obtain ⟨p, hp, rfl⟩ := Option.map_eq_some_iff.mp hp'
    -- the change is enqueued in the proxy as it is in the log
    refine ((ht p hp).enqueue _).congr ?_
    rw [heading_of_change he, List.nil_append, about_append, about_append, about_enqueued,
      addressed_addChange _ _ _ hw, hp]
    simp [about, Entry.reader]
  | refused => simpa [heading] using ht p' hp'
  | attach r' q =>
    by_cases hr : r = r'
    · subst hr
      cases hp : h.proxies.get? r with
      | some p =>
        -- a second match of the same reader leaves the proxy as it is
        have hmatched : h.isMatched r = true := Table.has_eq_true.mpr ⟨p, hp⟩
        rw [matchReader_of_some hp] at hp' ⊢
        simpa [heading, hmatched] using ht p' hp'
      | none =>
        have hnew : h.isMatched r = false := Table.has_eq_false.mpr hp
        -- the tally starts anew, and the replay is counted from one
        rw [get?_matchReader_self q hp] at hp'
        obtain rfl := Option.some.inj hp'
        have hreplay := (tallies_joined (l := l) (r := r)
          (q.isReliable && h.qos.isReliable)).enqueueAll (h.backlog q)
        rw [matchReader_of_none hp, List.map_map, heading, if_neg (by simp [hnew]),
          ← List.append_assoc]
        exact hreplay
    · -- another reader, whose match the tally of this one passes over
      rw [get?_matchReader_of_ne q hr] at hp'
      refine (ht p' hp').congr ?_
      have hheading : about r (h.heading (.attach r' q)) = [] := by
        rw [heading]
        split_ifs
        · rfl
        · simp [about, Entry.reader, Ne.symm hr]
      rw [about_append, about_append, about_enqueued, addressed_matchReader_of_ne q hr, hheading]
      simp
  | release r' =>
    rw [get?_unmatchReader] at hp'
    split_ifs at hp'
    simpa [heading] using ht p' hp'
  | acknowledge r' a =>
    rw [get?_acknowledge] at hp'
    split_ifs at hp' with hr
    · subst hr
      obtain ⟨p, hp, rfl⟩ := Option.map_eq_some_iff.mp hp'
      simpa [heading] using (ht p hp).acknowledge a
    · refine (ht p' hp').congr ?_
      simpa [heading] using about_concat_of_ne (e := .acked r' a) (Ne.symm hr)

lemma tallies_run (g : Guid) (q : Qos) (es : List Event)
    (hp : ((new g q).run es).proxies.get? r = some p) : Tallies ((new g q).log es) r p := by
  induction es using List.reverseRecOn generalizing p with
  | nil => cases hp
  | append_singleton es e ih =>
    rw [run_concat] at hp
    exact log_concat (new g q) es e ▸ tallies_step ((wf_new g q).run es) (fun _ => ih) hp

/-! ### Acknowledgments of one reader -/

def Event.ack? (r : Guid) : Event → Option Nat
  | .acknowledge r' a => if r' = r then some a else none
  | _ => none

/-- The highest value that the reader acknowledges. -/
def highest (r : Guid) (es : List Event) : Nat := (es.filterMap (Event.ack? r)).foldl max 0

def others (r : Guid) (es : List Event) : List Event := es.filter fun e => (e.ack? r).isNone

lemma others_concat (es : List Event) (e : Event) :
    others r (es ++ [e]) = match e.ack? r with
      | none => others r es ++ [e]
      | some _ => others r es := by
  rw [others, List.filter_append, List.filter_singleton]
  cases e.ack? r with
  | none => rfl
  | some a => exact List.append_nil _

lemma highest_concat (es : List Event) (e : Event) :
    highest r (es ++ [e]) = match e.ack? r with
      | none => highest r es
      | some a => max (highest r es) a := by
  rw [highest, List.filterMap_append, List.foldl_append, ← highest]
  cases he : e.ack? r <;> simp [he]

lemma eq_of_ack? {a : Nat} (he : e.ack? r = some a) : e = .acknowledge r a := by
  cases e with
  | acknowledge r' b =>
    rw [Event.ack?] at he
    split_ifs at he with hr
    cases he
    rw [hr]
  | write | dispose | attach | release => cases he

lemma acknowledge_of_none (hn : h.proxies.get? r = none) (a : Nat) :
    (h.acknowledge r a).1 = h := by
  have hsame := Table.adjust_of_none hn (·.acknowledge a)
  cases h
  exact congrArg _ hsame

lemma acknowledge_twice (h : WriterHistory) (r : Guid) (a b : Nat) :
    ((h.acknowledge r a).1.acknowledge r b).1 = (h.acknowledge r (max a b)).1 := by
  have htwice := Table.adjust_adjust h.proxies r (·.acknowledge a) (·.acknowledge b)
  simp only [ReaderProxy.acknowledge_acknowledge] at htwice
  exact congrArg (WriterHistory.mk h.guid h.qos h.next h.retained) htwice

/-- A reader for which nothing is enqueued when a change is made is not matched. -/
lemma get?_of_quiet (hw : h.Wf) {key : InstanceKey} {kind : ChangeKind} {payload : Option Json}
    (hquiet : addressed r (h.addChange key kind payload).2 = []) : h.proxies.get? r = none := by
  rw [addressed_addChange _ _ _ hw] at hquiet
  cases hp : h.proxies.get? r with
  | none => rfl
  | some p => simp [hp] at hquiet

lemma matchReader_acknowledge (q : Qos) (a : Nat)
    (hquiet : addressed r (h.matchReader r q).2 = []) (hn : h.proxies.get? r = none) :
    ((h.matchReader r q).1.acknowledge r a).1 = (h.matchReader r q).1 := by
  have hbacklog : h.backlog q = [] := by
    rwa [addressed_matchReader_self q hn, numbered_eq_nil] at hquiet
  have hsame := Table.adjust_insertNew_self Guid.before hn
    (ReaderProxy.new (q.isReliable && h.qos.isReliable)) (·.acknowledge a)
  rw [matchReader_of_none hn, hbacklog]
  exact congrArg (WriterHistory.mk h.guid h.qos h.next h.retained) hsame

lemma matchReader_acknowledge_of_ne {r' : Guid} (q : Qos) (a : Nat) (hr : r ≠ r') :
    ((h.acknowledge r a).1.matchReader r' q).1 = ((h.matchReader r' q).1.acknowledge r a).1 := by
  have hget : (h.acknowledge r a).1.proxies.get? r' = h.proxies.get? r' := by
    rw [get?_acknowledge, if_neg (Ne.symm hr)]
  cases hp : h.proxies.get? r' with
  | some p => rw [matchReader_of_some hp, matchReader_of_some (hget.trans hp)]
  | none =>
    rw [matchReader_of_none hp, matchReader_of_none (hget.trans hp)]
    exact congrArg (WriterHistory.mk h.guid h.qos h.next h.retained)
      (Table.insertNew_adjust Guid.before h.proxies hr _ (·.acknowledge a))

/-- **An acknowledgment passes by** whatever enqueues nothing for its reader. -/
lemma step_acknowledge (hw : h.Wf) {a : Nat} (he : e.ack? r = none)
    (hquiet : addressed r ((h.acknowledge r a).1.step e).2 = []) :
    ((h.acknowledge r a).1.step e).1 = ((h.step e).1.acknowledge r a).1 := by
  cases hc : e.change? with
  | some x =>
    rw [step_of_change hc] at hquiet ⊢
    -- a change is enqueued for every reader, so this one is not matched
    have hnone : h.proxies.get? r = none := by
      have hacked := get?_of_quiet (hw.acknowledge r a) hquiet
      rw [get?_acknowledge, if_pos rfl] at hacked
      exact Option.map_eq_none_iff.mp hacked
    have hlater : (h.addChange x.1 x.2.1 x.2.2).1.proxies.get? r = none := by
      rw [get?_addChange, hnone]
      rfl
    rw [step_of_change hc, acknowledge_of_none hnone, acknowledge_of_none hlater]
  | none =>
    cases e with
    | write => cases hc
    | dispose => rw [step_of_refused hc, step_of_refused hc]
    | attach r' q =>
      by_cases hr : r = r'
      · subst hr
        simp only [step] at hquiet ⊢
        cases hp : h.proxies.get? r with
        | some p =>
          have hacked : (h.acknowledge r a).1.proxies.get? r = some (p.acknowledge a) := by
            rw [get?_acknowledge, if_pos rfl, hp]
            rfl
          rw [matchReader_of_some hp, matchReader_of_some hacked]
        | none =>
          -- the replay for a new reader is quiet if there is nothing to replay
          rw [acknowledge_of_none hp] at hquiet ⊢
          exact (matchReader_acknowledge q a hquiet hp).symm
      · exact matchReader_acknowledge_of_ne q a hr
    | release r' =>
      exact congrArg (WriterHistory.mk h.guid h.qos h.next h.retained)
        (Table.erase_adjust h.proxies r r' (·.acknowledge a))
    | acknowledge r' b =>
      have hr : r ≠ r' := fun hr => by simp [Event.ack?, hr] at he
      exact congrArg (WriterHistory.mk h.guid h.qos h.next h.retained)
        (Table.adjust_comm h.proxies hr (·.acknowledge a) (·.acknowledge b))

lemma addressed_of_entries (hquiet : ∀ n c, Entry.enqueued r n c ∉ h.entries e) :
    addressed r (h.step e).2 = [] := by
  refine List.eq_nil_iff_forall_not_mem.mpr fun x hx => ?_
  obtain ⟨o, ho, hox⟩ := List.mem_filterMap.mp hx
  split_ifs at hox with hr
  refine hquiet o.number o.change (List.mem_append_right _ (List.mem_map.mpr ⟨o, ho, ?_⟩))
  rw [hr]

/-- **A list of acknowledgments is as good as its maximum**, whatever else happens in between, as
long as nothing is enqueued for the reader. -/
lemma run_eq_acknowledge (hw : h.Wf) (hzero : (h.acknowledge r 0).1 = h) (es : List Event)
    (hquiet : ∀ n c, Entry.enqueued r n c ∉ h.log es) :
    h.run es = ((h.run (others r es)).acknowledge r (highest r es)).1 := by
  induction es using List.reverseRecOn with
  | nil => exact hzero.symm
  | append_singleton es e ih =>
    simp only [log_concat, List.mem_append, not_or] at hquiet
    have ih := ih fun n c => (hquiet n c).1
    have hstep := addressed_of_entries fun n c => (hquiet n c).2
    rw [run_concat, ih, others_concat, highest_concat]
    rw [ih] at hstep
    cases he : e.ack? r with
    | none =>
      rw [run_concat]
      exact step_acknowledge (hw.run _) he hstep
    | some a =>
      obtain rfl := eq_of_ack? he
      exact acknowledge_twice ..

/-! ### The law -/

/-- What is pending for a reader, by what is logged of it. The numbers from one on were given since
the reader was matched, and the last of them are pending, without a gap and each with the change
that was enqueued under it. Of a reliable reader they are those that no later acknowledgment
reaches; any other reader has nothing pending. -/
structure Awaits (l : List Entry) (r : Guid) (p : ReaderProxy) : Prop where
  numbers : (sent r l).map (·.1) = List.range' 1 (p.next - 1)
  suffix : p.pending <:+ sent r l
  run : p.pending.map (·.1) = List.range' (p.next - p.pending.length) p.pending.length
  unsettled : p.reliable = true →
    ∀ n c, (n, c) ∈ p.pending ↔ Stands (· = .enqueued r n c) (Entry.Settles r n) l
  none : p.reliable = false → p.pending = []

lemma Tallies.awaits (h : Tallies l r p) : Awaits l r p := by
  obtain ⟨⟨k, hkeeps⟩, hcounted, hpending⟩ := h
  generalize hcs : (sent r l).map (·.2) = cs at hkeeps hcounted
  have hle := hkeeps.le
  have hnext := hkeeps.next
  have htail : p.pending = if p.reliable then numbered (k + 1) (cs.drop k) else [] :=
    hkeeps.pending
  refine ⟨?_, ?_, ?_, fun hb n c => hpending hb ▸ mem_awaited, fun hb => ?_⟩
  · rw [hcounted, map_fst_numbered, hnext, Nat.add_sub_cancel]
  · rw [htail, hcounted]
    split_ifs
    · have happ := numbered_append 1 (cs.take k) (cs.drop k)
      rw [List.take_append_drop, List.length_take, Nat.min_eq_left hle, Nat.add_comm 1] at happ
      exact happ ▸ List.suffix_append _ _
    · exact List.nil_suffix
  · rw [htail]
    split_ifs
    · rw [map_fst_numbered, length_numbered, List.length_drop]
      congr 1
      omega
    · rfl
  · rw [htail, hb]
    rfl

lemma allAcknowledged_eq_true : h.allAcknowledged = true ↔ h.unacknowledged = 0 :=
  decide_eq_true_iff

/-- **Pending changes and acknowledgments.** However a history was used, whatever its readers have
acknowledged and in which order: what is pending for a reader are the last numbers that it was
given, and exactly those that no acknowledgment has reached since they were given. As long as
nothing is enqueued for a reader its acknowledgments are as good as the highest of them, whatever
else happens in between. An acknowledgment reports completion exactly if it is the one that leaves
nothing unacknowledged. -/
theorem pending_law (g : Guid) (q : Qos) (es : List Event) :
    let h := (new g q).run es
    (∀ r p, h.proxies.get? r = some p → Awaits ((new g q).log es) r p) ∧
      (∀ r fs, (∀ n c, Entry.enqueued r n c ∉ h.log fs) →
        h.run fs = ((h.run (others r fs)).acknowledge r (highest r fs)).1) ∧
      ∀ r a, (h.acknowledge r a).2 = true ↔
        0 < h.unacknowledged ∧ (h.acknowledge r a).1.unacknowledged = 0 := by
  intro h
  have hwf : h.Wf := (wf_new g q).run es
  refine ⟨fun r p hp => (tallies_run g q es hp).awaits, fun r fs => ?_, fun r a => ?_⟩
  · refine run_eq_acknowledge hwf ?_ fs
    cases hp : h.proxies.get? r with
    | none => exact acknowledge_of_none hp 0
    | some p =>
      obtain ⟨k, hkeeps⟩ := (tallies_run g q es hp).keeps
      have hsame : h.proxies.adjust r (·.acknowledge 0) = h.proxies :=
        hwf.proxies.adjust_of_fixed hp hkeeps.acknowledge_zero
      exact congrArg (WriterHistory.mk h.guid h.qos h.next h.retained) hsame
  · have hpos : (!h.allAcknowledged) = true ↔ 0 < h.unacknowledged := by
      rw [Bool.not_eq_true', ← Bool.not_eq_true, allAcknowledged_eq_true, Nat.pos_iff_ne_zero]
    show (!h.allAcknowledged && (h.acknowledge r a).1.allAcknowledged) = true ↔ _
    rw [Bool.and_eq_true, hpos, allAcknowledged_eq_true]

/-- The reader acknowledges more than it was sent, and late what it had acknowledged before. -/
def overtaken : List Event :=
  [.attach ⟨2, 1⟩ .reliable, .write "a" (.str "x"), .acknowledge ⟨2, 1⟩ 9,
    .attach ⟨2, 2⟩ .reliable, .write "b" (.str "y"), .write "a" (.str "z"),
    .acknowledge ⟨2, 1⟩ 1]

theorem pending_law_overtaken :
    let h := (new ⟨1, 1⟩ .reliable).run overtaken
    let fs : List Event := [.acknowledge ⟨2, 1⟩ 2, .acknowledge ⟨2, 2⟩ 1, .acknowledge ⟨2, 1⟩ 1]
    (∃ p, h.proxies.get? ⟨2, 1⟩ = some p ∧ p.reliable = true ∧ p.pending.map (·.1) = [2, 3] ∧
      (2, ⟨2, "b", .alive, some (.str "y")⟩) ∈ p.pending) ∧
    h.run fs = ((h.run [.acknowledge ⟨2, 2⟩ 1]).acknowledge ⟨2, 1⟩ 2).1 ∧
    (h.acknowledge ⟨2, 1⟩ 3).2 = false := by
  intro h fs
  obtain ⟨hawaits, hacks, hcomplete⟩ := pending_law ⟨1, 1⟩ .reliable overtaken
  refine ⟨⟨_, rfl, rfl, ?_, ?_⟩, hacks ⟨2, 1⟩ fs ?_, ?_⟩
  · rw [(hawaits ⟨2, 1⟩ _ rfl).run]
    rfl
  · refine ((hawaits ⟨2, 1⟩ _ rfl).unsettled rfl 2 _).mpr ?_
    refine ⟨[.joined ⟨2, 1⟩, .enqueued ⟨2, 1⟩ 1 _, .acked ⟨2, 1⟩ 9, .joined ⟨2, 2⟩], _,
      [.enqueued ⟨2, 2⟩ 1 _, .enqueued ⟨2, 1⟩ 3 _, .enqueued ⟨2, 2⟩ 2 _, .acked ⟨2, 1⟩ 1], rfl,
      rfl, ?_⟩
    simp [Entry.Settles]
  · have hlog : h.log fs = [.acked ⟨2, 1⟩ 2, .acked ⟨2, 2⟩ 1, .acked ⟨2, 1⟩ 1] := rfl
    rw [hlog]
    simp
  · refine Bool.eq_false_iff.mpr fun hdone => ?_
    exact absurd ((hcomplete ⟨2, 1⟩ 3).mp hdone).2 (by decide)

end WriterHistory

end PubSub
