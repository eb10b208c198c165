import PubSub.Proofs.Loopback.Act

/-!
What each operation of a domain changes of what can be seen of its endpoints.
-/

namespace PubSub.Loopback

open Udp (Look Submission)
open Udp.Node (bind_ok createEndpoint_ok)

namespace Domain

variable {d : Domain} {w r : Guid} {x : Writer} {y : Reader} {owed : Guid → Guid → List Change}
  {got : Guid → Guid → List (Change × Reception)}

/-! ### One endpoint -/

lemma card?_adjustWriter {f : Writer → Writer} {F : Card → Card}
    (hf : ∀ x, d.writers.get? w = some x → Card.ofWriter (f x) = F (Card.ofWriter x))
    (k : EndpointKind) (g : Guid) :
    (d.adjustWriter w f).card? k g =
      if k = .writer ∧ g = w then (d.card? k g).map F else d.card? k g := by
  cases k with
  | reader => simp [card?, adjustWriter]
  | writer =>
    simp only [card?, get?_adjustWriter, true_and]
    split_ifs with hg
    · subst hg
      cases hx : d.writers.get? g with
      | none => rfl
      | some x => simp [hf x hx]
    · rfl

lemma card?_adjustReader {f : Reader → Reader} {F : Card → Card}
    (hf : ∀ y, d.readers.get? r = some y → Card.ofReader (f y) = F (Card.ofReader y))
    (k : EndpointKind) (g : Guid) :
    (d.adjustReader r f).card? k g =
      if k = .reader ∧ g = r then (d.card? k g).map F else d.card? k g := by
  cases k with
  | writer => simp [card?, adjustReader]
  | reader =>
    simp only [card?, get?_adjustReader, true_and]
    split_ifs with hg
    · subst hg
      cases hy : d.readers.get? g with
      | none => rfl
      | some y => simp [hf y hy]
    · rfl

lemma card?_adjustWriter_same {f : Writer → Writer}
    (hf : ∀ x, d.writers.get? w = some x → Card.ofWriter (f x) = Card.ofWriter x) :
    (d.adjustWriter w f).card? = d.card? := by
  funext k g
  rw [card?_adjustWriter (F := fun a => a) hf, Option.map_id', ite_self]

lemma card?_adjustReader_same {f : Reader → Reader}
    (hf : ∀ y, d.readers.get? r = some y → Card.ofReader (f y) = Card.ofReader y) :
    (d.adjustReader r f).card? = d.card? := by
  funext k g
  rw [card?_adjustReader (F := fun a => a) hf, Option.map_id', ite_self]

lemma nextOf_adjustWriter (hx : d.writers.get? w = some x) (f : Writer → Writer) (g : Guid) :
    (d.adjustWriter w f).nextOf g = if g = w then (f x).history.next else d.nextOf g := by
  simp only [nextOf, get?_adjustWriter]
  split_ifs with hg
  · rw [hg, hx]
    rfl
  · rfl

lemma proxy?_adjustWriter (hx : d.writers.get? w = some x) (f : Writer → Writer) (w' r : Guid) :
    (d.adjustWriter w f).proxy? w' r =
      if w' = w then (f x).history.proxies.get? r else d.proxy? w' r := by
  simp only [proxy?, get?_adjustWriter]
  split_ifs with hw
  · rw [hw, hx]
    rfl
  · rfl

lemma peer?_adjustReader (hy : d.readers.get? r = some y) (f : Reader → Reader) (w r' : Guid) :
    (d.adjustReader r f).peer? w r' =
      if r' = r then (f y).cache.writers.get? w else d.peer? w r' := by
  simp only [peer?, get?_adjustReader]
  split_ifs with hr
  · rw [hr, hy]
    rfl
  · rfl

lemma nextOf_adjustWriter_same {f : Writer → Writer}
    (hf : ∀ x, (f x).history.next = x.history.next) :
    (d.adjustWriter w f).nextOf = d.nextOf := by
  funext g
  simp only [nextOf, get?_adjustWriter]
  split_ifs
  · cases d.writers.get? g <;> simp [hf]
  · rfl

lemma proxy?_adjustWriter_same {f : Writer → Writer} (hf : ∀ x, (f x).history = x.history) :
    (d.adjustWriter w f).proxy? = d.proxy? := by
  funext w' r
  simp only [proxy?, get?_adjustWriter]
  split_ifs
  · cases d.writers.get? w' <;> simp [hf]
  · rfl

lemma peer?_adjustReader_same {f : Reader → Reader}
    (hf : ∀ y, (f y).cache.writers = y.cache.writers) :
    (d.adjustReader r f).peer? = d.peer? := by
  funext w r'
  simp only [peer?, get?_adjustReader]
  split_ifs
  · cases d.readers.get? r' <;> simp [hf]
  · rfl

lemma view_adjustWriter {f : Writer → Writer}
    (hcard : ∀ x, Card.ofWriter (f x) = Card.ofWriter x)
    (hhistory : ∀ x, (f x).history = x.history) :
    Trace.view ⟨d.adjustWriter w f, owed, got⟩ = Trace.view ⟨d, owed, got⟩ := by
  have hproxy := proxy?_adjustWriter_same (d := d) (w := w) hhistory
  refine View.ext (card?_adjustWriter_same fun x _ => hcard x)
    (nextOf_adjustWriter_same fun x => congrArg WriterHistory.next (hhistory x))
    (funext₂ fun w' r' => ?_)
  exact Pair.ext (congrFun (congrFun hproxy w') r') rfl rfl rfl rfl

lemma view_adjustReader {f : Reader → Reader}
    (hcard : ∀ y, Card.ofReader (f y) = Card.ofReader y)
    (hwriters : ∀ y, (f y).cache.writers = y.cache.writers) :
    Trace.view ⟨d.adjustReader r f, owed, got⟩ = Trace.view ⟨d, owed, got⟩ := by
  have hpeer := peer?_adjustReader_same (d := d) (r := r) hwriters
  refine View.ext (card?_adjustReader_same fun y _ => hcard y) rfl (funext₂ fun w' r' => ?_)
  exact Pair.ext rfl (congrFun (congrFun hpeer w') r') rfl rfl rfl

/-! ### A new endpoint -/

def insertWriter (d : Domain) (x : Writer) : Domain :=
  { d with writers := d.writers.insertLast x.guid x }

def insertReader (d : Domain) (y : Reader) : Domain :=
  { d with readers := d.readers.insertLast y.guid y }

section New

variable {g : Guid} {topic : String} {type : SampleType} {q : Qos}

lemma get?_insertWriter (hn : d.writers.get? g = none) (w : Guid) :
    (d.insertWriter (.new g topic type q)).writers.get? w =
      if w = g then some (.new g topic type q) else d.writers.get? w :=
  Table.get?_insertNew _ _ _ _ _ hn

lemma get?_insertReader (hn : d.readers.get? g = none) (r : Guid) :
    (d.insertReader (.new g topic type q)).readers.get? r =
      if r = g then some (.new g topic type q) else d.readers.get? r :=
  Table.get?_insertNew _ _ _ _ _ hn

lemma card?_insertWriter (hn : d.writers.get? g = none) (k : EndpointKind) (g' : Guid) :
    (d.insertWriter (.new g topic type q)).card? k g' =
      if k = .writer ∧ g' = g then some ⟨.of topic type.name, q, true, 0, 0⟩ else d.card? k g' := by
  cases k with
  | writer =>
    simp only [card?, get?_insertWriter hn, true_and]
    split_ifs <;> rfl
  | reader => simp [card?, insertWriter]

lemma card?_insertReader (hn : d.readers.get? g = none) (k : EndpointKind) (g' : Guid) :
    (d.insertReader (.new g topic type q)).card? k g' =
      if k = .reader ∧ g' = g then some ⟨.of topic type.name, q, true, 0, 0⟩ else d.card? k g' := by
  cases k with
  | writer => simp [card?, insertReader]
  | reader =>
    simp only [card?, get?_insertReader hn, true_and]
    split_ifs <;> rfl

lemma proxy?_insertWriter (hn : d.writers.get? g = none) (w r : Guid) :
    (d.insertWriter (.new g topic type q)).proxy? w r = d.proxy? w r := by
  simp only [proxy?, get?_insertWriter hn]
  split_ifs with hg
  · rw [hg, hn]
    rfl
  · rfl

lemma peer?_insertReader (hn : d.readers.get? g = none) (w r : Guid) :
    (d.insertReader (.new g topic type q)).peer? w r = d.peer? w r := by
  simp only [peer?, get?_insertReader hn]
  split_ifs with hg
  · rw [hg, hn]
    rfl
  · rfl

lemma nextOf_insertWriter (hn : d.writers.get? g = none) (w : Guid) :
    (d.insertWriter (.new g topic type q)).nextOf w = d.nextOf w := by
  simp only [nextOf, get?_insertWriter hn]
  split_ifs with hg
  · rw [hg, hn]
    rfl
  · rfl

end New

lemma view_insertWriter {g : Guid} (hn : d.writers.get? g = none) (topic : String)
    (type : SampleType) (q : Qos) :
    Trace.view ⟨d.insertWriter (.new g topic type q), owed, got⟩ =
      (Trace.view ⟨d, owed, got⟩).enter .writer g ⟨.of topic type.name, q, true, 0, 0⟩ :=
  View.ext (funext₂ (card?_insertWriter hn)) (funext (nextOf_insertWriter hn))
    (funext₂ fun w r => Pair.ext (proxy?_insertWriter hn w r) rfl rfl rfl rfl)

lemma view_insertReader {g : Guid} (hn : d.readers.get? g = none) (topic : String)
    (type : SampleType) (q : Qos) :
    Trace.view ⟨d.insertReader (.new g topic type q), owed, got⟩ =
      (Trace.view ⟨d, owed, got⟩).enter .reader g ⟨.of topic type.name, q, true, 0, 0⟩ :=
  View.ext (funext₂ (card?_insertReader hn)) rfl
    (funext₂ fun w r => Pair.ext rfl (peer?_insertReader hn w r) rfl rfl rfl)

lemma Wf.insertWriter (h : d.Wf) {g : Guid} (hw : d.has .writer g = false)
    (hr : d.has .reader g = false)
    (hg : ∃ p, d.participants.get? g.participant = some p ∧ g.entity < p.next) (topic : String)
    (type : SampleType) (q : Qos) : (d.insertWriter (.new g topic type q)).Wf := by
  have hn : d.writers.get? g = none := Table.has_eq_false.mp hw
  have hhas : ∀ w, (d.insertWriter (.new g topic type q)).has .writer w = true →
      w = g ∨ d.has .writer w = true := by
    intro w hw
    simp only [has, Table.has, get?_insertWriter hn] at hw
    split_ifs at hw with hwg
    · exact .inl hwg
    · exact .inr hw
  refine ⟨h.identity, fun k g' hg' => ?_, fun g' hg' => ?_,
    h.writers.insertNew _ hn _, h.readers, fun w x hx => ?_, h.reader⟩
  · cases k with
    | writer =>
      rcases hhas g' hg' with rfl | hg'
      · exact hg
      · exact h.issued .writer g' hg'
    | reader => exact h.issued .reader g' hg'
  · rcases hhas g' hg' with rfl | hg'
    · exact hr
    · exact h.once g' hg'
  · rw [get?_insertWriter hn] at hx
    split_ifs at hx with hwg
    · rw [← Option.some.inj hx, hwg]
      exact WriterTidy.new g topic type q
    · exact h.writer w x hx

lemma Wf.insertReader (h : d.Wf) {g : Guid} (hw : d.has .writer g = false)
    (hr : d.has .reader g = false)
    (hg : ∃ p, d.participants.get? g.participant = some p ∧ g.entity < p.next) (topic : String)
    (type : SampleType) (q : Qos) : (d.insertReader (.new g topic type q)).Wf := by
  have hn : d.readers.get? g = none := Table.has_eq_false.mp hr
  have hhas : ∀ r, r ≠ g → (d.insertReader (.new g topic type q)).has .reader r =
      d.has .reader r := by
    intro r hne
    simp only [has, Table.has, get?_insertReader hn, if_neg hne]
  refine ⟨h.identity, fun k g' hg' => ?_, fun g' hg' => ?_, h.writers,
    h.readers.insertNew _ hn _, h.writer, fun r y hy => ?_⟩
  · cases k with
    | writer => exact h.issued .writer g' hg'
    | reader =>
      by_cases hrg : g' = g
      · exact hrg ▸ hg
      · exact h.issued .reader g' (hhas g' hrg ▸ hg')
  · have hne : g' ≠ g := by
      rintro rfl
      exact absurd (hg'.symm.trans hw) (by simp)
    rw [hhas g' hne]
    exact h.once g' hg'
  · rw [get?_insertReader hn] at hy
    split_ifs at hy with hrg
    · rw [← Option.some.inj hy, hrg]
      exact ReaderTidy.new g topic type q
    · exact h.reader r y hy

/-! ### A change -/

def queued (d : Domain) (w : Guid) (out : List Outgoing) : Domain :=
  { d with queue := d.queue ++ out.map fun o => ⟨d.clock + d.latency.nanos, w, o⟩ }

/-- What a writer makes for readers that it has is queued for them. -/
lemma submit_of_matched (hx : d.writers.get? w = some x) {out : List Outgoing}
    (hout : ∀ o ∈ out, x.history.isMatched o.reader = true) : d.submit w out = d.queued w out := by
  have hfilter : out.filter (x.history.isMatched ·.reader) = out := List.filter_eq_self.mpr hout
  simp [submit, queued, hx, hfilter]

lemma jobsOf_queued (d : Domain) (w w' r : Guid) (out : List Outgoing) :
    (d.queued w out).jobsOf w' r =
      d.jobsOf w' r ++ if w = w' then addressed r out else [] := by
  simp only [jobsOf, queued, List.map_append, List.map_map, carried_append]
  exact congrArg _ (carried_from w w' r out)

lemma card?_queued (d : Domain) (w : Guid) (out : List Outgoing) :
    (d.queued w out).card? = d.card? := rfl

lemma Wf.queued (h : d.Wf) (w : Guid) (out : List Outgoing) : (d.queued w out).Wf :=
  ⟨h.identity, h.issued, h.once, h.writers, h.readers, h.writer, h.reader⟩

/-- A change that is accepted is made by an open writer, and goes to all of its readers. -/
lemma appended_made (hx : d.writers.get? w = some x) {s : Submission}
    {made : Domain × List Outgoing} (hok : d.appended w s = .ok made) :
    let c := s.change x.history.next
    let added := x.history.addChange c.key c.kind c.payload
    x.isOpen = true ∧
      made = (d.adjustWriter w fun _ => { x with history := added.1 }.notePending, added.2) := by
  have hopen : d.openWriter w = if x.isOpen then .ok x else .error (.deleted .writer) := by
    simp only [openWriter, hx, Writer.checkOpen]
    split_ifs <;> rfl
  cases s with
  | sample v =>
    obtain ⟨x', hx', hok⟩ := bind_ok hok
    rw [hopen] at hx'
    split_ifs at hx' with ho
    obtain rfl := Except.ok.inj hx'
    exact ⟨ho, (Except.ok.inj hok).symm⟩
  | disposal v handle =>
    obtain ⟨x', hx', hok⟩ := bind_ok hok
    rw [hopen] at hx'
    split_ifs at hx' with ho
    obtain rfl := Except.ok.inj hx'
    obtain ⟨⟨x', out⟩, hdispose, hok⟩ := bind_ok hok
    obtain ⟨⟨h', out'⟩, hh, hdispose⟩ := bind_ok hdispose
    unfold WriterHistory.dispose at hh
    split_ifs at hh
    obtain ⟨rfl, rfl⟩ := Prod.mk.inj (Except.ok.inj hdispose)
    have hadded : x.history.addChange v.key .disposed none = (h', out') := Except.ok.inj hh
    simp only [Submission.change, hadded]
    exact ⟨ho, (Except.ok.inj hok).symm⟩

lemma appended_ok (hx : d.writers.get? w = some x) {s : Submission} {made : Domain × List Outgoing}
    (hok : d.appended w s = .ok made) :
    let c := s.change x.history.next
    x.isOpen = true ∧ ∃ k, made =
      (d.adjustWriter w fun _ =>
          { x with
            history := (x.history.addChange c.key c.kind c.payload).1
            condition := k },
        (x.history.addChange c.key c.kind c.payload).2) := by
  obtain ⟨ho, hmade⟩ := appended_made hx hok
  obtain ⟨k, hk⟩ := notePending_eq { x with
    history := (x.history.addChange (s.change x.history.next).key (s.change x.history.next).kind
      (s.change x.history.next).payload).1 }
  exact ⟨ho, k, hmade.trans (by rw [hk])⟩

lemma get?_of_appended {s : Submission} {made : Domain × List Outgoing}
    (hok : d.appended w s = .ok made) : ∃ x, d.writers.get? w = some x := by
  have hopen : ∃ x, d.openWriter w = .ok x := by
    cases s with
    | sample v =>
      obtain ⟨x, hx, -⟩ := bind_ok hok
      exact ⟨x, hx⟩
    | disposal v handle =>
      obtain ⟨x, hx, -⟩ := bind_ok hok
      exact ⟨x, hx⟩
  obtain ⟨x, hx⟩ := hopen
  unfold openWriter at hx
  cases hw : d.writers.get? w with
  | some x => exact ⟨x, rfl⟩
  | none => simp [hw] at hx

/-- What is submitted is made first, and then queued. -/
lemma submitted_eq (d : Domain) (w : Guid) (s : Submission) :
    d.submitted w s = (d.appended w s).map fun made => made.1.submit w made.2 := by
  cases s with
  | sample v =>
    simp only [submitted, write, appended]
    cases d.append w v <;> rfl
  | disposal v handle =>
    simp only [submitted, dispose, appended]
    cases d.appendDisposal w v handle <;> rfl

section Submit

variable {c : Change} {k : StatusCondition}

def made (d : Domain) (x : Writer) (c : Change) (k : StatusCondition) : Domain :=
  (d.adjustWriter x.guid fun _ =>
    { x with
      history := (x.history.addChange c.key c.kind c.payload).1
      condition := k }).submit x.guid (x.history.addChange c.key c.kind c.payload).2

lemma made_eq (hx : d.writers.get? x.guid = some x) :
    let out := (x.history.addChange c.key c.kind c.payload).2
    let x' : Writer := { x with
      history := (x.history.addChange c.key c.kind c.payload).1
      condition := k }
    d.made x c k = (d.adjustWriter x.guid fun _ => x').queued x.guid out := by
  intro out x'
  have hx' : (d.adjustWriter x.guid fun _ => x').writers.get? x.guid = some x' := by
    rw [get?_adjustWriter, if_pos rfl, hx]
    rfl
  refine submit_of_matched hx' fun o ho => ?_
  obtain ⟨e, he, rfl⟩ := List.mem_map.mp ho
  have hkeys : Table.keys x'.history.proxies = x.history.proxies.keys :=
    Table.keys_map x.history.proxies fun _ p => p.enqueue _
  exact Table.has_iff_mem_keys.mpr (hkeys ▸ Table.mem_keys_of_mem he)

lemma card?_made (hx : d.writers.get? x.guid = some x) : (d.made x c k).card? = d.card? := by
  rw [made_eq hx, card?_queued]
  refine card?_adjustWriter_same fun x' hx' => ?_
  obtain rfl : x' = x := Option.some.inj (hx'.symm.trans hx)
  rfl

lemma nextOf_made (hx : d.writers.get? x.guid = some x) (g : Guid) :
    (d.made x c k).nextOf g = if g = x.guid then x.history.next + 1 else d.nextOf g := by
  rw [made_eq hx]
  exact nextOf_adjustWriter hx (fun _ => _) g

lemma proxy?_made (hx : d.writers.get? x.guid = some x) (hc : c.sequence = x.history.next)
    (w r : Guid) : (d.made x c k).proxy? w r =
      if w = x.guid then (x.history.proxies.get? r).map (·.enqueue c) else d.proxy? w r := by
  have hmade : x.history.made c.key c.kind c.payload = c := by rw [WriterHistory.made, ← hc]
  rw [made_eq hx]
  refine (proxy?_adjustWriter hx (fun _ => _) w r).trans ?_
  rw [WriterHistory.get?_addChange, hmade]

lemma peer?_made (hx : d.writers.get? x.guid = some x) (w r : Guid) :
    (d.made x c k).peer? w r = d.peer? w r := by
  rw [made_eq hx]
  rfl

/-- The change is queued for every reader that the writer has. -/
lemma jobsOf_made (hx : d.writers.get? x.guid = some x) (w r : Guid) :
    (d.made x c k).jobsOf w r = d.jobsOf w r ++ if x.guid = w then
      addressed r (x.history.addChange c.key c.kind c.payload).2 else [] := by
  rw [made_eq hx]
  exact jobsOf_queued _ x.guid w r _

lemma view_made (owed : Guid → Guid → List Change)
    (got : Guid → Guid → List (Change × Reception)) (h : WriterTidy w x)
    (hx : d.writers.get? w = some x) (hc : c.sequence = x.history.next) :
    Trace.view ⟨d.made x c k, fun w' r => if w' = w then owed w r ++
        (addressed r (x.history.addChange c.key c.kind c.payload).2).map (·.2) else owed w' r,
      got⟩ = (Trace.view ⟨d, owed, got⟩).write w c := by
  obtain rfl := h.guid
  have hmade : x.history.made c.key c.kind c.payload = c := by rw [WriterHistory.made, ← hc]
  have haddressed := WriterHistory.addressed_addChange c.key c.kind c.payload h.history
  rw [hmade] at haddressed
  refine View.ext (card?_made hx) (funext fun g => ?_) (funext₂ fun w' r => ?_)
  · refine (nextOf_made hx g).trans ?_
    simp [Trace.view, View.write, nextOf, hx]
  · have hproxy := proxy?_made (k := k) hx hc w' r
    have hpeer := peer?_made (c := c) (k := k) hx w' r
    have hjobs := jobsOf_made (c := c) (k := k) hx w' r
    by_cases hw : w' = x.guid
    · subst hw
      have hold : d.proxy? x.guid r = x.history.proxies.get? r := by simp [proxy?, hx]
      simp only [Trace.view, View.write, if_true, Pair.write, hold, haddressed] at hproxy hjobs ⊢
      cases hp : x.history.proxies.get? r with
      | none =>
        -- a reader that the writer does not have is told nothing
        rw [hp] at hproxy hjobs
        refine Pair.ext hproxy hpeer ?_ ?_ rfl
        · exact hjobs.trans (List.append_nil _)
        · simp
      | some p =>
        rw [hp] at hproxy hjobs
        refine Pair.ext hproxy hpeer hjobs ?_ rfl
        simp
    · rw [if_neg hw] at hproxy
      rw [if_neg (Ne.symm hw), List.append_nil] at hjobs
      simp only [Trace.view, View.write, if_neg hw]
      exact Pair.ext hproxy hpeer hjobs rfl rfl

lemma Wf.made (h : d.Wf) (hx : d.writers.get? w = some x) : (d.made x c k).Wf := by
  have htidy := h.writer w x hx
  obtain rfl := htidy.guid
  rw [made_eq hx]
  have htidy' : WriterTidy x.guid { x with
      history := (x.history.addChange c.key c.kind c.payload).1
      condition := k } := htidy.addChange rfl rfl
  exact (h.adjustWriter fun _ _ _ => htidy').queued _ _

end Submit

/-! ### Two that meet -/

section Meet

variable {p : Policy}

lemma meet_of_conflict (hq : Qos.conflict? x.qos y.qos = some p) :
    d.meet w x.qos r y.qos = (d.adjustWriter w (·.refuse p)).adjustReader r (·.refuse p) := by
  simp [meet, hq]

/-- The two are bound, and what is replayed is queued. -/
lemma meet_of_compatible (hx : d.writers.get? w = some x) (hy : d.readers.get? r = some y)
    (hq : Qos.conflict? x.qos y.qos = none) (hn : x.history.proxies.get? r = none) :
    d.meet w x.qos r y.qos =
      ((d.adjustReader r (readerBound · w x.qos.isReliable)).adjustWriter w
        fun _ => (writerBound x r y.qos).1).queued w (x.history.matchReader r y.qos).2 := by
  have hbind : d.meet w x.qos r y.qos =
      ((d.adjustReader r (readerBound · w x.qos.isReliable)).adjustWriter w
        fun _ => (writerBound x r y.qos).1).submit w (x.history.matchReader r y.qos).2 := by
    simp only [meet, hq, bind, hx, hy]
    rfl
  have hx' : ((d.adjustReader r (readerBound · w x.qos.isReliable)).adjustWriter w
      fun _ => (writerBound x r y.qos).1).writers.get? w = some (writerBound x r y.qos).1 := by
    rw [get?_adjustWriter, if_pos rfl]
    exact congrArg (Option.map _) hx
  rw [hbind]
  refine submit_of_matched hx' fun o ho => ?_
  have hreader : o.reader = r := by
    rw [WriterHistory.matchReader_of_none hn] at ho
    obtain ⟨e, -, rfl⟩ := List.mem_map.mp ho
    rfl
  rw [writerBound_history, WriterHistory.isMatched, hreader]
  exact Table.has_eq_true.mpr ⟨_, WriterHistory.get?_matchReader_self y.qos hn⟩

lemma Wf.meet (h : d.Wf) (hx : d.writers.get? w = some x) (hy : d.readers.get? r = some y)
    (hn : x.history.proxies.get? r = none) (hn' : y.cache.writers.get? w = none) :
    (d.meet w x.qos r y.qos).Wf := by
  cases hq : Qos.conflict? x.qos y.qos with
  | some p =>
    rw [meet_of_conflict hq]
    exact (h.adjustWriter fun _ _ ht => ht.refuse p).adjustReader fun _ _ ht => ht.refuse p
  | none =>
    rw [meet_of_compatible hx hy hq hn]
    refine Wf.queued ?_ _ _
    refine (h.adjustReader fun y' hy' ht => ?_).adjustWriter fun x' hx' ht => ?_
    · obtain rfl : y' = y := Option.some.inj (hy'.symm.trans hy)
      exact ht.bound hn' _
    · obtain rfl : x' = x := Option.some.inj (hx'.symm.trans hx)
      exact ht.bound hn y.qos

lemma card?_meet (hx : d.writers.get? w = some x) (hy : d.readers.get? r = some y)
    (hn : x.history.proxies.get? r = none) (hn' : y.cache.writers.get? w = none)
    (m : Meeting) (hm : m = ⟨w, r, Qos.compatible x.qos y.qos⟩) (k : EndpointKind) (g : Guid) :
    (d.meet w x.qos r y.qos).card? k g =
      if g = m.of k then (d.card? k g).map (·.meet m.bound) else d.card? k g := by
  obtain rfl := hm
  unfold Qos.compatible
  cases hq : Qos.conflict? x.qos y.qos with
  | some p =>
    rw [meet_of_conflict hq, card?_adjustReader (F := (·.meet false)) fun y _ => ofReader_refuse y p,
      card?_adjustWriter (F := (·.meet false)) fun x _ => ofWriter_refuse x p]
    cases k <;> simp only [Meeting.of] <;> split_ifs <;> simp_all
  | none =>
    rw [meet_of_compatible hx hy hq hn, card?_queued,
      card?_adjustWriter (F := (·.meet true)) fun x' hx' => ?_,
      card?_adjustReader (F := (·.meet true)) fun y' hy' => ?_]
    · cases k <;> simp only [Meeting.of] <;> split_ifs <;> simp_all
    · obtain rfl : y' = y := Option.some.inj (hy'.symm.trans hy)
      exact ofReader_readerBound hn' _
    · obtain rfl : x' = x := Option.some.inj (hx'.symm.trans hx)
      exact ofWriter_writerBound x' r y.qos

/-- Two that pass each other over know nothing of each other. -/
lemma view_refused (owed : Guid → Guid → List Change)
    (got : Guid → Guid → List (Change × Reception)) (hq : Qos.conflict? x.qos y.qos = some p)
    {m : Meeting} (hm : m.bound = false)
    (hcard : (d.meet w x.qos r y.qos).card? = fun k g =>
      if g = m.of k then (d.card? k g).map (·.meet m.bound) else d.card? k g)
    (e : Bool) (cs : List Change) :
    Trace.view ⟨d.meet w x.qos r y.qos, owed, got⟩ = (Trace.view ⟨d, owed, got⟩).meet m e cs := by
  have hproxy : (d.meet w x.qos r y.qos).proxy? = d.proxy? := by
    rw [meet_of_conflict hq]
    exact proxy?_adjustWriter_same (d := d) (w := w) (f := (·.refuse p)) fun _ => rfl
  have hpeer : (d.meet w x.qos r y.qos).peer? = d.peer? := by
    rw [meet_of_conflict hq]
    exact peer?_adjustReader_same (r := r) (f := (·.refuse p)) fun _ => rfl
  have hnext : (d.meet w x.qos r y.qos).nextOf = d.nextOf := by
    rw [meet_of_conflict hq]
    exact nextOf_adjustWriter_same (d := d) (w := w) (f := (·.refuse p)) fun _ => rfl
  have hjobs : (d.meet w x.qos r y.qos).jobsOf = d.jobsOf := by
    rw [meet_of_conflict hq]
    rfl
  refine View.ext hcard hnext (funext₂ fun w' r' => ?_)
  have hne : m ≠ ⟨w', r', true⟩ := fun heq => by simp [heq] at hm
  simp [Trace.view, View.meet, hproxy, hpeer, hjobs, hne]

section Bound

variable (hx : d.writers.get? w = some x) (hy : d.readers.get? r = some y)
  (hq : Qos.conflict? x.qos y.qos = none) (hn : x.history.proxies.get? r = none)
include hx hy hq hn

lemma nextOf_meet : (d.meet w x.qos r y.qos).nextOf = d.nextOf := by
  rw [meet_of_compatible hx hy hq hn]
  have hx' : (d.adjustReader r (readerBound · w x.qos.isReliable)).writers.get? w = some x := hx
  funext g
  refine (nextOf_adjustWriter hx' (fun _ => (writerBound x r y.qos).1) g).trans ?_
  rw [writerBound_history, WriterHistory.matchReader_next]
  split_ifs with hg
  · simp [nextOf, hg, hx]
  · rfl

lemma proxy?_meet (w' r' : Guid) : (d.meet w x.qos r y.qos).proxy? w' r' =
    if w' = w then (x.history.matchReader r y.qos).1.proxies.get? r' else d.proxy? w' r' := by
  rw [meet_of_compatible hx hy hq hn, ← writerBound_history]
  have hx' : (d.adjustReader r (readerBound · w x.qos.isReliable)).writers.get? w = some x := hx
  exact proxy?_adjustWriter hx' (fun _ => (writerBound x r y.qos).1) w' r'

lemma peer?_meet (hn' : y.cache.writers.get? w = none) (w' r' : Guid) :
    (d.meet w x.qos r y.qos).peer? w' r' = if r' = r then
        (if w' = w then some ⟨x.qos.isReliable && y.qos.isReliable, 1⟩
          else y.cache.writers.get? w')
      else d.peer? w' r' := by
  rw [meet_of_compatible hx hy hq hn, ← get?_readerBound hn']
  exact peer?_adjustReader hy (readerBound · w x.qos.isReliable) w' r'

lemma jobsOf_meet (w' r' : Guid) : (d.meet w x.qos r y.qos).jobsOf w' r' =
    d.jobsOf w' r' ++ if w = w' then addressed r' (x.history.matchReader r y.qos).2 else [] := by
  rw [meet_of_compatible hx hy hq hn]
  exact jobsOf_queued _ w w' r' _

/-- Two that are bound start anew, and all others have what they had. -/
lemma view_bound (owed : Guid → Guid → List Change)
    (got : Guid → Guid → List (Change × Reception)) (hn' : y.cache.writers.get? w = none)
    (hcard : (d.meet w x.qos r y.qos).card? = fun k g =>
      if g = (Meeting.mk w r true).of k then (d.card? k g).map (·.meet true) else d.card? k g) :
    Trace.view ⟨d.meet w x.qos r y.qos, fun w' r' =>
        if Meeting.mk w r true = ⟨w', r', true⟩ then owed w' r' ++ x.history.backlog y.qos
        else owed w' r', got⟩ =
      (Trace.view ⟨d, owed, got⟩).meet ⟨w, r, true⟩ (x.qos.isReliable && y.qos.isReliable)
        (x.history.backlog y.qos) := by
  refine View.ext hcard (nextOf_meet hx hy hq hn) (funext₂ fun w' r' => ?_)
  have hproxy := proxy?_meet hx hy hq hn w' r'
  have hpeer := peer?_meet hx hy hq hn hn' w' r'
  have hjobs := jobsOf_meet hx hy hq hn w' r'
  simp only [Trace.view, View.meet, Meeting.mk.injEq, and_true]
  by_cases hm : w = w' ∧ r = r'
  · obtain ⟨rfl, rfl⟩ := hm
    have hboth : (y.qos.isReliable && x.history.qos.isReliable) =
        (x.qos.isReliable && y.qos.isReliable) := Bool.and_comm _ _
    have hself := WriterHistory.get?_matchReader_self y.qos hn
    rw [hboth] at hself
    simp [hproxy, hpeer, hjobs, Pair.bind, hself,
      WriterHistory.addressed_matchReader_self y.qos hn]
  · rw [if_neg hm, if_neg hm]
    have hne : w' = w → r' ≠ r := fun hw hr => hm ⟨hw.symm, hr.symm⟩
    refine Pair.ext ?_ ?_ ?_ rfl rfl
    · -- the writer keeps of its other readers what it kept
      rw [hproxy]
      split_ifs with hw
      · rw [WriterHistory.get?_matchReader_of_ne y.qos (hne hw)]
        simp [proxy?, hw, hx]
      · rfl
    · -- and the reader of its other writers
      rw [hpeer]
      split_ifs with hr hw
      · exact absurd hr (hne hw)
      · simp [peer?, hr, hy]
      · rfl
    · -- what is replayed is for the one reader
      rw [hjobs]
      split_ifs with hw
      · rw [WriterHistory.addressed_matchReader_of_ne y.qos (hne hw.symm), List.append_nil]
      · exact List.append_nil _

end Bound

/-- Neither side has the other, and what was made before does not change. -/
lemma view_meet (owed : Guid → Guid → List Change)
    (got : Guid → Guid → List (Change × Reception)) (hx : d.writers.get? w = some x)
    (hy : d.readers.get? r = some y) (hn : x.history.proxies.get? r = none)
    (hn' : y.cache.writers.get? w = none) (m : Meeting)
    (hm : m = ⟨w, r, Qos.compatible x.qos y.qos⟩) :
    Trace.view ⟨d.meet w x.qos r y.qos, fun w' r' => if m = ⟨w', r', true⟩ then
        owed w' r' ++ x.history.backlog y.qos else owed w' r', got⟩ =
      (Trace.view ⟨d, owed, got⟩).meet m (x.qos.isReliable && y.qos.isReliable)
        (x.history.backlog y.qos) := by
  have hcard : (d.meet w x.qos r y.qos).card? = _ :=
    funext₂ fun k g => card?_meet hx hy hn hn' m hm k g
  have hbound : m.bound = (Qos.conflict? x.qos y.qos).isNone := congrArg Meeting.bound hm
  cases hq : Qos.conflict? x.qos y.qos with
  | some p =>
    rw [hq] at hbound
    have howed : (fun w' r' => if m = ⟨w', r', true⟩ then
        owed w' r' ++ x.history.backlog y.qos else owed w' r') = owed := by
      funext w' r'
      rw [if_neg]
      rintro rfl
      cases hbound
    rw [howed]
    exact view_refused owed got hq hbound hcard _ _
  | none =>
    rw [hq] at hbound
    obtain rfl : m = ⟨w, r, true⟩ := hm.trans (by rw [Qos.compatible, hq]; rfl)
    exact view_bound hx hy hq hn owed got hn' hcard

end Meet

end Domain

end PubSub.Loopback
