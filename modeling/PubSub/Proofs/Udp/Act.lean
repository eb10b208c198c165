import PubSub.Proofs.Udp.Turn

/-!
Everything that a participant does of its own accord or for its application. For one of its
writers and one remote reader, and for one of its readers and one remote writer, it always comes
to one of the turns.
-/

namespace PubSub.Udp

/-- What an application can look at in an endpoint, or change in its status condition. -/
inductive Look where
  | take (max : Nat)
  | matched
  | incompatible
  | condition (f : StatusCondition → StatusCondition)

def Look.writer (x : Writer) : Look → Writer
  | .take _ => x
  | .matched => x.takeMatched.1
  | .incompatible => x.takeIncompatible.1
  | .condition f => { x with condition := f x.condition }

def Look.reader (y : Reader) : Look → Reader
  | .take max => (y.take max).1
  | .matched => y.takeMatched.1
  | .incompatible => y.takeIncompatible.1
  | .condition f => { y with condition := f y.condition }

inductive Act where
  | createGroup (kind : EntityKind)
  | createEndpoint (kind : EndpointKind) (g : Group) (t : Topic) (type : SampleType) (q : Qos)
  | submit (w : Guid) (s : Submission)
  | lookWriter (w : Guid) (l : Look)
  | lookReader (r : Guid) (l : Look)
  | close (g : Guid)
  | delete
  | leave
  | announce
  | expire (now : Nat)
  | retransmit

lemma Look.writer_history (l : Look) (x : Writer) : (l.writer x).history = x.history := by
  cases l <;> rfl

lemma Look.reader_writers (l : Look) (y : Reader) :
    (l.reader y).cache.writers = y.cache.writers := by
  cases l with
  | take max =>
    simp only [Look.reader, Reader.take]
    split_ifs <;> rfl
  | matched => rfl
  | incompatible => rfl
  | condition f => rfl

namespace LinkedWriter

variable {x : LinkedWriter} {y : Writer} {key : InstanceKey} {kind : ChangeKind}
  {payload : Option Json}

lemma Tidy.addChange (h : x.Tidy)
    (hy : y.history = (x.writer.history.addChange key kind payload).1) :
    Tidy { x with writer := y } := by
  refine ⟨hy ▸ h.history.addChange _ _ _, fun r => ?_⟩
  rw [hy, WriterHistory.get?_addChange, Option.map_eq_none_iff]
  exact h.addresses r

/-- What a writer makes goes to its readers, each with the number of that reader. -/
lemma Tidy.dataOf_addChange (h : x.Tidy)
    (hy : y.history = (x.writer.history.addChange key kind payload).1) (w r : Guid) :
    dataOf w r (LinkedWriter.address { x with writer := y }
        (x.writer.history.addChange key kind payload).2) =
      if x.writer.guid = w then
        ((x.writer.history.proxies.get? r).map fun p =>
          [(p.next, x.writer.history.made key kind payload)]).getD []
      else [] := by
  have haddressed := WriterHistory.addressed_addChange key kind payload h.history r
  have hguid : y.guid = x.writer.guid := (congrArg WriterHistory.guid hy).trans rfl
  rw [(h.addChange hy).dataOf_address w r fun hnone => ?_, haddressed, hguid]
  rw [hy, WriterHistory.get?_addChange, Option.map_eq_none_iff] at hnone
  rw [haddressed, hnone]
  rfl

end LinkedWriter

namespace Node

/-- Does it; what fails has no effect. -/
def perform (n : Node) : Act → Node × List Dispatch
  | .createGroup kind =>
    match n.createGroup kind with
    | .ok (n, _) => (n, [])
    | .error _ => (n, [])
  | .createEndpoint kind g t type q =>
    match n.createEndpoint kind g t type q with
    | .ok (acted, _) => acted
    | .error _ => (n, [])
  | .submit w s =>
    match n.submit w s with
    | .ok acted => acted
    | .error _ => (n, [])
  | .lookWriter w l => (n.adjustWriter w fun x => { x with writer := l.writer x.writer }, [])
  | .lookReader r l => (n.adjustReader r fun y => { y with reader := l.reader y.reader }, [])
  | .close g => n.close g
  | .delete => n.delete
  | .leave => n.leave
  | .announce => (n, if n.running then [.group n.announcement] else [])
  | .expire now => if n.running then n.expire now else (n, [])
  | .retransmit => (n, if n.running then n.retransmission else [])

variable {n : Node}

/-! ### Endpoints that stay as they are matched -/

lemma Wf.participant (h : n.Wf) {p : Participant} (hp : n.participant.next ≤ p.next) :
    Still n { n with participant := p } where
  wf := ⟨h.distinct, fun w x hx => by
      obtain ⟨h1, h2, h3⟩ := h.writer w x hx
      exact ⟨h1, h2, Nat.lt_of_lt_of_le h3 hp⟩,
    fun r y hy => Nat.lt_of_lt_of_le (h.reader r y hy) hp⟩
  proxy _ _ := rfl
  peer _ _ := rfl
  next _ := rfl

lemma Wf.remotes (h : n.Wf) (t : Table Nat Remote) : Still n { n with remotes := t } :=
  ⟨⟨h.distinct, h.writer, h.reader⟩, fun _ _ => rfl, fun _ _ => rfl, fun _ => rfl⟩

lemma get?_adjustWriter (n : Node) (w w' : Guid) (f : LinkedWriter → LinkedWriter) :
    (n.adjustWriter w f).writers.get? w' =
      if w' = w then (n.writers.get? w').map f else n.writers.get? w' :=
  Table.get?_adjust _ _ _ _

lemma get?_adjustReader (n : Node) (r r' : Guid) (f : LinkedReader → LinkedReader) :
    (n.adjustReader r f).readers.get? r' =
      if r' = r then (n.readers.get? r').map f else n.readers.get? r' :=
  Table.get?_adjust _ _ _ _

lemma Wf.adjustWriter (h : n.Wf) {w : Guid} {f : LinkedWriter → LinkedWriter}
    (hf : ∀ x, n.writers.get? w = some x → x.Tidy →
      (f x).writer.guid = x.writer.guid ∧ (f x).Tidy) : (n.adjustWriter w f).Wf := by
  refine ⟨h.distinct.adjust w f, fun w' x hx => ?_, h.reader⟩
  rw [get?_adjustWriter] at hx
  split_ifs at hx with hw
  · obtain ⟨x', hx', rfl⟩ := Option.map_eq_some_iff.mp hx
    obtain ⟨h1, h2, h3⟩ := h.writer w' x' hx'
    obtain ⟨h1', h2'⟩ := hf x' (hw ▸ hx') h2
    exact ⟨h1'.trans h1, h2', h3⟩
  · exact h.writer w' x hx

lemma Wf.adjustReader (h : n.Wf) (r : Guid) (f : LinkedReader → LinkedReader) :
    (n.adjustReader r f).Wf := by
  refine ⟨h.distinct, h.writer, fun r' y hy => ?_⟩
  rw [get?_adjustReader] at hy
  split_ifs at hy
  · obtain ⟨y', hy', -⟩ := Option.map_eq_some_iff.mp hy
    exact h.reader r' y' hy'
  · exact h.reader r' y hy

lemma Wf.still_adjustWriter (h : n.Wf) (w : Guid) {f : LinkedWriter → LinkedWriter}
    (hf : ∀ x, (f x).writer.history = x.writer.history ∧ (f x).addresses = x.addresses) :
    Still n (n.adjustWriter w f) where
  wf := h.adjustWriter fun x _ hx =>
    ⟨congrArg WriterHistory.guid (hf x).1,
      ⟨(hf x).1 ▸ hx.history, fun r => by rw [(hf x).1, (hf x).2]; exact hx.addresses r⟩⟩
  proxy w' r := by
    rw [proxy?, proxy?, get?_adjustWriter]
    split_ifs
    · cases n.writers.get? w' <;> simp [hf]
    · rfl
  peer _ _ := rfl
  next w' := by
    rw [nextOf, nextOf, get?_adjustWriter]
    split_ifs
    · cases n.writers.get? w' <;> simp [hf]
    · rfl

lemma Wf.still_adjustReader (h : n.Wf) (r : Guid) {f : LinkedReader → LinkedReader}
    (hf : ∀ y, (f y).reader.cache.writers = y.reader.cache.writers) :
    Still n (n.adjustReader r f) where
  wf := h.adjustReader r f
  proxy _ _ := rfl
  peer w r' := by
    rw [peer?, peer?, get?_adjustReader]
    split_ifs
    · cases n.readers.get? r' <;> simp [hf]
    · rfl
  next _ := rfl

lemma Wf.still_insertWriter (h : n.Wf) {g : Guid} (topic : String) (type : SampleType) (q : Qos)
    (hn : n.writers.get? g = none) (hg : g.entity < n.participant.next) :
    Still n { n with writers := n.writers.insertLast g ⟨.new g topic type q, [], []⟩ } := by
  have hget : ∀ w, Table.get? (n.writers.insertLast g ⟨.new g topic type q, [], []⟩) w =
      if w = g then some ⟨.new g topic type q, [], []⟩ else n.writers.get? w := fun w =>
    Table.get?_insertNew _ _ _ _ _ hn
  refine ⟨⟨h.distinct.insertNew _ hn _, fun w x hx => ?_, h.reader⟩, fun w r => ?_,
    fun _ _ => rfl, fun w => ?_⟩
  · rw [hget] at hx
    split_ifs at hx with hw
    · obtain rfl := Option.some.inj hx
      exact ⟨hw.symm, LinkedWriter.tidy_new g topic type q, hw ▸ hg⟩
    · exact h.writer w x hx
  · simp only [proxy?, hget]
    split_ifs with hw
    · rw [hw, hn]
      rfl
    · rfl
  · simp only [nextOf, hget]
    split_ifs with hw
    · rw [hw, hn]
      rfl
    · rfl

lemma Wf.still_insertReader (h : n.Wf) {g : Guid} (topic : String) (type : SampleType) (q : Qos)
    (hn : n.readers.get? g = none) (hg : g.entity < n.participant.next) :
    Still n { n with readers := n.readers.insertLast g ⟨.new g topic type q, []⟩ } := by
  have hget : ∀ r, Table.get? (n.readers.insertLast g ⟨.new g topic type q, []⟩) r =
      if r = g then some ⟨.new g topic type q, []⟩ else n.readers.get? r := fun r =>
    Table.get?_insertNew _ _ _ _ _ hn
  refine ⟨⟨h.distinct, h.writer, fun r y hy => ?_⟩, fun _ _ => rfl, fun w r => ?_, fun _ => rfl⟩
  · rw [hget] at hy
    split_ifs at hy with hr
    · exact hr ▸ hg
    · exact h.reader r y hy
  · simp only [peer?, hget]
    split_ifs with hr
    · rw [hr, hn]
      rfl
    · rfl

/-! ### Discovery -/

lemma turned_hearAnnouncement (h : n.Wf) (now p : Nat) (a : Address) (lease : Span)
    (es : List Announcement) :
    Turned n (n.hearAnnouncement now p a lease es).1 (n.hearAnnouncement now p a lease es).2 := by
  have hstill := h.remotes (n.remotes.put (· < ·) p ⟨a, now, lease, es⟩)
  unfold hearAnnouncement
  simp only
  split_ifs
  · exact hstill.turned silent_nil
  · exact hstill.andTurned (turned_reconcile hstill.wf)

lemma turned_hear (h : n.Wf) (now host : Nat) (m : Message) :
    Turned n (n.hear now host m).1 (n.hear now host m).2 := by
  unfold hear
  split_ifs
  · exact h.still.turned silent_nil
  · cases m with
    | announce p domain name port lease es =>
      simp only
      split_ifs
      · exact turned_hearAnnouncement h now p ⟨host, port⟩ _ es
      · exact h.still.turned silent_nil
    | bye p =>
      have hstill := h.remotes (n.remotes.erase p)
      exact hstill.andTurned (turned_reconcile hstill.wf)
    | data w r number c => exact h.still.turned silent_nil
    | ackNack r w acked => exact h.still.turned silent_nil

lemma turned_expire (h : n.Wf) (now : Nat) : Turned n (n.expire now).1 (n.expire now).2 := by
  unfold expire
  split_ifs
  · have hstill := h.remotes (n.remotes.filter fun e => !expired now e.2)
    exact hstill.andTurned (turned_reconcile hstill.wf)
  · exact h.still.turned silent_nil

/-! ### Entities -/

lemma turned_addWriter (h : n.Wf) {g : Guid} (topic : String) (type : SampleType) (q : Qos)
    (hn : n.writers.get? g = none) (hg : g.entity < n.participant.next) :
    Turned n (n.addWriter (.new g topic type q)).1 (n.addWriter (.new g topic type q)).2 := by
  have hstill := h.still_insertWriter topic type q hn hg
  exact (hstill.andTurned (turned_reconcile hstill.wf)).append (silent_group _)

lemma turned_addReader (h : n.Wf) {g : Guid} (topic : String) (type : SampleType) (q : Qos)
    (hn : n.readers.get? g = none) (hg : g.entity < n.participant.next) :
    Turned n (n.addReader (.new g topic type q)).1 (n.addReader (.new g topic type q)).2 := by
  have hstill := h.still_insertReader topic type q hn hg
  exact (hstill.andTurned (turned_reconcile hstill.wf)).append (silent_group _)

/-- A participant gives each new endpoint the next number. -/
lemma createEndpoint_ok {p p' : Participant} {kind : EndpointKind} {g : Group} {t : Topic}
    {type : SampleType} {q : Qos} {guid : Guid}
    (h : p.createEndpoint kind g t type q = .ok (p', guid)) :
    p' = { p with next := p.next + 1 } ∧ guid = ⟨p.id, p.next⟩ := by
  obtain ⟨-, -, h⟩ := bind_ok h
  split_ifs at h
  · simp [throw, throwThe, MonadExceptOf.throw, bind, Except.bind] at h
  · obtain ⟨-, -, h⟩ := bind_ok h
    obtain ⟨-, -, h⟩ := bind_ok h
    obtain ⟨rfl, rfl⟩ := Prod.mk.inj (Except.ok.inj h)
    exact ⟨rfl, rfl⟩

lemma Wf.fresh_writer (h : n.Wf) :
    n.writers.get? ⟨n.participant.id, n.participant.next⟩ = none := by
  by_contra hsome
  obtain ⟨x, hx⟩ := Option.ne_none_iff_exists'.mp hsome
  exact Nat.lt_irrefl _ (h.writer _ x hx).2.2

lemma Wf.fresh_reader (h : n.Wf) :
    n.readers.get? ⟨n.participant.id, n.participant.next⟩ = none := by
  by_contra hsome
  obtain ⟨y, hy⟩ := Option.ne_none_iff_exists'.mp hsome
  exact Nat.lt_irrefl _ (h.reader _ y hy)

lemma turned_createEndpoint (h : n.Wf) {kind : EndpointKind} {g : Group} {t : Topic}
    {type : SampleType} {q : Qos} {acted : Node × List Dispatch} {guid : Guid}
    (hok : n.createEndpoint kind g t type q = .ok (acted, guid)) : Turned n acted.1 acted.2 := by
  obtain ⟨⟨p', guid'⟩, hp, hok⟩ := bind_ok hok
  obtain ⟨rfl, rfl⟩ := createEndpoint_ok hp
  have hstill := h.participant (p := { n.participant with next := n.participant.next + 1 })
    (Nat.le_succ _)
  cases kind with
  | writer =>
    obtain ⟨rfl, -⟩ := Prod.mk.inj (Except.ok.inj hok)
    exact hstill.andTurned
      (turned_addWriter hstill.wf t.name type q h.fresh_writer (Nat.lt_succ_self _))
  | reader =>
    obtain ⟨rfl, -⟩ := Prod.mk.inj (Except.ok.inj hok)
    exact hstill.andTurned
      (turned_addReader hstill.wf t.name type q h.fresh_reader (Nat.lt_succ_self _))

lemma still_close (h : n.Wf) (g : Guid) : Still n (n.close g).1 ∧ Silent (n.close g).2 := by
  unfold close
  split_ifs
  · have hwriter := h.still_adjustWriter g
      (f := fun x => { x with writer := { x.writer with isOpen := false } }) fun _ => ⟨rfl, rfl⟩
    have hreader := hwriter.wf.still_adjustReader g
      (f := fun y => { y with reader := { y.reader with isOpen := false } }) fun _ => rfl
    exact ⟨hwriter.trans hreader, silent_nil.append (silent_group _)⟩
  · exact ⟨h.still, silent_nil⟩

lemma still_foldl_close (h : n.Wf) (gs : List Guid) {out : List Dispatch} (hs : Silent out) :
    let s := gs.foldl (fun (s : Node × List Dispatch) g =>
      ((s.1.close g).1, s.2 ++ (s.1.close g).2)) (n, out)
    Still n s.1 ∧ Silent s.2 := by
  induction gs generalizing n out with
  | nil => exact ⟨h.still, hs⟩
  | cons g gs ih =>
    obtain ⟨hstill, hs'⟩ := still_close h g
    obtain ⟨hstill', hs''⟩ := ih hstill.wf (hs.append hs')
    exact ⟨hstill.trans hstill', hs''⟩

lemma still_delete (h : n.Wf) : Still n n.delete.1 ∧ Silent n.delete.2 := by
  have hstill := h.participant (p := { n.participant with deleted := true }) (Nat.le_refl _)
  obtain ⟨hstill', hs⟩ := still_foldl_close hstill.wf (n.writers.keys ++ n.readers.keys) silent_nil
  exact ⟨hstill.trans hstill', hs⟩

lemma still_leave (h : n.Wf) : Still n n.leave.1 ∧ Silent n.leave.2 := by
  unfold leave
  split_ifs
  · obtain ⟨hstill, hs⟩ := still_delete h
    exact ⟨hstill.trans (hstill.wf.participant (p := { n.delete.1.participant with left := true })
      (Nat.le_refl _)), hs.append (silent_group _)⟩
  · exact ⟨h.still, silent_nil⟩

lemma turned_createGroup (h : n.Wf) {kind : EntityKind} {n' : Node} {g : Group}
    (hok : n.createGroup kind = .ok (n', g)) : Turned n n' [] := by
  obtain ⟨⟨p', g'⟩, hp, hok⟩ := bind_ok hok
  obtain ⟨-, -, hp⟩ := bind_ok hp
  obtain ⟨rfl, -⟩ := Prod.mk.inj (Except.ok.inj hp)
  obtain ⟨rfl, -⟩ := Prod.mk.inj (Except.ok.inj hok)
  exact (h.participant (Nat.le_succ _)).turned silent_nil

/-! ### Changes -/

lemma notePending_isOpen (x : Writer) : x.notePending.isOpen = x.isOpen := by
  unfold Writer.notePending
  split_ifs <;> rfl

lemma get?_of_submit {w : Guid} {s : Submission} {acted : Node × List Dispatch}
    (h : n.submit w s = .ok acted) : ∃ x, n.writers.get? w = some x := by
  by_contra hnone
  have hx : n.writers.get? w = none := Option.eq_none_iff_forall_ne_some.mpr (by simpa using hnone)
  cases s <;>
    simp [submit, write, dispose, openWriter, hx, bind, Except.bind, Except.map] at h

section Ship

variable {w : Guid} {x : LinkedWriter} {y : Writer} {key : InstanceKey} {kind : ChangeKind}
  {payload : Option Json}

lemma get?_ship (hx : n.writers.get? w = some x) (hy : y.guid = w) (out : List Outgoing)
    (w' : Guid) :
    (n.ship x y out).1.writers.get? w' =
      if w' = w then some { x with writer := y } else n.writers.get? w' := by
  refine (get?_adjustWriter _ _ _ _).trans ?_
  rw [hy]
  split_ifs with hw
  · rw [hw, hx]
    rfl
  · rfl

lemma nextOf_ship (hx : n.writers.get? w = some x) (hguid : x.writer.guid = w)
    (hy : y.history = (x.writer.history.addChange key kind payload).1) (out : List Outgoing)
    (w' : Guid) :
    (n.ship x y out).1.nextOf w' = if w' = w then n.nextOf w + 1 else n.nextOf w' := by
  have hguid' : y.guid = w := (congrArg WriterHistory.guid hy).trans hguid
  rw [nextOf, get?_ship hx hguid']
  split_ifs
  · simp [nextOf, hx, hy, WriterHistory.addChange]
  · rfl

/-- The readers of the writer see the change, and nobody else sees anything. -/
lemma writerTurn_ship (h : n.Wf) (hx : n.writers.get? w = some x)
    (hy : y.history = (x.writer.history.addChange key kind payload).1) (w' r : Guid) :
    WriterTurn w' r n (n.ship x y (x.writer.history.addChange key kind payload).2).1
      (n.ship x y (x.writer.history.addChange key kind payload).2).2 := by
  obtain ⟨hguid, htidy, -⟩ := h.writer w x hx
  have hguid' : y.guid = w := (congrArg WriterHistory.guid hy).trans hguid
  have hdata := htidy.dataOf_addChange hy w' r
  have hget := get?_ship hx hguid' (x.writer.history.addChange key kind payload).2 w'
  by_cases hw : w' = w
  · subst hw
    rw [if_pos rfl] at hget
    have hproxy : n.proxy? w' r = x.writer.history.proxies.get? r := by simp [proxy?, hx]
    have hnext := nextOf_ship hx hguid hy (x.writer.history.addChange key kind payload).2 w'
    rw [if_pos rfl] at hnext
    refine .wrote (x.writer.history.made key kind payload) ?_ (by omega) ?_ ?_
    · simp [nextOf, hx, WriterHistory.made]
    · rw [hproxy, ← WriterHistory.get?_addChange, ← hy, proxy?, hget]
      rfl
    · rw [hproxy]
      exact hdata.trans (if_pos hguid)
  · rw [if_neg hw] at hget
    refine .rest ?_ (hdata.trans (if_neg fun hw' => hw (hw'.symm.trans hguid)))
    rw [proxy?, hget]
    rfl

lemma turned_ship (h : n.Wf) (hx : n.writers.get? w = some x)
    (hy : y.history = (x.writer.history.addChange key kind payload).1) :
    Turned n (n.ship x y (x.writer.history.addChange key kind payload).2).1
      (n.ship x y (x.writer.history.addChange key kind payload).2).2 := by
  obtain ⟨hguid, htidy, -⟩ := h.writer w x hx
  have hguid' : y.guid = w := (congrArg WriterHistory.guid hy).trans hguid
  refine ⟨?_, fun w' r => writerTurn_ship h hx hy w' r, fun _ _ => .rest rfl, fun w' => ?_,
    fun w' r => LinkedWriter.acksOf_address _ _ _ _⟩
  · refine h.adjustWriter fun x' hx' _ => ?_
    obtain rfl : x' = x := Option.some.inj (hx'.symm.trans (hguid' ▸ hx))
    exact ⟨hguid'.trans hguid.symm, htidy.addChange hy⟩
  · rw [nextOf_ship hx hguid hy]
    split_ifs with hw
    · rw [hw]
      exact Nat.le_succ _
    · exact Nat.le_refl _

end Ship

/-- A writer can always make a change, which goes to each of its readers. -/
lemma WritesTo.dispose {w r : Guid} {p : ReaderProxy} (h : n.WritesTo w r p) (hwf : n.Wf)
    (v : Value) :
    ∃ c, c.sequence = n.nextOf w ∧
      (n.perform (.submit w (.disposal v 0))).1.WritesTo w r (p.enqueue c) ∧
      dataOf w r (n.perform (.submit w (.disposal v 0))).2 = [(p.next, c)] := by
  obtain ⟨hrun, x, hx, ho, hp⟩ := h
  obtain ⟨hguid, htidy, -⟩ := hwf.writer w x hx
  refine ⟨x.writer.history.made v.key .disposed none, by simp [nextOf, hx, WriterHistory.made], ?_⟩
  simp only [perform, submit_disposal hx ho]
  generalize hy : ({ x.writer with
    history := (x.writer.history.addChange v.key .disposed none).1 } : Writer).notePending = y
  have hhistory : y.history = (x.writer.history.addChange v.key .disposed none).1 := by
    rw [← hy, notePending_history]
  have hopen : y.isOpen = true := by
    rw [← hy, notePending_isOpen]
    exact ho
  have hguid' : y.guid = w := (congrArg WriterHistory.guid hhistory).trans hguid
  refine ⟨⟨hrun, { x with writer := y }, ?_, hopen, ?_⟩, ?_⟩
  · exact (get?_ship hx hguid' _ w).trans (if_pos rfl)
  · rw [hhistory, WriterHistory.get?_addChange, hp]
    rfl
  · refine (htidy.dataOf_addChange hhistory w r).trans ?_
    rw [if_pos hguid, hp]
    rfl

lemma turned_submit (h : n.Wf) {w : Guid} {s : Submission} {acted : Node × List Dispatch}
    (hok : n.submit w s = .ok acted) : Turned n acted.1 acted.2 := by
  obtain ⟨x, hx⟩ := get?_of_submit hok
  obtain ⟨-, y, hy, rfl⟩ := submit_ok hok hx
  exact turned_ship h hx hy

lemma turned_retransmission (h : n.Wf) : Turned n n n.retransmission := by
  refine ⟨h, fun w r => ?_, fun _ _ => .rest rfl, fun _ => Nat.le_refl _, fun w r => ?_⟩
  · have hdata : dataOf w r n.retransmission =
        ((n.writers.get? w).map fun x =>
          if x.writer.isOpen then addressed r x.writer.history.pending else []).getD [] := by
      refine dataOf_openWriters h w r _ (fun x => addressed r x.writer.history.pending)
        fun w' x hx => ?_
      obtain ⟨-, htidy, -⟩ := h.writer w' x hx
      refine htidy.dataOf_address w r fun hnone => ?_
      rw [WriterHistory.addressed_pending htidy.history, hnone]
      rfl
    cases hx : n.writers.get? w with
    | none =>
      rw [hx] at hdata
      exact .rest rfl hdata
    | some x =>
      obtain ⟨-, htidy, -⟩ := h.writer w x hx
      simp only [hx, Option.map_some, Option.getD_some] at hdata
      split_ifs at hdata
      · refine .resent rfl ?_
        rw [hdata, WriterHistory.addressed_pending htidy.history]
        simp [proxy?, hx]
      · exact .rest rfl hdata
  · exact acksOf_openWriters n w r fun x => (x, x.writer.history.pending)

/-! ### Whatever a participant does -/

/-- **Whatever a participant does of its own accord or for its application, no writer and no
reader of it sees anything but one of the turns.** -/
theorem turned_perform (h : n.Wf) (a : Act) : Turned n (n.perform a).1 (n.perform a).2 := by
  cases a with
  | createGroup kind =>
    simp only [perform]
    split
    · next hok => exact turned_createGroup h hok
    · exact h.still.turned silent_nil
  | createEndpoint kind g t type q =>
    simp only [perform]
    split
    · next hok => exact turned_createEndpoint h hok
    · exact h.still.turned silent_nil
  | submit w s =>
    simp only [perform]
    split
    · next hok => exact turned_submit h hok
    · exact h.still.turned silent_nil
  | lookWriter w l =>
    -- a look leaves the histories as they are
    have hstill := h.still_adjustWriter w (f := fun x => { x with writer := l.writer x.writer })
      fun x => ⟨l.writer_history x.writer, rfl⟩
    exact hstill.turned silent_nil
  | lookReader r l =>
    have hstill := h.still_adjustReader r (f := fun y => { y with reader := l.reader y.reader })
      fun y => l.reader_writers y.reader
    exact hstill.turned silent_nil
  | close g => exact (still_close h g).1.turned (still_close h g).2
  | delete => exact (still_delete h).1.turned (still_delete h).2
  | leave => exact (still_leave h).1.turned (still_leave h).2
  | announce =>
    -- everybody is told, which is neither a change nor an acknowledgment
    refine h.still.turned ?_
    simp only [perform]
    split_ifs
    · exact silent_group _
    · exact silent_nil
  | expire now =>
    simp only [perform]
    split_ifs
    · exact turned_expire h now
    · exact h.still.turned silent_nil
  | retransmit =>
    simp only [perform]
    split_ifs
    · exact turned_retransmission h
    · exact h.still.turned silent_nil

end Node

end PubSub.Udp
