import PubSub.Proofs.Loopback.Duet.Entrance

/-!
How a duet gets on while both of its sides stay: changes are made and submitted, they arrive and
are acknowledged, and samples are taken.
-/

namespace PubSub.Loopback.Duet

variable {s : Scenario} {σ : Duet} {d : Domain} {a : Option Domain.Receipt} {c : Change}

namespace Orderly

variable {total : Nat}

/-- The reader stays until it has got everything. -/
lemma reader_staying (h : σ.Orderly total) (hlt : σ.got < total) :
    σ.reader.presence.ending = false := by
  have hread := h.read
  by_contra hend
  have := h.finished (Bool.not_eq_false _ ▸ hend)
  omega

/-- Nobody goes while there is something that has not arrived. -/
lemma not_ending (h : σ.Orderly total) (hlt : σ.got < σ.made) :
    σ.reader.presence.ending = false ∧ σ.writer.presence.ending = false := by
  have hreader := h.reader_staying (Nat.lt_of_lt_of_le hlt h.made)
  have hacked := h.acked
  refine ⟨hreader, ?_⟩
  by_contra hend
  rcases (h.written (Bool.not_eq_false _ ▸ hend)).2 with hgone | hall
  · rw [hreader] at hgone
    cases hgone
  · omega

end Orderly

lemma active_of_created {p : Presence} (hc : p.created = true) (he : p.ending = false) :
    p = .active := by
  rcases not_created_or_active he with h | h
  · exact absurd hc (ne_true_of_eq_false h)
  · exact h

lemma ending_eq_false {p : Presence} (h : p = .active) : p.ending = false := by
  rw [h]
  rfl

lemma created_of_active {p : Presence} (h : p = .active) : p.created = true := by
  rw [h]
  rfl

/-! ### What is done to one endpoint -/

/-- Something happens to the writer by which the duet gets on. -/
lemma Fits.reviseWriter (h : Fits s σ d a) {σ' : Duet} {a' : Option Domain.Receipt}
    {m n g b t : Nat} (hσ' : σ' = ⟨σ.registry, σ.domain, σ.writer, σ.reader, m, n, g, b, t⟩)
    (order : σ'.Orderly s.changes.length) {f : Writer → Writer}
    (hf : ∀ x, d.writers = [(σ.writer.guid, x)] → σ.WriterFits s x → σ'.WriterFits s (f x))
    (hreader : ∀ y, σ.ReaderFits s y → σ'.ReaderFits s y)
    (jobs : σ.reader.presence.ending = false → d.queue.map (fun j => (j.writer, j.out)) =
      (((numbered 1 s.changes).take n).drop g).map fun e =>
        (σ.writer.guid, ⟨σ.reader.guid, e.1, e.2⟩))
    (receipt : σ.reader.presence.ending = false →
      match a' with
      | none => b = g
      | some a => a = ⟨σ.writer.guid, σ.reader.guid, g⟩ ∧ b + 1 = g) :
    Fits s σ' (d.adjustWriter σ.writer.guid f) a' := by
  subst hσ'
  refine { h with order, jobs, receipt, noWriter := fun hw => ?_, writer := fun hw => ?_,
                  reader := fun hr => ?_ }
  · rw [Domain.adjustWriter, h.noWriter hw]
    rfl
  · obtain ⟨x, hx, hfits⟩ := h.writer hw
    refine ⟨f x, ?_, hf x hx hfits⟩
    simp [Domain.adjustWriter, Table.adjust, hx]
  · obtain ⟨y, hy, hfits⟩ := h.reader hr
    exact ⟨y, hy, hreader y hfits⟩

/-- Something happens to the reader by which the duet gets on. -/
lemma Fits.reviseReader (h : Fits s σ d a) {σ' : Duet} {q : List Job}
    {a' : Option Domain.Receipt} {m n g b t : Nat}
    (hσ' : σ' = ⟨σ.registry, σ.domain, σ.writer, σ.reader, m, n, g, b, t⟩)
    (order : σ'.Orderly s.changes.length) {f : Reader → Reader}
    (hf : ∀ y, d.readers = [(σ.reader.guid, y)] → σ.ReaderFits s y → σ'.ReaderFits s (f y))
    (hwriter : ∀ x, σ.WriterFits s x → σ'.WriterFits s x)
    (jobs : σ.reader.presence.ending = false → q.map (fun j => (j.writer, j.out)) =
      (((numbered 1 s.changes).take n).drop g).map fun e =>
        (σ.writer.guid, ⟨σ.reader.guid, e.1, e.2⟩))
    (receipt : σ.reader.presence.ending = false →
      match a' with
      | none => b = g
      | some a => a = ⟨σ.writer.guid, σ.reader.guid, g⟩ ∧ b + 1 = g) :
    Fits s σ' ({ d with queue := q }.adjustReader σ.reader.guid f) a' := by
  subst hσ'
  refine { h with order, jobs, receipt, noReader := fun hr => ?_, writer := fun hw => ?_,
                  reader := fun hr => ?_ }
  · rw [Domain.adjustReader, h.noReader hr]
    rfl
  · obtain ⟨x, hx, hfits⟩ := h.writer hw
    exact ⟨x, hx, hwriter x hfits⟩
  · obtain ⟨y, hy, hfits⟩ := h.reader hr
    refine ⟨f y, ?_, hf y hy hfits⟩
    simp [Domain.adjustReader, Table.adjust, hy]

lemma Fits.adjustWriter (h : Fits s σ d a) (w : Guid) {f : Writer → Writer}
    (hf : ∀ x, σ.WriterFits s x → σ.WriterFits s (f x)) : Fits s σ (d.adjustWriter w f) a := by
  by_cases hw : w = σ.writer.guid
  · subst hw
    exact h.reviseWriter rfl h.order (fun x _ => hf x) (fun _ h => h) h.jobs h.receipt
  · have hsame : d.adjustWriter w f = d := by
      rw [Domain.adjustWriter]
      cases hc : σ.writer.presence.created with
      | false => rw [h.noWriter hc, Table.adjust, List.map_nil, ← h.noWriter hc]
      | true =>
        obtain ⟨x, hx, -⟩ := h.writer hc
        rw [hx, Table.adjust, List.map_singleton, if_neg (Ne.symm hw), ← hx]
    rwa [hsame]

lemma Fits.adjustReader (h : Fits s σ d a) (r : Guid) {f : Reader → Reader}
    (hf : ∀ y, σ.ReaderFits s y → σ.ReaderFits s (f y)) : Fits s σ (d.adjustReader r f) a := by
  by_cases hr : r = σ.reader.guid
  · subst hr
    exact h.reviseReader (q := d.queue) rfl h.order (fun y _ => hf y) (fun _ h => h) h.jobs
      h.receipt
  · have hsame : d.adjustReader r f = d := by
      rw [Domain.adjustReader]
      cases hc : σ.reader.presence.created with
      | false => rw [h.noReader hc, Table.adjust, List.map_nil, ← h.noReader hc]
      | true =>
        obtain ⟨y, hy, -⟩ := h.reader hc
        rw [hy, Table.adjust, List.map_singleton, if_neg (Ne.symm hr), ← hy]
    rwa [hsame]

/-! ### Changes on their way -/

lemma Fits.openWriter (h : Fits s σ d a) (hw : σ.writer.presence = .active) :
    ∃ x, d.writers = [(σ.writer.guid, x)] ∧ d.openWriter σ.writer.guid = .ok x ∧
      σ.WriterFits s x := by
  obtain ⟨x, hx, hfits⟩ := h.writer (created_of_active hw)
  refine ⟨x, hx, ?_, hfits⟩
  have hget : d.writers.get? σ.writer.guid = some x := by rw [hx, Table.get?_cons, if_pos rfl]
  have hopen : x.isOpen = true := by rw [hfits.isOpen, hw]; rfl
  rw [Domain.openWriter, hget]
  simp [Writer.checkOpen, hopen]

/-- The writer makes its next change, for the reader. -/
lemma Fits.make (h : Fits s σ d a) (hw : σ.writer.presence = .active)
    (hr : σ.reader.presence = .active) (hc : s.changes[σ.made]? = some c) {x : Writer}
    (hx : d.writers = [(σ.writer.guid, x)]) :
    Fits s { σ with made := σ.made + 1 }
      (d.adjustWriter σ.writer.guid fun _ => Writer.notePending
        { x with history := (x.history.addChange c.key c.kind c.payload).1 }) a := by
  have hlt : σ.made < s.changes.length := (List.getElem?_eq_some_iff.mp hc).1
  obtain ⟨k, hk⟩ := notePending_eq
    { x with history := (x.history.addChange c.key c.kind c.payload).1 }
  rw [hk]
  refine h.reviseWriter rfl ?_ (fun x₁ hx₁ hfits => ?_) (fun _ hy => hy.progress _ _ _) h.jobs
    h.receipt
  · exact { h.order with
      sent := Nat.le_succ_of_le h.order.sent
      made := hlt
      begun := fun _ => ⟨created_of_active hw, created_of_active hr⟩
      written := fun hend => absurd hend (ne_true_of_eq_false (ending_eq_false hw)) }
  · rw [hx] at hx₁
    cases hx₁
    exact hfits.update rfl rfl rfl (Nat.le_refl _) fun _ hhist => hhist.addChange hc

lemma Fits.append (h : Fits s σ d a) (hw : σ.writer.presence = .active)
    (hr : σ.reader.presence = .active) (hmade : σ.made = 0) :
    ∃ d' c, d.append σ.writer.guid s.sample = .ok (d', [⟨σ.reader.guid, σ.made + 1, c⟩]) ∧
      s.changes[σ.made]? = some c ∧ Fits s { σ with made := σ.made + 1 } d' a := by
  obtain ⟨x, hx, hopen, hfits⟩ := h.openWriter hw
  have hc : s.changes[σ.made]? = some ⟨1, s.sample.key, .alive, some s.sample.payload⟩ := by
    rw [hmade]
    exact changes_zero
  have hout := (hfits.history hw).addressed hr hc
  refine ⟨d.adjustWriter σ.writer.guid fun _ => (x.write s.sample).1, _, ?_, hc,
    h.make hw hr hc hx⟩
  rw [← hout, Domain.append, hopen]
  rfl

lemma Fits.appendDisposal (h : Fits s σ d a) (hw : σ.writer.presence = .active)
    (hr : σ.reader.presence = .active) (hmade : σ.made = 1) (hv : s.variant = .dispose) :
    ∃ d' c, d.appendDisposal σ.writer.guid s.sample s.sample.key.handle =
        .ok (d', [⟨σ.reader.guid, σ.made + 1, c⟩]) ∧
      s.changes[σ.made]? = some c ∧ Fits s { σ with made := σ.made + 1 } d' a := by
  obtain ⟨x, hx, hopen, hfits⟩ := h.openWriter hw
  have hc : s.changes[σ.made]? = some ⟨2, s.sample.key, .disposed, none⟩ := by
    rw [hmade, Scenario.changes, hv]
    rfl
  have hout := (hfits.history hw).addressed hr hc
  refine ⟨d.adjustWriter σ.writer.guid fun _ => Writer.notePending
      { x with history := (x.history.addChange s.sample.key .disposed none).1 }, _, ?_, hc,
    h.make hw hr hc hx⟩
  rw [← hout, Domain.appendDisposal, hopen]
  change (Writer.dispose x s.sample s.sample.key.handle >>= _) = _
  rw [Writer.dispose, WriterHistory.dispose, if_neg (fun h => h.2 rfl)]
  rfl

lemma Fits.submit (h : Fits s σ d a) (hw : σ.writer.presence = .active)
    (hr : σ.reader.presence = .active) (hmade : σ.sent + 1 = σ.made)
    (hc : s.changes[σ.sent]? = some c) :
    Fits s { σ with sent := σ.sent + 1 }
      (d.submit σ.writer.guid [⟨σ.reader.guid, σ.sent + 1, c⟩]) a := by
  obtain ⟨x, hx, hfits⟩ := h.writer (created_of_active hw)
  have hget : d.writers.get? σ.writer.guid = some x := by rw [hx, Table.get?_cons, if_pos rfl]
  have hmatched : x.history.isMatched σ.reader.guid = true := by
    have hproxies := (hfits.history hw).proxies
    unfold ProxiesFit at hproxies
    rw [hr] at hproxies
    obtain ⟨p, hlist, -⟩ := hproxies
    simp [WriterHistory.isMatched, hlist, Table.has, Table.get?]
  have hnext : (numbered 1 s.changes)[σ.sent]? = some (σ.sent + 1, c) := by
    rw [getElem?_numbered, hc, Nat.add_comm 1]
    rfl
  rw [Domain.submit, hget]
  simp only [List.filter_cons, hmatched, if_true, List.filter_nil, List.map_cons, List.map_nil]
  refine { h with order := ?_, writer := fun hcreated => ?_, reader := fun hcreated => ?_,
                  jobs := fun hend => ?_ }
  · exact { h.order with
      got := Nat.le_succ_of_le h.order.got
      sent := Nat.le_of_eq hmade }
  · obtain ⟨x, hx, hfits⟩ := h.writer hcreated
    exact ⟨x, hx, hfits.progress _ _ _⟩
  · obtain ⟨y, hy, hfits⟩ := h.reader hcreated
    exact ⟨y, hy, hfits.progress _ _ _⟩
  · rw [List.map_append, h.jobs hend, window_snoc hnext h.order.got, List.map_append]
    rfl

/-- A change arrives at the reader. -/
lemma Fits.store (h : Fits s σ d none) (hr : σ.reader.presence.ending = false)
    (hq : s.qos.history ≠ .keepLast 0) {j : Job} {rest : List Job} (hqueue : d.queue = j :: rest) :
    ∃ d' n, ({ d with queue := rest } : Domain).store j = (d', some n) ∧
      Fits s { σ with got := σ.got + 1 } d' (some n) := by
  have hacked : σ.acked = σ.got := h.receipt hr
  have hjobs := h.jobs hr
  rw [hqueue, List.map_cons] at hjobs
  -- the first job carries the change that the reader expects
  obtain ⟨e, es, hwindow, hj, hrest⟩ := List.map_eq_cons_iff.mp hjobs.symm
  obtain ⟨hlt, he, rfl⟩ := window_cons hwindow
  rw [getElem?_numbered, Nat.add_comm 1] at he
  obtain ⟨c, hc, rfl⟩ := Option.map_eq_some_iff.mp he
  obtain ⟨due, w, o⟩ := j
  obtain ⟨rfl, rfl⟩ := Prod.mk.inj hj
  have hmade := h.order.sent
  -- something is sent, so both endpoints are there
  obtain ⟨hwriter, hcreated⟩ := h.order.begun (by omega)
  have hactive := active_of_created hcreated hr
  have hwactive := active_of_created hwriter (h.order.not_ending (by omega)).2
  obtain ⟨y, hy, hfits⟩ := h.reader hcreated
  have hget : d.readers.get? σ.reader.guid = some y := by rw [hy, Table.get?_cons, if_pos rfl]
  obtain ⟨hanswer, hreceived⟩ :=
    hfits.receive hactive (by rw [hwactive]; rfl) hq hc h.order.read
  refine ⟨{ d with queue := rest }.adjustReader σ.reader.guid
      fun _ => (y.receive σ.writer.guid (σ.got + 1) c).1,
    ⟨σ.writer.guid, σ.reader.guid, σ.got + 1⟩, ?_, ?_⟩
  · rw [Domain.store]
    simp only [hget, hanswer]
    rfl
  · refine h.reviseReader rfl ?_ (fun y₁ hy₁ _ => ?_) (fun _ hx => hx.progress _ _ _)
      (fun _ => hrest.symm)
      fun _ => ⟨rfl, congrArg (· + 1) hacked⟩
    · exact { h.order with
        acked := Nat.le_succ_of_le h.order.acked
        got := hlt
        read := Nat.le_succ_of_le h.order.read }
    · rw [hy] at hy₁
      cases hy₁
      exact hreceived

/-- Nothing arrives at a reader that has been closed. -/
lemma Fits.store_late (h : Fits s σ d a) (hr : σ.reader.presence.ending = true) (j : Job)
    (rest : List Job) : ∃ d', ({ d with queue := rest } : Domain).store j = (d', none) ∧
      Fits s σ d' none := by
  have hcreated : σ.reader.presence.created = true := by
    cases hp : σ.reader.presence <;> simp_all [Presence.ending, Presence.created]
  obtain ⟨y, hy, hfits⟩ := h.reader hcreated
  have hclosed : y.isOpen = false := by
    rw [hfits.isOpen]
    exact decide_eq_false fun hactive => ne_true_of_eq_false (ending_eq_false hactive) hr
  have hget : d.readers.get? j.out.reader =
      if σ.reader.guid = j.out.reader then some y else none := by
    rw [hy]
    rfl
  by_cases hj : σ.reader.guid = j.out.reader
  · rw [if_pos hj] at hget
    refine ⟨{ d with queue := rest }.adjustReader j.out.reader fun _ => y, ?_, ?_⟩
    · simp only [Domain.store, hget, receive_of_closed hclosed]
      rfl
    · rw [← hj]
      refine h.reviseReader rfl h.order (fun y₁ hy₁ hfits₁ => ?_) (fun _ hx => hx)
        (fun hend => absurd hr (ne_true_of_eq_false hend))
        fun hend => absurd hr (ne_true_of_eq_false hend)
      rw [hy] at hy₁
      cases hy₁
      exact hfits₁
  · rw [if_neg hj] at hget
    refine ⟨{ d with queue := rest }, by simp only [Domain.store, hget], { h with
      jobs := fun hend => absurd hr (ne_true_of_eq_false hend)
      receipt := fun hend => absurd hr (ne_true_of_eq_false hend) }⟩

lemma acknowledge_matched (x : Writer) (r : Guid) (n : Nat) :
    (x.acknowledge r n).matched.current = x.matched.current := by
  simp only [Writer.acknowledge]
  split_ifs <;> rfl

/-- The acknowledgment of what the reader has got arrives at the writer. -/
lemma Fits.confirm {n : Domain.Receipt} (h : Fits s σ d (some n))
    (hr : σ.reader.presence.ending = false) :
    Fits s { σ with acked := σ.got } (d.confirm n) none := by
  obtain ⟨rfl, hacked⟩ := h.receipt hr
  have hsent := h.order.sent
  have hgot := h.order.got
  obtain ⟨-, hcreated⟩ := h.order.begun (by omega)
  have hactive := active_of_created hcreated hr
  refine h.reviseWriter rfl ?_ (fun x _ hx => ?_) (fun _ hy => hy.progress _ _ _) h.jobs
    fun _ => rfl
  · exact { h.order with
      acked := Nat.le_refl _
      written := fun hend => by
        obtain ⟨hall, hgone | hacked'⟩ := h.order.written hend
        · exact absurd hgone (ne_true_of_eq_false hr)
        · exact ⟨hall, .inr (by change σ.got = σ.made; omega)⟩ }
  · refine hx.update rfl rfl (ofWriter_acknowledge x _ _)
      (acknowledge_matched x _ _).le fun _ hh => ?_
    rw [acknowledge_history]
    exact hh.acknowledge h.order.acked (Nat.le_trans hgot hsent) h.order.made hactive

/-- What a reader that has been closed had acknowledged does not matter. -/
lemma Fits.confirm_late {n : Domain.Receipt} (h : Fits s σ d a)
    (hr : σ.reader.presence.ending = true) : Fits s σ (d.confirm n) none := by
  have hlate : Fits s σ d none :=
    { h with receipt := fun hend => absurd hr (ne_true_of_eq_false hend) }
  refine hlate.adjustWriter n.writer fun x hx => ?_
  refine hx.update rfl rfl (ofWriter_acknowledge x _ _)
      (acknowledge_matched x _ _).le fun _ hh => ?_
  rw [acknowledge_history]
  refine hh.acknowledge_late (fun hactive => ?_) _ _
  exact ne_true_of_eq_false (ending_eq_false hactive) hr

/-! ### What has arrived -/

lemma Fits.take (h : Fits s σ d a) (hr : σ.reader.presence = .active) (hs : s.sample.InRange)
    (hlt : σ.read < σ.got) :
    ∃ y x, d.readers.get? σ.reader.guid = some y ∧ s.samples[σ.read]? = some x ∧
      (y.take 1).2 = .ok [x] ∧
      Fits s { σ with read := σ.read + 1 } (d.adjustReader σ.reader.guid fun _ => (y.take 1).1)
        a := by
  obtain ⟨y, hy, hfits⟩ := h.reader (created_of_active hr)
  have hget : d.readers.get? σ.reader.guid = some y := by rw [hy, Table.get?_cons, if_pos rfl]
  have hgot : σ.got ≤ s.changes.length :=
    Nat.le_trans h.order.got (Nat.le_trans h.order.sent h.order.made)
  obtain ⟨⟨x, hx, htaken⟩, htake⟩ := hfits.take hr hs hlt hgot
  refine ⟨y, x, hget, hx, htaken, h.reviseReader (q := d.queue) rfl ?_ (fun y₁ hy₁ _ => ?_)
    (fun _ hx => hx.progress _ _ _) h.jobs h.receipt⟩
  · exact { h.order with
      read := hlt
      finished := fun hend => absurd hend (ne_true_of_eq_false (ending_eq_false hr)) }
  · rw [hy] at hy₁
    cases hy₁
    exact htake

end PubSub.Loopback.Duet
