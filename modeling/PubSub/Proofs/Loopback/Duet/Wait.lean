import PubSub.Proofs.Loopback.Duet.Medium

/-!
The waits of a duet. A wait that is over has brought what the side needs to go on, and the two never
wait for each other: as long as one of them is not through, somebody can go on.
-/

namespace PubSub.Loopback.Duet

variable {s : Scenario} {c : Config} {scope : Scope} {σ : Duet} {w : World} {d : Domain}
  {a : Option Domain.Receipt} {k : EndpointKind} {D : Duty} {p : Nat}

/-! ### What a side sees -/

lemma Hosts.view_writer (h : Hosts s scope σ w a) (hw : σ.writer = ⟨p, .active⟩) :
    ∃ x, Middleware.view? w (.sole p) = some x.view ∧ σ.WriterFits s x := by
  obtain ⟨x, hx, hfits⟩ := h.writer? hw rfl
  exact ⟨x, by rw [Middleware.view?, hx], hfits⟩

lemma Hosts.view_reader (h : Hosts s scope σ w a) (hr : σ.reader = ⟨p, .active⟩) :
    ∃ y, Middleware.view? w (.sole p) = some y.view ∧ σ.ReaderFits s y := by
  obtain ⟨y, hnone, hy, hfits⟩ := h.reader? hr rfl
  exact ⟨y, by rw [Middleware.view?, hnone, hy, Option.map_some], hfits⟩

/-- Listening to a status does not show. -/
lemma Hosts.listen (h : Hosts s scope σ w a) (hk : σ.post k = ⟨p, .active⟩)
    (cond : WaitCondition) : Hosts s scope σ (Runner.listen w (.sole p) cond) a := by
  unfold Runner.listen
  split
  · refine (h.adjustWriter hk fun x hx => ?_).adjustReader hk fun y hy => ?_
    · exact hx.update rfl rfl rfl (Nat.le_refl _) fun _ hh => hh
    · exact hy.update rfl rfl rfl rfl fun _ hc => hc
  · exact h

/-- A wait is over when its condition is seen to hold, and not before. -/
lemma verdict?_eq {W : Type} [Middleware W] {w : W} {e : Guid} {v : EndpointView}
    (hv : Middleware.view? w e = some v) (cond : WaitCondition) (limit : Span) :
    Runner.verdict? w e cond limit (Middleware.now w + 1) =
      if cond.satisfied v.status then some (.ok ()) else none := by
  rw [Runner.verdict?, hv]
  dsimp only
  rw [if_neg (Nat.not_succ_le_self (Middleware.now w))]

lemma satisfied_of_verdict {W : Type} [Middleware W] {w : W} {e : Guid} {v : EndpointView}
    (hv : Middleware.view? w e = some v) {cond : WaitCondition} {limit : Span}
    {r : Except Fault Unit}
    (hr : Runner.verdict? w e cond limit (Middleware.now w + 1) = some r) :
    r = .ok () ∧ cond.satisfied v.status = true := by
  rw [verdict?_eq hv] at hr
  split_ifs at hr with hs
  exact ⟨(Option.some.inj hr).symm, hs⟩

/-! ### Waits that are over -/

lemma WriterFits.created_of_matched {x : Writer} (h : σ.WriterFits s x)
    (hs : WaitCondition.matched.satisfied x.view.status = true) :
    σ.reader.presence.created = true := by
  refine h.bound.mp ?_
  have hcurrent := h.current
  have hs : (decide (0 < x.matched.current) || decide (0 < x.matched.total)) = true := hs
  rcases Bool.or_eq_true_iff.mp hs with hpos | hpos
  · exact Nat.lt_of_lt_of_le (of_decide_eq_true hpos) hcurrent
  · exact of_decide_eq_true hpos

lemma Fits.acked_of_acknowledged {x : Writer} (hfits : Fits s σ d a) (h : σ.WriterFits s x)
    (hw : σ.writer.presence = .active)
    (hs : WaitCondition.acknowledged.satisfied x.view.status = true) :
    σ.reader.presence.ending = true ∨ σ.acked = σ.made := by
  have hnone : x.history.unacknowledged = 0 := of_decide_eq_true hs
  cases hend : σ.reader.presence.ending with
  | true => exact .inl rfl
  | false =>
    right
    rcases not_created_or_active hend with hcreated | hactive
    · obtain ⟨hmade, -, -, hacked, -⟩ := hfits.order.unbegun (k := .reader) hcreated
      exact hacked.trans hmade.symm
    · exact (h.history hw).acked_eq hfits.order.made hactive hnone

lemma unread_length {l : List (Sample Json)} {n m : Nat} (hn : n ≤ l.length) :
    ((l.take n).drop m).length = n - m := by
  rw [List.length_drop, List.length_take, Nat.min_eq_left hn]

lemma Fits.got_of_data {y : Reader} (hfits : Fits s σ d a) (h : σ.ReaderFits s y)
    (hr : σ.reader.presence = .active) (hread : σ.read < s.changes.length)
    (hs : WaitCondition.data.satisfied y.view.status = true) : σ.read < σ.got := by
  have hpos : 0 < y.cache.unread.length := of_decide_eq_true hs
  obtain ⟨extra, hunread, hextra⟩ := (h.cache hr).unread
  by_cases hw : σ.writer.presence = .gone
  · -- the writer has gone only after everything was acknowledged
    obtain ⟨hmade, hend | hacked⟩ := hfits.order.written (by rw [hw]; rfl)
    · exact absurd hend (ne_true_of_eq_false (ending_eq_false hr))
    · have := hfits.order.acked
      omega
  · have hle : σ.got ≤ (s.changes.map ReaderCache.sampleOf).length := by
      rw [List.length_map]
      exact Nat.le_trans hfits.order.got (Nat.le_trans hfits.order.sent hfits.order.made)
    rw [hunread, hextra hw, List.append_nil, unread_length hle] at hpos
    omega

/-- **A wait that is over has brought what the side needs to go on.** -/
theorem Hosts.awaited (h : Hosts s scope σ w a) (hD : σ.Keeps k D) {e : Guid}
    {cond : WaitCondition} {limit : Span} {P : Unit → Duty → Prop}
    (hgrants : s.Grants c k D (.await e cond limit) P) {r : Except Fault Unit}
    (hr : Runner.verdict? w e cond limit (Middleware.now w + 1) = some r) :
    ∃ D', r = .ok () ∧ P () D' ∧ σ.Keeps k D' := by
  cases cond with
  | matched =>
    obtain ⟨he, hP⟩ := hgrants
    obtain ⟨p, rfl, hk⟩ := hD.endpoint he
    cases k with
    | writer =>
      obtain ⟨x, hview, hfits⟩ := h.view_writer hk
      obtain ⟨rfl, hs⟩ := satisfied_of_verdict hview hr
      cases D with
      | writing p' matched made settled =>
        -- only a writer can have the duty of writing
        obtain ⟨-, hw, hmade, hsent, -, hsettled⟩ := hD
        exact ⟨_, rfl, hP, rfl, hw, hmade, hsent, fun _ => hfits.created_of_matched hs, hsettled⟩
      | reading p' read ready => exact absurd hD.1 (by decide)
      | _ => cases he
    | reader =>
      obtain ⟨y, hview, hfits⟩ := h.view_reader hk
      obtain ⟨rfl, hs⟩ := satisfied_of_verdict hview hr
      cases D with
      | writing p' matched made settled => exact absurd hD.1 (by decide)
      | reading p' read ready => exact ⟨_, rfl, hP, hD⟩
      | _ => cases he
  | acknowledged =>
    obtain ⟨p, matched, made, settled, rfl, rfl, hP⟩ := hgrants
    obtain ⟨rfl, hw, rfl, hsent, hmatched, -⟩ := hD
    obtain ⟨d, -, hfits, -⟩ := h.opened (k := .writer) (ne_outside_of_post hw (by decide))
    obtain ⟨x, hview, hx⟩ := h.view_writer hw
    obtain ⟨rfl, hs⟩ := satisfied_of_verdict hview hr
    exact ⟨_, rfl, hP, rfl, hw, rfl, hsent, hmatched,
      fun _ => hfits.acked_of_acknowledged hx (by rw [hw]) hs⟩
  | data =>
    obtain ⟨p, read, ready, rfl, rfl, hread, hP⟩ := hgrants
    obtain ⟨rfl, hreader, rfl, -⟩ := hD
    obtain ⟨d, -, hfits, -⟩ := h.opened (k := .reader) (ne_outside_of_post hreader (by decide))
    obtain ⟨y, hview, hy⟩ := h.view_reader hreader
    obtain ⟨rfl, hs⟩ := satisfied_of_verdict hview hr
    exact ⟨_, rfl, hP, rfl, hreader, rfl,
      fun _ => hfits.got_of_data hy (by rw [hreader]) hread hs⟩

/-! ### Waits that are not over -/

inductive Waits (s : Scenario) (σ : Duet) : EndpointKind → Prop
  | matched {k : EndpointKind} (h : (σ.post (other k)).presence.created = false) : Waits s σ k
  | acknowledged (hr : σ.reader.presence = .closing ∨
      σ.reader.presence = .active ∧ σ.acked ≠ σ.made) (hsent : σ.sent = σ.made) : Waits s σ .writer
  | data (hread : σ.read < s.changes.length) (hgot : σ.got ≤ σ.read) : Waits s σ .reader

lemma not_satisfied_of_verdict {W : Type} [Middleware W] {w : W} {e : Guid} {v : EndpointView}
    (hv : Middleware.view? w e = some v) {cond : WaitCondition} {limit : Span}
    (hr : Runner.verdict? w e cond limit (Middleware.now w + 1) = none) :
    ¬cond.satisfied v.status = true := by
  rw [verdict?_eq hv] at hr
  split_ifs at hr with hs
  exact hs

/-- A wait that is not over has a reason. -/
lemma Hosts.waits (h : Hosts s scope σ w a) (hD : σ.Keeps k D) {e : Guid}
    {cond : WaitCondition} {limit : Span} {P : Unit → Duty → Prop}
    (hgrants : s.Grants c k D (.await e cond limit) P)
    (hr : Runner.verdict? w e cond limit (Middleware.now w + 1) = none) :
    (σ.post k).presence = .active ∧ σ.Waits s k := by
  cases cond with
  | matched =>
    -- neither side has matched unless both have their endpoint
    obtain ⟨p, rfl, hk⟩ := hD.endpoint hgrants.1
    refine ⟨by rw [hk], .matched (Bool.eq_false_iff.mpr fun hcreated => ?_)⟩
    cases k with
    | writer =>
      obtain ⟨x, hview, hfits⟩ := h.view_writer hk
      refine not_satisfied_of_verdict hview hr (Bool.or_eq_true_iff.mpr (.inr ?_))
      exact decide_eq_true (hfits.bound.mpr hcreated)
    | reader =>
      obtain ⟨y, hview, hfits⟩ := h.view_reader hk
      refine not_satisfied_of_verdict hview hr (Bool.or_eq_true_iff.mpr (.inr ?_))
      exact decide_eq_true (hfits.bound.mpr hcreated)
  | acknowledged =>
    obtain ⟨p, matched, made, settled, rfl, rfl, -⟩ := hgrants
    obtain ⟨rfl, hw, rfl, hsent, -⟩ := hD
    obtain ⟨d, -, hfits, -⟩ := h.opened (k := .writer) (ne_outside_of_post hw (by decide))
    obtain ⟨x, hview, hx⟩ := h.view_writer hw
    have hactive : σ.writer.presence = .active := by rw [hw]
    refine ⟨hactive, .acknowledged ?_ hsent⟩
    -- either the reader is closing, or something is on its way to it or back
    by_contra hnone
    obtain ⟨hclosing, hacked⟩ := not_or.mp hnone
    refine not_satisfied_of_verdict hview hr (decide_eq_true ?_)
    exact (hx.history hactive).unacknowledged_eq_zero hfits.order.made hclosing
      fun hr => by_contra fun hne => hacked ⟨hr, hne⟩
  | data =>
    obtain ⟨p, read, ready, rfl, rfl, hread, -⟩ := hgrants
    obtain ⟨rfl, hreader, rfl, -⟩ := hD
    obtain ⟨d, -, hfits, -⟩ := h.opened (k := .reader) (ne_outside_of_post hreader (by decide))
    obtain ⟨y, hview, hy⟩ := h.view_reader hreader
    have hactive : σ.reader.presence = .active := by rw [hreader]
    -- were there more than what was read, the wait would be over
    refine ⟨hactive, .data hread (Nat.not_lt.mp fun hlt => ?_)⟩
    refine not_satisfied_of_verdict hview hr (decide_eq_true ?_)
    change 0 < y.cache.unread.length
    obtain ⟨extra, hunread, -⟩ := (hy.cache hactive).unread
    have hle : σ.got ≤ (s.changes.map ReaderCache.sampleOf).length := by
      rw [List.length_map]
      exact Nat.le_trans hfits.order.got (Nat.le_trans hfits.order.sent hfits.order.made)
    rw [hunread, List.length_append, unread_length hle]
    omega

/-- **The two never wait for each other**: when nothing is on its way, each side that is not
through can go on. -/
theorem Fits.gone_of_waits (h : Fits s σ d none) (hqueue : d.queue = [])
    (hsides : ∀ k, (σ.post k).presence = .gone ∨
      (σ.post k).presence = .active ∧ σ.Waits s k) : ∀ k, (σ.post k).presence = .gone := by
  have hcreated : ∀ k, (σ.post k).presence.created = true := fun k => by
    rcases hsides k with hgone | ⟨hactive, -⟩
    · rw [hgone]; rfl
    · rw [hactive]; rfl
  -- the writer has nothing to wait for
  have hwriter : σ.writer.presence = .gone := by
    rcases hsides .writer with hgone | ⟨-, hwaits⟩
    · exact hgone
    cases hwaits with
    | matched hother => exact absurd (hcreated _) (ne_true_of_eq_false hother)
    | acknowledged hr hsent =>
      have hactive : σ.reader.presence = .active := by
        rcases hsides .reader with hgone | ⟨hactive, -⟩
        · rcases hr with hr | ⟨hr, -⟩ <;> exact absurd (hgone.symm.trans hr) (by decide)
        · exact hactive
      have hend := ending_eq_false hactive
      have hacked : σ.acked = σ.got := h.receipt hend
      have hjobs := h.jobs hend
      rw [hqueue, List.map_nil] at hjobs
      have hwindow := congrArg List.length (List.map_eq_nil_iff.mp hjobs.symm)
      have hlength := congrArg List.length (map_snd_numbered 1 s.changes)
      rw [List.length_map] at hlength
      have hmade := h.order.made
      have hsent' := h.order.sent
      have hgot := h.order.got
      rw [List.length_drop, List.length_take, List.length_nil] at hwindow
      rcases hr with hr | ⟨-, hne⟩
      · exact absurd (hactive.symm.trans hr) (by decide)
      · omega
  have hreader : σ.reader.presence = .gone := by
    rcases hsides .reader with hgone | ⟨hactive, hwaits⟩
    · exact hgone
    cases hwaits with
    | matched hother => exact absurd (hcreated _) (ne_true_of_eq_false hother)
    | data hread hgot =>
      obtain ⟨hmade, hend | hacked⟩ := h.order.written (by rw [hwriter]; rfl)
      · exact absurd hend (ne_true_of_eq_false (ending_eq_false hactive))
      · have := h.order.acked
        omega
  intro k
  cases k with
  | writer => exact hwriter
  | reader => exact hreader

end PubSub.Loopback.Duet
