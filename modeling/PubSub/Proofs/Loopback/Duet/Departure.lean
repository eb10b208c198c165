import PubSub.Proofs.Loopback.Duet.Delivery

/-!
How the sides of a duet go: an endpoint is closed, then it is taken off the entries, and its
participant leaves.
-/

namespace PubSub.Loopback.Duet

variable {s : Scenario} {σ : Duet} {d : Domain} {a : Option Domain.Receipt} {k : EndpointKind}

/-! ### Participants that go -/

lemma Fits.mark (h : Fits s σ d a) (hk : (σ.post k).presence.created = true)
    {f : Participant → Participant}
    (hf : (σ.post k).presence = .active → ∀ y, (f y).left = y.left) :
    Fits s σ { d with participants := d.participants.adjust (σ.post k).home f } a := by
  have hhas := Table.has_adjust d.participants (σ.post k).home f
  refine { h with housed := fun k' => ?_, peopled := fun p hp => h.peopled p (hhas p ▸ hp) }
  have hhoused := h.housed k'
  by_cases hk' : k' = k
  · subst hk'
    unfold Post.Housed at hhoused ⊢
    cases hp : (σ.post k').presence with
    | active =>
      rw [hp] at hhoused
      obtain ⟨y, hy, hleft⟩ := hhoused
      refine ⟨f y, ?_, (hf hp y).trans hleft⟩
      rw [Table.get?_adjust, if_pos rfl, hy]
      rfl
    | closing | gone =>
      rw [hp] at hhoused
      exact (hhas _).trans hhoused
    | _ =>
      rw [hp] at hk
      cases hk
  · obtain rfl := eq_other hk'
    refine housed_congr hhoused fun hother => ?_
    rw [Table.get?_adjust, if_neg (h.order.apart_of (ne_outside_of_created hk) hother)]

/-- What there is to do to close the endpoints of a participant. -/
lemma Fits.closings (h : Fits s σ d a) (hk : (σ.post k).presence.created = true) :
    d.closings (σ.post k).home = [.close k (σ.post k).guid] := by
  have hapart : (σ.post (other k)).presence.created = true →
      (σ.post (other k)).home ≠ (σ.post k).home := fun hother =>
    h.order.apart_of (ne_outside_of_created hk) (ne_outside_of_created hother)
  cases k with
  | writer =>
    obtain ⟨x, hx, -⟩ := h.writer hk
    -- the other side is another participant, so its endpoint stays
    have hreaders : d.readers.keys.filter (·.participant = σ.writer.home) = [] := by
      cases hr : σ.reader.presence.created with
      | false => rw [h.noReader hr]; rfl
      | true =>
        obtain ⟨y, hy, -⟩ := h.reader hr
        have hne : σ.reader.home ≠ σ.writer.home := hapart hr
        simpa [hy, Table.keys, Post.guid, Guid.sole] using hne
    rw [Domain.closings]
    change List.map _ (d.writers.keys.filter (·.participant = σ.writer.home)) ++
      List.map _ (d.readers.keys.filter (·.participant = σ.writer.home)) = _
    rw [hreaders, hx]
    simp [Table.keys, Post.guid, Guid.sole, Chore.close, post]
  | reader =>
    obtain ⟨y, hy, -⟩ := h.reader hk
    have hwriters : d.writers.keys.filter (·.participant = σ.reader.home) = [] := by
      cases hw : σ.writer.presence.created with
      | false => rw [h.noWriter hw]; rfl
      | true =>
        obtain ⟨x, hx, -⟩ := h.writer hw
        have hne : σ.writer.home ≠ σ.reader.home := hapart hw
        simpa [hx, Table.keys, Post.guid, Guid.sole] using hne
    rw [Domain.closings]
    change List.map _ (d.writers.keys.filter (·.participant = σ.reader.home)) ++
      List.map _ (d.readers.keys.filter (·.participant = σ.reader.home)) = _
    rw [hwriters, hy]
    simp [Table.keys, Post.guid, Guid.sole, Chore.close, post]

/-! ### Endpoints that are closed -/

lemma Fits.housed_depart (h : Fits s σ d a) {p : Presence} (hk : (σ.post k).presence.created = true)
    (hp : p.ending = true) (k' : EndpointKind) : ((σ.become k p).post k').Housed d := by
  have hhas := has_of_housed (h.housed k) (ne_outside_of_created hk)
  rw [become, post_move]
  split_ifs
  · unfold Post.Housed
    cases p with
    | closing | gone => exact hhas
    | _ => cases hp
  · exact h.housed k'

namespace Orderly

variable {total : Nat} {p : Presence}

/-- The writer goes after it has done its part. -/
lemma departWriter (h : σ.Orderly total) (hw : σ.writer.presence.created = true)
    (hp : p.created = true) (hmade : σ.made = total)
    (hacked : σ.reader.presence.ending = true ∨ σ.acked = σ.made) :
    (σ.become .writer p).Orderly total :=
  { h with
    apart := fun _ => h.apart (ne_outside_of_created hw)
    begun := fun hpos => ⟨hp, (h.begun hpos).2⟩
    written := fun _ => ⟨hmade, hacked⟩ }

/-- The reader goes after it has taken everything. -/
lemma departReader (h : σ.Orderly total) (hr : σ.reader.presence.created = true)
    (hp : p.created = true) (hp' : p.ending = true) (hread : σ.read = total) :
    (σ.become .reader p).Orderly total :=
  { h with
    apart := fun hout _ => h.apart hout (ne_outside_of_created hr)
    begun := fun hpos => ⟨(h.begun hpos).1, hp⟩
    written := fun hend => ⟨(h.written hend).1, .inl hp'⟩
    finished := fun _ => hread }

end Orderly

/-- A writer that has done its part is closed. -/
lemma Fits.closeWriter (h : Fits s σ d a) (hw : σ.writer.presence = .active)
    (hmade : σ.made = s.changes.length)
    (hacked : σ.reader.presence.ending = true ∨ σ.acked = σ.made) :
    ∃ d', (Chore.closeWriter σ.writer.guid).run d = (d', [.unlist s.matchKey σ.writer.guid]) ∧
      Fits s (σ.become .writer .closing) d' a := by
  obtain ⟨x, hx, hfits⟩ := h.writer (created_of_active hw)
  have hget : d.writers.get? σ.writer.guid = some x := by rw [hx, Table.get?_cons, if_pos rfl]
  have hopen : x.isOpen = true := by rw [hfits.isOpen, hw]; rfl
  refine ⟨d.adjustWriter σ.writer.guid ({ · with isOpen := false }), ?_, ?_⟩
  · simp only [Chore.run, hget, hopen, hfits.key, if_true]
  · refine { h with
      order := h.order.departWriter (created_of_active hw) rfl hmade hacked
      housed := h.housed_depart (created_of_active hw) rfl
      peopled := h.peopled_become (by decide)
      noWriter := fun hc => absurd hc Bool.noConfusion
      writer := fun _ => ?_
      reader := fun hr => ?_
      entries := ?_ }
    · -- the writer keeps everything but that it is open
      refine ⟨{ x with isOpen := false }, ?_, hfits.key, rfl, hfits.bound, hfits.current,
        fun hactive => absurd hactive Presence.noConfusion⟩
      simp [Domain.adjustWriter, Table.adjust, hx]
      rfl
    · -- the reader may find notifications behind the samples from now on
      obtain ⟨y, hy, hyfits⟩ := h.reader hr
      refine ⟨y, hy, hyfits.update rfl (by rw [hw]; rfl) rfl rfl fun _ hc => ?_⟩
      obtain ⟨extra, hunread, hextra⟩ := hc.unread
      refine ⟨hc.qos, ?_, extra, hunread, fun _ => hextra (by rw [hw]; decide)⟩
      rw [hc.peers.eq_single (by rw [hw]; rfl)]
      exact peersFit_single (σ := σ.become .writer .closing) rfl
    · have hsame : (σ.become .writer .closing).entries s = σ.entries s := by
        rw [entries_eq, entries_eq, hw]
        rfl
      exact hsame ▸ h.entries

/-- A reader that has taken everything is closed. -/
lemma Fits.closeReader (h : Fits s σ d a) (hr : σ.reader.presence = .active)
    (hread : σ.read = s.changes.length) :
    ∃ d', (Chore.closeReader σ.reader.guid).run d = (d', [.unlist s.matchKey σ.reader.guid]) ∧
      Fits s (σ.become .reader .closing) d' a := by
  obtain ⟨y, hy, hfits⟩ := h.reader (created_of_active hr)
  have hget : d.readers.get? σ.reader.guid = some y := by rw [hy, Table.get?_cons, if_pos rfl]
  have hopen : y.isOpen = true := by rw [hfits.isOpen, hr]; rfl
  refine ⟨d.adjustReader σ.reader.guid ({ · with isOpen := false }), ?_, ?_⟩
  · simp only [Chore.run, hget, hopen, hfits.key, if_true]
  · refine { h with
      order := h.order.departReader (created_of_active hr) rfl rfl hread
      housed := h.housed_depart (created_of_active hr) rfl
      peopled := h.peopled_become (by decide)
      noReader := fun hc => absurd hc Bool.noConfusion
      writer := fun hw => ?_
      reader := fun _ => ?_
      entries := ?_
      jobs := fun hend => absurd hend Bool.noConfusion
      receipt := fun hend => absurd hend Bool.noConfusion }
    · obtain ⟨x, hx, hxfits⟩ := h.writer hw
      -- the writer goes on as it was, with a proxy for a reader that is closing
      refine ⟨x, hx, hxfits.update rfl (by rw [hr]; rfl) rfl (Nat.le_refl _) fun _ hh => ?_⟩
      refine ⟨hh.qos, hh.next, hh.retained, ?_⟩
      have hproxies := hh.proxies
      unfold ProxiesFit at hproxies
      rw [hr] at hproxies
      obtain ⟨p, hlist, -⟩ := hproxies
      exact ⟨p, hlist⟩
    · -- the reader keeps everything but that it is open
      refine ⟨{ y with isOpen := false }, ?_, hfits.key, hfits.type, rfl, hfits.bound,
        fun hactive => absurd hactive Presence.noConfusion⟩
      simp [Domain.adjustReader, Table.adjust, hy]
      rfl
    · have hsame : (σ.become .reader .closing).entries s = σ.entries s := by
        rw [entries_eq, entries_eq, hr]
        rfl
      exact hsame ▸ h.entries

/-- An endpoint that has gone is not closed again. -/
lemma Fits.close_gone (h : Fits s σ d a) (hk : (σ.post k).presence = .gone) :
    (Chore.close k (σ.post k).guid).run d = (d, []) := by
  cases k with
  | writer =>
    change σ.writer.presence = .gone at hk
    obtain ⟨x, hx, hfits⟩ := h.writer (by rw [hk]; rfl)
    have hget : d.writers.get? σ.writer.guid = some x := by rw [hx, Table.get?_cons, if_pos rfl]
    have hclosed : x.isOpen = false := by rw [hfits.isOpen, hk]; rfl
    change (Chore.closeWriter σ.writer.guid).run d = _
    simp [Chore.run, hget, hclosed]
  | reader =>
    change σ.reader.presence = .gone at hk
    obtain ⟨y, hy, hfits⟩ := h.reader (by rw [hk]; rfl)
    have hget : d.readers.get? σ.reader.guid = some y := by rw [hy, Table.get?_cons, if_pos rfl]
    have hclosed : y.isOpen = false := by rw [hfits.isOpen, hk]; rfl
    change (Chore.closeReader σ.reader.guid).run d = _
    simp [Chore.run, hget, hclosed]

/-! ### Endpoints that are taken off the entries -/

lemma unlist_of_perm {key : MatchKey} {e : Entry} {rest : List Entry}
    (hrest : rest = [] ∨ ∃ e', rest = [e']) (hperm : (d.listed key).Perm (e :: rest)) (hne : ∀ e' ∈ rest, e'.guid ≠ e.guid) :
    d.unlist key e.guid = (rest.foldl (fun d peer => d.part e peer) d).setListed key rest := by
  have hfind : (d.listed key).find? (·.guid = e.guid) = some e := by
    obtain ⟨e', he'⟩ : ∃ e', (d.listed key).find? (·.guid = e.guid) = some e' :=
      Option.isSome_iff_exists.mp (List.find?_isSome.mpr
        ⟨e, hperm.mem_iff.mpr List.mem_cons_self, decide_eq_true rfl⟩)
    have hguid : e'.guid = e.guid := by simpa using List.find?_some he'
    rcases List.mem_cons.mp (hperm.mem_iff.mp (List.mem_of_find?_eq_some he')) with rfl | hmem
    · exact he'
    · exact absurd hguid (hne e' hmem)
  have hleft : (d.listed key).eraseP (·.guid = e.guid) = rest := by
    have hpairwise : (e :: rest).Pairwise fun a b : Entry =>
        decide (a.guid = e.guid) = true → decide (b.guid = e.guid) = true → False := by
      refine List.pairwise_cons.mpr ⟨fun b hb _ h => hne b hb (of_decide_eq_true h), ?_⟩
      rcases hrest with rfl | ⟨e', rfl⟩
      · exact .nil
      · exact List.pairwise_singleton _ _
    have hhead : (e :: rest).eraseP (·.guid = e.guid) = rest :=
      List.eraseP_cons_of_pos (decide_eq_true rfl)
    have hleft := (hperm.symm.eraseP _ hpairwise).symm
    rw [hhead] at hleft
    rcases hrest with rfl | ⟨e', rfl⟩
    · exact hleft.eq_nil
    · exact List.perm_singleton.mp hleft
  rw [Domain.unlist, hfind, hleft]

def staying (σ : Duet) (s : Scenario) (k : EndpointKind) : List Entry :=
  if (σ.post (other k)).presence.entered then [σ.entry s (other k)] else []

lemma entries_perm (h : (σ.post k).presence.entered = true) :
    (σ.entries s).Perm (σ.entry s k :: σ.staying s k) := by
  rw [entries_eq, staying]
  cases k with
  | writer =>
    change σ.writer.presence.entered = true at h
    rw [if_pos h]
    exact .refl _
  | reader =>
    change σ.reader.presence.entered = true at h
    rw [if_pos h]
    exact List.perm_append_comm

lemma entries_gone : (σ.become k .gone).entries s = σ.staying s k := by
  rw [entries_eq, staying]
  cases k with
  | writer => rfl
  | reader => exact List.append_nil _

/-- Whoever stays loses the side that goes. -/
lemma Fits.unlist_eq (h : Fits s σ d a) (hk : (σ.post k).presence.entered = true) :
    d.unlist s.matchKey (σ.post k).guid =
      ((σ.staying s k).foldl (fun d peer => d.part (σ.entry s k) peer) d).setListed s.matchKey
        (σ.staying s k) := by
  refine unlist_of_perm (e := σ.entry s k) ?_ (h.entries.trans (entries_perm hk)) ?_
  · rw [staying]
    split_ifs
    · exact .inr ⟨_, rfl⟩
    · exact .inl rfl
  · intro e he
    rw [staying] at he
    split_ifs at he with hother
    · rw [List.mem_singleton.mp he]
      have hne := h.order.apart_of (ne_outside_of_entered hk) (ne_outside_of_entered hother)
      exact fun hguid => hne (congrArg Guid.participant hguid)
    · cases he

/-- The reader, if it is still there, loses the writer. -/
lemma Fits.partReader (h : Fits s σ d a) (hw : σ.writer.presence = .closing) :
    ∃ ys, (σ.staying s .writer).foldl
      (fun d peer => d.part (σ.entry s .writer) peer) d = { d with readers := ys } ∧
      (σ.reader.presence.created = false → ys = []) ∧
      (σ.reader.presence.created = true → ∃ y, ys = [(σ.reader.guid, y)] ∧
        (σ.become .writer .gone).ReaderFits s y) := by
  rw [staying]
  change ∃ ys, List.foldl _ d (if σ.reader.presence.entered then _ else _) = _ ∧ _
  cases hr : σ.reader.presence.created with
  | false =>
    rw [entered_of_not_created hr]
    exact ⟨d.readers, rfl, fun _ => h.noReader hr, fun hc => absurd hc Bool.false_ne_true⟩
  | true =>
    obtain ⟨y, hy, hyfits⟩ := h.reader hr
    split_ifs with hentered
    · refine ⟨[(σ.reader.guid, Domain.readerUnbound y σ.writer.guid)], ?_, False.elim,
        fun _ => ⟨_, rfl, hyfits.part hw⟩⟩
      change d.adjustReader σ.reader.guid (Domain.readerUnbound · σ.writer.guid) = _
      simp [Domain.adjustReader, Table.adjust, hy]
    · refine ⟨d.readers, rfl, False.elim, fun _ => ⟨y, hy, ?_⟩⟩
      refine hyfits.update rfl (by rw [hw]; rfl) rfl rfl fun hactive _ => ?_
      exact absurd (by rw [hactive]; rfl) hentered

lemma Fits.unlistWriter (h : Fits s σ d a) (hw : σ.writer.presence = .closing) :
    Fits s (σ.become .writer .gone) (d.unlist s.matchKey σ.writer.guid) a := by
  have hcreated : σ.writer.presence.created = true := by rw [hw]; rfl
  obtain ⟨x, hx, hfits⟩ := h.writer hcreated
  obtain ⟨hmade, hacked⟩ := h.order.written (by rw [hw]; rfl)
  obtain ⟨ys, hys, hnoReader, hreader⟩ := h.partReader hw
  have hunlist := h.unlist_eq (k := .writer) (by rw [post, hw]; rfl)
  change d.unlist s.matchKey σ.writer.guid = _ at hunlist
  rw [hunlist, hys]
  refine { h with
    order := h.order.departWriter hcreated rfl hmade hacked
    housed := h.housed_depart (k := .writer) hcreated rfl
    peopled := h.peopled_become (by decide)
    noWriter := fun hc => absurd hc Bool.noConfusion
    noReader := hnoReader
    writer := fun _ => ?_
    reader := hreader
    entries := ?_ }
  · refine ⟨x, hx, hfits.key, ?_, hfits.bound, hfits.current,
      fun hactive => absurd hactive Presence.noConfusion⟩
    rw [hfits.isOpen, hw]
    rfl
  · rw [Domain.listed_setListed, if_pos rfl, entries_gone]

/-- The writer, if it is still there, loses the reader. -/
lemma Fits.partWriter (h : Fits s σ d a) (hr : σ.reader.presence = .closing) :
    ∃ xs, (σ.staying s .reader).foldl
      (fun d peer => d.part (σ.entry s .reader) peer) d = { d with writers := xs } ∧
      (σ.writer.presence.created = false → xs = []) ∧
      (σ.writer.presence.created = true → ∃ x, xs = [(σ.writer.guid, x)] ∧
        (σ.become .reader .gone).WriterFits s x) := by
  rw [staying]
  change ∃ xs, List.foldl _ d (if σ.writer.presence.entered then _ else _) = _ ∧ _
  cases hw : σ.writer.presence.created with
  | false =>
    rw [entered_of_not_created hw]
    exact ⟨d.writers, rfl, fun _ => h.noWriter hw, fun hc => absurd hc Bool.false_ne_true⟩
  | true =>
    obtain ⟨x, hx, hxfits⟩ := h.writer hw
    split_ifs with hentered
    · refine ⟨[(σ.writer.guid, Domain.writerUnbound x σ.reader.guid)], ?_, False.elim,
        fun _ => ⟨_, rfl, hxfits.part hr⟩⟩
      change d.adjustWriter σ.writer.guid (Domain.writerUnbound · σ.reader.guid) = _
      simp [Domain.adjustWriter, Table.adjust, hx]
    · refine ⟨d.writers, rfl, False.elim, fun _ => ⟨x, hx, ?_⟩⟩
      refine hxfits.update rfl (by rw [hr]; rfl) rfl (Nat.le_refl _) fun hactive _ => ?_
      exact absurd (by rw [hactive]; rfl) hentered

lemma Fits.unlistReader (h : Fits s σ d a) (hr : σ.reader.presence = .closing) :
    Fits s (σ.become .reader .gone) (d.unlist s.matchKey σ.reader.guid) a := by
  have hcreated : σ.reader.presence.created = true := by rw [hr]; rfl
  obtain ⟨y, hy, hfits⟩ := h.reader hcreated
  obtain ⟨xs, hxs, hnoWriter, hwriter⟩ := h.partWriter hr
  have hunlist := h.unlist_eq (k := .reader) (by rw [post, hr]; rfl)
  change d.unlist s.matchKey σ.reader.guid = _ at hunlist
  rw [hunlist, hxs]
  refine { h with
    order := h.order.departReader hcreated rfl rfl (h.order.finished (by rw [hr]; rfl))
    housed := h.housed_depart (k := .reader) hcreated rfl
    peopled := h.peopled_become (by decide)
    noWriter := hnoWriter
    noReader := fun hc => absurd hc Bool.noConfusion
    writer := hwriter
    reader := fun _ => ?_
    entries := ?_
    jobs := fun hend => absurd hend Bool.noConfusion
    receipt := fun hend => absurd hend Bool.noConfusion }
  · refine ⟨y, hy, hfits.key, hfits.type, ?_, hfits.bound,
      fun hactive => absurd hactive Presence.noConfusion⟩
    rw [hfits.isOpen, hr]
    rfl
  · rw [Domain.listed_setListed, if_pos rfl, entries_gone]

end PubSub.Loopback.Duet
