import PubSub.Proofs.Udp.Discovery

/-!
Where the changes of a writer go. A writer notes the address of a reader when it gains the reader,
and goes by that note for everything that it sends to the reader from then on. An announcement from
another address makes the participant look at its matches anew; readers that are gained then are
noted at the new address, but a reader that the writer has already stays noted where it was.
-/

namespace PubSub.Udp

def Toward (p : Nat) (a : Address) (out : List Dispatch) : Prop :=
  ∀ b w r number c, Dispatch.unicast b (.data w r number c) ∈ out → r.participant = p → b = a

lemma Toward.flatMap {α : Type} {p : Nat} {a : Address} {l : List α} {f : α → List Dispatch}
    (h : ∀ x ∈ l, Toward p a (f x)) : Toward p a (l.flatMap f) := by
  intro b w r number c hmem hr
  obtain ⟨x, hx, hmem⟩ := List.mem_flatMap.mp hmem
  exact h x hx b w r number c hmem hr

namespace LinkedWriter

variable {x : LinkedWriter} {p : Nat} {a b : Address} {r : Guid}

/-! ### The address of a reader -/

lemma addresses_foldl_drop (x : LinkedWriter) (rs : List Guid) (r : Guid) :
    (rs.foldl drop x).addresses.get? r = if r ∈ rs then none else x.addresses.get? r := by
  induction rs generalizing x with
  | nil => simp
  | cons r' rs ih =>
    have hdrop : (x.drop r').addresses.get? r = if r = r' then none else x.addresses.get? r :=
      Table.get?_erase _ _ _
    rw [List.foldl_cons, ih, hdrop]
    by_cases h1 : r = r' <;> by_cases h2 : r ∈ rs <;> simp [h1, h2]

lemma addresses_foldl_gain (x : LinkedWriter) {new : WantedReaders} (hnew : new.Distinct)
    (out : List Outgoing) (r : Guid) :
    (new.foldl gainNext (x, out)).1.addresses.get? r =
      ((new.get? r).map (·.1)).or (x.addresses.get? r) := by
  induction new generalizing x out with
  | nil => rfl
  | cons e new ih =>
    obtain ⟨r', a, q⟩ := e
    obtain ⟨hn, hd⟩ := Table.distinct_cons.mp hnew
    have hgain : (x.gain r' a q).1.addresses.get? r =
        if r = r' then some a else x.addresses.get? r := Table.get?_put _ _ _ _ _
    have hih := ih (x.gain r' a q).1 hd (out ++ (x.gain r' a q).2)
    rw [hgain] at hih
    refine hih.trans ?_
    rw [Table.get?_cons]
    by_cases hr : r = r'
    · subst hr
      simp [Table.get?_eq_none_iff.mpr hn]
    · simp [hr, Ne.symm hr]

/-- A reader that is wanted keeps the address that is noted for it; if none is, the one that it is
wanted at is noted. -/
lemma addresses_sync (x : LinkedWriter) {wanted : WantedReaders} (hw : wanted.Distinct)
    (r : Guid) :
    (x.sync wanted).1.addresses.get? r =
      (wanted.get? r).map fun e => (x.addresses.get? r).getD e.1 := by
  have hdistinct : Table.Distinct (x.unmet wanted) := hw.filter (!x.addresses.has ·.1)
  have hgain := addresses_foldl_gain ((x.stale wanted).foldl drop x) hdistinct [] r
  rw [addresses_foldl_drop, get?_unmet] at hgain
  refine Eq.trans (b := (x.synced wanted).1.addresses.get? r) rfl (hgain.trans ?_)
  cases hx : x.addresses.get? r with
  | none =>
    have hhas : x.addresses.has r = false := Table.has_eq_false.mpr hx
    simp [hhas]
  | some b =>
    have hhas : x.addresses.has r = true := Table.has_eq_true.mpr ⟨b, hx⟩
    have hstale : r ∈ x.stale wanted ↔ wanted.has r = false := by
      simp [stale, Table.has_iff_mem_keys.mp hhas]
    cases hwant : wanted.get? r with
    | none => simp [hhas, hstale, Table.has_eq_false.mpr hwant]
    | some e => simp [hhas, hstale, Table.has_eq_true.mpr ⟨e, hwant⟩]

lemma addresses_reconcile (n : Node) (x : LinkedWriter) (r : Guid) :
    (n.reconcileWriter x).1.addresses.get? r =
      ((x.wanted (n.candidates .reader x.writer.key.topic x.writer.type.name)).get? r).map
        fun e => (x.addresses.get? r).getD e.1 := by
  have hsync := addresses_sync
    ((n.candidates .reader x.writer.key.topic x.writer.type.name).foldl refuse x)
    (x.distinct_wanted (n.candidates .reader x.writer.key.topic x.writer.type.name)) r
  rw [(foldl_refuse x _).2.1] at hsync
  exact hsync

/-! ### What a writer sends -/

def Noted (x : LinkedWriter) (p : Nat) (a : Address) : Prop :=
  ∀ r b, r.participant = p → x.addresses.get? r = some b → b = a

lemma Noted.toward (h : x.Noted p a) (out : List Outgoing) : Toward p a (x.address out) := by
  intro b w r number c hmem hr
  obtain ⟨o, -, ho⟩ := List.mem_filterMap.mp hmem
  obtain ⟨b', hb', heq⟩ := Option.map_eq_some_iff.mp ho
  cases heq
  exact h o.reader b hr hb'

/-- A change for a reader goes to the address that is noted for it. -/
lemma mem_address {out : List Outgoing} {o : Outgoing} (ho : o ∈ out)
    (ha : x.addresses.get? o.reader = some a) :
    Dispatch.unicast a (.data x.writer.guid o.reader o.number o.change) ∈ x.address out :=
  List.mem_filterMap.mpr ⟨o, ho, by rw [ha]; rfl⟩

/-- The readers among announced endpoints that the writer can have. -/
def Wants (x : LinkedWriter) (es : List Announcement) (r : Guid) : Prop :=
  ∃ e ∈ es, e.kind = .reader ∧ e.topic = x.writer.key.topic ∧ e.typeName = x.writer.type.name ∧
    Qos.compatible x.writer.qos e.qos = true ∧ e.guid = r

end LinkedWriter

namespace Node

variable {n : Node} {p : Nat} {a : Address}

/-- All that the participant has just sent, that it sends again and that it sends for whatever an
application submits goes to that address, as far as it is for readers of the other participant. -/
def Follows (n : Node) (out : List Dispatch) (p : Nat) (a : Address) : Prop :=
  Toward p a out ∧ Toward p a n.retransmission ∧
    ∀ w s acted, n.submit w s = .ok acted → Toward p a acted.2

/-- What an open writer sends for a new change shows what it has noted. -/
lemma Follows.noted {out : List Dispatch} (h : n.Follows out p a) (hwf : n.Wf) {w : Guid}
    {x : LinkedWriter} (hx : n.writers.get? w = some x) (ho : x.writer.isOpen = true) :
    x.Noted p a := by
  intro r b hr hb
  obtain ⟨-, htidy, -⟩ := hwf.writer w x hx
  have hsome : x.writer.history.proxies.get? r ≠ none := by
    rw [Ne, ← htidy.addresses, hb]
    exact Option.some_ne_none b
  obtain ⟨q, hq⟩ := Option.ne_none_iff_exists'.mp hsome
  let v : Value := default
  have hmade : (⟨r, q.next, x.writer.history.made v.key .disposed none⟩ : Outgoing) ∈
      (x.writer.history.addChange v.key .disposed none).2 :=
    List.mem_map.mpr ⟨(r, q), Table.mem_of_get? hq, rfl⟩
  exact h.2.2 w _ _ (submit_disposal hx ho v) b _ r q.next _
    (LinkedWriter.mem_address hmade hb) hr

lemma mem_openWriters (hwf : n.Wf) {x : LinkedWriter} :
    x ∈ n.openWriters ↔ (∃ w, n.writers.get? w = some x) ∧ x.writer.isOpen = true := by
  rw [openWriters, List.mem_filter, Table.values, List.mem_map]
  refine and_congr_left fun _ => ⟨?_, ?_⟩
  · rintro ⟨e, he, rfl⟩
    exact ⟨e.1, Table.get?_of_mem hwf.distinct he⟩
  · rintro ⟨w, hw⟩
    exact ⟨(w, x), Table.mem_of_get? hw, rfl⟩

/-- A participant that has looked at its matches anew follows if its open writers have noted it. -/
lemma follows_reconciled (hwf : n.Wf)
    (h : ∀ w x, n.reconciled.writers.get? w = some x → x.writer.isOpen = true → x.Noted p a) :
    n.reconciled.Follows n.replays p a := by
  refine ⟨Toward.flatMap fun x hx => ?_, Toward.flatMap fun x hx => ?_, fun w s acted hok => ?_⟩
  · obtain ⟨⟨w, hw⟩, ho⟩ := (mem_openWriters hwf).mp hx
    have hget : n.reconciled.writers.get? w = some (n.reconcileWriter x).1 := by
      rw [get?_reconciled, hw, Option.map_some, if_pos ho]
    obtain ⟨-, halike, -⟩ := n.reconcileWriter_spec (hwf.writer w x hw).2.1
    exact (h w _ hget (halike.isOpen.trans ho)).toward _
  · obtain ⟨⟨w, hw⟩, ho⟩ := (mem_openWriters hwf.reconciled).mp hx
    exact (h w x hw ho).toward _
  · obtain ⟨x, hx⟩ := get?_of_submit hok
    obtain ⟨ho, y, -, rfl⟩ := submit_ok hok hx
    have hnoted : LinkedWriter.Noted { x with writer := y } p a := h w x hx ho
    exact hnoted.toward _

/-! ### What is wanted -/

lemma mem_candidates (hd : n.remotes.Distinct) {kind : EndpointKind} {topic typeName : String}
    {c : Candidate} :
    c ∈ n.candidates kind topic typeName ↔
      ∃ q y, n.remotes.get? q = some y ∧ c.endpoint ∈ y.endpoints ∧ c.address = y.address ∧
        c.endpoint.kind = kind ∧ c.endpoint.topic = topic ∧ c.endpoint.typeName = typeName := by
  simp only [candidates, Table.values, List.mem_flatMap, List.mem_map, List.mem_filter,
    Bool.and_eq_true, decide_eq_true_eq]
  constructor
  · rintro ⟨y, ⟨⟨q, y⟩, hy, rfl⟩, e, ⟨he, ⟨hk, ht⟩, hn⟩, rfl⟩
    exact ⟨q, y, Table.get?_of_mem hd hy, he, rfl, hk, ht, hn⟩
  · rintro ⟨q, y, hy, he, ha, hk, ht, hn⟩
    exact ⟨y, ⟨(q, y), Table.mem_of_get? hy, rfl⟩, c.endpoint, ⟨he, ⟨hk, ht⟩, hn⟩, by rw [← ha]⟩

section Own

variable {x : Remote} (hd : n.remotes.Distinct) (hx : n.remotes.get? p = some x)
  (hown : ∀ q y, q ≠ p → n.remotes.get? q = some y → ∀ e ∈ y.endpoints, e.guid.participant ≠ p)
  (y : LinkedWriter) {r : Guid} (hr : r.participant = p)

include hd hx hown hr

/-- A candidate that belongs to a participant for which nobody else speaks has been announced by
that participant. -/
lemma own_candidate {kind : EndpointKind} {topic typeName : String} {c : Candidate}
    (hc : c ∈ n.candidates kind topic typeName) (hg : c.endpoint.guid = r) :
    c.endpoint ∈ x.endpoints ∧ c.address = x.address := by
  obtain ⟨q, z, hz, he, ha, -⟩ := (mem_candidates hd).mp hc
  obtain rfl : q = p := by
    by_contra hq
    exact hown q z hq hz c.endpoint he (hg ▸ hr)
  obtain rfl := Option.some.inj (hz.symm.trans hx)
  exact ⟨he, ha⟩

lemma wanted_own {e : Address × Qos}
    (he : (y.wanted (n.candidates .reader y.writer.key.topic y.writer.type.name)).get? r = some e) :
    e.1 = x.address := by
  rcases Table.exists_of_get?_fill Guid.before (fun c : Candidate => c.endpoint.guid)
    (fun c => (c.address, c.endpoint.qos)) he with hnone | ⟨c, hc, hg, rfl⟩
  · simp at hnone
  · exact (own_candidate hd hx hown hr (List.mem_filter.mp hc).1 hg).2

lemma has_wanted_own :
    (y.wanted (n.candidates .reader y.writer.key.topic y.writer.type.name)).has r = true ↔
      y.Wants x.endpoints r := by
  rw [LinkedWriter.has_wanted]
  constructor
  · rintro ⟨e, he, hg, hq⟩
    obtain ⟨c, hc, rfl⟩ := List.mem_map.mp he
    obtain ⟨-, -, -, -, -, hk, ht, hn⟩ := (mem_candidates hd).mp hc
    exact ⟨c.endpoint, (own_candidate hd hx hown hr hc hg).1, hk, ht, hn,
      Option.isNone_iff_eq_none.mpr hq, hg⟩
  · rintro ⟨e, he, hk, ht, hn, hq, hg⟩
    refine ⟨e, List.mem_map.mpr ⟨⟨e, x.address⟩, ?_, rfl⟩, hg, Option.isNone_iff_eq_none.mp hq⟩
    exact (mem_candidates hd).mpr ⟨p, x, hx, he, rfl, hk, ht, hn⟩

end Own

/-- Once a participant has looked at its matches anew, a writer has noted the address of another
one exactly if it had noted no other address for a reader that it still wants. -/
lemma noted_reconcile_iff {x : Remote} (hd : n.remotes.Distinct)
    (hx : n.remotes.get? p = some x)
    (hown : ∀ q y, q ≠ p → n.remotes.get? q = some y → ∀ e ∈ y.endpoints, e.guid.participant ≠ p)
    (y : LinkedWriter) :
    (n.reconcileWriter y).1.Noted p x.address ↔
      ∀ r b, r.participant = p → y.Wants x.endpoints r → y.addresses.get? r = some b →
        b = x.address := by
  refine forall_congr' fun r => ?_
  rw [LinkedWriter.addresses_reconcile]
  constructor
  · intro h b hr hwants hb
    obtain ⟨e, he⟩ := Table.has_eq_true.mp ((has_wanted_own hd hx hown y hr).mpr hwants)
    exact h b hr (by rw [he, hb]; rfl)
  · intro h b hr hb
    obtain ⟨e, he, rfl⟩ := Option.map_eq_some_iff.mp hb
    cases hy : y.addresses.get? r with
    | none => exact wanted_own hd hx hown y hr he
    | some b =>
      have hwants := (has_wanted_own hd hx hown y hr).mp (Table.has_eq_true.mpr ⟨e, he⟩)
      exact h b hr hwants hy

end Node

section Run

variable (id domain : Nat) (name : String) (port : Nat) (t : Timing) (es : List Happening)

/-- **A participant follows another one that has moved exactly if it keeps no reader of it.** When
a participant that is known already announces itself from another address, and nobody else speaks
for its endpoints, everything that is sent from then on to the readers that it is known to have
goes to the new address, be it a replay, a new change or a retransmission, exactly if every reader
that an open writer has already and still wants happens to be noted there. -/
theorem follows_iff (now : Nat) (source : Address) {p : Nat} {x : Remote} (name' : String)
    (port' millis : Nat) (endpoints : List Announcement) :
    let n := (Node.new id domain name port t).after es
    n.running = true → n.remotes.get? p = some x → x.address ≠ ⟨source.host, port'⟩ →
    (∀ q y, q ≠ p → n.remotes.get? q = some y → ∀ e ∈ y.endpoints, e.guid.participant ≠ p) →
    let s := n.arrive now source (.group (.announce p domain name' port' millis endpoints))
    (s.1.Follows s.2 p ⟨source.host, port'⟩ ↔
      ∀ w y, n.writers.get? w = some y → y.writer.isOpen = true → ∀ r b, r.participant = p →
        y.Wants endpoints r → y.addresses.get? r = some b → b = ⟨source.host, port'⟩) := by
  intro n hrun hx hmoved hown s
  have habreast := Node.abreast_after id domain name port t es
  have hother : p ≠ n.id := by
    rintro rfl
    have hself : n.remotes.get? n.id = none := by
      rw [Node.id, habreast.self]
      exact habreast.own
    exact Option.some_ne_none x (hx.symm.trans hself)
  -- what the participant knows once it has heard the announcement
  let m : Node := { n with
    remotes := n.remotes.put (· < ·) p ⟨⟨source.host, port'⟩, now, .ofMillis millis, endpoints⟩ }
  have hs : s = m.reconcile := by
    have hgroup : domain = n.participant.domain := habreast.group.symm
    simp only [s, Node.arrive, if_pos hrun, Node.hear, Message.participant, if_neg hother,
      if_pos hgroup, Node.hearAnnouncement, hx, Option.getD_some]
    exact if_neg fun hsame => hmoved hsame.2
  have hwf : m.Wf := (habreast.wf.remotes _).wf
  have hd : m.remotes.Distinct := habreast.distinct.put _ _ _
  have hget : ∀ q, m.remotes.get? q =
      if q = p then some ⟨⟨source.host, port'⟩, now, .ofMillis millis, endpoints⟩
      else n.remotes.get? q := fun q => Table.get?_put _ _ _ _ _
  have hmp := (hget p).trans (if_pos rfl)
  have hmown : ∀ q y, q ≠ p → m.remotes.get? q = some y →
      ∀ e ∈ y.endpoints, e.guid.participant ≠ p := by
    intro q y hq hy
    rw [hget, if_neg hq] at hy
    exact hown q y hq hy
  have hnoted := fun y => Node.noted_reconcile_iff hd hmp hmown y
  rw [hs]
  constructor
  · intro hfollows w y hy ho
    have hget' : m.reconciled.writers.get? w = some (m.reconcileWriter y).1 := by
      rw [Node.get?_reconciled]
      simp [m, hy, ho]
    obtain ⟨-, halike, -⟩ := m.reconcileWriter_spec (hwf.writer w y hy).2.1
    exact (hnoted y).mp (hfollows.noted hwf.reconciled hget' (halike.isOpen.trans ho))
  · intro h
    refine Node.follows_reconciled hwf fun w z hz ho => ?_
    rw [Node.get?_reconciled] at hz
    obtain ⟨y, hy, rfl⟩ := Option.map_eq_some_iff.mp hz
    have hy' : y.writer.isOpen = true := by
      by_contra hclosed
      rw [if_neg hclosed] at ho
      exact hclosed ho
    rw [if_pos hy']
    exact (hnoted y).mpr (h w y hy hy')

end Run

def reading (entity : Nat) : Announcement :=
  ⟨⟨2, entity⟩, .reader, "t", SampleType.hello.name, .reliable⟩

/-- What is heard from a participant that has one reader and receives data at a port. -/
def heardAt (now port entity : Nat) : Happening :=
  .arrive now ⟨0, port⟩ (.group (.announce 2 0 "q" port 1000 [reading entity]))

/-- A participant creates a writer and hears of a participant that has a reader for it. -/
def acquainted : List Happening :=
  [.act (.createGroup .publisher),
    .act (.createEndpoint .writer ⟨1, 1⟩ ⟨"t", SampleType.hello.name, 1⟩ .hello .reliable),
    heardAt 0 7401 2]

/-- The other participant moves, and has another reader in the place of the first one. -/
theorem follows_iff_replaced :
    let n := (Node.new 1 0 "p" 7400 .default).after acquainted
    let s := n.arrive 1 ⟨0, 7402⟩ (.group (.announce 2 0 "q" 7402 1000 [reading 3]))
    n.running = true ∧
      n.remotes.get? 2 = some ⟨⟨0, 7401⟩, 0, .ofMillis 1000, [reading 2]⟩ ∧
      (n.writers.map fun e => (e.1, e.2.addresses)) = [(⟨1, 2⟩, [(⟨2, 2⟩, ⟨0, 7401⟩)])] ∧
      (s.1.writers.map fun e => (e.1, e.2.addresses)) = [(⟨1, 2⟩, [(⟨2, 3⟩, ⟨0, 7402⟩)])] ∧
      s.1.Follows s.2 2 ⟨0, 7402⟩ := by
  intro n s
  have hrun : n.running = true := by decide +kernel
  have hremote : n.remotes.get? 2 = some ⟨⟨0, 7401⟩, 0, .ofMillis 1000, [reading 2]⟩ := by
    decide +kernel
  have hremotes : n.remotes.keys = [2] := by decide +kernel
  have hwriters : (n.writers.map fun e => (e.1, e.2.addresses)) =
      [(⟨1, 2⟩, [(⟨2, 2⟩, ⟨0, 7401⟩)])] := by decide +kernel
  refine ⟨hrun, hremote, hwriters, by decide +kernel, ?_⟩
  refine (follows_iff 1 0 "p" 7400 .default acquainted 1 ⟨0, 7402⟩ "q" 7402 1000 [reading 3] hrun
    hremote (by decide) fun q y hq hy => ?_).mpr fun w y hy _ r b _ hwants hb => ?_
  · have hmem := Table.mem_keys_of_mem (Table.mem_of_get? hy)
    rw [hremotes, List.mem_singleton] at hmem
    exact absurd hmem hq
  · -- the one address that is noted is not that of a reader that is still wanted
    have hmem : (w, y.addresses) ∈ n.writers.map fun e => (e.1, e.2.addresses) :=
      List.mem_map.mpr ⟨(w, y), Table.mem_of_get? hy, rfl⟩
    rw [hwriters, List.mem_singleton, Prod.mk.injEq] at hmem
    obtain ⟨e, he, -, -, -, -, rfl⟩ := hwants
    rw [List.mem_singleton.mp he, hmem.2] at hb
    have hnone : Table.get? [(⟨2, 2⟩, (⟨0, 7401⟩ : Address))] (reading 3).guid = none := by decide
    exact absurd (hb.symm.trans hnone) (Option.some_ne_none b)

/-- The other participant moves, and keeps its reader: whatever the writer sends goes to where the
reader was. -/
theorem not_follows_moved :
    let n := (Node.new 1 0 "p" 7400 .default).after acquainted
    let s := n.arrive 1 ⟨0, 7402⟩ (.group (.announce 2 0 "q" 7402 1000 [reading 2]))
    n.running = true ∧
      n.remotes.get? 2 = some ⟨⟨0, 7401⟩, 0, .ofMillis 1000, [reading 2]⟩ ∧
      ¬s.1.Follows s.2 2 ⟨0, 7402⟩ := by
  intro n s
  refine ⟨by decide +kernel, by decide +kernel, fun hfollows => ?_⟩
  have hwf : s.1.Wf :=
    (Node.abreast_after 1 0 "p" 7400 .default (acquainted ++ [heardAt 1 7402 2])).wf
  have hwriter : (s.1.writers.get? ⟨1, 2⟩).map (fun x => (x.writer.isOpen, x.addresses)) =
      some (true, [(⟨2, 2⟩, ⟨0, 7401⟩)]) := by decide +kernel
  obtain ⟨x, hx, hx'⟩ := Option.map_eq_some_iff.mp hwriter
  obtain ⟨ho, haddresses⟩ := Prod.mk.inj hx'
  have hnoted := hfollows.noted hwf hx ho ⟨2, 2⟩ ⟨0, 7401⟩ rfl (by rw [haddresses]; rfl)
  exact absurd hnoted (by decide)

end PubSub.Udp
