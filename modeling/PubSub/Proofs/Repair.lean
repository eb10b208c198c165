import PubSub.Proofs.Progress
import PubSub.Proofs.Reconnect

/-!
Runs of a net in which every pair is joined once. Nothing can stray in such a run, so that one
round of retransmissions repairs whatever was lost, repeated or overtaken before.
-/

namespace PubSub

namespace Net

def Event.joined? : Event → Option (Guid × Guid)
  | .connect w r => some (w, r)
  | _ => none

variable {n : Net} {w r : Guid}

def Alike (n n' : Net) : Prop :=
  ∀ w r, (n'.proxy? w r).isSome = (n.proxy? w r).isSome ∧
    (n'.peer? w r).isSome = (n.peer? w r).isSome

lemma proxy?_send (h : WriterHistory) (out : List Outgoing) (w r : Guid) :
    (n.send h out).proxy? w r = if w = h.guid then h.proxies.get? r else n.proxy? w r := by
  simp only [proxy?, send, Table.get?_put]
  split_ifs <;> rfl

lemma alike_addChange {h : WriterHistory} (hw : n.writers.get? w = some h) (hg : h.guid = w)
    (key : InstanceKey) (kind : ChangeKind) (payload : Option Json) :
    n.Alike (n.send (h.addChange key kind payload).1 (h.addChange key kind payload).2) := by
  intro w' r
  refine ⟨?_, rfl⟩
  rw [proxy?_send, WriterHistory.get?_addChange]
  split_ifs with hw'
  · have : w' = w := hw'.trans hg
    subst this
    simp [proxy?, hw]
  · rfl

lemma alike_resend {h : WriterHistory} (hw : n.writers.get? w = some h) (hg : h.guid = w) :
    n.Alike (n.send h h.pending) := by
  intro w' r
  have hget := get?_writers_send_same hw hg h.pending w'
  exact ⟨by rw [proxy?, hget, proxy?], rfl⟩

lemma alike_take {c : ReaderCache} (hr : n.readers.get? r = some c) (max : Nat) :
    n.Alike { n with readers := n.readers.put Guid.before r (c.take max).1 } := by
  intro w r'
  refine ⟨rfl, ?_⟩
  simp only [peer?, Table.get?_put]
  split_ifs with h
  · subst h
    rw [hr]
    rfl
  · rfl

lemma alike_deliver {i : Nat} {keep noAck : Bool} {d : Delivery} {n' : Net}
    (hd : n.deliver i keep noAck = some (n', d)) : n.Alike n' := by
  obtain ⟨f, c, h, hf, hr, hw⟩ := deliver_some hd
  obtain ⟨done, hd'⟩ := deliver_eq keep noAck hf hr hw
  obtain ⟨rfl, -⟩ := Prod.mk.inj (Option.some.inj (hd'.symm.trans hd))
  intro w r
  constructor
  · cases noAck with
    | true => rfl
    | false =>
      have := proxy?_acknowledged hw f.out.reader
        (c.receive f.writer f.out.number f.out.change).2.2 w r
      refine (congrArg Option.isSome this).trans ?_
      split_ifs <;> simp
  · have := peer?_received hr f.writer f.out.number f.out.change w r
    refine (congrArg Option.isSome this).trans ?_
    split_ifs <;> simp

/-- A pair that is joined has each other from then on. -/
lemma matches_connect {h : WriterHistory} {c : ReaderCache} (hw : n.writers.get? w = some h)
    (hg : h.guid = w) (hr : n.readers.get? r = some c) (b : Bool) (w' r' : Guid) :
    let n' := ({ n with readers := n.readers.put Guid.before r (c.addWriter w b) } : Net).send
      (h.matchReader r c.qos).1 (h.matchReader r c.qos).2
    (n'.proxy? w' r').isSome = (decide (w' = w ∧ r' = r) || (n.proxy? w' r').isSome) ∧
      (n'.peer? w' r').isSome = (decide (w' = w ∧ r' = r) || (n.peer? w' r').isSome) := by
  intro n'
  constructor
  · rw [proxy?_send, WriterHistory.matchReader_guid, hg]
    by_cases hww : w' = w
    · subst hww
      rw [if_pos rfl]
      by_cases hrr : r' = r
      · subst hrr
        cases hp : h.proxies.get? r' with
        | some p => simp [WriterHistory.matchReader_of_some hp, hp]
        | none => simp [WriterHistory.get?_matchReader_self _ hp]
      · simp [WriterHistory.get?_matchReader_of_ne _ hrr, proxy?, hw, hrr]
    · simp [hww, proxy?]
  · show (((n.readers.put Guid.before r (c.addWriter w b)).get? r').bind
      (·.writers.get? w')).isSome = _
    rw [Table.get?_put]
    by_cases hrr : r' = r
    · subst hrr
      by_cases hww : w' = w <;> simp [ReaderCache.get?_addWriter, peer?, hr, hww]
    · simp [hrr, peer?]

end Net

namespace Trace

def remembered (t : Trace) : List Marked :=
  t.flight ++ t.enqueued ++ t.accepted.map fun a => ⟨a.round, a.got.flight⟩

/-- No pair was joined but those in the list, and each of them once: whatever is remembered of a
pair whose reader has the writer is of the current connection. -/
structure Once (t : Trace) (js : List (Guid × Guid)) : Prop where
  kept : t.Kept
  home : t.net.Homely
  paired : ∀ w r, (t.net.proxy? w r).isSome = (t.net.peer? w r).isSome
  met : ∀ w r, (t.net.peer? w r).isSome = true → (w, r) ∈ js
  known : ∀ m ∈ t.remembered, (m.flight.writer, m.flight.out.reader) ∈ js
  current : ∀ m ∈ t.remembered,
    (t.net.peer? m.flight.writer m.flight.out.reader).isSome = true →
      m.mark = t.round m.flight.writer m.flight.out.reader

variable {t t' : Trace} {w r : Guid} {js js' : List (Guid × Guid)}

lemma Once.mono (ho : t.Once js) (hjs : ∀ p ∈ js, p ∈ js') : t.Once js' :=
  ⟨ho.kept, ho.home, ho.paired, fun w r h => hjs _ (ho.met w r h),
    fun m hm => hjs _ (ho.known m hm), ho.current⟩

/-- Nothing strays between two that were joined once. -/
lemma Once.not_strays (ho : t.Once js) (e : Net.Event) : ¬t.Strays e := by
  cases e with
  | deliver i keep noAck =>
    rintro ⟨m, h, c, q, hm, hne, -, hr, hq, -⟩
    refine hne (ho.current m ?_ (by simp [Net.peer?, hr, hq]))
    exact List.mem_append_left _ (List.mem_append_left _ (List.mem_of_getElem? hm))
  | _ => exact id

/-- Within a connection everything that is new belongs to it. -/
lemma Once.onward (ho : t.Once js) (hkept : t'.Kept) (hhome : t'.net.Homely)
    (hround : t'.round = t.round) (hjs : ∀ p ∈ js, p ∈ js')
    (hpaired : ∀ w r, (t'.net.proxy? w r).isSome = (t'.net.peer? w r).isSome)
    (hpeer : ∀ w r, (t'.net.peer? w r).isSome = true →
      (t.net.peer? w r).isSome = true ∨ (w, r) ∈ js' ∧ (w, r) ∉ js)
    (hnew : ∀ m ∈ t'.remembered, m ∈ t.remembered ∨
      m.mark = t.round m.flight.writer m.flight.out.reader ∧
        (t'.net.peer? m.flight.writer m.flight.out.reader).isSome = true) : t'.Once js' := by
  have hmet : ∀ w r, (t'.net.peer? w r).isSome = true → (w, r) ∈ js' := by
    intro w r h
    rcases hpeer w r h with h | ⟨h, -⟩
    · exact hjs _ (ho.met w r h)
    · exact h
  refine ⟨hkept, hhome, hpaired, hmet, fun m hm => ?_, fun m hm h => ?_⟩
  · rcases hnew m hm with hold | ⟨-, h⟩
    · exact hjs _ (ho.known m hold)
    · exact hmet _ _ h
  · rw [hround]
    rcases hnew m hm with hold | ⟨hmark, -⟩
    · rcases hpeer _ _ h with h | ⟨-, hnot⟩
      · exact ho.current m hold h
      · exact absurd (ho.known m hold) hnot
    · exact hmark

lemma Once.alike (ho : t.Once js) (hkept : t'.Kept) (hhome : t'.net.Homely)
    (hround : t'.round = t.round) (halike : t.net.Alike t'.net)
    (hnew : ∀ m ∈ t'.remembered, m ∈ t.remembered ∨
      m.mark = t.round m.flight.writer m.flight.out.reader ∧
        (t.net.peer? m.flight.writer m.flight.out.reader).isSome = true) : t'.Once js := by
  refine ho.onward hkept hhome hround (fun p hp => hp) (fun w r => ?_) (fun w r h => .inl ?_)
    fun m hm => (hnew m hm).imp id fun h => ⟨h.1, (halike _ _).2.trans h.2⟩
  · rw [(halike w r).1, (halike w r).2, ho.paired]
  · rw [← (halike w r).2, h]

lemma mem_sent {n : Net} {fs : List Flight} (hn : n.flight = t.net.flight ++ fs) {m : Marked}
    (hm : m ∈ t.sent n) : m.flight ∈ fs ∧ m.mark = t.round m.flight.writer m.flight.out.reader := by
  rw [sent_of_append hn] at hm
  obtain ⟨f, hf, rfl⟩ := List.mem_map.mp hm
  exact ⟨hf, rfl⟩

lemma mem_remembered_resend {n : Net} {fs : List Flight} (hn : n.flight = t.net.flight ++ fs)
    {m : Marked} (hm : m ∈ (t.resend n).remembered) :
    m ∈ t.remembered ∨
      m.flight ∈ fs ∧ m.mark = t.round m.flight.writer m.flight.out.reader := by
  simp only [remembered, resend, List.mem_append] at hm ⊢
  rcases hm with ((hm | hm) | hm) | hm
  · exact .inl (.inl (.inl hm))
  · exact .inr (mem_sent hn hm)
  · exact .inl (.inl (.inr hm))
  · exact .inl (.inr hm)

lemma mem_remembered_send {n : Net} {fs : List Flight} (hn : n.flight = t.net.flight ++ fs)
    {m : Marked} (hm : m ∈ (t.send n).remembered) :
    m ∈ t.remembered ∨
      m.flight ∈ fs ∧ m.mark = t.round m.flight.writer m.flight.out.reader := by
  have hcases : m ∈ (t.resend n).remembered ∨ m ∈ t.sent n := by
    simp only [remembered, send, resend, List.mem_append] at hm ⊢
    tauto
  rcases hcases with h | h
  · exact mem_remembered_resend hn h
  · exact .inr (mem_sent hn h)

/-! ### One event -/

variable {h : WriterHistory}

lemma Once.history (ho : t.Once js) (hw : t.net.writers.get? w = some h) : h.guid = w ∧ h.Wf :=
  ho.kept.sound.wf.history w h hw

lemma Once.joined (ho : t.Once js) (hp : (t.net.proxy? w r).isSome = true) :
    (t.net.peer? w r).isSome = true := (ho.paired w r).symm.trans hp

lemma Once.reader (ho : t.Once js) (hp : (t.net.proxy? w r).isSome = true) :
    t.net.readers.has r = true := by
  obtain ⟨q, hq⟩ := Option.isSome_iff_exists.mp (ho.joined hp)
  obtain ⟨c, hc, -⟩ := Option.bind_eq_some_iff.mp hq
  exact Table.has_eq_true.mpr ⟨c, hc⟩

lemma Once.home_send (ho : t.Once js) (hw : t.net.writers.get? w = some h) (h' : WriterHistory)
    (hg : h'.guid = w) {out : List Outgoing}
    (hout : ∀ o ∈ out, (t.net.proxy? w o.reader).isSome = true) : (t.net.send h' out).Homely := by
  have hself : t.net.writers.has h'.guid = true := Table.has_eq_true.mpr ⟨h, hg ▸ hw⟩
  intro f hf
  rcases List.mem_append.mp hf with hf | hf
  · obtain ⟨h1, h2⟩ := ho.home f hf
    exact ⟨Table.has_put h1, h2⟩
  · obtain ⟨o, hmem, rfl⟩ := List.mem_map.mp hf
    exact ⟨Table.has_put hself, ho.reader (hout o hmem)⟩

lemma Once.addChange (ho : t.Once js) (hw : t.net.writers.get? w = some h) (key : InstanceKey)
    (kind : ChangeKind) (payload : Option Json) :
    (t.send (t.net.send (h.addChange key kind payload).1 (h.addChange key kind payload).2)).Once
      js := by
  have hg := (ho.history hw).1
  have hout : ∀ o ∈ (h.addChange key kind payload).2, (t.net.proxy? w o.reader).isSome = true :=
    fun o hmem => (Net.isSome_proxy? hw _).trans (WriterHistory.isMatched_of_addChange hmem)
  refine ho.alike (ho.kept.addChange hw key kind payload)
    (ho.home_send hw (h.addChange key kind payload).1 hg hout) rfl
    (Net.alike_addChange hw hg key kind payload) fun m hm => ?_
  rcases mem_remembered_send rfl hm with hold | ⟨hf, hmark⟩
  · exact .inl hold
  · obtain ⟨o, hmem, hfo⟩ := List.mem_map.mp hf
    refine .inr ⟨hmark, ?_⟩
    rw [← hfo]
    exact ho.joined (hg.symm ▸ hout o hmem)

lemma Once.retransmit (ho : t.Once js) (hw : t.net.writers.get? w = some h)
    (hkept : (t.resend (t.net.send h h.pending)).Kept) :
    (t.resend (t.net.send h h.pending)).Once js := by
  have hg := (ho.history hw).1
  have hout : ∀ o ∈ h.pending, (t.net.proxy? w o.reader).isSome = true :=
    fun o hmem => (Net.isSome_proxy? hw _).trans (WriterHistory.isMatched_of_pending hmem)
  refine ho.alike hkept (ho.home_send hw h hg hout) rfl (Net.alike_resend hw hg) fun m hm => ?_
  rcases mem_remembered_resend rfl hm with hold | ⟨hf, hmark⟩
  · exact .inl hold
  · obtain ⟨o, hmem, hfo⟩ := List.mem_map.mp hf
    refine .inr ⟨hmark, ?_⟩
    rw [← hfo]
    exact ho.joined (hg.symm ▸ hout o hmem)

lemma step_connect {n : Net} {d : Net.Connection} (h : t.net.connect w r = some (n, d)) :
    t.step (.connect w r) = t.send n := by
  simp [step, h]

lemma step_deliver {i : Nat} {keep noAck : Bool} {m : Marked} {n : Net} {d : Net.Delivery}
    (hm : t.flight[i]? = some m) (h : t.net.deliver i keep noAck = some (n, d)) :
    t.step (.deliver i keep noAck) =
      t.receive m n d.reception (if keep then t.flight else t.flight.eraseIdx i) := by
  simp [step, hm, h]

lemma Once.connect (ho : t.Once js) (hnew : (w, r) ∉ js) :
    (t.step (.connect w r)).Once ((w, r) :: js) := by
  have hkept := ho.kept.connect w r
  have hmono : t.Once ((w, r) :: js) := ho.mono fun p hp => List.mem_cons_of_mem _ hp
  cases hw : t.net.writers.get? w with
  | none => simpa [step, Net.connect, hw] using hmono
  | some h =>
    cases hr : t.net.readers.get? r with
    | none => simpa [step, Net.connect, hw, hr] using hmono
    | some c =>
      cases hq : Qos.conflict? h.qos c.qos with
      | some p =>
        -- qualities of service that conflict: nothing is sent and nobody is added
        rw [step_connect (Net.connect_of_conflict hw hr hq)] at hkept ⊢
        have hnone : t.sent t.net = [] := by simp [sent]
        refine hmono.alike hkept ho.home rfl (fun _ _ => ⟨rfl, rfl⟩) fun m hm => .inl ?_
        simpa [remembered, send, resend, hnone] using hm
      | none =>
        obtain ⟨d, hd⟩ := Net.connect_of_compatible hw hr hq
        obtain ⟨hg, -⟩ := ho.history hw
        rw [step_connect hd] at hkept ⊢
        have hmatch := Net.matches_connect hw hg hr h.qos.isReliable
        have hguid : (h.matchReader r c.qos).1.guid = w := (h.matchReader_guid r c.qos).trans hg
        have hout : ∀ o ∈ (h.matchReader r c.qos).2, o.reader = r :=
          fun o ho' => WriterHistory.reader_of_matchReader ho'
        have hself : t.net.writers.has w = true := Table.has_eq_true.mpr ⟨h, hw⟩
        have hself' : t.net.readers.has r = true := Table.has_eq_true.mpr ⟨c, hr⟩
        refine ho.onward hkept (fun f hf => ?_) rfl (fun p hp => List.mem_cons_of_mem _ hp)
          (fun w' r' => ?_) (fun w' r' hp => ?_) fun m hm => ?_
        · -- what is in flight, with the replay behind it, is between those who are there
          rcases List.mem_append.mp hf with hf | hf
          · obtain ⟨h1, h2⟩ := ho.home f hf
            exact ⟨Table.has_put h1, Table.has_put h2⟩
          · obtain ⟨o, hmem, rfl⟩ := List.mem_map.mp hf
            exact ⟨Table.has_put (hguid.symm ▸ hself), Table.has_put (hout o hmem ▸ hself')⟩
        · exact (hmatch w' r').1.trans ((ho.paired w' r') ▸ (hmatch w' r').2.symm)
        · replace hp := (hmatch w' r').2.symm.trans hp
          by_cases hpair : w' = w ∧ r' = r
          · obtain ⟨rfl, rfl⟩ := hpair
            exact .inr ⟨List.mem_cons_self, hnew⟩
          · exact .inl (by simpa [hpair] using hp)
        · -- what is remembered besides is the replay, which belongs to the new connection
          rcases mem_remembered_send rfl hm with hold | ⟨hf, hmark⟩
          · exact .inl hold
          · obtain ⟨o, hmem, hfo⟩ := List.mem_map.mp hf
            refine .inr ⟨hmark, ?_⟩
            rw [← hfo]
            refine (hmatch _ _).2.trans ?_
            simp [hguid, hout o hmem]

lemma Once.disconnect (ho : t.Once js) : (t.step (.disconnect w r)).Once js := by
  have hkept := ho.kept.disconnect w r
  simp only [step] at hkept ⊢
  cases hw : t.net.writers.get? w with
  | none => simpa [Net.disconnect, hw] using ho
  | some h =>
    cases hr : t.net.readers.get? r with
    | none => simpa [Net.disconnect, hw, hr] using ho
    | some c =>
      rw [Net.disconnect_eq hw hr] at hkept ⊢
      replace hkept : Kept (t.part (parted t.net w r h c) w r) := hkept
      show Once (t.part (parted t.net w r h c) w r) js
      -- both sides forget the pair, and no other pair is touched
      have hproxy : ∀ w' r', (parted t.net w r h c).proxy? w' r' =
          if w' = w ∧ r' = r then none else t.net.proxy? w' r' := by
        intro w' r'
        rw [Net.proxy?, get?_writers_parted]
        by_cases hw' : w' = w
        · subst hw'
          by_cases hr' : r' = r <;> simp [WriterHistory.get?_unmatchReader, hr', Net.proxy?, hw]
        · simp [hw', Net.proxy?]
      have hpeer : ∀ w' r', (parted t.net w r h c).peer? w' r' =
          if w' = w ∧ r' = r then none else t.net.peer? w' r' := by
        intro w' r'
        rw [Net.peer?, get?_readers_parted]
        by_cases hr' : r' = r
        · subst hr'
          by_cases hw' : w' = w <;> simp [ReaderCache.get?_removeWriter, hw', Net.peer?, hr]
        · simp [hr', Net.peer?]
      refine ⟨hkept, fun f hf => ?_, fun w' r' => ?_, fun w' r' hp => ho.met w' r' ?_, ho.known,
        fun m hm hp => ?_⟩
      · obtain ⟨h1, h2⟩ := ho.home f hf
        exact ⟨Table.has_put h1, Table.has_put h2⟩
      · show ((parted t.net w r h c).proxy? w' r').isSome = ((parted t.net w r h c).peer? w' r').isSome
        rw [hproxy, hpeer]
        split_ifs
        · rfl
        · exact ho.paired w' r'
      · replace hp : ((parted t.net w r h c).peer? w' r').isSome = true := hp
        rw [hpeer] at hp
        split_ifs at hp with hpair
        · simp at hp
        · exact hp
      · -- what is remembered of the pair no longer has to be current
        replace hp : ((parted t.net w r h c).peer? m.flight.writer m.flight.out.reader).isSome =
          true := hp
        rw [hpeer] at hp
        split_ifs at hp with hpair
        · simp at hp
        · have := ho.current m hm hp
          simpa [part, hpair] using this

lemma Once.deliver (ho : t.Once js) (i : Nat) (keep noAck : Bool) :
    (t.step (.deliver i keep noAck)).Once js := by
  have hkept := ho.kept.deliver (ho.not_strays (.deliver i keep noAck))
  cases hm : t.flight[i]? with
  | none => simpa [step, hm] using ho
  | some m =>
    cases hx : t.net.deliver i keep noAck with
    | none => simpa [step, hm, hx] using ho
    | some x =>
      obtain ⟨n, d⟩ := x
      rw [step_deliver hm hx] at hkept ⊢
      have hrest : ∀ m' ∈ (if keep then t.flight else t.flight.eraseIdx i), m' ∈ t.flight := by
        intro m' hm'
        split_ifs at hm' with hkeep
        · exact hm'
        · exact List.mem_of_mem_eraseIdx hm'
      obtain ⟨f, c, h, hf, hc, hh⟩ := Net.deliver_some hx
      obtain rfl : m.flight = f := by
        rw [← ho.kept.flight, List.getElem?_map, hm] at hf
        exact Option.some.inj hf
      obtain ⟨done, hd⟩ := Net.deliver_eq keep noAck hf hc hh
      obtain ⟨hn, hrec⟩ := Prod.mk.inj (Option.some.inj (hd.symm.trans hx))
      refine ho.alike hkept (fun f hf => ?_) rfl (Net.alike_deliver hx) fun m' hm' => ?_
      · have hmem : f ∈ t.net.flight := by
          rw [← ho.kept.flight]
          replace hf := hkept.flight.symm ▸ hf
          obtain ⟨m', hm', rfl⟩ := List.mem_map.mp hf
          exact List.mem_map_of_mem (hrest m' hm')
        obtain ⟨h1, h2⟩ := ho.home f hmem
        replace hf : f ∈ n.flight := hf
        show n.writers.has f.writer = true ∧ n.readers.has f.out.reader = true
        rw [← hn]
        refine ⟨?_, Table.has_put h2⟩
        cases noAck with
        | true => exact h1
        | false => exact Table.has_put h1
      · have hcases : m' ∈ t.remembered ∨ m' ∈ (t.receive m n d.reception
            (if keep then t.flight else t.flight.eraseIdx i)).accepted.map
              fun a => (⟨a.round, a.got.flight⟩ : Marked) := by
          simp only [remembered, receive, List.mem_append] at hm' ⊢
          rcases hm' with (hm' | hm') | hm'
          · exact .inl (.inl (.inl (hrest m' hm')))
          · exact .inl (.inl (.inr hm'))
          · exact .inr hm'
        rcases hcases with hold | hgot
        · exact .inl hold
        · obtain ⟨a, ha, rfl⟩ := List.mem_map.mp hgot
          rcases mem_receive ha with ha | ⟨hacc, rfl⟩
          · refine .inl (List.mem_append_right _ ?_)
            exact List.mem_map_of_mem (f := fun a : Receipt => (⟨a.round, a.got.flight⟩ : Marked)) ha
          · -- what is accepted comes from a writer that the reader has
            rw [← hrec] at hacc
            obtain ⟨q, hq, -⟩ := ReaderCache.receive_accepted_iff.mp hacc
            exact .inr ⟨rfl, by simp [Net.peer?, hc, hq]⟩

/-- Every event keeps to the pairs that were joined, as long as none is joined again. -/
theorem Once.step (ho : t.Once js) (e : Net.Event) (hnew : ∀ p, e.joined? = some p → p ∉ js) :
    (t.step e).Once (e.joined?.toList ++ js) := by
  have hkept := ho.kept.step (ho.not_strays e)
  cases e with
  | connect w r => exact ho.connect (hnew (w, r) rfl)
  | disconnect w r => exact ho.disconnect
  | write w key payload =>
    simp only [Trace.step]
    cases hw : t.net.writers.get? w with
    | none => simpa [Net.write, hw, Net.Event.joined?] using ho
    | some h =>
      simpa [Net.write, WriterHistory.write, hw, Net.Event.joined?] using
        ho.addChange hw key .alive (some payload)
  | dispose w key handle =>
    simp only [Trace.step]
    cases hw : t.net.writers.get? w with
    | none => simpa [Net.dispose, hw, Net.Event.joined?] using ho
    | some h =>
      by_cases hk : handle ≠ 0 ∧ handle ≠ key.handle
      · simpa [Net.dispose, WriterHistory.dispose, hw, hk, Net.Event.joined?] using ho
      · simpa [Net.dispose, WriterHistory.dispose, hw, hk, Net.Event.joined?] using
          ho.addChange hw key .disposed none
  | deliver i keep noAck => exact ho.deliver i keep noAck
  | drop i =>
    -- a loss only takes away from what is remembered
    refine ho.alike hkept (fun f hf => ho.home f (List.mem_of_mem_eraseIdx hf)) rfl
      (fun _ _ => ⟨rfl, rfl⟩) fun m hm => .inl ?_
    simp only [remembered, Trace.step, List.mem_append] at hm ⊢
    rcases hm with (hm | hm) | hm
    · exact .inl (.inl (List.mem_of_mem_eraseIdx hm))
    · exact .inl (.inr hm)
    · exact .inr hm
  | retransmit w =>
    simp only [Trace.step] at hkept ⊢
    cases hw : t.net.writers.get? w with
    | none => simpa [Net.retransmit, hw, Net.Event.joined?] using ho
    | some h =>
      rw [show t.net.retransmit w = some (t.net.send h h.pending, h.pending.length) by
        simp [Net.retransmit, hw]] at hkept ⊢
      exact ho.retransmit hw hkept
  | take r max =>
    simp only [Trace.step] at hkept ⊢
    cases hr : t.net.readers.get? r with
    | none => simpa [Net.take, hr, Net.Event.joined?] using ho
    | some c =>
      simp only [Net.take, hr] at hkept ⊢
      refine ho.alike hkept (fun f hf => ?_) rfl (Net.alike_take hr max) fun m hm => .inl hm
      obtain ⟨h1, h2⟩ := ho.home f hf
      exact ⟨h1, Table.has_put h2⟩

lemma Once.run (ho : t.Once js) {es : List Net.Event}
    (hes : (es.filterMap Net.Event.joined?).Nodup)
    (hnew : ∀ p ∈ es.filterMap Net.Event.joined?, p ∉ js) :
    ∃ js', (t.run es).Once js' := by
  induction es generalizing t js with
  | nil => exact ⟨js, ho⟩
  | cons e es ih =>
    rw [List.filterMap_cons] at hes hnew
    cases hj : e.joined? with
    | none =>
      rw [hj] at hes hnew
      have := ho.step e (by simp [hj])
      rw [hj] at this
      exact ih this hes hnew
    | some p =>
      rw [hj] at hes hnew
      obtain ⟨hp, hes⟩ := List.nodup_cons.mp hes
      have := ho.step e fun p' hp' => by
        obtain rfl := Option.some.inj (hj.symm.trans hp')
        exact hnew p List.mem_cons_self
      rw [hj] at this
      refine ih this hes fun p' hp' => ?_
      simp only [Option.toList_some, List.singleton_append, List.mem_cons, not_or]
      exact ⟨fun hpp => hp (hpp ▸ hp'), hnew p' (List.mem_cons_of_mem _ hp')⟩

lemma once_start (writers readers : List (Guid × Qos)) : (start writers readers).Once [] := by
  have hnone : ∀ w r, (start writers readers).net.proxy? w r = none := by
    intro w r
    rw [Net.proxy?]
    cases hw : (start writers readers).net.writers.get? w with
    | none => rfl
    | some h =>
      obtain ⟨q, rfl⟩ := Session.writer_start hw
      rfl
  have hnone' : ∀ w r, (start writers readers).net.peer? w r = none := by
    intro w r
    rw [Net.peer?]
    cases hr : (start writers readers).net.readers.get? r with
    | none => rfl
    | some c =>
      obtain ⟨q, rfl⟩ := Session.reader_start hr
      rfl
  refine ⟨kept_start writers readers, ?_, fun w r => by rw [hnone, hnone']; rfl, fun w r h => ?_,
    by simp [remembered, start], by simp [remembered, start]⟩
  · intro f hf
    exact absurd hf (by simp [start, Net.new])
  · rw [hnone'] at h
    simp at h

/-! ### What was enqueued and what was accepted -/

/-- The changes that a writer has ever enqueued for a reader, in order. -/
def owed (t : Trace) (w r : Guid) : List Change :=
  (carried w r (t.enqueued.map (·.flight))).map (·.2)

/-- The changes that a reader has ever accepted from a writer, in order. -/
def taken (t : Trace) (w r : Guid) : List Change :=
  (carried w r (t.accepted.map (·.got.flight))).map (·.2)

lemma carried_now {round : Guid → Guid → Nat} {ms : List Marked}
    (hms : ∀ m ∈ ms, m.flight.writer = w → m.flight.out.reader = r → m.mark = round w r) :
    carried w r (now round ms) = carried w r (ms.map (·.flight)) := by
  unfold carried now
  rw [List.filterMap_map, List.filterMap_map, List.filterMap_filter]
  refine List.filterMap_congr fun m hm => ?_
  by_cases hp : m.flight.writer = w ∧ m.flight.out.reader = r
  · have := hms m hm hp.1 hp.2
    simp [hp, this]
  · simp [hp]

lemma Once.of_current (ho : t.Once js) (hq : (t.net.peer? w r).isSome = true) (ms : List Marked)
    (hms : ∀ m ∈ ms, m ∈ t.remembered) :
    carried w r (now t.round ms) = carried w r (ms.map (·.flight)) := by
  refine carried_now fun m hm hmw hmr => ?_
  subst hmw hmr
  exact ho.current m (hms m hm) hq

lemma Once.owed_eq (ho : t.Once js) (hq : (t.net.peer? w r).isSome = true) :
    t.session.owed w r = t.owed w r := by
  have hms : ∀ m ∈ t.enqueued, m ∈ t.remembered := fun m hm =>
    List.mem_append_left _ (List.mem_append_right _ hm)
  exact congrArg _ (ho.of_current hq t.enqueued hms)

lemma Once.taken_eq (ho : t.Once js) (hq : (t.net.peer? w r).isSome = true) :
    t.session.taken w r = t.taken w r := by
  have h := ho.of_current hq (t.accepted.map fun a => ⟨a.round, a.got.flight⟩) fun m hm =>
    List.mem_append_right _ hm
  rw [List.map_map] at h
  exact congrArg _ h

lemma Once.sent_eq (ho : t.Once js) (hq : (t.net.peer? w r).isSome = true) :
    (t.session.link w r).sent = carried w r t.net.flight := by
  have h := ho.of_current hq t.flight fun m hm =>
    List.mem_append_left _ (List.mem_append_left _ hm)
  rwa [ho.kept.flight] at h

/-- Whatever has happened to it, a pair that was joined once is behind at most. -/
lemma Once.resent (ho : t.Once js) : t.net.Resent [] := by
  refine ⟨ho.home, ho.kept.sound.wf.history, fun w r p hp => ?_⟩
  have hq := ho.joined (Option.isSome_iff_exists.mpr ⟨p, hp⟩)
  obtain ⟨q, hpeer⟩ := Option.isSome_iff_exists.mp hq
  obtain ⟨h, hw, hget⟩ := Option.bind_eq_some_iff.mp hp
  obtain ⟨c, hr, hget'⟩ := Option.bind_eq_some_iff.mp hpeer
  have hl := ho.kept.sound.link w r h c hw hr
  have hproxy : (t.session.link w r).proxy = some p := hp
  have hreader : (t.session.link w r).peer = some q := hpeer
  obtain ⟨hb, k, hk, hle⟩ := hl.proxy p hproxy
  have hfollows := hl.peer q hreader
  refine ⟨q, hpeer, hfollows.reliable.trans hb.symm, fun hloose => ?_, fun hrel => ?_⟩
  · rw [hk.pending, hloose]
    rfl
  · have htrue : Session.both h c = true := hb.symm.trans hrel
    rw [htrue] at hfollows
    have htaken := hfollows.length
    have hpos := hfollows.pos
    have hnext := hfollows.le
    refine ⟨_, k, hk, ⟨?_, hnext⟩, fun e he => ?_, fun hnil => by simp at hnil⟩
    · have := hle htrue
      show k < q.next
      omega
    · rw [← ho.sent_eq hq] at he
      obtain ⟨-, hget⟩ := mem_numbered.mp (hl.sent e he)
      obtain ⟨hlt, -⟩ := List.getElem?_eq_some_iff.mp hget
      omega

/-! ### The round -/

lemma step_retransmit (t : Trace) (w : Guid) :
    (t.step (.retransmit w)).net = t.net.resend w := by
  simp only [step, Net.resend]
  cases t.net.retransmit w <;> rfl

lemma run_retransmit (t : Trace) (ws : List Guid) :
    (t.run (ws.map .retransmit)).net = ws.foldl Net.resend t.net := by
  induction ws generalizing t with
  | nil => rfl
  | cons w ws ih => exact (ih _).trans (congrArg (ws.foldl Net.resend) (t.step_retransmit w))

/-- Delivering from the front is the same for the net and for the net that remembers. -/
lemma Once.run_deliver (ho : t.Once js) (k : Nat) :
    (t.run (List.replicate k (.deliver 0 false false))).net = (t.net.deliverAll false k).1 := by
  induction k generalizing t with
  | zero => rfl
  | succ k ih =>
    have hstep := ho.deliver 0 false false
    refine (ih hstep).trans ?_
    rw [Net.deliverAll]
    cases hm : t.flight[0]? with
    | none =>
      -- nothing is in flight, and nothing comes of that
      have hflight : t.net.flight = [] := by
        rw [← ho.kept.flight]
        cases hf : t.flight with
        | nil => rfl
        | cons m ms => simp [hf] at hm
      have hnone : t.net.deliver 0 false false = none := by simp [Net.deliver, hflight]
      have hsame : t.step (.deliver 0 false false) = t := by simp [Trace.step, hm]
      rw [hnone, hsame]
      cases k with
      | zero => rfl
      | succ k => rw [Net.deliverAll, hnone]
    | some m =>
      cases hx : t.net.deliver 0 false false with
      | none =>
        have hsame : t.step (.deliver 0 false false) = t := by simp [Trace.step, hm, hx]
        rw [hsame]
        cases k with
        | zero => rfl
        | succ k => rw [Net.deliverAll, hx]
      | some x =>
        obtain ⟨n, d⟩ := x
        rw [step_deliver hm hx]
        rfl

lemma run_append (t : Trace) (es es' : List Net.Event) :
    t.run (es ++ es') = (t.run es).run es' := List.foldl_append

/-- Events that join nobody keep to the pairs that were joined. -/
lemma Once.run_of_none (ho : t.Once js) {es : List Net.Event}
    (hes : ∀ e ∈ es, Net.Event.joined? e = none) : (t.run es).Once js := by
  induction es generalizing t with
  | nil => exact ho
  | cons e es ih =>
    obtain ⟨he, hes⟩ := List.forall_mem_cons.mp hes
    have hstep := ho.step e (by simp [he])
    rw [he] at hstep
    exact ih hstep hes

/-- A reliable pair that recovers has taken everything once nothing is in flight any more. -/
lemma Once.taken_eq_owed (ho : t.Once js) (hflight : t.net.flight = []) (hrec : t.net.Recovering)
    {h : WriterHistory} {c : ReaderCache} (hw : t.net.writers.get? w = some h)
    (hr : t.net.readers.get? r = some c) (hmatched : (h.isMatched r || c.hasWriter w) = true)
    (hboth : (h.qos.isReliable && c.qos.isReliable) = true) : t.taken w r = t.owed w r := by
  -- a match on one side is a match on both, as long as no pair is joined twice
  have hp : (t.net.proxy? w r).isSome = true := by
    rcases Bool.or_eq_true_iff.mp hmatched with hm | hm
    · obtain ⟨p, hp⟩ := Table.has_eq_true.mp hm
      simp [Net.proxy?, hw, hp]
    · obtain ⟨q, hq⟩ := Table.has_eq_true.mp hm
      rw [ho.paired]
      simp [Net.peer?, hr, hq]
  have hq := ho.joined hp
  obtain ⟨p, hproxy⟩ := Option.isSome_iff_exists.mp hp
  obtain ⟨q, hpeer, hrecovers⟩ := hrec.2 w r p hproxy
  have hl := ho.kept.sound.link w r h c hw hr
  rw [show Session.both h c = true from hboth] at hl
  have hb : p.reliable = true := (hl.proxy p hproxy).1
  obtain ⟨owed, k', hk', hafter⟩ := hrecovers.exact hb
  rw [hflight] at hafter
  -- what the pair has come to is what it would have recovered to
  have hnext : q.next = owed.length + 1 := congrArg Progress.next hafter
  obtain ⟨-, k'', hk'', -⟩ := hl.proxy p hproxy
  have hlength : (t.session.owed w r).length = owed.length := by
    have h1 : p.next = (t.session.owed w r).length + 1 := hk''.next
    have h2 := hk'.next
    omega
  rw [← ho.taken_eq hq, ← ho.owed_eq hq]
  have hexact : t.session.taken w r = (t.session.owed w r).take (q.next - 1) :=
    (hl.peer q hpeer).exact rfl
  rw [hexact]
  exact List.take_of_length_le (by omega)

/-- **One round of retransmissions repairs any loss.** Whatever was lost, repeated, overtaken or
left without an answer in a run that joins no pair twice: once every writer has sent again what
it has pending, in whatever order, and all that is in flight has arrived and was answered, nothing
waits for an acknowledgment any more, and every reliable reader that is still matched has accepted
all that was ever enqueued for it. -/
theorem retransmission_repairs (writers readers : List (Guid × Qos)) (es : List Net.Event)
    (hes : (es.filterMap Net.Event.joined?).Nodup) (ws : List Guid)
    (hws : ∀ w ∈ ((start writers readers).run es).net.writers.keys, w ∈ ws) (k : Nat)
    (hk : ((start writers readers).run (es ++ ws.map .retransmit)).net.flight.length ≤ k) :
    let t := (start writers readers).run (es ++ ws.map .retransmit)
    let t' := t.run (List.replicate k (.deliver 0 false false))
    t'.net = (t.net.deliverAll false k).1 ∧ t'.net.flight = [] ∧
    (∀ w h, t'.net.writers.get? w = some h → h.unacknowledged = 0) ∧
    ∀ w r h c, t'.net.writers.get? w = some h → t'.net.readers.get? r = some c →
      (h.isMatched r || c.hasWriter w) = true → (h.qos.isReliable && c.qos.isReliable) = true →
      t'.taken w r = t'.owed w r := by
  intro t t'
  obtain ⟨js, ho⟩ := (once_start writers readers).run hes (by simp)
  have hrun : t = ((start writers readers).run es).run (ws.map .retransmit) := run_append _ _ _
  -- what the writers send again joins no pair, so nothing is joined twice in the end
  have hot : t.Once js := by
    rw [hrun]
    refine ho.run_of_none fun e he => ?_
    obtain ⟨w, -, rfl⟩ := List.mem_map.mp he
    rfl
  have hot' : t'.Once js := by
    refine hot.run_of_none fun e he => ?_
    rw [List.eq_of_mem_replicate he]
    rfl
  have hrecovering : t.net.Recovering := by
    obtain ⟨hresent, hget⟩ := ho.resent.foldl ws
    rw [← run_retransmit, ← hrun] at hresent hget
    refine hresent.recovering fun w h hw => ?_
    have hmem := hws w (Table.has_iff_mem_keys.mp (Table.has_eq_true.mpr ⟨h, hget w ▸ hw⟩))
    simpa using hmem
  have hnet : t'.net = (t.net.deliverAll false k).1 := hot.run_deliver k
  obtain ⟨hflight, hrec⟩ := hrecovering.deliverAll hk
  rw [← hnet] at hflight hrec
  exact ⟨hnet, hflight, fun w h hw => hrec.unacknowledged hflight hw (hot'.history hw).2,
    fun w r h c hw hr hmatched hboth => hot'.taken_eq_owed hflight hrec hw hr hmatched hboth⟩

/-- The first change is lost, the second overtakes the third and neither is taken, and one copy
of the second is still in flight. -/
def mess : List Net.Event :=
  [.connect ⟨1, 1⟩ ⟨2, 1⟩, .write ⟨1, 1⟩ "a" (.str "x"), .drop 0, .write ⟨1, 1⟩ "b" (.str "y"),
    .dispose ⟨1, 1⟩ "a" 0, .deliver 0 true true, .deliver 1 false true]

theorem retransmission_repairs_mess :
    let t := (start [(⟨1, 1⟩, .reliable)] [(⟨2, 1⟩, .reliable)]).run
      (mess ++ [⟨1, 1⟩].map .retransmit)
    let t' := t.run (List.replicate 4 (.deliver 0 false false))
    t.net.flight.map (·.out.number) = [2, 1, 2, 3] ∧
      (t.net.writers.get? ⟨1, 1⟩).map (·.unacknowledged) = some 3 ∧
      (∀ w h, t'.net.writers.get? w = some h → h.unacknowledged = 0) ∧
      (t'.taken ⟨1, 1⟩ ⟨2, 1⟩).map (·.sequence) = [1, 2, 3] := by
  intro t t'
  have hrepair := retransmission_repairs [(⟨1, 1⟩, .reliable)] [(⟨2, 1⟩, .reliable)] mess
    (by decide) [⟨1, 1⟩] (by decide) 4 (by decide)
  obtain ⟨-, -, hdone, htaken⟩ := hrepair
  refine ⟨rfl, rfl, hdone, ?_⟩
  rw [htaken ⟨1, 1⟩ ⟨2, 1⟩ _ _ rfl rfl rfl rfl]
  rfl

end Trace

end PubSub
