import PubSub.Proofs.Progress
import PubSub.Proofs.Reconnect

/-!
Who is there in a net. Writers and readers only come when the net is made, and none of them ever
goes: whatever is lost, repeated, parted or joined again, every change in flight comes from a
writer of the net and is for a reader of the net, so it can always arrive.
-/

namespace PubSub.Net

variable {n : Net} {w r : Guid} {h : WriterHistory}

/-- Nobody has to do with a reader that is not there, and every writer knows who it is. -/
structure Peopled (n : Net) : Prop where
  home : n.Homely
  guid : ∀ w h, n.writers.get? w = some h → h.guid = w
  reader : ∀ w h r, n.writers.get? w = some h → h.isMatched r = true → n.readers.has r = true

lemma peopled_new (writers readers : List (Guid × Qos)) : (Net.new writers readers).Peopled := by
  have hnew : ∀ w h, (Net.new writers readers).writers.get? w = some h → ∃ q, h = .new w q :=
    fun w h (hw : (Session.start writers readers).net.writers.get? w = some h) =>
      Session.writer_start hw
  refine ⟨by simp [Homely, Net.new], fun w h hw => ?_, fun w h r hw hm => ?_⟩
  · obtain ⟨q, rfl⟩ := hnew w h hw
    rfl
  · obtain ⟨q, rfl⟩ := hnew w h hw
    simp [WriterHistory.isMatched, WriterHistory.new, Table.has] at hm

lemma Peopled.fewer (hn : n.Peopled) {fs : List Flight} (hfs : ∀ f ∈ fs, f ∈ n.flight) :
    Peopled { n with flight := fs } :=
  ⟨fun f hf => hn.home f (hfs f hf), hn.guid, hn.reader⟩

lemma Peopled.putReader (hn : n.Peopled) (r : Guid) (c : ReaderCache) :
    Peopled { n with readers := n.readers.put Guid.before r c } :=
  ⟨fun f hf => ⟨(hn.home f hf).1, Table.has_put (hn.home f hf).2⟩, hn.guid,
    fun w h r' hw hm => Table.has_put (hn.reader w h r' hw hm)⟩

lemma Peopled.send (hn : n.Peopled) (hw : n.writers.get? w = some h) (h' : WriterHistory)
    (hguid : h'.guid = w) (hreader : ∀ r, h'.isMatched r = true → n.readers.has r = true)
    {out : List Outgoing} (hout : ∀ o ∈ out, h'.isMatched o.reader = true) :
    (n.send h' out).Peopled := by
  subst hguid
  have hself : n.writers.has h'.guid = true := Table.has_eq_true.mpr ⟨h, hw⟩
  refine ⟨fun f hf => ?_, fun w x hx => ?_, fun w x r hx hm => ?_⟩
  · rcases List.mem_append.mp hf with hf | hf
    · exact ⟨Table.has_put (hn.home f hf).1, (hn.home f hf).2⟩
    · obtain ⟨o, ho, rfl⟩ := List.mem_map.mp hf
      exact ⟨Table.has_put hself, hreader _ (hout o ho)⟩
  all_goals
    simp only [Net.send, Table.get?_put] at hx
    split_ifs at hx with hwx
  · exact hwx ▸ Option.some.inj hx ▸ rfl
  · exact hn.guid w x hx
  · exact hreader r (Option.some.inj hx ▸ hm)
  · exact hn.reader w x r hx hm

lemma Peopled.addChange (hn : n.Peopled) (hw : n.writers.get? w = some h) (key : InstanceKey)
    (kind : ChangeKind) (payload : Option Json) :
    (n.send (h.addChange key kind payload).1 (h.addChange key kind payload).2).Peopled := by
  refine hn.send hw (h.addChange key kind payload).1 (hn.guid w h hw) (fun r hm => ?_)
    fun o ho => ?_
  · exact hn.reader w h r hw ((WriterHistory.isMatched_addChange key kind payload r).symm.trans hm)
  · exact (WriterHistory.isMatched_addChange key kind payload o.reader).trans
      (WriterHistory.isMatched_of_addChange ho)

lemma Peopled.connect (hn : n.Peopled) {x : Net × Connection} (hx : n.connect w r = some x) :
    x.1.Peopled := by
  simp only [Net.connect, Option.bind_eq_bind, Option.bind_eq_some_iff] at hx
  obtain ⟨h, hw, c, hr, hx⟩ := hx
  have hself : n.readers.has r = true := Table.has_eq_true.mpr ⟨c, hr⟩
  split at hx
  · obtain rfl := Option.some.inj hx
    exact hn
  · obtain rfl := Option.some.inj hx
    have hguid := (h.matchReader_guid r c.qos).trans (hn.guid w h hw)
    refine (hn.putReader r (c.addWriter w h.qos.isReliable)).send hw (h.matchReader r c.qos).1 hguid
      (fun r' hm => Table.has_put ?_) fun o ho => ?_
    · rcases (WriterHistory.isMatched_matchReader r c.qos r').mp hm with rfl | hm
      · exact hself
      · exact hn.reader w h r' hw hm
    · exact (WriterHistory.isMatched_matchReader r c.qos o.reader).mpr
        (.inl (WriterHistory.reader_of_matchReader ho))

lemma Peopled.putWriter (hn : n.Peopled) (hw : n.writers.get? w = some h) (h' : WriterHistory)
    (hguid : h'.guid = h.guid) (hsub : ∀ r, h'.isMatched r = true → h.isMatched r = true) :
    Peopled { n with writers := n.writers.put Guid.before w h' } := by
  have hw' : h'.guid = w := hguid.trans (hn.guid w h hw)
  have hsend : (n.send h' []).Peopled :=
    hn.send hw h' hw' (fun r hm => hn.reader w h r hw (hsub r hm)) (by simp)
  simpa [Net.send, hw'] using hsend

lemma Peopled.disconnect (hn : n.Peopled) {x : Net × Bool × Option Nat}
    (hx : n.disconnect w r = some x) : x.1.Peopled := by
  simp only [Net.disconnect, Option.bind_eq_bind, Option.bind_eq_some_iff] at hx
  obtain ⟨h, hw, c, hr, hx⟩ := hx
  obtain rfl := Option.some.inj hx
  exact (hn.putWriter hw (h.unmatchReader r) rfl
    fun _ => WriterHistory.isMatched_of_unmatchReader).putReader r (c.removeWriter w).1

lemma Peopled.write (hn : n.Peopled) {key : InstanceKey} {payload : Json} {x : Net × Handle}
    (hx : n.write w key payload = some x) : x.1.Peopled := by
  simp only [Net.write, Option.bind_eq_bind, Option.bind_eq_some_iff] at hx
  obtain ⟨h, hw, hx⟩ := hx
  obtain rfl := Option.some.inj hx
  exact hn.addChange hw key .alive (some payload)

lemma Peopled.dispose (hn : n.Peopled) {key : InstanceKey} {handle : Handle} {n' : Net}
    (hx : n.dispose w key handle = some (.ok n')) : n'.Peopled := by
  simp only [Net.dispose, Option.bind_eq_bind, Option.bind_eq_some_iff] at hx
  obtain ⟨h, hw, hx⟩ := hx
  by_cases hk : handle ≠ 0 ∧ handle ≠ key.handle
  · simp [WriterHistory.dispose, hk] at hx
  · simp only [WriterHistory.dispose, if_neg hk] at hx
    obtain rfl := Except.ok.inj (Option.some.inj hx)
    exact hn.addChange hw key .disposed none

lemma Peopled.deliver (hn : n.Peopled) {i : Nat} {keep noAck : Bool} {x : Net × Delivery}
    (hx : n.deliver i keep noAck = some x) : x.1.Peopled := by
  obtain ⟨f, c, h, hf, hr, hw⟩ := deliver_some hx
  obtain ⟨done, hd⟩ := deliver_eq keep noAck hf hr hw
  obtain rfl := Option.some.inj (hd.symm.trans hx)
  have hleft : ∀ g ∈ (if keep then n.flight else n.flight.eraseIdx i), g ∈ n.flight := by
    intro g hg
    split_ifs at hg
    · exact hg
    · exact List.mem_of_mem_eraseIdx hg
  have hreceived := (hn.fewer hleft).putReader f.out.reader
    (c.receive f.writer f.out.number f.out.change).1
  cases noAck with
  | true => exact hreceived
  | false =>
    refine hreceived.putWriter hw _ rfl fun r hm => ?_
    rwa [WriterHistory.isMatched, WriterHistory.acknowledge, Table.has_adjust] at hm

lemma Peopled.retransmit (hn : n.Peopled) {x : Net × Nat} (hx : n.retransmit w = some x) :
    x.1.Peopled := by
  simp only [Net.retransmit, Option.bind_eq_bind, Option.bind_eq_some_iff] at hx
  obtain ⟨h, hw, hx⟩ := hx
  obtain rfl := Option.some.inj hx
  exact hn.send hw h (hn.guid w h hw) (fun r hm => hn.reader w h r hw hm)
    fun o ho => WriterHistory.isMatched_of_pending ho

lemma Peopled.take (hn : n.Peopled) {max : Nat} {x : Net × List (Sample Json)}
    (hx : n.take r max = some x) : x.1.Peopled := by
  simp only [Net.take, Option.bind_eq_bind, Option.bind_eq_some_iff] at hx
  obtain ⟨c, hr, hx⟩ := hx
  obtain rfl := Option.some.inj hx
  exact hn.putReader r (c.take max).1

/-- Every event keeps to those who are there, parted pairs and lost changes included. -/
lemma Peopled.step {t : Trace} (ht : t.net.Peopled) (e : Event) : (t.step e).net.Peopled := by
  cases e with
  | connect w r =>
    simp only [Trace.step]
    split
    · exact ht.connect ‹_›
    · exact ht
  | disconnect w r =>
    simp only [Trace.step]
    split
    · exact ht.disconnect ‹_›
    · exact ht
  | write w key payload =>
    simp only [Trace.step]
    split
    · exact ht.write ‹_›
    · exact ht
  | dispose w key handle =>
    simp only [Trace.step]
    split
    · exact ht.dispose ‹_›
    · exact ht
  | deliver i keep noAck =>
    simp only [Trace.step]
    split
    · exact ht.deliver ‹_›
    · exact ht
  | drop i => exact ht.fewer fun f hf => List.mem_of_mem_eraseIdx hf
  | retransmit w =>
    simp only [Trace.step]
    split
    · exact ht.retransmit ‹_›
    · exact ht
  | take r max =>
    simp only [Trace.step]
    split
    · exact ht.take ‹_›
    · exact ht

lemma Peopled.run {t : Trace} (ht : t.net.Peopled) (es : List Event) :
    (t.run es).net.Peopled := by
  induction es generalizing t with
  | nil => exact ht
  | cons e es ih => exact ih (ht.step e)

def Reachable (n : Net) : Prop :=
  ∃ writers readers es, ((Trace.start writers readers).run es).net = n

lemma Reachable.peopled (hn : n.Reachable) : n.Peopled := by
  obtain ⟨writers, readers, es, rfl⟩ := hn
  exact Peopled.run (t := Trace.start writers readers) (peopled_new writers readers) es

end PubSub.Net
