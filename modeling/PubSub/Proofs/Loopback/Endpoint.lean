import PubSub.Loopback.Domain
import PubSub.Proofs.Udp.Act

/-!
One writer or one reader of a domain: what stays true of it whatever is done to it, and what
others can see of it.
-/

namespace PubSub.Loopback

open Udp (Look)

/-- What everybody can see of an endpoint: what it was created with, whether it is open, and how
many peers it has been bound to and has had to pass over so far. -/
structure Card where
  key : MatchKey
  qos : Qos
  isOpen : Bool
  total : Nat
  refused : Nat
deriving DecidableEq

def Card.ofWriter (x : Writer) : Card :=
  ⟨x.key, x.qos, x.isOpen, x.matched.total, x.incompatible.total⟩

def Card.ofReader (y : Reader) : Card :=
  ⟨y.key, y.qos, y.isOpen, y.matched.total, y.incompatible.total⟩

def Card.meet (a : Card) (bound : Bool) : Card :=
  if bound then { a with total := a.total + 1 } else { a with refused := a.refused + 1 }

def Card.origin (a : Card) : MatchKey × Qos := (a.key, a.qos)

@[simp] lemma Card.meet_key (a : Card) (b : Bool) : (a.meet b).key = a.key := by
  cases b <;> rfl

@[simp] lemma Card.meet_qos (a : Card) (b : Bool) : (a.meet b).qos = a.qos := by
  cases b <;> rfl

@[simp] lemma Card.meet_isOpen (a : Card) (b : Bool) : (a.meet b).isOpen = a.isOpen := by
  cases b <;> rfl

/-! ### Writers -/

/-- A writer has its own identity, and counts the readers that it has. -/
structure WriterTidy (w : Guid) (x : Writer) : Prop where
  guid : x.guid = w
  history : x.history.Wf
  current : x.matched.current = x.history.proxies.length

namespace WriterTidy

variable {w r : Guid} {x y : Writer}

lemma new (g : Guid) (topic : String) (type : SampleType) (q : Qos) :
    WriterTidy g (.new g topic type q) := ⟨rfl, WriterHistory.wf_new g q, rfl⟩

lemma of_same (h : WriterTidy w x) (hh : y.history = x.history)
    (hm : y.matched.current = x.matched.current) : WriterTidy w y :=
  ⟨(congrArg WriterHistory.guid hh).trans h.guid, hh ▸ h.history, hh ▸ hm ▸ h.current⟩

lemma refuse (h : WriterTidy w x) (p : Policy) : WriterTidy w (x.refuse p) := h.of_same rfl rfl

lemma look (h : WriterTidy w x) (l : Look) : WriterTidy w (l.writer x) :=
  h.of_same (l.writer_history x) (by cases l <;> rfl)

lemma addChange (h : WriterTidy w x) {key : InstanceKey} {kind : ChangeKind}
    {payload : Option Json} (hh : y.history = (x.history.addChange key kind payload).1)
    (hm : y.matched.current = x.matched.current) : WriterTidy w y := by
  refine ⟨(congrArg WriterHistory.guid hh).trans h.guid, hh ▸ h.history.addChange _ _ _, ?_⟩
  rw [hm, h.current, hh]
  simp [WriterHistory.addChange]

end WriterTidy

section Writer

variable {w r : Guid} {x : Writer}

lemma notePending_eq (x : Writer) : ∃ c, x.notePending = { x with condition := c } := by
  unfold Writer.notePending
  split_ifs
  · exact ⟨_, rfl⟩
  · exact ⟨_, rfl⟩

lemma writerBound_eq (x : Writer) (r : Guid) (q : Qos) :
    ∃ c, (Domain.writerBound x r q).1 =
      { x with
        history := (x.history.matchReader r q).1
        matched := x.matched.matched
        condition := c } := by
  obtain ⟨c, hc⟩ := notePending_eq (x.addReader r q).1
  exact ⟨_, congrArg (Writer.raise · .publicationMatched) hc⟩

lemma writerBound_history (x : Writer) (r : Guid) (q : Qos) :
    (Domain.writerBound x r q).1.history = (x.history.matchReader r q).1 := by
  obtain ⟨c, hc⟩ := writerBound_eq x r q
  rw [hc]

lemma ofWriter_refuse (x : Writer) (p : Policy) :
    Card.ofWriter (x.refuse p) = (Card.ofWriter x).meet false := rfl

lemma ofWriter_writerBound (x : Writer) (r : Guid) (q : Qos) :
    Card.ofWriter (Domain.writerBound x r q).1 = (Card.ofWriter x).meet true := by
  obtain ⟨c, hc⟩ := writerBound_eq x r q
  simp [hc, Card.ofWriter, Card.meet, Writer.qos, WriterHistory.matchReader_qos,
    MatchedStatus.matched]

lemma WriterTidy.bound (h : WriterTidy w x) (hr : x.history.proxies.get? r = none) (q : Qos) :
    WriterTidy w (Domain.writerBound x r q).1 := by
  obtain ⟨c, hc⟩ := writerBound_eq x r q
  rw [hc]
  refine ⟨(WriterHistory.matchReader_guid r q).trans h.guid, h.history.matchReader r q, ?_⟩
  rw [WriterHistory.matchReader_of_none hr]
  exact (congrArg (· + 1) h.current).trans (Table.length_insertNew _ _ _ _).symm

lemma get?_writerUnbound (x : Writer) (r r' : Guid) :
    (Domain.writerUnbound x r).history.proxies.get? r' =
      if r' = r then none else x.history.proxies.get? r' := by
  unfold Domain.writerUnbound
  split_ifs with hm hr hr
  · exact (WriterHistory.get?_unmatchReader r r').trans (if_pos hr)
  · exact (WriterHistory.get?_unmatchReader r r').trans (if_neg hr)
  · rw [hr]
    exact Table.has_eq_false.mp (Bool.not_eq_true _ ▸ hm)
  · rfl

lemma ofWriter_writerUnbound (x : Writer) (r : Guid) :
    Card.ofWriter (Domain.writerUnbound x r) = Card.ofWriter x := by
  unfold Domain.writerUnbound
  split_ifs
  · simp [Card.ofWriter, Writer.removeReader, Writer.raise, Writer.qos,
      WriterHistory.unmatchReader]
  · rfl

lemma writerUnbound_next (x : Writer) (r : Guid) :
    (Domain.writerUnbound x r).history.next = x.history.next := by
  unfold Domain.writerUnbound
  split_ifs <;> rfl

lemma WriterTidy.unbound (h : WriterTidy w x) (r : Guid) :
    WriterTidy w (Domain.writerUnbound x r) := by
  unfold Domain.writerUnbound
  split_ifs with hm
  · refine ⟨h.guid, h.history.unmatchReader r, ?_⟩
    have hlength := h.history.proxies.length_erase hm
    have hcurrent := h.current
    simp only [Writer.raise, Writer.removeReader, MatchedStatus.unmatched_current,
      WriterHistory.unmatchReader]
    omega
  · exact h

lemma acknowledge_history (x : Writer) (r : Guid) (n : Nat) :
    (x.acknowledge r n).history = (x.history.acknowledge r n).1 := by
  simp only [Writer.acknowledge]
  split_ifs <;> rfl

lemma ofWriter_acknowledge (x : Writer) (r : Guid) (n : Nat) :
    Card.ofWriter (x.acknowledge r n) = Card.ofWriter x := by
  simp only [Writer.acknowledge, Card.ofWriter]
  split_ifs <;> rfl

lemma WriterTidy.acknowledge (h : WriterTidy w x) (r : Guid) (n : Nat) :
    WriterTidy w (x.acknowledge r n) := by
  have hh := acknowledge_history x r n
  refine ⟨(congrArg WriterHistory.guid hh).trans h.guid, hh ▸ h.history.acknowledge r n, ?_⟩
  have hm : (x.acknowledge r n).matched = x.matched := by
    simp only [Writer.acknowledge]
    split_ifs <;> rfl
  rw [hm, h.current, hh]
  exact (Table.length_adjust x.history.proxies r (·.acknowledge n)).symm

lemma ofWriter_look (l : Look) (x : Writer) : Card.ofWriter (l.writer x) = Card.ofWriter x := by
  cases l <;> rfl

end Writer

/-! ### Readers -/

structure ReaderTidy (r : Guid) (y : Reader) : Prop where
  guid : y.guid = r
  writers : y.cache.writers.Distinct
  current : y.matched.current = y.cache.writers.length

namespace ReaderTidy

variable {w r : Guid} {y z : Reader}

lemma new (g : Guid) (topic : String) (type : SampleType) (q : Qos) :
    ReaderTidy g (.new g topic type q) := ⟨rfl, Table.distinct_nil, rfl⟩

lemma of_same (h : ReaderTidy r y) (hg : z.guid = y.guid)
    (hw : z.cache.writers = y.cache.writers)
    (hm : z.matched.current = y.matched.current) : ReaderTidy r z :=
  ⟨hg.trans h.guid, hw ▸ h.writers, hw ▸ hm ▸ h.current⟩

lemma refuse (h : ReaderTidy r y) (p : Policy) : ReaderTidy r (y.refuse p) :=
  h.of_same rfl rfl rfl

lemma look (h : ReaderTidy r y) (l : Look) : ReaderTidy r (l.reader y) := by
  refine h.of_same ?_ (l.reader_writers y) ?_
  · cases l with
    | take max =>
      simp only [Look.reader, Reader.take]
      split_ifs <;> rfl
    | matched => rfl
    | incompatible => rfl
    | condition f => rfl
  · cases l with
    | take max =>
      simp only [Look.reader, Reader.take]
      split_ifs <;> rfl
    | matched => rfl
    | incompatible => rfl
    | condition f => rfl

end ReaderTidy

section Reader

variable {w r : Guid} {y : Reader}

lemma readerBound_of_none (hn : y.cache.writers.get? w = none) (b : Bool) :
    Domain.readerBound y w b = (y.addWriter w b).raise .subscriptionMatched := by
  have hw : y.cache.hasWriter w = false := Table.has_eq_false.mpr hn
  simp [Domain.readerBound, hw]

lemma get?_readerBound (hn : y.cache.writers.get? w = none) (b : Bool) (w' : Guid) :
    (Domain.readerBound y w b).cache.writers.get? w' =
      if w' = w then some ⟨b && y.qos.isReliable, 1⟩ else y.cache.writers.get? w' := by
  rw [readerBound_of_none hn]
  refine (ReaderCache.get?_addWriter w w' b).trans ?_
  rw [hn]
  rfl

lemma ofReader_refuse (y : Reader) (p : Policy) :
    Card.ofReader (y.refuse p) = (Card.ofReader y).meet false := rfl

lemma ofReader_readerBound (hn : y.cache.writers.get? w = none) (b : Bool) :
    Card.ofReader (Domain.readerBound y w b) = (Card.ofReader y).meet true := by
  rw [readerBound_of_none hn]
  simp [Card.ofReader, Card.meet, Reader.addWriter, Reader.raise, Reader.qos,
    ReaderCache.addWriter_qos, MatchedStatus.matched]

lemma ReaderTidy.bound (h : ReaderTidy r y) (hn : y.cache.writers.get? w = none) (b : Bool) :
    ReaderTidy r (Domain.readerBound y w b) := by
  have hw : y.cache.hasWriter w = false := Table.has_eq_false.mpr hn
  have hlength := Table.length_insertNew Guid.before y.cache.writers w
    ⟨b && y.cache.qos.isReliable, 1⟩
  rw [readerBound_of_none hn]
  simp only [Reader.addWriter, ReaderCache.addWriter, hw, Reader.raise]
  exact ⟨h.guid, h.writers.insertNew Guid.before hn _,
    (congrArg (· + 1) h.current).trans hlength.symm⟩

lemma readerUnbound_eq (y : Reader) (w : Guid) :
    Domain.readerUnbound y w = y ∧ y.cache.hasWriter w = false ∨
      y.cache.hasWriter w = true ∧ ∃ m, Domain.readerUnbound y w =
        ({ y with cache := (y.cache.removeWriter w).1, matched := y.matched.unmatched }).raise m := by
  cases hw : y.cache.hasWriter w with
  | false => exact .inl ⟨by simp [Domain.readerUnbound, Reader.removeWriter,
      ReaderCache.removeWriter, hw], rfl⟩
  | true => exact .inr ⟨rfl, _, by simp [Domain.readerUnbound, Reader.removeWriter,
      ReaderCache.removeWriter, hw]; rfl⟩

lemma get?_readerUnbound (y : Reader) (w w' : Guid) :
    (Domain.readerUnbound y w).cache.writers.get? w' =
      if w' = w then none else y.cache.writers.get? w' := by
  rcases readerUnbound_eq y w with ⟨heq, hw⟩ | ⟨-, m, heq⟩
  · rw [heq]
    split_ifs with h
    · rw [h]
      exact Table.has_eq_false.mp hw
    · rfl
  · rw [heq]
    exact ReaderCache.get?_removeWriter w w'

lemma ofReader_readerUnbound (y : Reader) (w : Guid) :
    Card.ofReader (Domain.readerUnbound y w) = Card.ofReader y := by
  rcases readerUnbound_eq y w with ⟨heq, -⟩ | ⟨-, m, heq⟩
  · rw [heq]
  · simp [heq, Card.ofReader, Reader.raise, Reader.qos, ReaderCache.removeWriter_qos]

lemma ReaderTidy.unbound (h : ReaderTidy r y) (w : Guid) :
    ReaderTidy r (Domain.readerUnbound y w) := by
  rcases readerUnbound_eq y w with ⟨heq, -⟩ | ⟨hw, m, heq⟩
  · rw [heq]
    exact h
  · have hlength := h.writers.length_erase hw
    have hcurrent := h.current
    rw [heq]
    refine ⟨h.guid, ?_, ?_⟩
    · simp only [Reader.raise, ReaderCache.removeWriter, hw, if_true]
      exact h.writers.erase w
    · simp only [Reader.raise, ReaderCache.removeWriter, hw, if_true,
        MatchedStatus.unmatched_current]
      omega

lemma ofReader_look (l : Look) (y : Reader) : Card.ofReader (l.reader y) = Card.ofReader y := by
  cases l with
  | take max =>
    simp only [Look.reader, Reader.take]
    split_ifs <;> rfl
  | matched => rfl
  | incompatible => rfl
  | condition f => rfl

/-- An open reader offers what arrives to its cache, and answers unless it does not have the
writer. -/
lemma receive_of_open (ho : y.isOpen = true) (w : Guid) (n : Nat) (c : Change) :
    ∃ k, y.receive w n c =
      ({ y with cache := (y.cache.receive w n c).1, condition := k },
        if (y.cache.receive w n c).2.1 = .unknownWriter then none
        else some (y.cache.receive w n c).2.2) := by
  unfold Reader.receive
  rw [if_pos ho]
  cases hq : y.cache.writers.get? w with
  | none =>
    rw [ReaderCache.receive_of_none hq]
    exact ⟨y.condition, rfl⟩
  | some q =>
    by_cases ht : q.Takes n
    · rw [ReaderCache.receive_of_takes hq ht]
      exact ⟨_, rfl⟩
    · obtain ⟨e, hne, hne', he⟩ := ReaderCache.receive_of_not_takes (c := c) hq ht
      rw [he]
      cases e with
      | accepted => exact absurd rfl hne
      | unknownWriter => exact absurd rfl hne'
      | duplicate => exact ⟨y.condition, rfl⟩
      | outOfOrder => exact ⟨y.condition, rfl⟩

lemma receive_of_closed (ho : y.isOpen = false) (w : Guid) (n : Nat) (c : Change) :
    y.receive w n c = (y, none) := by
  simp [Reader.receive, ho]

lemma receive_of_stranger (hn : y.cache.writers.get? w = none) (n : Nat) (c : Change) :
    y.receive w n c = (y, none) := by
  simp [Reader.receive, ReaderCache.receive_of_none hn]

lemma receive_of_takes (ho : y.isOpen = true) {q : WriterProxy}
    (hq : y.cache.writers.get? w = some q) {n : Nat} (ht : q.Takes n) (c : Change) :
    ∃ k, y.receive w n c =
      ({ y with cache := (y.cache.receive w n c).1, condition := k }, some n) := by
  obtain ⟨k, hk⟩ := receive_of_open ho w n c
  refine ⟨k, ?_⟩
  rw [hk, ReaderCache.receive_of_takes hq ht]
  rfl

/-- What an open reader is once something has arrived. -/
lemma ReaderTidy.receive (h : ReaderTidy r y) (w : Guid) (n : Nat) (c : Change) :
    ReaderTidy r (y.receive w n c).1 ∧
      Card.ofReader (y.receive w n c).1 = Card.ofReader y := by
  cases ho : y.isOpen with
  | false =>
    rw [receive_of_closed ho]
    exact ⟨h, rfl⟩
  | true =>
    obtain ⟨k, hk⟩ := receive_of_open ho w n c
    rw [hk]
    refine ⟨⟨h.guid, ?_, ?_⟩, ?_⟩
    · rw [Table.Distinct, ReaderCache.keys_receive]
      exact h.writers
    · have hlength := congrArg List.length (ReaderCache.keys_receive y.cache w n c)
      simp only [Table.keys, List.length_map] at hlength
      exact h.current.trans hlength.symm
    · simp [Card.ofReader, Reader.qos, ReaderCache.receive_qos]

end Reader

end PubSub.Loopback
