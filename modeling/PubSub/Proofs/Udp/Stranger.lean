import PubSub.Proofs.Udp.Roster
import PubSub.Proofs.Wire.RoundTrip

/-!
What strangers send. A datagram to the data socket of a participant matters only if it holds a
change for an open reader that has the writer, or an acknowledgment for an open writer that has the
reader. Any other bytes leave everything as it is, and nobody gets an answer. Even then it is one
endpoint alone that changes.
-/

namespace PubSub

namespace Reader

variable {y : Reader} {w : Guid} (n : Nat) (c : Change)

/-- A closed reader takes nothing, and no reader takes anything from a writer that it does not
have. -/
lemma receive_of_unexpected (h : ¬(y.isOpen = true ∧ y.cache.hasWriter w = true)) :
    y.receive w n c = (y, none) := by
  unfold receive
  split_ifs with ho
  · have hnone : y.cache.writers.get? w = none :=
      Table.has_eq_false.mp (Bool.eq_false_iff.mpr fun hw => h ⟨ho, hw⟩)
    rw [ReaderCache.receive_of_none hnone]
  · rfl

/-- What a matched writer sends changes the cache and may raise one status, and is answered. -/
lemma receive_of_matched (ho : y.isOpen = true) (hw : y.cache.hasWriter w = true) :
    y.receive w n c =
      ({ y with
          cache := (y.cache.receive w n c).1
          condition :=
            if (y.cache.receive w n c).2.1 = .accepted then y.condition.raise .dataAvailable
            else y.condition },
        some (y.cache.receive w n c).2.2) := by
  obtain ⟨q, hq⟩ := Table.has_eq_true.mp hw
  unfold receive
  rw [if_pos ho]
  by_cases ht : q.Takes n
  · rw [ReaderCache.receive_of_takes hq ht]
    rfl
  · obtain ⟨e, hne, hknown, he⟩ := ReaderCache.receive_of_not_takes (c := c) hq ht
    rw [he]
    cases e with
    | accepted => exact absurd rfl hne
    | unknownWriter => exact absurd rfl hknown
    | duplicate | outOfOrder => rfl

end Reader

namespace Writer

variable {x : Writer} {r : Guid} (acked : Nat)

/-- An acknowledgment from a reader that the writer does not have changes nothing. -/
lemma acknowledge_of_unexpected (h : x.history.isMatched r = false) :
    x.acknowledge r acked = x := by
  have hsame : (x.history.acknowledge r acked).1 = x.history := by
    rw [WriterHistory.acknowledge, Table.adjust_of_none (Table.has_eq_false.mp h)]
  have hdone : (x.history.acknowledge r acked).2 = false := by
    show (!x.history.allAcknowledged && (x.history.acknowledge r acked).1.allAcknowledged) = false
    rw [hsame, Bool.not_and_self]
  simp only [acknowledge, hsame, hdone, Bool.false_eq_true, if_false]

/-- An acknowledgment changes what is pending for its reader, and raises one status if it was the
last one that the writer has waited for. -/
lemma acknowledge_eq (x : Writer) (r : Guid) (acked : Nat) :
    let history : WriterHistory :=
      { x.history with proxies := x.history.proxies.adjust r (·.acknowledge acked) }
    x.acknowledge r acked =
      { x with
        history := history
        condition :=
          if 0 < x.history.unacknowledged ∧ history.unacknowledged = 0 then
            x.condition.raise .acknowledged
          else x.condition } := by
  intro history
  have hdone : (x.history.acknowledge r acked).2 = true ↔
      0 < x.history.unacknowledged ∧ history.unacknowledged = 0 := by
    show (!x.history.allAcknowledged && history.allAcknowledged) = true ↔ _
    simp only [WriterHistory.allAcknowledged, Bool.and_eq_true, Bool.not_eq_true',
      decide_eq_false_iff_not, decide_eq_true_eq, Nat.pos_iff_ne_zero, ne_eq]
  simp only [← hdone, acknowledge]
  split_ifs <;> rfl

end Writer

namespace Udp.Node

variable {n : Node}

/-- Whether a message is a change for an open reader that has the writer, or an acknowledgment for
an open writer that has the reader. -/
def expects (n : Node) : Message → Bool
  | .data w r _ _ =>
    (n.readers.get? r).any fun y => y.reader.isOpen && y.reader.cache.hasWriter w
  | .ackNack r w _ =>
    (n.writers.get? w).any fun x => x.writer.isOpen && x.writer.history.isMatched r
  | .announce .. | .bye _ => false

/-- **A message that is not expected changes nothing**, and is not answered. -/
lemma receive_of_unexpected (h : n.Registered) {m : Message} (hm : n.expects m = false)
    (source : Address) : n.receive source m = (n, []) := by
  cases m with
  | announce p domain name port lease endpoints => rfl
  | bye p => rfl
  | data w r number c =>
    cases hy : n.readers.get? r with
    | none => simp only [receive, hy]
    | some y =>
      rw [expects, hy, Option.any_some, ← Bool.not_eq_true, Bool.and_eq_true] at hm
      have hsame := Reader.receive_of_unexpected number c hm
      have hreaders : n.readers.adjust r ({ · with reader := y.reader }) = n.readers :=
        Table.Distinct.adjust_of_fixed h.distinct hy rfl
      simp only [receive, hy, hsame, adjustReader, hreaders, Option.map_none, Option.toList_none]
  | ackNack r w acked =>
    cases hx : n.writers.get? w with
    | none => simp only [receive, hx]
    | some x =>
      simp only [receive, hx]
      split_ifs with ho
      · have hr : x.writer.history.isMatched r = false := by
          simpa [expects, hx, ho] using hm
        have hwriters : n.writers.adjust w ({ · with writer := x.writer }) = n.writers :=
          Table.Distinct.adjust_of_fixed h.wf.distinct hx rfl
        rw [Writer.acknowledge_of_unexpected acked hr, adjustWriter, hwriters]
      · rfl

lemma opened_of_encode {m : Message} {t : String} (hf : m.Fits) (hx : m.IsExact)
    (hd : m.toJson.depth ≤ Json.maxDepth) (ht : Wire.encode m = .ok t) :
    opened t.toUTF8 = some m.arrived := by
  have hsize : t.toUTF8.size ≤ Wire.maxBytes := by
    have hle := encode_ok_iff.mp ⟨t, ht⟩
    rwa [← Wire.eq_text_of_encode ht] at hle
  have hwhole : t.toUTF8.extract 0 Wire.maxBytes = t.toUTF8 := by
    refine ByteArray.ext ?_
    rw [ByteArray.data_extract]
    exact Array.extract_eq_self_of_le hsize
  rw [opened, hwhole, Wire.eq_text_of_encode ht, Wire.decode_text_eq hf hx, if_pos hd]

/-- **Traffic is confined.** Whatever has happened to a participant, and whatever bytes arrive at
its data socket from wherever: unless they hold a message that it expects, everything stays as it
is and nothing is sent. A change that is expected is answered to where it came from, and only its
reader is touched: its cache takes the change or not, and if it does, data is available. An
acknowledgment that is expected is not answered, and only its writer is touched: what is pending
for that reader goes as far as it is acknowledged, and if nothing is pending for any reader after
that, where something was before, everything is acknowledged. -/
theorem traffic_confined (id domain : Nat) (name : String) (port : Nat) (t : Timing)
    (es : List Happening) (source : Address) (bytes : ByteArray) :
    let n := (Node.new id domain name port t).after es
    ((opened bytes).any n.expects = false → n.receiveBytes source bytes = (n, [])) ∧
    (∀ w r number c y, opened bytes = some (.data w r number c) →
      n.expects (.data w r number c) = true → n.readers.get? r = some y →
      let result := y.reader.cache.receive w number c
      let reader : Reader := { y.reader with
        cache := result.1
        condition :=
          if result.2.1 = .accepted then y.reader.condition.raise .dataAvailable
          else y.reader.condition }
      n.receiveBytes source bytes =
        ({ n with readers := n.readers.adjust r ({ · with reader := reader }) },
          [.unicast source (.ackNack r w result.2.2)])) ∧
    ∀ w r acked x, opened bytes = some (.ackNack r w acked) →
      n.expects (.ackNack r w acked) = true → n.writers.get? w = some x →
      ∃ proxies,
        let history : WriterHistory := { x.writer.history with proxies := proxies }
        let writer : Writer := { x.writer with
          history := history
          condition :=
            if 0 < x.writer.history.unacknowledged ∧ history.unacknowledged = 0 then
              x.writer.condition.raise .acknowledged
            else x.writer.condition }
        n.receiveBytes source bytes =
          ({ n with writers := n.writers.adjust w ({ · with writer := writer }) }, []) ∧
        proxies.keys = x.writer.history.proxies.keys ∧
        ∀ r', proxies.get? r' = (x.writer.history.proxies.get? r').map fun p =>
          if r' = r then { p with pending := p.pending.dropWhile (·.1 ≤ acked) } else p := by
  intro n
  refine ⟨fun hstranger => ?_, ?_, ?_⟩
  · -- bytes that hold no message are dropped before any endpoint is looked at
    unfold receiveBytes
    cases hm : opened bytes with
    | none => rfl
    | some m =>
      rw [hm, Option.any_some] at hstranger
      exact receive_of_unexpected (registered_after id domain name port t es) hstranger source
  · -- an expected change
    intro w r number c y hm hexpected hy
    rw [expects, hy, Option.any_some, Bool.and_eq_true] at hexpected
    obtain ⟨ho, hw⟩ := hexpected
    have hread := Reader.receive_of_matched number c ho hw
    simp only [receiveBytes, hm, receive, hy, hread]
    rfl
  · -- an expected acknowledgment
    intro w r acked x hm hexpected hx
    rw [expects, hx, Option.any_some, Bool.and_eq_true] at hexpected
    refine ⟨x.writer.history.proxies.adjust r (·.acknowledge acked), ?_, ?_, fun r' => ?_⟩
    · simp only [receiveBytes, hm, receive, hx, if_pos hexpected.1, Writer.acknowledge_eq]
      rfl
    · exact Table.keys_adjust _ _ _
    · rw [Table.get?_adjust]
      split_ifs with hr
      · rfl
      · exact Option.map_id'.symm

/-- The acknowledgment of a reader that the writer has refused, bytes that hold no message, and the
acknowledgment of a reader that the writer has. -/
theorem traffic_confined_encounters :
    let n := (Node.new 1 0 "p" 7400 .default).after encounters
    let source : Address := ⟨0, 7401⟩
    ∃ foreign own, Wire.encode (.ackNack ⟨2, 3⟩ ⟨1, 3⟩ 1) = .ok foreign ∧
      Wire.encode (.ackNack ⟨2, 2⟩ ⟨1, 3⟩ 1) = .ok own ∧
      n.receiveBytes source foreign.toUTF8 = (n, []) ∧
      n.receiveBytes source "DDS".toUTF8 = (n, []) ∧
      ∃ writers, n.receiveBytes source own.toUTF8 = ({ n with writers := writers }, []) := by
  intro n source
  have hconfined := traffic_confined 1 0 "p" 7400 .default encounters source
  have hopened (r : Guid) (hr : r.Fits) {t : String}
      (ht : Wire.encode (.ackNack r ⟨1, 3⟩ 1) = .ok t) :
      opened t.toUTF8 = some (.ackNack r ⟨1, 3⟩ 1) :=
    opened_of_encode (m := .ackNack r ⟨1, 3⟩ 1) ⟨hr, ⟨by decide, by decide⟩, by decide⟩
      (fun _ h => by cases h) (Nat.le_trans (Message.depth_toJson_le (Nat.le_refl 5) fun _ h => by
        cases h) (by decide)) ht
  have hencode : ∀ r ∈ [(⟨2, 2⟩ : Guid), ⟨2, 3⟩],
      ∃ t, Wire.encode (.ackNack r ⟨1, 3⟩ 1) = .ok t := by
    simp only [encode_ok_iff]
    decide +kernel
  have hwriter : (n.writers.get? ⟨1, 3⟩).isSome = true := by decide +kernel
  obtain ⟨x, hx⟩ := Option.isSome_iff_exists.mp hwriter
  obtain ⟨foreign, hforeign⟩ := hencode ⟨2, 3⟩ (by simp)
  obtain ⟨own, hown⟩ := hencode ⟨2, 2⟩ (by simp)
  refine ⟨foreign, own, hforeign, hown, (hconfined _).1 ?_, (hconfined _).1 ?_, ?_⟩
  · rw [hopened ⟨2, 3⟩ ⟨by decide, by decide⟩ hforeign, Option.any_some]
    decide +kernel
  · decide +kernel
  · obtain ⟨proxies, heq, -⟩ :=
      (hconfined _).2.2 _ _ _ x (hopened ⟨2, 2⟩ ⟨by decide, by decide⟩ hown) (by decide +kernel) hx
    exact ⟨_, heq⟩

end Udp.Node

end PubSub
