import PubSub.Proofs.Condition
import PubSub.Proofs.Endpoint.Step
import PubSub.Proofs.Loopback.Endpoint
import PubSub.Proofs.Udp.Matching
import PubSub.Wait

/-!
What a step of an endpoint reports to its status condition. Whatever happens, the bits that are
raised and cleared account for what has become of the pending changes, the unread samples and the
matches.
-/

namespace PubSub

open Udp (Look LinkedWriter LinkedReader)
open Udp.Node (notePending_history)

def MatchedStatus.Any (s : MatchedStatus) : Prop := 0 < s.current ∨ 0 < s.total

lemma MatchedStatus.any_of_unmatched {s : MatchedStatus} (h : s.unmatched.Any) : s.Any := by
  unfold Any at h ⊢
  rw [unmatched_current, unmatched_total] at h
  omega

/-! ### Writers -/

/-- The writer has become another one, and its condition has been told: the acknowledgment bit has
been cleared or left alone, and some bits have been raised. -/
structure Writer.Reports (x x' : Writer) (cleared : Bool) (raised : StatusMask) : Prop where
  condition : x'.condition =
    (if cleared then x.condition.clear .acknowledged else x.condition).raise raised
  pending : x'.history.allAcknowledged =
    (x.history.allAcknowledged && !cleared || raised.intersects .acknowledged)
  matched : x'.matched.Any → x.matched.Any ∨ raised.intersects .publicationMatched = true

namespace Writer

variable {x x' : Writer} {m : StatusMask}

lemma reports_none (hc : x'.condition = x.condition) (hh : x'.history = x.history)
    (hm : x'.matched.Any → x.matched.Any) : x.Reports x' false .none := by
  refine ⟨?_, ?_, fun h => .inl (hm h)⟩
  · exact hc.trans (StatusCondition.raise_none _).symm
  · rw [hh, StatusMask.none_intersects, Bool.not_false, Bool.and_true, Bool.or_false]

lemma notePending_condition (x : Writer) :
    x.notePending.condition =
      if !x.history.allAcknowledged then x.condition.clear .acknowledged else x.condition := by
  unfold notePending
  cases x.history.allAcknowledged <;> rfl

lemma notePending_matched (x : Writer) : x.notePending.matched = x.matched := by
  unfold notePending
  split_ifs <;> rfl

/-- A writer notes what has become pending, and raises bits that tell of something else. -/
lemma reports_notePending (hc : x'.condition = x.condition)
    (hp : x'.history.allAcknowledged = true → x.history.allAcknowledged = true)
    (hm : m.intersects .acknowledged = false)
    (hs : x'.matched.Any → x.matched.Any ∨ m.intersects .publicationMatched = true) :
    x.Reports (x'.notePending.raise m) (!x'.history.allAcknowledged) m := by
  refine ⟨?_, ?_, ?_⟩
  · rw [← hc, ← notePending_condition]
    rfl
  · have hhistory : (x'.notePending.raise m).history = x'.history := notePending_history x'
    rw [hhistory, hm, Bool.or_false, Bool.not_not]
    cases ha : x'.history.allAcknowledged with
    | false => exact (Bool.and_false _).symm
    | true => rw [hp ha, Bool.and_self]
  · have hmatched : (x'.notePending.raise m).matched = x'.matched := notePending_matched x'
    rw [hmatched]
    exact hs

lemma reports_acknowledge (x : Writer) (r : Guid) (n : Nat) :
    ∃ raised, x.Reports (x.acknowledge r n) false raised := by
  have hsub := WriterHistory.allAcknowledged_acknowledge (h := x.history) (r := r) (a := n)
  have hcompleted : (x.history.acknowledge r n).2 =
    (!x.history.allAcknowledged && (x.history.acknowledge r n).1.allAcknowledged) := rfl
  unfold acknowledge
  simp only
  split_ifs with h
  · rw [hcompleted, Bool.and_eq_true] at h
    exact ⟨.acknowledged, rfl, h.2.trans (Bool.or_true _).symm, .inl⟩
  · refine ⟨.none, (StatusCondition.raise_none _).symm, ?_, .inl⟩
    rw [StatusMask.none_intersects, Bool.not_false, Bool.and_true, Bool.or_false]
    rw [hcompleted] at h
    cases ha : x.history.allAcknowledged with
    | true => exact hsub ha
    | false => simpa [ha] using h

lemma reports_writerBound (x : Writer) (r : Guid) (q : Qos) :
    ∃ cleared, x.Reports (Loopback.Domain.writerBound x r q).1 cleared .publicationMatched :=
  have hgained : (x.addReader r q).1.history.allAcknowledged = true →
      x.history.allAcknowledged = true := WriterHistory.allAcknowledged_of_matchReader
  ⟨_, reports_notePending rfl hgained (by decide) fun _ => .inr (by decide)⟩

lemma reports_writerUnbound (x : Writer) (r : Guid) :
    ∃ raised, x.Reports (Loopback.Domain.writerUnbound x r) false raised := by
  unfold Loopback.Domain.writerUnbound
  split_ifs
  · have hsub := WriterHistory.allAcknowledged_unmatchReader (h := x.history) (r := r)
    have hlost : (x.removeReader r).readerLost =
      if (x.history.unmatchReader r).allAcknowledged then
        StatusMask.publicationMatched.or .acknowledged
      else .publicationMatched := rfl
    refine ⟨(x.removeReader r).readerLost, rfl, ?_, fun _ => .inr ?_⟩
    · have hhistory : ((x.removeReader r).raise (x.removeReader r).readerLost).history =
        x.history.unmatchReader r := rfl
      rw [hhistory, hlost]
      cases ha : x.history.allAcknowledged with
      | true => simp [hsub ha]
      | false => cases (x.history.unmatchReader r).allAcknowledged <;> decide
    · rw [hlost]
      split_ifs <;> decide
  · exact ⟨.none, reports_none rfl rfl id⟩

/-- The status that a reconciliation leaves behind accounts for all that is pending then. -/
lemma reports_settleStatus (hc : x'.condition = x.condition)
    (hm : m.intersects .acknowledged = false)
    (hs : x'.matched.Any → x.matched.Any ∨ m.intersects .publicationMatched = true) :
    ∃ cleared raised, x.Reports (LinkedWriter.settleStatus x' m) cleared raised := by
  unfold LinkedWriter.settleStatus
  split_ifs with ha
  · refine ⟨false, m.or .acknowledged, ?_, ?_, fun h => (hs h).imp id fun hp => ?_⟩
    · exact congrArg (StatusCondition.raise · (m.or .acknowledged)) hc
    · have hself : (m.or .acknowledged).intersects .acknowledged = true :=
        StatusMask.intersects_of_contains StatusMask.contains_or.2 (by decide)
      rw [hself, Bool.or_true]
      exact ha
    · exact StatusMask.intersects_of_contains StatusMask.contains_or.1 hp
  · refine ⟨true, m, ?_, ?_, hs⟩
    · exact congrArg (fun k => (k.clear .acknowledged).raise m) hc
    · rw [hm, Bool.not_true, Bool.and_false, Bool.or_false]
      exact Bool.eq_false_iff.mpr ha

end Writer

namespace Udp.LinkedWriter

lemma foldl_drop_kept (x : LinkedWriter) (rs : List Guid) :
    (rs.foldl drop x).writer.condition = x.writer.condition ∧
      ((rs.foldl drop x).writer.matched.Any → x.writer.matched.Any) := by
  induction rs generalizing x with
  | nil => exact ⟨rfl, id⟩
  | cons r rs ih =>
    obtain ⟨hcondition, hmatched⟩ := ih (x.drop r)
    exact ⟨hcondition, fun h => MatchedStatus.any_of_unmatched (hmatched h)⟩

lemma foldl_gain_condition (x : LinkedWriter) (new : WantedReaders) (out : List Outgoing) :
    (new.foldl gainNext (x, out)).1.writer.condition = x.writer.condition := by
  induction new generalizing x out with
  | nil => rfl
  | cons e new ih => exact ih _ _

lemma reports_sync (x : LinkedWriter) (wanted : WantedReaders) :
    ∃ cleared raised, x.writer.Reports (x.sync wanted).1.writer cleared raised := by
  obtain ⟨hcondition, hmatched⟩ := foldl_drop_kept x (x.stale wanted)
  have hcondition' := foldl_gain_condition ((x.stale wanted).foldl drop x) (x.unmet wanted) []
  have hsame : (x.synced wanted).1.writer.condition = x.writer.condition :=
    hcondition'.trans hcondition
  refine Writer.reports_settleStatus hsame ?_ fun h => ?_
  · split_ifs <;> decide
  · -- matches can only grow by readers that are gained, and those are told of
    by_cases hnew : x.unmet wanted = []
    · refine .inl (hmatched ?_)
      have hlost : (x.synced wanted).1 = (x.stale wanted).foldl drop x := by rw [synced, hnew]; rfl
      exact hlost ▸ h
    · refine .inr ?_
      have hsome : ((x.stale wanted).isEmpty && (x.unmet wanted).isEmpty) = false := by
        simp [hnew]
      have hchanged : (if ((x.stale wanted).isEmpty && (x.unmet wanted).isEmpty) = true then
          StatusMask.none else .publicationMatched) = .publicationMatched := by
        rw [hsome]
        rfl
      exact (congrArg (StatusMask.intersects · .publicationMatched) hchanged).trans (by decide)

end Udp.LinkedWriter

/-- What a step of a writer reports, unless its application looks at it or it closes. -/
theorem Writer.Step.reports {P : Look → Prop} {x x' : Writer} (h : x.Step P x') :
    (∃ cleared raised, x.Reports x' cleared raised) ∨ ∃ l : Look, P l ∧ x' = l.writer x := by
  cases h with
  | made key kind payload =>
    have hnone : ∀ z : Writer, z.raise .none = z := fun z => by
      simp only [raise, StatusCondition.raise_none]
    have hmade : x.Reports
        ({ x with history := (x.history.addChange key kind payload).1 }.notePending.raise .none)
        (!(x.history.addChange key kind payload).1.allAcknowledged) .none :=
      reports_notePending rfl (WriterHistory.allAcknowledged_of_addChange key kind payload)
        (by decide) .inl
    rw [hnone] at hmade
    exact .inl ⟨_, _, hmade⟩
  | acknowledged r n => exact .inl ⟨_, x.reports_acknowledge r n⟩
  | bound r q =>
    obtain ⟨cleared, hbound⟩ := x.reports_writerBound r q
    exact .inl ⟨cleared, _, hbound⟩
  | unbound r => exact .inl ⟨_, x.reports_writerUnbound r⟩
  | synced addresses refused wanted ht hd =>
    exact .inl (Udp.LinkedWriter.reports_sync ⟨x, addresses, refused⟩ wanted)
  | refused p => exact .inl ⟨false, .offeredIncompatible, rfl, by simp [Writer.refuse, Writer.raise,
      show StatusMask.offeredIncompatible.intersects .acknowledged = false by decide], .inl⟩
  | looked l h => exact .inr ⟨l, h, rfl⟩
  | closed => exact .inl ⟨_, _, reports_none rfl rfl id⟩

/-! ### Readers -/

/-- The reader has become another one, and some bits are to be raised. -/
structure Reader.Reports (y : Reader) (s : Reader × StatusMask) : Prop where
  condition : s.1.condition = y.condition
  qos : s.1.cache.qos = y.cache.qos
  unread : s.1.cache.unread ≠ [] →
    y.cache.unread ≠ [] ∨ s.2.intersects .dataAvailable = true
  filled : y.cache.qos.history ≠ .keepLast 0 →
    y.cache.unread ≠ [] ∨ s.2.intersects .dataAvailable = true → s.1.cache.unread ≠ []
  matched : s.1.matched.Any → y.matched.Any ∨ s.2.intersects .subscriptionMatched = true

namespace Reader

variable {P : Look → Prop} {y y' : Reader} {m : StatusMask}
  {s : Reader × StatusMask}

lemma reports_of_same (hc : y'.condition = y.condition) (hcache : y'.cache = y.cache)
    (hmatched : y'.matched = y.matched) (hm : m.intersects .dataAvailable = false) :
    y.Reports (y', m) := by
  refine ⟨hc, congrArg _ hcache, fun h => .inl ?_, fun _ h => ?_, fun h => .inl ?_⟩
  · rwa [← hcache]
  · rw [hm] at h
    simpa [hcache] using h
  · rwa [← hmatched]

/-- A reader goes on from what it has reported so far. -/
lemma Reports.trans {s' : Reader × StatusMask} (h : y.Reports s) (h' : s.1.Reports s') :
    y.Reports (s'.1, s.2.or s'.2) where
  condition := h'.condition.trans h.condition
  qos := h'.qos.trans h.qos
  unread hu := by
    rw [StatusMask.or_intersects, Bool.or_eq_true]
    rcases h'.unread hu with hu | hm
    · exact (h.unread hu).imp id .inl
    · exact .inr (.inr hm)
  filled hq hu := by
    rw [StatusMask.or_intersects, Bool.or_eq_true] at hu
    refine h'.filled (h.qos.symm ▸ hq) ?_
    rcases hu with hu | hm | hm
    · exact .inl (h.filled hq (.inl hu))
    · exact .inl (h.filled hq (.inr hm))
    · exact .inr hm
  matched hm := by
    rw [StatusMask.or_intersects, Bool.or_eq_true]
    rcases h'.matched hm with hm | hm
    · exact (h.matched hm).imp id .inl
    · exact .inr (.inr hm)

lemma matched_not_data : StatusMask.subscriptionMatched.intersects .dataAvailable = false := by
  decide

lemma matched_matched : StatusMask.subscriptionMatched.intersects .subscriptionMatched = true := by
  decide

lemma data_data : StatusMask.dataAvailable.intersects .dataAvailable = true := by
  decide

lemma reports_removeWriter {w : Guid} (h : y.removeWriter w = some s) : y.Reports s := by
  unfold removeWriter ReaderCache.removeWriter at h
  split_ifs at h with hw
  obtain rfl := Option.some.inj h
  refine ⟨rfl, rfl, fun hu => ?_, fun _ hu => ?_, fun hm => .inl ?_⟩
  · by_cases ho : y.cache.orphans w = []
    · exact .inl (by simpa [ho] using hu)
    · exact .inr (by simp [ho, StatusMask.or_intersects]; decide)
  · by_cases ho : y.cache.orphans w = []
    · simpa [ho, matched_not_data] using hu
    · simp [ho]
  · exact MatchedStatus.any_of_unmatched hm

lemma Reports.drop (h : y.Reports s) (w : Guid) : y.Reports (LinkedReader.drop s w) := by
  unfold LinkedReader.drop
  split
  · next hw => exact h.trans (reports_removeWriter hw)
  · exact h

lemma Reports.gain (h : y.Reports s) (e : Guid × Bool) : y.Reports (LinkedReader.gain s e) := by
  have hadded : s.1.Reports (s.1.addWriter e.1 e.2, .subscriptionMatched) := by
    refine ⟨rfl, ReaderCache.addWriter_qos _ _ _, fun hu => .inl ?_, fun _ hu => ?_,
      fun _ => .inr matched_matched⟩
    · rwa [addWriter, ReaderCache.addWriter_unread] at hu
    · rw [addWriter, ReaderCache.addWriter_unread]
      exact hu.resolve_right (by rw [matched_not_data]; exact Bool.false_ne_true)
  exact h.trans hadded

lemma readerUnbound_drop (y : Reader) (w : Guid) :
    Loopback.Domain.readerUnbound y w =
      (LinkedReader.drop (y, .none) w).1.raise (LinkedReader.drop (y, .none) w).2 := by
  unfold Loopback.Domain.readerUnbound LinkedReader.drop
  cases y.removeWriter w with
  | none => simp only [raise, StatusCondition.raise_none]
  | some s => simp only [StatusMask.none_or]

lemma readerBound_gain {w : Guid} (hw : y.cache.hasWriter w = false) (b : Bool) :
    Loopback.Domain.readerBound y w b =
      (LinkedReader.gain (y, .none) (w, b)).1.raise (LinkedReader.gain (y, .none) (w, b)).2 := by
  simp [Loopback.Domain.readerBound, hw, LinkedReader.gain, StatusMask.none_or]

lemma reports_self (y : Reader) : y.Reports (y, .none) :=
  reports_of_same rfl rfl rfl (by decide)

/-- What arrives is left aside, or taken in as one more sample. -/
lemma reports_receive (y : Reader) (w : Guid) (n : Nat) (c : Change) :
    ∃ s : Reader × StatusMask, y.Reports s ∧ (y.receive w n c).1 = s.1.raise s.2 := by
  have hself : ∃ s : Reader × StatusMask, y.Reports s ∧ y = s.1.raise s.2 :=
    ⟨_, y.reports_self, by simp only [raise, StatusCondition.raise_none]⟩
  cases ho : y.isOpen with
  | false =>
    rw [Loopback.receive_of_closed ho]
    exact hself
  | true =>
    unfold receive
    rw [if_pos ho]
    cases hq : y.cache.writers.get? w with
    | none =>
      rw [ReaderCache.receive_of_none hq]
      exact hself
    | some q =>
      by_cases ht : q.Takes n
      · rw [ReaderCache.receive_of_takes hq ht]
        let cache := ReaderCache.apply { y.cache with
          writers := y.cache.writers.adjust w ({ · with next := n + 1 }) } w c
        refine ⟨({ y with cache }, .dataAvailable), ⟨rfl, rfl, fun _ => .inr data_data,
          fun hd _ => ?_, .inl⟩, rfl⟩
        exact ReaderCache.apply_unread_ne_nil hd w c
      · obtain ⟨e, hne, hne', he⟩ := ReaderCache.receive_of_not_takes (c := c) hq ht
        rw [he]
        cases e with
        | accepted => exact absurd rfl hne
        | unknownWriter => exact absurd rfl hne'
        | duplicate => exact hself
        | outOfOrder => exact hself

lemma take_of_open (ho : y.isOpen = true) (max : Nat) :
    let left : Reader := { y with cache := { y.cache with unread := y.cache.unread.drop max } }
    (y.take max).1 = if left.cache.unread.isEmpty then left.clear .dataAvailable else left := by
  unfold Reader.take
  rw [if_pos ho]
  rfl

/-- What a step of a reader reports, unless its application looks at it. -/
theorem Step.reports (h : y.Step P y') :
    (∃ s : Reader × StatusMask, y.Reports s ∧ y' = s.1.raise s.2) ∨
      (∃ l : Look, P l ∧ y' = l.reader y) ∨ y' = { y with isOpen := false } := by
  cases h with
  | received w n c => exact .inl (y.reports_receive w n c)
  | bound w b =>
    cases hw : y.cache.hasWriter w with
    | true =>
      refine .inl ⟨_, y.reports_self, ?_⟩
      simp only [Loopback.Domain.readerBound, hw, raise, StatusCondition.raise_none, if_true]
    | false => exact .inl ⟨_, y.reports_self.gain _, readerBound_gain hw b⟩
  | unbound w => exact .inl ⟨_, y.reports_self.drop w, y.readerUnbound_drop w⟩
  | synced refused wanted =>
    have hdrop : ∀ (ws : List Guid) (s : Reader × StatusMask), y.Reports s →
        y.Reports (ws.foldl LinkedReader.drop s) := fun ws s hs => by
      induction ws generalizing s with
      | nil => exact hs
      | cons w ws ih => exact ih _ (hs.drop w)
    have hgain : ∀ (es : List (Guid × Bool)) (s : Reader × StatusMask), y.Reports s →
        y.Reports (es.foldl LinkedReader.gain s) := fun es s hs => by
      induction es generalizing s with
      | nil => exact hs
      | cons e es ih => exact ih _ (hs.gain e)
    exact .inl ⟨_, hgain _ _ (hdrop _ _ y.reports_self), rfl⟩
  | refused p =>
    exact .inl ⟨({ y with incompatible := y.incompatible.record p }, .requestedIncompatible),
      reports_of_same rfl rfl rfl (by decide), rfl⟩
  | looked l hl => exact .inr (.inl ⟨l, hl, rfl⟩)
  | closed => exact .inr (.inr rfl)

end Reader

end PubSub
