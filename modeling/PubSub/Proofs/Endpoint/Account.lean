import PubSub.Proofs.Endpoint.Mirror
import PubSub.Proofs.Endpoint.Wake

/-!
What an endpoint counts of its peers, and the bits that tell of changes. Each match, each unmatch
and each refusal moves a counter and raises the bit beside it. Reading the refusals clears their bit
and starts their change anew; reading the matches starts their changes anew and leaves the bit as
it is.
-/

namespace PubSub

open Udp (Look LinkedWriter LinkedReader WantedReaders)
open StatusCondition (KeepsActive)

namespace EndpointKind

def matchedBit : EndpointKind → StatusMask
  | .writer => .publicationMatched
  | .reader => .subscriptionMatched

def incompatibleBit : EndpointKind → StatusMask
  | .writer => .offeredIncompatible
  | .reader => .requestedIncompatible

lemma isSingle_matchedBit (k : EndpointKind) : k.matchedBit.IsSingle := by
  cases k
  · exact ⟨10, rfl⟩
  · exact ⟨6, rfl⟩

lemma isSingle_incompatibleBit (k : EndpointKind) : k.incompatibleBit.IsSingle := by
  cases k
  · exact ⟨9, rfl⟩
  · exact ⟨5, rfl⟩

end EndpointKind

/-- A condition that listens to one status alone is triggered exactly while that one holds. -/
lemma StatusCondition.triggered_of_single {c : StatusCondition} (hs : c.enabled.IsSingle) :
    c.triggered = c.isActive c.enabled := by
  obtain ⟨i, hi⟩ := hs.testBit
  rw [triggered, isActive, StatusMask.intersects_comm, (hi _).1, (hi _).2]

/-! ### Accounts -/

/-- The peers of an endpoint, how many it has had and has, how many it has refused, and what the two
bits tell of that. -/
structure Account where
  peers : List Guid
  total : Nat
  current : Nat
  told : Bool
  refused : Nat
  change : Int
  warned : Bool

namespace Account

def blank : Account := ⟨[], 0, 0, false, 0, 0, false⟩

def of (k : EndpointKind) (peers : List Guid) (m : MatchedStatus) (i : IncompatibleStatus)
    (c : StatusCondition) : Account :=
  ⟨peers, m.total, m.current, c.isActive k.matchedBit, i.total, i.change,
    c.isActive k.incompatibleBit⟩

def raise (k : EndpointKind) (m : StatusMask) (a : Account) : Account :=
  { a with
    told := a.told || m.intersects k.matchedBit
    warned := a.warned || m.intersects k.incompatibleBit }

/-- What any match and any unmatch changes. -/
def met (a : Account) : Nat × Nat × List Guid := (a.total, a.current, a.peers)

def read (a : Account) : Account := { a with change := 0, warned := false }

def Sized (a : Account) : Prop := a.peers.length ≤ a.current

/-- Matches, unmatches and refusals change an account, as often as they happen: what they count only
grows, and each bit is raised exactly if something has happened. -/
structure Goes (a b : Account) : Prop where
  total : a.total ≤ b.total
  unmatched : b.current + a.total ≤ a.current + b.total
  peers : a.total = b.total → a.current = b.current → a.peers = b.peers
  told : b.told = true ↔ a.told = true ∨ ¬(a.total = b.total ∧ a.current = b.current)
  refused : a.refused ≤ b.refused
  change : b.change + a.refused = a.change + b.refused
  warned : b.warned = true ↔ a.warned = true ∨ a.refused ≠ b.refused
  sized : b.Sized

variable {a b c : Account}

lemma Goes.refl (h : a.Sized) : Goes a a where
  total := Nat.le_refl _
  unmatched := Nat.le_refl _
  peers _ _ := rfl
  told := by simp
  refused := Nat.le_refl _
  change := rfl
  warned := by simp
  sized := h

lemma Goes.of_eq (h : a.Sized) (hb : b = a) : Goes a b := by
  rw [hb]
  exact .refl h

lemma Goes.trans (h : Goes a b) (h' : Goes b c) : Goes a c := by
  -- counters that are where they were have not moved in between
  have htotal := h.total
  have htotal' := h'.total
  have hunmatched := h.unmatched
  have hunmatched' := h'.unmatched
  have hrefused := h.refused
  have hrefused' := h'.refused
  have hbetween : a.total = c.total ∧ a.current = c.current →
      (a.total = b.total ∧ a.current = b.current) ∧ b.total = c.total ∧ b.current = c.current := by
    omega
  refine ⟨by omega, by omega, fun ht hc => ?_, ?_, by omega, ?_, ?_, h'.sized⟩
  · obtain ⟨⟨h1, h2⟩, h3, h4⟩ := hbetween ⟨ht, hc⟩
    exact (h.peers h1 h2).trans (h'.peers h3 h4)
  · rw [h'.told, h.told, or_assoc]
    refine or_congr Iff.rfl ?_
    rw [← not_and_or]
    exact not_congr ⟨fun hall => by omega, hbetween⟩
  · have hchange := h.change
    have hchange' := h'.change
    omega
  · rw [h'.warned, h.warned, or_assoc]
    exact or_congr Iff.rfl (by omega)

lemma of_raise (k : EndpointKind) (peers : List Guid) (s : MatchedStatus) (i : IncompatibleStatus)
    (c : StatusCondition) (m : StatusMask) :
    of k peers s i (c.raise m) = (of k peers s i c).raise k m := by
  rw [of, StatusCondition.isActive_raise k.isSingle_matchedBit,
    StatusCondition.isActive_raise k.isSingle_incompatibleBit]
  rfl

lemma raise_of_not {k : EndpointKind} {m : StatusMask} (hm : m.intersects k.matchedBit = false)
    (hi : m.intersects k.incompatibleBit = false) : a.raise k m = a := by
  rw [raise, hm, hi, Bool.or_false, Bool.or_false]

lemma of_taken (k : EndpointKind) (peers : List Guid) (s : MatchedStatus) (i : IncompatibleStatus)
    (c : StatusCondition) :
    of k peers s i.taken (c.clear k.incompatibleBit) = (of k peers s i c).read := by
  have hbits : k.incompatibleBit.intersects k.matchedBit = false ∧
      k.incompatibleBit.intersects k.incompatibleBit = true := by cases k <;> decide
  rw [of, StatusCondition.isActive_clear k.isSingle_matchedBit,
    StatusCondition.isActive_clear k.isSingle_incompatibleBit, hbits.1, hbits.2, Bool.not_false,
    Bool.and_true, Bool.not_true, Bool.and_false]
  rfl

lemma goes_record {k : EndpointKind} {peers : List Guid} {s : MatchedStatus}
    {i : IncompatibleStatus} {c : StatusCondition} (h : (of k peers s i c).Sized) (p : Policy) :
    Goes (of k peers s i c) (of k peers s (i.record p) (c.raise k.incompatibleBit)) := by
  have hbits : k.incompatibleBit.intersects k.matchedBit = false ∧
      k.incompatibleBit.intersects k.incompatibleBit = true := by cases k <;> decide
  rw [of_raise]
  refine ⟨Nat.le_refl _, Nat.le_refl _, fun _ _ => rfl, ?_, Nat.le_succ _, ?_, ?_, h⟩
  · simp [raise, of, hbits.1]
  · simp only [raise, of, IncompatibleStatus.record]
    omega
  · simp [raise, of, hbits.2, IncompatibleStatus.record]

lemma of_clear {k : EndpointKind} {peers : List Guid} {s : MatchedStatus} {i : IncompatibleStatus}
    {c : StatusCondition} {m : StatusMask} (hm : m.intersects k.matchedBit = false)
    (hi : m.intersects k.incompatibleBit = false) :
    of k peers s i (c.clear m) = of k peers s i c := by
  rw [of, StatusCondition.isActive_clear k.isSingle_matchedBit,
    StatusCondition.isActive_clear k.isSingle_incompatibleBit, hm, hi, Bool.not_false,
    Bool.and_true, Bool.and_true]
  rfl

/-- Some peers are lost and some are gained, and no bit tells of it yet. -/
structure Shifts (lost gained : Nat) (a b : Account) : Prop where
  total : b.total = a.total + gained
  current : b.current + lost = a.current + gained
  told : b.told = a.told
  refused : b.refused = a.refused
  change : b.change = a.change
  warned : b.warned = a.warned
  sized : b.Sized

lemma Shifts.refl (h : a.Sized) : Shifts 0 0 a a := ⟨rfl, rfl, rfl, rfl, rfl, rfl, h⟩

lemma Shifts.trans {l g l' g' : Nat} (h : Shifts l g a b) (h' : Shifts l' g' b c) :
    Shifts (l + l') (g + g') a c where
  total := by rw [h'.total, h.total, Nat.add_assoc]
  current := by
    have := h.current
    have := h'.current
    omega
  told := h'.told.trans h.told
  refused := h'.refused.trans h.refused
  change := h'.change.trans h.change
  warned := h'.warned.trans h.warned
  sized := h'.sized

lemma Shifts.raise {l g : Nat} (h : Shifts l g a b) (k : EndpointKind) (m : StatusMask) :
    Shifts l g (a.raise k m) (b.raise k m) :=
  ⟨h.total, h.current, congrArg (· || _) h.told, h.refused, h.change, congrArg (· || _) h.warned,
    h.sized⟩

lemma raise_or (a : Account) (k : EndpointKind) (m n : StatusMask) :
    a.raise k (m.or n) = (a.raise k m).raise k n := by
  simp only [Account.raise, StatusMask.or_intersects, Bool.or_assoc]

/-- The bit is raised for the peers that are lost and gained. -/
lemma Shifts.goes {l g : Nat} (h : Shifts l g a b) (hpos : 0 < l + g) {k : EndpointKind}
    {m : StatusMask} (hm : m.intersects k.matchedBit = true)
    (hi : m.intersects k.incompatibleBit = false) : Goes a (b.raise k m) := by
  have htotal := h.total
  have hcurrent := h.current
  have hmoved : ¬(a.total = b.total ∧ a.current = b.current) := by omega
  refine ⟨?_, ?_, fun ht hc => absurd ⟨ht, hc⟩ hmoved, ?_, Nat.le_of_eq h.refused.symm, ?_, ?_,
    h.sized⟩
  · exact Nat.le_trans (Nat.le_add_right _ _) (Nat.le_of_eq htotal.symm)
  · simp only [Account.raise]
    omega
  · simp only [Account.raise, hm, Bool.or_true]
    exact iff_of_true trivial (.inr hmoved)
  · simp only [Account.raise, h.refused, h.change]
  · simp [Account.raise, hi, h.refused, h.warned]

lemma Goes.met_ne_iff (h : Goes a b) :
    a.met ≠ b.met ↔ ¬(a.total = b.total ∧ a.current = b.current) := by
  refine not_congr ⟨fun heq => ?_, fun ⟨ht, hc⟩ => ?_⟩
  · simp only [met, Prod.mk.injEq] at heq
    exact ⟨heq.1, heq.2.1⟩
  · simp only [met, ht, hc, h.peers ht hc]

end Account

open Account (Goes)

def Udp.Look.Gentle : Look → Prop
  | .incompatible => False
  | .condition f => KeepsActive f
  | _ => True

lemma Table.length_keys_erase_lt {κ α : Type} [DecidableEq κ] {t : Table κ α} {k : κ}
    (h : k ∈ t.keys) : (t.erase k).keys.length < t.keys.length := by
  rw [keys_erase, List.length_filter_lt_length_iff_exists]
  exact ⟨k, h, by simp⟩

/-! ### Writers -/

namespace Writer

def account (x : Writer) : Account :=
  .of .writer x.history.matchedReaders x.matched x.incompatible x.condition

variable {P : Look → Prop} {x x' : Writer} {r : Guid}

lemma account_raise (x : Writer) (m : StatusMask) :
    (x.raise m).account = x.account.raise .writer m := Account.of_raise ..

lemma account_clear (x : Writer) : (x.clear .acknowledged).account = x.account :=
  Account.of_clear (by decide) (by decide)

lemma account_notePending (x : Writer) : x.notePending.account = x.account := by
  unfold notePending
  split_ifs
  · rfl
  · exact x.account_clear

lemma account_acknowledge (x : Writer) (r : Guid) (n : Nat) :
    (x.acknowledge r n).account = x.account := by
  have hhistory : ({ x with history := (x.history.acknowledge r n).1 } : Writer).account =
      x.account :=
    congrArg (Account.of .writer · x.matched x.incompatible x.condition)
      (Table.keys_adjust x.history.proxies r (·.acknowledge n))
  unfold acknowledge
  simp only
  split_ifs
  · rw [account_raise, hhistory]
    exact Account.raise_of_not (by decide) (by decide)
  · exact hhistory

lemma account_made (x : Writer) (key : InstanceKey) (kind : ChangeKind) (payload : Option Json) :
    ({ x with history := (x.history.addChange key kind payload).1 } : Writer).notePending.account =
      x.account := by
  rw [account_notePending]
  exact congrArg (Account.of .writer · x.matched x.incompatible x.condition)
    (Table.keys_map x.history.proxies fun _ p => p.enqueue _)

lemma shifts_addReader (h : x.account.Sized) (r : Guid) (q : Qos) :
    Account.Shifts 0 1 x.account (x.addReader r q).1.account := by
  refine ⟨rfl, rfl, rfl, rfl, rfl, rfl, ?_⟩
  have hlength : (x.history.matchReader r q).1.matchedReaders.length ≤
      x.history.matchedReaders.length + 1 := by
    cases hp : x.history.proxies.get? r with
    | some p =>
      rw [WriterHistory.matchReader_of_some hp]
      exact Nat.le_succ _
    | none =>
      rw [WriterHistory.matchReader_of_none hp]
      exact Nat.le_of_eq ((Table.keys_insertNew_perm _ _ _ _).length_eq)
  exact Nat.le_trans hlength (Nat.succ_le_succ h)

lemma shifts_removeReader (h : x.account.Sized) (hr : r ∈ x.history.matchedReaders) :
    Account.Shifts 1 0 x.account (x.removeReader r).account := by
  have hlt := Table.length_keys_erase_lt hr
  have hsized : x.history.proxies.keys.length ≤ x.matched.current := h
  have hcurrent : (x.removeReader r).matched.current = x.matched.current - 1 :=
    MatchedStatus.unmatched_current _
  refine ⟨MatchedStatus.unmatched_total _, ?_, rfl, rfl, rfl, rfl, ?_⟩
  · exact (congrArg (· + 1) hcurrent).trans (Nat.sub_add_cancel (by omega))
  · refine Nat.le_trans (Nat.le_sub_one_of_lt hlt) ?_
    exact Nat.le_trans (Nat.sub_le_sub_right hsized 1) (Nat.le_of_eq hcurrent.symm)

lemma goes_bound (h : x.account.Sized) (r : Guid) (q : Qos) :
    Goes x.account (Loopback.Domain.writerBound x r q).1.account := by
  have hbound : (Loopback.Domain.writerBound x r q).1.account =
      (x.addReader r q).1.account.raise .writer .publicationMatched :=
    (account_raise _ _).trans (congrArg (Account.raise .writer _) (account_notePending _))
  rw [hbound]
  exact (shifts_addReader h r q).goes (by decide) (by decide) (by decide)

lemma goes_unbound (h : x.account.Sized) (r : Guid) :
    Goes x.account (Loopback.Domain.writerUnbound x r).account := by
  unfold Loopback.Domain.writerUnbound
  split_ifs with hr
  · simp only
    rw [account_raise]
    refine (shifts_removeReader h (Table.has_iff_mem_keys.mp hr)).goes (by decide) ?_ ?_
    · unfold readerLost
      split_ifs <;> decide
    · unfold readerLost
      split_ifs <;> decide
  · exact .refl h

end Writer

namespace Udp.LinkedWriter

variable {x : LinkedWriter}

lemma shifts_foldl_drop (h : x.writer.account.Sized) {rs : List Guid} (hn : rs.Nodup)
    (hrs : ∀ r ∈ rs, r ∈ x.writer.history.matchedReaders) :
    Account.Shifts rs.length 0 x.writer.account (rs.foldl drop x).writer.account := by
  induction rs generalizing x with
  | nil => exact .refl h
  | cons r rs ih =>
    obtain ⟨hnot, hn⟩ := List.nodup_cons.mp hn
    have hfirst : Account.Shifts 1 0 x.writer.account (x.drop r).writer.account :=
      Writer.shifts_removeReader h (hrs r List.mem_cons_self)
    have hrest := ih (x := x.drop r) hfirst.sized hn fun r' hr' => by
      have hkeys : (x.drop r).writer.history.matchedReaders =
          x.writer.history.matchedReaders.filter (· ≠ r) := Table.keys_erase _ _
      rw [hkeys, List.mem_filter, decide_eq_true_iff]
      exact ⟨hrs r' (List.mem_cons_of_mem _ hr'), fun heq => hnot (heq ▸ hr')⟩
    rw [List.length_cons, Nat.add_comm]
    exact hfirst.trans hrest

lemma shifts_foldl_gain (h : x.writer.account.Sized) (new : WantedReaders) (out : List Outgoing) :
    Account.Shifts 0 new.length x.writer.account
      (new.foldl gainNext (x, out)).1.writer.account := by
  induction new generalizing x out with
  | nil => exact .refl h
  | cons e new ih =>
    have hfirst : Account.Shifts 0 1 x.writer.account (x.gain e.1 e.2.1 e.2.2).1.writer.account :=
      Writer.shifts_addReader h e.1 e.2.2
    rw [List.length_cons, Nat.add_comm]
    exact hfirst.trans (ih hfirst.sized _)

lemma account_settleStatus (w : Writer) {m : StatusMask} :
    (settleStatus w m).account = w.account.raise .writer m := by
  unfold settleStatus
  split_ifs
  · rw [Writer.account_raise, Account.raise, Account.raise, StatusMask.or_intersects,
      StatusMask.or_intersects]
    simp [show StatusMask.acknowledged.intersects EndpointKind.writer.matchedBit = false by decide,
      show StatusMask.acknowledged.intersects EndpointKind.writer.incompatibleBit = false by decide]
  · rw [Writer.account_raise, Writer.account_clear]

/-- A reconciliation counts every reader that goes and every reader that comes. -/
lemma goes_sync (h : x.writer.account.Sized) (ht : x.Tidy) (hd : x.addresses.Distinct)
    (wanted : WantedReaders) : Goes x.writer.account (x.sync wanted).1.writer.account := by
  have hstale : ∀ r ∈ x.stale wanted, r ∈ x.writer.history.matchedReaders := fun r hr => by
    have hhas := Table.has_iff_mem_keys.mpr (List.mem_filter.mp hr).1
    exact Table.has_iff_mem_keys.mp (ht.has_eq r ▸ hhas)
  have hsync : (x.sync wanted).1.writer.account =
      (x.synced wanted).1.writer.account.raise .writer
        (if (x.stale wanted).isEmpty && (x.unmet wanted).isEmpty then .none
          else .publicationMatched) := account_settleStatus _
  rw [hsync]
  by_cases hnone : (x.stale wanted).isEmpty && (x.unmet wanted).isEmpty
  · have hsame : (x.synced wanted).1 = x := by
      rw [Bool.and_eq_true, List.isEmpty_iff, List.isEmpty_iff] at hnone
      rw [synced, hnone.1, hnone.2]
      rfl
    rw [if_pos hnone, hsame]
    exact .of_eq h
      (Account.raise_of_not (StatusMask.none_intersects _) (StatusMask.none_intersects _))
  · have hlost : Account.Shifts (x.stale wanted).length 0 _ _ :=
      shifts_foldl_drop h (List.Nodup.filter _ hd) hstale
    have hboth := hlost.trans (shifts_foldl_gain hlost.sized (x.unmet wanted) [])
    rw [if_neg hnone]
    refine hboth.goes ?_ (by decide) (by decide)
    rw [Bool.and_eq_true, List.isEmpty_iff_length_eq_zero, List.isEmpty_iff_length_eq_zero] at hnone
    simp only [Nat.add_zero, Nat.zero_add]
    omega

end Udp.LinkedWriter

/-- What a step of a writer counts and tells, unless its application reads the refusals. -/
lemma Writer.Step.goes {P : Look → Prop} {x x' : Writer} (h : x.Step P x')
    (hP : ∀ l, P l → l.Gentle) (hs : x.account.Sized) : Goes x.account x'.account := by
  cases h with
  | made key kind payload => exact .of_eq hs (x.account_made key kind payload)
  | acknowledged r n => exact .of_eq hs (x.account_acknowledge r n)
  | bound r q => exact Writer.goes_bound hs r q
  | unbound r => exact Writer.goes_unbound hs r
  | synced addresses refused wanted ht hd => exact Udp.LinkedWriter.goes_sync hs ht hd wanted
  | refused p => exact Account.goes_record hs p
  | looked l hl =>
    have hgentle := hP l hl
    cases l with
    | take max => exact .refl hs
    | matched => exact .refl hs
    | incompatible => exact hgentle.elim
    | condition f =>
      refine .of_eq hs ?_
      have hactive : (f x.condition).active = x.condition.active := hgentle x.condition
      simp only [Look.writer, Writer.account, Account.of, StatusCondition.isActive, hactive]
  | closed => exact .refl hs

/-! ### Readers -/

namespace Reader

def account (y : Reader) : Account :=
  .of .reader y.cache.matchedWriters y.matched y.incompatible y.condition

variable {P : Look → Prop} {y y' : Reader} {w : Guid} {s : Reader × StatusMask}

lemma account_raise (y : Reader) (m : StatusMask) :
    (y.raise m).account = y.account.raise .reader m := Account.of_raise ..

lemma shifts_addWriter (h : y.account.Sized) (w : Guid) (b : Bool) :
    Account.Shifts 0 1 y.account (y.addWriter w b).account := by
  refine ⟨rfl, rfl, rfl, rfl, rfl, rfl, ?_⟩
  have hlength : (y.cache.addWriter w b).matchedWriters.length ≤
      y.cache.matchedWriters.length + 1 := by
    unfold ReaderCache.addWriter
    split_ifs
    · exact Nat.le_succ _
    · exact Nat.le_of_eq ((Table.keys_insertNew_perm _ _ _ _).length_eq)
  exact Nat.le_trans hlength (Nat.succ_le_succ h)

lemma shifts_removeWriter (h : y.account.Sized) (hs : y.removeWriter w = some s) :
    Account.Shifts 1 0 y.account s.1.account ∧
      s.2.intersects EndpointKind.reader.matchedBit = true ∧
      s.2.intersects EndpointKind.reader.incompatibleBit = false := by
  unfold removeWriter ReaderCache.removeWriter at hs
  split_ifs at hs with hw
  obtain rfl := Option.some.inj hs
  have hlt := Table.length_keys_erase_lt (Table.has_iff_mem_keys.mp hw)
  have hsized : y.cache.writers.keys.length ≤ y.matched.current := h
  have hcurrent : y.matched.unmatched.current = y.matched.current - 1 :=
    MatchedStatus.unmatched_current _
  refine ⟨⟨MatchedStatus.unmatched_total _, ?_, rfl, rfl, rfl, rfl, ?_⟩, ?_, ?_⟩
  · exact (congrArg (· + 1) hcurrent).trans (Nat.sub_add_cancel (by omega))
  · refine Nat.le_trans (Nat.le_sub_one_of_lt hlt) ?_
    exact Nat.le_trans (Nat.sub_le_sub_right hsized 1) (Nat.le_of_eq hcurrent.symm)
  · change StatusMask.intersects (if _ then _ else _) _ = true
    split_ifs <;> decide
  · change StatusMask.intersects (if _ then _ else _) _ = false
    split_ifs <;> decide

lemma goes_drop (h : (s.1.raise s.2).account.Sized) (w : Guid) :
    Goes (s.1.raise s.2).account
      ((LinkedReader.drop s w).1.raise (LinkedReader.drop s w).2).account := by
  unfold LinkedReader.drop
  split
  · next s' changed hs =>
    obtain ⟨hshifts, hm, hi⟩ := shifts_removeWriter (y := s.1) h hs
    rw [account_raise, account_raise, Account.raise_or]
    exact (hshifts.raise .reader s.2).goes (by decide) hm hi
  · exact .refl h

lemma goes_gain (h : (s.1.raise s.2).account.Sized) (e : Guid × Bool) :
    Goes (s.1.raise s.2).account
      ((LinkedReader.gain s e).1.raise (LinkedReader.gain s e).2).account := by
  have hshifts : Account.Shifts 0 1 s.1.account (s.1.addWriter e.1 e.2).account :=
    shifts_addWriter (y := s.1) h e.1 e.2
  rw [LinkedReader.gain, account_raise, account_raise, Account.raise_or]
  exact (hshifts.raise .reader s.2).goes (by decide) (by decide) (by decide)

lemma goes_foldl {β : Type} {f : Reader × StatusMask → β → Reader × StatusMask}
    (hf : ∀ s b, (s.1.raise s.2).account.Sized →
      Goes (s.1.raise s.2).account ((f s b).1.raise (f s b).2).account)
    (h : (s.1.raise s.2).account.Sized) (l : List β) :
    Goes (s.1.raise s.2).account ((l.foldl f s).1.raise (l.foldl f s).2).account := by
  induction l generalizing s with
  | nil => exact .refl h
  | cons b l ih => exact (hf s b h).trans (ih (hf s b h).sized)

lemma raise_none (y : Reader) : y.raise .none = y := by
  simp only [raise, StatusCondition.raise_none]

lemma account_receive (y : Reader) (w : Guid) (n : Nat) (c : Change) :
    (y.receive w n c).1.account = y.account := by
  have hcache : ∀ cache : ReaderCache, cache.matchedWriters = y.cache.matchedWriters →
      (({ y with cache } : Reader).raise .dataAvailable).account = y.account := by
    intro cache hkeys
    rw [account_raise, Account.raise_of_not (by decide) (by decide), account, hkeys]
    rfl
  have hkeys := ReaderCache.keys_receive y.cache w n c
  unfold receive
  split_ifs
  · split
    · next cache acked heq =>
      rw [heq] at hkeys
      exact hcache cache hkeys
    · rfl
    · rfl
  · rfl

lemma account_take (y : Reader) (max : Nat) : (y.take max).1.account = y.account := by
  cases ho : y.isOpen with
  | false => simp [Reader.take, ho]
  | true =>
    rw [take_of_open ho]
    simp only
    split_ifs
    · exact Account.of_clear (by decide) (by decide)
    · rfl

end Reader

/-- What a step of a reader counts and tells, unless its application reads the refusals. -/
lemma Reader.Step.goes {P : Look → Prop} {y y' : Reader} (h : y.Step P y')
    (hP : ∀ l, P l → l.Gentle) (hs : y.account.Sized) : Goes y.account y'.account := by
  have hnone : ((y, StatusMask.none).1.raise (y, StatusMask.none).2).account = y.account :=
    congrArg account y.raise_none
  have hsized : ((y, StatusMask.none).1.raise (y, StatusMask.none).2).account.Sized := hnone ▸ hs
  cases h with
  | received w n c => exact .of_eq hs (y.account_receive w n c)
  | bound w b =>
    cases hw : y.cache.hasWriter w with
    | true => simpa [Loopback.Domain.readerBound, hw] using .refl hs
    | false =>
      rw [readerBound_gain hw, ← hnone]
      exact goes_gain hsized (w, b)
  | unbound w =>
    rw [readerUnbound_drop, ← hnone]
    exact goes_drop hsized w
  | synced refused wanted =>
    -- losses come before gains
    have hdropped := goes_foldl (fun s w h => goes_drop h w) hsized
      (y.cache.matchedWriters.filter (!wanted.has ·))
    rw [← hnone]
    exact hdropped.trans (goes_foldl (fun s e h => goes_gain h e) hdropped.sized
      (wanted.filter (!y.cache.hasWriter ·.1)))
  | refused p => exact Account.goes_record hs p
  | looked l hl =>
    have hgentle := hP l hl
    cases l with
    | take max => exact .of_eq hs (y.account_take max)
    | matched => exact .refl hs
    -- left out: the refusals are not read
    | incompatible => exact hgentle.elim
    | condition f =>
      refine .of_eq hs ?_
      have hactive : (f y.condition).active = y.condition.active := hgentle y.condition
      simp only [Look.reader, Reader.account, Account.of, StatusCondition.isActive, hactive]
  | closed => exact .refl hs

end PubSub
