import Mathlib.Data.List.Perm.Basic
import PubSub.Proofs.Link

/-!
What one writer has numbered for one reader, when a change is queued some time after it was made.
The numbers that have run, those that are queued and those that are still held make up all numbers
from one on, but a later one may be queued before an earlier one; and then a reliable reader, which
takes them in order only, loses what it is offered too early.
-/

namespace PubSub

/-! ### A reader that is offered numbers -/

namespace WriterProxy

def answer (q : WriterProxy) (n : Nat) : Reception :=
  if n < q.next then .duplicate
  else if q.next < n ∧ q.reliable then .outOfOrder
  else .accepted

def offered (q : WriterProxy) (n : Nat) : WriterProxy :=
  if q.Takes n then { q with next := n + 1 } else q

def after (q : WriterProxy) (ns : List Nat) : WriterProxy := ns.foldl offered q

def answers (q : WriterProxy) : List Nat → List Reception
  | [] => []
  | n :: ns => q.answer n :: (q.offered n).answers ns

variable {q : WriterProxy} {k n : Nat} {b : Bool} {ns : List Nat}

lemma after_concat (q : WriterProxy) (ns : List Nat) (n : Nat) :
    q.after (ns ++ [n]) = (q.after ns).offered n := List.foldl_concat _ _ _ _

lemma answers_concat (q : WriterProxy) (ns : List Nat) (n : Nat) :
    q.answers (ns ++ [n]) = q.answers ns ++ [(q.after ns).answer n] := by
  induction ns generalizing q with
  | nil => rfl
  | cons m ns ih => exact congrArg (q.answer m :: ·) (ih (q.offered m))

@[simp] lemma offered_reliable (q : WriterProxy) (n : Nat) :
    (q.offered n).reliable = q.reliable := by
  unfold offered
  split_ifs <;> rfl

@[simp] lemma after_reliable (q : WriterProxy) (ns : List Nat) :
    (q.after ns).reliable = q.reliable := by
  induction ns generalizing q with
  | nil => rfl
  | cons n ns ih => exact (ih (q.offered n)).trans (offered_reliable q n)

lemma answer_next (b : Bool) (k : Nat) : (⟨b, k⟩ : WriterProxy).answer k = .accepted := by
  simp [answer]

lemma offered_next (b : Bool) (k : Nat) : (⟨b, k⟩ : WriterProxy).offered k = ⟨b, k + 1⟩ := by
  simp [offered, Takes]

/-- Numbers that come in order are all taken. -/
lemma answers_range' (b : Bool) (k n : Nat) :
    (⟨b, k⟩ : WriterProxy).answers (List.range' k n) = List.replicate n .accepted := by
  induction n generalizing k with
  | zero => rfl
  | succ n ih =>
    rw [List.range'_succ, answers, answer_next, offered_next, ih, List.replicate_succ]

/-- A reliable reader that has been offered every number once, and none of them too early, has
been offered them in order. -/
lemma eq_range'_of_answers (hperm : ns.Perm (List.range' k n))
    (hooo : .outOfOrder ∉ (⟨true, k⟩ : WriterProxy).answers ns) : ns = List.range' k n := by
  induction ns generalizing k n with
  | nil => exact (List.nil_perm.mp hperm).symm
  | cons m ns ih =>
    have hm : m ∈ List.range' k n := hperm.subset (List.mem_cons_self ..)
    have hle : k ≤ m := (List.mem_range'_1.mp hm).1
    rw [answers, List.mem_cons, not_or] at hooo
    have hmk : m = k := by
      by_contra hne
      have hlt : k < m := by omega
      have hnot : ¬m < k := by omega
      exact hooo.1 (by simp [answer, hnot, hlt])
    subst hmk
    obtain ⟨n, rfl⟩ : ∃ n', n = n' + 1 := by
      cases n with
      | zero => simp at hm
      | succ n => exact ⟨n, rfl⟩
    rw [List.range'_succ] at hperm ⊢
    rw [offered_next] at hooo
    rw [ih hperm.cons_inv hooo.2]

end WriterProxy

namespace ReaderCache

variable {r : ReaderCache} {w : Guid} {q : WriterProxy}

lemma receive_answer (h : r.writers.get? w = some q) (n : Nat) (c : Change) :
    (r.receive w n c).2.1 = q.answer n := by
  simp only [receive, h, WriterProxy.answer]
  split_ifs <;> rfl

end ReaderCache

/-! ### Numbers on their way -/

namespace Loopback

/-- The next number that a writer has for a reader and what the reader keeps for the writer; the
numbers that have run, with what became of them, those that are queued, and those that are held
back. -/
@[ext]
structure Lane where
  next : Option Nat
  peer : Option WriterProxy
  ran : List (Nat × Reception)
  queued : List Nat
  held : List Nat

namespace Lane

def entered (l : Lane) : List Nat := l.ran.map (·.1) ++ l.queued

def made (l : Lane) : List Nat := l.entered ++ l.held

def apart : Lane := ⟨none, none, [], [], []⟩

def make (l : Lane) : Lane :=
  match l.next with
  | some n => { l with next := some (n + 1), held := l.held ++ [n] }
  | none => l

def bind (b : Bool) (n : Nat) (l : Lane) : Lane :=
  { l with
    next := some (n + 1)
    peer := some ⟨b, 1⟩
    held := l.held ++ List.range' 1 n }

/-- The numbers `ns` are queued, which leaves the numbers `rest` held. -/
def queue (ns rest : List Nat) (l : Lane) : Lane :=
  { l with queued := l.queued ++ ns, held := rest }

def arrive (l : Lane) : Lane :=
  match l.queued, l.peer with
  | n :: ns, some q =>
    { l with
      peer := some (q.offered n)
      ran := l.ran ++ [(n, q.answer n)]
      queued := ns }
  | _, _ => l

/-- The two are bound: the numbers from one to `n` have been given, those that are held are held in
their order, and the reader has been offered what has run. -/
structure Bound (b : Bool) (n : Nat) (l : Lane) : Prop where
  next : l.next = some (n + 1)
  numbers : l.made.Perm (List.range' 1 n)
  held : l.held.Pairwise (· < ·)
  peer : l.peer = some (WriterProxy.after ⟨b, 1⟩ (l.ran.map (·.1)))
  answers : l.ran.map (·.2) = WriterProxy.answers ⟨b, 1⟩ (l.ran.map (·.1))

def Fits (l : Lane) : Prop := l = apart ∨ ∃ b n, l.Bound b n

/-- What is queued goes by its numbers, and would go on to do so if what is held were queued as it
was made. -/
def InOrder (l : Lane) : Prop := l.made.Pairwise (· < ·)

variable {l : Lane} {b : Bool} {n : Nat} {as bs cs : List Nat}

lemma inOrder_apart : apart.InOrder := List.Pairwise.nil

/-! ### What becomes of the order -/

lemma Bound.le (h : l.Bound b n) {m : Nat} (hm : m ∈ l.made) : m ≤ n := by
  have := List.mem_range'_1.mp (h.numbers.subset hm)
  omega

lemma Fits.make (h : l.Fits) : l.make.Fits ∧ (l.make.InOrder ↔ l.InOrder) := by
  rcases h with rfl | ⟨b, n, h⟩
  · exact ⟨.inl rfl, Iff.rfl⟩
  · have hmake : l.make = { l with next := some (n + 1 + 1), held := l.held ++ [n + 1] } := by
      simp [Lane.make, h.next]
    have hmade : l.make.made = l.made ++ [n + 1] := by
      rw [hmake]
      exact (List.append_assoc ..).symm
    have hlast : ∀ ms : List Nat, (∀ m ∈ ms, m ≤ n) → ms.Pairwise (· < ·) →
        (ms ++ [n + 1]).Pairwise (· < ·) := fun ms hle hms =>
      List.pairwise_append.mpr ⟨hms, List.pairwise_singleton _ _, fun m hm m' hm' => by
        rw [List.mem_singleton.mp hm']
        exact Nat.lt_succ_of_le (hle m hm)⟩
    refine ⟨.inr ⟨b, n + 1, ?_⟩, fun ho => ?_, fun ho => ?_⟩
    · refine ⟨by rw [hmake], ?_, ?_, by rw [hmake]; exact h.peer, by rw [hmake]; exact h.answers⟩
      · rw [hmade, List.range'_1_concat, Nat.add_comm 1 n]
        exact h.numbers.append_right _
      · rw [hmake]
        exact hlast _ (fun m hm => h.le (List.mem_append_right _ hm)) h.held
    · rw [InOrder, hmade] at ho
      exact ho.sublist (List.sublist_append_left ..)
    · rw [InOrder, hmade]
      exact hlast _ (fun m hm => h.le hm) ho

/-- What is replayed gets its numbers in order. -/
lemma bind_apart (b : Bool) (n : Nat) : (apart.bind b n).Fits ∧ (apart.bind b n).InOrder where
  left := .inr ⟨b, n, rfl, List.Perm.refl _, List.pairwise_lt_range' .., rfl, rfl⟩
  right := List.pairwise_lt_range' ..

lemma Bound.queue (h : l.Bound b n) (hl : l.held = as ++ (bs ++ cs)) :
    (l.queue bs (as ++ cs)).Bound b n := by
  refine ⟨h.next, ?_, ?_, h.peer, h.answers⟩
  · refine List.Perm.trans ?_ h.numbers
    have hswap : (bs ++ (as ++ cs)).Perm (as ++ (bs ++ cs)) := by
      rw [← List.append_assoc, ← List.append_assoc]
      exact List.perm_append_comm.append_right cs
    simp only [made, entered, Lane.queue, hl, List.append_assoc]
    exact (hswap.append_left _).append_left _
  · have hheld := h.held
    rw [hl] at hheld
    exact hheld.sublist ((List.sublist_append_right bs cs).append_left as)

/-- What is queued from between others overtakes those that are held before it: the order is kept
if and only if there are none, or nothing is queued. -/
lemma Fits.queue (h : l.Fits) (hl : l.held = as ++ (bs ++ cs)) :
    (l.queue bs (as ++ cs)).Fits ∧
      ((l.queue bs (as ++ cs)).InOrder ↔ l.InOrder ∧ (as = [] ∨ bs = [])) := by
  have hafter : (l.queue bs (as ++ cs)).made = l.entered ++ (bs ++ (as ++ cs)) := by
    simp [made, entered, Lane.queue]
  have hsame : as = [] ∨ bs = [] → (l.queue bs (as ++ cs)).made = l.made := by
    intro hnone
    rw [hafter, made, hl]
    rcases hnone with rfl | rfl <;> rfl
  rcases h with rfl | ⟨b, n, h⟩
  · obtain ⟨rfl, hrest⟩ := List.append_eq_nil_iff.mp hl.symm
    obtain ⟨rfl, rfl⟩ := List.append_eq_nil_iff.mp hrest
    exact ⟨.inl rfl, iff_of_true inOrder_apart ⟨inOrder_apart, .inl rfl⟩⟩
  · refine ⟨.inr ⟨b, n, h.queue hl⟩, fun ho => ?_, fun ⟨ho, hnone⟩ => ?_⟩
    · have hnone : as = [] ∨ bs = [] := by
        by_contra hsome
        rw [not_or] at hsome
        obtain ⟨a, ha⟩ := List.exists_mem_of_ne_nil as hsome.1
        obtain ⟨c, hc⟩ := List.exists_mem_of_ne_nil bs hsome.2
        have hheld := h.held
        rw [hl, List.pairwise_append] at hheld
        rw [InOrder, hafter, List.pairwise_append, List.pairwise_append] at ho
        have hac : a < c := hheld.2.2 a ha c (List.mem_append_left _ hc)
        have hca : c < a := ho.2.1.2.2 c hc a (List.mem_append_left _ ha)
        omega
      rw [InOrder, hsame hnone] at ho
      exact ⟨ho, hnone⟩
    · rw [InOrder, hsame hnone]
      exact ho

lemma Fits.arrive (h : l.Fits) : l.arrive.Fits ∧ (l.arrive.InOrder ↔ l.InOrder) := by
  rcases h with rfl | ⟨b, n, h⟩
  · exact ⟨.inl rfl, Iff.rfl⟩
  · cases hq : l.queued with
    | nil =>
      have hsame : l.arrive = l := by simp [Lane.arrive, hq]
      rw [hsame]
      exact ⟨.inr ⟨b, n, h⟩, Iff.rfl⟩
    | cons m ms =>
      have harrive : l.arrive = { l with
          peer := some ((WriterProxy.after ⟨b, 1⟩ (l.ran.map (·.1))).offered m)
          ran := l.ran ++ [(m, (WriterProxy.after ⟨b, 1⟩ (l.ran.map (·.1))).answer m)]
          queued := ms } := by
        simp [Lane.arrive, hq, h.peer]
      have hmade : l.arrive.made = l.made := by
        rw [harrive]
        simp [made, entered, hq]
      refine ⟨.inr ⟨b, n, ?_, hmade ▸ h.numbers, ?_, ?_, ?_⟩, by rw [InOrder, InOrder, hmade]⟩
      · rw [harrive]
        exact h.next
      · rw [harrive]
        exact h.held
      · rw [harrive, List.map_append, List.map_singleton, WriterProxy.after_concat]
      · rw [harrive, List.map_append, List.map_append, List.map_singleton, List.map_singleton,
          WriterProxy.answers_concat, h.answers]

/-! ### What comes of the order -/

/-- What is queued in order is taken as it arrives. -/
lemma Fits.accepted (h : l.Fits) (ho : l.InOrder) :
    l.entered.Pairwise (· < ·) ∧ ∀ e ∈ l.ran, e.2 = .accepted := by
  refine ⟨ho.sublist (List.sublist_append_left ..), fun e he => ?_⟩
  rcases h with rfl | ⟨b, n, h⟩
  · exact absurd he List.not_mem_nil
  · have hmade : l.made = List.range' 1 n :=
      h.numbers.eq_of_pairwise (fun _ _ _ _ h1 h2 => absurd h1 (Nat.lt_asymm h2)) ho
        (List.pairwise_lt_range' ..)
    rw [made, entered, List.append_assoc] at hmade
    obtain ⟨k, -, hran, -⟩ := List.range'_eq_append_iff.mp hmade.symm
    have hanswers := h.answers
    rw [hran, WriterProxy.answers_range'] at hanswers
    exact List.eq_of_mem_replicate (hanswers ▸ List.mem_map_of_mem he)

/-- Once everything has arrived, a reliable reader has found nothing out of order if and only if
everything was queued in order. -/
lemma Bound.inOrder_iff (h : l.Bound true n) (hheld : l.held = []) (hqueued : l.queued = []) :
    l.InOrder ↔ ∀ e ∈ l.ran, e.2 ≠ .outOfOrder := by
  refine ⟨fun ho e he => ?_, fun hran => ?_⟩
  · rw [(Fits.accepted (.inr ⟨true, n, h⟩) ho).2 e he]
    decide
  · have hmade : l.made = l.ran.map (·.1) := by simp [made, entered, hheld, hqueued]
    have hooo : Reception.outOfOrder ∉ WriterProxy.answers ⟨true, 1⟩ (l.ran.map (·.1)) := by
      rw [← h.answers]
      intro hmem
      obtain ⟨e, he, hout⟩ := List.mem_map.mp hmem
      exact hran e he hout
    rw [InOrder, hmade, WriterProxy.eq_range'_of_answers (hmade ▸ h.numbers) hooo]
    exact List.pairwise_lt_range' ..

end Lane

end Loopback

end PubSub
