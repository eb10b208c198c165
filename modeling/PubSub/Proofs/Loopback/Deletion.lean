import PubSub.Proofs.Endpoint.Deletion
import PubSub.Proofs.Loopback.Roster
import PubSub.Proofs.Loopback.Step

/-!
A participant of a domain is deleted: its writers are closed one after another, then its readers.
Only endpoints that are still open are told of one that is closed, so a writer that is deleted keeps
all the readers that it had, and a reader all the writers of others that it had.
-/

namespace PubSub.Loopback

/-! ### Who is told -/

namespace Domain

variable {d : Domain} {w r : Guid} {x : Writer} {y : Reader}

/-- Of the endpoints that stay listed, only those of the other kind are told of one that goes. -/
lemma writers_foldl_part {e : Entry} {es : List Entry} {w : Guid}
    (h : e.kind = .writer ∨ ∀ p ∈ es, p.kind = .writer → p.guid ≠ w) (d : Domain) :
    (es.foldl (fun d p => d.part e p) d).writers.get? w = d.writers.get? w := by
  induction es generalizing d with
  | nil => rfl
  | cons p es ih =>
    have hrest := ih (h.imp_right fun h p' hp' => h p' (List.mem_cons_of_mem _ hp')) (d.part e p)
    refine hrest.trans ?_
    cases he : e.kind <;> cases hp : p.kind <;> simp only [part, he, hp]
    · rfl
    · have hne : w ≠ p.guid := fun heq =>
        (h.resolve_left (by simp [he])) p List.mem_cons_self hp heq.symm
      rw [get?_adjustWriter, if_neg hne]

lemma readers_foldl_part {e : Entry} {es : List Entry} {r : Guid}
    (h : e.kind = .reader ∨ ∀ p ∈ es, p.kind = .reader → p.guid ≠ r) (d : Domain) :
    (es.foldl (fun d p => d.part e p) d).readers.get? r = d.readers.get? r := by
  induction es generalizing d with
  | nil => rfl
  | cons p es ih =>
    have hrest := ih (h.imp_right fun h p' hp' => h p' (List.mem_cons_of_mem _ hp')) (d.part e p)
    refine hrest.trans ?_
    cases he : e.kind <;> cases hp : p.kind <;> simp only [part, he, hp]
    · have hne : r ≠ p.guid := fun heq =>
        (h.resolve_left (by simp [he])) p List.mem_cons_self hp heq.symm
      rw [get?_adjustReader, if_neg hne]
    · rfl

/-! ### What a closing does -/

lemma openAs?_writer (hx : d.writers.get? w = some x) :
    d.openAs? .writer w = if x.isOpen then some (x.key, x.qos) else none := by
  simp only [openAs?, card?, hx, Option.map_some, Option.filter_some, Card.ofWriter]
  split_ifs <;> rfl

lemma openAs?_reader (hy : d.readers.get? r = some y) :
    d.openAs? .reader r = if y.isOpen then some (y.key, y.qos) else none := by
  simp only [openAs?, card?, hy, Option.map_some, Option.filter_some, Card.ofReader]
  split_ifs <;> rfl

lemma closeWriter_cases (d : Domain) (w : Guid) :
    d.openAs? .writer w = none ∧ d.closeWriter w = d ∨
      ∃ key q, d.openAs? .writer w = some (key, q) ∧
        d.closeWriter w = (d.adjustWriter w Writer.closed).unlist key w := by
  unfold closeWriter
  cases hx : d.writers.get? w with
  | none => exact .inl ⟨by simp [openAs?, card?, hx], rfl⟩
  | some x =>
    rw [openAs?_writer hx]
    simp only
    split_ifs
    · exact .inr ⟨x.key, x.qos, rfl, rfl⟩
    · exact .inl ⟨rfl, rfl⟩

lemma closeReader_cases (d : Domain) (r : Guid) :
    d.openAs? .reader r = none ∧ d.closeReader r = d ∨
      ∃ key q, d.openAs? .reader r = some (key, q) ∧
        d.closeReader r = (d.adjustReader r Reader.closed).unlist key r := by
  unfold closeReader
  cases hy : d.readers.get? r with
  | none => exact .inl ⟨by simp [openAs?, card?, hy], rfl⟩
  | some y =>
    rw [openAs?_reader hy]
    simp only
    split_ifs
    · exact .inr ⟨y.key, y.qos, rfl, rfl⟩
    · exact .inl ⟨rfl, rfl⟩

lemma closed_writer (h : d.openAs? .writer w = none) :
    (d.writers.get? w).map Writer.closed = d.writers.get? w := by
  cases hx : d.writers.get? w with
  | none => rfl
  | some x =>
    rw [openAs?_writer hx] at h
    exact congrArg some (Writer.closed_of_closed (by simpa using h))

lemma closed_reader (h : d.openAs? .reader r = none) :
    (d.readers.get? r).map Reader.closed = d.readers.get? r := by
  cases hy : d.readers.get? r with
  | none => rfl
  | some y =>
    rw [openAs?_reader hy] at h
    exact congrArg some (Reader.closed_of_closed (by simpa using h))

end Domain

namespace Good

open Domain

variable {met : List Meeting} {d d₁ : Domain} {g w r : Guid} {k : EndpointKind} {key : MatchKey}
  {q : Qos} {owed : Guid → Guid → List Change} {got : Guid → Guid → List (Change × Reception)}

/-- Those that are told of an endpoint are open, and not of its kind. -/
lemma writers_unlist (h : Good met ⟨d, owed, got⟩) (hopen : d.openAs? k g = some (key, q))
    (he : d₁.entries = d.entries) (hw : k = .writer ∨ d.openAs? .writer w = none) :
    (d₁.unlist key g).writers.get? w = d₁.writers.get? w := by
  rw [h.unlist_eq hopen he]
  refine writers_foldl_part (hw.imp_right fun hnone p hp hk => ?_) d₁
  rintro rfl
  have hlisted := (h.listed.mem key p).mp (List.mem_filter.mp hp).1
  rw [hk, hnone] at hlisted
  cases hlisted

lemma readers_unlist (h : Good met ⟨d, owed, got⟩) (hopen : d.openAs? k g = some (key, q))
    (he : d₁.entries = d.entries) (hr : k = .reader ∨ d.openAs? .reader r = none) :
    (d₁.unlist key g).readers.get? r = d₁.readers.get? r := by
  rw [h.unlist_eq hopen he]
  refine readers_foldl_part (hr.imp_right fun hnone p hp hk => ?_) d₁
  rintro rfl
  have hlisted := (h.listed.mem key p).mp (List.mem_filter.mp hp).1
  rw [hk, hnone] at hlisted
  cases hlisted

/-! ### One endpoint is closed -/

lemma writers_closeWriter (h : Good met ⟨d, owed, got⟩) (g w : Guid) :
    (d.closeWriter g).writers.get? w =
      if w = g then (d.writers.get? w).map Writer.closed else d.writers.get? w := by
  rcases d.closeWriter_cases g with ⟨hnone, heq⟩ | ⟨key, q, hopen, heq⟩
  · rw [heq]
    split_ifs with hw
    · rw [hw, closed_writer hnone]
    · rfl
  · rw [heq]
    exact .trans (h.writers_unlist hopen (by rfl) (.inl rfl)) (get?_adjustWriter _ _ _ _)

lemma readers_closeReader (h : Good met ⟨d, owed, got⟩) (g r : Guid) :
    (d.closeReader g).readers.get? r =
      if r = g then (d.readers.get? r).map Reader.closed else d.readers.get? r := by
  rcases d.closeReader_cases g with ⟨hnone, heq⟩ | ⟨key, q, hopen, heq⟩
  · rw [heq]
    split_ifs with hr
    · rw [hr, closed_reader hnone]
    · rfl
  · rw [heq]
    exact .trans (h.readers_unlist hopen (by rfl) (.inl rfl)) (get?_adjustReader _ _ _ _)

lemma readers_closeWriter (h : Good met ⟨d, owed, got⟩) (g : Guid) {r : Guid}
    (hr : d.openAs? .reader r = none) : (d.closeWriter g).readers.get? r = d.readers.get? r := by
  rcases d.closeWriter_cases g with ⟨-, heq⟩ | ⟨key, q, hopen, heq⟩
  · rw [heq]
  · rw [heq]
    exact h.readers_unlist hopen rfl (.inr hr)

lemma writers_closeReader (h : Good met ⟨d, owed, got⟩) (g : Guid) {w : Guid}
    (hw : d.openAs? .writer w = none) : (d.closeReader g).writers.get? w = d.writers.get? w := by
  rcases d.closeReader_cases g with ⟨-, heq⟩ | ⟨key, q, hopen, heq⟩
  · rw [heq]
  · rw [heq]
    exact h.writers_unlist hopen rfl (.inr hw)

/-! ### One endpoint after another -/

lemma foldl_closeWriter (h : Good met ⟨d, owed, got⟩) (ws : List Guid) :
    (∀ w, (ws.foldl Domain.closeWriter d).writers.get? w =
      if w ∈ ws then (d.writers.get? w).map Writer.closed else d.writers.get? w) ∧
    ∀ r, d.openAs? .reader r = none →
      (ws.foldl Domain.closeWriter d).readers.get? r = d.readers.get? r := by
  induction ws generalizing d with
  | nil => exact ⟨fun w => by simp, fun r _ => rfl⟩
  | cons g ws ih =>
    obtain ⟨hwriters, hreaders⟩ := ih (h.closeWriter g)
    refine ⟨fun w => ?_, fun r hr => ?_⟩
    · rw [List.foldl_cons, hwriters, h.writers_closeWriter]
      simp only [List.mem_cons]
      split_ifs <;> simp_all
    · have hnone : (d.closeWriter g).openAs? .reader r = none := by
        rw [(shut_closeWriter d g).openAs, if_neg (by simp), hr]
      exact (hreaders r hnone).trans (h.readers_closeWriter g hr)

lemma foldl_closeReader (h : Good met ⟨d, owed, got⟩) (rs : List Guid) :
    (∀ r, (rs.foldl Domain.closeReader d).readers.get? r =
      if r ∈ rs then (d.readers.get? r).map Reader.closed else d.readers.get? r) ∧
    ∀ w, d.openAs? .writer w = none →
      (rs.foldl Domain.closeReader d).writers.get? w = d.writers.get? w := by
  induction rs generalizing d with
  | nil => exact ⟨fun r => by simp, fun w _ => rfl⟩
  | cons g rs ih =>
    obtain ⟨hreaders, hwriters⟩ := ih (h.closeReader g)
    refine ⟨fun r => ?_, fun w hw => ?_⟩
    · rw [List.foldl_cons, hreaders, h.readers_closeReader]
      simp only [List.mem_cons]
      split_ifs <;> simp_all
    · have hnone : (d.closeReader g).openAs? .writer w = none := by
        rw [(shut_closeReader d g).openAs, if_neg (by simp), hw]
      exact (hwriters w hnone).trans (h.writers_closeReader g hw)

/-- If nothing has happened but that some endpoints have been closed, those that are still open
have each other as they had before. -/
lemma bound_of_openAs? {met' : List Meeting} {d' : Domain} (h : Good met ⟨d, owed, got⟩)
    (h' : Good met' ⟨d', owed, got⟩) {P : EndpointKind → Guid → Prop}
    [∀ k g, Decidable (P k g)]
    (hopen : ∀ k g, d'.openAs? k g = if P k g then none else d.openAs? k g) :
    d'.Bound w r ↔ d.Bound w r ∧ ¬P .writer w ∧ ¬P .reader r := by
  refine h'.bound_iff.trans (.trans ?_ (and_congr_left' h.bound_iff.symm))
  simp only [Domain.Beside, hopen]
  by_cases hw : P .writer w <;> by_cases hr : P .reader r <;> simp [hw, hr]

end Good

/-! ### A participant is deleted -/

namespace Domain

/-- The domain when the writers of a participant are closed already, and its readers not yet. -/
def halfDeleted (d : Domain) (p : Nat) : Domain :=
  (d.writers.keys.filter (·.participant = p)).foldl closeWriter
    { d with participants := d.participants.adjust p ({ · with deleted := true }) }

lemma delete_eq (d : Domain) (p : Nat) :
    d.delete p = ((d.halfDeleted p).readers.keys.filter (·.participant = p)).foldl closeReader
      (d.halfDeleted p) := rfl

lemma mem_keys_of {α : Type} {t : Table Guid α} {p : Nat} {g : Guid} :
    g ∈ t.keys.filter (·.participant = p) ↔ t.has g = true ∧ g.participant = p := by
  rw [List.mem_filter, decide_eq_true_iff, Table.has_iff_mem_keys]

lemma openAs?_halfDeleted (d : Domain) (p : Nat) (k : EndpointKind) (g : Guid) :
    (d.halfDeleted p).openAs? k g =
      if k = .writer ∧ g.participant = p then none else d.openAs? k g := by
  rw [halfDeleted, foldl_shut_all shut_closeWriter fun _ => mem_keys_of]
  cases k <;> rfl

end Domain

namespace Good

open Domain

variable {met : List Meeting} {d : Domain} {w r : Guid} {owed : Guid → Guid → List Change}
  {got : Guid → Guid → List (Change × Reception)} {p : Nat}

lemma adjusted (h : Good met ⟨d, owed, got⟩) (p : Nat) : Good met
    ⟨{ d with participants := d.participants.adjust p ({ · with deleted := true }) }, owed, got⟩ :=
  h.adjustParticipant p (fun _ => rfl) fun _ => rfl

lemma halfDeleted (h : Good met ⟨d, owed, got⟩) (p : Nat) :
    Good met ⟨d.halfDeleted p, owed, got⟩ :=
  (h.adjusted p).foldl_close (fun _ g h => h.closeWriter g) _

/-- **A writer that is deleted keeps everything that it has**, its readers too. -/
theorem writers_delete (h : Good met ⟨d, owed, got⟩) (hw : w.participant = p) :
    (d.delete p).writers.get? w = (d.writers.get? w).map Writer.closed := by
  have hnone : (d.halfDeleted p).openAs? .writer w = none := by
    rw [openAs?_halfDeleted, if_pos ⟨rfl, hw⟩]
  rw [delete_eq, ((h.halfDeleted p).foldl_closeReader _).2 w hnone]
  refine (((h.adjusted p).foldl_closeWriter _).1 w).trans ?_
  split_ifs with hmem
  · rfl
  · have habsent : d.writers.get? w = none := Table.has_eq_false.mp
      (Bool.eq_false_iff.mpr fun hhas => hmem (mem_keys_of.mpr ⟨hhas, hw⟩))
    rw [habsent, Option.map_none]

/-- A reader that has been closed before stays as it is. -/
lemma closed_readers_delete (h : Good met ⟨d, owed, got⟩) (p : Nat)
    (hr : d.openAs? .reader r = none) : (d.delete p).readers.get? r = d.readers.get? r := by
  have hhalf : (d.halfDeleted p).readers.get? r = d.readers.get? r :=
    ((h.adjusted p).foldl_closeWriter _).2 r hr
  rw [delete_eq, ((h.halfDeleted p).foldl_closeReader _).1, hhalf]
  split_ifs
  · exact closed_reader hr
  · rfl

/-- **A reader that is deleted keeps the writers that others had for it**, and no others. -/
theorem readers_delete (h : Good met ⟨d, owed, got⟩) (hr : r.participant = p) {key : MatchKey}
    {q : Qos} (hopen : d.openAs? .reader r = some (key, q)) :
    ∃ y, (d.delete p).readers.get? r = some y ∧ y.isOpen = false ∧
      {w | d.Bound w r ∧ w.participant ≠ p}.encard = y.status.matched := by
  have hhalf := h.halfDeleted p
  have hopen' : (d.halfDeleted p).openAs? .reader r = some (key, q) := by
    rw [openAs?_halfDeleted, if_neg (by simp), hopen]
  obtain ⟨a, ha, ho, -, -⟩ := openAs?_eq_some.mp hopen'
  obtain ⟨y, hy, rfl⟩ := Option.map_eq_some_iff.mp ha
  refine ⟨y.closed, ?_, rfl, ?_⟩
  · rw [delete_eq, (hhalf.foldl_closeReader _).1, if_pos, hy, Option.map_some]
    exact mem_keys_of.mpr ⟨Table.has_eq_true.mpr ⟨y, hy⟩, hr⟩
  · -- the writers of the participant are closed before any reader of it
    have hbound : ∀ w, (d.halfDeleted p).Bound w r ↔ d.Bound w r ∧ w.participant ≠ p := fun w => by
      rw [h.bound_of_openAs? hhalf (openAs?_halfDeleted d p)]
      simp
    have hcount := (hhalf.reader_counts hy ho).1
    simp only [hbound] at hcount
    exact hcount

/-- Two that are open have each other after a deletion if they had each other before, and both are
still there. -/
lemma bound_delete (h : Good met ⟨d, owed, got⟩) (p : Nat) (w r : Guid) :
    (d.delete p).Bound w r ↔ d.Bound w r ∧ w.participant ≠ p ∧ r.participant ≠ p :=
  h.bound_of_openAs? (h.delete p) (openAs?_delete d p)

end Good

namespace Domain

variable {d : Domain}

lemma isSome_openWriter? (d : Domain) (w : Guid) :
    (d.endpoints.openWriter? w).isSome = (d.openAs? .writer w).isSome := by
  cases hx : d.writers.get? w with
  | none => simp [Endpoints.openWriter?, endpoints, openAs?, card?, hx]
  | some x =>
    rw [openAs?_writer hx]
    simp only [Endpoints.openWriter?, endpoints, hx, Option.filter_some]
    split_ifs <;> rfl

lemma isSome_openReader? (d : Domain) (r : Guid) :
    (d.endpoints.openReader? r).isSome = (d.openAs? .reader r).isSome := by
  cases hy : d.readers.get? r with
  | none => simp [Endpoints.openReader?, endpoints, openAs?, card?, hy]
  | some y =>
    rw [openAs?_reader hy]
    simp only [Endpoints.openReader?, endpoints, hy, Option.filter_some]
    split_ifs <;> rfl

end Domain

namespace Good

open Domain

variable {met : List Meeting} {d : Domain} {owed : Guid → Guid → List Change}
  {got : Guid → Guid → List (Change × Reception)} {p : Nat}

/-- **Whoever stays open loses those that are deleted, and nobody else.** -/
theorem loses_delete (h : Good met ⟨d, owed, got⟩) (p : Nat) :
    d.endpoints.Loses p (d.delete p).endpoints := by
  have h' := h.delete p
  have hopen : ∀ k g, g.participant ≠ p → (d.delete p).openAs? k g = d.openAs? k g :=
    fun k g hg => (openAs?_delete d p k g).trans (if_neg hg)
  refine ⟨fun w hw => rel_of_isSome ?_ fun x x' hx hx' => ?_,
    fun r hr => rel_of_isSome ?_ fun y y' hy hy' => ?_⟩
  · rw [isSome_openWriter?, isSome_openWriter?, hopen .writer w hw]
  · obtain ⟨hx, ho⟩ := Option.filter_eq_some_iff.mp hx
    obtain ⟨hx', ho'⟩ := Option.filter_eq_some_iff.mp hx'
    have hmatched := fun r => h'.bound_of_isMatched (r := r) hx' ho'
    refine ⟨fun r => ?_, ?_⟩
    · rw [← hmatched, ← h.bound_of_isMatched hx ho, h.bound_delete]
      simp [hw]
    · have hcount := (h'.writer_counts hx' ho').1
      simp only [hmatched] at hcount
      exact hcount
  · rw [isSome_openReader?, isSome_openReader?, hopen .reader r hr]
  · obtain ⟨hy, ho⟩ := Option.filter_eq_some_iff.mp hy
    obtain ⟨hy', ho'⟩ := Option.filter_eq_some_iff.mp hy'
    have hhas := fun w => h'.bound_of_hasWriter (w := w) hy' ho'
    refine ⟨fun w => ?_, ?_⟩
    · rw [← hhas, ← h.bound_of_hasWriter hy ho, h.bound_delete]
      simp [hr]
    · have hcount := (h'.reader_counts hy' ho').1
      simp only [hhas] at hcount
      exact hcount

/-- Who reports no match has nobody. -/
lemma not_bound_of_writer (h : Good met ⟨d, owed, got⟩) {w : Guid} {x : Writer}
    (hx : d.writers.get? w = some x) (hnone : x.matched.current = 0) (r : Guid) :
    ¬d.Bound w r := by
  intro hbound
  obtain ⟨x', -, hx', -, ho, -⟩ := id hbound
  obtain rfl := Option.some.inj (hx'.symm.trans hx)
  have hcount := (h.writer_counts hx ho).1
  rw [hnone, Nat.cast_zero, Set.encard_eq_zero] at hcount
  exact Set.eq_empty_iff_forall_notMem.mp hcount r hbound

lemma not_bound_of_reader (h : Good met ⟨d, owed, got⟩) {r : Guid} {y : Reader}
    (hy : d.readers.get? r = some y) (hnone : y.matched.current = 0) (w : Guid) :
    ¬d.Bound w r := by
  intro hbound
  obtain ⟨-, y', -, hy', -, ho, -⟩ := id hbound
  obtain rfl := Option.some.inj (hy'.symm.trans hy)
  have hcount := (h.reader_counts hy ho).1
  rw [hnone, Nat.cast_zero, Set.encard_eq_zero] at hcount
  exact Set.eq_empty_iff_forall_notMem.mp hcount w hbound

/-- **A deletion leaves its participant with matches, unless it had none before.** -/
theorem idle_delete_iff (h : Good met ⟨d, owed, got⟩) (p : Nat) :
    (d.delete p).endpoints.Idle p ↔ d.endpoints.Idle p := by
  constructor
  · intro hidle
    have hwriter : ∀ w x, w.participant = p → d.writers.get? w = some x →
        x.status.matched = 0 ∧ x.status.unacknowledged = 0 := by
      intro w x hw hx
      have hclosed := h.writers_delete hw
      rw [hx, Option.map_some] at hclosed
      exact hidle.writer w x.closed hw hclosed
    refine ⟨hwriter, fun r y hr hy => ?_⟩
    have hopen := openAs?_reader hy
    split_ifs at hopen with ho
    · -- it had writers of others only, and still has all of those
      obtain ⟨y', hy', -, hothers⟩ := h.readers_delete hr hopen
      rw [hidle.reader r y' hr hy', Nat.cast_zero, Set.encard_eq_zero] at hothers
      have hnobody : {w | d.Bound w r} = ∅ := by
        refine Set.eq_empty_iff_forall_notMem.mpr fun w hbound => ?_
        by_cases hw : w.participant = p
        · obtain ⟨x, -, hx, -⟩ := id hbound
          exact h.not_bound_of_writer hx (hwriter w x hw hx).1 r hbound
        · exact Set.eq_empty_iff_forall_notMem.mp hothers w ⟨hbound, hw⟩
      have hcount := (h.reader_counts hy ho).1
      rw [hnobody, Set.encard_empty] at hcount
      exact Nat.cast_eq_zero.mp hcount.symm
    · exact hidle.reader r y hr ((h.closed_readers_delete p hopen).trans hy)
  · intro hidle
    refine ⟨fun w x' hw hx' => ?_, fun r y' hr hy' => ?_⟩
    · obtain ⟨x, hx, rfl⟩ := Option.map_eq_some_iff.mp ((h.writers_delete hw).symm.trans hx')
      exact hidle.writer w x hw hx
    · cases hopen : d.openAs? .reader r with
      | none => exact hidle.reader r y' hr ((h.closed_readers_delete p hopen).symm.trans hy')
      | some a =>
        obtain ⟨y, hy, -, hothers⟩ := h.readers_delete hr hopen
        obtain rfl := Option.some.inj (hy.symm.trans hy')
        have hnobody : {w | d.Bound w r ∧ w.participant ≠ p} = ∅ := by
          refine Set.eq_empty_iff_forall_notMem.mpr fun w hbound => ?_
          obtain ⟨-, y₀, -, hy₀, -⟩ := id hbound.1
          exact h.not_bound_of_reader hy₀ (hidle.reader r y₀ hr hy₀) w hbound.1
        rw [hnobody, Set.encard_empty] at hothers
        exact Nat.cast_eq_zero.mp hothers.symm

end Good

end PubSub.Loopback
