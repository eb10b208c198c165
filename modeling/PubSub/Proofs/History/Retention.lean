import PubSub.Proofs.History.Run

/-!
What a history retains for readers to come. Eviction takes one change of one instance at a time,
and yet what is left is told by the changes alone: of every instance the latest ones, as many as the
depth allows. Readers that come and go and what they acknowledge have no part in it, and so a new
reader is replayed exactly these changes.
-/

namespace PubSub.WriterHistory

variable {depth : Option Nat} {n : Nat} {c d : Change} {cs ds : List Change} {key : InstanceKey}

/-- Fewer changes of the same instance come later than the depth allows. -/
def IsRecent (depth : Option Nat) (c : Change) (later : List Change) : Prop :=
  ∀ n ∈ depth, (later.filter (·.key = c.key)).length < n

instance (depth : Option Nat) (c : Change) (later : List Change) :
    Decidable (IsRecent depth c later) :=
  inferInstanceAs (Decidable (∀ n ∈ depth, _))

def recent (depth : Option Nat) : List Change → List Change
  | [] => []
  | c :: later =>
    if IsRecent depth c later then c :: recent depth later else recent depth later

lemma isRecent_some : IsRecent (some n) c cs ↔ (cs.filter (·.key = c.key)).length < n := by
  simp [IsRecent]

lemma recent_none (cs : List Change) : recent none cs = cs := by
  induction cs with
  | nil => rfl
  | cons c cs ih => rw [recent, if_pos (by simp [IsRecent]), ih]

/-- Of each instance as many changes are recent as the depth allows. -/
lemma length_filter_recent (n : Nat) (cs : List Change) (key : InstanceKey) :
    ((recent (some n) cs).filter (·.key = key)).length =
      min n (cs.filter (·.key = key)).length := by
  induction cs with
  | nil => simp [recent]
  | cons c cs ih =>
    by_cases hkey : c.key = key
    · subst hkey
      rw [recent, List.filter_cons_of_pos (by simp), List.length_cons]
      split_ifs with hc
      · rw [List.filter_cons_of_pos (by simp), List.length_cons, ih]
        rw [isRecent_some] at hc
        omega
      · rw [isRecent_some] at hc
        omega
    · rw [recent, List.filter_cons_of_neg (by simpa using hkey)]
      split_ifs
      · rw [List.filter_cons_of_neg (by simpa using hkey), ih]
      · exact ih

/-! ### One more change -/

lemma retain_cons_of_ne (hd : d.key ≠ c.key) :
    retain (some n) (d :: ds) c = d :: retain (some n) ds c := by
  have hfilter : (d :: (ds ++ [c])).filter (·.key = c.key) = (ds ++ [c]).filter (·.key = c.key) :=
    List.filter_cons_of_neg (by simpa using hd)
  simp only [retain, List.cons_append, hfilter, dropFirst, if_neg hd]
  split_ifs <;> rfl

lemma retain_cons_of_eq (hd : d.key = c.key) :
    retain (some n) (d :: ds) c =
      if n < (ds.filter (·.key = c.key)).length + 2 then ds ++ [c] else d :: (ds ++ [c]) := by
  have hcount : ((d :: (ds ++ [c])).filter (·.key = c.key)).length =
      (ds.filter (·.key = c.key)).length + 2 := by
    simp [List.filter_append, hd]
  simp only [retain, List.cons_append, hcount, dropFirst, if_pos hd]

lemma retain_of_room (h : (ds.filter (·.key = c.key)).length < n) :
    retain (some n) ds c = ds ++ [c] := by
  have hroom : ¬n < ((ds ++ [c]).filter (·.key = c.key)).length := by
    simp [List.filter_append]
    omega
  rw [retain]
  exact if_neg hroom

lemma isRecent_concat_of_ne (hd : d.key ≠ c.key) :
    IsRecent (some n) d (cs ++ [c]) ↔ IsRecent (some n) d cs := by
  simp [isRecent_some, List.filter_append, Ne.symm hd]

lemma isRecent_concat_of_eq (hd : d.key = c.key) :
    IsRecent (some n) d (cs ++ [c]) ↔ (cs.filter (·.key = c.key)).length + 1 < n := by
  simp [isRecent_some, List.filter_append, hd]

/-- **What is retained stays the recent part.** -/
lemma retain_recent (depth : Option Nat) (cs : List Change) (c : Change) :
    retain depth (recent depth cs) c = recent depth (cs ++ [c]) := by
  cases depth with
  | none => simp only [recent_none, retain]
  | some n =>
    induction cs with
    | nil =>
      by_cases hn : 0 < n
      · rw [retain_of_room (by simpa [recent] using hn), recent, List.nil_append, recent,
          if_pos (isRecent_some.mpr (by simpa using hn))]
        rfl
      · obtain rfl : n = 0 := by omega
        simp [retain, recent, dropFirst, isRecent_some]
    | cons d cs ih =>
      have hcount := length_filter_recent n cs c.key
      rw [List.cons_append, recent, recent]
      by_cases hd : d.key = c.key
      · simp only [isRecent_concat_of_eq hd, isRecent_some, hd, ← ih]
        by_cases hroom : (cs.filter (·.key = c.key)).length < n
        · rw [if_pos hroom, retain_cons_of_eq hd]
          by_cases hlast : (cs.filter (·.key = c.key)).length + 1 < n
          · rw [if_neg (by omega), if_pos hlast, retain_of_room (by omega)]
          · -- the oldest change of the instance gives way, and it is no longer recent
            rw [if_pos (by omega), if_neg hlast, retain_of_room (by omega)]
        · rw [if_neg hroom, if_neg (by omega)]
      · simp only [isRecent_concat_of_ne hd, ← ih]
        split_ifs
        · exact retain_cons_of_ne hd
        · rfl

/-! ### Runs -/

/-- What a history has retained, and the number of its next change. -/
lemma retained_run (g : Guid) (q : Qos) (es : List Event) :
    ((new g q).run es).next = (changes es).length + 1 ∧
      ((new g q).run es).retained =
        if q.durability = .transientLocal then recent q.history.depth (changes es) else [] := by
  induction es using List.reverseRecOn with
  | nil => exact ⟨rfl, by split_ifs <;> rfl⟩
  | append_singleton es e ih =>
    obtain ⟨hnext, hretained⟩ := ih
    have hqos : ((new g q).run es).qos = q := qos_run _ es
    rw [run_concat]
    generalize (new g q).run es = h at *
    have hturn := turn_step h e
    generalize (h.step e).1 = h', (h.step e).2 = out at hturn
    cases hturn with
    | @change e key kind payload he =>
      -- only a change is retained, if there may be late readers
      rw [changes_concat, he, Option.map_some, Option.toList_some, List.length_append,
        List.length_singleton]
      refine ⟨congrArg (· + 1) hnext, ?_⟩
      simp only [addChange, hqos, hretained, hnext]
      split_ifs
      · exact retain_recent ..
      · rfl
    | refused he =>
      rw [changes_of_none he]
      exact ⟨hnext, hretained⟩
    | attach r rq =>
      rw [matchReader_next, matchReader_retained, changes_of_none rfl]
      exact ⟨hnext, hretained⟩
    | release | acknowledge =>
      rw [changes_of_none rfl]
      exact ⟨hnext, hretained⟩

/-- What a new reader gets of the changes made before it came. -/
def heritage (q rq : Qos) (es : List Event) : List Change :=
  if q.durability = .transientLocal ∧ rq.durability = .transientLocal then
    recent q.history.depth (changes es)
  else []

lemma backlog_run (g : Guid) (q rq : Qos) (es : List Event) :
    ((new g q).run es).backlog rq = heritage q rq es := by
  rw [backlog, heritage, (retained_run g q es).2]
  by_cases hd : q.durability = .transientLocal <;> simp [hd]

/-- **Retained history and replay.** Whatever was written and disposed of, and whichever readers
came, went and acknowledged what, a reader that is matched anew is replayed the changes that have
fewer later ones of the same instance than the depth of the history, if writer and reader are both
transient local, and nothing otherwise: in their order and as they were made, under the numbers from
one on, which its proxy has used up and keeps as pending if both are reliable. Matching a reader
that is matched already sends nothing and changes nothing. -/
theorem replay_exact (g : Guid) (q rq : Qos) (es : List Event) (r : Guid) :
    let h := (new g q).run es
    let replayed := numbered 1 (heritage q rq es)
    (h.isMatched r = true → h.matchReader r rq = (h, [])) ∧
      (h.isMatched r = false →
        (h.matchReader r rq).2 = replayed.map (fun e => ⟨r, e.1, e.2⟩) ∧
        ∃ p, (h.matchReader r rq).1.proxies.get? r = some p ∧
          p.reliable = (rq.isReliable && q.isReliable) ∧ p.next = replayed.length + 1 ∧
          p.pending = if p.reliable then replayed else []) := by
  intro h replayed
  have hqos : h.qos = q := qos_run _ es
  refine ⟨fun hmatched => ?_, fun hmatched => ?_⟩
  · obtain ⟨p, hp⟩ := Table.has_eq_true.mp hmatched
    exact matchReader_of_some hp
  · have hnone := Table.has_eq_false.mp hmatched
    have hkeeps := ReaderProxy.keeps_replayed (rq.isReliable && q.isReliable) (heritage q rq es)
    refine ⟨?_, _, get?_matchReader_self rq hnone, ?_⟩
    · rw [matchReader_of_none hnone, backlog_run]
    · rw [backlog_run, hqos]
      exact ⟨ReaderProxy.replayed_reliable .., by rw [hkeeps.next, length_numbered], hkeeps.pending⟩

/-- Changes of two instances, while a reader comes, acknowledges everything and goes. -/
def crowded : List Event :=
  [.attach ⟨2, 1⟩ .interop, .write "a" (.str "x"), .write "b" (.str "y"), .write "a" (.str "z"),
    .acknowledge ⟨2, 1⟩ 3, .dispose "a" 0, .release ⟨2, 1⟩, .write "a" (.str "u")]

theorem replay_exact_crowded :
    let h := (new ⟨1, 1⟩ { Qos.interop with history := .keepLast 2 }).run crowded
    h.isMatched ⟨2, 1⟩ = false ∧
      (h.matchReader ⟨2, 1⟩ .interop).2.map (fun o => (o.number, o.change.sequence)) =
        [(1, 2), (2, 4), (3, 5)] := by
  intro h
  have hgone : h.isMatched ⟨2, 1⟩ = false := by decide
  refine ⟨hgone, ?_⟩
  rw [((replay_exact _ _ _ _ _).2 hgone).1]
  rfl

end PubSub.WriterHistory
