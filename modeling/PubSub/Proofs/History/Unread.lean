import PubSub.Proofs.History.Eviction

/-!
What is lost of what a cache has ever held. Every sample gets a place in the order in which the
samples were made, and keeps it in the queue and among the samples handed out, so that samples of
the same content are told apart. Only samples with data are ever lost, and only where later ones of
the same instance have filled the depth of the history before they were taken.
-/

namespace PubSub.ReaderCache

/-! ### Samples and their places -/

/-- A sample and its place in the order in which the samples were made. -/
abbrev Placed := Sample Json × Nat

def later (x : Placed) (produced : List (Sample Json)) : Nat :=
  (produced.zipIdx.filter fun y => validFor x.1.key y.1 && decide (x.2 < y.2)).length

lemma pairwise_places (ss : List (Sample Json)) (i : Nat) :
    (ss.zipIdx i).Pairwise (·.2 < ·.2) := by
  rw [← List.pairwise_map, List.zipIdx_map_snd]
  exact List.pairwise_lt_range'

lemma place_lt {ss : List (Sample Json)} {x : Placed} (hx : x ∈ ss.zipIdx) : x.2 < ss.length :=
  (List.getElem?_eq_some_iff.mp (List.mem_zipIdx_iff_getElem?.mp hx)).1

lemma eq_of_place {ss : List (Sample Json)} {x y : Placed} (hx : x ∈ ss.zipIdx)
    (hy : y ∈ ss.zipIdx) (h : x.2 = y.2) : x = y := by
  have hx := List.mem_zipIdx_iff_getElem?.mp hx
  rw [h, List.mem_zipIdx_iff_getElem?.mp hy] at hx
  exact Prod.ext (Option.some.inj hx).symm h

lemma later_append {x : Placed} {ss : List (Sample Json)} (hx : x.2 < ss.length)
    (new : List (Sample Json)) :
    later x (ss ++ new) = later x ss + (new.filter (validFor x.1.key)).length := by
  have hnew : ∀ y ∈ new.zipIdx ss.length, x.2 < y.2 := fun y hy =>
    Nat.lt_of_lt_of_le hx (List.le_snd_of_mem_zipIdx hy)
  have hcount : ((new.zipIdx ss.length).filter fun y => validFor x.1.key y.1 &&
      decide (x.2 < y.2)).length = (new.filter (validFor x.1.key)).length := by
    rw [List.filter_congr (q := fun y => validFor x.1.key y.1) fun y hy => by simp [hnew y hy],
      count_map, List.zipIdx_map_fst]
  rw [later, List.zipIdx_append, Nat.zero_add, List.filter_append, List.length_append, hcount]
  rfl

/-- Whatever stands behind a sample in the newest part of its instance was made later. -/
lemma later_of_suffix {x : Placed} {l : List Placed} {ss : List (Sample Json)}
    (h : x :: l <:+ ss.zipIdx.filter fun y => validFor x.1.key y.1) : later x ss = l.length := by
  obtain ⟨older, hall⟩ := h
  have hsorted := (pairwise_places ss 0).filter fun y => validFor x.1.key y.1
  rw [← hall, List.pairwise_append, List.pairwise_cons] at hsorted
  obtain ⟨-, ⟨hafter, -⟩, hbefore⟩ := hsorted
  have hnone : older.filter (fun y => decide (x.2 < y.2)) = [] :=
    filter_of_false fun y hy => decide_eq_false (hbefore y hy x List.mem_cons_self).asymm
  have hevery : l.filter (fun y => decide (x.2 < y.2)) = l :=
    List.filter_eq_self.mpr fun y hy => by simpa using hafter y hy
  have hsplit : later x ss =
      ((ss.zipIdx.filter fun y => validFor x.1.key y.1).filter fun y =>
        decide (x.2 < y.2)).length := by
    rw [List.filter_filter, later]
    congr 2
    funext y
    exact Bool.and_comm ..
  rw [hsplit, ← hall, List.filter_append, hnone, List.filter_cons_of_neg (by simp), hevery]
  rfl

def waits (waiting : List Placed) (i : Nat) : Bool := waiting.any (·.2 = i)

/-- The samples made, those handed out and those unread, with their places, and how many samples
with data of its instance have come while a sample was unread. -/
structure Sound (depth : Option Nat) (produced : List (Sample Json)) (handed waiting : List Placed)
    (pressed : Placed → Nat) : Prop where
  places : (handed ++ waiting).Sublist produced.zipIdx
  kept : ∀ x ∈ produced.zipIdx, x.1.valid = false → x ∈ handed ++ waiting
  newest : ∀ key, waiting.filter (fun x => validFor key x.1) <:+
    produced.zipIdx.filter fun x => validFor key x.1
  unread : ∀ x ∈ waiting, x.1.valid = true → pressed x = later x produced
  taken : ∀ x ∈ handed, x.1.valid = true → ∀ n ∈ depth, pressed x < n
  gone : ∀ x ∈ produced.zipIdx, x.1.valid = true → x ∉ handed ++ waiting →
    depth = some (pressed x)
  fresh : ∀ x : Placed, produced.length ≤ x.2 → pressed x = 0

namespace Sound

variable {depth : Option Nat} {produced : List (Sample Json)} {handed waiting : List Placed}
  {pressed : Placed → Nat} {x : Placed}

lemma waits_iff (h : Sound depth produced handed waiting pressed) (hx : x ∈ produced.zipIdx) :
    waits waiting x.2 = true ↔ x ∈ waiting := by
  rw [waits, List.any_eq_true]
  refine ⟨fun ⟨y, hy, hplace⟩ => ?_, fun hx => ⟨x, hx, by simp⟩⟩
  have hyp := h.places.subset (List.mem_append_right _ hy)
  exact eq_of_place hyp hx (of_decide_eq_true hplace) ▸ hy

/-- Behind an unread sample of an instance all are unread that were made of it later. -/
lemma later_eq (h : Sound depth produced handed waiting pressed) {before after : List Placed}
    (hw : waiting = before ++ x :: after) (hx : x.1.valid = true) :
    later x produced = (after.filter fun y => validFor x.1.key y.1).length := by
  have hvalid : validFor x.1.key x.1 = true := by simp [validFor, hx]
  have hnewest := h.newest x.1.key
  rw [hw, List.filter_append, List.filter_cons, if_pos hvalid] at hnewest
  exact later_of_suffix ((List.suffix_append ..).trans hnewest)

/-- An unread sample has not been pressed out of the history. -/
lemma pressed_lt (h : Sound depth produced handed waiting pressed) {n : Nat} (hx : x ∈ waiting)
    (hv : x.1.valid = true)
    (hle : (waiting.filter fun y => validFor x.1.key y.1).length ≤ n) : pressed x < n := by
  obtain ⟨before, after, hw⟩ := List.append_of_mem hx
  have hvalid : validFor x.1.key x.1 = true := by simp [validFor, hv]
  rw [h.unread x hx hv, h.later_eq hw hv]
  rw [hw, List.filter_append, List.filter_cons, if_pos hvalid, List.length_append,
    List.length_cons] at hle
  omega

lemma add (h : Sound depth produced handed waiting pressed) (new : List (Sample Json))
    (hnew : ∀ s ∈ new, s.valid = true → new = [s]) :
    Sound depth (produced ++ new) handed (waiting ++ new.zipIdx produced.length) fun x =>
      pressed x + if waits waiting x.2 then (new.filter (validFor x.1.key)).length else 0 := by
  have hplaces : (produced ++ new).zipIdx = produced.zipIdx ++ new.zipIdx produced.length := by
    rw [List.zipIdx_append, Nat.zero_add]
  have hwaiting : ∀ x ∈ waiting, x ∈ produced.zipIdx := fun x hx =>
    h.places.subset (List.mem_append_right _ hx)
  have hidle {x : Placed} (hx : ∀ y ∈ waiting, y.2 ≠ x.2) : waits waiting x.2 = false := by
    rw [waits, List.any_eq_false]
    exact fun y hy => by simpa using hx y hy
  have hlate : ∀ x : Placed, produced.length ≤ x.2 →
      pressed x = 0 ∧ waits waiting x.2 = false := fun x hx =>
    ⟨h.fresh x hx, hidle fun y hy hplace => by
      have := place_lt (hwaiting y hy)
      omega⟩
  refine ⟨?_, fun x hx hv => ?_, fun key => ?_, fun x hx hv => ?_, fun x hx hv n hn => ?_,
    fun x hx hv hgone => ?_, fun x hx => ?_⟩
  · rw [hplaces, ← List.append_assoc]
    exact h.places.append (.refl _)
  · rw [hplaces] at hx
    rw [← List.append_assoc]
    rcases List.mem_append.mp hx with hx | hx
    · exact List.mem_append_left _ (h.kept x hx hv)
    · exact List.mem_append_right _ hx
  · obtain ⟨older, holder⟩ := h.newest key
    rw [hplaces, List.filter_append, List.filter_append, ← holder, List.append_assoc]
    exact List.suffix_append ..
  · rcases List.mem_append.mp hx with hx | hx
    · have hwaits : waits waiting x.2 = true := (h.waits_iff (hwaiting x hx)).mpr hx
      rw [if_pos hwaits, h.unread x hx hv, later_append (place_lt (hwaiting x hx))]
    · -- the sample is the only new one, and nothing was made after it
      have hle : produced.length ≤ x.2 := List.le_snd_of_mem_zipIdx hx
      have hsingle := hnew x.1 (List.fst_mem_of_mem_zipIdx hx) hv
      have hlater : later x (produced ++ new) = 0 := by
        rw [later, List.length_eq_zero_iff, List.filter_eq_nil_iff]
        intro y hy
        have hlt := place_lt hy
        rw [hsingle, List.length_append, List.length_singleton] at hlt
        simp
        omega
      rw [(hlate x hle).1, (hlate x hle).2, hlater]
      rfl
  · have hsorted := List.Pairwise.sublist h.places (pairwise_places produced 0)
    have hbefore := (List.pairwise_append.mp hsorted).2.2 x hx
    rw [hidle fun y hy => (hbefore y hy).ne', if_neg Bool.false_ne_true]
    exact h.taken x hx hv n hn
  · rw [← List.append_assoc, List.mem_append, not_or] at hgone
    rw [hplaces] at hx
    have hx := (List.mem_append.mp hx).resolve_right hgone.2
    have hwaits : ¬waits waiting x.2 = true := fun hwaits =>
      hgone.1 (List.mem_append_right _ ((h.waits_iff hx).mp hwaits))
    rw [if_neg hwaits]
    exact h.gone x hx hv hgone.1
  · rw [List.length_append] at hx
    obtain ⟨hpressed, hwaits⟩ := hlate x (by omega)
    rw [hpressed, hwaits]
    rfl

lemma hand (h : Sound depth produced handed waiting pressed)
    (hfit : ∀ n ∈ depth, ∀ key, (waiting.filter fun x => validFor key x.1).length ≤ n) (max : Nat) :
    Sound depth produced (handed ++ waiting.take max) (waiting.drop max) pressed := by
  have hsame : handed ++ waiting.take max ++ waiting.drop max = handed ++ waiting := by
    rw [List.append_assoc, List.take_append_drop]
  refine ⟨hsame ▸ h.places, hsame ▸ h.kept, fun key => ?_,
    fun x hx => h.unread x (List.mem_of_mem_drop hx), fun x hx hv n hn => ?_, hsame ▸ h.gone,
    h.fresh⟩
  · exact ((List.drop_suffix max waiting).filter _).trans (h.newest key)
  · rcases List.mem_append.mp hx with hx | hx
    · exact h.taken x hx hv n hn
    · exact h.pressed_lt (List.mem_of_mem_take hx) hv (hfit n hn _)

lemma evict (h : Sound depth produced handed waiting pressed) {key : InstanceKey}
    {before after : List Placed} {n : Nat} (hn : depth = some n)
    (hw : waiting = before ++ x :: after) (hbefore : ∀ y ∈ before, validFor key y.1 = false)
    (hx : validFor key x.1 = true) (hafter : (after.filter fun y => validFor key y.1).length = n) :
    Sound depth produced handed (before ++ after) pressed := by
  have hsub : (before ++ after).Sublist waiting :=
    hw ▸ (List.sublist_cons_self x after).append_left before
  obtain ⟨hvalid, rfl⟩ : x.1.valid = true ∧ x.1.key = key := by simpa [validFor] using hx
  refine ⟨(hsub.append_left handed).trans h.places, fun y hy hv => ?_, fun key => ?_,
    fun y hy => h.unread y (hsub.subset hy), h.taken, fun y hy hv hgone => ?_, h.fresh⟩
  · have hmem := h.kept y hy hv
    have hne : y ≠ x := fun he => by simp [he, hvalid] at hv
    rw [hw] at hmem
    simpa [hne] using hmem
  · have hnewest := h.newest key
    rw [hw, List.filter_append, List.filter_cons] at hnewest
    rw [List.filter_append]
    split_ifs at hnewest with hkey
    · -- only samples of other instances stand before the one that is lost
      obtain rfl : x.1.key = key := by simpa [validFor, hvalid] using hkey
      rw [filter_of_false hbefore, List.nil_append] at hnewest ⊢
      exact (List.suffix_cons ..).trans hnewest
    · exact hnewest
  · by_cases hyx : y = x
    · have hmem : x ∈ waiting := by simp [hw]
      rw [hyx, h.unread x hmem hvalid, h.later_eq hw hvalid, hafter]
      exact hn
    · refine h.gone y hy hv fun hmem => hgone ?_
      rw [hw] at hmem
      simpa [hyx] using hmem

end Sound

/-! ### The ledger of a run -/

/-- A cache along a run: the samples made so far, those handed out and those unread, with their
places, and how many samples with data of its instance have come while a sample was unread. -/
structure Ledger where
  cache : ReaderCache
  produced : List (Sample Json)
  handed : List Placed
  waiting : List Placed
  pressed : Placed → Nat

namespace Ledger

def start (q : Qos) : Ledger := ⟨.new q, [], [], [], fun _ => 0⟩

/-- New samples go to the end of the queue, the first ones are handed out if they are asked for,
and one may be lost. -/
def step (t : Ledger) (e : Event) : Ledger :=
  let new := t.cache.produces e
  let all := t.waiting ++ new.zipIdx t.produced.length
  { cache := t.cache.step e
    produced := t.produced ++ new
    handed := t.handed ++ all.take e.asked
    waiting := t.cache.settle e Prod.fst all
    pressed := fun x =>
      t.pressed x + if waits t.waiting x.2 then (new.filter (validFor x.1.key)).length else 0 }

def run (q : Qos) (es : List Event) : Ledger := es.foldl step (start q)

structure Follows (t : Ledger) (q : Qos) (es : List Event) : Prop where
  cache : t.cache = (new q).run es
  produced : t.produced = (new q).made es
  handed : t.handed.map Prod.fst = (new q).returned es
  waiting : t.waiting.map Prod.fst = t.cache.unread
  sound : Sound q.history.depth t.produced t.handed t.waiting t.pressed

variable {t : Ledger}

lemma follows_start (q : Qos) : (start q).Follows q [] where
  cache := rfl
  produced := rfl
  handed := rfl
  waiting := rfl
  sound := ⟨.refl _, by simp [start], fun _ => List.suffix_refl _, by simp [start],
    by simp [start], by simp [start], fun _ _ => rfl⟩

lemma Follows.step (h : t.Follows q es) (e : Event) : (t.step e).Follows q (es ++ [e]) := by
  have hall : (t.waiting ++ (t.cache.produces e).zipIdx t.produced.length).map Prod.fst =
      t.cache.unread ++ t.cache.produces e := by
    rw [List.map_append, h.waiting, List.zipIdx_map_fst]
  have hwithin : t.cache.WithinDepth := h.cache ▸ (withinDepth_new q).run es
  have hdepth : t.cache.qos.history.depth = q.history.depth := by
    rw [h.cache, qos_run]
    rfl
  refine ⟨?_, ?_, ?_, ?_, ?_⟩
  · rw [run_concat, ← h.cache]
    rfl
  · rw [made_concat, ← h.produced, ← h.cache]
    rfl
  · rw [returned_concat, ← h.handed, ← h.cache, ← take_asked, ← hall, ← List.map_take,
      ← List.map_append]
    rfl
  · rw [Ledger.step, map_settle, hall, ← unread_step]
  · -- the new samples go to the end, and then the queue settles
    have hadd := h.sound.add (t.cache.produces e) fun s hs hv => produces_of_valid hs hv
    have hsettles := settles hwithin e hall
    rw [Ledger.step]
    generalize t.cache.settle e Prod.fst _ = left at hsettles
    cases hsettles with
    | all he =>
      rw [Event.asked_eq_zero he, List.take_zero, List.append_nil]
      exact hadd
    | hand max =>
      refine hadd.hand (fun n hn key => ?_) max
      rw [count_map, hall, produces, List.append_nil]
      exact hwithin n (hdepth ▸ hn) key
    | evict he hn hl hbefore ha hafter =>
      rw [Event.asked_eq_zero he, List.take_zero, List.append_nil]
      exact hadd.evict (hdepth ▸ hn) hl hbefore ha hafter

theorem follows_run (q : Qos) (es : List Event) : (run q es).Follows q es := by
  induction es using List.reverseRecOn with
  | nil => exact follows_start q
  | append_singleton es e ih =>
    rw [run, List.foldl_concat]
    exact ih.step e

end Ledger

lemma depth_eq_some {h : PubSub.History} {n : Nat} : h.depth = some n ↔ h = .keepLast n := by
  cases h <;> simp [History.depth]

/-- **The law of the unread samples.** What was handed out and what is unread are together, in the
order in which they were made, samples that were made. Every notification is among them, and a
sample with data is missing exactly where the depth of the history is how many more of its instance
came while it was unread. The unread samples with data of an instance are its newest ones and not
more than the depth. Only a take makes them fewer. -/
theorem unread_law (q : Qos) (es : List Event) :
    let r := (new q).run es
    let made := ((new q).made es).zipIdx
    let t := Ledger.run q es
    t.handed.map Prod.fst = (new q).returned es ∧ t.waiting.map Prod.fst = r.unread ∧
      (t.handed ++ t.waiting).Sublist made ∧
      (∀ x ∈ made, x.1.valid = false → x ∈ t.handed ++ t.waiting) ∧
      (∀ x ∈ made, x.1.valid = true →
        (x ∉ t.handed ++ t.waiting ↔ q.history = .keepLast (t.pressed x))) ∧
      (∀ key, t.waiting.filter (fun x => validFor key x.1) <:+
        made.filter fun x => validFor key x.1) ∧
      (∀ n, q.history = .keepLast n → ∀ key, (r.unread.filter (validFor key)).length ≤ n) ∧
      ∀ e : Event, (∀ max, e ≠ .take max) → r.unread.length ≤ (r.step e).unread.length := by
  intro r made t
  have h : t.Follows q es := Ledger.follows_run q es
  have hmade : t.produced.zipIdx = made := by rw [h.produced]
  have hwithin : r.WithinDepth := (withinDepth_new q).run es
  -- a bounded depth bounds what is unread of an instance
  have hfit (n : Nat) (hn : q.history = .keepLast n) (key : InstanceKey) :
      (r.unread.filter (validFor key)).length ≤ n := by
    refine hwithin n ?_ key
    rw [Option.mem_def, depth_eq_some, qos_run]
    exact hn
  have hwaiting : t.waiting.map Prod.fst = r.unread := by rw [h.waiting, h.cache]
  refine ⟨h.handed, hwaiting, hmade ▸ h.sound.places, hmade ▸ h.sound.kept, fun x hx hv => ?_,
    hmade ▸ h.sound.newest, hfit, fun e => hwithin.length_le_step⟩
  refine ⟨fun hgone => depth_eq_some.mp (h.sound.gone x (hmade ▸ hx) hv hgone), fun hn hmem => ?_⟩
  rcases List.mem_append.mp hmem with hx | hx
  · exact Nat.lt_irrefl _ (h.sound.taken x hx hv _ (depth_eq_some.mpr hn))
  · refine Nat.lt_irrefl _ (h.sound.pressed_lt hx hv ?_)
    rw [count_map, hwaiting]
    exact hfit _ hn _

/-- The second sample presses the first one out; the notification takes nothing from either. -/
example :
    let t := Ledger.run { Qos.interop with history := .keepLast 1 }
      [.add ⟨1, 1⟩ true, .receive ⟨1, 1⟩ 1 ⟨1, "a", .alive, some .null⟩,
        .receive ⟨1, 1⟩ 2 ⟨2, "a", .alive, some .null⟩, .remove ⟨1, 1⟩, .take 1]
    t.produced.length = 3 ∧ t.handed.map (·.2) = [1] ∧ t.waiting.map (·.2) = [2] := by
  decide

end PubSub.ReaderCache
