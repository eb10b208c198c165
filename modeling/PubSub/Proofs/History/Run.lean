import PubSub.Proofs.History.Reader
import PubSub.Proofs.History.Writer

/-!
Runs of one history and of one cache, each for itself: everything that can be asked of it, in any
order and with any values. What a run has come to is told by a log, to which every event adds what
it came to; an event that changes nothing adds nothing.
-/

namespace PubSub

/-- Somewhere in the list `p` holds, and `q` of nothing behind that. -/
def Stands {α : Type} (p q : α → Prop) (l : List α) : Prop :=
  ∃ before a after, l = before ++ a :: after ∧ p a ∧ ∀ b ∈ after, ¬q b

section Stands

variable {α : Type} {p q : α → Prop} {l : List α} {a : α}

lemma not_stands_nil : ¬Stands p q [] := by
  rintro ⟨before, a, after, h, -⟩
  simp at h

lemma Stands.imp {p' : α → Prop} (h : Stands p q l) (hp : ∀ a, p a → p' a) : Stands p' q l := by
  obtain ⟨before, a, after, hl, ha, hafter⟩ := h
  exact ⟨before, a, after, hl, hp a ha, hafter⟩

lemma stands_concat : Stands p q (l ++ [a]) ↔ p a ∨ Stands p q l ∧ ¬q a := by
  constructor
  · rintro ⟨before, b, after, h, hp, hq⟩
    rcases List.eq_nil_or_concat after with rfl | ⟨after, a', rfl⟩
    · obtain ⟨-, hab⟩ := List.append_inj' h rfl
      exact .inl (List.singleton_inj.mp hab ▸ hp)
    · rw [List.concat_eq_append, ← List.cons_append, ← List.append_assoc] at h
      obtain ⟨rfl, hab⟩ := List.append_inj' h rfl
      obtain rfl := List.singleton_inj.mp hab
      exact .inr ⟨⟨before, b, after, rfl, hp, fun x hx => hq x (by simp [hx])⟩, hq _ (by simp)⟩
  · rintro (hp | ⟨⟨before, b, after, rfl, hp, hq⟩, ha⟩)
    · exact ⟨l, a, [], rfl, hp, by simp⟩
    · refine ⟨before, b, after ++ [a], by simp, hp, fun x hx => ?_⟩
      rcases List.mem_append.mp hx with hx | hx
      · exact hq x hx
      · exact List.mem_singleton.mp hx ▸ ha

lemma stands_append {l' : List α} (hl : ∀ a ∈ l', ¬p a) :
    Stands p q (l ++ l') ↔ Stands p q l ∧ ∀ a ∈ l', ¬q a := by
  induction l' using List.reverseRecOn with
  | nil => simp
  | append_singleton l' a ih =>
    have hp : ¬p a := hl a (by simp)
    rw [← List.append_assoc, stands_concat, or_iff_right hp,
      ih fun b hb => hl b (List.mem_append_left _ hb), and_assoc]
    simp [or_imp, forall_and]

end Stands

/-- What the events of a run come to, one after the other. -/
def along {σ ε α : Type} (step : σ → ε → σ) (f : σ → ε → List α) (s : σ) : List ε → List α
  | [] => []
  | e :: es => f s e ++ along step f (step s e) es

lemma along_concat {σ ε α : Type} (step : σ → ε → σ) (f : σ → ε → List α) (s : σ) (es : List ε)
    (e : ε) : along step f s (es ++ [e]) = along step f s es ++ f (es.foldl step s) e := by
  induction es generalizing s with
  | nil => exact List.append_nil _
  | cons e' es ih => rw [List.cons_append, along, ih, along, List.foldl_cons, List.append_assoc]

/-! ### Histories -/

namespace WriterHistory

/-- What can be asked of a history. -/
inductive Event where
  | write (key : InstanceKey) (payload : Json)
  | dispose (key : InstanceKey) (handle : Handle)
  | attach (r : Guid) (q : Qos)
  | release (r : Guid)
  | acknowledge (r : Guid) (acked : Nat)

def step (h : WriterHistory) : Event → WriterHistory × List Outgoing
  | .write key payload => h.write key payload
  | .dispose key handle =>
    match h.dispose key handle with
    | .ok x => x
    | .error _ => (h, [])
  | .attach r q => h.matchReader r q
  | .release r => (h.unmatchReader r, [])
  | .acknowledge r acked => ((h.acknowledge r acked).1, [])

def run (h : WriterHistory) (es : List Event) : WriterHistory :=
  es.foldl (fun h e => (h.step e).1) h

/-- The change that an event asks for: the instance, what is done to it, and the payload. A handle
of another instance keeps it from being disposed of. -/
def Event.change? : Event → Option (InstanceKey × ChangeKind × Option Json)
  | .write key payload => some (key, .alive, some payload)
  | .dispose key handle =>
    if handle = 0 ∨ handle = key.handle then some (key, .disposed, none) else none
  | _ => none

/-- Every change that was asked for, in order, with the numbers from one on. -/
def changes (es : List Event) : List Change :=
  (es.filterMap Event.change?).mapIdx fun i x => ⟨i + 1, x.1, x.2.1, x.2.2⟩

variable {h : WriterHistory} {e : Event} {es : List Event}

lemma run_concat (h : WriterHistory) (es : List Event) (e : Event) :
    h.run (es ++ [e]) = ((h.run es).step e).1 := List.foldl_concat ..

/-- **What an event comes to**: a change, or one of the other things that can be asked. -/
inductive Turn (h : WriterHistory) : Event → WriterHistory → List Outgoing → Prop where
  | change {e : Event} {key : InstanceKey} {kind : ChangeKind} {payload : Option Json}
    (he : e.change? = some (key, kind, payload)) :
    Turn h e (h.addChange key kind payload).1 (h.addChange key kind payload).2
  | refused {key : InstanceKey} {handle : Handle}
    (he : (Event.dispose key handle).change? = none) : Turn h (.dispose key handle) h []
  | attach (r : Guid) (q : Qos) :
    Turn h (.attach r q) (h.matchReader r q).1 (h.matchReader r q).2
  | release (r : Guid) : Turn h (.release r) (h.unmatchReader r) []
  | acknowledge (r : Guid) (a : Nat) : Turn h (.acknowledge r a) (h.acknowledge r a).1 []

lemma step_of_change {key : InstanceKey} {kind : ChangeKind} {payload : Option Json}
    (he : e.change? = some (key, kind, payload)) : h.step e = h.addChange key kind payload := by
  cases e with
  | write key' payload' =>
    cases he
    rfl
  | dispose key' handle =>
    rw [Event.change?] at he
    split_ifs at he with hown
    have hnot : ¬(handle ≠ 0 ∧ handle ≠ key'.handle) := by tauto
    cases he
    simp only [step, dispose, if_neg hnot]
  | attach | release | acknowledge => cases he

lemma step_of_refused {key : InstanceKey} {handle : Handle}
    (he : (Event.dispose key handle).change? = none) : h.step (.dispose key handle) = (h, []) := by
  rw [Event.change?] at he
  split_ifs at he with hown
  have hforeign : handle ≠ 0 ∧ handle ≠ key.handle := not_or.mp hown
  simp only [step, dispose, if_pos hforeign]

theorem turn_step (h : WriterHistory) (e : Event) : Turn h e (h.step e).1 (h.step e).2 := by
  cases e with
  | write key payload => exact .change rfl
  | dispose key handle =>
    cases he : (Event.dispose key handle).change? with
    | none => exact step_of_refused (h := h) he ▸ .refused he
    | some x => exact step_of_change (h := h) he ▸ .change he
  | attach r q => exact .attach r q
  | release r => exact .release r
  | acknowledge r a => exact .acknowledge r a

lemma Wf.step (hw : h.Wf) (e : Event) : (h.step e).1.Wf := by
  have hturn := turn_step h e
  generalize (h.step e).1 = h', (h.step e).2 = out at hturn
  cases hturn with
  | change he => exact hw.addChange _ _ _
  | refused => exact hw
  | attach r q => exact hw.matchReader r q
  | release r => exact hw.unmatchReader r
  | acknowledge r a => exact hw.acknowledge r a

lemma Wf.run (hw : h.Wf) (es : List Event) : (h.run es).Wf := by
  induction es using List.reverseRecOn with
  | nil => exact hw
  | append_singleton es e ih => exact run_concat .. ▸ ih.step e

lemma qos_step (h : WriterHistory) (e : Event) : (h.step e).1.qos = h.qos := by
  have hturn := turn_step h e
  generalize (h.step e).1 = h', (h.step e).2 = out at hturn
  cases hturn with
  | change | refused | release | acknowledge => rfl
  | attach r q => exact h.matchReader_qos r q

lemma qos_run (h : WriterHistory) (es : List Event) : (h.run es).qos = h.qos := by
  induction es using List.reverseRecOn with
  | nil => rfl
  | append_singleton es e ih => rw [run_concat, qos_step, ih]

lemma changes_concat (es : List Event) (e : Event) :
    changes (es ++ [e]) = changes es ++
      (e.change?.map fun x => ⟨(changes es).length + 1, x.1, x.2.1, x.2.2⟩).toList := by
  unfold changes
  rw [List.filterMap_append, List.mapIdx_append, List.length_mapIdx]
  cases he : e.change? <;> simp [he]

lemma changes_of_none (he : e.change? = none) : changes (es ++ [e]) = changes es := by
  rw [changes_concat, he, Option.map_none, Option.toList_none, List.append_nil]

end WriterHistory

/-! ### Caches -/

namespace ReaderCache

/-- What can be asked of a cache. -/
inductive Event where
  | add (w : Guid) (reliable : Bool)
  | remove (w : Guid)
  | receive (w : Guid) (n : Nat) (c : Change)
  | take (max : Nat)

def step (r : ReaderCache) : Event → ReaderCache
  | .add w reliable => r.addWriter w reliable
  | .remove w => (r.removeWriter w).1
  | .receive w n c => (r.receive w n c).1
  | .take max => (r.take max).1

def run (r : ReaderCache) (es : List Event) : ReaderCache := es.foldl step r

/-- What is logged of a cache: who came and went, and which changes were accepted from whom. -/
inductive Entry where
  | added (w : Guid)
  | removed (w : Guid)
  | accepted (w : Guid) (c : Change)

def entries (r : ReaderCache) : Event → List Entry
  | .add w _ => if r.hasWriter w then [] else [.added w]
  | .remove w => if r.hasWriter w then [.removed w] else []
  | .receive w n c => if (r.receive w n c).2.1 = .accepted then [.accepted w c] else []
  | .take _ => []

def log (r : ReaderCache) (es : List Event) : List Entry := along step entries r es

lemma run_concat (r : ReaderCache) (es : List Event) (e : Event) :
    r.run (es ++ [e]) = (r.run es).step e := List.foldl_concat ..

lemma log_concat (r : ReaderCache) (es : List Event) (e : Event) :
    r.log (es ++ [e]) = r.log es ++ (r.run es).entries e := along_concat ..

lemma qos_step (r : ReaderCache) (e : Event) : (r.step e).qos = r.qos := by
  cases e with
  | add w b => exact r.addWriter_qos w b
  | remove w => exact r.removeWriter_qos w
  | receive w n c => exact receive_qos
  | take max => rfl

lemma qos_run (r : ReaderCache) (es : List Event) : (r.run es).qos = r.qos := by
  induction es using List.reverseRecOn with
  | nil => rfl
  | append_singleton es e ih => rw [run_concat, qos_step, ih]

end ReaderCache

end PubSub
