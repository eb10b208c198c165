import PubSub.Proofs.Session

/-!
Sessions in which writers and readers may also part, and that remember what every reader has
handed out. What a step can do to one reader, to one writer and to the two of them together is
said once each; everything that is proved of runs rests on that.
-/

namespace PubSub

/-- A session, and the samples that its readers have handed out, in order. -/
structure Chronicle where
  session : Session
  handed : List (Guid × Sample Json)

namespace Chronicle

inductive Event where
  | go (e : Session.Event)
  /-- The writer lets go of the reader. -/
  | release (w r : Guid)
  /-- The reader lets go of the writer. -/
  | dismiss (w r : Guid)

def start (writers readers : List (Guid × Qos)) : Chronicle := ⟨.start writers readers, []⟩

def outcome (s : Session) : Session.Event → List (Guid × Sample Json)
  | .take r max => ((s.net.take r max).map fun x => x.2.map (r, ·)).getD []
  | _ => []

/-- An event that names what is not there changes nothing. -/
def step (t : Chronicle) : Event → Chronicle
  | .go e => ⟨t.session.step e, t.handed ++ outcome t.session e⟩
  | .release w r =>
    match t.session.net.writers.get? w with
    | some h => { t with session := t.session.putWriter w (h.unmatchReader r) }
    | none => t
  | .dismiss w r =>
    match t.session.net.readers.get? r with
    | some c => { t with session := t.session.putReader r (c.removeWriter w).1 }
    | none => t

def run (t : Chronicle) (es : List Event) : Chronicle := es.foldl step t

def of (t : Chronicle) (r : Guid) : List (Sample Json) :=
  (t.handed.filter (·.1 = r)).map (·.2)

/-- The instance that a writer changes with an event, and how. A handle of another instance keeps
it from ending one. -/
def Event.change? (w : Guid) : Event → Option (InstanceKey × ChangeKind)
  | .go (.write w' key _) => if w' = w then some (key, .alive) else none
  | .go (.dispose w' key handle) =>
    if w' = w ∧ (handle = 0 ∨ handle = key.handle) then some (key, .disposed) else none
  | _ => none

def Event.use? (w : Guid) (key : InstanceKey) (e : Event) : Option ChangeKind :=
  ((e.change? w).filter (·.1 = key)).map (·.2)

def Event.Parts (w r : Guid) : Event → Prop
  | .release w' r' | .dismiss w' r' => w' = w ∧ r' = r
  | .go _ => False

variable {t : Chronicle} {w r : Guid} {h h' : WriterHistory} {c c' : ReaderCache} {e : Event}

/-! ### What a step does to a reader -/

/-- What becomes of a reader, what it hands out, and what it accepts. -/
inductive Reading (t : Chronicle) (e : Event) (r : Guid) (c : ReaderCache) :
    ReaderCache → List (Sample Json) → List Flight → Prop where
  | rest : Reading t e r c c [] []
  | enrol (w : Guid) (b : Bool) : Reading t e r c (c.addWriter w b) [] []
  | take (max : Nat) : Reading t e r c (c.take max).1 (c.take max).2 []
  | accept {f : Flight} {q : WriterProxy} (hf : f ∈ t.session.net.flight) (hr : f.out.reader = r)
    (hq : c.writers.get? f.writer = some q) (ht : q.Takes f.out.number) :
    Reading t e r c (c.receive f.writer f.out.number f.out.change).1 [] [f]
  | dismiss {w : Guid} (he : e = .dismiss w r) : Reading t e r c (c.removeWriter w).1 [] []

/-- What a step does to a reader, to what it has handed out and to what it has accepted. -/
structure Reads (t t' : Chronicle) (e : Event) (r : Guid) (c c' : ReaderCache) : Prop where
  reading : ∃ ss fs, Reading t e r c c' ss fs ∧ t'.of r = t.of r ++ ss ∧
    ∀ w, t'.session.taken w r = t.session.taken w r ++ (carried w r fs).map (·.2)

lemma reads_rest {t' : Chronicle} (hof : t'.of r = t.of r)
    (haccepted : t'.session.accepted = t.session.accepted) : t.Reads t' e r c c :=
  ⟨[], [], .rest, by rw [hof, List.append_nil],
    fun w => by simp [Session.taken, haccepted, carried]⟩

def reaches : Session.Event → Bool
  | .enrol .. | .arrive _ | .take .. => true
  | _ => false

lemma step_of_not_reaches {s : Session} {e : Session.Event} (he : reaches e = false) :
    (s.step e).net.readers = s.net.readers ∧ (s.step e).accepted = s.accepted ∧
      outcome s e = [] := by
  cases e with
  | enrol w r | arrive i | take r max => cases he
  | write w key payload =>
    simp only [Session.step]
    split <;> exact ⟨rfl, rfl, rfl⟩
  | dispose w key handle =>
    simp only [Session.step]
    split
    · split <;> exact ⟨rfl, rfl, rfl⟩
    · exact ⟨rfl, rfl, rfl⟩
  | attach w r =>
    simp only [Session.step]
    split
    · split_ifs <;> exact ⟨rfl, rfl, rfl⟩
    · exact ⟨rfl, rfl, rfl⟩
  | resend w =>
    simp only [Session.step, Net.retransmit]
    cases s.net.writers.get? w <;> exact ⟨rfl, rfl, rfl⟩
  | answer i =>
    simp only [Session.step]
    split
    · split <;> exact ⟨rfl, rfl, rfl⟩
    · exact ⟨rfl, rfl, rfl⟩

lemma get?_putReader {s : Session} {r' : Guid} :
    (s.putReader r' c).net.readers.get? r =
      if r = r' then some c else s.net.readers.get? r := by
  simp only [Session.putReader, Table.get?_put]

lemma of_append {s : Session} {ss : List (Sample Json)} {r' : Guid} :
    (⟨s, t.handed ++ ss.map (r', ·)⟩ : Chronicle).of r = t.of r ++ if r' = r then ss else [] := by
  by_cases hr : r' = r <;> simp [of, List.filter_append, List.filter_map, Function.comp_def, hr]

lemma step_take {r' : Guid} {max : Nat} (hr : t.session.net.readers.get? r' = some c) :
    t.step (.go (.take r' max)) =
      ⟨t.session.putReader r' (c.take max).1, t.handed ++ (c.take max).2.map (r', ·)⟩ := by
  simp [step, Session.step, Net.take, outcome, hr, Session.putReader]

lemma step_take_of_none {r' : Guid} {max : Nat} (hr : t.session.net.readers.get? r' = none) :
    t.step (.go (.take r' max)) = t := by
  simp [step, Session.step, Net.take, outcome, hr]

/-- A change arrives, and its reader accepts it or stays as it is. -/
lemma reads_arrive {f : Flight} {c₀ : ReaderCache} (hf : f ∈ t.session.net.flight)
    (hc₀ : t.session.net.readers.get? f.out.reader = some c₀)
    (hc' : (t.session.receive f c₀).net.readers.get? r = some c') :
    ∃ c, t.session.net.readers.get? r = some c ∧
      t.Reads ⟨t.session.receive f c₀, t.handed⟩ e r c c' := by
  have hget : (t.session.receive f c₀).net.readers.get? r =
      if r = f.out.reader then some (c₀.receive f.writer f.out.number f.out.change).1
      else t.session.net.readers.get? r := get?_putReader
  rw [hget] at hc'
  by_cases hacc : (c₀.receive f.writer f.out.number f.out.change).2.1 = .accepted
  · -- the change is accepted
    have haccepted : (t.session.receive f c₀).accepted = t.session.accepted ++ [f] := by
      rw [Session.receive, if_pos hacc]
    have htaken : ∀ w, (t.session.receive f c₀).taken w r =
        t.session.taken w r ++ (carried w r [f]).map (·.2) := fun w => by
      rw [Session.taken, haccepted, carried_append, List.map_append, ← Session.taken]
    split_ifs at hc' with hr
    · obtain rfl := Option.some.inj hc'
      obtain ⟨q, hq, ht⟩ := ReaderCache.receive_accepted_iff.mp hacc
      exact ⟨c₀, hr ▸ hc₀, [], [f], .accept hf hr.symm hq ht, (List.append_nil _).symm, htaken⟩
    · refine ⟨c', hc', [], [], .rest, (List.append_nil _).symm, fun w => ?_⟩
      rw [htaken, carried_single, if_neg fun h => hr h.2.symm]
      rfl
  · -- it is not, and the reader is as before
    have hsame : (c₀.receive f.writer f.out.number f.out.change).1 = c₀ :=
      ReaderCache.receive_of_not_accepted hacc
    have haccepted : (t.session.receive f c₀).accepted = t.session.accepted := by
      rw [Session.receive, if_neg hacc]
    refine ⟨c', ?_, reads_rest rfl haccepted⟩
    split_ifs at hc' with hr
    · rw [hr, hc₀, ← hc', hsame]
    · exact hc'

/-- A reader is changed and accepts nothing by it, and another one is as it was. -/
lemma reads_put {q : Guid} {c₀ c₁ : ReaderCache} {ss : List (Sample Json)}
    (hq : t.session.net.readers.get? q = some c₀) (hput : Reading t e q c₀ c₁ ss [])
    (hc' : (t.session.putReader q c₁).net.readers.get? r = some c') :
    ∃ c, t.session.net.readers.get? r = some c ∧
      t.Reads ⟨t.session.putReader q c₁, t.handed ++ ss.map (q, ·)⟩ e r c c' := by
  rw [get?_putReader] at hc'
  split_ifs at hc' with hr
  · obtain rfl := Option.some.inj hc'
    subst hr
    refine ⟨c₀, hq, ss, [], hput, ?_, fun w => ?_⟩
    · rw [of_append, if_pos rfl]
    · simp [Session.taken, Session.putReader, carried]
  · refine ⟨c', hc', reads_rest ?_ rfl⟩
    rw [of_append, if_neg (Ne.symm hr), List.append_nil]

lemma reads_enrol {w' r' : Guid}
    (hc' : (t.step (.go (.enrol w' r'))).session.net.readers.get? r = some c') :
    ∃ c, t.session.net.readers.get? r = some c ∧
      t.Reads (t.step (.go (.enrol w' r'))) (.go (.enrol w' r')) r c c' := by
  simp only [step, Session.step, outcome] at hc' ⊢
  split at hc'
  · next h c _ hr' =>
    split_ifs at hc' ⊢
    · have hput : Reading t (.go (.enrol w' r')) r' c _ [] [] := .enrol w' h.qos.isReliable
      exact reads_put hr' hput hc'
    · exact ⟨c', hc', reads_rest (by simp [of]) rfl⟩
  · exact ⟨c', hc', reads_rest (by simp [of]) rfl⟩

lemma reads_take {r' : Guid} {max : Nat}
    (hc' : (t.step (.go (.take r' max))).session.net.readers.get? r = some c') :
    ∃ c, t.session.net.readers.get? r = some c ∧
      t.Reads (t.step (.go (.take r' max))) (.go (.take r' max)) r c c' := by
  cases hr' : t.session.net.readers.get? r' with
  | none =>
    rw [step_take_of_none hr'] at hc' ⊢
    exact ⟨c', hc', reads_rest rfl rfl⟩
  | some c₀ =>
    rw [step_take hr'] at hc' ⊢
    exact reads_put hr' (.take max) hc'

lemma reads_dismiss {w' r' : Guid}
    (hc' : (t.step (.dismiss w' r')).session.net.readers.get? r = some c') :
    ∃ c, t.session.net.readers.get? r = some c ∧
      t.Reads (t.step (.dismiss w' r')) (.dismiss w' r') r c c' := by
  cases hr' : t.session.net.readers.get? r' with
  | none =>
    simp only [step, hr'] at hc' ⊢
    exact ⟨c', hc', reads_rest rfl rfl⟩
  | some c₀ =>
    simp only [step, hr'] at hc' ⊢
    have hput : Reading t (.dismiss w' r') r' c₀ _ [] [] := .dismiss rfl
    simpa using reads_put hr' hput hc'

/-- **Whatever happens, a reader is told of in one of five ways.** -/
theorem reads_step (hc' : (t.step e).session.net.readers.get? r = some c') :
    ∃ c, t.session.net.readers.get? r = some c ∧ t.Reads (t.step e) e r c c' := by
  cases e with
  | go e =>
    by_cases he : reaches e = true
    swap
    · -- the event is one of writers
      obtain ⟨hreaders, haccepted, hout⟩ :=
        step_of_not_reaches (s := t.session) (Bool.eq_false_iff.mpr he)
      refine ⟨c', hreaders ▸ hc', reads_rest ?_ haccepted⟩
      simp [step, hout, of]
    cases e with
    | write | dispose | attach | resend | answer => cases he
    | enrol w' r' => exact reads_enrol hc'
    | take r' max => exact reads_take hc'
    | arrive i =>
      simp only [step, Session.step, outcome, List.append_nil] at hc' ⊢
      split at hc'
      · split at hc'
        · exact reads_arrive (List.mem_of_getElem? ‹_›) ‹_› hc'
        · exact ⟨c', hc', reads_rest rfl rfl⟩
      · exact ⟨c', hc', reads_rest rfl rfl⟩
  | release w' r' =>
    simp only [step] at hc' ⊢
    split at hc' <;> exact ⟨c', hc', reads_rest rfl rfl⟩
  | dismiss w' r' => exact reads_dismiss hc'

/-! ### What a step does to a writer -/

/-- What becomes of a writer, and what it enqueues. -/
inductive Writing (e : Event) (w : Guid) (h : WriterHistory) :
    WriterHistory → List Outgoing → Prop where
  | rest (he : e.change? w = none) : Writing e w h h []
  | change {key : InstanceKey} {kind : ChangeKind} (payload : Option Json)
    (he : e.change? w = some (key, kind)) :
    Writing e w h (h.addChange key kind payload).1 (h.addChange key kind payload).2
  | attach (r : Guid) (q : Qos) (he : e.change? w = none) :
    Writing e w h (h.matchReader r q).1 (h.matchReader r q).2
  | acknowledge (r : Guid) (a : Nat) (he : e.change? w = none) :
    Writing e w h (h.acknowledge r a).1 []
  | release {r : Guid} (he : e = .release w r) : Writing e w h (h.unmatchReader r) []

/-- What a step does to a writer, and to what it has enqueued for its readers. -/
def Writes (t t' : Chronicle) (e : Event) (w : Guid) (h h' : WriterHistory) : Prop :=
  ∃ out, Writing e w h h' out ∧
    ∀ r, t'.session.owed w r = t.session.owed w r ++ (addressed r out).map (·.2)

lemma writes_rest {t' : Chronicle} (he : e.change? w = none)
    (henqueued : t'.session.enqueued = t.session.enqueued) : t.Writes t' e w h h :=
  ⟨[], .rest he, fun r => by simp [Session.owed, henqueued]⟩

/-- A writer sends something: it is as it was made, and another one is as it was. -/
lemma writes_send {g : Guid} {h₀ h₁ : WriterHistory} {out : List Outgoing}
    {handed : List (Guid × Sample Json)} (hg : t.session.net.writers.get? g = some h₀)
    (hguid : h₁.guid = g) (hsend : Writing e g h₀ h₁ out)
    (hother : w ≠ g → e.change? w = none)
    (hw : (t.session.send h₁ out).net.writers.get? w = some h') :
    ∃ h, t.session.net.writers.get? w = some h ∧
      t.Writes ⟨t.session.send h₁ out, handed⟩ e w h h' := by
  have howed : ∀ r, (t.session.send h₁ out).owed w r =
      t.session.owed w r ++ if g = w then (addressed r out).map (·.2) else [] := fun r => by
    simp only [Session.owed, Session.send, carried_append, carried_from, hguid, List.map_append]
    split_ifs <;> rfl
  simp only [Session.send, Net.send, Table.get?_put, hguid] at hw
  split_ifs at hw with hne
  · obtain rfl := Option.some.inj hw
    subst hne
    exact ⟨h₀, hg, out, hsend, fun r => by simpa using howed r⟩
  · refine ⟨h', hw, [], .rest (hother hne), fun r => ?_⟩
    rw [howed, if_neg (Ne.symm hne)]
    rfl

lemma writes_put {g : Guid} {h₀ h₁ : WriterHistory} {handed : List (Guid × Sample Json)}
    (hg : t.session.net.writers.get? g = some h₀) (hput : Writing e g h₀ h₁ [])
    (hother : w ≠ g → e.change? w = none)
    (hw : (t.session.putWriter g h₁).net.writers.get? w = some h') :
    ∃ h, t.session.net.writers.get? w = some h ∧
      t.Writes ⟨t.session.putWriter g h₁, handed⟩ e w h h' := by
  simp only [Session.putWriter, Table.get?_put] at hw
  split_ifs at hw with hne
  · obtain rfl := Option.some.inj hw
    subst hne
    exact ⟨h₀, hg, [], hput, fun r => by simp [Session.owed, Session.putWriter]⟩
  · exact ⟨h', hw, writes_rest (hother hne) rfl⟩

lemma step_resend {g : Guid} (hg : t.session.net.writers.get? g = some h) :
    t.step (.go (.resend g)) =
      ⟨{ t.session with net := t.session.net.send h h.pending }, t.handed⟩ := by
  simp [step, Session.step, Net.retransmit, outcome, hg]

lemma step_resend_of_none {g : Guid} (hg : t.session.net.writers.get? g = none) :
    t.step (.go (.resend g)) = t := by
  simp [step, Session.step, Net.retransmit, outcome, hg]

lemma writes_write (ht : t.session.Wf) {g : Guid} {key : InstanceKey} {payload : Json}
    (hw : (t.step (.go (.write g key payload))).session.net.writers.get? w = some h') :
    ∃ h, t.session.net.writers.get? w = some h ∧
      t.Writes (t.step (.go (.write g key payload))) (.go (.write g key payload)) w h h' := by
  simp only [step, Session.step] at hw ⊢
  split at hw
  · next h₀ hg =>
    exact writes_send hg (ht.history g h₀ hg).1 (.change (some payload) (if_pos rfl))
      (fun hne => if_neg (Ne.symm hne)) hw
  · next hnone =>
    refine ⟨h', hw, writes_rest (if_neg ?_) rfl⟩
    rintro rfl
    cases hnone.symm.trans hw

/-- A disposal that names a writer changes it, unless its handle is of another instance. -/
lemma writes_dispose (ht : t.session.Wf) {g : Guid} {key : InstanceKey} {handle : Handle}
    (hw : (t.step (.go (.dispose g key handle))).session.net.writers.get? w = some h') :
    ∃ h, t.session.net.writers.get? w = some h ∧
      t.Writes (t.step (.go (.dispose g key handle))) (.go (.dispose g key handle)) w h h' := by
  simp only [step, Session.step, WriterHistory.dispose] at hw ⊢
  split at hw
  · next h₀ hg =>
    split_ifs at hw ⊢ with hforeign
    · exact ⟨h', hw, writes_rest (if_neg (by tauto)) rfl⟩
    · exact writes_send hg (ht.history g h₀ hg).1 (.change none (if_pos ⟨rfl, by tauto⟩))
        (fun hne => if_neg fun h => hne h.1.symm) hw
  · next hnone =>
    refine ⟨h', hw, writes_rest (if_neg ?_) rfl⟩
    rintro ⟨rfl, -⟩
    cases hnone.symm.trans hw

lemma writes_attach (ht : t.session.Wf) {g r : Guid}
    (hw : (t.step (.go (.attach g r))).session.net.writers.get? w = some h') :
    ∃ h, t.session.net.writers.get? w = some h ∧
      t.Writes (t.step (.go (.attach g r))) (.go (.attach g r)) w h h' := by
  simp only [step, Session.step] at hw ⊢
  split at hw
  · next h₀ c hg _ =>
    split_ifs at hw ⊢
    · exact writes_send hg ((WriterHistory.matchReader_guid r c.qos).trans
        (ht.history g h₀ hg).1) (.attach r c.qos rfl) (fun _ => rfl) hw
    · exact ⟨h', hw, writes_rest rfl rfl⟩
  · exact ⟨h', hw, writes_rest rfl rfl⟩

/-- What is sent once more is not enqueued once more. -/
lemma writes_resend (ht : t.session.Wf) {g : Guid}
    (hw : (t.step (.go (.resend g))).session.net.writers.get? w = some h') :
    ∃ h, t.session.net.writers.get? w = some h ∧
      t.Writes (t.step (.go (.resend g))) (.go (.resend g)) w h h' := by
  cases hg : t.session.net.writers.get? g with
  | none =>
    rw [step_resend_of_none hg] at hw ⊢
    exact ⟨h', hw, writes_rest rfl rfl⟩
  | some h₀ =>
    rw [step_resend hg] at hw ⊢
    refine ⟨h', ?_, writes_rest rfl rfl⟩
    simp only [Net.send, Table.get?_put, (ht.history g h₀ hg).1] at hw
    split_ifs at hw with hne
    · rw [hne, hg, hw]
    · exact hw

def Event.SparesWriters : Event → Prop
  | .go (.enrol ..) | .go (.arrive _) | .go (.take ..) | .dismiss .. => True
  | _ => False

lemma Event.SparesWriters.step (he : e.SparesWriters) (t : Chronicle) :
    (t.step e).session.net.writers = t.session.net.writers ∧
      (t.step e).session.enqueued = t.session.enqueued := by
  cases e with
  | release => cases he
  | dismiss w r =>
    simp only [Chronicle.step]
    split <;> exact ⟨rfl, rfl⟩
  | go e =>
    cases e with
    | write | dispose | attach | resend | answer => cases he
    | enrol w r =>
      simp only [Chronicle.step, Session.step]
      split
      · split_ifs <;> exact ⟨rfl, rfl⟩
      · exact ⟨rfl, rfl⟩
    | arrive i =>
      simp only [Chronicle.step, Session.step]
      split
      · split <;> exact ⟨rfl, rfl⟩
      · exact ⟨rfl, rfl⟩
    | take r max =>
      cases hr : t.session.net.readers.get? r with
      | none =>
        rw [step_take_of_none hr]
        exact ⟨rfl, rfl⟩
      | some c =>
        rw [step_take hr]
        exact ⟨rfl, rfl⟩

lemma writes_spared (he : e.SparesWriters) (hchange : e.change? w = none)
    (hw : (t.step e).session.net.writers.get? w = some h') :
    ∃ h, t.session.net.writers.get? w = some h ∧ t.Writes (t.step e) e w h h' := by
  obtain ⟨hwriters, henqueued⟩ := he.step t
  exact ⟨h', hwriters ▸ hw, writes_rest hchange henqueued⟩

/-- **Whatever happens, a writer is told of in one of five ways.** -/
theorem writes_step (ht : t.session.Wf)
    (hw : (t.step e).session.net.writers.get? w = some h') :
    ∃ h, t.session.net.writers.get? w = some h ∧ t.Writes (t.step e) e w h h' := by
  cases e with
  | go e =>
    cases e with
    | write g key payload => exact writes_write ht hw
    | dispose g key handle => exact writes_dispose ht hw
    | attach g r => exact writes_attach ht hw
    | resend g => exact writes_resend ht hw
    | answer i =>
      simp only [step, Session.step] at hw ⊢
      split at hw
      · split at hw
        · exact writes_put ‹_› (.acknowledge _ _ rfl) (fun _ => rfl) hw
        · exact ⟨h', hw, writes_rest rfl rfl⟩
      · exact ⟨h', hw, writes_rest rfl rfl⟩
    -- the rest is told to readers
    | enrol | arrive | take => exact writes_spared trivial rfl hw
  | release g r =>
    simp only [step] at hw ⊢
    split at hw
    · exact writes_put ‹_› (.release rfl) (fun _ => rfl) hw
    · exact ⟨h', hw, writes_rest rfl rfl⟩
  | dismiss g r => exact writes_spared trivial rfl hw

/-! ### What a step does to the two of them -/

structure Kept (t : Chronicle) (w r : Guid) : Prop where
  wf : t.session.Wf
  link : ∀ h c, t.session.net.writers.get? w = some h → t.session.net.readers.get? r = some c →
    Link.Sound (Session.both h c) (t.session.link w r)

lemma kept_start (writers readers : List (Guid × Qos)) (w r : Guid) :
    (start writers readers).Kept w r :=
  ⟨Session.wf_start writers readers, (Session.sound_start writers readers).link w r⟩

lemma Kept.release {g q : Guid} (ht : t.Kept w r) (hne : ¬(g = w ∧ q = r))
    (hg : t.session.net.writers.get? g = some h) :
    Kept { t with session := t.session.putWriter g (h.unmatchReader q) } w r := by
  have hget : ∀ w', (t.session.putWriter g (h.unmatchReader q)).net.writers.get? w' =
      if w' = g then some (h.unmatchReader q) else t.session.net.writers.get? w' := fun w' =>
    Table.get?_put _ _ _ _ _
  -- the pair is another one, so its link stays
  have hlink : (t.session.putWriter g (h.unmatchReader q)).link w r = t.session.link w r := by
    rw [Session.link_putWriter]
    split_ifs with hw
    · have hproxy : (t.session.link w r).proxy = h.proxies.get? r := by
        simp [Session.link, hw, hg]
      rw [WriterHistory.get?_unmatchReader, if_neg fun hr => hne ⟨hw.symm, hr.symm⟩, ← hproxy]
    · rfl
  obtain ⟨hguid, hwf⟩ := ht.wf.history g h hg
  refine ⟨⟨fun w' x hx => ?_, fun f hf x hx => ?_⟩, fun x c hx hc => ?_⟩
  · rw [hget] at hx
    split_ifs at hx with hw
    · obtain rfl := Option.some.inj hx
      exact ⟨hguid.trans hw.symm, hwf.unmatchReader q⟩
    · exact ht.wf.history w' x hx
  · rw [hget] at hx
    split_ifs at hx with hw
    · obtain rfl := Option.some.inj hx
      exact ht.wf.earlier f hf h (hw ▸ hg)
    · exact ht.wf.earlier f hf x hx
  · rw [hget] at hx
    show Link.Sound (Session.both x c) ((t.session.putWriter g (h.unmatchReader q)).link w r)
    rw [hlink]
    split_ifs at hx with hw
    · obtain rfl := Option.some.inj hx
      exact ht.link h c (hw ▸ hg) hc
    · exact ht.link x c hx hc

lemma Kept.dismiss {g q : Guid} (ht : t.Kept w r) (hne : ¬(g = w ∧ q = r))
    (hq : t.session.net.readers.get? q = some c) :
    Kept { t with session := t.session.putReader q (c.removeWriter g).1 } w r := by
  have hlink : (t.session.putReader q (c.removeWriter g).1).link w r = t.session.link w r := by
    rw [Session.link_putReader]
    split_ifs with hr
    · have hpeer : (t.session.link w r).peer = c.writers.get? w := by
        simp [Session.link, hr, hq]
      rw [ReaderCache.get?_removeWriter, if_neg fun hw => hne ⟨hw.symm, hr.symm⟩, ← hpeer]
    · rfl
  refine ⟨⟨ht.wf.history, ht.wf.earlier⟩, fun h x hh hx => ?_⟩
  rw [get?_putReader] at hx
  show Link.Sound (Session.both h x) ((t.session.putReader q (c.removeWriter g).1).link w r)
  rw [hlink]
  split_ifs at hx with hr
  · obtain rfl := Option.some.inj hx
    rw [Session.both, ReaderCache.removeWriter_qos]
    exact ht.link h c hh (hr ▸ hq)
  · exact ht.link h x hh hx

/-- **A pair stays sound as long as it is not parted**, whatever other pairs do. -/
theorem Kept.step (ht : t.Kept w r) (he : ¬ e.Parts w r) : (t.step e).Kept w r := by
  cases e with
  | go e =>
    obtain ⟨hwf, hmove⟩ := Session.onward_step ht.wf e
    refine ⟨hwf, fun h' c' hh hc => ?_⟩
    obtain ⟨h, c, hh, hc, hboth, hstep⟩ := hmove w r h' c' hh hc
    exact hboth ▸ (ht.link h c hh hc).step hstep
  | release g q =>
    simp only [Chronicle.step]
    split
    · exact ht.release he ‹_›
    · exact ht
  | dismiss g q =>
    simp only [Chronicle.step]
    split
    · exact ht.dismiss he ‹_›
    · exact ht

lemma run_concat (t : Chronicle) (es : List Event) (e : Event) :
    t.run (es ++ [e]) = (t.run es).step e := List.foldl_concat ..

lemma run_append (t : Chronicle) (es es' : List Event) :
    t.run (es ++ es') = (t.run es).run es' := List.foldl_append ..

lemma Kept.run (ht : t.Kept w r) {es : List Event} (hes : ∀ e ∈ es, ¬ e.Parts w r) :
    (t.run es).Kept w r := by
  induction es generalizing t with
  | nil => exact ht
  | cons e es ih =>
    exact ih (ht.step (hes e List.mem_cons_self)) fun e' he' => hes e' (List.mem_cons_of_mem _ he')

/-- Nothing that was ever sent is gone. -/
lemma mem_flight_step {f : Flight} (hf : f ∈ t.session.net.flight) (e : Event) :
    f ∈ (t.step e).session.net.flight := by
  -- what is sent is added behind what is in flight, and no arrival takes anything out
  cases e with
  | go e =>
    cases e with
    | write g key payload =>
      simp only [step, Session.step]
      split
      · exact List.mem_append_left _ hf
      · exact hf
    | dispose g key handle =>
      simp only [step, Session.step]
      split
      · split
        · exact List.mem_append_left _ hf
        · exact hf
      · exact hf
    | attach g r =>
      simp only [step, Session.step]
      split
      · split_ifs
        · exact List.mem_append_left _ hf
        · exact hf
      · exact hf
    | resend g =>
      cases hg : t.session.net.writers.get? g with
      | none => rwa [step_resend_of_none hg]
      | some h =>
        rw [step_resend hg]
        exact List.mem_append_left _ hf
    | enrol g r =>
      simp only [step, Session.step]
      split
      · split_ifs <;> exact hf
      · exact hf
    | arrive i =>
      simp only [step, Session.step]
      split
      · split <;> exact hf
      · exact hf
    | answer i =>
      simp only [step, Session.step]
      split
      · split <;> exact hf
      · exact hf
    | take r max =>
      cases hr : t.session.net.readers.get? r with
      | none => rwa [step_take_of_none hr]
      | some c => rwa [step_take hr]
  | release g q =>
    simp only [step]
    split <;> exact hf
  | dismiss g q =>
    simp only [step]
    split <;> exact hf

end Chronicle

end PubSub
