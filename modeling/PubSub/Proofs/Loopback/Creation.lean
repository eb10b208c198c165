import PubSub.Proofs.Loopback.Listing

/-!
A new endpoint meets every open endpoint of the other kind and of its key, once, and is listed
itself. A writer that is bound to a new reader replays what it retains.
-/

namespace PubSub.Loopback

namespace Domain

variable {d d' d'' : Domain} {w r : Guid} {x : Writer} {y : Reader}

def backlog (d : Domain) (w : Guid) (q : Qos) : List Change :=
  ((d.writers.get? w).map (·.history.backlog q)).getD []

def replay (d : Domain) (w r : Guid) : List Change :=
  ((d.card? .reader r).map fun b => d.backlog w b.qos).getD []

/-- Whoever is bound has its replay enqueued, and nobody else has anything. -/
def Replayed (d : Domain) (ms : List Meeting) (owed owed' : Guid → Guid → List Change) : Prop :=
  ∀ w r, (⟨w, r, true⟩ ∈ ms → owed' w r = owed w r ++ d.replay w r) ∧
    (⟨w, r, true⟩ ∉ ms → owed' w r = owed w r)

/-! ### Nobody comes or goes -/

/-- Something has happened by which no participant and no endpoint has come or gone. -/
structure Steady (d d' : Domain) : Prop where
  participants : d'.participants = d.participants
  openAs : d'.openAs? = d.openAs?

namespace Steady

lemma refl (d : Domain) : Steady d d := ⟨rfl, rfl⟩

lemma trans (h : Steady d d') (h' : Steady d' d'') : Steady d d'' :=
  ⟨h'.participants.trans h.participants, h'.openAs.trans h.openAs⟩

lemma foldl {β : Type} {f : Domain → β → Domain} (h : ∀ d b, Steady d (f d b)) (l : List β)
    (d : Domain) : Steady d (l.foldl f d) := by
  induction l generalizing d with
  | nil => exact .refl d
  | cons b l ih => exact (h d b).trans (ih _)

lemma adjustWriter {f : Writer → Writer}
    (hf : ∀ x, d.writers.get? w = some x →
      (f x).key = x.key ∧ (f x).qos = x.qos ∧ (f x).isOpen = x.isOpen) :
    Steady d (d.adjustWriter w f) := by
  refine ⟨rfl, funext₂ fun k g => ?_⟩
  cases k with
  | reader => rfl
  | writer =>
    simp only [openAs?, card?, get?_adjustWriter]
    split_ifs with hg
    · subst hg
      cases hx : d.writers.get? g with
      | none => rfl
      | some x =>
        obtain ⟨hkey, hqos, hopen⟩ := hf x hx
        simp [Option.filter, Card.ofWriter, hkey, hqos, hopen, apply_ite]
    · rfl

lemma adjustReader {f : Reader → Reader}
    (hf : ∀ y, d.readers.get? r = some y →
      (f y).key = y.key ∧ (f y).qos = y.qos ∧ (f y).isOpen = y.isOpen) :
    Steady d (d.adjustReader r f) := by
  refine ⟨rfl, funext₂ fun k g => ?_⟩
  cases k with
  | writer => rfl
  | reader =>
    simp only [openAs?, card?, get?_adjustReader]
    split_ifs with hg
    · subst hg
      cases hy : d.readers.get? g with
      | none => rfl
      | some y =>
        obtain ⟨hkey, hqos, hopen⟩ := hf y hy
        simp [Option.filter, Card.ofReader, hkey, hqos, hopen, apply_ite]
    · rfl

lemma of_card (hp : d'.participants = d.participants) (hc : d'.card? = d.card?) : Steady d d' :=
  ⟨hp, openAs?_of_card? hc⟩

lemma submit (d : Domain) (w : Guid) (out : List Outgoing) : Steady d (d.submit w out) := by
  unfold Domain.submit
  split
  · exact .refl d
  · exact .of_card rfl (funext₂ fun k g => by cases k <;> rfl)

lemma meet (d : Domain) (w : Guid) (offered : Qos) (r : Guid) (requested : Qos) :
    Steady d (d.meet w offered r requested) := by
  unfold Domain.meet
  split
  · next p _ =>
    exact (adjustWriter (f := (·.refuse p)) fun _ _ => ⟨rfl, rfl, rfl⟩).trans
      (adjustReader (f := (·.refuse p)) fun _ _ => ⟨rfl, rfl, rfl⟩)
  · unfold Domain.bind
    split
    · next x y hx hy =>
      have hreader : Steady d (d.adjustReader r (readerBound · w x.qos.isReliable)) := by
        refine adjustReader fun y _ => ?_
        unfold readerBound
        split_ifs
        · exact ⟨rfl, rfl, rfl⟩
        · exact ⟨rfl, ReaderCache.addWriter_qos _ _ _, rfl⟩
      refine hreader.trans (.trans (adjustWriter fun x' hx' => ?_) (submit _ w _))
      obtain rfl : x' = x := Option.some.inj (hx'.symm.trans hx)
      have hcard := ofWriter_writerBound x' r y.qos
      exact ⟨congrArg Card.key hcard, congrArg Card.qos hcard, congrArg Card.isOpen hcard⟩
    · exact .refl d

end Steady

/-! ### Meetings -/

abbrev Encounter := Entry × Entry

def Encounter.meeting (e : Encounter) : Meeting :=
  ⟨e.1.guid, e.2.guid, Qos.compatible e.1.qos e.2.qos⟩

lemma Encounter.guids_of_meeting {e : Encounter} {c : Bool} (h : e.meeting = ⟨w, r, c⟩) :
    (e.1.guid, e.2.guid) = (w, r) :=
  Prod.ext (congrArg Meeting.writer h) (congrArg Meeting.reader h)

def meetAll (d : Domain) (es : List Encounter) : Domain :=
  es.foldl (fun d e => d.meet e.1.guid e.1.qos e.2.guid e.2.qos) d

lemma backlog_adjustWriter (hx : d.writers.get? w = some x) {f : Writer → Writer}
    (hf : (f x).history.retained = x.history.retained) :
    (d.adjustWriter w f).backlog = d.backlog := by
  funext g q
  simp only [backlog, get?_adjustWriter]
  split_ifs with hg
  · rw [hg, hx]
    simp [WriterHistory.backlog, hf]
  · rfl

lemma entries_meet (d : Domain) (w : Guid) (offered : Qos) (r : Guid) (requested : Qos) :
    (d.meet w offered r requested).entries = d.entries := by
  simp only [meet, bind, submit]
  split
  · rfl
  · split
    · split <;> rfl
    · rfl

/-- A meeting changes nothing of what a writer would replay. -/
lemma replay_meet (hx : d.writers.get? w = some x) (hy : d.readers.get? r = some y)
    (hn : x.history.proxies.get? r = none) (hn' : y.cache.writers.get? w = none) :
    (d.meet w x.qos r y.qos).replay = d.replay := by
  have hbacklog : (d.meet w x.qos r y.qos).backlog = d.backlog := by
    cases hq : Qos.conflict? x.qos y.qos with
    | some p =>
      rw [meet_of_conflict hq]
      exact backlog_adjustWriter (f := (·.refuse p)) hx rfl
    | none =>
      rw [meet_of_compatible hx hy hq hn]
      have hx' : (d.adjustReader r (readerBound · w x.qos.isReliable)).writers.get? w = some x := hx
      refine backlog_adjustWriter (f := fun _ => (writerBound x r y.qos).1) hx' ?_
      rw [writerBound_history, WriterHistory.matchReader_retained]
  funext w' r'
  rw [replay, replay, hbacklog, card?_meet hx hy hn hn' _ rfl]
  split_ifs
  · cases d.card? .reader r' <;> simp
  · rfl

end Domain

namespace Good

open Domain

variable {met : List Meeting} {d d₁ : Domain} {w r : Guid} {owed owed' : Guid → Guid → List Change}
  {got : Guid → Guid → List (Change × Reception)}

/-- What is owed once a pair has met: its replay, if the two are bound. -/
def owedAfter (d : Domain) (e : Encounter) (owed : Guid → Guid → List Change) :
    Guid → Guid → List Change :=
  fun w r => if e.meeting = ⟨w, r, true⟩ then owed w r ++ d.replay w r else owed w r

/-- The replay of the first pair is made now, that of every other one later. -/
lemma replayed_rest {e : Encounter} {es : List Encounter}
    (hnot : (e.1.guid, e.2.guid) ∉ es.map fun e => (e.1.guid, e.2.guid))
    (howed : d.Replayed ((e :: es).map Encounter.meeting) owed owed')
    (hreplay : d₁.replay = d.replay) :
    d₁.Replayed (es.map Encounter.meeting) (owedAfter d e owed) owed' := by
  intro w r
  obtain ⟨hyes, hno⟩ := howed w r
  rw [List.map_cons, List.mem_cons] at hyes hno
  rw [hreplay]
  by_cases hwr : e.meeting = ⟨w, r, true⟩
  · have hlater : ⟨w, r, true⟩ ∉ es.map Encounter.meeting := by
      intro hmem
      obtain ⟨e', he', heq⟩ := List.mem_map.mp hmem
      have hguids := (Encounter.guids_of_meeting heq).trans
        (Encounter.guids_of_meeting hwr).symm
      exact hnot (List.mem_map.mpr ⟨e', he', hguids⟩)
    refine ⟨fun hmem => absurd hmem hlater, fun _ => ?_⟩
    rw [hyes (.inl hwr.symm), owedAfter, if_pos hwr]
  · rw [owedAfter, if_neg hwr]
    exact ⟨fun hmem => hyes (.inr hmem), fun hmem => hno fun hor =>
      hor.elim (fun heq => hwr heq.symm) hmem⟩

/-- Two open endpoints of one key that have not met yet do. -/
lemma meet_one (hwf : d.Wf) (hs : Sound met (Trace.view ⟨d, owed, got⟩)) {e : Encounter}
    {key : MatchKey} (hw : d.openAs? .writer e.1.guid = some (key, e.1.qos))
    (hr : d.openAs? .reader e.2.guid = some (key, e.2.qos))
    (hnew : ∀ c, ⟨e.1.guid, e.2.guid, c⟩ ∉ met) :
    let d' := d.meet e.1.guid e.1.qos e.2.guid e.2.qos
    d'.Wf ∧ d'.replay = d.replay ∧
      Sound (met ++ [e.meeting]) (Trace.view ⟨d', owedAfter d e owed, got⟩) := by
  obtain ⟨a, ha, hoa, hka, hqa⟩ := openAs?_eq_some.mp hw
  obtain ⟨b, hb, hob, hkb, hqb⟩ := openAs?_eq_some.mp hr
  obtain ⟨x, hx, rfl⟩ := Option.map_eq_some_iff.mp ha
  obtain ⟨y, hy, rfl⟩ := Option.map_eq_some_iff.mp hb
  -- neither side has the other yet
  have hapart := hs.apart _ _ (hnew true)
  have hn : x.history.proxies.get? e.2.guid = none := by
    have hproxy : d.proxy? e.1.guid e.2.guid = none := congrArg Pair.proxy hapart
    simpa [proxy?, hx] using hproxy
  have hn' : y.cache.writers.get? e.1.guid = none := by
    have hpeer : d.peer? e.1.guid e.2.guid = none := congrArg Pair.peer hapart
    simpa [peer?, hy] using hpeer
  have hqx : e.1.qos = x.qos := hqa.symm
  have hqy : e.2.qos = y.qos := hqb.symm
  have hm : e.meeting = ⟨e.1.guid, e.2.guid, Qos.compatible x.qos y.qos⟩ := by
    rw [Encounter.meeting, hqx, hqy]
  -- the replay is what the writer retains for the reader
  have howed : owedAfter d e owed = fun w r => if e.meeting = ⟨w, r, true⟩ then
      owed w r ++ x.history.backlog y.qos else owed w r := by
    funext w r
    rw [owedAfter]
    split_ifs with hwr
    · obtain ⟨rfl, rfl⟩ := Prod.mk.inj (Encounter.guids_of_meeting hwr)
      rw [replay, hb]
      simp [backlog, hx, Card.ofReader]
    · rfl
  have htidy := (hwf.writer _ x hx).history
  have hnext : (Trace.view ⟨d, owed, got⟩).next e.1.guid = x.history.next := by
    simp [Trace.view, nextOf, hx]
  have hsound : Sound (met ++ [e.meeting]) ((Trace.view ⟨d, owed, got⟩).meet e.meeting
      (x.qos.isReliable && y.qos.isReliable) (x.history.backlog y.qos)) := by
    rw [hm]
    exact hs.meet ha hb hoa hob (hka.trans hkb.symm) hnew (htidy.backlog y.qos)
      (fun c hc => hnext ▸ htidy.earlier c (WriterHistory.backlog_subset hc)) rfl
  intro d'
  have hd' : d' = d.meet e.1.guid x.qos e.2.guid y.qos := by rw [← hqx, ← hqy]
  rw [hd', howed, view_meet owed got hx hy hn hn' e.meeting hm]
  exact ⟨hwf.meet hx hy hn hn', replay_meet hx hy hn hn', hsound⟩

/-- Open endpoints that have not met yet do, one pair after another. -/
lemma meetAll {es : List Encounter} (hwf : d.Wf) (hs : Sound met (Trace.view ⟨d, owed, got⟩))
    (hes : ∀ e ∈ es, ∃ key, d.openAs? .writer e.1.guid = some (key, e.1.qos) ∧
      d.openAs? .reader e.2.guid = some (key, e.2.qos))
    (hnew : ∀ e ∈ es, ∀ c, ⟨e.1.guid, e.2.guid, c⟩ ∉ met)
    (hnodup : (es.map fun e => (e.1.guid, e.2.guid)).Nodup)
    (howed : d.Replayed (es.map Encounter.meeting) owed owed') :
    (d.meetAll es).Wf ∧ Sound (met ++ es.map Encounter.meeting)
      (Trace.view ⟨d.meetAll es, owed', got⟩) ∧
      (d.meetAll es).openAs? = d.openAs? ∧ (d.meetAll es).entries = d.entries := by
  induction es generalizing d met owed with
  | nil =>
    have hsame : owed' = owed := by
      funext w r
      exact (howed w r).2 List.not_mem_nil
    subst hsame
    refine ⟨hwf, ?_, rfl, rfl⟩
    rw [List.map_nil, List.append_nil]
    exact hs
  | cons e es ih =>
    obtain ⟨key, hw, hr⟩ := hes e List.mem_cons_self
    obtain ⟨hnot, hrest⟩ := List.nodup_cons.mp hnodup
    obtain ⟨hwf', hreplay, hs'⟩ := meet_one hwf hs hw hr (hnew e List.mem_cons_self)
    have hsame := (Steady.meet d e.1.guid e.1.qos e.2.guid e.2.qos).openAs
    -- the others are still there, and have not met either
    have hes' : ∀ e' ∈ es, ∃ key,
        (d.meet e.1.guid e.1.qos e.2.guid e.2.qos).openAs? .writer e'.1.guid =
            some (key, e'.1.qos) ∧
          (d.meet e.1.guid e.1.qos e.2.guid e.2.qos).openAs? .reader e'.2.guid =
            some (key, e'.2.qos) := by
      intro e' he'
      rw [hsame]
      exact hes e' (List.mem_cons_of_mem _ he')
    have hnew' : ∀ e' ∈ es, ∀ c, ⟨e'.1.guid, e'.2.guid, c⟩ ∉ met ++ [e.meeting] := by
      intro e' he' c hc
      rcases List.mem_append.mp hc with hc | hc
      · exact hnew e' (List.mem_cons_of_mem _ he') c hc
      · have hguids := Encounter.guids_of_meeting (List.mem_singleton.mp hc).symm
        exact hnot (List.mem_map.mpr ⟨e', he', hguids.symm⟩)
    obtain ⟨hwf'', hs'', hopen, hentries⟩ :=
      ih hwf' hs' hes' hnew' hrest (replayed_rest hnot howed hreplay)
    refine ⟨hwf'', ?_, hopen.trans hsame, hentries.trans (entries_meet d _ _ _ _)⟩
    rw [List.map_cons, List.append_cons]
    exact hs''

/-- Those that a new endpoint meets: the open ones of the other kind and of its key. -/
def encounters (d : Domain) (k : EndpointKind) (g : Guid) (key : MatchKey) (q : Qos) :
    List Encounter :=
  match k with
  | .writer => (d.listedOf .reader key).map fun e => (⟨g, .writer, q⟩, e)
  | .reader => (d.listedOf .writer key).map fun e => (e, ⟨g, .reader, q⟩)

lemma mem_encounters (h : d.Listed) {k : EndpointKind} {g : Guid} {key : MatchKey} {q : Qos}
    {e : Encounter} (he : e ∈ encounters d k g key q) :
    k = .writer ∧ e.1 = ⟨g, .writer, q⟩ ∧ d.openAs? .reader e.2.guid = some (key, e.2.qos) ∨
      k = .reader ∧ e.2 = ⟨g, .reader, q⟩ ∧ d.openAs? .writer e.1.guid = some (key, e.1.qos) := by
  cases k with
  | writer =>
    obtain ⟨e', he', rfl⟩ := List.mem_map.mp he
    exact .inl ⟨rfl, rfl, ((mem_listedOf h).mp he').2⟩
  | reader =>
    obtain ⟨e', he', rfl⟩ := List.mem_map.mp he
    exact .inr ⟨rfl, rfl, ((mem_listedOf h).mp he').2⟩

lemma nodup_encounters (h : d.Listed) (k : EndpointKind) (g : Guid) (key : MatchKey) (q : Qos) :
    ((encounters d k g key q).map fun e => (e.1.guid, e.2.guid)).Nodup := by
  have hlisted : ∀ k', ((d.listedOf k' key).map (·.guid)).Nodup := fun k' =>
    (h.nodup key).sublist (List.filter_sublist.map _)
  cases k with
  | writer =>
    have := (hlisted .reader).map (f := fun r => (g, r)) fun a b hab => (Prod.mk.inj hab).2
    simpa [encounters, List.map_map, Function.comp_def] using this
  | reader =>
    have := (hlisted .writer).map (f := fun w => (w, g)) fun a b hab => (Prod.mk.inj hab).1
    simpa [encounters, List.map_map, Function.comp_def] using this

/-- Any two of which one is new and the other is open under its key meet. -/
lemma meeting_mem (h : d.Listed) {k : EndpointKind} {g : Guid} {key : MatchKey} {q q' : Qos}
    {m : Meeting}
    (hm : k = .writer ∧ m.writer = g ∧ d.openAs? .reader m.reader = some (key, q') ∧
        m.bound = Qos.compatible q q' ∨
      k = .reader ∧ m.reader = g ∧ d.openAs? .writer m.writer = some (key, q') ∧
        m.bound = Qos.compatible q' q) :
    m ∈ (encounters d k g key q).map Encounter.meeting := by
  obtain ⟨w, r, c⟩ := m
  rcases hm with ⟨rfl, rfl, hr, rfl⟩ | ⟨rfl, rfl, hw, rfl⟩
  · have hmem : (⟨r, .reader, q'⟩ : Entry) ∈ d.listedOf .reader key :=
      (mem_listedOf h).mpr ⟨rfl, hr⟩
    exact List.mem_map.mpr ⟨_, List.mem_map.mpr ⟨_, hmem, rfl⟩, rfl⟩
  · have hmem : (⟨w, .writer, q'⟩ : Entry) ∈ d.listedOf .writer key :=
      (mem_listedOf h).mpr ⟨rfl, hw⟩
    exact List.mem_map.mpr ⟨_, List.mem_map.mpr ⟨_, hmem, rfl⟩, rfl⟩

lemma encounters_unmet (h : Good met ⟨d, owed, got⟩) {k : EndpointKind} {g : Guid}
    {key : MatchKey} {q : Qos} (hcard : ∀ k, d.card? k g = none) {e : Encounter}
    (he : e ∈ encounters d k g key q) (c : Bool) : ⟨e.1.guid, e.2.guid, c⟩ ∉ met := by
  intro hc
  rcases mem_encounters h.listed he with ⟨rfl, heq, -⟩ | ⟨rfl, heq, -⟩
  · exact h.sound.not_met (k := .writer) (hcard .writer) hc (congrArg Entry.guid heq)
  · exact h.sound.not_met (k := .reader) (hcard .reader) hc (congrArg Entry.guid heq)

lemma encounters_open (h : d.Listed) {k : EndpointKind} {g : Guid} {key : MatchKey} {q : Qos}
    (hopen : ∀ k' g', d₁.openAs? k' g' =
      if k' = k ∧ g' = g then some (key, q) else d.openAs? k' g')
    (hnone : ∀ k, d.openAs? k g = none) {e : Encounter} (he : e ∈ encounters d k g key q) :
    ∃ key, d₁.openAs? .writer e.1.guid = some (key, e.1.qos) ∧
      d₁.openAs? .reader e.2.guid = some (key, e.2.qos) := by
  have hold : ∀ k' g' a, d.openAs? k' g' = some a → d₁.openAs? k' g' = some a := by
    intro k' g' a ha
    rw [hopen, if_neg, ha]
    rintro ⟨rfl, rfl⟩
    cases ha.symm.trans (hnone k')
  have hnew : d₁.openAs? k g = some (key, q) := by rw [hopen, if_pos ⟨rfl, rfl⟩]
  rcases mem_encounters h he with ⟨rfl, heq, hr⟩ | ⟨rfl, heq, hw⟩
  · exact ⟨key, by rw [heq, hnew], hold _ _ _ hr⟩
  · exact ⟨key, hold _ _ _ hw, by rw [heq, hnew]⟩

/-- Any two that are open side by side now were so before, or one of them is the new one. -/
lemma settled_enter (h : Good met ⟨d, owed, got⟩) {d' : Domain} {k : EndpointKind} {g : Guid}
    {key : MatchKey} {q : Qos} (hopen : ∀ k' g', d'.openAs? k' g' =
      if k' = k ∧ g' = g then some (key, q) else d.openAs? k' g')
    {m : Meeting} (hm : d'.Beside m) :
    m ∈ met ++ (encounters d k g key q).map Encounter.meeting := by
  obtain ⟨key', q₁, q₂, hw, hr, hc⟩ := hm
  rw [hopen] at hw hr
  split_ifs at hw hr with hgw hgr hgr
  · exact absurd (hgw.1.trans hgr.1.symm) (by simp)
  · obtain ⟨rfl, rfl⟩ := Prod.mk.inj (Option.some.inj hw)
    exact List.mem_append_right _ (meeting_mem h.listed (.inl ⟨hgw.1.symm, hgw.2, hr, hc⟩))
  · obtain ⟨rfl, rfl⟩ := Prod.mk.inj (Option.some.inj hr)
    exact List.mem_append_right _ (meeting_mem h.listed (.inr ⟨hgr.1.symm, hgr.2, hw, hc⟩))
  · exact List.mem_append_left _ (h.settled m ⟨key', q₁, q₂, hw, hr, hc⟩)

/-- A new endpoint meets whoever is there for it, and is listed. -/
lemma enter (h : Good met ⟨d, owed, got⟩) {k : EndpointKind} {g : Guid} {key : MatchKey} {q : Qos}
    (hnone : ∀ k, d.has k g = false) (hwf : d₁.Wf) (he : d₁.entries = d.entries)
    (hview : Trace.view ⟨d₁, owed, got⟩ =
      (Trace.view ⟨d, owed, got⟩).enter k g ⟨key, q, true, 0, 0⟩)
    (howed : d₁.Replayed ((encounters d k g key q).map Encounter.meeting) owed owed') :
    Good (met ++ (encounters d k g key q).map Encounter.meeting)
        ⟨(d₁.meetAll (encounters d k g key q)).enlist key ⟨g, k, q⟩, owed', got⟩ ∧
      ∀ m ∈ (encounters d k g key q).map Encounter.meeting,
        ((d₁.meetAll (encounters d k g key q)).enlist key ⟨g, k, q⟩).Beside m := by
  -- the identity is new to both kinds
  have hcard : ∀ k, d.card? k g = none := by
    intro k
    rw [Option.eq_none_iff_forall_ne_some]
    intro a ha
    exact absurd ((has_iff_card? k g).mpr ⟨a, ha⟩) (by simp [hnone k])
  have hclosed : ∀ k, d.openAs? k g = none := fun k => by simp [openAs?, hcard]
  -- whatever was open before stays so, and the new endpoint is open beside it
  have hopen : ∀ k' g', d₁.openAs? k' g' =
      if k' = k ∧ g' = g then some (key, q) else d.openAs? k' g' := by
    intro k' g'
    have hcard' : d₁.card? k' g' = _ := congrFun (congrFun (congrArg View.card hview) k') g'
    rw [openAs?, hcard', View.enter]
    simp only
    split_ifs <;> rfl
  obtain ⟨hwf', hsound', hopen', hentries'⟩ := meetAll hwf
    (hview.symm ▸ h.sound.enter (hcard k) rfl rfl)
    (fun e he => encounters_open h.listed hopen hclosed he)
    (fun e he => h.encounters_unmet hcard he) (nodup_encounters h.listed k g key q) howed
  have hlisted : Listed ((d₁.meetAll (encounters d k g key q)).enlist key ⟨g, k, q⟩) :=
    h.listed.enlist (hentries'.trans he) hclosed fun k' g' => by rw [hopen', hopen]
  have hseen : ((d₁.meetAll (encounters d k g key q)).enlist key ⟨g, k, q⟩).openAs? =
      d₁.openAs? := (openAs?_of_card? (funext₂ fun k' g' => by cases k' <;> rfl)).trans hopen'
  refine ⟨⟨?_, hlisted, hsound', fun m hm => ?_⟩, fun m hm => ?_⟩
  · exact ⟨hwf'.identity, hwf'.issued, hwf'.once, hwf'.writers, hwf'.readers, hwf'.writer,
      hwf'.reader⟩
  · -- any two open endpoints of one key have met by now
    exact h.settled_enter (fun k' g' => by rw [hseen, hopen]) hm
  · obtain ⟨e, he, rfl⟩ := List.mem_map.mp hm
    obtain ⟨key', hw, hr⟩ := encounters_open h.listed hopen hclosed he
    unfold Domain.Beside
    rw [hseen]
    exact ⟨key', e.1.qos, e.2.qos, hw, hr, rfl⟩

/-! ### A participant creates an endpoint -/

lemma setParticipant (h : Good met ⟨d, owed, got⟩) {p : Nat} {x x' : Participant}
    (hp : d.participants.get? p = some x) (hid : x'.id = p) (hle : x.next ≤ x'.next) :
    Good met ⟨d.setParticipant x', owed, got⟩ := by
  refine h.of_view (h.wf.adjustParticipant x'.id fun y hy => ⟨rfl, ?_⟩) rfl rfl
  rw [hid, hp] at hy
  exact Option.some.inj hy ▸ hle

/-- A new writer has nothing to replay. -/
lemma enterWriter (h : Good met ⟨d, owed, got⟩) {g : Guid} (hnone : ∀ k, d.has k g = false)
    (hg : ∃ p, d.participants.get? g.participant = some p ∧ g.entity < p.next) (topic : String)
    (type : SampleType) (q : Qos) :
    Good (met ++ (encounters d .writer g (.of topic type.name) q).map Encounter.meeting)
        ⟨d.addWriter (.new g topic type q), owed, got⟩ ∧
      ∀ m ∈ (encounters d .writer g (.of topic type.name) q).map Encounter.meeting,
        (d.addWriter (.new g topic type q)).Beside m := by
  have hadd : d.addWriter (.new g topic type q) =
      ((d.insertWriter (.new g topic type q)).meetAll
        (encounters d .writer g (.of topic type.name) q)).enlist (.of topic type.name)
          ⟨g, .writer, q⟩ := by
    rw [Domain.meetAll, encounters, List.foldl_map]
    rfl
  rw [hadd]
  have hn : d.writers.get? g = none := Table.has_eq_false.mp (hnone .writer)
  refine h.enter hnone (h.wf.insertWriter (hnone .writer) (hnone .reader) hg topic type q) rfl
    (view_insertWriter hn topic type q) fun w r => ⟨fun hm => ?_, fun _ => rfl⟩
  obtain ⟨e, he, hew⟩ := List.mem_map.mp hm
  obtain rfl : w = g := by
    obtain ⟨e', -, rfl⟩ := List.mem_map.mp he
    exact (congrArg Meeting.writer hew).symm
  -- its history is empty
  have hbacklog : ∀ q', (d.insertWriter (.new w topic type q)).backlog w q' = [] := by
    intro q'
    have hget : (d.insertWriter (.new w topic type q)).writers.get? w =
        some (.new w topic type q) := (get?_insertWriter hn w).trans (if_pos rfl)
    rw [Domain.backlog, hget]
    simp [WriterHistory.backlog, Writer.new, WriterHistory.new]
  have hreplay : (d.insertWriter (.new w topic type q)).replay w r = [] := by
    rw [replay]
    cases (d.insertWriter (.new w topic type q)).card? .reader r <;> simp [hbacklog]
  rw [hreplay, List.append_nil]

/-- A new reader is bound to the open writers of its key that offer enough. -/
lemma bound_encounters_iff (h : d.Listed) (g : Guid) (key : MatchKey) (q : Qos) (w r : Guid) :
    ⟨w, r, true⟩ ∈ (encounters d .reader g key q).map Encounter.meeting ↔
      r = g ∧ ∃ x, d.writers.get? w = some x ∧ x.isOpen = true ∧ x.key = key ∧
        Qos.compatible x.qos q = true := by
  simp only [encounters, List.map_map, List.mem_map, Function.comp_apply, Encounter.meeting,
    Meeting.mk.injEq, mem_listedOf h, openAs?_eq_some, card?, Option.map_eq_some_iff]
  constructor
  · rintro ⟨e, ⟨-, a, ⟨x, hx, rfl⟩, ho, hk, hq⟩, rfl, rfl, hc⟩
    rw [← hq] at hc
    exact ⟨rfl, x, hx, ho, hk, hc⟩
  · rintro ⟨rfl, x, hx, ho, hk, hc⟩
    exact ⟨⟨w, .writer, x.qos⟩, ⟨rfl, _, ⟨x, hx, rfl⟩, ho, hk, rfl⟩, rfl, rfl, hc⟩

/-- A new reader is owed what every open writer that it may have retains for it. -/
lemma enterReader (h : Good met ⟨d, owed, got⟩) {g : Guid} (hnone : ∀ k, d.has k g = false)
    (hg : ∃ p, d.participants.get? g.participant = some p ∧ g.entity < p.next) (topic : String)
    (type : SampleType) (q : Qos)
    (howed : ∀ w r,
      (∀ x, d.writers.get? w = some x → r = g → x.isOpen = true →
        x.key = .of topic type.name → Qos.compatible x.qos q = true →
        owed' w r = owed w r ++ x.history.backlog q) ∧
      ((∀ x, d.writers.get? w = some x → ¬(r = g ∧ x.isOpen = true ∧
        x.key = .of topic type.name ∧ Qos.compatible x.qos q = true)) → owed' w r = owed w r)) :
    Good (met ++ (encounters d .reader g (.of topic type.name) q).map Encounter.meeting)
        ⟨d.addReader (.new g topic type q), owed', got⟩ ∧
      ∀ m ∈ (encounters d .reader g (.of topic type.name) q).map Encounter.meeting,
        (d.addReader (.new g topic type q)).Beside m := by
  have hadd : d.addReader (.new g topic type q) =
      ((d.insertReader (.new g topic type q)).meetAll
        (encounters d .reader g (.of topic type.name) q)).enlist (.of topic type.name)
          ⟨g, .reader, q⟩ := by
    rw [Domain.meetAll, encounters, List.foldl_map]
    rfl
  rw [hadd]
  -- the writers that are bound to the new reader are those that it may have
  have hn : d.readers.get? g = none := Table.has_eq_false.mp (hnone .reader)
  have hmet := bound_encounters_iff h.listed g (.of topic type.name) q
  refine h.enter hnone (h.wf.insertReader (hnone .writer) (hnone .reader) hg topic type q) rfl
    (view_insertReader hn topic type q) fun w r => ⟨fun hm => ?_, fun hm => ?_⟩
  · -- bound: the writer retains its backlog until it is replayed
    obtain ⟨rfl, x, hx, ho, hk, hc⟩ := (hmet w r).mp hm
    have hget : (d.insertReader (.new r topic type q)).readers.get? r =
        some (.new r topic type q) := (get?_insertReader hn r).trans (if_pos rfl)
    have hcard : (d.insertReader (.new r topic type q)).card? .reader r =
        some (.ofReader (.new r topic type q)) := by
      rw [card?, hget]
      rfl
    have hbacklog : (d.insertReader (.new r topic type q)).backlog w q = x.history.backlog q := by
      have hx' : (d.insertReader (.new r topic type q)).writers.get? w = some x := hx
      rw [Domain.backlog, hx']
      rfl
    rw [replay, hcard]
    exact ((howed w r).1 x hx rfl ho hk hc).trans (congrArg _ hbacklog.symm)
  · refine (howed w r).2 fun x hx hall => hm ((hmet w r).mpr ?_)
    obtain ⟨hr, ho, hk, hc⟩ := hall
    exact ⟨hr, x, hx, ho, hk, hc⟩

end Good

end PubSub.Loopback
