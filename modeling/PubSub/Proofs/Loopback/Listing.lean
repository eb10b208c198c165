import PubSub.Proofs.Loopback.Effect

/-!
The entries of a domain are its open endpoints, so whoever a new endpoint is to meet is found
among them, and so is whoever has to forget one that is closed.
-/

namespace PubSub.Loopback

namespace Domain

variable {d d' : Domain} {w r : Guid} {owed : Guid → Guid → List Change}
  {got : Guid → Guid → List (Change × Reception)}

def openAs? (d : Domain) (k : EndpointKind) (g : Guid) : Option (MatchKey × Qos) :=
  ((d.card? k g).filter (·.isOpen)).map fun a => (a.key, a.qos)

lemma openAs?_eq_some {k : EndpointKind} {g : Guid} {key : MatchKey} {q : Qos} :
    d.openAs? k g = some (key, q) ↔
      ∃ a, d.card? k g = some a ∧ a.isOpen = true ∧ a.key = key ∧ a.qos = q := by
  simp only [openAs?, Option.map_eq_some_iff, Option.filter_eq_some_iff, Prod.mk.injEq]
  constructor
  · rintro ⟨a, ⟨ha, ho⟩, hk, hq⟩
    exact ⟨a, ha, ho, hk, hq⟩
  · rintro ⟨a, ha, ho, hk, hq⟩
    exact ⟨a, ⟨ha, ho⟩, hk, hq⟩

lemma isOpen_iff_openAs? {k : EndpointKind} {g : Guid} :
    (Trace.view ⟨d, owed, got⟩).isOpen k g = true ↔
      ∃ key q, d.openAs? k g = some (key, q) := by
  rw [View.isOpen_iff]
  constructor
  · rintro ⟨a, ha, ho⟩
    exact ⟨a.key, a.qos, openAs?_eq_some.mpr ⟨a, ha, ho, rfl, rfl⟩⟩
  · rintro ⟨key, q, hq⟩
    obtain ⟨a, ha, ho, -, -⟩ := openAs?_eq_some.mp hq
    exact ⟨a, ha, ho⟩

lemma Wf.kind_eq (h : d.Wf) {k k' : EndpointKind} {g : Guid} {a b : MatchKey × Qos}
    (hk : d.openAs? k g = some a) (hk' : d.openAs? k' g = some b) : k = k' := by
  obtain ⟨a', ha', -⟩ := openAs?_eq_some.mp hk
  obtain ⟨b', hb', -⟩ := openAs?_eq_some.mp hk'
  have hhas := (has_iff_card? k g).mpr ⟨a', ha'⟩
  have hhas' := (has_iff_card? k' g).mpr ⟨b', hb'⟩
  cases k <;> cases k'
  · rfl
  · exact absurd (hhas'.symm.trans (h.once g hhas)) (by simp)
  · exact absurd (hhas.symm.trans (h.once g hhas')) (by simp)
  · rfl

/-- An endpoint is listed under its key exactly as long as it is open, and never twice. -/
structure Listed (d : Domain) : Prop where
  entries : d.entries.Distinct
  mem : ∀ key e, e ∈ d.listed key ↔ d.openAs? e.kind e.guid = some (key, e.qos)
  nodup : ∀ key, ((d.listed key).map (·.guid)).Nodup

lemma listed_new (registry id : Nat) (latency : Span) (clock : Nat) :
    (new registry id latency clock).Listed where
  entries := Table.distinct_nil
  mem key e := by
    have hnone : (new registry id latency clock).openAs? e.kind e.guid = none := by
      cases e.kind <;> rfl
    rw [hnone]
    simp [listed, new]
  nodup key := by simp [listed, new]

lemma Listed.of_same (h : d.Listed) (he : d'.entries = d.entries)
    (ho : d'.openAs? = d.openAs?) : d'.Listed := by
  have hlisted : d'.listed = d.listed := by
    funext key
    rw [listed, listed, he]
  exact ⟨he ▸ h.entries, fun key e => by rw [hlisted, ho]; exact h.mem key e,
    fun key => by rw [hlisted]; exact h.nodup key⟩

lemma openAs?_of_card? (h : d'.card? = d.card?) : d'.openAs? = d.openAs? := by
  funext k g
  rw [openAs?, openAs?, h]

lemma mem_listedOf (h : d.Listed) {k : EndpointKind} {key : MatchKey} {e : Entry} :
    e ∈ d.listedOf k key ↔ e.kind = k ∧ d.openAs? k e.guid = some (key, e.qos) := by
  rw [listedOf, List.mem_filter, h.mem, decide_eq_true_iff]
  constructor
  · rintro ⟨he, rfl⟩
    exact ⟨rfl, he⟩
  · rintro ⟨rfl, he⟩
    exact ⟨he, rfl⟩

lemma listed_setListed (d : Domain) (key key' : MatchKey) (es : List Entry) :
    (d.setListed key es).listed key' = if key' = key then es else d.listed key' := by
  unfold setListed listed
  cases es with
  | nil =>
    simp only [List.isEmpty_nil, if_true, Table.get?_erase]
    split_ifs <;> rfl
  | cons e es =>
    simp only [List.isEmpty_cons, Bool.false_eq_true, if_false, Table.get?_put]
    split_ifs <;> rfl

lemma distinct_setListed (h : d.entries.Distinct) (key : MatchKey) (es : List Entry) :
    (d.setListed key es).entries.Distinct := by
  unfold setListed
  split_ifs
  · exact h.erase key
  · exact h.put _ key es

/-! ### An endpoint is listed -/

/-- A new endpoint is listed behind the others of its key. -/
lemma Listed.enlist (h : d.Listed) {k : EndpointKind} {g : Guid} {key : MatchKey} {q : Qos}
    (he : d'.entries = d.entries) (hnone : ∀ k, d.openAs? k g = none)
    (hnew : ∀ k' g', d'.openAs? k' g' = if k' = k ∧ g' = g then some (key, q)
      else d.openAs? k' g') : (d'.enlist key ⟨g, k, q⟩).Listed := by
  have hlisted : d'.listed = d.listed := by
    funext key
    rw [listed, listed, he]
  have hnot : ∀ key, ∀ e ∈ d.listed key, e.guid ≠ g := by
    rintro key e hmem rfl
    have := (h.mem key e).mp hmem
    rw [hnone] at this
    simp at this
  have hcard : (d'.enlist key ⟨g, k, q⟩).openAs? = d'.openAs? := by
    refine openAs?_of_card? (funext₂ fun k' g' => ?_)
    cases k' <;> rfl
  have hget : ∀ key', (d'.enlist key ⟨g, k, q⟩).listed key' =
      if key' = key then d.listed key ++ [⟨g, k, q⟩] else d.listed key' := by
    intro key'
    rw [Domain.enlist, listed_setListed, hlisted]
  refine ⟨distinct_setListed (he ▸ h.entries) key _, fun key' e => ?_, fun key' => ?_⟩
  · rw [hget, hcard, hnew]
    by_cases hg : e.kind = k ∧ e.guid = g
    · -- the new endpoint is listed under its key and nowhere else
      obtain ⟨rfl, rfl⟩ := hg
      have hold := fun key => hnot key e
      rw [if_pos (And.intro rfl rfl), Option.some.injEq, Prod.mk.injEq]
      split_ifs with hk
      · constructor
        · intro hmem
          rcases List.mem_append.mp hmem with hmem | hmem
          · exact absurd rfl (hold key hmem)
          · exact ⟨hk.symm, by rw [List.mem_singleton.mp hmem]⟩
        · rintro ⟨-, rfl⟩
          exact List.mem_append_right _ (List.mem_singleton.mpr rfl)
      · constructor
        · exact fun hmem => absurd rfl (hold key' hmem)
        · exact fun hkey => absurd hkey.1.symm hk
    · have hne : e ≠ ⟨g, k, q⟩ := by
        rintro rfl
        exact hg ⟨rfl, rfl⟩
      rw [if_neg hg, ← h.mem]
      split_ifs with hk
      · simp [hne, hk]
      · exact Iff.rfl
  · rw [hget]
    split_ifs with hk
    · rw [List.map_append, List.nodup_append]
      refine ⟨h.nodup key, List.nodup_singleton _, fun a ha b hb => ?_⟩
      obtain ⟨e, hmem, rfl⟩ := List.mem_map.mp ha
      obtain rfl := List.mem_singleton.mp hb
      exact hnot key e hmem
    · exact h.nodup key'

/-! ### An endpoint is taken off -/

/-- An endpoint that is not open any more is taken off the entries of its key. -/
lemma Listed.unlist (h : d.Listed) (hwf : d.Wf) {k : EndpointKind} {g : Guid} {key : MatchKey}
    {q : Qos} (he : d'.entries = d.entries) (hopen : d.openAs? k g = some (key, q))
    (hgone : ∀ k' g', d'.openAs? k' g' = if k' = k ∧ g' = g then none else d.openAs? k' g') :
    (d'.setListed key ((d.listed key).filter (·.guid ≠ g))).Listed := by
  have hlisted : ∀ key', (d'.setListed key ((d.listed key).filter (·.guid ≠ g))).listed key' =
      if key' = key then (d.listed key).filter (·.guid ≠ g) else d.listed key' := by
    intro key'
    have hsame : d'.listed key' = d.listed key' := by rw [listed, listed, he]
    rw [listed_setListed, hsame]
  refine ⟨distinct_setListed (he ▸ h.entries) key _, fun key' e => ?_, fun key' => ?_⟩
  · have hopenAs : (d'.setListed key ((d.listed key).filter (·.guid ≠ g))).openAs? = d'.openAs? :=
      openAs?_of_card? (funext₂ fun k' g' => by cases k' <;> rfl)
    rw [hlisted, hopenAs, hgone]
    by_cases hg : e.kind = k ∧ e.guid = g
    · -- the endpoint itself is listed nowhere
      obtain ⟨rfl, rfl⟩ := hg
      rw [if_pos (And.intro rfl rfl)]
      split_ifs with hk
      · simp
      · rw [h.mem, hopen]
        simp [Ne.symm hk]
    · -- any other one is listed as before
      rw [if_neg hg]
      split_ifs with hk
      · subst hk
        rw [List.mem_filter, h.mem, decide_eq_true_iff]
        refine ⟨And.left, fun he' => ⟨he', ?_⟩⟩
        rintro rfl
        exact hg ⟨hwf.kind_eq he' hopen, rfl⟩
      · exact h.mem key' e
  · rw [hlisted]
    split_ifs
    · exact (h.nodup key).sublist (List.filter_sublist.map _)
    · exact h.nodup key'

lemma eraseP_of_nodup {g : Guid} {es : List Entry} (h : (es.map (·.guid)).Nodup) :
    es.eraseP (·.guid = g) = es.filter (·.guid ≠ g) := by
  induction es with
  | nil => rfl
  | cons e es ih =>
    obtain ⟨hnot, hnodup⟩ := List.nodup_cons.mp h
    by_cases he : e.guid = g
    · have hrest : es.filter (·.guid ≠ g) = es := by
        refine List.filter_eq_self.mpr fun e' he' => ?_
        have hne : e'.guid ≠ g := fun hg => hnot (List.mem_map.mpr ⟨e', he', hg.trans he.symm⟩)
        simpa using hne
      rw [List.eraseP_cons_of_pos (by simpa using he), List.filter_cons_of_neg (by simpa using he),
        hrest]
    · rw [List.eraseP_cons_of_neg (by simpa using he), List.filter_cons_of_pos (by simpa using he),
        ih hnodup]

/-- What is left of a domain when those that were listed with an endpoint lose it. -/
structure Parted (e : Entry) (rest : List Entry) (d d' : Domain) : Prop where
  card : d'.card? = d.card?
  next : d'.nextOf = d.nextOf
  jobs : d'.jobsOf = d.jobsOf
  entries : d'.entries = d.entries
  proxy : ∀ w r, d'.proxy? w r =
    if (e.kind = .reader ∧ r = e.guid) ∧ ∃ p ∈ rest, p.kind = .writer ∧ p.guid = w then none
    else d.proxy? w r
  peer : ∀ w r, d'.peer? w r =
    if (e.kind = .writer ∧ w = e.guid) ∧ ∃ p ∈ rest, p.kind = .reader ∧ p.guid = r then none
    else d.peer? w r
  wf : d.Wf → d'.Wf

lemma parted_part (e p : Entry) (d : Domain) : Parted e [p] d (d.part e p) := by
  -- only two endpoints of different kinds have each other, and something to forget
  cases he : e.kind <;> cases hp : p.kind
  · have hpart : d.part e p = d := by simp [part, he, hp]
    rw [hpart]
    exact ⟨rfl, rfl, rfl, rfl, by simp [he], by simp [hp], fun h => h⟩
  · have hpart : d.part e p = d.adjustReader p.guid (readerUnbound · e.guid) := by
      simp [part, he, hp]
    rw [hpart]
    refine ⟨card?_adjustReader_same fun y _ => ofReader_readerUnbound y e.guid, rfl, rfl, rfl,
      fun w r => by simp [he, proxy?, adjustReader], fun w r => ?_, fun h =>
        h.adjustReader fun _ _ ht => ht.unbound e.guid⟩
    simp only [peer?, get?_adjustReader]
    by_cases hr : r = p.guid
    · subst hr
      cases d.readers.get? p.guid with
      | none => simp
      | some y => simp [get?_readerUnbound, he, hp]
    · simp [hr, Ne.symm hr]
  · have hpart : d.part e p = d.adjustWriter p.guid (writerUnbound · e.guid) := by
      simp [part, he, hp]
    rw [hpart]
    refine ⟨card?_adjustWriter_same fun x _ => ofWriter_writerUnbound x e.guid, ?_, rfl, rfl,
      fun w r => ?_, fun w r => by simp [he, peer?, adjustWriter], fun h =>
        h.adjustWriter fun _ _ ht => ht.unbound e.guid⟩
    · exact nextOf_adjustWriter_same fun x => writerUnbound_next x e.guid
    · simp only [proxy?, get?_adjustWriter]
      by_cases hw : w = p.guid
      · subst hw
        cases d.writers.get? p.guid with
        | none => simp
        | some x => simp [get?_writerUnbound, he, hp]
      · simp [hw, Ne.symm hw]
  · have hpart : d.part e p = d := by simp [part, he, hp]
    rw [hpart]
    exact ⟨rfl, rfl, rfl, rfl, by simp [hp], by simp [he], fun h => h⟩

lemma parted_foldl (e : Entry) (rest : List Entry) (d : Domain) :
    Parted e rest d (rest.foldl (fun d p => d.part e p) d) := by
  induction rest generalizing d with
  | nil => exact ⟨rfl, rfl, rfl, rfl, by simp, by simp, fun h => h⟩
  | cons p rest ih =>
    have h := parted_part e p d
    have h' := ih (d.part e p)
    refine ⟨h'.card.trans h.card, h'.next.trans h.next, h'.jobs.trans h.jobs,
      h'.entries.trans h.entries, fun w r => ?_, fun w r => ?_, fun hwf => h'.wf (h.wf hwf)⟩
    · rw [List.foldl_cons, h'.proxy, h.proxy]
      split_ifs <;> grind
    · rw [List.foldl_cons, h'.peer, h.peer]
      split_ifs <;> grind

end Domain

/-! ### The invariant of a domain -/

def Domain.Beside (d : Domain) (m : Meeting) : Prop :=
  ∃ key q q', d.openAs? .writer m.writer = some (key, q) ∧
    d.openAs? .reader m.reader = some (key, q') ∧ m.bound = Qos.compatible q q'

/-- The domain is in order, its entries are its open endpoints, what its endpoints know of each
other is sound, and any two open ones of one key have met. -/
structure Good (met : List Meeting) (t : Trace) : Prop where
  wf : t.domain.Wf
  listed : t.domain.Listed
  sound : Sound met t.view
  settled : ∀ m, t.domain.Beside m → m ∈ met

namespace Good

open Domain

variable {met : List Meeting} {d d₁ d₂ : Domain} {w r : Guid}
  {owed owed' : Guid → Guid → List Change} {got got' : Guid → Guid → List (Change × Reception)}

/-- As long as no endpoint comes or goes, what endpoints know of each other is all to look at. -/
lemma of_card (h : Good met ⟨d, owed, got⟩) (hwf : d₁.Wf) (he : d₁.entries = d.entries)
    (hcard : d₁.card? = d.card?) (hs : Sound met (Trace.view ⟨d₁, owed₁, got'⟩)) :
    Good met ⟨d₁, owed₁, got'⟩ := by
  have hopen : d₁.openAs? = d.openAs? := openAs?_of_card? hcard
  refine ⟨hwf, h.listed.of_same he hopen, hs, fun m hm => h.settled m ?_⟩
  unfold Domain.Beside at hm
  rw [hopen] at hm
  exact hm

lemma of_view (h : Good met ⟨d, owed, got⟩) (hwf : d₁.Wf) (he : d₁.entries = d.entries)
    (hview : Trace.view ⟨d₁, owed, got⟩ = Trace.view ⟨d, owed, got⟩) :
    Good met ⟨d₁, owed, got⟩ :=
  h.of_card hwf he (congrArg View.card hview) (hview.symm ▸ h.sound)

lemma apart_of_key (h : Good met ⟨d, owed, got⟩) {key key' : MatchKey} {q q' : Qos}
    (hw : d.openAs? .writer w = some (key, q)) (hr : d.openAs? .reader r = some (key', q'))
    (hkey : key ≠ key') : (Trace.view ⟨d, owed, got⟩).pair w r = .apart := by
  obtain ⟨a, ha, -, rfl, -⟩ := openAs?_eq_some.mp hw
  obtain ⟨b, hb, -, rfl, -⟩ := openAs?_eq_some.mp hr
  refine h.sound.apart w r fun hm => ?_
  obtain ⟨a', b', ha', hb', hk, -⟩ := h.sound.known _ hm
  obtain rfl : a' = a := Option.some.inj (ha'.symm.trans ha)
  obtain rfl : b' = b := Option.some.inj (hb'.symm.trans hb)
  exact hkey hk

/-- An endpoint that is open is listed once, as what it is. -/
lemma unlist_eq (h : Good met ⟨d, owed, got⟩) {k : EndpointKind} {g : Guid} {key : MatchKey}
    {q : Qos} (hopen : d.openAs? k g = some (key, q)) (he : d₁.entries = d.entries) :
    let rest := (d.listed key).filter (·.guid ≠ g)
    d₁.unlist key g =
      (rest.foldl (fun d p => d.part ⟨g, k, q⟩ p) d₁).setListed key rest := by
  intro rest
  have hlisted : d₁.listed key = d.listed key := by rw [Domain.listed, Domain.listed, he]
  have hmem : (⟨g, k, q⟩ : Entry) ∈ d.listed key := (h.listed.mem key ⟨g, k, q⟩).mpr hopen
  have hfind : (d.listed key).find? (·.guid = g) = some ⟨g, k, q⟩ := by
    obtain ⟨e, hfound⟩ : ∃ e, (d.listed key).find? (·.guid = g) = some e := by
      refine Option.isSome_iff_exists.mp (List.find?_isSome.mpr ⟨_, hmem, ?_⟩)
      simp
    have hguid : e.guid = g := by simpa using List.find?_some hfound
    have hsame : e = ⟨g, k, q⟩ := List.inj_on_of_nodup_map (h.listed.nodup key)
      (List.mem_of_find?_eq_some hfound) hmem hguid
    rw [hfound, hsame]
  simp only [unlist, hlisted, hfind, eraseP_of_nodup (h.listed.nodup key)]
  rfl

/-- Those that are told of an endpoint of another kind are the open ones of its key. -/
lemma mem_others (h : Good met ⟨d, owed, got⟩) {k k' : EndpointKind} {g g' : Guid}
    {key : MatchKey} {q : Qos} (hopen : d.openAs? k g = some (key, q)) (hne : k' ≠ k) :
    (∃ p ∈ (d.listed key).filter (·.guid ≠ g), p.kind = k' ∧ p.guid = g') ↔
      ∃ q', d.openAs? k' g' = some (key, q') := by
  simp only [List.mem_filter, h.listed.mem, decide_eq_true_iff]
  constructor
  · rintro ⟨p, ⟨hp, -⟩, rfl, rfl⟩
    exact ⟨_, hp⟩
  · rintro ⟨q', hq'⟩
    refine ⟨⟨g', k', q'⟩, ⟨hq', ?_⟩, rfl, rfl⟩
    rintro rfl
    exact hne (h.wf.kind_eq hq' hopen)

lemma peer?_parted (h : Good met ⟨d, owed, got⟩) {g : Guid} {key : MatchKey} {q : Qos}
    (hopen : d.openAs? .writer g = some (key, q))
    (hpart : Parted ⟨g, .writer, q⟩ ((d.listed key).filter (·.guid ≠ g)) d₁ d₂)
    (hold : d₁.peer? = d.peer?) (w r : Guid) :
    d₂.peer? w r = if w = g ∧ (Trace.view ⟨d, owed, got⟩).isOpen .reader r = true then none
      else d.peer? w r := by
  rw [hpart.peer, hold]
  by_cases hw : w = g
  · subst hw
    by_cases hr : (Trace.view ⟨d, owed, got⟩).isOpen .reader r = true
    · rw [if_pos (And.intro rfl hr)]
      obtain ⟨key', q', hq'⟩ := isOpen_iff_openAs?.mp hr
      by_cases hk : key = key'
      · subst hk
        exact if_pos ⟨⟨rfl, rfl⟩, (h.mem_others hopen (by simp)).mpr ⟨q', hq'⟩⟩
      · have hnone : d.peer? w r = none := congrArg Pair.peer (h.apart_of_key hopen hq' hk)
        rw [hnone, ite_self]
    · refine (if_neg ?_).trans (if_neg fun hc => hr hc.2).symm
      rintro ⟨-, hp⟩
      obtain ⟨q', hq'⟩ := (h.mem_others hopen (by simp)).mp hp
      exact hr (isOpen_iff_openAs?.mpr ⟨key, q', hq'⟩)
  · exact (if_neg fun hc => hw hc.1.2).trans (if_neg fun hc => hw hc.1).symm

lemma proxy?_parted (h : Good met ⟨d, owed, got⟩) {g : Guid} {key : MatchKey} {q : Qos}
    (hopen : d.openAs? .reader g = some (key, q))
    (hpart : Parted ⟨g, .reader, q⟩ ((d.listed key).filter (·.guid ≠ g)) d₁ d₂)
    (hold : d₁.proxy? = d.proxy?) (w r : Guid) :
    d₂.proxy? w r = if r = g ∧ (Trace.view ⟨d, owed, got⟩).isOpen .writer w = true then none
      else d.proxy? w r := by
  rw [hpart.proxy, hold]
  by_cases hr : r = g
  · subst hr
    by_cases hw : (Trace.view ⟨d, owed, got⟩).isOpen .writer w = true
    · rw [if_pos (And.intro rfl hw)]
      obtain ⟨key', q', hq'⟩ := isOpen_iff_openAs?.mp hw
      by_cases hk : key' = key
      · subst hk
        exact if_pos ⟨⟨rfl, rfl⟩, (h.mem_others hopen (by simp)).mpr ⟨q', hq'⟩⟩
      · have hnone : d.proxy? w r = none := congrArg Pair.proxy (h.apart_of_key hq' hopen hk)
        rw [hnone, ite_self]
    · refine (if_neg ?_).trans (if_neg fun hc => hw hc.2).symm
      rintro ⟨-, hp⟩
      obtain ⟨q', hq'⟩ := (h.mem_others hopen (by simp)).mp hp
      exact hw (isOpen_iff_openAs?.mpr ⟨key, q', hq'⟩)
  · exact (if_neg fun hc => hr hc.1.2).trans (if_neg fun hc => hr hc.1).symm

/-- Once everybody listed with an endpoint has been told, all that are open have forgotten it. -/
lemma view_parted (h : Good met ⟨d, owed, got⟩) {k : EndpointKind} {g : Guid} {key : MatchKey}
    {q : Qos} (hopen : d.openAs? k g = some (key, q))
    (hpart : Parted ⟨g, k, q⟩ ((d.listed key).filter (·.guid ≠ g)) d₁ d₂)
    (hview : Trace.view ⟨d₁, owed, got⟩ =
      { Trace.view ⟨d, owed, got⟩ with
        card := ((Trace.view ⟨d, owed, got⟩).close k g).card }) :
    Trace.view ⟨d₂, owed, got⟩ = (Trace.view ⟨d, owed, got⟩).close k g := by
  have hnext : d₁.nextOf = d.nextOf := congrArg View.next hview
  have hpair : ∀ w r, (Trace.view ⟨d₁, owed, got⟩).pair w r =
      (Trace.view ⟨d, owed, got⟩).pair w r := fun w r =>
    congrFun (congrFun (congrArg View.pair hview) w) r
  have hproxy : d₁.proxy? = d.proxy? := funext₂ fun w r => congrArg Pair.proxy (hpair w r)
  have hpeer : d₁.peer? = d.peer? := funext₂ fun w r => congrArg Pair.peer (hpair w r)
  refine View.ext (hpart.card.trans (congrArg View.card hview)) (hpart.next.trans hnext)
    (funext₂ fun w r => ?_)
  have hjobs : d₂.jobsOf w r = d.jobsOf w r :=
    (congrFun (congrFun hpart.jobs w) r).trans (congrArg Pair.jobs (hpair w r))
  cases k with
  | writer =>
    have hgone := h.peer?_parted hopen hpart hpeer w r
    have hkept := hpart.proxy w r
    rw [if_neg (by simp), hproxy] at hkept
    refine Pair.ext (hkept.trans ?_) (hgone.trans ?_) (hjobs.trans ?_) ?_ ?_ <;>
      simp only [View.close] <;> split_ifs <;> rfl
  | reader =>
    have hgone := h.proxy?_parted hopen hpart hproxy w r
    have hkept := hpart.peer w r
    rw [if_neg (by simp), hpeer] at hkept
    refine Pair.ext (hgone.trans ?_) (hkept.trans ?_) (hjobs.trans ?_) ?_ ?_ <;>
      simp only [View.close] <;> split_ifs <;> rfl

/-- An endpoint that has been closed is taken off the entries, and forgotten. -/
lemma unlist (h : Good met ⟨d, owed, got⟩) {k : EndpointKind} {g : Guid} {key : MatchKey}
    {q : Qos} (hopen : d.openAs? k g = some (key, q)) (hwf : d₁.Wf)
    (he : d₁.entries = d.entries)
    (hview : Trace.view ⟨d₁, owed, got⟩ =
      { Trace.view ⟨d, owed, got⟩ with
        card := ((Trace.view ⟨d, owed, got⟩).close k g).card }) :
    Good met ⟨d₁.unlist key g, owed, got⟩ := by
  -- the pass over the entries lets each of them forget the endpoint
  rw [h.unlist_eq hopen he]
  have hpart := parted_foldl ⟨g, k, q⟩ ((d.listed key).filter (·.guid ≠ g)) d₁
  generalize ((d.listed key).filter (·.guid ≠ g)).foldl (fun d p => d.part ⟨g, k, q⟩ p) d₁ = d₂
    at hpart ⊢
  have hclosed := h.view_parted hopen hpart hview
  have hopenAs : ∀ k' g', d₂.openAs? k' g' =
      if k' = k ∧ g' = g then none else d.openAs? k' g' := by
    intro k' g'
    have hcard : d₂.card? = _ := congrArg View.card hclosed
    simp only [openAs?, hcard, View.close]
    split_ifs with hg
    · cases (Trace.view ⟨d, owed, got⟩).card k g <;> rfl
    · rfl
  have hwf₂ := hpart.wf hwf
  have hlisted := h.listed.unlist h.wf (hpart.entries.trans he) hopen hopenAs
  refine ⟨?_, hlisted, ?_, ?_⟩
  · exact ⟨hwf₂.identity, hwf₂.issued, hwf₂.once, hwf₂.writers, hwf₂.readers, hwf₂.writer,
      hwf₂.reader⟩
  · have hsound : Sound met (Trace.view ⟨d₂, owed, got⟩) := hclosed ▸ h.sound.close k g
    exact hsound
  · -- whoever is open now was open before, so the two have met
    rintro m ⟨key', q₁, q₂, hw, hr, hc⟩
    have hw : d₂.openAs? .writer m.writer = some (key', q₁) := hw
    have hr : d₂.openAs? .reader m.reader = some (key', q₂) := hr
    rw [hopenAs] at hw hr
    split_ifs at hw hr
    exact h.settled m ⟨key', q₁, q₂, hw, hr, hc⟩

lemma closeWriter (h : Good met ⟨d, owed, got⟩) (w : Guid) :
    Good met ⟨d.closeWriter w, owed, got⟩ := by
  unfold Domain.closeWriter
  cases hx : d.writers.get? w with
  | none => exact h
  | some x =>
    simp only
    split_ifs with ho
    · have hopen : d.openAs? .writer w = some (x.key, x.qos) :=
        openAs?_eq_some.mpr ⟨.ofWriter x, by simp [card?, hx], ho, rfl, rfl⟩
      have hhistory : ∀ x : Writer, ({ x with isOpen := false } : Writer).history = x.history :=
        fun _ => rfl
      refine h.unlist hopen (h.wf.adjustWriter fun _ _ ht => ht.of_same rfl rfl) rfl ?_
      refine View.ext (funext₂ fun k g => ?_) (nextOf_adjustWriter_same fun _ => rfl)
        (funext₂ fun w' r => ?_)
      · refine (card?_adjustWriter (F := ({ · with isOpen := false })) (fun _ _ => rfl) k g).trans ?_
        simp only [View.close]
        split_ifs with hg
        · obtain ⟨rfl, rfl⟩ := hg
          rfl
        · rfl
      · have hproxy := proxy?_adjustWriter_same (d := d) (w := w) hhistory
        exact Pair.ext (congrFun (congrFun hproxy w') r) rfl rfl rfl rfl
    · exact h

lemma closeReader (h : Good met ⟨d, owed, got⟩) (r : Guid) :
    Good met ⟨d.closeReader r, owed, got⟩ := by
  unfold Domain.closeReader
  cases hy : d.readers.get? r with
  | none => exact h
  | some y =>
    simp only
    split_ifs with ho
    · have hopen : d.openAs? .reader r = some (y.key, y.qos) :=
        openAs?_eq_some.mpr ⟨.ofReader y, by simp [card?, hy], ho, rfl, rfl⟩
      have hwriters : ∀ y : Reader,
          ({ y with isOpen := false } : Reader).cache.writers = y.cache.writers := fun _ => rfl
      refine h.unlist hopen (h.wf.adjustReader fun _ _ ht => ht.of_same rfl rfl rfl) rfl ?_
      refine View.ext (funext₂ fun k g => ?_) rfl (funext₂ fun w r' => ?_)
      · refine (card?_adjustReader (F := ({ · with isOpen := false })) (fun _ _ => rfl) k g).trans ?_
        simp only [View.close]
        split_ifs with hg
        · obtain ⟨rfl, rfl⟩ := hg
          rfl
        · rfl
      · have hpeer := peer?_adjustReader_same (d := d) (r := r) hwriters
        exact Pair.ext rfl (congrFun (congrFun hpeer w) r') rfl rfl rfl
    · exact h

lemma close (h : Good met ⟨d, owed, got⟩) (g : Guid) : Good met ⟨d.close g, owed, got⟩ :=
  (h.closeWriter g).closeReader g

lemma foldl_close (h : Good met ⟨d, owed, got⟩) {f : Domain → Guid → Domain}
    (hf : ∀ d g, Good met ⟨d, owed, got⟩ → Good met ⟨f d g, owed, got⟩) (gs : List Guid) :
    Good met ⟨gs.foldl f d, owed, got⟩ := by
  induction gs generalizing d with
  | nil => exact h
  | cons g gs ih => exact ih (hf d g h)

end Good

end PubSub.Loopback
