import PubSub.Proofs.Scenario.Course
import PubSub.Scenario.Publisher

/-!
The discipline of the publishing side: whatever its medium answers, it goes through its phases in
order, asks for everything once, stops at the first fault, and releases its entities exactly once.
-/

namespace PubSub.Scenario

variable {s : Scenario} {c : Config} {p : Nat} {w : Guid} {handle : Handle} {ms : List Mark}
  {out : Except Failure Unit}

/-- The end of the instance, when nothing fails. -/
def disposalCourse (s : Scenario) (c : Config) (w : Guid) (handle : Handle) : List Mark :=
  [.asked (.dispose w s.sample handle) (.ok ()), .reached (.publisher (some .disposed)),
    .asked (.await w .acknowledged c.acknowledgment) (.ok ()),
    .reached (.publisher (some .disposeAcknowledged)), .reached (.publisher (some .done))]

def sampleCourse (s : Scenario) (c : Config) (w : Guid) (handle : Handle) : List Mark :=
  [.asked (.write w s.sample) (.ok handle), .reached (.publisher (some .written)),
    .asked (.await w .acknowledged c.acknowledgment) (.ok ()),
    .reached (.publisher (some .acknowledged))] ++
  match s.variant with
  | .plain => [.reached (.publisher (some .done))]
  | .dispose => s.disposalCourse c w handle

/-- What a publisher with all its entities does when nothing fails. -/
def publisherCourse (s : Scenario) (c : Config) (w : Guid) (m : MatchedStatus) (handle : Handle) :
    List Mark :=
  [.asked (.await w .matched c.matching) (.ok ()), .asked (.takeMatched w .writer) (.ok m),
    .reached (.publisher (some .matchWaited))] ++ s.sampleCourse c w handle

/-- What a publisher does, from the creation of its entities on, when nothing fails. -/
def publisherWhole (s : Scenario) (c : Config) (p : Nat) (t : Topic) (g : Group) (w : Guid)
    (m : MatchedStatus) (handle : Handle) : List Mark :=
  s.entry c .writer "interop-publisher-" p t g w ++
    .reached (.publisher (some .created)) :: s.publisherCourse c w m handle

def publisherPhases (s : Scenario) : List PublisherPhase :=
  [.created, .matchWaited, .written, .acknowledged] ++
    (if s.variant = .dispose then [.disposed, .disposeAcknowledged] else []) ++ [.done]

lemma phases_publisherWhole (t : Topic) (g : Group) (m : MatchedStatus) :
    phases (s.publisherWhole c p t g w m handle) =
      s.publisherPhases.map fun phase => .publisher (some phase) := by
  unfold publisherWhole publisherCourse sampleCourse publisherPhases
  cases s.variant <;> rfl

/-! ### Following the course -/

lemma publisherDone_follows {phase : Phase} (h : (publisherDone p).Plays ms out) :
    Follows .none p [] phase [.reached (.publisher (some .done))] ms out := by
  obtain ⟨_, rfl, hend⟩ := Program.plays_reach.1 h
  exact .reached (.concluded hend)

lemma publishDisposal_follows (h : (s.publishDisposal c p w handle).Plays ms out) :
    Follows .none p [] (.publisher (some .acknowledged)) (s.disposalCourse c w handle) ms out := by
  rcases h.require with ⟨_, _, rfl, hd⟩ | ⟨f, _, rfl, hf⟩
  swap
  · exact .abandoned rfl hf
  obtain ⟨_, rfl, hsaid⟩ := Program.plays_say.1 hd
  obtain ⟨_, rfl, hdisposed⟩ := Program.plays_reach.1 hsaid
  refine .passed rfl (.said (.reached ?_))
  rcases hdisposed.require with ⟨_, _, rfl, ha⟩ | ⟨f, _, rfl, hf⟩
  swap
  · exact .abandoned rfl hf
  obtain ⟨_, rfl, hsaid'⟩ := Program.plays_say.1 ha
  obtain ⟨_, rfl, hend⟩ := Program.plays_reach.1 hsaid'
  exact .passed rfl (.said (.reached (publisherDone_follows hend)))

lemma publishSample_follows (h : (s.publishSample c p w).Plays ms out) :
    ∃ handle, Follows .none p [] (.publisher (some .matchWaited)) (s.sampleCourse c w handle) ms
      out := by
  rcases h.require with ⟨handle, _, rfl, hw⟩ | ⟨f, _, rfl, hf⟩
  swap
  · exact ⟨default, .abandoned rfl hf⟩
  obtain ⟨_, rfl, hsaid⟩ := Program.plays_say.1 hw
  obtain ⟨_, rfl, hwritten⟩ := Program.plays_reach.1 hsaid
  refine ⟨handle, .passed rfl (.said (.reached ?_))⟩
  rcases hwritten.require with ⟨_, _, rfl, ha⟩ | ⟨f, _, rfl, hf⟩
  swap
  · exact .abandoned rfl hf
  obtain ⟨_, rfl, hsaid'⟩ := Program.plays_say.1 ha
  obtain ⟨_, rfl, hend⟩ := Program.plays_reach.1 hsaid'
  refine .passed rfl (.said (.reached ?_))
  cases hv : s.variant with
  | plain =>
    rw [hv] at hend
    exact publisherDone_follows hend
  | dispose =>
    rw [hv] at hend
    exact publishDisposal_follows hend

/-- **The publisher follows its course** once its entities are created. -/
theorem publisher_follows (h : (s.publisher c).Plays ms out) :
    (∃ f, s.Barred c .writer "interop-publisher-" ms f ∧ out = .error ⟨.publisher none, f⟩) ∨
    ∃ p t g w m handle ms', c.validate = .ok () ∧
      ms = s.entry c .writer "interop-publisher-" p t g w ++
        .reached (.publisher (some .created)) :: ms' ∧
      Follows .none p [] (.publisher (some .created)) (s.publisherCourse c w m handle) ms' out := by
  rcases enter_plays h with hb | ⟨p, t, g, w, ms, hc, rfl, hin⟩
  · exact .inl hb
  obtain ⟨ms, rfl, hcreated⟩ := Program.plays_reach.1 hin
  suffices hgoal : ∃ m handle, Follows .none p [] (.publisher (some .created))
      (s.publisherCourse c w m handle) ms out by
    obtain ⟨m, handle, hgoal⟩ := hgoal
    exact .inr ⟨p, t, g, w, m, handle, ms, hc, rfl, hgoal⟩
  rcases hcreated.require with ⟨_, _, rfl, hm⟩ | ⟨f, _, rfl, hf⟩
  swap
  · exact ⟨default, default, .reported hf⟩
  rcases hm.require with ⟨m, _, rfl, ht⟩ | ⟨f, _, rfl, hf⟩
  swap
  · exact ⟨default, default, .passed rfl (.abandoned rfl hf)⟩
  obtain ⟨_, rfl, hsaid⟩ := Program.plays_say.1 ht
  obtain ⟨_, rfl, hmatched⟩ := Program.plays_reach.1 hsaid
  obtain ⟨handle, hsample⟩ := publishSample_follows hmatched
  exact ⟨m, handle, .passed rfl (.passed rfl (.said (.reached hsample)))⟩

/-! ### The discipline -/

/-- What holds of a publisher, whatever it is answered. -/
structure Discipline (s : Scenario) (c : Config) (ms : List Mark) (out : Except Failure Unit) :
    Prop where
  /-- The calls and the phases are the first ones of the course, none left out and none twice. -/
  inOrder : ∃ p t g w m handle, steps ms <+: steps (s.publisherWhole c p t g w m handle)
  phases_prefix : phases ms <+: s.publisherPhases.map fun phase => .publisher (some phase)
  /-- A run that ends well has taken the whole course, down to the last phase. -/
  complete : out = .ok () → c.validate = .ok () ∧
    (∃ p t g w m handle,
      unsaid ms = s.publisherWhole c p t g w m handle ++ release p (.ok ())) ∧
    phases ms = s.publisherPhases.map fun phase => .publisher (some phase)
  /-- The instance is disposed of in the one variant only, after the write has been acknowledged,
  and with the handle that the write returned. -/
  disposal : ∀ w v handle a, .asked (.dispose w v handle) a ∈ ms →
    s.variant = .dispose ∧
    List.Sublist [.asked (.write w v) (.ok handle),
      .asked (.await w .acknowledged c.acknowledgment) (.ok ()),
      .asked (.dispose w v handle) a] ms
  /-- After the first fault the entities are released, and nothing else is done. -/
  stops : ms.Pairwise fun m m' => m.fault?.isSome → m'.releases = true ∨ m'.isLine = true
  /-- Settings that are not valid are refused before anything is done. -/
  refused : ∀ f, c.validate = .error f → ms = [] ∧ out = .error ⟨.publisher none, f⟩
  /-- Else the outcome is the first fault, with the last phase before it. -/
  verdict : c.validate = .ok () → out = outcome (firstFailure .none [] (.publisher none) ms)
  exitCode : ∀ failure, out = .error failure →
    (c.validate = .error failure.fault ∨ ∃ m ∈ ms, m.fault? = some failure.fault) ∧
      failure.exitCode = failure.fault.exitCode
  /-- No phase has been reached exactly when the creation has failed. -/
  uncreated : (∃ f, out = .error ⟨.publisher none, f⟩) ↔ ∀ m ∈ ms, m.creates = false
  /-- What has been created is released exactly once. -/
  released : ∀ p kind g t type qos w,
    .asked (.createEndpoint p kind g t type qos) (.ok w) ∈ ms → ms.filterMap Mark.deleted? = [p]
  unreleased : (∀ m ∈ ms, m.creates = false) → ms.filterMap Mark.deleted? = []

lemma Barred.discipline {f : Fault} (h : s.Barred c .writer "interop-publisher-" ms f) :
    s.Discipline c ms (.error ⟨.publisher none, f⟩) where
  inOrder := by
    obtain ⟨p, t, g, w, hsteps⟩ := h.steps_prefix
    exact ⟨p, t, g, w, default, default, hsteps _⟩
  phases_prefix := h.phases_eq ▸ List.nil_prefix
  complete := nofun
  disposal _ _ _ _ hm := by cases h <;> simp at hm
  stops := h.pairwise
  refused f' hc := ⟨(h.eq_nil hc).1, by rw [(h.eq_nil hc).2]⟩
  verdict hc := by rw [h.firstFailure_eq hc]; rfl
  exitCode failure hf := by
    obtain rfl := Except.error.inj hf
    exact ⟨h.fault_eq, rfl⟩
  uncreated := ⟨fun _ => h.creates_eq, fun _ => ⟨f, rfl⟩⟩
  released _ _ _ _ _ _ _ hm := by cases h.creates_eq _ hm
  unreleased _ := h.deleted_eq

lemma disposal_of_prefix {t : Topic} {g : Group} {m : MatchedStatus} {pre : List Mark} {w' : Guid}
    {v : Value} {handle' : Handle} {a : Unit}
    (h : pre ++ [.asked (.dispose w' v handle') (.ok a)] <+: s.publisherWhole c p t g w m handle) :
    s.variant = .dispose ∧ w' = w ∧ v = s.sample ∧ handle' = handle ∧
      List.Sublist [.asked (.write w s.sample) (.ok handle),
        .asked (.await w .acknowledged c.acknowledgment) (.ok ())] pre := by
  cases hv : s.variant with
  | plain =>
    have hmem := h.subset (List.mem_append_right _ List.mem_cons_self)
    simp [publisherWhole, entry, publisherCourse, sampleCourse, hv] at hmem
  | dispose =>
    have hcourse : s.publisherWhole c p t g w m handle =
        (s.entry c .writer "interop-publisher-" p t g w ++
          [.reached (.publisher (some .created)), .asked (.await w .matched c.matching) (.ok ()),
            .asked (.takeMatched w .writer) (.ok m), .reached (.publisher (some .matchWaited)),
            .asked (.write w s.sample) (.ok handle), .reached (.publisher (some .written)),
            .asked (.await w .acknowledged c.acknowledgment) (.ok ()),
            .reached (.publisher (some .acknowledged))]) ++
        .asked (.dispose w s.sample handle) (.ok ()) :: (s.disposalCourse c w handle).tail := by
      simp [publisherWhole, publisherCourse, sampleCourse, disposalCourse, hv]
    rw [hcourse] at h
    obtain ⟨rfl, hx⟩ := eq_of_prefix_of_unique (P := fun m => m.disposes = true) h rfl
      (by simp [entry, Mark.disposes]) (by simp [disposalCourse, Mark.disposes])
    cases hx
    refine ⟨rfl, rfl, rfl, rfl, List.sublist_append_of_sublist_right ?_⟩
    exact .cons _ <| .cons _ <| .cons _ <| .cons _ <| .cons_cons _ <| .cons _ <| .cons_cons _ <|
      List.nil_sublist _

/-- The endpoint in the course is one of the participant that has joined. -/
lemma participant_of_prefix {t t' : Topic} {g g' : Group} {m : MatchedStatus} {pre : List Mark}
    {p' : Nat} {kind : EndpointKind} {type : SampleType} {qos : Qos} {w' : Guid}
    (h : pre ++ [.asked (.createEndpoint p' kind g' t' type qos) (.ok w')] <+:
      s.publisherWhole c p t g w m handle) : p' = p := by
  have hmem := h.subset (List.mem_append_right _ List.mem_cons_self)
  cases hv : s.variant <;>
    simp [publisherWhole, entry, publisherCourse, sampleCourse, disposalCourse, hv] at hmem
  all_goals exact hmem.1.1

lemma deleted_publisherWhole {t : Topic} {g : Group} {m : MatchedStatus} :
    ∀ m' ∈ s.publisherWhole c p t g w m handle, m'.deleted? = none := by
  cases hv : s.variant <;>
    simp [publisherWhole, entry, publisherCourse, sampleCourse, disposalCourse, hv, Mark.deleted?,
      Request.deleted?]

/-- The settings are accepted and the entities created: the publisher keeps to its discipline. -/
lemma discipline_of_follows {t : Topic} {g : Group} {m : MatchedStatus} (hc : c.validate = .ok ())
    (h : Follows .none p [] (.publisher (some .created)) (s.publisherCourse c w m handle) ms out) :
    s.Discipline c (s.entry c .writer "interop-publisher-" p t g w ++
      .reached (.publisher (some .created)) :: ms) out := by
  have hwhole : Follows .none p [] (.publisher none) (s.publisherWhole c p t g w m handle)
      (s.entry c .writer "interop-publisher-" p t g w ++
        .reached (.publisher (some .created)) :: ms) out := follows_entry t g w (.reached h)
  have hcreates : Mark.asked (.createEndpoint p .writer g t s.sample.type s.qos) (.ok w) ∈
      s.entry c .writer "interop-publisher-" p t g w ++
        .reached (.publisher (some .created)) :: ms := by simp [entry]
  have hdeleted : (s.entry c .writer "interop-publisher-" p t g w ++
      .reached (.publisher (some .created)) :: ms).filterMap Mark.deleted? = [p] :=
    hwhole.deleted_eq deleted_publisherWhole
  exact {
    inOrder := ⟨p, t, g, w, m, handle, hwhole.steps_prefix⟩
    phases_prefix := phases_publisherWhole t g m ▸ hwhole.phases_prefix
    -- a course that is followed to the end has been done as a whole
    complete := fun hok => by
      have hunsaid := hwhole.unsaid_eq_course hok
      refine ⟨hc, ⟨p, t, g, w, m, handle, hunsaid⟩, ?_⟩
      rw [← phases_unsaid, hunsaid, phases, List.filterMap_append, ← phases,
        phases_publisherWhole]
      exact List.append_nil _
    disposal := fun w' v handle' a hm => by
      obtain ⟨pre, a', hpre, hsub⟩ := hwhole.before rfl hm
      obtain ⟨hv, rfl, rfl, rfl, hacked⟩ := disposal_of_prefix hpre
      exact ⟨hv, (hacked.append (List.Sublist.refl _)).trans hsub⟩
    stops := hwhole.pairwise
    refused := fun f hf => by cases hf.symm.trans hc
    verdict := fun _ => hwhole.outcome_eq
    exitCode := fun failure hf => by
      refine ⟨.inr ?_, rfl⟩
      have hout := hf.symm.trans hwhole.outcome_eq
      cases hfirst : firstFailure .none [] (.publisher none)
          (s.entry c .writer "interop-publisher-" p t g w ++
            .reached (.publisher (some .created)) :: ms) with
      | none => rw [hfirst] at hout; cases hout
      | some failure' =>
        rw [hfirst] at hout
        cases hout
        exact fault_of_firstFailure hfirst
    -- the endpoint was created, so no failure is one of its creation
    uncreated := by
      refine ⟨fun herror => ?_, fun hn => by cases hn _ hcreates⟩
      obtain ⟨f, hf⟩ := herror
      rcases h.phase_of_error hf with hphase | hphase
      · cases hphase
      · cases hv : s.variant <;>
          simp [publisherCourse, sampleCourse, disposalCourse, hv] at hphase
    released := fun p' kind g' t' type qos w' hm => by
      obtain ⟨pre, a, hpre, -⟩ := hwhole.before rfl hm
      rw [hdeleted, participant_of_prefix hpre]
    unreleased := fun hn => by cases hn _ hcreates }

/-- **A publisher keeps to its discipline on every medium**, under all settings, and for every
scenario: it goes through its phases in order, asks for everything once, ends the instance only
after the acknowledgment and with the handle of its write, stops at the first fault and tells it
with the last phase it has reached, has taken its whole course if it ends well, and releases exactly
once what it has created. -/
theorem publisher_disciplined {σ : Type} (M : Server σ) (x : σ) (s : Scenario) (c : Config) :
    s.Discipline c (M.play x (s.publisher c)).1 (M.play x (s.publisher c)).2 := by
  rcases publisher_follows (Program.plays_play M x (s.publisher c)) with
    ⟨f, hb, hout⟩ | ⟨p, t, g, w, m, handle, ms, hc, hms, h⟩
  · rw [hout]
    exact hb.discipline
  · rw [hms]
    exact discipline_of_follows hc h

end PubSub.Scenario
