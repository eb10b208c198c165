import PubSub.Proofs.Lifecycle
import PubSub.Proofs.Scenario.Course
import PubSub.Scenario.Subscriber

/-!
The verdict of the subscribing side. What it has against the samples that it takes is put in one
place; with that, it succeeds exactly when everything it asked for succeeded and nothing speaks
against what it took, and it fails with the first thing that went wrong otherwise.
-/

namespace PubSub.Scenario

/-- What a subscriber has against the samples that it has taken: those of its first take must
begin with the sample of the scenario, those of its second with the end of the same instance. -/
def objection (s : Scenario) : Objection
  | _, [] => some (.noData s.topic)
  | [], x :: _ =>
    if x.hasPayload = false then some (.invalidData x.key x.state)
    else if x.state ≠ .alive then some (.lifecycle x.key .alive x.state)
    else if x.data ≠ some s.sample then some (s.wrongSample x.data)
    else none
  | first :: _, y :: _ =>
    if y.key ≠ first.key then some (wrongInstance first.key y.key)
    else if y.state ≠ .disposed then some (.lifecycle first.key .disposed y.state)
    else none

variable {s : Scenario} {c : Config} {p : Nat} {r : Guid} {ms : List Mark}
  {out : Except Failure Unit}

lemma objection_first {x : Sample Value} {taken : List (Sample Value)} :
    s.objection [] (x :: taken) = none ↔
      x.valid = true ∧ x.data = some s.sample ∧ x.state = .alive := by
  rw [objection, Sample.hasPayload]
  split_ifs with hp hs hd <;> simp_all

lemma objection_second {first y : Sample Value} {taken : List (Sample Value)} :
    s.objection [first] (y :: taken) = none ↔ y.key = first.key ∧ y.state = .disposed := by
  rw [objection]
  split_ifs with hk hs <;> simp_all

/-! ### The course -/

def endCourse (c : Config) (r : Guid) (second : List (Sample Value)) : List Mark :=
  [.asked (.await r .data c.data) (.ok ()), .reached (.subscriber (some (.dataWaited 2))),
    .asked (.take r 1) (.ok second), .reached (.subscriber (some (.read 2 .disposed)))]

def lingerCourse (c : Config) : List Mark :=
  .reached (.subscriber (some .done)) ::
    if c.linger = .zero then [] else [.asked (.rest c.linger) (.ok ())]

def readCourse (s : Scenario) (c : Config) (r : Guid) (first second : List (Sample Value)) :
    List Mark :=
  [.asked (.await r .data c.data) (.ok ()), .reached (.subscriber (some (.dataWaited 1))),
    .asked (.take r 1) (.ok first), .reached (.subscriber (some (.read 1 .alive)))] ++
  (match s.variant with
    | .plain => []
    | .dispose => endCourse c r second) ++ lingerCourse c

/-- What a subscriber with all its entities does when nothing fails. -/
def subscriberCourse (s : Scenario) (c : Config) (r : Guid) (m : MatchedStatus)
    (first second : List (Sample Value)) : List Mark :=
  [.asked (.await r .matched c.matching) (.ok ()), .asked (.takeMatched r .reader) (.ok m),
    .reached (.subscriber (some .matchWaited))] ++ s.readCourse c r first second

/-! ### Following the course -/

lemma subscriberDone_follows {read : List (Sample Value)} {phase : Phase}
    (h : (subscriberDone c p).Plays ms out) :
    Follows s.objection p read phase (lingerCourse c) ms out := by
  obtain ⟨_, rfl, hdone⟩ := Program.plays_reach.1 h
  refine .reached ?_
  split_ifs at hdone ⊢ with hl
  · exact .concluded hdone
  · obtain ⟨_, _, rfl, hend⟩ := hdone.ask_certain rfl
    exact .passed rfl (.concluded hend)

/-- A read in which the wait fails, or the take fails, or what is taken is objected to, or after
which the course goes on. -/
lemma readNext_follows {ι : Type} [Inhabited ι] (course : ι → List Mark)
    (read : List (Sample Value)) {n : Nat} {before : SubscriberPhase} {probe : ReadProbe}
    {next : Sample Value → Program} (h : (s.readNext c p r n before probe next).Plays ms out)
    (hnext : ∀ taken ms,
      (Program.ensure (classify s.topic probe taken) (subscriberFails p (.dataWaited n))
        next).Plays ms out →
      (∃ f, s.objection read taken = some f ∧
        (subscriberFails p (.dataWaited n) f).Plays ms out) ∨
      s.objection read taken = none ∧
        ∃ i, Follows s.objection p (read ++ taken.take 1) (.subscriber (some (.dataWaited n)))
          (course i) ms out) :
    ∃ taken i, Follows s.objection p read (.subscriber (some before))
      (.asked (.await r .data c.data) (.ok ()) ::
        .reached (.subscriber (some (.dataWaited n))) ::
        .asked (.take r 1) (.ok taken) :: course i) ms out := by
  rcases h.require with ⟨_, _, rfl, ha⟩ | ⟨f, _, rfl, hf⟩
  swap
  · exact ⟨[], default, .abandoned rfl hf⟩
  obtain ⟨_, rfl, hwaited⟩ := Program.plays_reach.1 ha
  rcases hwaited.require with ⟨taken, _, rfl, ht⟩ | ⟨f, _, rfl, hf⟩
  swap
  · exact ⟨[], default, .passed rfl (.reached (.abandoned rfl hf))⟩
  rw [← List.append_nil read] at hnext
  rcases hnext taken _ ht with ⟨f, hm, hf⟩ | ⟨hm, i, hi⟩
  · exact ⟨taken, default, .passed rfl (.reached (.abandoned hm hf))⟩
  · exact ⟨taken, i, .passed rfl (.reached (.passed hm hi))⟩

lemma readDisposal_follows {v : LifecycleVerifier} {first : Sample Value}
    (hv : v.history first.key = [.alive]) (hfirst : first.state = .alive)
    (h : (s.readDisposal c p r v first).Plays ms out) :
    ∃ second, Follows s.objection p [first] (.subscriber (some (.read 1 .alive)))
      (endCourse c r second ++ lingerCourse c) ms out := by
  rw [readDisposal, hfirst] at h
  obtain ⟨second, -, hfollows⟩ := readNext_follows
    (fun _ : Unit => .reached (.subscriber (some (.read 2 .disposed))) :: lingerCourse c)
    [first] h fun taken ms hms => by
    cases taken with
    | nil => exact .inl ⟨_, rfl, hms⟩
    | cons y rest =>
      have hclassify : classify s.topic .lifecycle (y :: rest) = .ok y := by simp [classify]
      rw [hclassify] at hms
      by_cases hk : y.key = first.key
      swap
      · rw [Program.ensure, if_pos hk] at hms
        exact .inl ⟨_, by rw [objection, if_pos hk], hms⟩
      rw [Program.ensure, if_neg (not_not.mpr hk)] at hms
      by_cases hs : y.state = .disposed
      swap
      · rw [LifecycleVerifier.observeExpected, if_neg hs] at hms
        exact .inl ⟨_, by rw [objection, if_neg (not_not.mpr hk), if_pos hs], hms⟩
      obtain ⟨v', hv'⟩ := LifecycleVerifier.observeExpected_disposed hv
      rw [hs, hv'] at hms
      refine .inr ⟨objection_second.mpr ⟨hk, hs⟩, (), ?_⟩
      obtain ⟨_, rfl, hsaid⟩ := Program.plays_say.1 hms
      obtain ⟨_, rfl, hread⟩ := Program.plays_reach.1 hsaid
      exact .said (.reached (subscriberDone_follows hread))
  exact ⟨second, hfollows⟩

lemma readSample_follows (h : (s.readSample c p r).Plays ms out) :
    ∃ first second, Follows s.objection p [] (.subscriber (some .matchWaited))
      (s.readCourse c r first second) ms out := by
  refine readNext_follows
    (fun second => .reached (.subscriber (some (.read 1 .alive))) ::
      ((match s.variant with
        | .plain => []
        | .dispose => endCourse c r second) ++ lingerCourse c)) [] h fun taken ms hms => ?_
  -- one objection after the other is excluded; at each, the play ends with the failure
  cases taken with
  | nil => exact .inl ⟨_, rfl, hms⟩
  | cons x rest =>
    by_cases hp : x.hasPayload = true
    swap
    · have hclassify : classify s.topic .payload (x :: rest) =
          .error (.invalidData x.key x.state) := by simp [classify, hp]
      rw [hclassify] at hms
      exact .inl ⟨_, by rw [objection, if_pos (Bool.eq_false_iff.mpr hp)], hms⟩
    have hclassify : classify s.topic .payload (x :: rest) = .ok x := by simp [classify, hp]
    rw [hclassify, Program.ensure] at hms
    by_cases hs : x.state = .alive
    swap
    · rw [LifecycleVerifier.observeExpected, if_neg hs] at hms
      exact .inl ⟨_, by rw [objection, if_neg (by simp [hp]), if_pos hs], hms⟩
    obtain ⟨v, hv, hhistory⟩ := LifecycleVerifier.observeExpected_new x.key
    rw [hs, hv, Program.ensure] at hms
    by_cases hd : x.data = some s.sample
    swap
    · rw [if_pos hd] at hms
      exact .inl ⟨_, by rw [objection, if_neg (by simp [hp]), if_neg (not_not.mpr hs), if_pos hd],
        hms⟩
    rw [if_neg (not_not.mpr hd)] at hms
    have hvalid : x.valid = true := by
      simp only [Sample.hasPayload, Bool.and_eq_true] at hp
      exact hp.1
    refine .inr ⟨objection_first.mpr ⟨hvalid, hd, hs⟩, ?_⟩
    obtain ⟨_, rfl, hsaid⟩ := Program.plays_say.1 hms
    obtain ⟨_, rfl, hread⟩ := Program.plays_reach.1 hsaid
    cases hvar : s.variant with
    | plain =>
      rw [hvar] at hread
      exact ⟨default, .said (.reached (subscriberDone_follows hread))⟩
    | dispose =>
      rw [hvar] at hread
      obtain ⟨second, hsecond⟩ := readDisposal_follows hhistory hs hread
      exact ⟨second, .said (.reached hsecond)⟩

/-- **The subscriber follows its course** once its entities are created. -/
theorem subscriber_follows (h : (s.subscriber c).Plays ms out) :
    (∃ f, s.Barred c .reader "interop-subscriber-" ms f ∧ out = .error ⟨.subscriber none, f⟩) ∨
    ∃ p t g r m first second, c.validate = .ok () ∧
      Follows s.objection p [] (.subscriber none)
        (s.entry c .reader "interop-subscriber-" p t g r ++
          .reached (.subscriber (some .created)) :: s.subscriberCourse c r m first second) ms out := by
  rcases enter_plays h with hb | ⟨p, t, g, r, ms, hc, rfl, hin⟩
  · exact .inl hb
  obtain ⟨ms, rfl, hcreated⟩ := Program.plays_reach.1 hin
  suffices hgoal : ∃ m first second, Follows s.objection p [] (.subscriber (some .created))
      (s.subscriberCourse c r m first second) ms out by
    obtain ⟨m, first, second, hgoal⟩ := hgoal
    exact .inr ⟨p, t, g, r, m, first, second, hc, follows_entry t g r (.reached hgoal)⟩
  rcases hcreated.require with ⟨_, _, rfl, hm⟩ | ⟨f, _, rfl, hf⟩
  swap
  · exact ⟨default, default, default, .reported hf⟩
  rcases hm.require with ⟨m, _, rfl, ht⟩ | ⟨f, _, rfl, hf⟩
  swap
  · exact ⟨default, default, default, .passed rfl (.abandoned rfl hf)⟩
  obtain ⟨_, rfl, hsaid⟩ := Program.plays_say.1 ht
  obtain ⟨_, rfl, hmatched⟩ := Program.plays_reach.1 hsaid
  obtain ⟨first, second, hread⟩ := readSample_follows hmatched
  exact ⟨m, first, second, .passed rfl (.passed rfl (.said (.reached hread)))⟩

/-! ### The verdict -/

/-- What a subscriber accepts from its two takes. -/
def Accepts (s : Scenario) (first second : List (Sample Value)) : Prop :=
  ∃ x rest, first = x :: rest ∧ x.valid = true ∧ x.data = some s.sample ∧ x.state = .alive ∧
    (s.variant = .dispose →
      ∃ y rest', second = y :: rest' ∧ y.key = x.key ∧ y.state = .disposed)

/-- What a subscriber that succeeds asks for and is answered: the creation of its entities, the
wait for a match, the wait for data and the take, in the one variant those two once more, and the
release. -/
def acceptedCalls (s : Scenario) (c : Config) (p : Nat) (t : Topic) (g : Group) (r : Guid)
    (m : MatchedStatus) (first second : List (Sample Value)) : List Mark :=
  [.asked (.join c.domain ("interop-subscriber-" ++ s.topic)) (.ok p),
    .asked (.createTopic p s.topic s.sample.type) (.ok t),
    .asked (.createGroup p .reader) (.ok g),
    .asked (.createEndpoint p .reader g t s.sample.type s.qos) (.ok r),
    .asked (.await r .matched c.matching) (.ok ()),
    .asked (.takeMatched r .reader) (.ok m),
    .asked (.await r .data c.data) (.ok ()),
    .asked (.take r 1) (.ok first)] ++
  (match s.variant with
    | .plain => []
    | .dispose => [.asked (.await r .data c.data) (.ok ()), .asked (.take r 1) (.ok second)]) ++
  (if c.linger = .zero then [] else [.asked (.rest c.linger) (.ok ())]) ++
  [.asked (.delete p) (.ok ()), .asked (.leave p) (.ok ())]

lemma accepts_iff {first second : List (Sample Value)} :
    s.Accepts first second ↔ s.objection [] first = none ∧
      (s.variant = .dispose → s.objection (first.take 1) second = none) := by
  cases first with
  | nil => exact iff_of_false (fun ⟨_, _, h, _⟩ => nomatch h) (fun ⟨h, _⟩ => nomatch h)
  | cons x rest =>
    have hsecond : s.objection [x] second = none ↔
        ∃ y rest', second = y :: rest' ∧ y.key = x.key ∧ y.state = .disposed := by
      cases second with
      | nil => exact iff_of_false nofun (fun ⟨_, _, h, _⟩ => nomatch h)
      | cons y rest' => simp [objection_second]
    rw [objection_first, List.take_succ_cons, List.take_zero, hsecond, Accepts]
    constructor
    · rintro ⟨_, _, h, hv, hd, hs, hend⟩
      cases h
      exact ⟨⟨hv, hd, hs⟩, hend⟩
    · rintro ⟨⟨hv, hd, hs⟩, hend⟩
      exact ⟨x, rest, rfl, hv, hd, hs, hend⟩

/-- Nothing is wrong with the answers exactly when the samples are the right ones. -/
lemma firstFailure_acceptedCalls (phase : Phase) (t : Topic) (g : Group) (m : MatchedStatus)
    (first second : List (Sample Value)) :
    firstFailure s.objection [] phase (s.acceptedCalls c p t g r m first second) = none ↔
      s.Accepts first second := by
  rw [accepts_iff]
  cases hf : s.objection [] first with
  | some f =>
    refine iff_of_false ?_ (fun h => nomatch h.1)
    cases hv : s.variant <;> simp [acceptedCalls, hv, firstFailure, Mark.trouble?, Mark.read, hf]
  | none =>
    by_cases hl : c.linger = .zero <;> cases hv : s.variant <;>
      cases hs : s.objection (first.take 1) second <;>
      simp [acceptedCalls, hl, hv, firstFailure, Mark.trouble?, Mark.read, hf, hs]

/-- What holds of a subscriber, whatever it is answered. -/
structure Verdict (s : Scenario) (c : Config) (ms : List Mark) (out : Except Failure Unit) :
    Prop where
  /-- It succeeds exactly when everything that it has to ask for is answered, and with the right
  samples. -/
  succeeds : out = .ok () ↔ c.validate = .ok () ∧ ∃ p t g r m first second,
    s.Accepts first second ∧ calls ms = s.acceptedCalls c p t g r m first second
  /-- It takes one sample, or one twice. -/
  takes : (steps ms).filterMap Step.size? <+: if s.variant = .dispose then [1, 1] else [1]
  /-- Settings that are not valid are refused before anything is done. -/
  refused : ∀ f, c.validate = .error f → ms = [] ∧ out = .error ⟨.subscriber none, f⟩
  /-- Else it fails with the first thing that goes wrong, after the last phase before that. -/
  verdict : c.validate = .ok () →
    out = outcome (firstFailure s.objection [] (.subscriber none) ms)

lemma Barred.verdict {f : Fault} (h : s.Barred c .reader "interop-subscriber-" ms f) :
    s.Verdict c ms (.error ⟨.subscriber none, f⟩) where
  succeeds := by
    refine iff_of_false nofun ?_
    rintro ⟨hc, p, t, g, r, m, first, second, ha, hcalls⟩
    have hnone := (firstFailure_calls s.objection [] (.subscriber none) (.subscriber none) ms).mpr
      (hcalls ▸ (firstFailure_acceptedCalls ..).mpr ha)
    cases (h.firstFailure_eq hc s.objection).symm.trans hnone
  takes := by
    have hnil : (steps ms).filterMap Step.size? = [] := by cases h <;> rfl
    exact hnil ▸ List.nil_prefix
  refused f' hc := ⟨(h.eq_nil hc).1, by rw [(h.eq_nil hc).2]⟩
  verdict hc := by rw [h.firstFailure_eq hc]; rfl

/-- The calls of the course are those of a subscriber that succeeds. -/
lemma calls_course (t : Topic) (g : Group) (m : MatchedStatus)
    (first second : List (Sample Value)) :
    calls (s.entry c .reader "interop-subscriber-" p t g r ++
      .reached (.subscriber (some .created)) :: s.subscriberCourse c r m first second) ++
        release p (.ok ()) = s.acceptedCalls c p t g r m first second := by
  by_cases hl : c.linger = .zero <;> cases hv : s.variant <;>
    simp only [subscriberCourse, readCourse, lingerCourse, acceptedCalls, hl, hv, if_true,
      if_false] <;> rfl

lemma sizes_course (t : Topic) (g : Group) (m : MatchedStatus)
    (first second : List (Sample Value)) :
    (steps (s.entry c .reader "interop-subscriber-" p t g r ++
      .reached (.subscriber (some .created)) ::
        s.subscriberCourse c r m first second)).filterMap Step.size? =
      if s.variant = .dispose then [1, 1] else [1] := by
  by_cases hl : c.linger = .zero <;> cases hv : s.variant <;>
    simp only [subscriberCourse, readCourse, lingerCourse, hl, hv, if_true, if_false] <;> rfl

/-- **The verdict of a subscriber is exact on every medium**, under all settings, and for every
scenario: it succeeds exactly when everything it has to ask for is answered and the samples are the
right ones, it takes no more than it needs, and it tells the first thing that goes wrong otherwise,
with the last phase before that. -/
theorem subscriber_verdict {σ : Type} (M : Server σ) (x : σ) (s : Scenario) (c : Config) :
    s.Verdict c (M.play x (s.subscriber c)).1 (M.play x (s.subscriber c)).2 := by
  generalize hms : (M.play x (s.subscriber c)).1 = ms
  generalize hout : (M.play x (s.subscriber c)).2 = out
  have hplays := Program.plays_play M x (s.subscriber c)
  rw [hms, hout] at hplays
  rcases subscriber_follows hplays with ⟨f, hb, rfl⟩ | ⟨p, t, g, r, m, first, second, hc, h⟩
  · exact hb.verdict
  have hverdict := h.outcome_eq
  have hnone : out = .ok () ↔
      firstFailure s.objection [] (.subscriber none) (calls ms) = none := by
    rw [hverdict, ← firstFailure_calls s.objection [] (.subscriber none)]
    cases firstFailure s.objection [] (.subscriber none) ms <;> simp [outcome]
  exact {
    succeeds := by
      constructor
      · intro hok
        have hcalls := (h.calls_eq_course hok).trans (calls_course ..)
        have haccepts := (firstFailure_acceptedCalls ..).mp (hcalls ▸ hnone.mp hok)
        exact ⟨hc, p, t, g, r, m, first, second, haccepts, hcalls⟩
      · rintro ⟨-, p', t', g', r', m', first', second', haccepts, hcalls⟩
        exact hnone.mpr (hcalls ▸ (firstFailure_acceptedCalls ..).mpr haccepts)
    takes := sizes_course t g m first second ▸ h.steps_prefix.filterMap Step.size?
    refused := fun f hf => by cases hf.symm.trans hc
    verdict := fun _ => hverdict }

end PubSub.Scenario
