import PubSub.Scenario.Basic

/-!
The subscribing side: it waits for a match and for data, reads one sample, which has to be the
one of the scenario, in the dispose variant waits for the end of its instance, lingers for a
while, and releases its entities.
-/

namespace PubSub.Scenario

/-- How a subscriber with all its entities fails that has reached a phase. -/
def subscriberFails (p : Nat) (phase : SubscriberPhase) : Fault → Program :=
  abandon p (.subscriber (some phase))

def subscriberDone (c : Config) (p : Nat) : Program :=
  .reach (.subscriber (some .done)) <|
  if c.linger = .zero then conclude p (.subscriber (some .done))
  else .ask (.rest c.linger) fun _ => conclude p (.subscriber (some .done))

/-- Waits for data for the `n`th time and reads one sample. -/
def readNext (s : Scenario) (c : Config) (p : Nat) (r : Guid) (n : Nat)
    (before : SubscriberPhase) (probe : ReadProbe) (next : Sample Value → Program) : Program :=
  .require (.await r .data c.data) (subscriberFails p before) fun () =>
  .reach (.subscriber (some (.dataWaited n))) <|
  .require (.take r 1) (subscriberFails p (.dataWaited n)) fun taken =>
  .ensure (classify s.topic probe taken) (subscriberFails p (.dataWaited n)) next

/-- The sample that was read is not the one of the scenario. -/
def wrongSample (s : Scenario) (received : Option Value) : Fault :=
  .unexpected s.sample.text <| match received with
    | some v => s!"Some({v.text})"
    | none => "None"

/-- The end of an instance was read, but of another one. -/
def wrongInstance (key other : InstanceKey) : Fault :=
  .unexpected s!"lifecycle sample for instance '{key}'" s!"instance '{other}'"

/-- Waits for the end of the instance that was read. -/
def readDisposal (s : Scenario) (c : Config) (p : Nat) (r : Guid) (v : LifecycleVerifier)
    (first : Sample Value) : Program :=
  s.readNext c p r 2 (.read 1 first.state) .lifecycle fun x =>
  if x.key ≠ first.key then subscriberFails p (.dataWaited 2) (wrongInstance first.key x.key)
  else
    .ensure (v.observeExpected first.key x.state .disposed) (subscriberFails p (.dataWaited 2))
      fun _ =>
    .say s!"Instance '{first.key}' is {x.state.text}" <|
    .reach (.subscriber (some (.read 2 x.state))) <|
    subscriberDone c p

/-- Reads the sample of the scenario. -/
def readSample (s : Scenario) (c : Config) (p : Nat) (r : Guid) : Program :=
  s.readNext c p r 1 .matchWaited .payload fun x =>
  .ensure (LifecycleVerifier.new.observeExpected x.key x.state .alive)
    (subscriberFails p (.dataWaited 1)) fun v =>
  if x.data ≠ some s.sample then subscriberFails p (.dataWaited 1) (s.wrongSample x.data)
  else
    .say s!"Received sample {s.sample.text} ({x.state.text})" <|
    .reach (.subscriber (some (.read 1 x.state))) <|
    match s.variant with
    | .plain => subscriberDone c p
    | .dispose => s.readDisposal c p r v x

/-- The subscribing side of a scenario. -/
def subscriber (s : Scenario) (c : Config) : Program :=
  s.enter c .reader "interop-subscriber-" (.subscriber none) fun p r =>
  .reach (.subscriber (some .created)) <|
  .require (.await r .matched c.matching)
    (fun f => .sayMaybe (passedOver "on_requested_incompatible_qos" f) <|
      subscriberFails p .created f) fun () =>
  .require (.takeMatched r .reader) (subscriberFails p .created) fun m =>
  .say (s.matchedLine "on_subscription_matched" "writers" m) <|
  .reach (.subscriber (some .matchWaited)) <|
  s.readSample c p r

end PubSub.Scenario
