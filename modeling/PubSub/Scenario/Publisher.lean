import PubSub.Scenario.Basic

/-!
The publishing side: it waits for a match, writes, waits for the acknowledgment, in the dispose
variant does the same for the end of the instance, and releases its entities.
-/

namespace PubSub.Scenario

/-- How a publisher with all its entities fails that has reached a phase. -/
def publisherFails (p : Nat) (phase : PublisherPhase) : Fault → Program :=
  abandon p (.publisher (some phase))

def publisherDone (p : Nat) : Program :=
  .reach (.publisher (some .done)) <| conclude p (.publisher (some .done))

/-- Ends the life of the instance that was written. -/
def publishDisposal (s : Scenario) (c : Config) (p : Nat) (w : Guid) (handle : Handle) : Program :=
  .require (.dispose w s.sample handle) (publisherFails p .acknowledged) fun () =>
  .say s!"Disposed instance '{s.sample.key}'" <|
  .reach (.publisher (some .disposed)) <|
  .require (.await w .acknowledged c.acknowledgment) (publisherFails p .disposed) fun () =>
  .say "Dispose acknowledged" <|
  .reach (.publisher (some .disposeAcknowledged)) <|
  publisherDone p

/-- Writes the sample, and goes on once it is acknowledged. -/
def publishSample (s : Scenario) (c : Config) (p : Nat) (w : Guid) : Program :=
  .require (.write w s.sample) (publisherFails p .matchWaited) fun handle =>
  .say s!"Wrote sample {s.sample.text}" <|
  .reach (.publisher (some .written)) <|
  .require (.await w .acknowledged c.acknowledgment) (publisherFails p .written) fun () =>
  .say "Write acknowledged" <|
  .reach (.publisher (some .acknowledged)) <|
  match s.variant with
  | .plain => publisherDone p
  | .dispose => s.publishDisposal c p w handle

/-- The publishing side of a scenario. -/
def publisher (s : Scenario) (c : Config) : Program :=
  s.enter c .writer "interop-publisher-" (.publisher none) fun p w =>
  .reach (.publisher (some .created)) <|
  .require (.await w .matched c.matching)
    (fun f => .sayMaybe (passedOver "on_offered_incompatible_qos" f) <|
      publisherFails p .created f) fun () =>
  .require (.takeMatched w .writer) (publisherFails p .created) fun m =>
  .say (s.matchedLine "on_publication_matched" "readers" m) <|
  .reach (.publisher (some .matchWaited)) <|
  s.publishSample c p w

end PubSub.Scenario
