import PubSub.Proofs.Json.Size
import PubSub.Proofs.Table
import PubSub.Proofs.Udp.Node
import PubSub.Udp.World

/-!
What fits a datagram. A change travels in a message that names the writer, the reader, its number
and its instance, and all of that counts. Writing looks at the payload alone and disposing at
nothing, so what either of them accepts can be too long to be sent.
-/

namespace PubSub

open Json

namespace Wire

def kindBytes : ChangeKind → Nat
  | .alive => 5
  | .disposed => 8

/-- What a change takes in a datagram beside its payload. -/
def envelope (w r : Guid) (n : Nat) (c : Change) : Nat :=
  151 + digits w.participant + digits w.entity + digits r.participant + digits r.entity +
    digits n + digits c.sequence + escaped c.key + kindBytes c.kind

/-- What the payload takes; no payload is written as null. -/
def payloadBytes (c : Change) : Nat := bytes (ofOption id c.payload).print

lemma bytes_guid (g : Guid) :
    bytes g.toJson.print = 26 + digits g.participant + digits g.entity := by
  have hp : bytes (printText "participant") = 13 := rfl
  have he : bytes (printText "entity") = 8 := rfl
  rw [Guid.toJson, bytes_print_obj (by simp)]
  simp only [memberBytes, List.map_cons, List.map_nil, List.sum_cons, List.sum_nil,
    bytes_print_ofNat, hp, he]
  omega

lemma bytes_change (c : Change) :
    bytes c.toJson.print =
      43 + digits c.sequence + escaped c.key + kindBytes c.kind + payloadBytes c := by
  have hs : bytes (printText "sequence") = 10 := rfl
  have hk : bytes (printText "key") = 5 := rfl
  have hd : bytes (printText "kind") = 6 := rfl
  have hp : bytes (printText "payload") = 9 := rfl
  have hkind : bytes (Change.kindJson c.kind).print = kindBytes c.kind + 2 := by
    cases c.kind <;> rfl
  have hkey : bytes (print (.str c.key)) = escaped c.key + 2 := bytes_printText c.key
  rw [Change.toJson, bytes_print_obj (by simp)]
  simp only [memberBytes, List.map_cons, List.map_nil, List.sum_cons, List.sum_nil,
    bytes_print_ofNat, hs, hk, hd, hp, hkind, hkey, payloadBytes]
  omega

/-- The size of a datagram that carries a change. -/
theorem size_data (w r : Guid) (n : Nat) (c : Change) :
    (text (.data w r n c)).utf8ByteSize = envelope w r n c + payloadBytes c := by
  have hmagic : bytes magic = 4 := rfl
  have ht : bytes (printText "type") = 6 := rfl
  have hd : bytes (print (.str "data")) = 6 := rfl
  have hw : bytes (printText "writer") = 8 := rfl
  have hr : bytes (printText "reader") = 8 := rfl
  have hs : bytes (printText "seq") = 5 := rfl
  have hc : bytes (printText "change") = 8 := rfl
  rw [text, utf8ByteSize_ofList, bytes_append, hmagic, Message.toJson, bytes_print_obj (by simp)]
  simp only [memberBytes, List.map_cons, List.map_nil, List.sum_cons, List.sum_nil,
    bytes_print_ofNat, bytes_guid, bytes_change, ht, hd, hw, hr, hs, hc, envelope]
  omega

end Wire

/-- A message is encoded exactly if its datagram is not too long. -/
lemma encode_ok_iff {m : Message} :
    (∃ t, Wire.encode m = .ok t) ↔ (Wire.text m).utf8ByteSize ≤ Wire.maxBytes := by
  unfold Wire.encode
  simp only
  split_ifs with h
  · simp [h]
  · simp [Nat.le_of_not_lt h]

namespace Udp

lemma dispatch_unicast (n : Node) (world : World) (a : Address) (m : Message) :
    World.dispatch n world (.unicast a m) =
      if (Wire.text m).utf8ByteSize ≤ Wire.maxBytes then
        world.post n.dataPort (.address a) (Wire.text m)
      else world := by
  unfold World.dispatch Wire.encode
  simp only
  split_ifs with h h' h'
  · omega
  · rfl
  · rfl
  · omega

namespace Node

variable {n : Node} {w r : Guid} {x : LinkedWriter} {p : ReaderProxy}

/-- **What is accepted is sent exactly if it fits with its envelope.** Whatever an application
hands to an open writer becomes a message to every matched reader, and that message leaves if
the escaped key, the digits of the identities and numbers, and the payload fit one datagram
together. Otherwise it is dropped without a word. -/
theorem submit_sent_iff {s : Submission} {acted : Node × List Dispatch}
    (h : n.submit w s = .ok acted) (hx : n.writers.get? w = some x)
    (hp : x.writer.history.proxies.get? r = some p) :
    let c := s.change x.writer.history.next
    let m := Message.data x.writer.guid r p.next c
    (∀ a, x.addresses.get? r = some a → .unicast a m ∈ acted.2) ∧
    ((∃ t, Wire.encode m = .ok t) ↔
      Wire.envelope x.writer.guid r p.next c + Wire.payloadBytes c ≤ Wire.maxBytes) ∧
    ∀ (world : World) (a : Address), World.dispatch acted.1 world (.unicast a m) =
      if Wire.envelope x.writer.guid r p.next c + Wire.payloadBytes c ≤ Wire.maxBytes then
        world.post acted.1.dataPort (.address a) (Wire.text m)
      else world := by
  intro c m
  have hsize : (Wire.text m).utf8ByteSize =
      Wire.envelope x.writer.guid r p.next c + Wire.payloadBytes c := Wire.size_data _ _ _ _
  refine ⟨fun a ha => ?_, by rw [encode_ok_iff, hsize], fun world a => by
    rw [dispatch_unicast, hsize]⟩
  obtain ⟨-, y, hy, rfl⟩ := submit_ok h hx
  refine List.mem_filterMap.mpr ⟨⟨r, p.next, c⟩, ?_, ?_⟩
  · have hc : c = ⟨x.writer.history.next, c.key, c.kind, c.payload⟩ := by cases s <;> rfl
    rw [hc]
    exact List.mem_map.mpr ⟨(r, p), Table.mem_of_get? hp, rfl⟩
  · have hguid : y.guid = x.writer.guid := by
      rw [Writer.guid, hy]
      rfl
    simp [ha, hguid, m]

def matchedPair : Node :=
  (((Node.new 1 0 "p" 7400 .default).addWriter (.new ⟨1, 1⟩ "t" .hello .reliable)).1.hearAnnouncement
    0 2 ⟨0, 7401⟩ (.ofMillis 1000)
    [⟨⟨2, 1⟩, .reader, "t", SampleType.hello.name, .reliable⟩]).1

theorem submit_sent_iff_matchedPair :
    ∃ acted x p, matchedPair.submit ⟨1, 1⟩ (.sample (.hello ⟨1, "x"⟩)) = .ok acted ∧
      matchedPair.writers.get? ⟨1, 1⟩ = some x ∧
      x.writer.history.proxies.get? ⟨2, 1⟩ = some p ∧
      ∃ t, Wire.encode (.data x.writer.guid ⟨2, 1⟩ p.next
        (Submission.change x.writer.history.next (.sample (.hello ⟨1, "x"⟩)))) = .ok t := by
  refine ⟨_, _, _, rfl, rfl, rfl, ?_⟩
  exact (submit_sent_iff (n := matchedPair) (w := ⟨1, 1⟩) (r := ⟨2, 1⟩) rfl rfl rfl).2.1.mpr
    (by decide)

def greeting (k : Nat) : Value := .hello ⟨1, String.ofList (List.replicate k 'x')⟩

lemma payload_greeting (k : Nat) : (greeting k).payload.text.utf8ByteSize = k + 17 := by
  have hi : bytes (printText "id") = 4 := rfl
  have hm : bytes (printText "msg") = 5 := rfl
  have hone : bytes (print (.ofNat 1)) = 1 := rfl
  have hplain : escaped (String.ofList (List.replicate k 'x')) = k := by
    rw [escaped_of_plain, utf8ByteSize_ofList]
    · simp [bytes, Char.utf8Size]
    · intro c hc
      rw [String.toList_ofList] at hc
      rw [List.eq_of_mem_replicate hc]
      rfl
  have hmsg : bytes (print (.str (String.ofList (List.replicate k 'x')))) = k + 2 := by
    rw [print, bytes_printText, hplain]
  rw [text, utf8ByteSize_ofList, greeting, Value.payload, Value.toJson, bytes_print_obj (by simp)]
  simp only [memberBytes, List.map_cons, List.map_nil, List.sum_cons, List.sum_nil, hi, hm, hone,
    hmsg]
  omega

lemma size_greeting (k : Nat) :
    (Wire.text (.data ⟨1, 1⟩ ⟨2, 1⟩ 1 ((Submission.sample (greeting k)).change 1))).utf8ByteSize =
      k + 180 := by
  have hpayload : Wire.payloadBytes ((Submission.sample (greeting k)).change 1) = k + 17 := by
    rw [Wire.payloadBytes, ← utf8ByteSize_ofList]
    exact payload_greeting k
  have henvelope : Wire.envelope ⟨1, 1⟩ ⟨2, 1⟩ 1 ((Submission.sample (greeting k)).change 1) =
      163 := by
    have hone : digits 1 = 1 := rfl
    have htwo : digits 2 = 1 := rfl
    have hkey : escaped (toString 1) = 1 := rfl
    simp only [Wire.envelope, Submission.change, greeting, Value.key, Wire.kindBytes, hone, htwo,
      hkey]
  rw [Wire.size_data, hpayload, henvelope]
  omega

/-- A greeting that is accepted, and never sent. -/
theorem not_sent_long_greeting :
    ∃ acted x p, matchedPair.submit ⟨1, 1⟩ (.sample (greeting 63900)) = .ok acted ∧
      matchedPair.writers.get? ⟨1, 1⟩ = some x ∧
      x.writer.history.proxies.get? ⟨2, 1⟩ = some p ∧
      ¬∃ t, Wire.encode (.data x.writer.guid ⟨2, 1⟩ p.next
        ((Submission.sample (greeting 63900)).change x.writer.history.next)) = .ok t := by
  refine ⟨_, _, _, submit_sample rfl rfl (by rw [payload_greeting]; decide), rfl, rfl, ?_⟩
  rw [encode_ok_iff]
  exact fun h => absurd (size_greeting 63900 ▸ h) (by decide)

end Node

end Udp

end PubSub
