import Mathlib.Tactic.Lemma
import Mathlib.Tactic.SplitIfs
import PubSub.Proofs.Json.Record
import PubSub.Wire

/-!
The records of a message. Each is read from the object that it is written as, if its numbers fit
the widths of the format, and whatever is read has numbers that fit. A payload of null arrives as
no payload.
-/

namespace PubSub

open Json

/-! ### What fits the format -/

/-- The numbers of an identity have the widths of the format. -/
structure Guid.Fits (g : Guid) : Prop where
  participant : g.participant < UInt64.size
  entity : g.entity < UInt32.size

def Span.Fits (s : Span) : Prop := s.secs < UInt64.size

structure Qos.Fits (q : Qos) : Prop where
  maxBlocking : q.maxBlocking.Fits
  history : ∀ n, q.history = .keepLast n → n < UInt32.size

structure Announcement.Fits (a : Announcement) : Prop where
  guid : a.guid.Fits
  qos : a.qos.Fits

/-- The number of a change has its width, and its payload is in canonical form with whole numbers of
sixty-four bits. -/
structure Change.Fits (c : Change) : Prop where
  sequence : c.sequence < UInt64.size
  payload : ∀ p, c.payload = some p → p.canonical = p ∧ p.scalars Json.fits = true

def Message.Fits : Message → Prop
  | .announce p d _ port lease endpoints =>
    p < UInt64.size ∧ d < UInt32.size ∧ port < UInt16.size ∧ lease < UInt64.size ∧
      ∀ a ∈ endpoints, a.Fits
  | .bye p => p < UInt64.size
  | .data w r n c => w.Fits ∧ r.Fits ∧ n < UInt64.size ∧ c.Fits
  | .ackNack r w n => r.Fits ∧ w.Fits ∧ n < UInt64.size

def Message.payload? : Message → Option Json
  | .data _ _ _ c => c.payload
  | _ => none

def Message.IsExact (m : Message) : Prop :=
  ∀ p, m.payload? = some p → p.scalars Json.isExact = true

lemma Message.Fits.payload {m : Message} {p : Json} (h : m.Fits) (hp : m.payload? = some p) :
    p.scalars Json.fits = true := by
  cases m with
  | data w r n c => exact (h.2.2.2.payload p hp).2
  | _ => cases hp

/-- The change with no payload in the place of null. -/
def Change.arrived (c : Change) : Change :=
  match c.payload with
  | some .null => { c with payload := none }
  | _ => c

def Message.arrived : Message → Message
  | .data w r n c => .data w r n c.arrived
  | m => m

/-! ### Reading what was written -/

lemma Guid.ofJson?_toJson {g : Guid} (h : g.Fits) : Guid.ofJson? g.toJson = some g := by
  have hfields : g.toJson.fields? ["participant", "entity"] =
      some [some (.ofNat g.participant), some (.ofNat g.entity)] := fields?_obj rfl (by decide)
  -- field by field: whatever unfolds the reading of a number counts down from its width
  rw [Guid.ofJson?, hfields, Option.bind_eq_bind, Option.bind_some]
  dsimp only
  rw [natBelow?_ofNat h.participant, natBelow?_ofNat h.entity]
  rfl

lemma Span.ofParts_secs_subsec (s : Span) : ofParts s.secs s.subsec = s :=
  congrArg Span.mk (Nat.div_add_mod' s.nanos 1000000000)

lemma Span.ofJson?_toJson {s : Span} (h : s.Fits) : Span.ofJson? s.toJson = some s := by
  have hfields : s.toJson.closedFields? ["secs", "nanos"] =
      some [some (.ofNat s.secs), some (.ofNat s.subsec)] := closedFields?_obj rfl (by decide)
  have hsub : s.subsec < UInt32.size := Nat.lt_trans (Nat.mod_lt _ (by decide)) (by decide)
  rw [Span.ofJson?, hfields, Option.bind_eq_bind, Option.bind_some]
  dsimp only
  rw [natBelow?_ofNat h, natBelow?_ofNat hsub, Option.bind_eq_bind, Option.bind_some,
    Option.bind_some, Span.ofParts_secs_subsec]
  exact if_pos h

lemma EndpointKind.ofJson?_toJson (mode : Strictness) (k : EndpointKind) :
    EndpointKind.ofJson? mode k.toJson = some k := by
  cases k <;> rfl

lemma Qos.historyOfJson?_historyJson {mode : Strictness} {h : History}
    (hn : ∀ n, h = .keepLast n → n < UInt32.size) :
    Qos.historyOfJson? mode (Qos.historyJson h) = some h := by
  cases h with
  | keepLast n =>
    have hread := natBelow?_ofNat (hn n rfl)
    simp [Qos.historyJson, Qos.historyOfJson?, hread]
  | keepAll => rfl

lemma Qos.ofJson?_toJson {mode : Strictness} {q : Qos} (h : q.Fits) :
    Qos.ofJson? mode q.toJson = some q := by
  have hfields : q.toJson.fields? ["reliability", "max_blocking_time", "durability", "history"] =
      some [some (reliabilityJson q.reliability), some q.maxBlocking.toJson,
        some (durabilityJson q.durability), some (historyJson q.history)] :=
    fields?_obj rfl (by decide)
  have hr : (Qos.reliabilityJson q.reliability).constant? mode
      [("BestEffort", .bestEffort), ("Reliable", .reliable)] = some q.reliability := by
    cases q.reliability <;> rfl
  have hd : (Qos.durabilityJson q.durability).constant? mode
      [("Volatile", .volatile), ("TransientLocal", .transientLocal)] = some q.durability := by
    cases q.durability <;> rfl
  rw [Qos.ofJson?, hfields, Option.bind_eq_bind, Option.bind_some]
  dsimp only
  rw [hr, hd, Span.ofJson?_toJson h.maxBlocking, Qos.historyOfJson?_historyJson h.history]
  rfl

lemma Announcement.ofJson?_toJson {mode : Strictness} {a : Announcement} (h : a.Fits) :
    Announcement.ofJson? mode a.toJson = some a := by
  have hfields : a.toJson.fields? ["guid", "kind", "topic", "type_name", "qos"] =
      some [some a.guid.toJson, some a.kind.toJson, some (.str a.topic), some (.str a.typeName),
        some a.qos.toJson] := fields?_obj rfl (by decide)
  rw [Announcement.ofJson?, hfields, Option.bind_eq_bind, Option.bind_some]
  dsimp only
  rw [Guid.ofJson?_toJson h.guid, EndpointKind.ofJson?_toJson, Qos.ofJson?_toJson h.qos]
  rfl

/-- A payload in canonical form arrives as it is, unless it is null. -/
lemma Change.payloadOfJson_payload {c : Change}
    (h : ∀ p, c.payload = some p → p.canonical = p) :
    payloadOfJson (some (ofOption id c.payload)) = c.arrived.payload := by
  unfold arrived
  cases hp : c.payload with
  | none => exact hp.symm
  | some p =>
    cases p
    case null => rfl
    all_goals exact (congrArg some (h _ hp)).trans hp.symm

lemma Change.ofJson?_toJson {mode : Strictness} {c : Change} (h : c.Fits) :
    Change.ofJson? mode c.toJson = some c.arrived := by
  have hfields : c.toJson.fields? ["sequence", "key", "kind", "payload"] =
      some [some (.ofNat c.sequence), some (.str c.key), some (kindJson c.kind),
        some (.ofOption id c.payload)] := fields?_obj rfl (by decide)
  have hk : (Change.kindJson c.kind).constant? mode
      [("Alive", ChangeKind.alive), ("Disposed", .disposed)] = some c.kind := by
    cases c.kind <;> rfl
  have hp := Change.payloadOfJson_payload fun p hp => (h.payload p hp).1
  have harrived : c.arrived = { c with payload := c.arrived.payload } := by
    unfold arrived
    split <;> rfl
  rw [Change.ofJson?, hfields, Option.bind_eq_bind, Option.bind_some]
  dsimp only
  rw [natBelow?_ofNat h.sequence, hk, hp]
  exact congrArg some harrived.symm

namespace Message

/-- The tag is told from the fields by its name. -/
lemma untag?_obj {tag : String} {fields : List (String × Json)}
    (h : "type" ∉ fields.map (·.1)) :
    untag? (.obj (("type", .str tag) :: fields)) = some (tag, .obj fields) := by
  have hne : ∀ k v, (k, v) ∈ fields → ¬k = "type" := fun k v hm he =>
    h (List.mem_map.mpr ⟨(k, v), hm, he⟩)
  have hnone : fields.filter (·.1 = "type") = [] :=
    List.filter_eq_nil_iff.mpr fun m hm he => hne m.1 m.2 hm (of_decide_eq_true he)
  simpa [untag?, hnone] using hne

lemma announceOfJson?_obj {p d port lease : Nat} {name : String} {endpoints : List Announcement}
    (h : (announce p d name port lease endpoints).Fits) :
    announceOfJson? (.obj [("participant", .ofNat p), ("domain_id", .ofNat d),
      ("name", .str name), ("data_port", .ofNat port), ("lease_ms", .ofNat lease),
      ("endpoints", .arr (endpoints.map Announcement.toJson))]) =
        some (announce p d name port lease endpoints) := by
  obtain ⟨hp, hd, hport, hlease, hall⟩ := h
  have hendpoints : (endpoints.map Announcement.toJson).mapM (Announcement.ofJson? .tagged) =
      some endpoints := by
    rw [List.mapM_map]
    exact (mapM_eq_some_map fun a ha => Announcement.ofJson?_toJson (hall a ha)).trans
      (congrArg some (List.map_id _))
  rw [announceOfJson?, fields?_obj (by rfl) (by decide), Option.bind_eq_bind, Option.bind_some]
  simp only [List.map_cons, List.map_nil]
  rw [natBelow?_ofNat hp, natBelow?_ofNat hd, natBelow?_ofNat hport, natBelow?_ofNat hlease]
  simp only [str?, arr?, Option.bind_eq_bind, Option.bind_some, hendpoints]
  rfl

lemma byeOfJson?_obj {p : Nat} (h : (bye p).Fits) :
    byeOfJson? (.obj [("participant", .ofNat p)]) = some (bye p) := by
  rw [byeOfJson?, fields?_obj (by rfl) (by decide), Option.bind_eq_bind, Option.bind_some]
  simp only [List.map_cons, List.map_nil]
  rw [natBelow?_ofNat h]
  rfl

lemma dataOfJson?_obj {w r : Guid} {n : Nat} {c : Change} (h : (data w r n c).Fits) :
    dataOfJson? (.obj [("writer", w.toJson), ("reader", r.toJson), ("seq", .ofNat n),
      ("change", c.toJson)]) = some (data w r n c.arrived) := by
  obtain ⟨hw, hr, hn, hc⟩ := h
  rw [dataOfJson?, fields?_obj (by rfl) (by decide), Option.bind_eq_bind, Option.bind_some]
  simp only [List.map_cons, List.map_nil]
  rw [Guid.ofJson?_toJson hw, Guid.ofJson?_toJson hr, natBelow?_ofNat hn,
    Change.ofJson?_toJson hc]
  rfl

lemma ackNackOfJson?_obj {r w : Guid} {n : Nat} (h : (ackNack r w n).Fits) :
    ackNackOfJson? (.obj [("reader", r.toJson), ("writer", w.toJson), ("acked", .ofNat n)]) =
      some (ackNack r w n) := by
  obtain ⟨hr, hw, hn⟩ := h
  rw [ackNackOfJson?, fields?_obj (by rfl) (by decide), Option.bind_eq_bind, Option.bind_some]
  simp only [List.map_cons, List.map_nil]
  rw [Guid.ofJson?_toJson hr, Guid.ofJson?_toJson hw, natBelow?_ofNat hn]
  rfl

/-- **A message is read from the object that it is written as.** -/
lemma ofJson?_toJson {m : Message} (h : m.Fits) : ofJson? m.toJson = some m.arrived := by
  cases m with
  | announce p d name port lease endpoints =>
    rw [ofJson?, toJson, untag?_obj (by simp), Option.bind_eq_bind, Option.bind_some]
    exact announceOfJson?_obj h
  | bye p =>
    rw [ofJson?, toJson, untag?_obj (by simp), Option.bind_eq_bind, Option.bind_some]
    exact byeOfJson?_obj h
  | data w r n c =>
    rw [ofJson?, toJson, untag?_obj (by simp), Option.bind_eq_bind, Option.bind_some]
    exact dataOfJson?_obj h
  | ackNack r w n =>
    rw [ofJson?, toJson, untag?_obj (by simp), Option.bind_eq_bind, Option.bind_some]
    exact ackNackOfJson?_obj h

end Message

/-! ### What is read fits -/

variable {j : Json}

lemma Guid.fits_of_ofJson? {g : Guid} (h : Guid.ofJson? j = some g) : g.Fits := by
  obtain ⟨vs, -, h⟩ := Option.bind_eq_some_iff.mp h
  split at h
  · obtain ⟨p, hp, h⟩ := Option.bind_eq_some_iff.mp h
    obtain ⟨e, he, h⟩ := Option.bind_eq_some_iff.mp h
    obtain rfl := Option.some.inj h
    exact ⟨lt_of_natBelow? hp, lt_of_natBelow? he⟩
  · cases h

lemma Span.fits_of_ofJson? {s : Span} (h : Span.ofJson? j = some s) : s.Fits := by
  obtain ⟨vs, -, h⟩ := Option.bind_eq_some_iff.mp h
  split at h
  · obtain ⟨secs, -, h⟩ := Option.bind_eq_some_iff.mp h
    obtain ⟨nanos, -, h⟩ := Option.bind_eq_some_iff.mp h
    dsimp only at h
    split_ifs at h with hlt
    obtain rfl := Option.some.inj h
    exact hlt
  · cases h

lemma Qos.fits_of_historyOfJson? {mode : Strictness} {h : History} {n : Nat}
    (hread : historyOfJson? mode j = some h) (hn : h = .keepLast n) : n < UInt32.size := by
  subst hn
  unfold historyOfJson? at hread
  split at hread
  · obtain ⟨k, hk, he⟩ := Option.map_eq_some_iff.mp hread
    exact History.keepLast.inj he ▸ lt_of_natBelow? hk
  · obtain ⟨⟨name, beside⟩, -, hchoice⟩ := Option.bind_eq_some_iff.mp hread
    dsimp only at hchoice
    split_ifs at hchoice
    obtain ⟨choice, hfind, he⟩ := Option.map_eq_some_iff.mp hchoice
    obtain rfl := List.mem_singleton.mp (List.mem_of_find?_eq_some hfind)
    cases he

lemma Qos.fits_of_ofJson? {mode : Strictness} {q : Qos} (h : Qos.ofJson? mode j = some q) :
    q.Fits := by
  obtain ⟨vs, -, h⟩ := Option.bind_eq_some_iff.mp h
  split at h
  · obtain ⟨r, -, h⟩ := Option.bind_eq_some_iff.mp h
    obtain ⟨b, hb, h⟩ := Option.bind_eq_some_iff.mp h
    obtain ⟨d, -, h⟩ := Option.bind_eq_some_iff.mp h
    obtain ⟨k, hk, h⟩ := Option.bind_eq_some_iff.mp h
    obtain rfl := Option.some.inj h
    exact ⟨Span.fits_of_ofJson? hb, fun n hn => Qos.fits_of_historyOfJson? hk hn⟩
  · cases h

lemma Announcement.fits_of_ofJson? {mode : Strictness} {a : Announcement}
    (h : Announcement.ofJson? mode j = some a) : a.Fits := by
  obtain ⟨vs, -, h⟩ := Option.bind_eq_some_iff.mp h
  split at h
  · obtain ⟨g, hg, h⟩ := Option.bind_eq_some_iff.mp h
    obtain ⟨k, -, h⟩ := Option.bind_eq_some_iff.mp h
    obtain ⟨t, -, h⟩ := Option.bind_eq_some_iff.mp h
    obtain ⟨n, -, h⟩ := Option.bind_eq_some_iff.mp h
    obtain ⟨q, hq, h⟩ := Option.bind_eq_some_iff.mp h
    obtain rfl := Option.some.inj h
    exact ⟨Guid.fits_of_ofJson? hg, Qos.fits_of_ofJson? hq⟩
  · cases h

/-- A payload that is read is the canonical form of a value that is not null. -/
lemma Change.of_payloadOfJson {v : Option Json} {p : Json} (h : payloadOfJson v = some p) :
    ∃ q, v = some q ∧ p = q.canonical ∧ p ≠ .null := by
  unfold payloadOfJson at h
  split at h
  · cases h
  · cases h
  · next q hq =>
    obtain rfl := Option.some.inj h
    refine ⟨q, rfl, rfl, ?_⟩
    cases q <;> simp [canonical] at hq ⊢

/-- What is read of a change: its numbers fit, its payload is not null and nests less deep. -/
lemma Change.fits_of_ofJson? {mode : Strictness} {c : Change}
    (h : Change.ofJson? mode j = some c) (hj : j.scalars Json.fits = true) :
    c.Fits ∧ ∀ p, c.payload = some p → p ≠ .null ∧ p.depth < j.depth := by
  obtain ⟨vs, hvs, h⟩ := Option.bind_eq_some_iff.mp h
  split at h
  · next s k d v =>
    obtain ⟨n, hn, h⟩ := Option.bind_eq_some_iff.mp h
    obtain ⟨key, -, h⟩ := Option.bind_eq_some_iff.mp h
    obtain ⟨kind, -, h⟩ := Option.bind_eq_some_iff.mp h
    obtain rfl := Option.some.inj h
    have hpayload : ∀ p, payloadOfJson v = some p →
        p.canonical = p ∧ p.scalars Json.fits = true ∧ p ≠ .null ∧ p.depth < j.depth := by
      intro p hp
      obtain ⟨q, rfl, rfl, hnull⟩ := Change.of_payloadOfJson hp
      have hpart := mem_parts_of_fields? hvs (v := q) (by simp)
      have hdepth := depth_lt_of_mem_parts hpart
      exact ⟨canonical_canonical q, scalars_canonical (scalars_of_mem_parts hj hpart), hnull,
        Nat.lt_of_le_of_lt (depth_canonical_le q) hdepth⟩
    exact ⟨⟨lt_of_natBelow? hn, fun p hp => ⟨(hpayload p hp).1, (hpayload p hp).2.1⟩⟩,
      fun p hp => (hpayload p hp).2.2⟩
  · cases h

namespace Message

variable {m : Message}

/-- What is left of a tagged record has no parts but those of the record. -/
lemma mem_parts_of_untag? {tag : String} {rest v : Json} (h : untag? j = some (tag, rest))
    (hv : v ∈ rest.parts) : v ∈ j.parts := by
  unfold untag? at h
  split at h
  · next members =>
    split at h
    · obtain ⟨-, rfl⟩ := Prod.mk.inj (Option.some.inj h)
      obtain ⟨m, hm, rfl⟩ := List.mem_map.mp hv
      exact List.mem_map_of_mem (List.mem_filter.mp hm).1
    · cases h
  · obtain ⟨-, rfl⟩ := Prod.mk.inj (Option.some.inj h)
    exact List.mem_cons_of_mem _ hv
  · cases h

lemma fits_of_announceOfJson? (h : announceOfJson? j = some m) :
    m.Fits ∧ m.payload? = none := by
  obtain ⟨vs, -, h⟩ := Option.bind_eq_some_iff.mp h
  split at h
  · obtain ⟨p, hp, h⟩ := Option.bind_eq_some_iff.mp h
    obtain ⟨d, hd, h⟩ := Option.bind_eq_some_iff.mp h
    obtain ⟨name, -, h⟩ := Option.bind_eq_some_iff.mp h
    obtain ⟨port, hport, h⟩ := Option.bind_eq_some_iff.mp h
    obtain ⟨lease, hlease, h⟩ := Option.bind_eq_some_iff.mp h
    obtain ⟨items, -, h⟩ := Option.bind_eq_some_iff.mp h
    obtain ⟨endpoints, hall, h⟩ := Option.bind_eq_some_iff.mp h
    obtain rfl := Option.some.inj h
    refine ⟨⟨lt_of_natBelow? hp, lt_of_natBelow? hd, lt_of_natBelow? hport, lt_of_natBelow? hlease,
      fun a ha => ?_⟩, rfl⟩
    obtain ⟨item, -, hitem⟩ := exists_of_mem_mapM hall ha
    exact Announcement.fits_of_ofJson? hitem
  · cases h

lemma fits_of_byeOfJson? (h : byeOfJson? j = some m) : m.Fits ∧ m.payload? = none := by
  obtain ⟨vs, -, h⟩ := Option.bind_eq_some_iff.mp h
  split at h
  · obtain ⟨p, hp, h⟩ := Option.bind_eq_some_iff.mp h
    obtain rfl := Option.some.inj h
    exact ⟨lt_of_natBelow? hp, rfl⟩
  · cases h

lemma fits_of_ackNackOfJson? (h : ackNackOfJson? j = some m) : m.Fits ∧ m.payload? = none := by
  obtain ⟨vs, -, h⟩ := Option.bind_eq_some_iff.mp h
  split at h
  · obtain ⟨r, hr, h⟩ := Option.bind_eq_some_iff.mp h
    obtain ⟨w, hw, h⟩ := Option.bind_eq_some_iff.mp h
    obtain ⟨n, hn, h⟩ := Option.bind_eq_some_iff.mp h
    obtain rfl := Option.some.inj h
    exact ⟨⟨Guid.fits_of_ofJson? hr, Guid.fits_of_ofJson? hw, lt_of_natBelow? hn⟩, rfl⟩
  · cases h

/-- The payload stands in the change, which stands in the record. -/
lemma fits_of_dataOfJson? {n : Nat} (h : dataOfJson? j = some m)
    (hj : ∀ v ∈ j.parts, v.scalars Json.fits = true ∧ v.depth < n) :
    m.Fits ∧ ∀ p, m.payload? = some p → p ≠ .null ∧ p.depth + 2 ≤ n := by
  obtain ⟨vs, hvs, h⟩ := Option.bind_eq_some_iff.mp h
  split at h
  · next _ _ _ v =>
    obtain ⟨w, hw, h⟩ := Option.bind_eq_some_iff.mp h
    obtain ⟨r, hr, h⟩ := Option.bind_eq_some_iff.mp h
    obtain ⟨k, hk, h⟩ := Option.bind_eq_some_iff.mp h
    obtain ⟨c, hc, h⟩ := Option.bind_eq_some_iff.mp h
    obtain rfl := Option.some.inj h
    obtain ⟨hscalars, hdepth⟩ := hj v (mem_parts_of_fields? hvs (by simp))
    obtain ⟨hfits, hpayload⟩ := Change.fits_of_ofJson? hc hscalars
    refine ⟨⟨Guid.fits_of_ofJson? hw, Guid.fits_of_ofJson? hr, lt_of_natBelow? hk, hfits⟩,
      fun p hp => ⟨(hpayload p hp).1, ?_⟩⟩
    have hlt := (hpayload p hp).2
    omega
  · cases h

/-- **What is read of a message**: its numbers fit, and its payload is not null and nests two
levels less deep than the whole. -/
lemma fits_of_ofJson? (h : ofJson? j = some m) (hj : j.scalars Json.fits = true) :
    m.Fits ∧ ∀ p, m.payload? = some p → p ≠ .null ∧ p.depth + 2 ≤ j.depth := by
  obtain ⟨⟨tag, rest⟩, htag, h⟩ := Option.bind_eq_some_iff.mp h
  have hrest : ∀ v ∈ rest.parts, v.scalars Json.fits = true ∧ v.depth < j.depth := by
    intro v hv
    have hpart := mem_parts_of_untag? htag hv
    exact ⟨scalars_of_mem_parts hj hpart, depth_lt_of_mem_parts hpart⟩
  have hnone : m.Fits ∧ m.payload? = none →
      m.Fits ∧ ∀ p, m.payload? = some p → p ≠ .null ∧ p.depth + 2 ≤ j.depth := by
    rintro ⟨hfits, hp⟩
    exact ⟨hfits, fun p hp' => absurd (hp.symm.trans hp') (by simp)⟩
  dsimp only at h
  split_ifs at h
  · exact hnone (fits_of_announceOfJson? h)
  · exact hnone (fits_of_byeOfJson? h)
  · exact fits_of_dataOfJson? h hrest
  · exact hnone (fits_of_ackNackOfJson? h)

/-- A message without a payload of null arrives as it is. -/
lemma arrived_of_ne_null (h : ∀ p, m.payload? = some p → p ≠ .null) : m.arrived = m := by
  cases m with
  | data w r n c =>
    refine congrArg (data w r n) ?_
    unfold Change.arrived
    split
    · next hnull => exact absurd rfl (h _ hnull)
    · rfl
  | _ => rfl

end Message

end PubSub
