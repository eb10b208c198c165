import Mathlib.Tactic.Lemma
import Mathlib.Tactic.SplitIfs
import PubSub.Proofs.Json.Reader
import PubSub.Proofs.Udp.Datagram
import PubSub.Proofs.Wire.Record

/-!
Datagrams there and back. What is encoded of a message is decoded as the message as it arrives,
unless its payload nests deeper than the reader goes. What has been decoded once is encoded and
decoded without loss.
-/

namespace PubSub

open Json

/-! ### The scalars of a written message -/

/-- All scalars of a message beside its payload. -/
structure Json.Allows (p : Json → Bool) : Prop where
  str : ∀ s, p (.str s) = true
  nat : ∀ n < UInt64.size, p (.ofNat n) = true
  null : p .null = true

lemma Json.allows_isExact : Allows isExact := ⟨fun _ => rfl, fun _ _ => rfl, rfl⟩

lemma Json.allows_fits : Allows Json.fits := by
  refine ⟨fun _ => rfl, fun n hn => ?_, rfl⟩
  rw [ofNat, Json.fits, Bool.and_eq_true, decide_eq_true_iff, decide_eq_true_iff]
  omega

variable {p : Json → Bool}

lemma Guid.scalars_toJson {g : Guid} (hp : Allows p) (h : g.Fits) :
    g.toJson.scalars p = true := by
  have hentity : g.entity < UInt64.size := Nat.lt_trans h.entity (by decide)
  rw [Guid.toJson, scalars_obj]
  simp only [List.forall_mem_cons]
  exact ⟨hp.nat _ h.participant, hp.nat _ hentity, List.forall_mem_nil _⟩

lemma Span.scalars_toJson {s : Span} (hp : Allows p) (h : s.Fits) :
    s.toJson.scalars p = true := by
  have hsub : s.subsec < UInt64.size := Nat.lt_trans (Nat.mod_lt _ (by decide)) (by decide)
  rw [Span.toJson, scalars_obj]
  simp only [List.forall_mem_cons]
  exact ⟨hp.nat _ h, hp.nat _ hsub, List.forall_mem_nil _⟩

lemma Qos.scalars_toJson {q : Qos} (hp : Allows p) (h : q.Fits) :
    q.toJson.scalars p = true := by
  have hr : (reliabilityJson q.reliability).scalars p = true := by
    cases q.reliability <;> exact hp.str _
  have hd : (durabilityJson q.durability).scalars p = true := by
    cases q.durability <;> exact hp.str _
  have hh : (historyJson q.history).scalars p = true := by
    cases hq : q.history with
    | keepLast n =>
      have hn : n < UInt64.size := Nat.lt_trans (h.history n hq) (by decide)
      rw [historyJson, scalars_obj]
      simp only [List.forall_mem_cons]
      exact ⟨hp.nat n hn, List.forall_mem_nil _⟩
    | keepAll => exact hp.str _
  rw [Qos.toJson, scalars_obj]
  simp only [List.forall_mem_cons]
  exact ⟨hr, Span.scalars_toJson hp h.maxBlocking, hd, hh, List.forall_mem_nil _⟩

lemma Announcement.scalars_toJson {a : Announcement} (hp : Allows p) (h : a.Fits) :
    a.toJson.scalars p = true := by
  have hk : a.kind.toJson.scalars p = true := by cases a.kind <;> exact hp.str _
  rw [Announcement.toJson, scalars_obj]
  simp only [List.forall_mem_cons]
  exact ⟨Guid.scalars_toJson hp h.guid, hk, hp.str _, hp.str _, Qos.scalars_toJson hp h.qos,
    List.forall_mem_nil _⟩

lemma Change.scalars_toJson {c : Change} (hp : Allows p) (h : c.Fits)
    (hpayload : ∀ j, c.payload = some j → j.scalars p = true) : c.toJson.scalars p = true := by
  have hk : (kindJson c.kind).scalars p = true := by cases c.kind <;> exact hp.str _
  have ho : (ofOption id c.payload).scalars p = true := by
    cases hc : c.payload with
    | none => exact hp.null
    | some j => exact hpayload j hc
  rw [Change.toJson, scalars_obj]
  simp only [List.forall_mem_cons]
  exact ⟨hp.nat _ h.sequence, hp.str _, hk, ho, List.forall_mem_nil _⟩

/-- The scalars of a message are allowed if those of its payload are. -/
lemma Message.scalars_toJson {m : Message} (hp : Allows p) (h : m.Fits)
    (hpayload : ∀ j, m.payload? = some j → j.scalars p = true) : m.toJson.scalars p = true := by
  cases m with
  | announce i d name port lease endpoints =>
    obtain ⟨hi, hd, hport, hlease, hall⟩ := h
    have hdomain : d < UInt64.size := Nat.lt_trans hd (by decide)
    have hdata : port < UInt64.size := Nat.lt_trans hport (by decide)
    have hendpoints : (arr (endpoints.map Announcement.toJson)).scalars p = true := by
      refine scalars_arr.mpr fun j hj => ?_
      obtain ⟨a, ha, rfl⟩ := List.mem_map.mp hj
      exact Announcement.scalars_toJson hp (hall a ha)
    rw [toJson, scalars_obj]
    simp only [List.forall_mem_cons]
    exact ⟨hp.str _, hp.nat _ hi, hp.nat _ hdomain, hp.str _, hp.nat _ hdata, hp.nat _ hlease,
      hendpoints, List.forall_mem_nil _⟩
  | bye i =>
    rw [toJson, scalars_obj]
    simp only [List.forall_mem_cons]
    exact ⟨hp.str _, hp.nat _ h, List.forall_mem_nil _⟩
  | data w r n c =>
    obtain ⟨hw, hr, hn, hc⟩ := h
    rw [toJson, scalars_obj]
    simp only [List.forall_mem_cons]
    exact ⟨hp.str _, Guid.scalars_toJson hp hw, Guid.scalars_toJson hp hr, hp.nat _ hn,
      Change.scalars_toJson hp hc hpayload, List.forall_mem_nil _⟩
  | ackNack r w n =>
    obtain ⟨hr, hw, hn⟩ := h
    rw [toJson, scalars_obj]
    simp only [List.forall_mem_cons]
    exact ⟨hp.str _, Guid.scalars_toJson hp hr, Guid.scalars_toJson hp hw, hp.nat _ hn,
      List.forall_mem_nil _⟩

/-! ### How deep a written message nests -/

lemma Guid.depth_toJson (g : Guid) : g.toJson.depth = 1 := rfl

lemma Qos.depth_toJson (q : Qos) : q.toJson.depth = 2 := by
  obtain ⟨r, b, d, h⟩ := q
  cases r <;> cases d <;> cases h <;> rfl

lemma Announcement.depth_toJson (a : Announcement) : a.toJson.depth = 3 := by
  have hk : a.kind.toJson.depth = 0 := by cases a.kind <;> rfl
  simp [Announcement.toJson, Json.depth, depthMembers, hk, Guid.depth_toJson, Qos.depth_toJson]

lemma Change.depth_toJson (c : Change) :
    c.toJson.depth = (ofOption id c.payload).depth + 1 := by
  have hk : (kindJson c.kind).depth = 0 := by cases c.kind <;> rfl
  simp [Change.toJson, ofNat, Json.depth, depthMembers, hk]

lemma Message.depth_toJson_le {m : Message} {n : Nat} (hn : 5 ≤ n)
    (h : ∀ j, m.payload? = some j → j.depth + 2 ≤ n) : m.toJson.depth ≤ n := by
  cases m with
  | announce i d name port lease endpoints =>
    have hall : ∀ j ∈ endpoints.map Announcement.toJson, j.depth ≤ 3 := by
      intro j hj
      obtain ⟨a, -, rfl⟩ := List.mem_map.mp hj
      exact Nat.le_of_eq a.depth_toJson
    have hendpoints : (arr (endpoints.map Announcement.toJson)).depth ≤ 4 := depth_arr_le.mpr hall
    have hdepth : (announce i d name port lease endpoints).toJson.depth =
        (arr (endpoints.map Announcement.toJson)).depth + 1 := by
      simp [toJson, ofNat, Json.depth, depthMembers]
    omega
  | bye i => exact Nat.le_trans (by decide : 1 ≤ 5) hn
  | data w r k c =>
    have hdepth : (data w r k c).toJson.depth = (ofOption id c.payload).depth + 2 := by
      simp [toJson, ofNat, Json.depth, depthMembers, Guid.depth_toJson, Change.depth_toJson]
    rw [hdepth]
    cases hc : c.payload with
    | none => exact Nat.le_trans (by decide : 2 ≤ 5) hn
    | some j => exact h j hc
  | ackNack r w k => exact Nat.le_trans (by decide : 2 ≤ 5) hn

/-! ### The bytes of a datagram -/

lemma toList_loop (bs : ByteArray) (i : Nat) (r : List UInt8) :
    ByteArray.toList.loop bs i r = r.reverse ++ bs.data.toList.drop i := by
  fun_induction ByteArray.toList.loop bs i r with
  | case1 i r hlt ih =>
    have hlength : i < bs.data.toList.length := hlt
    have hget : bs.get! i = bs.data.toList[i] := getElem!_pos bs.data i hlt
    rw [ih, List.drop_eq_getElem_cons hlength, hget]
    simp
  | case2 i r hge =>
    have hlength : bs.data.toList.length ≤ i := Nat.le_of_not_lt hge
    simp [List.drop_eq_nil_of_le hlength]

lemma toList_eq_data (bs : ByteArray) : bs.toList = bs.data.toList := by
  rw [ByteArray.toList, toList_loop]
  rfl

namespace Wire

variable {m m' : Message} {t : String} {b b' : ByteArray}

/-- The bytes of a datagram begin with the letters that mark it, and are text. -/
lemma decode_text (m : Message) : decode (text m).toUTF8 = decodeText (text m).toList := by
  have hmagic : (magic.utf8Encode).data.toList = magic.map Char.toUInt8 := by decide
  have hbytes : (text m).toUTF8.toList =
      magic.map Char.toUInt8 ++ m.toJson.print.utf8Encode.data.toList := by
    rw [toList_eq_data, String.toUTF8_eq_toByteArray, text, String.toByteArray_ofList,
      List.utf8Encode_append, ByteArray.toList_data_append, hmagic]
  have htext : String.fromUTF8? (text m).toUTF8 = some (text m) := dif_pos (text m).isValidUTF8
  rw [decode, hbytes, List.take_left' (by decide), if_pos rfl, htext]

/-- What comes of the text of a message is told by how deep it nests. -/
lemma decode_text_eq (h : m.Fits) (hx : m.IsExact) :
    decode (text m).toUTF8 =
      if m.toJson.depth ≤ maxDepth then .ok (some m.arrived) else .error malformed := by
  have hexact := Message.scalars_toJson allows_isExact h hx
  have hfits := Message.scalars_toJson allows_fits h fun j hj => h.payload hj
  have hread : read? maxDepth m.toJson.print =
      if m.toJson.depth ≤ maxDepth then some m.toJson else none := read?_print hexact hfits
  have hlist : (text m).toList = magic ++ m.toJson.print := String.toList_ofList
  have hlength : magic.length = 4 := rfl
  rw [decode_text, decodeText, hlist, List.take_left' hlength, List.drop_left' hlength,
    if_pos rfl, hread]
  split_ifs
  · rw [Option.bind_some, Message.ofJson?_toJson h]
  · rfl

lemma encode_of_le (h : (text m).utf8ByteSize ≤ maxBytes) : encode m = .ok (text m) :=
  if_neg (Nat.not_lt.mpr h)

lemma eq_text_of_encode (h : encode m = .ok t) : t = text m := by
  unfold encode at h
  dsimp only at h
  split_ifs at h
  exact (Except.ok.inj h).symm

/-- What is decoded has been read from JSON. -/
lemma exists_of_decode (h : decode b = .ok (some m)) :
    ∃ cs j, read? maxDepth cs = some j ∧ Message.ofJson? j = some m := by
  unfold decode at h
  split_ifs at h
  · split at h
    · next s _ =>
      unfold decodeText at h
      split_ifs at h
      split at h
      · next m' hm =>
        obtain rfl := Option.some.inj (Except.ok.inj h)
        obtain ⟨j, hj, hm⟩ := Option.bind_eq_some_iff.mp hm
        exact ⟨_, j, hj, hm⟩
      · cases h
      · cases h
    · cases h
  · cases h

/-- A message that was decoded fits, holds no null as a payload and nests no deeper than allowed. -/
lemma fits_of_decode (h : decode b = .ok (some m)) :
    m.Fits ∧ m.arrived = m ∧ m.toJson.depth ≤ maxDepth := by
  obtain ⟨cs, j, hread, hj⟩ := exists_of_decode h
  obtain ⟨hdepth, hscalars⟩ := good_of_read? hread
  obtain ⟨hfits, hpayload⟩ := Message.fits_of_ofJson? hj hscalars
  refine ⟨hfits, Message.arrived_of_ne_null fun p hp => (hpayload p hp).1, ?_⟩
  exact Message.depth_toJson_le (by decide) fun p hp =>
    Nat.le_trans (hpayload p hp).2 hdepth

/-- A message that was decoded once is encoded and decoded without loss. -/
lemma decode_of_decode (h : decode b = .ok (some m)) (hx : m.IsExact) (ht : encode m = .ok t) :
    decode t.toUTF8 = .ok (some m) := by
  obtain ⟨hfits, harrived, hdepth⟩ := fits_of_decode h
  rw [eq_text_of_encode ht, decode_text_eq hfits hx, if_pos hdepth, harrived]

/-- **The codec loses nothing but a payload of null.** A message whose numbers fit and whose
payload holds no doubles is decoded from its datagram as it arrives if it nests as deep as the
reader goes, and is refused otherwise. A message that was decoded comes back as it is, and no two
such messages have one datagram. -/
theorem decode_encode :
    (∀ m t, m.Fits → m.IsExact → encode m = .ok t →
      decode t.toUTF8 =
        if m.toJson.depth ≤ maxDepth then .ok (some m.arrived) else .error malformed) ∧
    (∀ b m t, decode b = .ok (some m) → m.IsExact → encode m = .ok t →
      decode t.toUTF8 = .ok (some m)) ∧
    ∀ b b' m m' t, decode b = .ok (some m) → decode b' = .ok (some m') → m.IsExact → m'.IsExact →
      encode m = .ok t → encode m' = .ok t → m = m' := by
  refine ⟨fun m t h hx ht => ?_, fun b m t h hx ht => decode_of_decode h hx ht, ?_⟩
  · rw [eq_text_of_encode ht, decode_text_eq h hx]
  · intro b b' m m' t h h' hx hx' ht ht'
    have heq := (decode_of_decode h hx ht).symm.trans (decode_of_decode h' hx' ht')
    exact Option.some.inj (Except.ok.inj heq)

def nested : Nat → Json
  | 0 => .int (-9223372036854775808)
  | n + 1 => .arr [nested n]

lemma nested_plain (n : Nat) : (nested n).canonical = nested n ∧
    (nested n).scalars Json.fits = true ∧ (nested n).scalars Json.isExact = true := by
  induction n with
  | zero => exact ⟨rfl, by decide, rfl⟩
  | succ n ih => simp [nested, canonical, canonicalItems, scalars, scalarsItems, ih]

def sent (payload : Json) : Message := .data ⟨1, 2⟩ ⟨3, 4⟩ 5 ⟨6, "key", .alive, some payload⟩

lemma fits_sent {p : Json} (h : p.canonical = p) (hp : p.scalars Json.fits = true) :
    (sent p).Fits := by
  refine ⟨⟨by decide, by decide⟩, ⟨by decide, by decide⟩, by decide,
    ⟨(by decide : 6 < UInt64.size), ?_⟩⟩
  rintro q ⟨⟩
  exact ⟨h, hp⟩

lemma isExact_sent {p : Json} (h : p.scalars Json.isExact = true) : (sent p).IsExact := by
  rintro q ⟨⟩
  exact h

/-- A hundred and twenty-five arrays arrive in a change, and one more is refused. Null arrives as
no payload; of what can be decoded, only the change without a payload has that datagram. -/
theorem decode_encode_nested :
    (∃ t, encode (sent (nested 125)) = .ok t ∧
      decode t.toUTF8 = .ok (some (sent (nested 125)))) ∧
    (∃ t, encode (sent (nested 126)) = .ok t ∧ decode t.toUTF8 = .error malformed) ∧
    ∃ t m, encode (sent .null) = .ok t ∧ encode m = .ok t ∧ m.payload? = none ∧
      decode t.toUTF8 = .ok (some m) ∧
      ∀ b m', decode b = .ok (some m') → m'.IsExact → encode m' = .ok t → m' = m := by
  obtain ⟨hc, hf, hx⟩ := nested_plain 125
  obtain ⟨hc', hf', hx'⟩ := nested_plain 126
  have hencode := encode_of_le (m := sent (nested 125)) (by rw [sent, size_data]; decide +kernel)
  have hencode' := encode_of_le (m := sent (nested 126)) (by rw [sent, size_data]; decide +kernel)
  have hvoid := encode_of_le (m := sent .null) (by rw [sent, size_data]; decide +kernel)
  have hvoid' := encode_of_le (m := (sent .null).arrived) (by decide +kernel)
  have harrives := decode_encode.1 _ _ (fits_sent hc hf) (isExact_sent hx) hencode
  have hrefused := decode_encode.1 _ _ (fits_sent hc' hf') (isExact_sent hx') hencode'
  have hnone := decode_encode.1 _ _ (fits_sent (p := .null) rfl rfl) (isExact_sent rfl) hvoid
  rw [if_pos (by decide +kernel)] at harrives hnone
  rw [if_neg (by decide +kernel)] at hrefused
  have hagain := decode_encode.2.1 _ _ _ harrives (isExact_sent hx) hencode
  have hexact : (sent .null).arrived.IsExact := fun p hp => by cases hp
  exact ⟨⟨_, hencode, hagain⟩, ⟨_, hencode', hrefused⟩, _, _, hvoid, hvoid', rfl, hnone,
    fun b m' hm hx'' he => decode_encode.2.2 _ _ _ _ _ hm hnone hx'' hexact he hvoid'⟩

end Wire

end PubSub
