import Mathlib
import PubSub.Proofs.History.Instance
import PubSub.Proofs.Udp.Node
import PubSub.Proofs.Value
import PubSub.Proofs.Wire.RoundTrip

/-!
A value on its way from a writer to whoever takes it. Its payload is in canonical form and flat, so
a datagram that carries it is decoded as it was encoded. The cache that accepts it puts its sample
behind the others, and what is taken there is decoded as the value. The key tells the values of a
type apart exactly as the key field does.
-/

namespace PubSub

open Udp (Submission)

namespace ReaderCache

variable {key : InstanceKey} {r : ReaderCache} {w : Guid} {n : Nat} {c : Change} {q : WriterProxy}

/-- What stands behind the samples that give way stays where it is. -/
lemma evict_append {k : Nat} {ss : List (Sample Json)} (ts : List (Sample Json))
    (hk : k ≤ (ss.filter (validFor key)).length) :
    evict key k (ss ++ ts) = evict key k ss ++ ts := by
  fun_induction evict key k ss with
  | case1 ss => rw [evict]
  | case2 k => simp at hk
  | case3 k s ss hs ih =>
    rw [List.cons_append, evict, if_pos hs]
    exact ih (by simpa [List.filter_cons, hs] using hk)
  | case4 k s ss hs ih =>
    rw [List.cons_append, evict, if_neg hs, List.cons_append]
    exact congrArg (s :: ·) (ih (by simpa [List.filter_cons, hs] using hk))

/-- The sample of a change with data is the newest one, if the depth of the history allows any. -/
lemma unread_apply_alive (h : r.qos.history ≠ .keepLast 0) (hc : c.kind = .alive) (w : Guid) :
    ∃ older, (r.apply w c).unread = older ++ [sampleOf c] ∧ ∀ s ∈ older, s ∈ r.unread := by
  simp only [apply, hc]
  cases hd : r.qos.history with
  | keepAll => exact ⟨r.unread, rfl, fun s hs => hs⟩
  | keepLast n =>
    have hn : n ≠ 0 := fun hn => h (by rw [hd, hn])
    have hvalid : validFor c.key (sampleOf c) = true := by simp [sampleOf, hc, validFor]
    refine ⟨_, evict_append [sampleOf c] ?_, fun s hs => evict_subset hs⟩
    rw [List.filter_append, List.length_append, List.filter_cons_of_pos hvalid]
    simp only [List.filter_nil, List.length_singleton]
    omega

/-- A change with data that is taken in leaves its instance alive and its sample the newest one. -/
lemma receive_alive (hq : r.qos.history ≠ .keepLast 0) (hc : c.kind = .alive)
    (hw : r.writers.get? w = some q) (ht : q.Takes n) :
    (r.receive w n c).2.1 = .accepted ∧
      (r.receive w n c).1.instanceState c.key = some .alive ∧
      ∃ older, (r.receive w n c).1.unread = older ++ [sampleOf c] ∧ ∀ s ∈ older, s ∈ r.unread := by
  rw [receive_of_takes hw ht]
  refine ⟨rfl, ?_, unread_apply_alive hq hc w⟩
  rw [instanceState, instance_apply, if_pos rfl, record, hc]
  rfl

end ReaderCache

namespace Value

open Json

/-! ### The payload of a value -/

lemma canonical_payload (v : Value) : v.payload.canonical = v.payload := by
  cases v with
  | hello v => rfl
  | named v => rfl
  | nested v =>
    have hvalues : canonicalItems (v.inner.values.map .int) = v.inner.values.map .int := by
      rw [canonicalItems_eq_map, List.map_map]
      rfl
    simp only [payload, toJson, canonical, canonicalMembers, hvalues]
    rfl

lemma depth_payload_le (v : Value) : v.payload.depth ≤ 3 := by
  cases v with
  | hello v => exact (by decide : 1 ≤ 3)
  | named v => exact (by decide : 1 ≤ 3)
  | nested v =>
    have hvalues : (arr (v.inner.values.map .int)).depth ≤ 1 := depth_arr_le.mpr fun j hj => by
      obtain ⟨n, -, rfl⟩ := List.mem_map.mp hj
      exact Nat.le_refl 0
    refine depth_obj_le.mpr ?_
    simp only [List.forall_mem_cons]
    refine ⟨Nat.zero_le _, depth_obj_le.mpr ?_, List.forall_mem_nil _⟩
    simp only [List.forall_mem_cons]
    exact ⟨Nat.zero_le _, hvalues, List.forall_mem_nil _⟩

lemma payload_ne_null (v : Value) : v.payload ≠ .null := by
  cases v <;> exact Json.noConfusion

/-- The scalars of a payload are allowed if the numbers within the fields' widths are. -/
lemma scalars_payload {p : Json → Bool} (hp : Allows p)
    (hint : ∀ n : Int, -0x80000000 ≤ n → n < 0x80000000 → p (.int n) = true) {v : Value}
    (h : v.InRange) : v.payload.scalars p = true := by
  cases v with
  | hello v =>
    have hid : v.id < UInt64.size := Nat.lt_trans h (by decide)
    rw [payload, toJson, scalars_obj]
    simp only [List.forall_mem_cons]
    exact ⟨hp.nat _ hid, hp.str _, List.forall_mem_nil _⟩
  | named v =>
    have hvalue : v.value < UInt64.size := Nat.lt_trans h (by decide)
    rw [payload, toJson, scalars_obj]
    simp only [List.forall_mem_cons]
    exact ⟨hp.str _, hp.nat _ hvalue, List.forall_mem_nil _⟩
  | nested v =>
    have hvalues : (arr (v.inner.values.map .int)).scalars p = true := by
      refine scalars_arr.mpr fun j hj => ?_
      obtain ⟨n, hn, rfl⟩ := List.mem_map.mp hj
      exact hint n (h.2 n hn).1 (h.2 n hn).2
    have hinner : (obj [("label", .str v.inner.label),
        ("value_list", .arr (v.inner.values.map .int))]).scalars p = true := by
      rw [scalars_obj]
      simp only [List.forall_mem_cons]
      exact ⟨hp.str _, hvalues, List.forall_mem_nil _⟩
    rw [payload, toJson, scalars_obj]
    simp only [List.forall_mem_cons]
    exact ⟨hint _ h.1.1 h.1.2, hinner, List.forall_mem_nil _⟩

lemma fits_payload {v : Value} (h : v.InRange) : v.payload.scalars fits = true := by
  refine scalars_payload allows_fits (fun n hl hu => ?_) h
  have hsize : UInt64.size = 0x10000000000000000 := rfl
  rw [fits, Bool.and_eq_true, decide_eq_true_iff, decide_eq_true_iff]
  omega

lemma isExact_payload {v : Value} (h : v.InRange) : v.payload.scalars isExact = true :=
  scalars_payload allows_isExact (fun _ _ _ => rfl) h

/-! ### The datagram of a value -/

variable {v : Value} {w r : Guid} {number sequence : Nat}

lemma decode_data {t : String} (hv : v.InRange) (hw : w.Fits) (hr : r.Fits)
    (hn : number < UInt64.size) (hs : sequence < UInt64.size)
    (ht : Wire.encode (.data w r number ((Submission.sample v).change sequence)) = .ok t) :
    Wire.decode t.toUTF8 =
      .ok (some (.data w r number ((Submission.sample v).change sequence))) := by
  have hpayload : ∀ {j}, (Submission.sample v |>.change sequence).payload = some j →
      j = v.payload := fun h => (Option.some.inj h).symm
  have hfits : (Message.data w r number ((Submission.sample v).change sequence)).Fits :=
    ⟨hw, hr, hn, hs, fun j hj => hpayload hj ▸ ⟨v.canonical_payload, fits_payload hv⟩⟩
  have hexact : (Message.data w r number ((Submission.sample v).change sequence)).IsExact :=
    fun j hj => hpayload hj ▸ isExact_payload hv
  have hdepth : (Message.data w r number ((Submission.sample v).change sequence)).toJson.depth ≤
      maxDepth := by
    refine Nat.le_trans (Message.depth_toJson_le (n := 5) (Nat.le_refl 5) fun j hj => ?_)
      (by decide)
    exact hpayload hj ▸ Nat.add_le_add_right v.depth_payload_le 2
  have harrived := Message.arrived_of_ne_null
    (m := .data w r number ((Submission.sample v).change sequence))
    fun j hj => hpayload hj ▸ v.payload_ne_null
  rw [Wire.eq_text_of_encode ht, Wire.decode_text_eq hfits hexact, if_pos hdepth, harrived]

lemma decode_sampleOf (hv : v.InRange) (sequence : Nat) :
    (ReaderCache.sampleOf ((Submission.sample v).change sequence)).decode (ofPayload v.type) =
      .ok ⟨some v, true, .alive, v.key, v.key.handle, sequence⟩ := by
  have hread : ofPayload v.type v.payload = .ok v := ofPayload_payload hv
  simp only [ReaderCache.sampleOf, Submission.change, Sample.decode, hread]
  rfl

/-! ### Keys -/

lemma key_hello (a b : Hello) : (Value.hello a).key = (Value.hello b).key ↔ a.id = b.id :=
  Nat.repr_inj

lemma key_nested (a b : Nested) : (Value.nested a).key = (Value.nested b).key ↔ a.id = b.id :=
  ⟨fun h => Int.repr_injective h, fun h => congrArg toString h⟩

/-- **A value passes the whole stack unharmed.** A change with a value within range, whose datagram
is short enough to be sent, is decoded as it was encoded. A cache that knows the writer and may
keep samples at all takes it in under a number that is due: the instance is alive, the sample stands
behind those that stay, and whoever takes it decodes the value itself, as valid data of an instance
that is alive, with the key of the value, its handle and the number of the change. Values of one
type have one key exactly if their key fields are equal. -/
theorem passes_unharmed :
    (∀ (v : Value) (w r : Guid) (number sequence : Nat) (t : String), v.InRange → w.Fits → r.Fits →
      number < UInt64.size → sequence < UInt64.size →
      let c := (Submission.sample v).change sequence
      Wire.encode (.data w r number c) = .ok t →
      Wire.decode t.toUTF8 = .ok (some (.data w r number c)) ∧
        ∀ (cache : ReaderCache) (q : WriterProxy), cache.qos.history ≠ .keepLast 0 →
          cache.writers.get? w = some q → q.Takes number →
          (cache.receive w number c).2.1 = .accepted ∧
          (cache.receive w number c).1.instanceState v.key = some .alive ∧
          ∃ older s, (cache.receive w number c).1.unread = older ++ [s] ∧
            (∀ o ∈ older, o ∈ cache.unread) ∧
            (∀ max, older.length < max →
              ((cache.receive w number c).1.take max).2 = older ++ [s]) ∧
            s.decode (ofPayload v.type) =
              .ok ⟨some v, true, .alive, v.key, v.key.handle, sequence⟩) ∧
    (∀ a b : Hello, (Value.hello a).key = (Value.hello b).key ↔ a.id = b.id) ∧
    (∀ a b : Named, (Value.named a).key = (Value.named b).key ↔ a.name = b.name) ∧
    ∀ a b : Nested, (Value.nested a).key = (Value.nested b).key ↔ a.id = b.id := by
  refine ⟨?_, key_hello, fun a b => Iff.rfl, key_nested⟩
  intro v w r number sequence t hv hw hr hn hs c ht
  refine ⟨decode_data hv hw hr hn hs ht, fun cache q hq hmatched htakes => ?_⟩
  obtain ⟨haccepted, halive, older, hunread, holder⟩ :=
    ReaderCache.receive_alive (c := (Submission.sample v).change sequence) hq rfl hmatched htakes
  refine ⟨haccepted, halive, older, _, hunread, holder, fun max hmax => ?_,
    decode_sampleOf hv sequence⟩
  rw [ReaderCache.take, hunread, List.take_of_length_le]
  rw [List.length_append, List.length_singleton]
  exact hmax

/-- A record with numbers at the ends of their range and letters that have to be escaped. -/
def fringe : Value := .nested ⟨-2147483648, ⟨"\"\\\x07ä", [2147483647, -2147483648]⟩⟩

def occupied : ReaderCache :=
  (((ReaderCache.new .bestEffort).addWriter ⟨1, 2⟩ false).receive ⟨1, 2⟩ 1
    ((Submission.sample (.nested ⟨-2147483648, ⟨"", []⟩⟩)).change 6)).1

/-- The record arrives in the place of the older sample, and another number is another key. -/
theorem passes_unharmed_fringe :
    (∃ t, Wire.encode (.data ⟨1, 2⟩ ⟨3, 4⟩ 2 ((Submission.sample fringe).change 7)) = .ok t ∧
      Wire.decode t.toUTF8 =
        .ok (some (.data ⟨1, 2⟩ ⟨3, 4⟩ 2 ((Submission.sample fringe).change 7)))) ∧
    occupied.unread.length = 1 ∧
    (∃ s, (occupied.receive ⟨1, 2⟩ 2 ((Submission.sample fringe).change 7)).1.unread = [s] ∧
      s.decode (ofPayload .nested) =
        .ok ⟨some fringe, true, .alive, fringe.key, fringe.key.handle, 7⟩) ∧
    fringe.key ≠ (Value.nested ⟨2147483647, ⟨"", []⟩⟩).key := by
  have hencode := Wire.encode_of_le
    (m := .data ⟨1, 2⟩ ⟨3, 4⟩ 2 ((Submission.sample fringe).change 7))
    (by rw [Wire.size_data]; decide +kernel)
  obtain ⟨hdecode, hcache⟩ := passes_unharmed.1 fringe ⟨1, 2⟩ ⟨3, 4⟩ 2 7 _
    ⟨by decide, by decide⟩ ⟨by decide, by decide⟩ ⟨by decide, by decide⟩ (by decide) (by decide)
    hencode
  obtain ⟨-, -, older, s, hunread, -, -, hs⟩ :=
    hcache occupied ⟨false, 2⟩ (by decide) (by decide +kernel) (by decide)
  have hone : (occupied.receive ⟨1, 2⟩ 2 ((Submission.sample fringe).change 7)).1.unread.length =
      1 := by decide +kernel
  have holder : older = [] := by
    rw [hunread, List.length_append] at hone
    exact List.length_eq_zero_iff.mp (Nat.succ.inj hone)
  exact ⟨⟨_, hencode, hdecode⟩, by decide +kernel, ⟨s, by rw [hunread, holder]; rfl, hs⟩,
    fun h => absurd ((passes_unharmed.2.2.2 _ _).mp h) (by decide)⟩

end Value

end PubSub
