import PubSub.Proofs.Json.Record
import PubSub.Value

/-!
A value of a sample type is read back from the payload that it is carried as.
-/

namespace PubSub.Value

lemma fields?_two {a b : String} (h : a ≠ b) (u v : Json) :
    Json.fields? [a, b] (.obj [(a, u), (b, v)]) = some [some u, some v] :=
  Json.fields?_obj rfl (by simpa using h)

lemma labelledOfJson?_obj {l : Labelled}
    (h : ∀ n ∈ l.values, -0x80000000 ≤ n ∧ n < 0x80000000) :
    labelledOfJson? (.obj [("label", .str l.label), ("value_list", .arr (l.values.map .int))]) =
      some l := by
  have hint : ∀ n ∈ l.values, (int32? ∘ Json.int) n = some (id n) := fun n hn => by
    rw [Function.comp_apply, int32?, Json.intIn?, if_pos (h n hn), id]
  have hvalues : (l.values.map Json.int).mapM int32? = some l.values := by
    rw [List.mapM_map, Json.mapM_eq_some_map hint, List.map_id]
  rw [labelledOfJson?, fields?_two (by decide)]
  simp [Json.str?, Json.arr?, hvalues]

/-- **The payload of a value within range stands for that value.** -/
theorem ofPayload_payload {v : Value} (h : v.InRange) : ofPayload v.type v.payload = .ok v := by
  suffices hread : ofJson? v.type v.toJson = some v by rw [ofPayload, payload, hread]
  -- field by field: whatever unfolds the reading of a number counts down from its width
  cases v with
  | hello v =>
    rw [type, toJson, ofJson?, fields?_two (by decide), Option.bind_eq_bind, Option.bind_some]
    dsimp only
    rw [Json.natBelow?_ofNat h]
    rfl
  | named v =>
    rw [type, toJson, ofJson?, fields?_two (by decide), Option.bind_eq_bind, Option.bind_some]
    dsimp only
    rw [Json.natBelow?_ofNat h]
    rfl
  | nested v =>
    have hid : int32? (.int v.id) = some v.id := by rw [int32?, Json.intIn?, if_pos h.1]
    rw [type, toJson, ofJson?, fields?_two (by decide), Option.bind_eq_bind, Option.bind_some]
    dsimp only
    rw [hid, labelledOfJson?_obj h.2]
    rfl

end PubSub.Value
