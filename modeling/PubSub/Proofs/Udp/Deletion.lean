import PubSub.Proofs.Endpoint.Deletion
import PubSub.Proofs.Udp.Roster

/-!
A participant on the network is deleted: its endpoints are closed one after another, and each time
it announces those that are left, nothing in the end. It forgets nobody by that itself; any other
participant that takes its last announcement in forgets its endpoints, and only those.
-/

namespace PubSub.Udp

namespace Node

variable {n : Node} {w r : Guid}

/-! ### The participant itself -/

/-- Closing changes nothing of an endpoint but whether it is open. -/
lemma closed_close (n : Node) (g : Guid) :
    (∀ w, ((n.close g).1.endpoints.writer? w).map Writer.closed =
      (n.endpoints.writer? w).map Writer.closed) ∧
    ∀ r, ((n.close g).1.endpoints.reader? r).map Reader.closed =
      (n.endpoints.reader? r).map Reader.closed := by
  unfold close
  split_ifs
  · refine ⟨fun w => ?_, fun r => ?_⟩
    · simp only [announced, endpoints, adjustReader, get?_adjustWriter]
      split_ifs
      · cases n.writers.get? w <;> rfl
      · rfl
    · simp only [announced, endpoints, get?_adjustReader]
      split_ifs
      · cases hy : n.readers.get? r <;> simp [adjustWriter, hy, Reader.closed]
      · rfl
  · exact ⟨fun _ => rfl, fun _ => rfl⟩

/-- **Endpoints that are deleted keep everything that they have**, their peers too. -/
theorem endpoints_delete (n : Node) :
    (∀ w, n.delete.1.endpoints.writer? w = (n.endpoints.writer? w).map Writer.closed) ∧
    ∀ r, n.delete.1.endpoints.reader? r = (n.endpoints.reader? r).map Reader.closed := by
  obtain ⟨hwriters, hreaders⟩ := delete_of_close (n := n)
    (P := fun m _ =>
      (∀ w, (m.endpoints.writer? w).map Writer.closed =
        (n.endpoints.writer? w).map Writer.closed) ∧
      ∀ r, (m.endpoints.reader? r).map Reader.closed =
        (n.endpoints.reader? r).map Reader.closed)
    ⟨fun _ => rfl, fun _ => rfl⟩ fun m _ g h =>
      ⟨fun w => ((m.closed_close g).1 w).trans (h.1 w),
        fun r => ((m.closed_close g).2 r).trans (h.2 r)⟩
  refine ⟨fun w => ?_, fun r => ?_⟩
  · rw [← hwriters]
    cases hx : n.delete.1.writers.get? w with
    | none => simp [endpoints, hx]
    | some x =>
      have hnot : x.writer.isOpen = false :=
        n.allClosed_delete .writer w x.face (by simp [face?, hx])
      simp [endpoints, hx, Writer.closed_of_closed hnot]
  · rw [← hreaders]
    cases hy : n.delete.1.readers.get? r with
    | none => simp [endpoints, hy]
    | some y =>
      have hnot : y.reader.isOpen = false :=
        n.allClosed_delete .reader r y.face (by simp [face?, hy])
      simp [endpoints, hy, Reader.closed_of_closed hnot]

/-- **A deletion leaves its participant with matches, unless it had none before.** -/
theorem idle_delete_iff (n : Node) (p : Nat) :
    n.delete.1.endpoints.Idle p ↔ n.endpoints.Idle p := by
  obtain ⟨hwriters, hreaders⟩ := n.endpoints_delete
  constructor
  · refine fun h => ⟨fun w x hw hx => h.writer w x.closed hw ?_, fun r y hr hy =>
      h.reader r y.closed hr ?_⟩
    · rw [hwriters, hx, Option.map_some]
    · rw [hreaders, hy, Option.map_some]
  · refine fun h => ⟨fun w x' hw hx' => ?_, fun r y' hr hy' => ?_⟩
    · obtain ⟨x, hx, rfl⟩ := Option.map_eq_some_iff.mp ((hwriters w).symm.trans hx')
      exact h.writer w x hw hx
    · obtain ⟨y, hy, rfl⟩ := Option.map_eq_some_iff.mp ((hreaders r).symm.trans hy')
      exact h.reader r y hr hy

/-! ### What it says -/

/-- Whoever has something open announces it. -/
lemma announcements_ne_nil_of_isOpen {g : Guid} (h : n.isOpen g = true) : n.announcements ≠ [] := by
  rcases Bool.or_eq_true_iff.mp h with ho | ho
  · obtain ⟨x, hx, ho⟩ := (Option.any_eq_true _ _).mp ho
    have hmem : x ∈ n.openWriters :=
      List.mem_filter.mpr ⟨List.mem_map_of_mem (Table.mem_of_get? hx), ho⟩
    exact List.append_ne_nil_of_left_ne_nil (List.ne_nil_of_mem (List.mem_map_of_mem hmem)) _
  · obtain ⟨y, hy, ho⟩ := (Option.any_eq_true _ _).mp ho
    have hmem : y ∈ n.openReaders :=
      List.mem_filter.mpr ⟨List.mem_map_of_mem (Table.mem_of_get? hy), ho⟩
    exact List.append_ne_nil_of_right_ne_nil _ (List.ne_nil_of_mem (List.mem_map_of_mem hmem))

lemma announcements_of_allClosed (h : n.Registered) (hc : n.AllClosed) : n.announcements = [] := by
  refine List.eq_nil_iff_forall_not_mem.mpr fun a ha => ?_
  obtain ⟨f, hf, -⟩ := Option.map_eq_some_iff.mp (h.mem_announcements.mp ha)
  obtain ⟨hf, ho⟩ := Option.filter_eq_some_iff.mp hf
  exact absurd (ho.symm.trans (hc _ _ f hf)) (by simp)

/-- The last that is said in a deletion is what is left in the end; where nothing was open, nothing
is said. -/
lemma getLast?_delete (hnone : n.delete.1.announcements = []) :
    n.delete.2.getLast? =
      if n.announcements = [] then none else some (.group n.delete.1.announcement) := by
  have hlast := delete_of_close (n := n)
    (P := fun m out => out = [] ∧ m.announcements = n.announcements ∨
      out.getLast? = some (.group m.announcement) ∧ n.announcements ≠ [])
    (.inl ⟨rfl, rfl⟩) fun m out g h => by
      unfold close
      split_ifs with ho
      · refine .inr ⟨List.getLast?_concat, ?_⟩
        rcases h with ⟨-, hsame⟩ | ⟨-, hne⟩
        · exact hsame ▸ announcements_ne_nil_of_isOpen ho
        · exact hne
      · rwa [List.append_nil]
  rcases hlast with ⟨hnothing, hsame⟩ | ⟨hlast, hne⟩
  · rw [hnothing, if_pos (hsame.symm.trans hnone), List.getLast?_nil]
  · rw [hlast, if_neg hne]

/-! ### Whoever hears it -/

/-- What stands as an endpoint of the participant is what it has announced itself. -/
def Vouched (id domain : Nat) (es : List Happening) : Prop :=
  ∀ s x, standing domain es s = some x → ∀ a ∈ x.endpoints, (a.guid.participant = id ↔ s = id)

lemma noted_of_announces {domain p : Nat} {x : Notice} {e : Happening}
    (h : Announces domain p x e) (k : Nat → Option Notice) :
    noted domain k e = Function.update k p (some x) := by
  obtain ⟨source, name, port, millis, hlease, rfl⟩ := h
  rw [noted, if_pos rfl, ← hlease]

section Peer

variable {id q domain : Nat} {es : List Happening} {e : Happening} {x : Notice}

/-- Once a participant has announced that it has nothing, nothing is announced as its own. -/
lemma announced_concat_of_none (hes : Vouched id domain es) (he : Announces domain id x e)
    (hx : x.endpoints = []) {kind : EndpointKind} {topic typeName : String} {a : Announcement} :
    Announced q domain (es ++ [e]) kind topic typeName a ↔
      Announced q domain es kind topic typeName a ∧ a.guid.participant ≠ id := by
  simp only [Announced, standing_concat, noted_of_announces he, Function.update_apply]
  constructor
  · rintro ⟨s, x', hs, hx', ha, hrest⟩
    split_ifs at hx' with hid
    · obtain rfl := Option.some.inj hx'
      rw [hx] at ha
      cases ha
    · exact ⟨⟨s, x', hs, hx', ha, hrest⟩, fun hown => hid ((hes s x' hx' a ha).mp hown)⟩
  · rintro ⟨⟨s, x', hs, hx', ha, hrest⟩, hown⟩
    have hid : s ≠ id := fun hid => hown ((hes s x' hx' a ha).mpr hid)
    exact ⟨s, x', hs, (if_neg hid).trans hx', ha, hrest⟩

/-- Announcements open and close nothing at whoever hears them. -/
lemma advert?_happen_of_announces (h : n.Exact) (he : Announces domain id x e)
    (kind : EndpointKind) (g : Guid) : (n.happen e).advert? kind g = n.advert? kind g := by
  obtain ⟨source, name, port, millis, -, rfl⟩ := he
  exact (Calm.arrive h _ _ _).advert kind g

variable (q domain) (name : String) (port : Nat) (t : Timing)

/-- An open endpoint loses those of that participant and nothing else. -/
lemma peers_after_none (hes : Vouched id domain es) (he : Announces domain id x e)
    (hx : x.endpoints = []) (kind : EndpointKind) (g : Guid) {f f' : Face}
    (hf : ((Node.new q domain name port t).after es).face? kind g = some f)
    (hf' : ((Node.new q domain name port t).after (es ++ [e])).face? kind g = some f')
    (ho : f.isOpen = true) (ho' : f'.isOpen = true) :
    (∀ r, r ∈ f'.peers ↔ r ∈ f.peers ∧ r.participant ≠ id) ∧
      {r | r ∈ f'.peers}.encard = f'.current := by
  have hpeers := fun r => mem_peers_after q domain name port t _ (r := r) hf' ho'
  have hsame : f'.announcement kind g = f.announcement kind g := by
    have hadvert := advert?_happen_of_announces
      (abreast_after q domain name port t es).exact he kind g
    rw [← after_concat, advert?, advert?, hf, hf', Option.filter_some, Option.filter_some,
      if_pos ho, if_pos ho'] at hadvert
    exact Option.some.inj hadvert
  have htopic : f'.topic = f.topic := congrArg Announcement.topic hsame
  have htype : f'.typeName = f.typeName := congrArg Announcement.typeName hsame
  have hqos : f'.qos = f.qos := congrArg Announcement.qos hsame
  refine ⟨fun r => ?_, ?_⟩
  · rw [hpeers, mem_peers_after q domain name port t es hf ho]
    simp only [candidatesOf, Set.mem_ofPred_eq, announced_concat_of_none hes he hx, htopic, htype,
      hqos]
    constructor
    · rintro ⟨a, ⟨ha, hown⟩, rfl, hfit⟩
      exact ⟨⟨a, ha, rfl, hfit⟩, hown⟩
    · rintro ⟨⟨a, ha, rfl, hfit⟩, hown⟩
      exact ⟨a, ⟨ha, hown⟩, rfl, hfit⟩
  · rw [← encard_candidates q domain name port t _ hf' ho']
    exact congrArg Set.encard (Set.ext hpeers)

lemma isSome_openWriter? (n : Node) (w : Guid) :
    (n.endpoints.openWriter? w).isSome = (n.advert? .writer w).isSome := by
  simp only [Endpoints.openWriter?, endpoints, advert?, face?]
  cases n.writers.get? w with
  | none => rfl
  | some x => cases ho : x.writer.isOpen <;> simp [Option.filter, LinkedWriter.face, ho]

lemma isSome_openReader? (n : Node) (r : Guid) :
    (n.endpoints.openReader? r).isSome = (n.advert? .reader r).isSome := by
  simp only [Endpoints.openReader?, endpoints, advert?, face?]
  cases n.readers.get? r with
  | none => rfl
  | some y => cases ho : y.reader.isOpen <;> simp [Option.filter, LinkedReader.face, faceOf, ho]

/-- **Whoever hears that a participant has nothing loses its endpoints, and nobody else.** -/
theorem loses_after_none (hes : Vouched id domain es) (he : Announces domain id x e)
    (hx : x.endpoints = []) :
    ((Node.new q domain name port t).after es).endpoints.Loses id
      ((Node.new q domain name port t).after (es ++ [e])).endpoints := by
  have h := abreast_after q domain name port t es
  have h' := abreast_after q domain name port t (es ++ [e])
  have hadvert := fun kind g => advert?_happen_of_announces h.exact he kind g
  simp only [← after_concat] at hadvert
  refine ⟨fun w _ => rel_of_isSome ?_ fun z z' hz hz' => ?_,
    fun r _ => rel_of_isSome ?_ fun z z' hz hz' => ?_⟩
  · rw [isSome_openWriter?, isSome_openWriter?, hadvert]
  · -- the writers, whose peers are what is announced
    obtain ⟨hz, ho⟩ := Option.filter_eq_some_iff.mp hz
    obtain ⟨hz', ho'⟩ := Option.filter_eq_some_iff.mp hz'
    obtain ⟨x, hget, rfl⟩ := Option.map_eq_some_iff.mp hz
    obtain ⟨x', hget', rfl⟩ := Option.map_eq_some_iff.mp hz'
    obtain ⟨hlost, hcount⟩ := peers_after_none q domain name port t hes he hx
      .writer w (congrArg (Option.map LinkedWriter.face) hget)
      (congrArg (Option.map LinkedWriter.face) hget') ho ho'
    simp only [← h.wf.isMatched_iff hget, ← h'.wf.isMatched_iff hget'] at hlost hcount
    exact ⟨hlost, hcount⟩
  · rw [isSome_openReader?, isSome_openReader?, hadvert]
  · -- and the readers
    obtain ⟨hz, ho⟩ := Option.filter_eq_some_iff.mp hz
    obtain ⟨hz', ho'⟩ := Option.filter_eq_some_iff.mp hz'
    obtain ⟨y, hget, rfl⟩ := Option.map_eq_some_iff.mp hz
    obtain ⟨y', hget', rfl⟩ := Option.map_eq_some_iff.mp hz'
    obtain ⟨hlost, hcount⟩ := peers_after_none q domain name port t hes he hx
      .reader r (congrArg (Option.map LinkedReader.face) hget)
      (congrArg (Option.map LinkedReader.face) hget') ho ho'
    have hhas : ∀ {y : LinkedReader} {w}, w ∈ y.face.peers ↔ y.reader.cache.hasWriter w = true :=
      Table.has_iff_mem_keys.symm
    simp only [hhas] at hlost hcount
    exact ⟨hlost, hcount⟩

end Peer

end Node

end PubSub.Udp
