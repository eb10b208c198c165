import PubSub.Proofs.Endpoint.Step
import PubSub.Proofs.Udp.Discovery

/-!
What happens at a participant, seen from one of its endpoints at a time: whatever it is, every
endpoint goes from step to step.
-/

namespace PubSub.Udp

def Happening.look? : Happening → Option (EndpointKind × Guid × Look)
  | .act (.lookWriter w l) => some (.writer, w, l)
  | .act (.lookReader r l) => some (.reader, r, l)
  | _ => none

def Happening.touch? :
    Happening → Option (EndpointKind × Guid × (StatusCondition → StatusCondition))
  | .act (.lookWriter w (.condition f)) => some (.writer, w, f)
  | .act (.lookReader r (.condition f)) => some (.reader, r, f)
  | _ => none

namespace Node

def endpoints (n : Node) : Endpoints :=
  ⟨fun g => (n.writers.get? g).map (·.writer), fun g => (n.readers.get? g).map (·.reader)⟩

/-- Every writer knows one address for each reader that it has. -/
structure Filed (n : Node) : Prop where
  tidy : ∀ w x, n.writers.get? w = some x → x.Tidy
  distinct : ∀ w x, n.writers.get? w = some x → x.addresses.Distinct

variable {P : Looks} {n n' : Node} {w r : Guid}
  {x : LinkedWriter} {y : LinkedReader}

/-! ### One endpoint at a time -/

lemma evolves_adjustWriter {f : LinkedWriter → LinkedWriter}
    (hf : ∀ x, n.writers.get? w = some x → x.writer.Moves (P .writer w) (f x).writer) :
    Evolves P n.endpoints (n.adjustWriter w f).endpoints := by
  refine .of_writer (g := w) rfl (fun w' hw => ?_) ?_
  · simp only [endpoints, get?_adjustWriter, if_neg hw]
  · simp only [endpoints, get?_adjustWriter, if_true]
    cases hx : n.writers.get? w with
    | none => exact .absent
    | some x => exact .kept (hf x hx)

lemma evolves_adjustReader {f : LinkedReader → LinkedReader}
    (hf : ∀ y, n.readers.get? r = some y → y.reader.Moves (P .reader r) (f y).reader) :
    Evolves P n.endpoints (n.adjustReader r f).endpoints := by
  refine .of_reader (g := r) rfl (fun r' hr => ?_) ?_
  · simp only [endpoints, get?_adjustReader, if_neg hr]
  · simp only [endpoints, get?_adjustReader, if_true]
    cases hy : n.readers.get? r with
    | none => exact .absent
    | some y => exact .kept (hf y hy)

lemma looked_writer (n : Node) (w : Guid) (l : Look) :
    (n.perform (.lookWriter w l)).1.endpoints.writer? w = (n.endpoints.writer? w).map l.writer := by
  simp only [endpoints, perform, get?_adjustWriter, if_true, Option.map_map]
  rfl

lemma looked_reader (n : Node) (r : Guid) (l : Look) :
    (n.perform (.lookReader r l)).1.endpoints.reader? r = (n.endpoints.reader? r).map l.reader := by
  simp only [endpoints, perform, get?_adjustReader, if_true, Option.map_map]
  rfl

/-! ### Reconciliation -/

lemma moves_foldl_refuse {P : Look → Prop} (x : LinkedWriter)
    (cs : List Candidate) : x.writer.Moves P (cs.foldl LinkedWriter.refuse x).writer := by
  induction cs generalizing x with
  | nil => exact .refl
  | cons c cs ih =>
    refine Relation.ReflTransGen.trans ?_ (ih (x.refuse c))
    unfold LinkedWriter.refuse
    split
    · split_ifs
      · exact .refl
      · exact .single (.refused _)
    · exact .refl

lemma moves_foldl_refuse_reader {P : Look → Prop} (y : LinkedReader)
    (cs : List Candidate) :
    y.reader.Moves P (cs.foldl LinkedReader.refuse y).reader := by
  induction cs generalizing y with
  | nil => exact .refl
  | cons c cs ih =>
    refine Relation.ReflTransGen.trans ?_ (ih (y.refuse c))
    unfold LinkedReader.refuse
    split
    · split_ifs
      · exact .refl
      · exact .single (.refused _)
    · exact .refl

lemma evolves_reconciled (h : n.Filed) : Evolves P n.endpoints n.reconciled.endpoints := by
  constructor
  · intro w
    simp only [endpoints, get?_reconciled, Option.map_map]
    cases hx : n.writers.get? w with
    | none => exact .absent
    | some x =>
      refine .kept ?_
      simp only [Function.comp_apply]
      split_ifs
      · obtain ⟨hhistory, haddresses, -⟩ := x.foldl_refuse
          (n.candidates .reader x.writer.key.topic x.writer.type.name)
        have htidy := h.tidy w x hx
        refine (moves_foldl_refuse x _).tail (.synced _ _ _ ⟨?_, fun r => ?_⟩ ?_)
        · exact hhistory ▸ htidy.history
        · rw [hhistory, haddresses]
          exact htidy.addresses r
        · exact haddresses ▸ h.distinct w x hx
      · exact .refl
  · intro r
    simp only [endpoints, get?_reconciled_reader, Option.map_map]
    cases n.readers.get? r with
    | none => exact .absent
    | some y =>
      refine .kept ?_
      simp only [Function.comp_apply]
      split_ifs
      · exact (moves_foldl_refuse_reader y _).tail (.synced _ _)
      · exact .refl

/-! ### Arrivals -/

lemma evolves_hear (h : n.Filed) (now host : Nat) (m : Message) :
    Evolves P n.endpoints (n.hear now host m).1.endpoints := by
  have hlearn : ∀ t : Table Nat Remote,
      Evolves P n.endpoints { n with remotes := t }.reconciled.endpoints := fun t =>
    evolves_reconciled (n := { n with remotes := t }) ⟨h.tidy, h.distinct⟩
  unfold hear
  split_ifs
  · exact .refl _
  · cases m with
    | announce p domain name port lease es =>
      simp only
      split_ifs
      · unfold hearAnnouncement
        simp only
        split_ifs
        · exact .of_eq rfl
        · exact hlearn _
      · exact .refl _
    | bye p => exact hlearn _
    | data w r number c => exact .refl _
    | ackNack r w acked => exact .refl _

lemma evolves_receive (n : Node) (source : Address) (m : Message) :
    Evolves P n.endpoints (n.receive source m).1.endpoints := by
  cases m with
  | announce p domain name port lease es => exact .refl _
  | bye p => exact .refl _
  | data w r number c =>
    simp only [receive]
    cases hy : n.readers.get? r with
    | none => exact .refl _
    | some y =>
      refine evolves_adjustReader fun y' hy' => ?_
      obtain rfl : y' = y := Option.some.inj (hy'.symm.trans hy)
      exact .single (.received w number c)
  | ackNack r w acked =>
    simp only [receive]
    cases hx : n.writers.get? w with
    | none => exact .refl _
    | some x =>
      simp only
      split_ifs
      · refine evolves_adjustWriter fun x' hx' => ?_
        obtain rfl : x' = x := Option.some.inj (hx'.symm.trans hx)
        exact .single (.acknowledged r acked)
      · exact .refl _

lemma evolves_arrive (h : n.Filed) (now : Nat) (source : Address) (d : Dispatch) :
    Evolves P n.endpoints (n.arrive now source d).1.endpoints := by
  unfold arrive
  split_ifs
  · cases d with
    | group m => exact evolves_hear h now source.host m
    | unicast a m => exact evolves_receive n source m
  · exact .refl _

/-! ### Acts -/

lemma evolves_addWriter (h : n.Filed) {x : Writer} (hx : Writer.Fresh x.guid x) :
    Evolves P n.endpoints (n.addWriter x).1.endpoints := by
  have hget := n.writers.get?_insertLast x.guid ⟨x, [], []⟩
  have hfiled : ({ n with writers := n.writers.insertLast x.guid ⟨x, [], []⟩ } : Node).Filed := by
    have hmem : ∀ w y, Table.get? (n.writers.insertLast x.guid ⟨x, [], []⟩) w = some y →
        n.writers.get? w = some y ∨ y = ⟨x, [], []⟩ := fun w y hy => by
      rw [hget] at hy
      split_ifs at hy
      · exact (Option.or_eq_some_iff.mp hy).imp (fun h => h) fun h => (Option.some.inj h.2).symm
      · exact .inl (by simpa using hy)
    obtain ⟨topic, type, q, -, hnew⟩ := hx
    refine ⟨fun w y hy => ?_, fun w y hy => ?_⟩
    · rcases hmem w y hy with hold | rfl
      · exact h.tidy w y hold
      · rw [hnew]
        exact LinkedWriter.tidy_new _ _ _ _
    · rcases hmem w y hy with hold | rfl
      · exact h.distinct w y hold
      · exact Table.distinct_nil
  have hadded : Evolves P n.endpoints
      ({ n with writers := n.writers.insertLast x.guid ⟨x, [], []⟩ } : Node).endpoints := by
    refine .of_writer (g := x.guid) rfl (fun w hw => ?_) ?_
    · simp only [endpoints, hget, if_neg hw, Option.or_none]
    · simp only [endpoints, hget, if_true, Option.map_or]
      exact .or (fun _ => .refl) hx _
  exact hadded.trans (evolves_reconciled hfiled)

lemma evolves_addReader (h : n.Filed) {y : Reader} (hy : Reader.Fresh y.guid y) :
    Evolves P n.endpoints (n.addReader y).1.endpoints := by
  have hget := n.readers.get?_insertLast y.guid ⟨y, []⟩
  have hadded : Evolves P n.endpoints
      ({ n with readers := n.readers.insertLast y.guid ⟨y, []⟩ } : Node).endpoints := by
    refine .of_reader (g := y.guid) rfl (fun r hr => ?_) ?_
    · simp only [endpoints, hget, if_neg hr, Option.or_none]
    · simp only [endpoints, hget, if_true, Option.map_or]
      exact .or (fun _ => .refl) hy _
  exact hadded.trans (evolves_reconciled ⟨h.tidy, h.distinct⟩)

lemma evolves_createEndpoint (h : n.Filed) {kind : EndpointKind} {e : Group} {t : Topic}
    {type : SampleType} {q : Qos} {acted : Node × List Dispatch} {g : Guid}
    (hok : n.createEndpoint kind e t type q = .ok (acted, g)) :
    Evolves P n.endpoints acted.1.endpoints := by
  obtain ⟨⟨p', g'⟩, hp, hok⟩ := bind_ok hok
  have hq := Participant.flaw?_of_createEndpoint hp
  cases kind with
  | writer =>
    obtain ⟨rfl, -⟩ := Prod.mk.inj (Except.ok.inj hok)
    exact evolves_addWriter (n := { n with participant := p' }) ⟨h.tidy, h.distinct⟩
      ⟨t.name, type, q, hq, rfl⟩
  | reader =>
    obtain ⟨rfl, -⟩ := Prod.mk.inj (Except.ok.inj hok)
    exact evolves_addReader (n := { n with participant := p' }) ⟨h.tidy, h.distinct⟩
      ⟨t.name, type, q, hq, rfl⟩

lemma evolves_submit (h : n.Wf) {s : Submission} {acted : Node × List Dispatch}
    (hok : n.submit w s = .ok acted) : Evolves P n.endpoints acted.1.endpoints := by
  obtain ⟨x, hx⟩ := get?_of_submit hok
  obtain ⟨-, rfl⟩ := submit_shipped hok hx
  refine evolves_adjustWriter fun x' hx' => ?_
  -- the writer that is put in place is the one that was looked up
  have hguid : x.writer.guid = w := (h.writer w x hx).1
  rw [Writer.guid, notePending_history] at hx'
  obtain rfl : x' = x := Option.some.inj (hx'.symm.trans ((congrArg _ hguid).trans hx))
  exact .single (.made _ _ _)

lemma evolves_close (n : Node) (g : Guid) : Evolves P n.endpoints (n.close g).1.endpoints := by
  unfold close
  split_ifs
  · exact (evolves_adjustWriter fun x _ => .single .closed).trans
      (evolves_adjustReader fun y _ => .single .closed)
  · exact .refl _

lemma evolves_delete (n : Node) : Evolves P n.endpoints n.delete.1.endpoints :=
  Evolves.foldl (v := fun s : Node × List Dispatch => s.1.endpoints)
    (n.writers.keys ++ n.readers.keys)
    ({ n with participant := { n.participant with deleted := true } }, [])
    fun s g => evolves_close s.1 g

lemma evolves_perform (h : n.Wf) (hf : n.Filed) (a : Act)
    (ha : ∀ k g l, Happening.look? (.act a) = some (k, g, l) → P k g l) :
    Evolves P n.endpoints (n.perform a).1.endpoints := by
  cases a with
  | createGroup kind =>
    simp only [perform]
    split
    · next hok =>
      obtain ⟨⟨p', g⟩, -, hok⟩ := bind_ok hok
      obtain ⟨rfl, -⟩ := Prod.mk.inj (Except.ok.inj hok)
      exact .of_eq rfl
    · exact .refl _
  | createEndpoint kind g t type q =>
    simp only [perform]
    split
    · next hok => exact evolves_createEndpoint hf hok
    · exact .refl _
  | submit w s =>
    simp only [perform]
    split
    · next hok => exact evolves_submit h hok
    · exact .refl _
  | lookWriter w l => exact evolves_adjustWriter fun x _ => .single (.looked l (ha _ _ l rfl))
  | lookReader r l => exact evolves_adjustReader fun y _ => .single (.looked l (ha _ _ l rfl))
  | close g => exact evolves_close n g
  | delete => exact evolves_delete n
  | leave =>
    simp only [perform, leave]
    split_ifs
    · exact evolves_delete n
    · exact .refl _
  | announce => exact .refl _
  | expire now =>
    simp only [perform]
    split_ifs
    · unfold expire
      split_ifs
      · -- who has fallen silent is dropped before the endpoints are brought in line
        exact evolves_reconciled
          (n := { n with remotes := n.remotes.filter fun e => !expired now e.2 })
          ⟨hf.tidy, hf.distinct⟩
      · exact .refl _
    · exact .refl _
  | retransmit => exact .refl _

/-- **Whatever happens at a participant, its endpoints go from step to step.** -/
theorem evolves_happen (h : n.Wf) (hf : n.Filed) (e : Happening)
    (he : ∀ k g l, e.look? = some (k, g, l) → P k g l) :
    Evolves P n.endpoints (n.happen e).endpoints := by
  cases e with
  | arrive now source d => exact evolves_arrive hf now source d
  | act a => exact evolves_perform h hf a he

end Node

end PubSub.Udp
