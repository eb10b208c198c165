import PubSub.Proofs.Udp.Matching

/-!
An endpoint as its peers show it: which ones it has, which ones it has refused, and how many of
each it counts. A writer and a reader are brought in line with what is announced in the same way,
one peer after another, and every count stays that of a set.
-/

namespace PubSub

def EndpointKind.counterpart : EndpointKind → EndpointKind
  | .writer => .reader
  | .reader => .writer

namespace Udp

/-- What keeps an endpoint of one kind from having a peer, if anything does. -/
def objection? (kind : EndpointKind) (own peer : Qos) : Option Policy :=
  match kind with
  | .writer => Qos.conflict? own peer
  | .reader => Qos.conflict? peer own

structure Face where
  topic : String
  typeName : String
  qos : Qos
  isOpen : Bool
  peers : List Guid
  current : Nat
  refused : List Guid
  refusals : Nat

def LinkedWriter.face (x : LinkedWriter) : Face :=
  ⟨x.writer.key.topic, x.writer.type.name, x.writer.qos, x.writer.isOpen, x.addresses.keys,
    x.writer.matched.current, x.refused, x.writer.incompatible.total⟩

/-- A reader does not keep the addresses of its writers; it has those that its cache has. -/
def faceOf (y : Reader) (refused : List Guid) : Face :=
  ⟨y.key.topic, y.type.name, y.qos, y.isOpen, y.cache.writers.keys, y.matched.current, refused,
    y.incompatible.total⟩

def LinkedReader.face (y : LinkedReader) : Face := faceOf y.reader y.refused

namespace Face

/-- No peer is there twice or was refused twice, and the counters say how many there are. -/
structure Counted (f : Face) : Prop where
  peers : f.peers.Nodup
  current : f.current = f.peers.length
  refused : f.refused.Nodup
  refusals : f.refusals = f.refused.length

structure Moved (f f' : Face) (P : Guid → Prop) : Prop where
  counted : f'.Counted
  peers : ∀ g, g ∈ f'.peers ↔ P g
  same : f' = { f with peers := f'.peers, current := f'.current }

variable {f f' f'' : Face} {P Q : Guid → Prop}

lemma Moved.trans (h : Moved f f' P) (h' : Moved f' f'' Q) : Moved f f'' Q := by
  refine ⟨h'.counted, h'.peers, ?_⟩
  rw [h'.same, h.same]

lemma Moved.congr (h : Moved f f' P) (hiff : ∀ g, P g ↔ Q g) : Moved f f' Q :=
  ⟨h.counted, fun g => (h.peers g).trans (hiff g), h.same⟩

lemma Counted.moved (h : f.Counted) : Moved f f (· ∈ f.peers) := ⟨h, fun _ => Iff.rfl, rfl⟩

section Table

variable {α : Type} {t : Table Guid α} {r : Guid}

lemma Counted.moved_erase (h : f.Counted) (ht : f.peers = t.keys) (hr : r ∈ f.peers) :
    Moved f { f with peers := (t.erase r).keys, current := f.current - 1 }
      fun g => g ≠ r ∧ g ∈ f.peers := by
  have hdistinct : t.keys.Nodup := ht ▸ h.peers
  have hlength := Table.Distinct.length_erase hdistinct (Table.has_iff_mem_keys.mpr (ht ▸ hr))
  have hcurrent : f.current = t.length :=
    (h.current.trans (congrArg _ ht)).trans (List.length_map _)
  refine ⟨⟨Table.Distinct.erase hdistinct r, ?_, h.refused, h.refusals⟩, fun g => ?_, rfl⟩
  · have hkeys : (t.erase r).keys.length = (t.erase r).length := List.length_map _
    simp only
    omega
  · simp only [Table.keys_erase, List.mem_filter, decide_eq_true_iff, ht]
    exact And.comm

lemma Counted.moved_insertNew (h : f.Counted) (ht : f.peers = t.keys) (hr : r ∉ f.peers) (a : α) :
    Moved f { f with peers := (t.insertNew Guid.before r a).keys, current := f.current + 1 }
      fun g => g = r ∨ g ∈ f.peers := by
  have hdistinct : t.keys.Nodup := ht ▸ h.peers
  have hnone : t.get? r = none := Table.get?_eq_none_iff.mpr (ht ▸ hr)
  have hperm := Table.keys_insertNew_perm Guid.before t r a
  refine ⟨⟨Table.Distinct.insertNew hdistinct Guid.before hnone a, ?_, h.refused, h.refusals⟩,
    fun g => ?_, rfl⟩
  · simp only [hperm.length_eq, List.length_cons, h.current, ht]
  · rw [hperm.mem_iff, List.mem_cons, ht]

end Table

section Exchange

variable {σ ρ ε : Type} {v : σ → Face} {t : σ → Guid → σ} {u : ρ → Face} {e : ρ → Guid × ε → ρ}

lemma moved_foldl_lost
    (ht : ∀ s g, (v s).Counted → g ∈ (v s).peers →
      Moved (v s) (v (t s g)) fun g' => g' ≠ g ∧ g' ∈ (v s).peers)
    {gs : List Guid} (hgs : gs.Nodup) {s : σ} (hs : (v s).Counted)
    (hin : ∀ g ∈ gs, g ∈ (v s).peers) :
    Moved (v s) (v (gs.foldl t s)) fun g => g ∉ gs ∧ g ∈ (v s).peers := by
  induction gs generalizing s with
  | nil => exact hs.moved.congr fun g => by simp
  | cons g gs ih =>
    obtain ⟨hnot, hnodup⟩ := List.nodup_cons.mp hgs
    have hfirst := ht s g hs (hin g List.mem_cons_self)
    have hrest := ih hnodup hfirst.counted fun g' hg' =>
      (hfirst.peers g').mpr ⟨fun heq => hnot (heq ▸ hg'), hin g' (List.mem_cons_of_mem _ hg')⟩
    refine (hfirst.trans hrest).congr fun g' => ?_
    rw [hfirst.peers, List.mem_cons, not_or]
    tauto

lemma moved_foldl_gained
    (he : ∀ s b, (u s).Counted → b.1 ∉ (u s).peers →
      Moved (u s) (u (e s b)) fun g => g = b.1 ∨ g ∈ (u s).peers)
    {bs : Table Guid ε} (hbs : bs.Distinct) {s : ρ} (hs : (u s).Counted)
    (hout : ∀ g ∈ bs.keys, g ∉ (u s).peers) :
    Moved (u s) (u (bs.foldl e s)) fun g => g ∈ bs.keys ∨ g ∈ (u s).peers := by
  induction bs generalizing s with
  | nil => exact hs.moved.congr fun g => by simp [Table.keys]
  | cons b bs ih =>
    obtain ⟨hnot, hdistinct⟩ := Table.distinct_cons.mp hbs
    have hfirst := he s b hs (hout b.1 List.mem_cons_self)
    have hrest := ih hdistinct hfirst.counted fun g hg hmem => by
      rcases (hfirst.peers g).mp hmem with rfl | hmem
      · exact hnot hg
      · exact hout g (List.mem_cons_of_mem _ hg) hmem
    refine (hfirst.trans hrest).congr fun g => ?_
    have hkeys : g ∈ Table.keys (b :: bs) ↔ g = b.1 ∨ g ∈ Table.keys bs := List.mem_cons
    rw [hfirst.peers, hkeys]
    tauto

/-- Once the peers that are not wanted have gone and the wanted ones that were missing have come,
exactly the wanted ones are there. -/
lemma moved_exchange
    (ht : ∀ s g, (v s).Counted → g ∈ (v s).peers →
      Moved (v s) (v (t s g)) fun g' => g' ≠ g ∧ g' ∈ (v s).peers)
    (he : ∀ s b, (u s).Counted → b.1 ∉ (u s).peers →
      Moved (u s) (u (e s b)) fun g => g = b.1 ∨ g ∈ (u s).peers)
    {wanted : Table Guid ε} (hw : wanted.Distinct) {s : σ} (hs : (v s).Counted)
    {has : Guid → Bool} (hhas : ∀ g, has g = true ↔ g ∈ (v s).peers) {z : ρ}
    (hz : u z = v (((v s).peers.filter (!wanted.has ·)).foldl t s)) :
    Moved (v s) (u ((wanted.filter (!has ·.1)).foldl e z)) fun g => wanted.has g = true := by
  have hlost := moved_foldl_lost ht (hs.peers.filter (!wanted.has ·)) hs
    fun g hg => (List.mem_filter.mp hg).1
  rw [← hz] at hlost
  have hmissing : ∀ g, g ∈ Table.keys (wanted.filter (!has ·.1)) ↔
      has g = false ∧ wanted.has g = true := by
    intro g
    rw [← Table.has_iff_mem_keys, Table.has, Table.get?_filter wanted (!has ·) g]
    cases has g <;> simp [Table.has]
  have hgained := moved_foldl_gained he (hw.filter (!has ·.1)) hlost.counted fun g hg hmem => by
    have hin := (hhas g).mpr ((hlost.peers g).mp hmem).2
    rw [((hmissing g).mp hg).1] at hin
    simp at hin
  refine (hlost.trans hgained).congr fun g => ?_
  rw [hlost.peers, hmissing, List.mem_filter, ← hhas]
  cases has g <;> cases wanted.has g <;> simp

end Exchange

/-! ### Refusals -/

def refuse (kind : EndpointKind) (f : Face) (a : Announcement) : Face :=
  if objection? kind f.qos a.qos ≠ none ∧ a.guid ∉ f.refused then
    { f with refused := a.guid :: f.refused, refusals := f.refusals + 1 }
  else f

structure Refused (f f' : Face) (P : Guid → Prop) : Prop where
  counted : f'.Counted
  refused : ∀ g, g ∈ f'.refused ↔ P g
  same : f' = { f with refused := f'.refused, refusals := f'.refusals }

lemma refused_refuse (h : f.Counted) (kind : EndpointKind) (a : Announcement) :
    Refused f (f.refuse kind a) fun g =>
      g ∈ f.refused ∨ a.guid = g ∧ objection? kind f.qos a.qos ≠ none := by
  unfold refuse
  split_ifs with hnew
  · refine ⟨⟨h.peers, h.current, List.nodup_cons.mpr ⟨hnew.2, h.refused⟩, ?_⟩, fun g => ?_, rfl⟩
    · simp [h.refusals]
    · simp only [List.mem_cons]
      constructor
      · rintro (rfl | hg)
        · exact .inr ⟨rfl, hnew.1⟩
        · exact .inl hg
      · rintro (hg | ⟨rfl, -⟩)
        · exact .inr hg
        · exact .inl rfl
  · refine ⟨h, fun g => ⟨.inl, ?_⟩, rfl⟩
    rintro (hg | ⟨rfl, hobject⟩)
    · exact hg
    · by_contra hnot
      exact hnew ⟨hobject, hnot⟩

/-- Whatever is announced and cannot be had is refused. -/
lemma refused_foldl (h : f.Counted) (kind : EndpointKind) (as : List Announcement) :
    Refused f (as.foldl (refuse kind) f) fun g =>
      g ∈ f.refused ∨ ∃ a ∈ as, a.guid = g ∧ objection? kind f.qos a.qos ≠ none := by
  induction as generalizing f with
  | nil => exact ⟨h, fun g => by simp, rfl⟩
  | cons a as ih =>
    have hfirst := refused_refuse h kind a
    have hrest := ih hfirst.counted
    have hqos : (f.refuse kind a).qos = f.qos := by rw [hfirst.same]
    refine ⟨hrest.counted, fun g => ?_, ?_⟩
    · rw [List.foldl_cons, hrest.refused, hfirst.refused, hqos, List.exists_mem_cons_iff, or_assoc]
    · rw [List.foldl_cons, hrest.same, hfirst.same]

/-! ### Being in line -/

/-- The endpoint has exactly those of the announced peers that it can have, and has refused the
others of them and whom it had refused before. -/
structure Aligned (kind : EndpointKind) (as : List Announcement) (f f' : Face) : Prop where
  counted : f'.Counted
  peers : ∀ g, g ∈ f'.peers ↔ ∃ a ∈ as, a.guid = g ∧ objection? kind f.qos a.qos = none
  refused : ∀ g, g ∈ f'.refused ↔
    g ∈ f.refused ∨ ∃ a ∈ as, a.guid = g ∧ objection? kind f.qos a.qos ≠ none
  same : f' = { f with
    peers := f'.peers, current := f'.current, refused := f'.refused, refusals := f'.refusals }

/-- First peers are refused, and then others come and go. -/
lemma Refused.aligned {kind : EndpointKind} {as : List Announcement}
    (h : Refused f f' fun g =>
      g ∈ f.refused ∨ ∃ a ∈ as, a.guid = g ∧ objection? kind f.qos a.qos ≠ none)
    (h' : Moved f' f'' fun g => ∃ a ∈ as, a.guid = g ∧ objection? kind f.qos a.qos = none) :
    Aligned kind as f f'' := by
  refine ⟨h'.counted, h'.peers, fun g => ?_, ?_⟩
  · rw [h'.same]
    exact h.refused g
  · rw [h'.same, h.same]

end Face

/-! ### Writers -/

namespace LinkedWriter

variable {x : LinkedWriter} {r : Guid}

lemma moved_drop (h : x.face.Counted) (hr : r ∈ x.face.peers) :
    Face.Moved x.face (x.drop r).face fun g => g ≠ r ∧ g ∈ x.face.peers := by
  have hdrop : (x.drop r).face = { x.face with
      peers := (x.addresses.erase r).keys, current := x.writer.matched.current - 1 } := by
    rw [← MatchedStatus.unmatched_current]
    rfl
  rw [hdrop]
  exact h.moved_erase rfl hr

lemma moved_gain (h : x.face.Counted) (hr : r ∉ x.face.peers) (a : Address) (q : Qos) :
    Face.Moved x.face (x.gain r a q).1.face fun g => g = r ∨ g ∈ x.face.peers := by
  have hput : x.addresses.put Guid.before r a = x.addresses.insertNew Guid.before r a := by
    rw [Table.put, Table.has_eq_false.mpr (Table.get?_eq_none_iff.mpr hr)]
    rfl
  have hqos : (x.gain r a q).1.writer.qos = x.writer.qos := WriterHistory.matchReader_qos r q
  have hgain : (x.gain r a q).1.face = { x.face with
      peers := (x.addresses.insertNew Guid.before r a).keys
      current := x.writer.matched.current + 1 } := by
    rw [← hput, face, hqos]
    rfl
  rw [hgain]
  exact h.moved_insertNew rfl hr a

/-- A writer has exactly the wanted readers once it has been brought in line with them. -/
lemma moved_sync (h : x.face.Counted) {wanted : WantedReaders} (hw : wanted.Distinct) :
    Face.Moved x.face (x.sync wanted).1.face fun g => wanted.has g = true := by
  have hsettle : (x.sync wanted).1.face = (x.synced wanted).1.face := by
    have hface : ∀ (z : LinkedWriter) (m : StatusMask),
        face { z with writer := settleStatus z.writer m } = z.face := by
      intro z m
      unfold settleStatus
      split_ifs <;> rfl
    exact hface _ _
  rw [hsettle]
  exact Face.moved_exchange (v := face) (t := drop) (u := fun s => face s.1) (e := gainNext)
    (z := ((x.stale wanted).foldl drop x, [])) (fun _ _ => moved_drop)
    (fun s b hs hb => moved_gain hs hb b.2.1 b.2.2) hw h (fun _ => Table.has_iff_mem_keys) rfl

lemma face_refuse (x : LinkedWriter) (c : Candidate) :
    (x.refuse c).face = x.face.refuse .writer c.endpoint := by
  have hqos : x.face.qos = x.writer.qos := rfl
  have hrefused : x.face.refused = x.refused := rfl
  unfold refuse Face.refuse objection?
  rw [hqos, hrefused]
  cases Qos.conflict? x.writer.qos c.endpoint.qos with
  | none => simp
  | some p =>
    by_cases hc : c.endpoint.guid ∈ x.refused
    · simp [hc]
    · simp [hc]
      rfl

lemma face_foldl_refuse (x : LinkedWriter) (cs : List Candidate) :
    (cs.foldl refuse x).face = (cs.map (·.endpoint)).foldl (Face.refuse .writer) x.face := by
  induction cs generalizing x with
  | nil => rfl
  | cons c cs ih => rw [List.foldl_cons, ih, face_refuse, List.map_cons, List.foldl_cons]

lemma has_wanted (x : LinkedWriter) (cs : List Candidate) (g : Guid) :
    (x.wanted cs).has g = true ↔
      ∃ a ∈ cs.map (·.endpoint), a.guid = g ∧ objection? .writer x.writer.qos a.qos = none := by
  rw [wanted, Table.has_fill]
  simp only [Table.has, Table.get?_nil, Option.isSome_none, Bool.false_eq_true, false_or,
    List.mem_filter, List.mem_map, Qos.compatible, Option.isNone_iff_eq_none, objection?]
  constructor
  · rintro ⟨c, ⟨hc, hq⟩, rfl⟩
    exact ⟨c.endpoint, ⟨c, hc, rfl⟩, rfl, hq⟩
  · rintro ⟨a, ⟨c, hc, rfl⟩, rfl, hq⟩
    exact ⟨c, ⟨hc, hq⟩, rfl⟩

end LinkedWriter

/-- **A writer is brought in line with what is announced.** -/
theorem Node.aligned_reconcileWriter (n : Node) {x : LinkedWriter} (h : x.face.Counted) :
    Face.Aligned .writer
      ((n.candidates .reader x.face.topic x.face.typeName).map (·.endpoint))
      x.face (n.reconcileWriter x).1.face := by
  have hrefused := Face.refused_foldl h .writer
    ((n.candidates .reader x.face.topic x.face.typeName).map (·.endpoint))
  rw [← LinkedWriter.face_foldl_refuse] at hrefused
  refine hrefused.aligned ?_
  refine (LinkedWriter.moved_sync hrefused.counted (x.distinct_wanted _)).congr fun g => ?_
  exact x.has_wanted _ g

/-! ### Readers -/

namespace LinkedReader

variable {y : LinkedReader} {s : Reader × StatusMask} {w : Guid} {refused : List Guid}

lemma moved_drop (h : (faceOf s.1 refused).Counted) (hw : w ∈ (faceOf s.1 refused).peers) :
    Face.Moved (faceOf s.1 refused) (faceOf (drop s w).1 refused)
      fun g => g ≠ w ∧ g ∈ (faceOf s.1 refused).peers := by
  have hhas : s.1.cache.writers.has w = true := Table.has_iff_mem_keys.mpr hw
  have hdrop : faceOf (drop s w).1 refused = { faceOf s.1 refused with
      peers := (s.1.cache.writers.erase w).keys, current := s.1.matched.unmatched.current } := by
    simp only [drop, Reader.removeWriter, ReaderCache.removeWriter, ReaderCache.hasWriter, hhas]
    rfl
  rw [hdrop, MatchedStatus.unmatched_current]
  exact h.moved_erase rfl hw

lemma moved_gain {e : Guid × Bool} (h : (faceOf s.1 refused).Counted)
    (he : e.1 ∉ (faceOf s.1 refused).peers) :
    Face.Moved (faceOf s.1 refused) (faceOf (gain s e).1 refused)
      fun g => g = e.1 ∨ g ∈ (faceOf s.1 refused).peers := by
  have hnone : s.1.cache.writers.get? e.1 = none := Table.get?_eq_none_iff.mpr he
  have hgain : faceOf (gain s e).1 refused = { faceOf s.1 refused with
      peers := (s.1.cache.writers.insertNew Guid.before e.1
        ⟨e.2 && s.1.cache.qos.isReliable, 1⟩).keys
      current := s.1.matched.current + 1 } := by
    simp only [gain, Reader.addWriter, ReaderCache.addWriter, ReaderCache.hasWriter,
      Table.has_eq_false.mpr hnone]
    rfl
  rw [hgain]
  exact h.moved_insertNew rfl he _

/-- A reader has exactly the wanted writers once it has been brought in line with them. -/
lemma moved_sync (h : y.face.Counted) {wanted : Table Guid Bool} (hw : wanted.Distinct) :
    Face.Moved y.face (y.sync wanted).face fun g => wanted.has g = true := by
  exact Face.moved_exchange (v := fun s : Reader × StatusMask => faceOf s.1 y.refused)
    (t := drop) (u := fun s : Reader × StatusMask => faceOf s.1 y.refused) (e := gain)
    (s := (y.reader, StatusMask.none)) (fun _ _ => moved_drop) (fun _ _ => moved_gain) hw h
    (fun _ => Table.has_iff_mem_keys) rfl

lemma face_refuse (y : LinkedReader) (c : Candidate) :
    (y.refuse c).face = y.face.refuse .reader c.endpoint := by
  have hqos : y.face.qos = y.reader.qos := rfl
  have hrefused : y.face.refused = y.refused := rfl
  unfold refuse Face.refuse objection?
  rw [hqos, hrefused]
  cases Qos.conflict? c.endpoint.qos y.reader.qos with
  | none => simp
  | some p =>
    by_cases hc : c.endpoint.guid ∈ y.refused
    · simp [hc]
    · simp [hc]
      rfl

lemma face_foldl_refuse (y : LinkedReader) (cs : List Candidate) :
    (cs.foldl refuse y).face = (cs.map (·.endpoint)).foldl (Face.refuse .reader) y.face := by
  induction cs generalizing y with
  | nil => rfl
  | cons c cs ih => rw [List.foldl_cons, ih, face_refuse, List.map_cons, List.foldl_cons]

lemma distinct_wanted (y : LinkedReader) (cs : List Candidate) : (y.wanted cs).Distinct :=
  Table.Distinct.fill Guid.before (fun c : Candidate => c.endpoint.guid)
    (fun c => c.endpoint.qos.isReliable) _ Table.distinct_nil

lemma has_wanted (y : LinkedReader) (cs : List Candidate) (g : Guid) :
    (y.wanted cs).has g = true ↔
      ∃ a ∈ cs.map (·.endpoint), a.guid = g ∧ objection? .reader y.reader.qos a.qos = none := by
  rw [wanted, Table.has_fill]
  simp only [Table.has, Table.get?_nil, Option.isSome_none, Bool.false_eq_true, false_or,
    List.mem_filter, List.mem_map, Qos.compatible, Option.isNone_iff_eq_none, objection?]
  constructor
  · rintro ⟨c, ⟨hc, hq⟩, rfl⟩
    exact ⟨c.endpoint, ⟨c, hc, rfl⟩, rfl, hq⟩
  · rintro ⟨a, ⟨c, hc, rfl⟩, rfl, hq⟩
    exact ⟨c, ⟨hc, hq⟩, rfl⟩

end LinkedReader

/-- **A reader is brought in line with what is announced.** -/
theorem Node.aligned_reconcileReader (n : Node) {y : LinkedReader} (h : y.face.Counted) :
    Face.Aligned .reader
      ((n.candidates .writer y.face.topic y.face.typeName).map (·.endpoint))
      y.face (n.reconcileReader y).face := by
  have hrefused := Face.refused_foldl h .reader
    ((n.candidates .writer y.face.topic y.face.typeName).map (·.endpoint))
  rw [← LinkedReader.face_foldl_refuse] at hrefused
  refine hrefused.aligned ?_
  refine (LinkedReader.moved_sync hrefused.counted (y.distinct_wanted _)).congr fun g => ?_
  exact y.has_wanted _ g

end Udp

end PubSub
