import PubSub.Proofs.Loopback.Matching
import PubSub.Proofs.Roster

/-!
The participants of a domain and their rosters. Whatever else happens in the domain, the endpoints
that are open there are those that each participant has created and not closed since it joined.
-/

namespace PubSub.Loopback

open Udp (Look Submission)
open Udp.Node (bind_ok createEndpoint_ok)

/-- What an act makes a participant do with its endpoints. -/
def Act.deed? (p : Nat) : Act → Option Deed
  | .createGroup p' _ => if p' = p then some .createGroup else none
  | .createEndpoint p' kind g t type q =>
    if p' = p then some (.createEndpoint kind g t type q) else none
  | .close g => if g.participant = p then some (.close g.entity) else none
  | .delete p' => if p' = p then some .delete else none
  | .leave p' => if p' = p then some .delete else none
  | _ => none

def Act.joins (p : Nat) : Act → Bool
  | .join p' _ => p' = p
  | _ => false

def deeds (p : Nat) (as : List Act) : List Deed :=
  (as.dropWhile (!·.joins p)).filterMap (Act.deed? p)

namespace Domain

variable {d d' d'' : Domain} {w r : Guid}

/-! ### What changes no roster -/

namespace Steady

lemma setListed (d : Domain) (key : MatchKey) (es : List Entry) : Steady d (d.setListed key es) :=
  .of_card rfl (funext₂ fun k g => by cases k <;> rfl)

lemma unlist (d : Domain) (key : MatchKey) (g : Guid) : Steady d (d.unlist key g) := by
  have hpart : ∀ (e : Entry) (d : Domain) (p : Entry), Steady d (d.part e p) := fun e d p => by
    refine .of_card ?_ (parted_part e p d).card
    unfold part
    split <;> rfl
  unfold Domain.unlist
  split
  · exact (foldl (hpart _) _ _).trans (setListed _ _ _)
  · exact .refl d

lemma run (h : d.Wf) (j : Job) : Steady d (d.run j) := by
  unfold Domain.run
  split
  · exact .refl d
  · next y hy =>
    have hreader : Steady d (d.adjustReader j.out.reader fun _ =>
        (y.receive j.writer j.out.number j.out.change).1) := by
      refine .of_card rfl (card?_adjustReader_same fun y' hy' => ?_)
      obtain rfl : y' = y := Option.some.inj (hy'.symm.trans hy)
      exact ((h.reader _ y' hy).receive _ _ _).2
    simp only
    split
    · exact hreader.trans (.of_card rfl (card?_adjustWriter_same fun x _ =>
        ofWriter_acknowledge x _ _))
    · exact hreader

lemma deliver (h : d.Wf) : Steady d d.deliver := by
  unfold Domain.deliver
  split
  · exact .refl d
  · next j rest hq =>
    have hrest : ({ d with queue := rest } : Domain).Wf :=
      ⟨h.identity, h.issued, h.once, h.writers, h.readers, h.writer, h.reader⟩
    exact ⟨(run hrest j).participants, (run hrest j).openAs⟩

lemma submitted {s : Submission} (hok : d.submitted w s = .ok d') : Steady d d' := by
  rw [submitted_eq] at hok
  cases hmade : d.appended w s with
  | error f => rw [hmade] at hok; cases hok
  | ok made =>
    rw [hmade] at hok
    obtain rfl := Except.ok.inj hok
    obtain ⟨x, hx⟩ := get?_of_appended hmade
    obtain ⟨-, k, rfl⟩ := appended_ok hx hmade
    refine .trans (adjustWriter fun x' hx' => ?_) (submit _ w _)
    obtain rfl : x' = x := Option.some.inj (hx'.symm.trans hx)
    exact ⟨rfl, rfl, rfl⟩

end Steady

/-! ### Endpoints come and go -/

lemma openAs?_insertWriter {g : Guid} (hn : d.writers.get? g = none) (topic : String)
    (type : SampleType) (q : Qos) (k : EndpointKind) (g' : Guid) :
    (d.insertWriter (.new g topic type q)).openAs? k g' =
      if k = .writer ∧ g' = g then some (.of topic type.name, q) else d.openAs? k g' := by
  rw [openAs?, card?_insertWriter hn]
  split_ifs <;> rfl

lemma openAs?_insertReader {g : Guid} (hn : d.readers.get? g = none) (topic : String)
    (type : SampleType) (q : Qos) (k : EndpointKind) (g' : Guid) :
    (d.insertReader (.new g topic type q)).openAs? k g' =
      if k = .reader ∧ g' = g then some (.of topic type.name, q) else d.openAs? k g' := by
  rw [openAs?, card?_insertReader hn]
  split_ifs <;> rfl

lemma Steady.addWriter (d : Domain) (x : Writer) : Steady (d.insertWriter x) (d.addWriter x) :=
  .trans (.foldl (fun d (e : Entry) => .meet d x.guid x.qos e.guid e.qos) _ _) (.setListed _ _ _)

lemma Steady.addReader (d : Domain) (y : Reader) : Steady (d.insertReader y) (d.addReader y) :=
  .trans (.foldl (fun d (e : Entry) => .meet d e.guid e.qos y.guid y.qos) _ _) (.setListed _ _ _)

/-- The endpoint of that kind and identity is closed now, and nothing else has changed. -/
structure Shut (k : EndpointKind) (g : Guid) (d d' : Domain) : Prop where
  participants : d'.participants = d.participants
  openAs : ∀ k' g', d'.openAs? k' g' = if k' = k ∧ g' = g then none else d.openAs? k' g'

section Shut

variable {k : EndpointKind} {g : Guid}

lemma shut_of_closed (h : ∀ a, d.card? k g = some a → a.isOpen = false) : Shut k g d d := by
  refine ⟨rfl, fun k' g' => ?_⟩
  split_ifs with hg
  · obtain ⟨rfl, rfl⟩ := hg
    unfold openAs?
    cases hc : d.card? k' g' with
    | none => rfl
    | some a => simp [Option.filter, h a hc]
  · rfl

lemma shut_of_card (hp : d'.participants = d.participants)
    (hcard : ∀ k' g', d'.card? k' g' = if k' = k ∧ g' = g then
      (d.card? k' g').map ({ · with isOpen := false }) else d.card? k' g') : Shut k g d d' := by
  refine ⟨hp, fun k' g' => ?_⟩
  rw [openAs?, hcard, openAs?]
  split_ifs
  · cases d.card? k' g' <;> rfl
  · rfl

lemma Shut.steady (h : Shut k g d d') (hc : Steady d' d'') : Shut k g d d'' :=
  ⟨hc.participants.trans h.participants, fun k' g' => by rw [hc.openAs, h.openAs]⟩

end Shut

lemma shut_closeWriter (d : Domain) (w : Guid) : Shut .writer w d (d.closeWriter w) := by
  unfold closeWriter
  cases hx : d.writers.get? w with
  | none => exact shut_of_closed (by simp [card?, hx])
  | some x =>
    simp only
    split_ifs with ho
    · refine .steady ?_ (.unlist _ x.key w)
      exact shut_of_card rfl (card?_adjustWriter (F := ({ · with isOpen := false })) fun _ _ => rfl)
    · exact shut_of_closed (by simpa [card?, hx, Card.ofWriter] using ho)

lemma shut_closeReader (d : Domain) (r : Guid) : Shut .reader r d (d.closeReader r) := by
  unfold closeReader
  cases hy : d.readers.get? r with
  | none => exact shut_of_closed (by simp [card?, hy])
  | some y =>
    simp only
    split_ifs with ho
    · refine .steady ?_ (.unlist _ y.key r)
      exact shut_of_card rfl (card?_adjustReader (F := ({ · with isOpen := false })) fun _ _ => rfl)
    · exact shut_of_closed (by simpa [card?, hy, Card.ofReader] using ho)

lemma participants_close (d : Domain) (g : Guid) : (d.close g).participants = d.participants :=
  (shut_closeReader _ g).participants.trans (shut_closeWriter d g).participants

/-- Whatever stands under an identity is closed. -/
lemma openAs?_close (d : Domain) (g : Guid) (k : EndpointKind) (g' : Guid) :
    (d.close g).openAs? k g' = if g' = g then none else d.openAs? k g' := by
  rw [close, (shut_closeReader _ g).openAs, (shut_closeWriter d g).openAs]
  cases k <;> split_ifs <;> simp_all

lemma foldl_shut {k : EndpointKind} {f : Domain → Guid → Domain} (hf : ∀ d g, Shut k g d (f d g))
    (gs : List Guid) (d : Domain) :
    (gs.foldl f d).participants = d.participants ∧ ∀ k' g, (gs.foldl f d).openAs? k' g =
      if k' = k ∧ g ∈ gs then none else d.openAs? k' g := by
  induction gs generalizing d with
  | nil => simp
  | cons g gs ih =>
    obtain ⟨hparticipants, hopen⟩ := ih (f d g)
    refine ⟨hparticipants.trans (hf d g).participants, fun k' g' => ?_⟩
    rw [List.foldl_cons, hopen, (hf d g).openAs]
    split_ifs <;> simp_all

lemma foldl_shut_all {k : EndpointKind} {f : Domain → Guid → Domain}
    (hf : ∀ d g, Shut k g d (f d g)) {p : Nat} {gs : List Guid} {d : Domain}
    (hgs : ∀ g, g ∈ gs ↔ d.has k g = true ∧ g.participant = p) (k' : EndpointKind) (g : Guid) :
    (gs.foldl f d).openAs? k' g =
      if k' = k ∧ g.participant = p then none else d.openAs? k' g := by
  rw [(foldl_shut hf gs d).2]
  by_cases hg : k' = k ∧ g.participant = p
  · rw [if_pos hg]
    split_ifs with hmem
    · rfl
    · -- what is not there has never been open
      obtain ⟨rfl, hp⟩ := hg
      refine Option.eq_none_iff_forall_ne_some.mpr fun a ha => hmem ⟨rfl, ?_⟩
      obtain ⟨c, hc, -⟩ := openAs?_eq_some.mp ha
      exact (hgs g).mpr ⟨(has_iff_card? _ g).mpr ⟨c, hc⟩, hp⟩
  · rw [if_neg hg, if_neg fun hmem => hg ⟨hmem.1, ((hgs g).mp hmem.2).2⟩]

/-- A deleted participant has nothing open, and all others have what they had. -/
lemma openAs?_delete (d : Domain) (p : Nat) (k : EndpointKind) (g : Guid) :
    (d.delete p).openAs? k g = if g.participant = p then none else d.openAs? k g := by
  have hkeys : ∀ {α : Type} (t : Table Guid α) g, g ∈ t.keys.filter (·.participant = p) ↔
      t.has g = true ∧ g.participant = p := by
    intro α t g
    rw [List.mem_filter, decide_eq_true_iff, Table.has_iff_mem_keys]
  unfold delete
  rw [foldl_shut_all shut_closeReader (hkeys _), foldl_shut_all shut_closeWriter (hkeys _)]
  have hsame : openAs? { d with
      participants := d.participants.adjust p ({ · with deleted := true }) } k g =
        d.openAs? k g := by
    cases k <;> rfl
  rw [hsame]
  cases k <;> split_ifs <;> simp_all

lemma participants_delete (d : Domain) (p : Nat) :
    (d.delete p).participants = d.participants.adjust p ({ · with deleted := true }) := by
  unfold delete
  rw [(foldl_shut shut_closeReader _ _).1, (foldl_shut shut_closeWriter _ _).1]

/-- Leaving closes as much, and the participant is marked. -/
lemma openAs?_leave (d : Domain) (p : Nat) (k : EndpointKind) (g : Guid) :
    (d.leave p).openAs? k g = if g.participant = p then none else d.openAs? k g := by
  have hsame : (d.leave p).openAs? = (d.delete p).openAs? :=
    openAs?_of_card? (funext₂ fun k g => by cases k <;> rfl)
  rw [hsame, openAs?_delete]

lemma get?_leave (d : Domain) (p p' : Nat) : (d.leave p).participants.get? p' =
    if p' = p then (d.participants.get? p').map ({ · with deleted := true, left := true })
      else d.participants.get? p' := by
  have hleave : (d.leave p).participants =
      (d.delete p).participants.adjust p ({ · with left := true }) := rfl
  rw [hleave, Table.get?_adjust, participants_delete, Table.get?_adjust]
  split_ifs
  · rw [Option.map_map]
    rfl
  · rfl

/-! ### What participants create -/

section Create

variable {p : Nat} {x : Participant} {kind : EndpointKind} {g : Group} {t : Topic}
  {type : SampleType} {q : Qos}

lemma get?_setParticipant (hx : d.participants.get? x.id = some x) (n p : Nat) :
    (d.setParticipant { x with next := n }).participants.get? p =
      if p = x.id then some { x with next := n } else d.participants.get? p := by
  rw [setParticipant, Table.get?_adjust]
  split_ifs with hp
  · rw [hp, hx]
    rfl
  · rfl

lemma openAs?_setParticipant (d : Domain) (y : Participant) :
    (d.setParticipant y).openAs? = d.openAs? :=
  openAs?_of_card? (funext₂ fun k g => by cases k <;> rfl)

/-- A participant has a new endpoint, with its next number, and nothing else has changed. -/
structure Entered (x : Participant) (k : EndpointKind) (key : MatchKey) (q : Qos) (d d' : Domain) :
    Prop where
  participants : ∀ p, d'.participants.get? p =
    if p = x.id then some { x with next := x.next + 1 } else d.participants.get? p
  openAs : ∀ k' g, d'.openAs? k' g =
    if k' = k ∧ g = ⟨x.id, x.next⟩ then some (key, q) else d.openAs? k' g

lemma Entered.steady {key : MatchKey} (h : Entered x kind key q d d') (hc : Steady d' d'') :
    Entered x kind key q d d'' :=
  ⟨fun p => by rw [hc.participants, h.participants], fun k g => by rw [hc.openAs, h.openAs]⟩

lemma entered_perform (h : d.Wf) (hx : d.participants.get? x.id = some x)
    (hok : x.createEndpoint kind g t type q =
      .ok ({ x with next := x.next + 1 }, ⟨x.id, x.next⟩)) :
    Entered x kind (.of t.name type.name) q d
      (d.perform (.createEndpoint x.id kind g t type q)) := by
  have hset := get?_setParticipant hx (x.next + 1)
  have hnone := h.unissued (g := ⟨x.id, x.next⟩) hx (Nat.le_refl _)
  have hparticipant : d.participant x.id = .ok x := by rw [Domain.participant, hx]
  -- the new endpoint meets whoever is there for it, by which nothing else comes or goes
  cases kind with
  | writer =>
    have hperform : d.perform (.createEndpoint x.id .writer g t type q) =
        (d.setParticipant { x with next := x.next + 1 }).addWriter
          (.new ⟨x.id, x.next⟩ t.name type q) := by
      simp [perform, Domain.createEndpoint, hparticipant, hok, Bind.bind, Except.bind, pure,
        Except.pure]
    have hinsert : Entered x .writer (.of t.name type.name) q d
        ((d.setParticipant { x with next := x.next + 1 }).insertWriter
          (.new ⟨x.id, x.next⟩ t.name type q)) := by
      refine ⟨hset, fun k g' => ?_⟩
      rw [openAs?_insertWriter (d := d.setParticipant _) (Table.has_eq_false.mp (hnone .writer)),
        openAs?_setParticipant]
    exact hperform ▸ hinsert.steady (.addWriter _ _)
  | reader =>
    have hperform : d.perform (.createEndpoint x.id .reader g t type q) =
        (d.setParticipant { x with next := x.next + 1 }).addReader
          (.new ⟨x.id, x.next⟩ t.name type q) := by
      simp [perform, Domain.createEndpoint, hparticipant, hok, Bind.bind, Except.bind, pure,
        Except.pure]
    have hinsert : Entered x .reader (.of t.name type.name) q d
        ((d.setParticipant { x with next := x.next + 1 }).insertReader
          (.new ⟨x.id, x.next⟩ t.name type q)) := by
      refine ⟨hset, fun k g' => ?_⟩
      rw [openAs?_insertReader (d := d.setParticipant _) (Table.has_eq_false.mp (hnone .reader)),
        openAs?_setParticipant]
    exact hperform ▸ hinsert.steady (.addReader _ _)

/-- Whoever is there creates an endpoint, or nothing happens. -/
lemma perform_createEndpoint (h : d.Wf) (p : Nat) (kind : EndpointKind) (g : Group) (t : Topic)
    (type : SampleType) (q : Qos) :
    d.perform (.createEndpoint p kind g t type q) = d ∨
      ∃ x, x.id = p ∧ d.participants.get? p = some x ∧
        Entered x kind (.of t.name type.name) q d
          (d.perform (.createEndpoint p kind g t type q)) := by
  cases hok : d.createEndpoint p kind g t type q with
  | error f => exact .inl (by simp [perform, hok])
  | ok made =>
    obtain ⟨x, hx, hmade⟩ := bind_ok hok
    obtain ⟨⟨x', g'⟩, hcreate, -⟩ := bind_ok hmade
    obtain ⟨rfl, rfl⟩ := createEndpoint_ok hcreate
    have hget := participant_ok hx
    obtain rfl := h.identity p x hget
    exact .inr ⟨x, rfl, hget, entered_perform h hget hcreate⟩

lemma perform_createGroup (h : d.Wf) (p : Nat) (kind : EntityKind) :
    d.perform (.createGroup p kind) = d ∨
      ∃ x, x.id = p ∧ d.participants.get? p = some x ∧
        d.perform (.createGroup p kind) = d.setParticipant { x with next := x.next + 1 } := by
  cases hok : d.createGroup p kind with
  | error f => exact .inl (by simp [perform, hok])
  | ok made =>
    obtain ⟨x, hx, hmade⟩ := bind_ok hok
    obtain ⟨⟨x', g'⟩, hcreate, hmade⟩ := bind_ok hmade
    obtain ⟨-, -, hcreate⟩ := bind_ok hcreate
    obtain ⟨rfl, rfl⟩ := Prod.mk.inj (Except.ok.inj hcreate)
    obtain rfl := Except.ok.inj hmade
    have hget := participant_ok hx
    exact .inr ⟨x, h.identity p x hget, hget, by simp [perform, hok]⟩

end Create

/-! ### What others do -/

structure Apart (p : Nat) (d d' : Domain) : Prop where
  participant : d'.participants.get? p = d.participants.get? p
  openAs : ∀ k g, g.participant = p → d'.openAs? k g = d.openAs? k g

lemma Apart.refl (p : Nat) (d : Domain) : Apart p d d := ⟨rfl, fun _ _ _ => rfl⟩

lemma Apart.of_steady {p : Nat} (h : Steady d d') : Apart p d d' :=
  ⟨h.participants ▸ rfl, fun _ _ _ => h.openAs ▸ rfl⟩

/-- What anybody else does. -/
lemma Apart.perform (h : d.Wf) {p : Nat} {a : Act} (hjoins : a.joins p = false)
    (hdeed : a.deed? p = none) : Apart p d (d.perform a) := by
  -- a deed of another participant is none of this one
  have hne {p' : Nat} {x : Deed} (hdeed : (if p' = p then some x else none) = none) : p ≠ p' := by
    rintro rfl
    simp at hdeed
  cases a with
  | join p' name =>
    have hne : p ≠ p' := by
      rintro rfl
      simp [Act.joins] at hjoins
    simp only [Domain.perform]
    split_ifs with hp
    · exact .refl p d
    · have hnone := Table.has_eq_false.mp (Bool.not_eq_true _ ▸ hp)
      refine ⟨(Table.get?_insertNew _ _ _ _ _ hnone).trans (if_neg hne), fun k g _ => ?_⟩
      cases k <;> rfl
  | createGroup p' kind =>
    rcases perform_createGroup h p' kind with hsame | ⟨x, rfl, hx, hset⟩
    · rw [hsame]
      exact .refl p d
    · refine hset ▸ ⟨(get?_setParticipant hx _ p).trans (if_neg (hne hdeed)), fun k g _ => ?_⟩
      rw [openAs?_setParticipant]
  | createEndpoint p' kind g t type q =>
    rcases perform_createEndpoint h p' kind g t type q with hsame | ⟨x, rfl, -, hentered⟩
    · rw [hsame]
      exact .refl p d
    · refine ⟨(hentered.participants p).trans (if_neg (hne hdeed)), fun k g hg => ?_⟩
      refine (hentered.openAs k g).trans (if_neg ?_)
      rintro ⟨-, rfl⟩
      exact hne hdeed hg.symm
  | submit w s =>
    simp only [Domain.perform]
    split
    · next hok => exact .of_steady (.submitted hok)
    · exact .refl p d
  | lookWriter w l =>
    exact .of_steady (.of_card rfl (card?_adjustWriter_same fun x _ => ofWriter_look l x))
  | lookReader w l =>
    exact .of_steady (.of_card rfl (card?_adjustReader_same fun y _ => ofReader_look l y))
  | pause b => exact .of_steady (.of_card rfl (funext₂ fun k g => by cases k <;> rfl))
  | passUntil t => exact .of_steady (.of_card rfl (funext₂ fun k g => by cases k <;> rfl))
  | close g =>
    refine ⟨congrArg (Table.get? · p) (participants_close d g), fun k g' hg' => ?_⟩
    refine (openAs?_close d g k g').trans (if_neg ?_)
    rintro rfl
    exact hne hdeed hg'.symm
  | delete p' =>
    refine ⟨?_, fun k g hg => (openAs?_delete d p' k g).trans (if_neg (hg ▸ hne hdeed))⟩
    exact (congrArg (Table.get? · p) (participants_delete d p')).trans
      ((Table.get?_adjust _ _ _ _).trans (if_neg (hne hdeed)))
  | leave p' =>
    refine ⟨(get?_leave d p' p).trans (if_neg (hne hdeed)), fun k g hg => ?_⟩
    exact (openAs?_leave d p' k g).trans (if_neg (hg ▸ hne hdeed))
  | deliver =>
    simp only [Domain.perform]
    split_ifs
    · exact .refl p d
    · exact .of_steady (.deliver h)

/-! ### The roster of a participant -/

structure Lists (r : Roster) (d : Domain) : Prop where
  participant : ∃ x, d.participants.get? r.id = some x ∧ r.Of x
  openAs : ∀ k e, d.openAs? k ⟨r.id, e⟩ = r.listing? k e

lemma openAs?_of_absent (h : d.Wf) {p : Nat} (hp : d.participants.get? p = none)
    (k : EndpointKind) (e : Nat) : d.openAs? k ⟨p, e⟩ = none := by
  refine Option.eq_none_iff_forall_ne_some.mpr fun a ha => ?_
  obtain ⟨c, hc, -⟩ := openAs?_eq_some.mp ha
  obtain ⟨x, hx, -⟩ := h.issued k ⟨p, e⟩ ((has_iff_card? k _).mpr ⟨c, hc⟩)
  exact absurd (hx.symm.trans hp) (by simp)

lemma lists_join (h : d.Wf) {p : Nat} (hp : d.participants.get? p = none) (name : String) :
    Lists (.start p) (d.perform (.join p name)) := by
  have hperform : d.perform (.join p name) = d.addParticipant p name := by
    simp [perform, Table.has_eq_false.mpr hp]
  rw [hperform]
  refine ⟨⟨.new p d.id name, ?_, ⟨rfl, rfl, rfl⟩⟩, fun k e => ?_⟩
  · exact (Table.get?_insertNew _ _ _ _ _ hp).trans (if_pos rfl)
  · have hsame : (d.addParticipant p name).openAs? k ⟨p, e⟩ = d.openAs? k ⟨p, e⟩ := by
      cases k <;> rfl
    exact hsame.trans (openAs?_of_absent h hp k e)

/-- Nobody becomes a participant but by joining. -/
lemma absent_perform (h : d.Wf) {p : Nat} (hp : d.participants.get? p = none) {a : Act}
    (hjoins : a.joins p = false) : (d.perform a).participants.get? p = none := by
  cases hdeed : a.deed? p with
  | none => rw [(Apart.perform h hjoins hdeed).participant, hp]
  | some x =>
    cases a with
    | createGroup p' kind =>
      obtain rfl : p' = p := by simpa [Act.deed?] using (Option.isSome_of_eq_some hdeed)
      rcases perform_createGroup h p' kind with hsame | ⟨x, -, hx, -⟩
      · rw [hsame, hp]
      · exact absurd (hx.symm.trans hp) (by simp)
    | createEndpoint p' kind g t type q =>
      obtain rfl : p' = p := by simpa [Act.deed?] using (Option.isSome_of_eq_some hdeed)
      rcases perform_createEndpoint h p' kind g t type q with hsame | ⟨x, -, hx, -⟩
      · rw [hsame, hp]
      · exact absurd (hx.symm.trans hp) (by simp)
    | close g => rw [Domain.perform, participants_close, hp]
    | delete p' => simp [Domain.perform, participants_delete, Table.get?_adjust, hp]
    | leave p' => simp [Domain.perform, get?_leave, hp]
    | join | submit | lookWriter | lookReader | pause | passUntil | deliver => cases hdeed

namespace Lists

variable {r : Roster}

lemma apart (h : Lists r d) (ha : Apart r.id d d') : Lists r d' :=
  ⟨ha.participant ▸ h.participant, fun k e => (ha.openAs k ⟨r.id, e⟩ rfl).trans (h.openAs k e)⟩

lemma createGroup (h : Lists r d) (kind : EntityKind) :
    Lists (r.step .createGroup) (d.perform (.createGroup r.id kind)) := by
  obtain ⟨x, hx, hof⟩ := h.participant
  have hparticipant : d.participant r.id = .ok x := by rw [Domain.participant, hx]
  rcases hof.createGroup kind with ⟨hok, hstep⟩ | ⟨⟨f, herror⟩, hstep⟩
  · have hperform : d.perform (.createGroup r.id kind) =
        d.setParticipant { x with next := x.next + 1 } := by
      simp [Domain.perform, Domain.createGroup, hparticipant, hok, Bind.bind, Except.bind, pure,
        Except.pure]
    rw [hstep, hperform]
    refine ⟨⟨_, ?_, hof.skip⟩, fun k e => ?_⟩
    · exact (get?_setParticipant (hof.id.symm ▸ hx) _ _).trans (if_pos hof.id.symm)
    · rw [openAs?_setParticipant]
      exact h.openAs k e
  · have hperform : d.perform (.createGroup r.id kind) = d := by
      simp [Domain.perform, Domain.createGroup, hparticipant, herror, Bind.bind, Except.bind]
    rw [hstep, hperform]
    exact h

lemma createEndpoint (h : Lists r d) (hwf : d.Wf) (kind : EndpointKind) (g : Group) (t : Topic)
    (type : SampleType) (q : Qos) :
    Lists (r.step (.createEndpoint kind g t type q))
      (d.perform (.createEndpoint r.id kind g t type q)) := by
  obtain ⟨x, hx, hof⟩ := h.participant
  rcases hof.createEndpoint kind g t type q with ⟨hok, hstep⟩ | ⟨⟨f, herror⟩, hstep⟩
  · have hentered := entered_perform hwf (hof.id.symm ▸ hx) hok
    rw [hof.id] at hentered
    rw [hstep]
    refine ⟨⟨_, (hentered.participants _).trans (if_pos hof.id.symm), hof.enter kind _⟩,
      fun k e => ?_⟩
    rw [Roster.listing?_enter, ← h.openAs, ← hof.next]
    refine (hentered.openAs k ⟨r.id, e⟩).trans ?_
    simp only [hof.id, Guid.mk.injEq, true_and]
    rfl
  · have hparticipant : d.participant r.id = .ok x := by rw [Domain.participant, hx]
    have hperform : d.perform (.createEndpoint r.id kind g t type q) = d := by
      simp [Domain.perform, Domain.createEndpoint, hparticipant, herror, Bind.bind, Except.bind]
    rw [hstep, hperform]
    exact h

lemma close (h : Lists r d) {g : Guid} (hg : g.participant = r.id) :
    Lists (r.close g.entity) (d.close g) := by
  obtain ⟨x, hx, hof⟩ := h.participant
  refine ⟨⟨x, (participants_close d g).symm ▸ hx, hof.close g.entity⟩, fun k e => ?_⟩
  obtain ⟨p, entity⟩ := g
  obtain rfl : p = r.id := hg
  refine (openAs?_close d _ k ⟨r.id, e⟩).trans ?_
  rw [Roster.listing?_close, h.openAs]
  simp only [Guid.mk.injEq, true_and]

lemma delete (h : Lists r d) : Lists r.delete (d.delete r.id) := by
  obtain ⟨x, hx, hof⟩ := h.participant
  refine ⟨⟨{ x with deleted := true }, ?_, hof.delete⟩, fun k e => ?_⟩
  · rw [participants_delete]
    exact (Table.get?_adjust _ _ _ _).trans ((if_pos rfl).trans (congrArg _ hx))
  · exact (openAs?_delete d _ k _).trans (if_pos rfl)

lemma leave (h : Lists r d) : Lists r.delete (d.leave r.id) := by
  obtain ⟨x, hx, hof⟩ := h.participant
  refine ⟨⟨{ x with deleted := true, left := true }, ?_, hof.id, hof.next, rfl⟩, fun k e => ?_⟩
  · exact (get?_leave d _ _).trans ((if_pos rfl).trans (congrArg _ hx))
  · exact (openAs?_leave d _ k _).trans (if_pos rfl)

/-- What is done in the domain is done to the roster of the participant that does it. -/
theorem perform (h : Lists r d) (hwf : d.Wf) (a : Act) :
    Lists (r.run (a.deed? r.id).toList) (d.perform a) := by
  cases hdeed : a.deed? r.id with
  | none =>
    cases hjoins : a.joins r.id with
    | false => exact h.apart (.perform hwf hjoins hdeed)
    | true =>
      -- it is there already
      cases a with
      | join p name =>
        obtain rfl : p = r.id := by simpa [Act.joins] using hjoins
        obtain ⟨x, hx, -⟩ := h.participant
        have hperform : d.perform (.join r.id name) = d := by
          simp [Domain.perform, Table.has_eq_true.mpr ⟨x, hx⟩]
        rw [hperform]
        exact h
      | _ => cases hjoins
  | some x =>
    rw [Option.toList_some, Roster.run_singleton]
    cases a with
    | createGroup p kind =>
      obtain ⟨rfl, ⟨⟩⟩ := Option.ite_none_right_eq_some.mp hdeed
      exact h.createGroup kind
    | createEndpoint p kind g t type q =>
      obtain ⟨rfl, ⟨⟩⟩ := Option.ite_none_right_eq_some.mp hdeed
      exact h.createEndpoint hwf kind g t type q
    | close g =>
      obtain ⟨hg, ⟨⟩⟩ := Option.ite_none_right_eq_some.mp hdeed
      exact h.close hg
    | delete p =>
      obtain ⟨rfl, ⟨⟩⟩ := Option.ite_none_right_eq_some.mp hdeed
      exact h.delete
    | leave p =>
      obtain ⟨rfl, ⟨⟩⟩ := Option.ite_none_right_eq_some.mp hdeed
      exact h.leave
    | join | submit | lookWriter | lookReader | pause | passUntil | deliver => cases hdeed

end Lists

/-! ### Whatever happens -/

section Run

variable (registry id : Nat) (latency : Span) (clock : Nat) (as : List Act)

lemma wf_after : ((new registry id latency clock).after as).Wf := by
  obtain ⟨met, hgood, -⟩ := good_run registry id latency clock as
  have hwf := hgood.wf
  rwa [Trace.domain_run] at hwf

/-- A participant that has never joined is not there, and any other one shows its roster. -/
lemma lists_after (p : Nat) :
    let d := (new registry id latency clock).after as
    as.dropWhile (!·.joins p) = [] ∧ d.participants.get? p = none ∨
      as.dropWhile (!·.joins p) ≠ [] ∧ Lists ((Roster.start p).run (deeds p as)) d := by
  induction as using List.reverseRecOn with
  | nil => exact .inl ⟨rfl, rfl⟩
  | append_singleton as a ih =>
    have hwf := wf_after registry id latency clock as
    have hafter : (new registry id latency clock).after (as ++ [a]) =
        ((new registry id latency clock).after as).perform a := List.foldl_concat _ _ _ _
    simp only [hafter, deeds, List.dropWhile_append]
    rcases ih with ⟨hnone, habsent⟩ | ⟨hsome, hlists⟩
    · simp only [hnone]
      cases hjoins : a.joins p with
      | false => exact .inl ⟨by simp [hjoins], absent_perform hwf habsent hjoins⟩
      | true =>
        cases a with
        | join p' name =>
          obtain rfl : p' = p := by simpa [Act.joins] using hjoins
          have hdeeds : [Act.join p' name].filterMap (Act.deed? p') = [] := rfl
          refine .inr ⟨by simp [hjoins], ?_⟩
          simpa [hjoins, hdeeds] using lists_join hwf habsent name
        | _ => cases hjoins
    · refine .inr ?_
      have hstep := hlists.perform hwf a
      have hlast : [a].filterMap (Act.deed? p) = (a.deed? p).toList := by
        cases ha : a.deed? p <;> simp [ha]
      rw [Roster.id_run, ← Roster.run_append] at hstep
      simp only [List.isEmpty_iff, hsome, if_false, List.filterMap_append, hlast]
      exact ⟨by simp [hsome], hstep⟩

/-- **The open endpoints of a domain are told by the deeds of each participant alone.** -/
theorem openAs?_after (k : EndpointKind) (g : Guid) :
    ((new registry id latency clock).after as).openAs? k g =
      ((Roster.start g.participant).run (deeds g.participant as)).listing? k g.entity := by
  obtain ⟨p, e⟩ := g
  rcases lists_after registry id latency clock as p with ⟨hnone, habsent⟩ | ⟨-, hlists⟩
  · rw [openAs?_of_absent (wf_after registry id latency clock as) habsent]
    simp only [deeds, hnone]
    rfl
  · have hopen := hlists.openAs k e
    rwa [Roster.id_run] at hopen

end Run

end Domain

end PubSub.Loopback
