import PubSub.Proofs.Endpoint.Step
import PubSub.Proofs.Loopback.Effect

/-!
What happens in a domain, seen from one endpoint at a time: whatever it is, every endpoint goes from
step to step.
-/

namespace PubSub.Loopback

open Udp (Look Submission)
open Udp.Node (bind_ok)

def Act.look? : Act → Option (EndpointKind × Guid × Look)
  | .lookWriter w l => some (.writer, w, l)
  | .lookReader r l => some (.reader, r, l)
  | _ => none

def Act.touch? : Act → Option (EndpointKind × Guid × (StatusCondition → StatusCondition))
  | .lookWriter w (.condition f) => some (.writer, w, f)
  | .lookReader r (.condition f) => some (.reader, r, f)
  | _ => none

namespace Domain

def endpoints (d : Domain) : Endpoints := ⟨d.writers.get?, d.readers.get?⟩

variable {P : Looks} {d d' : Domain} {w r : Guid} {x : Writer}
  {y : Reader}

/-! ### One endpoint at a time -/

lemma evolves_adjustWriter {f : Writer → Writer}
    (hf : ∀ x, d.writers.get? w = some x → x.Moves (P .writer w) (f x)) :
    Evolves P d.endpoints (d.adjustWriter w f).endpoints := by
  refine .of_writer (g := w) rfl (fun w' hw => ?_) ?_
  · simp only [endpoints, get?_adjustWriter, if_neg hw]
  · simp only [endpoints, get?_adjustWriter, if_true]
    exact .map hf

lemma evolves_adjustReader {f : Reader → Reader}
    (hf : ∀ y, d.readers.get? r = some y → y.Moves (P .reader r) (f y)) :
    Evolves P d.endpoints (d.adjustReader r f).endpoints := by
  refine .of_reader (g := r) rfl (fun r' hr => ?_) ?_
  · simp only [endpoints, get?_adjustReader, if_neg hr]
  · simp only [endpoints, get?_adjustReader, if_true]
    exact .map hf

lemma evolves_setWriter {x' : Writer} (hx : d.writers.get? w = some x)
    (h : x.Moves (P .writer w) x') :
    Evolves P d.endpoints (d.adjustWriter w fun _ => x').endpoints := by
  refine evolves_adjustWriter fun x'' hx'' => ?_
  obtain rfl : x'' = x := Option.some.inj (hx''.symm.trans hx)
  exact h

lemma evolves_setReader {y' : Reader} (hy : d.readers.get? r = some y)
    (h : y.Moves (P .reader r) y') :
    Evolves P d.endpoints (d.adjustReader r fun _ => y').endpoints := by
  refine evolves_adjustReader fun y'' hy'' => ?_
  obtain rfl : y'' = y := Option.some.inj (hy''.symm.trans hy)
  exact h

lemma looked_writer (d : Domain) (w : Guid) (l : Look) :
    (d.perform (.lookWriter w l)).endpoints.writer? w = (d.endpoints.writer? w).map l.writer :=
  (get?_adjustWriter d w w l.writer).trans (if_pos rfl)

lemma looked_reader (d : Domain) (r : Guid) (l : Look) :
    (d.perform (.lookReader r l)).endpoints.reader? r = (d.endpoints.reader? r).map l.reader :=
  (get?_adjustReader d r r l.reader).trans (if_pos rfl)

lemma endpoints_submit (d : Domain) (w : Guid) (out : List Outgoing) :
    (d.submit w out).endpoints = d.endpoints := by
  unfold submit
  split <;> rfl

/-! ### Endpoints that come and go -/

lemma evolves_meet (d : Domain) (w : Guid) (offered : Qos) (r : Guid) (requested : Qos) :
    Evolves P d.endpoints (d.meet w offered r requested).endpoints := by
  unfold meet
  split
  · next p hp =>
    exact (evolves_adjustWriter fun x _ => .single (.refused p)).trans
      (evolves_adjustReader fun y _ => .single (.refused p))
  · unfold bind
    split
    · next x y hx hy =>
      rw [endpoints_submit]
      have hreader : Evolves P d.endpoints
          (d.adjustReader r (readerBound · w x.qos.isReliable)).endpoints :=
        evolves_adjustReader fun y _ => .single (.bound w _)
      exact hreader.trans
        (evolves_setWriter (d := d.adjustReader r _) hx (.single (.bound r y.qos)))
    · exact .refl _

lemma evolves_insertWriter (hx : Writer.Fresh x.guid x) :
    Evolves P d.endpoints (d.insertWriter x).endpoints := by
  have hget := d.writers.get?_insertLast x.guid x
  refine .of_writer (g := x.guid) rfl (fun w hw => ?_) ?_
  · simp only [endpoints, insertWriter, hget, if_neg hw, Option.or_none]
  · simp only [endpoints, insertWriter, hget, if_true]
    exact .or (fun _ => .refl) hx _

lemma evolves_insertReader (hy : Reader.Fresh y.guid y) :
    Evolves P d.endpoints (d.insertReader y).endpoints := by
  have hget := d.readers.get?_insertLast y.guid y
  refine .of_reader (g := y.guid) rfl (fun r hr => ?_) ?_
  · simp only [endpoints, insertReader, hget, if_neg hr, Option.or_none]
  · simp only [endpoints, insertReader, hget, if_true]
    exact .or (fun _ => .refl) hy _

lemma evolves_addWriter (hx : Writer.Fresh x.guid x) :
    Evolves P d.endpoints (d.addWriter x).endpoints :=
  (evolves_insertWriter hx).trans
    (Evolves.foldl (v := endpoints) ((d.insertWriter x).listedOf .reader x.key) _
      fun d e => evolves_meet d x.guid x.qos e.guid e.qos)

lemma evolves_addReader (hy : Reader.Fresh y.guid y) :
    Evolves P d.endpoints (d.addReader y).endpoints :=
  (evolves_insertReader hy).trans
    (Evolves.foldl (v := endpoints) ((d.insertReader y).listedOf .writer y.key) _
      fun d e => evolves_meet d e.guid e.qos y.guid y.qos)

lemma evolves_part (d : Domain) (gone peer : Entry) :
    Evolves P d.endpoints (d.part gone peer).endpoints := by
  unfold part
  split
  · exact evolves_adjustReader fun y _ => .single (.unbound _)
  · exact evolves_adjustWriter fun x _ => .single (.unbound _)
  · exact .refl _

lemma evolves_unlist (d : Domain) (key : MatchKey) (g : Guid) :
    Evolves P d.endpoints (d.unlist key g).endpoints := by
  unfold unlist
  split
  · next e _ => exact Evolves.foldl (v := endpoints) _ d fun d peer => evolves_part d e peer
  · exact .refl _

lemma evolves_closeWriter (d : Domain) (w : Guid) :
    Evolves P d.endpoints (d.closeWriter w).endpoints := by
  unfold closeWriter
  split
  · split_ifs
    · exact (evolves_adjustWriter fun x _ => .single .closed).trans (evolves_unlist _ _ _)
    · exact .refl _
  · exact .refl _

lemma evolves_closeReader (d : Domain) (r : Guid) :
    Evolves P d.endpoints (d.closeReader r).endpoints := by
  unfold closeReader
  split
  · split_ifs
    · exact (evolves_adjustReader fun y _ => .single .closed).trans (evolves_unlist _ _ _)
    · exact .refl _
  · exact .refl _

lemma evolves_delete (d : Domain) (p : Nat) : Evolves P d.endpoints (d.delete p).endpoints :=
  (Evolves.foldl (v := endpoints) _
      { d with participants := d.participants.adjust p ({ · with deleted := true }) }
      evolves_closeWriter).trans
    (Evolves.foldl (v := endpoints) _ _ evolves_closeReader)

/-- An endpoint is created with a quality of service that has no flaw. -/
lemma evolves_createEndpoint {p : Nat} {kind : EndpointKind} {e : Group} {t : Topic}
    {type : SampleType} {q : Qos} {g : Guid}
    (hok : d.createEndpoint p kind e t type q = .ok (d', g)) :
    Evolves P d.endpoints d'.endpoints := by
  obtain ⟨x, -, hok⟩ := bind_ok hok
  obtain ⟨⟨x', g'⟩, hx', hok⟩ := bind_ok hok
  have hq := Participant.flaw?_of_createEndpoint hx'
  cases kind with
  | writer =>
    obtain ⟨rfl, -⟩ := Prod.mk.inj (Except.ok.inj hok)
    exact evolves_addWriter (d := d.setParticipant x') ⟨t.name, type, q, hq, rfl⟩
  | reader =>
    obtain ⟨rfl, -⟩ := Prod.mk.inj (Except.ok.inj hok)
    exact evolves_addReader (d := d.setParticipant x') ⟨t.name, type, q, hq, rfl⟩

/-! ### Changes and their delivery -/

lemma evolves_submitted {s : Submission} (hok : d.submitted w s = .ok d') :
    Evolves P d.endpoints d'.endpoints := by
  rw [submitted_eq] at hok
  cases hmade : d.appended w s with
  | error f => simp [hmade, Except.map] at hok
  | ok made =>
    obtain ⟨x, hx⟩ := get?_of_appended hmade
    obtain ⟨-, rfl⟩ := appended_made hx hmade
    rw [hmade] at hok
    rw [← Except.ok.inj hok, endpoints_submit]
    exact evolves_setWriter hx (.single (.made _ _ _))

lemma evolves_run (d : Domain) (j : Job) : Evolves P d.endpoints (d.run j).endpoints := by
  unfold run
  split
  · exact .refl _
  · next y hy =>
    have hreceived : Evolves P d.endpoints (d.adjustReader j.out.reader fun _ =>
        (y.receive j.writer j.out.number j.out.change).1).endpoints :=
      evolves_setReader hy (.single (.received _ _ _))
    simp only
    split
    · exact hreceived.trans (evolves_adjustWriter fun x _ => .single (.acknowledged _ _))
    · exact hreceived

lemma evolves_deliver (d : Domain) : Evolves P d.endpoints d.deliver.endpoints := by
  unfold deliver
  split
  · exact .refl _
  · next j rest _ => exact evolves_run { d with queue := rest } j

/-- **Whatever happens in a domain, its endpoints go from step to step.** -/
theorem evolves_perform (d : Domain) (a : Act) (h : ∀ k g l, a.look? = some (k, g, l) → P k g l) :
    Evolves P d.endpoints (d.perform a).endpoints := by
  cases a with
  | join id name =>
    refine .of_eq ?_
    simp only [perform]
    split_ifs <;> rfl
  | createGroup p kind =>
    simp only [perform]
    split
    · next hok =>
      obtain ⟨x, -, hok⟩ := bind_ok hok
      obtain ⟨⟨x', g⟩, -, hok⟩ := bind_ok hok
      obtain ⟨rfl, -⟩ := Prod.mk.inj (Except.ok.inj hok)
      exact .of_eq rfl
    · exact .refl _
  | createEndpoint p kind g t type q =>
    simp only [perform]
    split
    · next hok => exact evolves_createEndpoint hok
    · exact .refl _
  | submit w s =>
    simp only [perform]
    split
    · next hok => exact evolves_submitted hok
    · exact .refl _
  | lookWriter w l => exact evolves_adjustWriter fun x _ => .single (.looked l (h _ _ l rfl))
  | lookReader r l => exact evolves_adjustReader fun y _ => .single (.looked l (h _ _ l rfl))
  | pause b => exact .of_eq rfl
  | passUntil t => exact .of_eq rfl
  | close g => exact (evolves_closeWriter d g).trans (evolves_closeReader _ g)
  | delete p => exact evolves_delete d p
  | leave p => exact evolves_delete d p
  | deliver =>
    simp only [perform]
    split_ifs
    · exact .refl _
    · exact evolves_deliver d

end Domain

end PubSub.Loopback
