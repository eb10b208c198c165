import PubSub.Proofs.Loopback.Deletion
import PubSub.Proofs.Udp.Deletion

/-!
What is left of the matches of a participant that is deleted, in either medium. Its peers forget it,
each of them as soon as it has been told; its own endpoints are closed with all that they have.
-/

namespace PubSub

/-- A participant has nothing to announce any more once it has been deleted. -/
lemma Udp.Node.announcements_delete (id domain : Nat) (name : String) (port : Nat) (t : Timing)
    (es : List Happening) :
    ((Node.new id domain name port t).after es).delete.1.announcements = [] := by
  have h := registered_after id domain name port t (es ++ [.act .delete])
  rw [after_concat] at h
  exact announcements_of_allClosed h (allClosed_delete _)

/-- What it announces then is heard as the announcement of nothing. -/
lemma Udp.Node.announces_delete (id domain : Nat) (name : String) (port : Nat) (t : Timing)
    (es : List Happening) (now : Nat) (source : Address) :
    ∃ x : Notice, x.endpoints = [] ∧ Announces domain id x
      (.arrive now source (.group
        ((Node.new id domain name port t).after es).delete.1.announcement)) := by
  have h := (abreast_after id domain name port t es).delete
  have hid := h.self
  have hgroup := h.group
  have hnone := announcements_delete id domain name port t es
  generalize ((Node.new id domain name port t).after es).delete.1 = n at hid hgroup hnone ⊢
  refine ⟨⟨[], now, .ofMillis n.leaseMillis⟩, rfl, source, n.participant.name, n.dataPort,
    n.leaseMillis, rfl, ?_⟩
  rw [announcement, hnone, hgroup, Node.id, hid]

/-- **A participant that is deleted is forgotten by all others, but forgets nobody itself.**
Whatever has happened before: in a domain in memory, every open endpoint of another participant has
lost the endpoints of the deleted one and nobody else when the deletion is over, and counts those
that it still has. On the network, the last that the deleted participant says, if it had anything
open, is that it has nothing any more; and whoever knows of its endpoints from that participant
alone loses just as much by hearing that. But no endpoint of the deleted participant itself reports
a match, or anything that is unacknowledged, after the deletion exactly if none did before. -/
theorem deletion_unmatches_others (registry id : Nat) (latency : Span) (clock : Nat)
    (as : List Loopback.Act) (p domain : Nat) (name : String) (port : Nat) (t : Udp.Timing)
    (es : List Udp.Happening) :
    let d := (Loopback.Domain.new registry id latency clock).after as
    let n := (Udp.Node.new p domain name port t).after es
    (d.endpoints.Loses p (d.delete p).endpoints ∧
      ((d.delete p).endpoints.Idle p ↔ d.endpoints.Idle p)) ∧
    (n.delete.2.getLast? =
        (if n.announcements = [] then none else some (.group n.delete.1.announcement)) ∧
      (∀ q name' port' t' es', Udp.Node.Vouched p domain es' → ∀ now source,
        let m := (Udp.Node.new q domain name' port' t').after es'
        let m' := m.happen (.arrive now source (.group n.delete.1.announcement))
        m.endpoints.Loses p m'.endpoints) ∧
      (n.delete.1.endpoints.Idle p ↔ n.endpoints.Idle p)) := by
  intro d n
  obtain ⟨met, h, -⟩ := Loopback.good_run registry id latency clock as
  have hdomain : ((Loopback.Trace.start registry id latency clock).run as).domain = d :=
    Loopback.Trace.domain_run _ as
  refine ⟨hdomain ▸ ⟨h.loses_delete p, h.idle_delete_iff p⟩, ?_, ?_, n.idle_delete_iff p⟩
  · exact Udp.Node.getLast?_delete (Udp.Node.announcements_delete p domain name port t es)
  · intro q name' port' t' es' hes now source
    obtain ⟨x, hx, he⟩ := Udp.Node.announces_delete p domain name port t es now source
    have hloses := Udp.Node.loses_after_none q domain name' port' t' hes he hx
    rwa [Udp.Node.after_concat] at hloses

section Example

open Loopback (crowd)
open Udp (advertised Happening Node)

/-- A participant with a reader has heard of a writer for it. -/
def departing : List Happening :=
  [.act (.createGroup .subscriber),
    .act (.createEndpoint .reader ⟨2, 1⟩ ⟨"t", SampleType.hello.name, 2⟩ .hello .bestEffort),
    .arrive 0 ⟨0, 7400⟩ (.group (.announce 1 0 "p" 7400 1000
      [⟨⟨1, 2⟩, .writer, "t", SampleType.hello.name, .bestEffort⟩]))]

/-- The one with the writer has heard of two others with a reader each. -/
def staying : List Happening :=
  [.act (.createGroup .publisher),
    .act (.createEndpoint .writer ⟨1, 1⟩ ⟨"t", SampleType.hello.name, 1⟩ .hello .bestEffort),
    advertised 0,
    .arrive 1 ⟨0, 7402⟩ (.group (.announce 3 0 "s" 7402 1000
      [⟨⟨3, 2⟩, .reader, "t", SampleType.hello.name, .bestEffort⟩]))]

lemma vouched_staying : Node.Vouched 2 0 staying := by
  intro s x hx a ha
  simp only [Udp.standing, staying, List.foldl_cons, List.foldl_nil, advertised, Udp.noted, if_true,
    Function.update_apply] at hx
  split_ifs at hx with h3 h2
  · obtain rfl := Option.some.inj hx
    obtain rfl := List.mem_singleton.mp ha
    simp [h3]
  · obtain rfl := Option.some.inj hx
    simp only [List.mem_cons, List.not_mem_nil, or_false] at ha
    rcases ha with rfl | rfl | rfl <;> simp [h2]

/-- The writers of the one that stays have lost the readers of the other one, and on the network the
reader of a third one has stayed. -/
theorem deletion_unmatches_others_crowd :
    let d := (Loopback.Domain.new 0 0 .zero 0).after crowd
    let n := (Node.new 2 0 "q" 7401 .default).after departing
    let m := (Node.new 1 0 "p" 7400 .default).after staying
    let m' := m.happen (.arrive 2 ⟨0, 7401⟩ (.group n.delete.1.announcement))
    (∃ x x', d.endpoints.openWriter? ⟨1, 2⟩ = some x ∧ x.history.isMatched ⟨2, 2⟩ = true ∧
      (d.delete 2).endpoints.openWriter? ⟨1, 2⟩ = some x' ∧
      x'.history.isMatched ⟨2, 2⟩ = false) ∧
    n.delete.2 ≠ [] ∧
    ∃ x x', m.endpoints.openWriter? ⟨1, 2⟩ = some x ∧ x.history.isMatched ⟨2, 2⟩ = true ∧
      m'.endpoints.openWriter? ⟨1, 2⟩ = some x' ∧ x'.history.isMatched ⟨2, 2⟩ = false ∧
      x'.history.isMatched ⟨3, 2⟩ = true := by
  intro d n m m'
  have hall := deletion_unmatches_others 0 0 .zero 0 crowd 2 0 "q" 7401 .default departing
  have hmemory : d.endpoints.Loses 2 (d.delete 2).endpoints := hall.1.1
  have hnetwork : m.endpoints.Loses 2 m'.endpoints :=
    hall.2.2.1 1 "p" 7400 .default staying vouched_staying 2 ⟨0, 7401⟩
  have hlast : n.delete.2.getLast? =
      if n.announcements = [] then none else some (.group n.delete.1.announcement) := hall.2.1
  have hopen : n.announcements ≠ [] := by decide +kernel
  have hw : (d.endpoints.openWriter? ⟨1, 2⟩).map (·.history.isMatched ⟨2, 2⟩) = some true := by
    decide +kernel
  have hw' : (m.endpoints.openWriter? ⟨1, 2⟩).map (fun x =>
      (x.history.isMatched ⟨2, 2⟩, x.history.isMatched ⟨3, 2⟩)) = some (true, true) := by
    decide +kernel
  clear_value m' m n d
  have hgone {x x' : Writer} (h : x.Loses 2 x') : x'.history.isMatched ⟨2, 2⟩ = false :=
    Bool.eq_false_iff.mpr fun hm => ((h.readers _).mp hm).2 rfl
  refine ⟨?_, fun hnil => ?_, ?_⟩
  · obtain ⟨x, hx, hmatched⟩ := Option.map_eq_some_iff.mp hw
    obtain ⟨x', hx', hlost⟩ := Udp.rel_left (hx ▸ hmemory.writer ⟨1, 2⟩ (by decide))
    exact ⟨x, x', hx, hmatched, hx', hgone hlost⟩
  · rw [hnil, if_neg hopen] at hlast
    cases hlast
  · obtain ⟨x, hx, hboth⟩ := Option.map_eq_some_iff.mp hw'
    obtain ⟨hmatched, hstays⟩ := Prod.mk.inj hboth
    obtain ⟨x', hx', hlost⟩ := Udp.rel_left (hx ▸ hnetwork.writer ⟨1, 2⟩ (by decide))
    exact ⟨x, x', hx, hmatched, hx', hgone hlost, (hlost.readers _).mpr ⟨hstays, by decide⟩⟩

/-- A writer that is deleted still reports the reader that it had; so does a reader on the network
its writer. -/
theorem not_idle_deleted :
    ¬(((Loopback.Domain.new 0 0 .zero 0).after crowd).delete 1).endpoints.Idle 1 ∧
      ¬((Node.new 2 0 "q" 7401 .default).after departing).delete.1.endpoints.Idle 2 := by
  constructor
  · intro hidle
    have hw : ((((Loopback.Domain.new 0 0 .zero 0).after crowd).delete 1).endpoints.writer?
        ⟨1, 2⟩).map (·.status.matched) = some 1 := by decide +kernel
    obtain ⟨x, hx, hone⟩ := Option.map_eq_some_iff.mp hw
    exact absurd (hone.symm.trans (hidle.writer ⟨1, 2⟩ x rfl hx).1) (by decide)
  · intro hidle
    have hr : (((Node.new 2 0 "q" 7401 .default).after departing).delete.1.endpoints.reader?
        ⟨2, 2⟩).map (·.status.matched) = some 1 := by decide +kernel
    obtain ⟨y, hy, hone⟩ := Option.map_eq_some_iff.mp hr
    exact absurd (hone.symm.trans (hidle.reader ⟨2, 2⟩ y rfl hy)) (by decide)

end Example

end PubSub
