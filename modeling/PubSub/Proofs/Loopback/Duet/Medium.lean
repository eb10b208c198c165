import PubSub.Proofs.Loopback.Duet.Departure
import PubSub.Proofs.Loopback.Duet.Duty

/-!
A loopback medium with nobody but a duet. It grants each side what its duty entitles it to, and
the chores of a call do what they are meant to.
-/

namespace PubSub.Loopback.Duet

variable {s : Scenario} {c : Config} {scope : Scope} {σ σ' : Duet} {w : World} {d d' : Domain}
  {a a' : Option Domain.Receipt} {k : EndpointKind} {D : Duty} {t : List Chore}

/-- A medium with nobody but a duet, whose domain is opened when the first of the two joins. -/
structure Hosts (s : Scenario) (scope : Scope) (σ : Duet) (w : World)
    (a : Option Domain.Receipt) : Prop where
  registry : σ.registry = scope.registry
  domain : ∃ d, (w.domains = [d] ∧ (∃ k, (σ.post k).presence ≠ .outside) ∨
    w.domains = [] ∧ d = .new scope.registry σ.domain scope.latency w.now) ∧ Fits s σ d a
  homes : ∀ k, (σ.post k).home < World.idBase + w.nextParticipant

namespace Hosts

/-- Once somebody has joined, the domain is there. -/
lemma opened (h : Hosts s scope σ w a) (hk : (σ.post k).presence ≠ .outside) :
    ∃ d, w.domains = [d] ∧ Fits s σ d a ∧ d.participants.has (σ.post k).home = true := by
  obtain ⟨d, ⟨hd, -⟩ | ⟨-, rfl⟩, hfits⟩ := h.domain
  · exact ⟨d, hd, hfits, has_of_housed (hfits.housed k) hk⟩
  · exact absurd (has_of_housed (hfits.housed k) hk) Bool.false_ne_true

lemma set (h : Hosts s scope σ w a) (hfits : Fits s σ' d' a') (hregistry : σ'.registry = σ.registry)
    (hk : (σ'.post k).presence ≠ .outside) (homes : ∀ k, (σ'.post k).home = (σ.post k).home) :
    Hosts s scope σ' { w with domains := [d'] } a' where
  registry := hregistry.trans h.registry
  domain := ⟨d', .inl ⟨rfl, k, hk⟩, hfits⟩
  homes k := homes k ▸ h.homes k

/-- A side of the duet moves, and stays where it is at home. -/
lemma move (h : Hosts s scope σ w a) {x : Post} (hfits : Fits s (σ.move k x) d' a)
    (hx : x.presence ≠ .outside) (hhome : x.home = (σ.post k).home) :
    Hosts s scope (σ.move k x) { w with domains := [d'] } a := by
  refine h.set (k := k) hfits (by cases k <;> rfl) (by rw [post_move_self]; exact hx) fun k' => ?_
  rw [post_move]
  split_ifs with hk'
  · rw [hk', hhome]
  · rfl

lemma stay (h : Hosts s scope σ w a) (hk : (σ.post k).presence ≠ .outside)
    (hfits : Fits s σ d' a') : Hosts s scope σ { w with domains := [d'] } a' :=
  h.set hfits rfl hk fun _ => rfl

/-- The worker of the domain has only that to look at. -/
lemma worker (h : Hosts s scope σ w a) {i : Nat} {d : Domain} (hd : w.domains[i]? = some d) :
    i = 0 ∧ w.domains = [d] ∧ (∃ k, (σ.post k).presence ≠ .outside) ∧ Fits s σ d a := by
  obtain ⟨d₁, ⟨hdomains, hk⟩ | ⟨hdomains, -⟩, hfits⟩ := h.domain
  · rw [hdomains] at hd
    obtain ⟨hi, rfl⟩ := List.getElem?_eq_some_iff.mp hd
    obtain rfl : i = 0 := Nat.lt_one_iff.mp hi
    exact ⟨rfl, hdomains, hk, hfits⟩
  · rw [hdomains] at hd
    cases hd

end Hosts

lemma post_become {p : Nat} {x : Presence} (hk : σ.post k = ⟨p, x⟩) (y : Presence) :
    (σ.become k y).post k = ⟨p, y⟩ := by
  rw [become, post_move_self, hk]

/-- A side that has no endpoint yet gets on. -/
lemma onward_new {x : Post} (hk : (σ.post k).presence.created = false) :
    σ.Onward (σ.move k x) (other k) :=
  onward_move (fun hc => absurd hc (ne_true_of_eq_false hk))
    fun hend => absurd hend (ne_true_of_eq_false (ending_of_not_created hk))

lemma guid_of_post {p : Nat} {x : Presence} (hk : σ.post k = ⟨p, x⟩) :
    (σ.post k).guid = .sole p := by
  rw [hk]
  rfl

section Lookup

variable {p : Nat} (hd : w.domains = [d]) (hp : d.participants.has p = true)

include hd hp

lemma domainOf?_eq : w.domainOf? p = some d := by
  rw [World.domainOf?, hd]
  exact List.find?_cons_of_pos hp

lemma adjust_eq (f : Domain → Domain) : w.adjust p f = { w with domains := [f d] } := by
  rw [World.adjust, hd, List.map_singleton, if_pos hp]

lemma within_eq {α : Type} {f : Domain → Except Fault (Domain × α)} {b : α} {absent : Fault}
    (hf : f d = .ok (d', b)) :
    w.within p absent f = .ok ({ w with domains := [d'] }, b) := by
  rw [World.within, domainOf?_eq hd hp]
  change (f d >>= _) = _
  rw [hf]
  exact congrArg (fun w => Except.ok (w, b)) (adjust_eq hd hp _)

lemma chore_eq {t : Chore} (ht : t.home = p) {more : List Chore} (hrun : t.run d = (d', more)) :
    w.chore t = ({ w with domains := [d'] }, more) := by
  subst ht
  rw [World.chore, domainOf?_eq hd hp]
  simp only [hrun, adjust_eq hd hp]

end Lookup

/-! ### What has been left for later -/

/-- The next thing that a side has left for later is done. -/
theorem Hosts.chore (h : Hosts s scope σ w a) {x : Chore} (ht : σ.Owes s k D (x :: t)) :
    ∃ σ' w' more, w.chore x = (w', more) ∧ Hosts s scope σ' w' a ∧
      σ'.Owes s k D (more ++ t) ∧ σ.Onward σ' (other k) ∧ σ'.domain = σ.domain := by
  cases ht with
  | @submit p n c hk hw hr hmade hsent hc =>
    -- the writer puts the change on its way that it has made before
    subst hk hsent
    obtain ⟨d, hd, hfits, hp⟩ := h.opened (k := .writer) (ne_outside_of_post hw (by decide))
    have hgot := hfits.order.got
    have hactive := active_of_created hr (hfits.order.not_ending (by omega)).1
    have hguid : σ.writer.guid = .sole p := by rw [hw]; rfl
    have hsubmit := hfits.submit (by rw [hw]) hactive hmade.symm hc
    refine ⟨{ σ with sent := σ.sent + 1 }, _, [],
      chore_eq hd hp (by rw [post, hw]; rfl) rfl, h.set (k := .writer) ?_ rfl
        (ne_outside_of_post hw (by decide)) (fun k => by cases k <;> rfl), ?_, ?_, rfl⟩
    · rw [← hguid]
      exact hsubmit
    · exact .nothing ⟨rfl, hw, hmade, rfl, fun _ => hr, fun hset => absurd hset Bool.false_ne_true⟩
    · exact onward_write _ _
  | @close p hk hdone =>
    obtain ⟨d, hd, hfits, hp⟩ := h.opened (ne_outside_of_post hk (by decide))
    -- closing leaves the entry to be unlisted
    have hclose : ∃ d', (Chore.close k (.sole p)).run d = (d', [.unlist s.matchKey (.sole p)]) ∧
        Fits s (σ.become k .closing) d' a := by
      rw [← guid_of_post hk]
      cases k with
      | writer => exact hfits.closeWriter (congrArg Post.presence hk) hdone.1 hdone.2
      | reader => exact hfits.closeReader (congrArg Post.presence hk) hdone
    obtain ⟨d', hrun, hfits'⟩ := hclose
    rw [hk] at hp
    refine ⟨σ.become k .closing, _, _, chore_eq hd hp (by cases k <;> rfl) hrun,
      h.move hfits' Presence.noConfusion rfl, .unlist (post_become hk _), ?_, by cases k <;> rfl⟩
    exact onward_move (fun _ => ⟨rfl, rfl⟩) fun _ => rfl
  | @unlist p hk =>
    obtain ⟨d, hd, hfits, hp⟩ := h.opened (ne_outside_of_post hk (by decide))
    have hunlist : Fits s (σ.become k .gone) (d.unlist s.matchKey (.sole p)) a := by
      rw [← guid_of_post hk]
      cases k with
      | writer => exact hfits.unlistWriter (congrArg Post.presence hk)
      | reader => exact hfits.unlistReader (congrArg Post.presence hk)
    rw [hk] at hp
    refine ⟨σ.become k .gone, _, [], chore_eq hd hp rfl rfl,
      h.move hunlist Presence.noConfusion rfl, .nothing (post_become hk _), ?_,
      by cases k <;> rfl⟩
    exact onward_move (fun _ => ⟨rfl, rfl⟩) fun _ => rfl
  | @leave p hk =>
    -- its endpoint is gone, so leaving closes nothing more
    obtain ⟨d, hd, hfits, hp⟩ := h.opened (ne_outside_of_post hk (by decide))
    have hrun := hfits.close_gone (congrArg Post.presence hk)
    rw [guid_of_post hk] at hrun
    rw [hk] at hp
    exact ⟨σ, _, [], chore_eq hd hp (by cases k <;> rfl) hrun,
      h.stay (ne_outside_of_post hk (by decide)) hfits, .retire hk, .refl σ _, rfl⟩
  | @retire p hk =>
    obtain ⟨d, hd, hfits, hp⟩ := h.opened (ne_outside_of_post hk (by decide))
    have hmark := hfits.mark (k := k) (f := ({ · with left := true })) (by rw [hk]; rfl)
      fun hactive => by rw [hk] at hactive; cases hactive
    rw [hk] at hp hmark
    exact ⟨σ, _, [], chore_eq hd hp rfl rfl, h.stay (ne_outside_of_post hk (by decide)) hmark,
      .nothing (congrArg Post.presence hk), .refl σ _, rfl⟩

/-! ### What is granted at once -/

lemma Orderly.other_not_ending {total : Nat} (h : σ.Orderly total) (htotal : 0 < total)
    (hk : (σ.post k).presence.created = false) :
    (σ.post (other k)).presence.ending = false := by
  obtain ⟨hmade, -, -, -, hread⟩ := h.unbegun hk
  by_contra hend
  rw [Bool.not_eq_false] at hend
  cases k with
  | writer =>
    have := h.finished hend
    omega
  | reader =>
    have := (h.written hend).1
    omega

/-- Whoever is there and has not done its part keeps the domain alive. -/
lemma Fits.live (h : Fits s σ d a) (hk : (σ.post k).presence ≠ .outside)
    (hend : (σ.post k).presence.ending = false) : d.live = true := by
  have hhoused := h.housed k
  obtain ⟨y, hy, hleft⟩ : ∃ y, d.participants.get? (σ.post k).home = some y ∧ y.left = false := by
    unfold Post.Housed at hhoused
    cases hp : (σ.post k).presence with
    | outside => exact absurd hp hk
    | joined | grouped =>
      rw [hp] at hhoused
      obtain ⟨y, hy, -, -, -, hleft⟩ := hhoused
      exact ⟨y, hy, hleft⟩
    | pledged | active =>
      rw [hp] at hhoused
      exact hhoused
    | closing | gone =>
      rw [hp] at hend
      cases hend
  rw [Domain.live, List.any_eq_true]
  exact ⟨y, List.mem_map.mpr ⟨_, Table.mem_of_get? hy, rfl⟩, by rw [hleft]; rfl⟩

/-- A side joins, and finds the other one in its domain if that is there already. -/
lemma Hosts.join (h : Hosts s scope σ w a) (hc : c.validate = .ok ())
    (hdomain : σ.domain = c.domain) (hk : (σ.post k).presence = .outside) (name : String) :
    ∃ w' p, w.join scope c.domain name = .ok (w', p) ∧
      Hosts s scope (σ.move k ⟨p, .joined⟩) w' a := by
  have hcheck : Config.checkDomain c.domain = .ok () := by
    cases hcheck : Config.checkDomain c.domain with
    | ok u => rfl
    | error f =>
      rw [Config.validate, hcheck] at hc
      cases hc
  obtain ⟨d, hd, hfits⟩ := h.domain
  -- its number has not been given before
  have hfresh : d.participants.has (World.idBase + w.nextParticipant) = false := by
    by_contra hhas
    obtain ⟨k', -, hhome⟩ := hfits.peopled _ (Bool.not_eq_false _ ▸ hhas)
    exact absurd (h.homes k') (hhome ▸ Nat.lt_irrefl _)
  have henter : w.enter scope c.domain (World.idBase + w.nextParticipant) name =
      [d.addParticipant (World.idBase + w.nextParticipant) name] := by
    rcases hd with ⟨hd, k', hk'⟩ | ⟨hd, rfl⟩
    · -- the other side is there, and keeps its domain live
      have hother : k' = other k := eq_other fun hkk' => hk' (by rw [hkk']; exact hk)
      subst hother
      have hend := hfits.order.other_not_ending (k := k) (Nat.succ_pos _) (by rw [hk]; rfl)
      have hlive : World.isLive scope.registry c.domain d = true := by
        simp [World.isLive, hfits.registry, h.registry, hfits.id, hdomain, hfits.live hk' hend]
      simp [World.enter, hd, hlive]
    · -- it is the first, and opens the domain
      simp [World.enter, hd, hdomain]
  refine ⟨⟨w.now, w.nextParticipant + 1, w.enter scope c.domain
    (World.idBase + w.nextParticipant) name⟩, World.idBase + w.nextParticipant, ?_, ?_⟩
  · rw [World.join, hcheck]
    rfl
  · rw [henter]
    refine ⟨?_, ⟨_, .inl ⟨rfl, k, ?_⟩, hfits.join hk hfresh name⟩, fun k' => ?_⟩
    · exact (by cases k <;> rfl : (σ.move k _).registry = σ.registry).trans h.registry
    · exact ne_outside_of_post (post_move_self σ k _) (by decide)
    · rw [post_move]
      split_ifs
      · exact Nat.lt_succ_self _
      · exact Nat.lt_succ_of_lt (h.homes k')

/-- A request gets an answer with which the side goes on. What is left for later, the side then
owes, and the other side is not touched. -/
def Serves (s : Scenario) (scope : Scope) (σ : Duet) (w : World) (a : Option Domain.Receipt)
    (k : EndpointKind) (q : Request) (P : q.Answer → Duty → Prop) : Prop :=
  ∃ w' chores r σ' D', w.begin (fun w => w.join scope) q = (w', chores, .ok r) ∧ P r D' ∧
    Hosts s scope σ' w' a ∧ σ'.Owes s k D' chores ∧ σ.Onward σ' (other k) ∧ σ'.domain = σ.domain

section Requests

variable (h : Hosts s scope σ w a)

include h

lemma Hosts.serves_join (hc : c.validate = .ok ()) (hdomain : σ.domain = c.domain)
    (hD : σ.Keeps k .outside) (name : String) {P : Nat → Duty → Prop} (hP : ∀ p, P p (.joined p)) :
    Serves s scope σ w a k (.join c.domain name) P := by
  have hk : (σ.post k).presence = .outside := hD
  obtain ⟨w', p, hjoin, hhosts⟩ := h.join hc hdomain hk name
  refine ⟨w', [], p, _, _, ?_, hP p, hhosts, .nothing ?_, ?_, by cases k <;> rfl⟩
  · simp only [World.begin, Runner.answer, hjoin, Runner.attempt]
  · exact post_move_self σ k _
  · exact onward_new (by rw [hk]; rfl)

lemma Hosts.serves_createTopic {p : Nat} (hD : σ.Keeps k (.joined p)) (htopic : s.topic ≠ "")
    {P : Topic → Duty → Prop} (hP : P ⟨s.topic, s.sample.type.name, p⟩ (.joined p)) :
    Serves s scope σ w a k (.createTopic p s.topic s.sample.type) P := by
  have hk : σ.post k = ⟨p, .joined⟩ := hD
  obtain ⟨d, hd, hfits, hp⟩ := h.opened (ne_outside_of_post hk (by decide))
  have hhoused := hfits.housed k
  rw [hk] at hp hhoused
  obtain ⟨y, hy, hid, -, hdeleted, -⟩ := hhoused
  have hget : Middleware.participant? w p = some y := by
    change (w.domainOf? p).bind _ = _
    rw [domainOf?_eq hd hp]
    exact hy
  have htopic' : y.createTopic s.topic s.sample.type =
      .ok ⟨s.topic, s.sample.type.name, p⟩ := by
    rw [Participant.createTopic, Participant.checkAlive, hdeleted, if_neg htopic, hid]
    rfl
  refine ⟨w, [], _, σ, _, ?_, hP, h, .nothing hD, .refl σ _, rfl⟩
  simp only [World.begin, Runner.answer, Middleware.createTopic, hget, htopic']
  rfl

lemma Hosts.serves_createGroup {p : Nat} (hD : σ.Keeps k (.joined p)) {P : Group → Duty → Prop}
    (hP : P ⟨p, 1⟩ (.grouped p)) : Serves s scope σ w a k (.createGroup p k) P := by
  have hk : σ.post k = ⟨p, .joined⟩ := hD
  obtain ⟨d, hd, hfits, hp⟩ := h.opened (ne_outside_of_post hk (by decide))
  rw [hk] at hp
  obtain ⟨d', hcreate, hfits'⟩ := hfits.createGroup hk (Runner.groupKind k)
  have hwithin : Middleware.createGroup w p (Runner.groupKind k) = _ := within_eq hd hp hcreate
  refine ⟨_, [], _, σ.move k ⟨p, .grouped⟩, _, ?_, hP,
    h.move hfits' Presence.noConfusion (by rw [hk]), .nothing ?_, ?_, by cases k <;> rfl⟩
  · simp only [World.begin, Runner.answer, hwithin, Runner.attempt]
  · exact post_move_self σ k _
  · exact onward_new (by rw [hk]; rfl)

lemma Hosts.serves_createEndpoint {p : Nat} (hD : σ.Keeps k (.grouped p))
    (hflaw : s.qos.flaw? = none) (hq : s.qos.isReliable = true) {P : Guid → Duty → Prop}
    (hP : P (.sole p) (.fresh p k)) :
    Serves s scope σ w a k
      (.createEndpoint p k ⟨p, 1⟩ ⟨s.topic, s.sample.type.name, p⟩ s.sample.type s.qos) P := by
  have hk : σ.post k = ⟨p, .grouped⟩ := hD
  obtain ⟨d, hd, hfits, hp⟩ := h.opened (ne_outside_of_post hk (by decide))
  rw [hk] at hp
  have hcreated : (σ.post k).presence.created = false := by rw [hk]; rfl
  have hend := hfits.order.other_not_ending (Nat.succ_pos _) hcreated
  obtain ⟨d', hcreate, hfits'⟩ := hfits.createEndpoint hk hend hflaw hq
  obtain ⟨hmade, hsent, -, hacked, hread⟩ := hfits.order.unbegun hcreated
  have hwithin : Middleware.createEndpoint w p k ⟨p, 1⟩ ⟨s.topic, s.sample.type.name, p⟩
      s.sample.type s.qos = _ := within_eq hd hp hcreate
  refine ⟨_, [], _, σ.move k ⟨p, .active⟩, _, ?_, hP,
    h.move hfits' Presence.noConfusion (by rw [hk]),
    .nothing (keeps_fresh hmade hsent hread hacked), ?_, by cases k <;> rfl⟩
  · simp only [World.begin, Runner.answer, hwithin, Runner.attempt]
  · exact onward_new (by rw [hk]; rfl)

/-- The writer has made its next change, which it has yet to submit. -/
lemma Hosts.owes_submit {p : Nat} {x : Change} (hw : σ.writer = ⟨p, .active⟩)
    (hr : σ.reader.presence.created = true) (hsent : σ.sent = σ.made)
    (hx : s.changes[σ.made]? = some x) (hfits : Fits s { σ with made := σ.made + 1 } d' a) :
    Hosts s scope { σ with made := σ.made + 1 } { w with domains := [d'] } a ∧
      ({ σ with made := σ.made + 1 } : Duet).Owes s .writer (.writing p true (σ.made + 1) false)
        [.submit (.sole p) [⟨σ.reader.guid, σ.made + 1, x⟩]] := by
  refine ⟨h.set (k := .writer) hfits rfl (ne_outside_of_post hw (by decide)) fun k => ?_,
    .submit rfl hw hr rfl hsent hx⟩
  cases k <;> rfl

lemma Hosts.serves_write {p : Nat} {settled : Bool} (hD : σ.Keeps k (.writing p true 0 settled))
    {P : Handle → Duty → Prop}
    (hP : P (InstanceKey.handle s.sample.key) (.writing p true 1 false)) :
    Serves s scope σ w a k (.write (.sole p) s.sample) P := by
  obtain ⟨rfl, hw, hmade, hsent, hmatched, -⟩ := hD
  obtain ⟨d, hd, hfits, hp⟩ := h.opened (k := .writer) (ne_outside_of_post hw (by decide))
  have hgot := hfits.order.got
  have hr := hmatched rfl
  have hactive := active_of_created hr
    (hfits.order.reader_staying (by rw [Scenario.changes, List.length_cons]; omega))
  obtain ⟨d', x, happend, hx, hfits'⟩ := hfits.append (by rw [hw]) hactive hmade
  rw [show σ.writer.guid = .sole p from guid_of_post (k := .writer) hw] at happend
  rw [post, hw] at hp
  have hwithin : w.within (Guid.sole p).participant (.deleted .writer)
      (·.append (.sole p) s.sample) = _ := within_eq hd hp happend
  obtain ⟨hhosts, howes⟩ := h.owes_submit hw hr (hsent.trans hmade.symm) hx hfits'
  rw [show 1 = σ.made + 1 by rw [hmade]] at hP
  refine ⟨_, _, _, _, _, ?_, hP, hhosts, howes, onward_write _ _, rfl⟩
  simp only [World.begin, hwithin]

lemma Hosts.serves_dispose {p : Nat} (hD : σ.Keeps k (.writing p true 1 true))
    (hv : s.variant = .dispose) {P : Unit → Duty → Prop} (hP : P () (.writing p true 2 false)) :
    Serves s scope σ w a k (.dispose (.sole p) s.sample (InstanceKey.handle s.sample.key)) P := by
  obtain ⟨rfl, hw, hmade, hsent, hmatched, -⟩ := hD
  obtain ⟨d, hd, hfits, hp⟩ := h.opened (k := .writer) (ne_outside_of_post hw (by decide))
  have hgot := hfits.order.got
  have hr := hmatched rfl
  have hlength : s.changes.length = 2 := by rw [Scenario.changes, hv]; rfl
  have hactive := active_of_created hr (hfits.order.reader_staying (by omega))
  obtain ⟨d', x, happend, hx, hfits'⟩ := hfits.appendDisposal (by rw [hw]) hactive hmade hv
  rw [show σ.writer.guid = .sole p from guid_of_post (k := .writer) hw] at happend
  rw [post, hw] at hp
  have hwithin : w.within (Guid.sole p).participant (.deleted .writer)
      (·.appendDisposal (.sole p) s.sample s.sample.key.handle) = _ := within_eq hd hp happend
  obtain ⟨hhosts, howes⟩ := h.owes_submit hw hr (hsent.trans hmade.symm) hx hfits'
  rw [show 2 = σ.made + 1 by rw [hmade]] at hP
  refine ⟨_, _, _, _, _, ?_, hP, hhosts, howes, onward_write _ _, rfl⟩
  simp only [World.begin, hwithin]

lemma Hosts.writer? {p : Nat} {x : Presence} (hw : σ.writer = ⟨p, x⟩) (hx : x.created = true) :
    ∃ y, Middleware.writer? w (.sole p) = some y ∧ σ.WriterFits s y := by
  obtain ⟨d, hd, hfits, hp⟩ := h.opened (k := .writer) (by
    rw [post, hw]
    exact ne_outside_of_created hx)
  obtain ⟨y, hy, hyfits⟩ := hfits.writer (by rw [hw]; exact hx)
  rw [post, hw] at hp
  refine ⟨y, ?_, hyfits⟩
  change (w.domainOf? p).bind (·.writers.get? (.sole p)) = some y
  rw [domainOf?_eq hd hp, Option.bind_some, hy,
    show σ.writer.guid = .sole p from guid_of_post (k := .writer) hw, Table.get?_cons, if_pos rfl]

lemma Hosts.reader? {p : Nat} {x : Presence} (hr : σ.reader = ⟨p, x⟩) (hx : x.created = true) :
    ∃ y, Middleware.writer? w (.sole p) = none ∧ Middleware.reader? w (.sole p) = some y ∧
      σ.ReaderFits s y := by
  have hout : (σ.post .reader).presence ≠ .outside := by
    rw [post, hr]
    exact ne_outside_of_created hx
  obtain ⟨d, hd, hfits, hp⟩ := h.opened hout
  obtain ⟨y, hy, hyfits⟩ := hfits.reader (by rw [hr]; exact hx)
  have hguid : σ.reader.guid = .sole p := guid_of_post (k := .reader) hr
  rw [post, hr] at hp
  refine ⟨y, ?_, ?_, hyfits⟩
  · change (w.domainOf? p).bind (·.writers.get? (.sole p)) = none
    rw [domainOf?_eq hd hp, Option.bind_some]
    cases hw : σ.writer.presence.created with
    | false => rw [hfits.noWriter hw]; rfl
    | true =>
      obtain ⟨x, hx, -⟩ := hfits.writer hw
      have hne := hfits.order.apart_of hout
        (ne_outside_of_created (p := (σ.post .writer).presence) hw)
      rw [hx, Table.get?_cons, if_neg]
      · rfl
      · rw [← hguid]
        exact fun hsame => hne (congrArg Guid.participant hsame)
  · change (w.domainOf? p).bind (·.readers.get? (.sole p)) = some y
    rw [domainOf?_eq hd hp, Option.bind_some, hy, hguid, Table.get?_cons, if_pos rfl]

lemma Hosts.adjustWriter {p : Nat} (hk : (σ.post k) = ⟨p, .active⟩) {f : Writer → Writer}
    (hf : ∀ x, σ.WriterFits s x → σ.WriterFits s (f x)) :
    Hosts s scope σ (Middleware.adjustWriter w (.sole p) f) a := by
  obtain ⟨d, hd, hfits, hp⟩ := h.opened (ne_outside_of_post hk (by decide))
  rw [hk] at hp
  change Hosts s scope σ (w.adjust p fun d => d.adjustWriter (.sole p) f) a
  rw [adjust_eq hd hp]
  exact h.stay (ne_outside_of_post hk (by decide)) (hfits.adjustWriter _ hf)

lemma Hosts.adjustReader {p : Nat} (hk : (σ.post k) = ⟨p, .active⟩) {f : Reader → Reader}
    (hf : ∀ y, σ.ReaderFits s y → σ.ReaderFits s (f y)) :
    Hosts s scope σ (Middleware.adjustReader w (.sole p) f) a := by
  obtain ⟨d, hd, hfits, hp⟩ := h.opened (ne_outside_of_post hk (by decide))
  rw [hk] at hp
  change Hosts s scope σ (w.adjust p fun d => d.adjustReader (.sole p) f) a
  rw [adjust_eq hd hp]
  exact h.stay (ne_outside_of_post hk (by decide)) (hfits.adjustReader _ hf)

lemma Hosts.serves_takeMatched {e : Guid} {kind : EndpointKind} (hD : σ.Keeps k D)
    (he : D.endpoint? = some e) {P : MatchedStatus → Duty → Prop} (hP : ∀ m, P m D) :
    Serves s scope σ w a k (.takeMatched e kind) P := by
  obtain ⟨p, rfl, hk⟩ := hD.endpoint he
  suffices ∃ w' m, Middleware.takeMatched w (.sole p) = (w', m) ∧ Hosts s scope σ w' a by
    obtain ⟨w', m, htake, hhosts⟩ := this
    refine ⟨w', [], m, σ, D, ?_, hP m, hhosts, .nothing hD, .refl σ _, rfl⟩
    simp only [World.begin, Runner.answer, htake]
  cases k with
  | writer =>
    obtain ⟨x, hx, hfits⟩ := h.writer? hk rfl
    have htake : Middleware.takeMatched w (.sole p) =
        (Middleware.adjustWriter w (.sole p) fun _ => x.takeMatched.1, x.matched) := by
      rw [Middleware.takeMatched, hx]
      rfl
    refine ⟨_, _, htake, h.adjustWriter hk fun _ _ => ?_⟩
    exact hfits.update rfl rfl rfl (Nat.le_refl _) fun _ hh => hh
  | reader =>
    obtain ⟨y, hx, hy, hfits⟩ := h.reader? hk rfl
    have htake : Middleware.takeMatched w (.sole p) =
        (Middleware.adjustReader w (.sole p) fun _ => y.takeMatched.1, y.matched) := by
      rw [Middleware.takeMatched, hx, hy]
      rfl
    refine ⟨_, _, htake, h.adjustReader hk fun _ _ => ?_⟩
    exact hfits.update rfl rfl rfl rfl fun _ hc => hc

/-- After the wait for data, a sample is there for sure. -/
lemma Hosts.serves_take {p read : Nat} (hD : σ.Keeps k (.reading p read true))
    (hsample : s.sample.InRange) {P : List (Sample Value) → Duty → Prop}
    (hP : ∀ x, s.samples[read]? = some x → P [x] (.reading p (read + 1) false)) :
    Serves s scope σ w a k (.take (.sole p) 1) P := by
  obtain ⟨rfl, hr, rfl, hready⟩ := hD
  obtain ⟨d, hd, hfits, hp⟩ := h.opened (k := .reader) (ne_outside_of_post hr (by decide))
  have hguid : σ.reader.guid = .sole p := guid_of_post (k := .reader) hr
  obtain ⟨y, x, hget, hx, htake, hfits'⟩ := hfits.take (by rw [hr]) hsample (hready rfl)
  rw [post, hr] at hp
  rw [hguid] at hget hfits'
  have hreader : Middleware.reader? w (.sole p) = some y := by
    change (w.domainOf? p).bind (·.readers.get? (.sole p)) = some y
    rw [domainOf?_eq hd hp]
    exact hget
  have hadjust : Middleware.adjustReader w (.sole p) (fun _ => (y.take 1).1) =
      { w with domains := [d.adjustReader (.sole p) fun _ => (y.take 1).1] } :=
    adjust_eq hd hp _
  refine ⟨_, [], [x], { σ with read := σ.read + 1 }, .reading p (σ.read + 1) false, ?_, hP x hx,
    h.set (k := .reader) hfits' rfl (ne_outside_of_post hr (by decide)) fun k => ?_,
    .nothing ⟨rfl, hr, rfl, fun hset => absurd hset Bool.false_ne_true⟩, onward_take _, rfl⟩
  · simp only [World.begin, Runner.answer, Middleware.take, hreader, hadjust, htake]
    rfl
  · cases k <;> rfl

/-- The participant of a side will create nothing any more. -/
lemma Hosts.condemn {p : Nat} {x : Presence} (hk : σ.post k = ⟨p, x⟩) (hx : x.created = true) :
    Hosts s scope σ (w.adjust p (·.condemn p)) a ∧ w.closings p = [.close k (.sole p)] := by
  obtain ⟨d, hd, hfits, hp⟩ := h.opened (k := k) (by rw [hk]; exact ne_outside_of_created hx)
  have hmark := hfits.mark (k := k) (f := ({ · with deleted := true })) (by rw [hk]; exact hx)
    fun _ _ => rfl
  have hclosings := hfits.closings (k := k) (by rw [hk]; exact hx)
  rw [guid_of_post hk] at hclosings
  rw [hk] at hp hmark hclosings
  refine ⟨?_, ?_⟩
  · rw [adjust_eq hd hp]
    exact h.stay (k := k) (by rw [hk]; exact ne_outside_of_created hx) hmark
  · rw [World.closings, domainOf?_eq hd hp]
    exact hclosings

lemma Hosts.serves_delete {p : Nat} (hD : σ.Keeps k D)
    (hdone : D = .writing p true s.changes.length true ∨ D = .reading p s.changes.length false)
    {P : Unit → Duty → Prop} (hP : P () (.released p)) : Serves s scope σ w a k (.delete p) P := by
  have hside : σ.post k = ⟨p, .active⟩ ∧ σ.Done s k := by
    rcases hdone with rfl | rfl
    · obtain ⟨rfl, hw, hmade, -, -, hsettled⟩ := hD
      exact ⟨hw, hmade, (hsettled rfl).imp_right fun hacked => hacked.trans hmade.symm⟩
    · obtain ⟨rfl, hr, hread, -⟩ := hD
      exact ⟨hr, hread⟩
  obtain ⟨hhosts, hclosings⟩ := h.condemn hside.1 rfl
  refine ⟨_, _, (), σ, .released p, ?_, hP, hhosts, .close hside.1 hside.2, .refl σ _, rfl⟩
  simp only [World.begin, hclosings]

lemma Hosts.serves_leave {p : Nat} (hD : σ.Keeps k (.released p)) {P : Unit → Duty → Prop}
    (hP : P () .away) : Serves s scope σ w a k (.leave p) P := by
  obtain ⟨hhosts, hclosings⟩ := h.condemn hD rfl
  refine ⟨_, _, (), σ, .away, ?_, hP, hhosts, .leave hD, .refl σ _, rfl⟩
  simp only [World.begin, hclosings, List.singleton_append]

end Requests

/-- **A request that a side is entitled to is granted at once**, unless it is a wait. -/
theorem Hosts.serves (h : Hosts s scope σ w a) (hc : c.validate = .ok ())
    (hdomain : σ.domain = c.domain) (htopic : s.topic ≠ "") (hsample : s.sample.InRange)
    (hflaw : s.qos.flaw? = none) (hq : s.qos.isReliable = true) (hD : σ.Keeps k D) {q : Request}
    (hwait : ∀ e cond limit, q ≠ .await e cond limit) {P : q.Answer → Duty → Prop}
    (hgrants : s.Grants c k D q P) : Serves s scope σ w a k q P := by
  cases q with
  | join domain name =>
    obtain ⟨rfl, rfl, hP⟩ := hgrants
    exact h.serves_join hc hdomain hD name hP
  | createTopic p name type =>
    obtain ⟨rfl, rfl, rfl, hP⟩ := hgrants
    exact h.serves_createTopic hD htopic hP
  | createGroup p kind =>
    obtain ⟨rfl, rfl, hP⟩ := hgrants
    exact h.serves_createGroup hD hP
  | createEndpoint p kind g t type qos =>
    obtain ⟨rfl, rfl, rfl, rfl, rfl, rfl, hP⟩ := hgrants
    exact h.serves_createEndpoint hD hflaw hq hP
  | await e cond limit => exact absurd rfl (hwait e cond limit)
  | takeMatched e kind => exact h.serves_takeMatched hD hgrants.1 hgrants.2
  | write e v =>
    obtain ⟨p, settled, rfl, rfl, rfl, hP⟩ := hgrants
    exact h.serves_write hD hP
  | dispose e v handle =>
    obtain ⟨p, rfl, hv, rfl, rfl, rfl, hP⟩ := hgrants
    exact h.serves_dispose hD hv hP
  | take e max =>
    obtain ⟨p, read, rfl, rfl, rfl, hP⟩ := hgrants
    exact h.serves_take hD hsample hP
  | delete p => exact h.serves_delete hD hgrants.1 hgrants.2
  | leave p =>
    obtain ⟨rfl, hP⟩ := hgrants
    exact h.serves_leave hD hP
  | rest span => exact ⟨w, [], (), σ, D, rfl, hgrants, h, .nothing hD, .refl σ _, rfl⟩

end PubSub.Loopback.Duet
