import PubSub.Proofs.Loopback.Duet.Entrance
import PubSub.Proofs.Scenario.Contract
import PubSub.Proofs.Scenario.Interleaving

/-!
What the duty of a side says of the duet. It stays true whatever the other side and the worker do.
-/

namespace PubSub.Loopback.Duet

variable {s : Scenario} {σ σ' : Duet} {k : EndpointKind} {D : Duty} {t : List Chore}

/-- What one side can tell of how the duet gets on without it. -/
structure Onward (σ σ' : Duet) (k : EndpointKind) : Prop where
  post : σ'.post k = σ.post k
  created : (σ.post (other k)).presence.created = true →
    (σ'.post (other k)).presence.created = true ∧
      (σ'.post (other k)).home = (σ.post (other k)).home
  ending : (σ.post (other k)).presence.ending = true → (σ'.post (other k)).presence.ending = true
  writer : k = .writer → σ'.made = σ.made ∧ σ'.sent = σ.sent ∧ σ.acked ≤ σ'.acked
  reader : k = .reader → σ'.read = σ.read ∧ σ.got ≤ σ'.got

/-- The side has done all that it has to do before it may go. -/
def Done (s : Scenario) (σ : Duet) : EndpointKind → Prop
  | .writer => σ.made = s.changes.length ∧ (σ.reader.presence.ending = true ∨ σ.acked = σ.made)
  | .reader => σ.read = s.changes.length

def Keeps (σ : Duet) (k : EndpointKind) : Duty → Prop
  | .outside => (σ.post k).presence = .outside
  | .joined p => σ.post k = ⟨p, .joined⟩
  | .grouped p => σ.post k = ⟨p, .grouped⟩
  | .writing p matched made settled => k = .writer ∧ σ.writer = ⟨p, .active⟩ ∧ σ.made = made ∧
      σ.sent = made ∧ (matched = true → σ.reader.presence.created = true) ∧
      (settled = true → σ.reader.presence.ending = true ∨ σ.acked = made)
  | .reading p read ready => k = .reader ∧ σ.reader = ⟨p, .active⟩ ∧ σ.read = read ∧
      (ready = true → read < σ.got)
  | .released p => σ.post k = ⟨p, .gone⟩
  | .away => (σ.post k).presence = .gone

/-- What the present call of a side has still to do; its duty says what is true after that. -/
inductive Owes (s : Scenario) (σ : Duet) (k : EndpointKind) : Duty → List Chore → Prop
  | nothing {D : Duty} (h : σ.Keeps k D) : Owes s σ k D []
  | submit {p n : Nat} {c : Change} (hk : k = .writer) (hw : σ.writer = ⟨p, .active⟩)
    (hr : σ.reader.presence.created = true) (hmade : σ.made = n + 1) (hsent : σ.sent = n)
    (hc : s.changes[n]? = some c) :
    Owes s σ k (.writing p true (n + 1) false) [.submit (.sole p) [⟨σ.reader.guid, n + 1, c⟩]]
  | close {p : Nat} (hk : σ.post k = ⟨p, .active⟩) (hdone : σ.Done s k) :
    Owes s σ k (.released p) [.close k (.sole p)]
  | unlist {p : Nat} (hk : σ.post k = ⟨p, .closing⟩) :
    Owes s σ k (.released p) [.unlist s.matchKey (.sole p)]
  | leave {p : Nat} (hk : σ.post k = ⟨p, .gone⟩) :
    Owes s σ k .away [.close k (.sole p), .retire p]
  | retire {p : Nat} (hk : σ.post k = ⟨p, .gone⟩) : Owes s σ k .away [.retire p]

lemma Keeps.endpoint (h : σ.Keeps k D) {e : Guid} (he : D.endpoint? = some e) :
    ∃ p, e = .sole p ∧ σ.post k = ⟨p, .active⟩ := by
  cases D with
  | writing p matched made settled =>
    obtain ⟨rfl, hw, -⟩ := h
    exact ⟨p, (Option.some.inj he).symm, hw⟩
  | reading p read ready =>
    obtain ⟨rfl, hr, -⟩ := h
    exact ⟨p, (Option.some.inj he).symm, hr⟩
  | _ => cases he

lemma Done.onward {total : Nat} (h : σ.Done s k) (ho : σ.Onward σ' k) (horder : σ'.Orderly total) :
    σ'.Done s k := by
  cases k with
  | writer =>
    obtain ⟨hmade, hacked⟩ := h
    obtain ⟨hmade', -, hle⟩ := ho.writer rfl
    refine ⟨hmade'.trans hmade, hacked.imp ho.ending fun hall => ?_⟩
    have := horder.acked
    have := horder.got
    have := horder.sent
    omega
  | reader => exact (ho.reader rfl).1.trans h

lemma Keeps.onward {total : Nat} (h : σ.Keeps k D) (ho : σ.Onward σ' k)
    (horder : σ'.Orderly total) : σ'.Keeps k D := by
  cases D with
  | outside => exact (congrArg Post.presence ho.post).trans h
  | writing p matched made settled =>
    obtain ⟨rfl, hw, hmade, hsent, hmatched, hsettled⟩ := h
    obtain ⟨hmade', hsent', hle⟩ := ho.writer rfl
    refine ⟨rfl, ho.post.trans hw, hmade'.trans hmade, hsent'.trans hsent,
      fun hm => (ho.created (hmatched hm)).1, fun hs => (hsettled hs).imp ho.ending fun hall => ?_⟩
    have := horder.acked
    have := horder.got
    have := horder.sent
    omega
  | reading p read ready =>
    obtain ⟨rfl, hr, hread, hready⟩ := h
    obtain ⟨hread', hle⟩ := ho.reader rfl
    exact ⟨rfl, ho.post.trans hr, hread'.trans hread, fun h => Nat.lt_of_lt_of_le (hready h) hle⟩
  | away => exact (congrArg Post.presence ho.post).trans h
  | _ => exact ho.post.trans h

/-- **What a side has to do is not touched by what happens without it.** -/
theorem Owes.onward {total : Nat} (h : σ.Owes s k D t) (ho : σ.Onward σ' k)
    (horder : σ'.Orderly total) : σ'.Owes s k D t := by
  cases h with
  | nothing h => exact .nothing (h.onward ho horder)
  | submit hk hw hr hmade hsent hc =>
    subst hk
    obtain ⟨hmade', hsent', -⟩ := ho.writer rfl
    obtain ⟨hr', hhome⟩ := ho.created hr
    have hguid : σ'.reader.guid = σ.reader.guid := congrArg Guid.sole hhome
    rw [← hguid]
    exact .submit rfl (ho.post.trans hw) hr' (hmade'.trans hmade) (hsent'.trans hsent) hc
  | close hk hdone => exact .close (ho.post.trans hk) (hdone.onward ho horder)
  | unlist hk => exact .unlist (ho.post.trans hk)
  | leave hk => exact .leave (ho.post.trans hk)
  | retire hk => exact .retire (ho.post.trans hk)

/-! ### What a step is for the other side -/

lemma onward_move {x : Post} (hcreated : (σ.post k).presence.created = true →
      x.presence.created = true ∧ x.home = (σ.post k).home)
    (hending : (σ.post k).presence.ending = true → x.presence.ending = true) :
    σ.Onward (σ.move k x) (other k) := by
  cases k with
  | writer =>
    exact ⟨rfl, hcreated, hending, EndpointKind.noConfusion, fun _ => ⟨rfl, Nat.le_refl _⟩⟩
  | reader =>
    exact ⟨rfl, hcreated, hending, fun _ => ⟨rfl, rfl, Nat.le_refl _⟩, EndpointKind.noConfusion⟩

lemma Onward.refl (σ : Duet) (k : EndpointKind) : σ.Onward σ k :=
  ⟨rfl, fun h => ⟨h, rfl⟩, fun h => h, fun _ => ⟨rfl, rfl, Nat.le_refl _⟩,
    fun _ => ⟨rfl, Nat.le_refl _⟩⟩

lemma onward_write (m n : Nat) : σ.Onward { σ with made := m, sent := n } .reader :=
  ⟨rfl, fun h => ⟨h, rfl⟩, fun h => h, EndpointKind.noConfusion, fun _ => ⟨rfl, Nat.le_refl _⟩⟩

lemma onward_take (n : Nat) : σ.Onward { σ with read := n } .writer :=
  ⟨rfl, fun h => ⟨h, rfl⟩, fun h => h, fun _ => ⟨rfl, rfl, Nat.le_refl _⟩, EndpointKind.noConfusion⟩

lemma onward_deliver {n m : Nat} (hgot : σ.got ≤ n) (hacked : σ.acked ≤ m) (k : EndpointKind) :
    σ.Onward { σ with got := n, acked := m } k := by
  refine ⟨?_, ?_, ?_, fun _ => ⟨rfl, rfl, hacked⟩, fun _ => ⟨rfl, hgot⟩⟩
  · cases k <;> rfl
  · cases k <;> exact fun h => ⟨h, rfl⟩
  · cases k <;> exact fun h => h

lemma keeps_fresh {p : Nat} (hmade : σ.made = 0) (hsent : σ.sent = 0) (hread : σ.read = 0)
    (hacked : σ.acked = 0) :
    (σ.move k ⟨p, .active⟩).Keeps k (.fresh p k) := by
  cases k with
  | writer =>
    exact ⟨rfl, rfl, hmade, hsent, Bool.noConfusion, fun _ => .inr hacked⟩
  | reader => exact ⟨rfl, rfl, hread, Bool.noConfusion⟩

end PubSub.Loopback.Duet
