import Mathlib.Logic.Function.Basic
import PubSub.Proofs.Udp.Act

/-!
What stands of everything that has been announced to a participant. Of each other participant it is
the last announcement, until that participant says farewell or leases are looked at when it has
been silent for too long.
-/

namespace PubSub.Udp

/-- What can happen at a participant: something arrives from an address, or it acts. -/
inductive Happening where
  | arrive (now : Nat) (source : Address) (d : Dispatch)
  | act (a : Act)

/-- What a participant has announced, and how long that may stand. -/
structure Notice where
  endpoints : List Announcement
  heard : Nat
  lease : Span

/-- The notices of a domain, by the participants that they come from, after something more has
happened. -/
def noted (domain : Nat) (k : Nat → Option Notice) : Happening → Nat → Option Notice
  | .arrive now _ (.group (.announce p d _ _ lease endpoints)) =>
    if d = domain then Function.update k p (some ⟨endpoints, now, .ofMillis lease⟩) else k
  | .arrive _ _ (.group (.bye p)) => Function.update k p none
  | .act (.expire now) => fun p => (k p).filter fun x => !(x.lease.nanos < now - x.heard)
  | _ => k

def standing (domain : Nat) (es : List Happening) : Nat → Option Notice :=
  es.foldl (noted domain) fun _ => none

def Announces (domain p : Nat) (x : Notice) (e : Happening) : Prop :=
  ∃ source name port millis, x.lease = .ofMillis millis ∧
    e = .arrive x.heard source (.group (.announce p domain name port millis x.endpoints))

/-- What ends a notice: its participant announces itself anew or says farewell, or leases are
looked at too late for it. -/
def Ends (domain p : Nat) (x : Notice) : Happening → Prop
  | .arrive _ _ (.group (.announce p' d _ _ _ _)) => p' = p ∧ d = domain
  | .arrive _ _ (.group (.bye p')) => p' = p
  | .act (.expire now) => x.lease.nanos < now - x.heard
  | _ => False

lemma standing_concat (domain : Nat) (es : List Happening) (e : Happening) :
    standing domain (es ++ [e]) = noted domain (standing domain es) e := List.foldl_concat _ _ _ _

section Notices

variable {domain p : Nat} {x : Notice} {k : Nat → Option Notice} {e : Happening}

lemma ends_of_announces {x' : Notice} (h : Announces domain p x' e) : Ends domain p x e := by
  obtain ⟨source, name, port, millis, -, rfl⟩ := h
  exact ⟨rfl, rfl⟩

/-- A notice stands after something has happened if it has just been given, or stood before and
has not been ended by it. -/
lemma noted_eq_some_iff :
    noted domain k e p = some x ↔ Announces domain p x e ∨ k p = some x ∧ ¬Ends domain p x e := by
  -- an event that neither gives nor ends a notice leaves what stood
  have hrest : ¬Announces domain p x e → ¬Ends domain p x e → noted domain k e p = k p →
      (noted domain k e p = some x ↔
        Announces domain p x e ∨ k p = some x ∧ ¬Ends domain p x e) := by
    intro hannounces hends hsame
    rw [hsame]
    exact ⟨fun hx => .inr ⟨hx, hends⟩, fun hx => (hx.resolve_left hannounces).1⟩
  match e with
  | .arrive now source (.group (.announce p' d name port millis endpoints)) =>
    -- an announcement ends what its participant has announced before
    by_cases hfrom : p' = p ∧ d = domain
    · obtain ⟨rfl, rfl⟩ := hfrom
      have hnoted : noted d k (.arrive now source (.group (.announce p' d name port millis
          endpoints))) p' = some ⟨endpoints, now, .ofMillis millis⟩ := by
        rw [noted, if_pos rfl, Function.update_self]
      rw [hnoted]
      constructor
      · intro hx
        obtain rfl := Option.some.inj hx
        exact .inl ⟨source, name, port, millis, rfl, rfl⟩
      · rintro (⟨source', name', port', millis', hlease, heq⟩ | ⟨-, hends⟩)
        · cases heq
          rw [← hlease]
        · exact absurd ⟨rfl, rfl⟩ hends
    · refine hrest (fun h => hfrom (ends_of_announces (x := x) h)) hfrom ?_
      rw [noted]
      split_ifs with hd
      · exact Function.update_of_ne (fun hp => hfrom ⟨hp.symm, hd⟩) _ _
      · rfl
  | .arrive now source (.group (.bye p')) =>
    by_cases hp : p' = p
    · subst hp
      simp [noted, Announces, Ends]
    · exact hrest (by simp [Announces]) hp (Function.update_of_ne (Ne.symm hp) _ _)
  | .act (.expire now) =>
    simp [noted, Announces, Ends, Option.filter_eq_some_iff]
  | .arrive now source (.group (.data w r number c)) => exact hrest (by simp [Announces]) id rfl
  | .arrive now source (.group (.ackNack r w acked)) => exact hrest (by simp [Announces]) id rfl
  | .arrive now source (.unicast a m) => exact hrest (by simp [Announces]) id rfl
  | .act (.createGroup _) | .act (.createEndpoint ..) | .act (.submit ..) | .act (.lookWriter ..)
  | .act (.lookReader ..) | .act (.close _) | .act .delete | .act .leave | .act .announce
  | .act .retransmit => exact hrest (by simp [Announces]) id rfl

/-- **A notice stands if it is the last announcement of its participant and nothing has ended it
since.** -/
theorem standing_eq_some_iff {es : List Happening} :
    standing domain es p = some x ↔
      ∃ before e after, es = before ++ e :: after ∧ Announces domain p x e ∧
        ∀ e' ∈ after, ¬Ends domain p x e' := by
  induction es using List.reverseRecOn with
  | nil => simp [standing]
  | append_singleton es e ih =>
    rw [standing_concat, noted_eq_some_iff, ih]
    constructor
    · rintro (h | ⟨⟨before, e', after, rfl, h, hafter⟩, hends⟩)
      · exact ⟨es, e, [], rfl, h, by simp⟩
      · refine ⟨before, e', after ++ [e], by simp, h, fun e'' he'' => ?_⟩
        rcases List.mem_append.mp he'' with he'' | he''
        · exact hafter e'' he''
        · rwa [List.mem_singleton.mp he'']
    · rintro ⟨before, e', after, heq, h, hafter⟩
      rcases List.eq_nil_or_concat after with rfl | ⟨after', e'', rfl⟩
      · obtain ⟨-, hlast⟩ := List.append_inj' heq rfl
        exact .inl (List.singleton_inj.mp hlast ▸ h)
      · rw [List.concat_eq_append, ← List.cons_append, ← List.append_assoc] at heq
        obtain ⟨hinit, hlast⟩ := List.append_inj' heq rfl
        rw [List.concat_eq_append] at hafter
        refine .inr ⟨⟨before, e', after', hinit, h, fun e₁ he₁ => ?_⟩, ?_⟩
        · exact hafter e₁ (List.mem_append_left _ he₁)
        · rw [List.singleton_inj.mp hlast]
          exact hafter e'' (List.mem_append_right _ (List.mem_singleton.mpr rfl))

end Notices

end PubSub.Udp
