import Mathlib.Tactic.Lemma
import Mathlib.Tactic.SplitIfs
import PubSub.Json.Reader
import PubSub.Proofs.Json.Token

/-!
Reading what was printed. The machine gives back the value of a printed text if that nests no
deeper than the stack may be high, and nothing otherwise. Whatever text it reads, the value nests
no deeper either, and sixty-four bits hold the whole numbers in it.
-/

namespace PubSub.Json

namespace Reader

variable {depth n : Nat} {s s' s'' : St} {stack : List Frame} {t : Token} {ts us : List Token}
  {j v : Json} {p q : Prop}

@[simp] lemma run_cons (s : St) (t : Token) (ts : List Token) :
    run depth s (t :: ts) = run depth (step depth s t) ts := rfl

lemma run_append (s : St) (ts us : List Token) :
    run depth s (ts ++ us) = run depth (run depth s ts) us := by
  simp [run, List.foldl_append]

lemma run_of_dead (h : s.want = .dead) (ts : List Token) : (run depth s ts).want = .dead := by
  obtain ⟨want, stack⟩ := s
  obtain rfl : want = .dead := h
  induction ts with
  | nil => rfl
  | cons t ts ih => exact ih

/-! ### What a run of tokens comes to -/

/-- The tokens lead from `s` to `s'` if `p` holds, and are refused otherwise. -/
structure Leads (depth : Nat) (s : St) (ts : List Token) (p : Prop) (s' : St) : Prop where
  ends : p → run depth s ts = s'
  refused : ¬p → (run depth s ts).want = .dead

lemma Leads.append (h : Leads depth s ts p s') (h' : Leads depth s' us q s'') :
    Leads depth s (ts ++ us) (p ∧ q) s'' := by
  constructor
  · intro hpq
    rw [run_append, h.ends hpq.1, h'.ends hpq.2]
  · intro hpq
    rw [run_append]
    by_cases hp : p
    · rw [h.ends hp]
      exact h'.refused fun hq => hpq ⟨hp, hq⟩
    · exact run_of_dead (h.refused hp) us

lemma Leads.cons (ht : step depth s t = s') (h : Leads depth s' ts p s'') :
    Leads depth s (t :: ts) p s'' := by
  subst ht
  exact ⟨h.ends, h.refused⟩

lemma Leads.concat (h : Leads depth s ts p s') (ht : step depth s' t = s'') :
    Leads depth s (ts ++ [t]) p s'' := by
  constructor
  · intro hp
    rw [run_append, h.ends hp]
    exact ht
  · intro hp
    rw [run_append]
    exact run_of_dead (h.refused hp) [t]

/-- A value is read, wherever one is due, if the stack has room for what nests in it. -/
def Reads (depth : Nat) (j : Json) : Prop :=
  ∀ stack, stack.length ≤ depth →
    Leads depth ⟨.value, stack⟩ j.tokens (j.depth ≤ depth - stack.length) (give j stack)

lemma reads_scalar (hj : j.IsScalar) : Reads depth j := by
  intro stack hs
  rw [tokens_of_isScalar hj, depth_of_isScalar hj]
  exact ⟨fun _ => rfl, fun hn => absurd (Nat.zero_le _) hn⟩

lemma tokens_eq_cons (j : Json) : ∃ t ts, j.tokens = t :: ts ∧ t ≠ .closeArr := by
  unfold tokens
  split <;> exact ⟨_, _, rfl, by simp⟩

lemma Reads.item (h : Reads depth j) (hs : stack.length ≤ depth) :
    Leads depth ⟨.item, stack⟩ j.tokens (j.depth ≤ depth - stack.length) (give j stack) := by
  obtain ⟨t, ts, ht, hne⟩ := tokens_eq_cons j
  have hstep : step depth ⟨.item, stack⟩ t = step depth ⟨.value, stack⟩ t := by
    cases t <;> first | rfl | exact absurd rfl hne
  have hrun : run depth ⟨.item, stack⟩ j.tokens = run depth ⟨.value, stack⟩ j.tokens := by
    rw [ht, run_cons, run_cons, hstep]
  exact ⟨hrun ▸ (h stack hs).ends, hrun ▸ (h stack hs).refused⟩

lemma reads_items {items : List Json} (hr : ∀ j ∈ items, Reads depth j)
    (hs : stack.length < depth) (rev : List Json) :
    Leads depth ⟨.next, .items rev :: stack⟩ (itemTokens items)
      (∀ j ∈ items, j.depth ≤ depth - (stack.length + 1))
      ⟨.next, .items (items.reverse ++ rev) :: stack⟩ := by
  induction items generalizing rev with
  | nil => exact ⟨fun _ => rfl, fun hn => absurd (fun j hj => absurd hj List.not_mem_nil) hn⟩
  | cons j items ih =>
    have hj := hr j List.mem_cons_self (.items rev :: stack) hs
    have hrest := ih (fun j' hj' => hr j' (List.mem_cons_of_mem _ hj')) (j :: rev)
    have hcomma : step depth ⟨.next, .items rev :: stack⟩ .comma =
      ⟨.value, .items rev :: stack⟩ := rfl
    rw [itemTokens, List.reverse_cons, List.append_assoc, List.singleton_append,
      List.forall_mem_cons]
    exact (hj.append hrest).cons hcomma

lemma Reads.member {k : String} {rev : List (String × Json)} (h : Reads depth j)
    (hs : stack.length < depth) (hk : step depth s (.value (.str k)) = ⟨.colon rev k, stack⟩) :
    Leads depth s (.value (.str k) :: .colon :: j.tokens) (j.depth ≤ depth - (stack.length + 1))
      ⟨.next, .members ((k, j) :: rev) "" :: stack⟩ :=
  ((h (.members rev k :: stack) hs).cons (s := ⟨.colon rev k, stack⟩) (t := .colon) rfl).cons hk

lemma reads_members {members : List (String × Json)} (hr : ∀ m ∈ members, Reads depth m.2)
    (hs : stack.length < depth) (rev : List (String × Json)) :
    Leads depth ⟨.next, .members rev "" :: stack⟩ (memberTokens members)
      (∀ m ∈ members, m.2.depth ≤ depth - (stack.length + 1))
      ⟨.next, .members (members.reverse ++ rev) "" :: stack⟩ := by
  induction members generalizing rev with
  | nil => exact ⟨fun _ => rfl, fun hn => absurd (fun m hm => absurd hm List.not_mem_nil) hn⟩
  | cons m members ih =>
    obtain ⟨k, j⟩ := m
    have hj := (hr _ List.mem_cons_self).member (s := ⟨.key rev, stack⟩) (k := k) hs rfl
    have hrest := ih (fun m hm => hr m (List.mem_cons_of_mem _ hm)) ((k, j) :: rev)
    have hcomma : step depth ⟨.next, .members rev "" :: stack⟩ .comma = ⟨.key rev, stack⟩ := rfl
    rw [memberTokens, List.reverse_cons, List.append_assoc, List.singleton_append,
      List.forall_mem_cons]
    exact (hj.append hrest).cons hcomma

/-- An array or object that the stack has no room for is refused. -/
lemma leads_of_full (hs : stack.length = depth) (hp : ¬p) (ht : t = .openArr ∨ t = .openObj) :
    Leads depth ⟨.value, stack⟩ (t :: ts) p s' := by
  refine ⟨fun h => absurd h hp, fun _ => run_of_dead ?_ ts⟩
  rcases ht with rfl | rfl
  · exact congrArg St.want (if_neg (Nat.not_lt.mpr (Nat.le_of_eq hs.symm)))
  · exact congrArg St.want (if_neg (Nat.not_lt.mpr (Nat.le_of_eq hs.symm)))

lemma reads_arr {items : List Json} (hr : ∀ j ∈ items, Reads depth j) :
    Reads depth (arr items) := by
  intro stack hs
  rcases Nat.lt_or_eq_of_le hs with hlt | heq
  · have hroom : depth - stack.length = depth - (stack.length + 1) + 1 := by omega
    have hopen : step depth ⟨.value, stack⟩ .openArr = ⟨.item, .items [] :: stack⟩ := if_pos hlt
    rw [hroom, depth_arr_le]
    cases items with
    | nil => exact ⟨fun _ => congrArg (step depth · .closeArr) hopen, fun hn => by simp at hn⟩
    | cons j items =>
      obtain ⟨hj, hrest⟩ := List.forall_mem_cons.mp hr
      have hfirst := hj.item (show (Frame.items [] :: stack).length ≤ depth from hlt)
      have hclose : step depth ⟨.next, .items (items.reverse ++ [j]) :: stack⟩ .closeArr =
          give (.arr (j :: items)) stack := by
        have hrev : (items.reverse ++ [j]).reverse = j :: items := by simp
        exact hrev ▸ rfl
      rw [tokens, List.forall_mem_cons]
      exact ((hfirst.append (reads_items hrest hlt [j])).concat hclose).cons hopen
  · -- no room for even an empty one
    have hfull : ¬(arr items).depth ≤ depth - stack.length := by rw [Json.depth]; omega
    cases items <;> exact leads_of_full heq hfull (.inl rfl)

lemma reads_obj {members : List (String × Json)} (hr : ∀ m ∈ members, Reads depth m.2) :
    Reads depth (obj members) := by
  intro stack hs
  rcases Nat.lt_or_eq_of_le hs with hlt | heq
  · have hroom : depth - stack.length = depth - (stack.length + 1) + 1 := by omega
    have hopen : step depth ⟨.value, stack⟩ .openObj = ⟨.member, .members [] "" :: stack⟩ :=
      if_pos hlt
    rw [hroom, depth_obj_le]
    cases members with
    | nil => exact ⟨fun _ => congrArg (step depth · .closeObj) hopen, fun hn => by simp at hn⟩
    | cons m members =>
      obtain ⟨k, j⟩ := m
      obtain ⟨hj, hrest⟩ := List.forall_mem_cons.mp hr
      have hfirst := hj.member (s := ⟨.member, .members [] "" :: stack⟩) (k := k) hlt rfl
      have hclose : step depth ⟨.next, .members (members.reverse ++ [(k, j)]) "" :: stack⟩
          .closeObj = give (.obj ((k, j) :: members)) stack := by
        have hrev : (members.reverse ++ [(k, j)]).reverse = (k, j) :: members := by simp
        exact hrev ▸ rfl
      rw [tokens, List.forall_mem_cons]
      exact ((hfirst.append (reads_members hrest hlt [(k, j)])).concat hclose).cons hopen
  · have hfull : ¬(obj members).depth ≤ depth - stack.length := by rw [Json.depth]; omega
    cases members <;> exact leads_of_full heq hfull (.inr rfl)

/-- **Printed tokens are read as their value.** -/
lemma reads (j : Json) : Reads depth j := by
  induction j using Json.induction with
  | scalar j hj => exact reads_scalar hj
  | arr items ih => exact reads_arr ih
  | obj members ih => exact reads_obj ih

/-! ### What any tokens are read as -/

/-- A value that nests no deeper than `n`, with no whole number beyond sixty-four bits. -/
def Good (n : Nat) (v : Json) : Prop := v.depth ≤ n ∧ v.scalars fits = true

lemma good_scalar (hv : v.IsScalar) (hf : v.fits = true) (n : Nat) : Good n v := by
  refine ⟨?_, (scalars_of_isScalar hv).trans hf⟩
  rw [depth_of_isScalar hv]
  exact Nat.zero_le n

lemma good_arr {items : List Json} (h : ∀ j ∈ items, Good n j) : Good (n + 1) (arr items) :=
  ⟨depth_arr_le.mpr fun j hj => (h j hj).1, scalars_arr.mpr fun j hj => (h j hj).2⟩

lemma good_obj {members : List (String × Json)} (h : ∀ m ∈ members, Good n m.2) :
    Good (n + 1) (obj members) :=
  ⟨depth_obj_le.mpr fun m hm => (h m hm).1, scalars_obj.mpr fun m hm => (h m hm).2⟩

def Frame.Holds (n : Nat) : Frame → Prop
  | .items rev => ∀ j ∈ rev, Good n j
  | .members rev _ => ∀ m ∈ rev, Good n m.2

/-- The stack is no higher than `depth`, and its frames hold what has room above them. -/
def Stands (depth : Nat) : List Frame → Prop
  | [] => True
  | f :: stack =>
    stack.length < depth ∧ f.Holds (depth - (stack.length + 1)) ∧ Stands depth stack

def Want.Holds (depth : Nat) (stack : List Frame) : Want → Prop
  | .key rev | .colon rev _ => Stands depth (.members rev "" :: stack)
  | .done v => Good depth v
  | _ => True

structure St.Safe (depth : Nat) (s : St) : Prop where
  stack : Stands depth s.stack
  want : s.want.Holds depth s.stack

lemma safe_dead (h : Stands depth s.stack) : (dead s).Safe depth := ⟨h, trivial⟩

lemma safe_give (h : Stands depth stack) (hv : Good (depth - stack.length) v) :
    (give v stack).Safe depth := by
  cases stack with
  | nil => exact ⟨trivial, hv⟩
  | cons f stack =>
    obtain ⟨hlt, hf, hs⟩ := h
    cases f with
    | items rev => exact ⟨⟨hlt, List.forall_mem_cons.mpr ⟨hv, hf⟩, hs⟩, trivial⟩
    | members rev k => exact ⟨⟨hlt, List.forall_mem_cons.mpr ⟨hv, hf⟩, hs⟩, trivial⟩

lemma safe_start (h : Stands depth s.stack) (ht : t.IsPlain) : (start depth s t).Safe depth := by
  cases t with
  | value v => exact safe_give h (good_scalar ht.1 ht.2 _)
  | openArr =>
    unfold start
    split_ifs with hlt
    · exact ⟨⟨hlt, fun j hj => absurd hj List.not_mem_nil, h⟩, trivial⟩
    · exact safe_dead h
  | openObj =>
    unfold start
    split_ifs with hlt
    · exact ⟨⟨hlt, fun m hm => absurd hm List.not_mem_nil, h⟩, trivial⟩
    · exact safe_dead h
  | closeArr => exact safe_dead h
  | closeObj => exact safe_dead h
  | colon => exact safe_dead h
  | comma => exact safe_dead h

lemma safe_name {rev : List (String × Json)} (h : Stands depth (.members rev "" :: s.stack)) :
    (name s rev t).Safe depth := by
  unfold name
  split
  · exact ⟨h.2.2, h⟩
  · exact safe_dead h.2.2

lemma safe_close {f : Frame} (h : Stands depth (f :: stack))
    (hv : ∀ n, f.Holds n → Good (n + 1) v) : (give v stack).Safe depth := by
  obtain ⟨hlt, hf, hs⟩ := h
  have hroom : depth - stack.length = depth - (stack.length + 1) + 1 := by omega
  exact safe_give hs (hroom ▸ hv _ hf)

lemma safe_item (h : Stands depth stack) (ht : t.IsPlain) :
    (step depth ⟨.item, stack⟩ t).Safe depth := by
  cases t
  case closeArr =>
    match stack with
    | [] => exact safe_dead h
    | .items _ :: _ => exact safe_close h fun n _ => good_arr fun j hj => by cases hj
    | .members _ _ :: _ => exact safe_dead h
  all_goals exact safe_start h ht

lemma safe_member (h : Stands depth stack) : (step depth ⟨.member, stack⟩ t).Safe depth := by
  match stack with
  | [] => cases t <;> exact safe_dead h
  | .items _ :: _ => cases t <;> exact safe_dead h
  | .members rev k :: stack =>
    have hempty : Stands depth (.members [] "" :: stack) :=
      ⟨h.1, fun m hm => absurd hm List.not_mem_nil, h.2.2⟩
    by_cases hc : t = .closeObj
    · subst hc
      exact safe_close h fun n _ => good_obj fun m hm => by cases hm
    · have hname : step depth ⟨.member, .members rev k :: stack⟩ t =
          name ⟨.member, stack⟩ [] t := by
        cases t <;> first | rfl | exact absurd rfl hc
      exact hname ▸ safe_name hempty

lemma safe_colon {rev : List (String × Json)} {k : String} (h : Stands depth stack)
    (hw : Stands depth (.members rev "" :: stack)) :
    (step depth ⟨.colon rev k, stack⟩ t).Safe depth := by
  cases t
  case colon => exact ⟨⟨hw.1, hw.2.1, h⟩, trivial⟩
  all_goals exact safe_dead h

lemma safe_next (h : Stands depth stack) : (step depth ⟨.next, stack⟩ t).Safe depth := by
  match stack with
  | [] => cases t <;> exact safe_dead h
  | .items rev :: stack =>
    cases t
    case comma => exact ⟨h, trivial⟩
    case closeArr =>
      exact safe_close h fun n hr => good_arr fun j hj => hr j (List.mem_reverse.mp hj)
    all_goals exact safe_dead h
  | .members rev _ :: stack =>
    cases t
    case comma => exact ⟨h.2.2, h⟩
    case closeObj =>
      exact safe_close h fun n hr => good_obj fun m hm => hr m (List.mem_reverse.mp hm)
    all_goals exact safe_dead h

lemma safe_step (h : s.Safe depth) (ht : t.IsPlain) : (step depth s t).Safe depth := by
  obtain ⟨want, stack⟩ := s
  obtain ⟨hs, hw⟩ := h
  cases want with
  | value => exact safe_start hs ht
  | item => exact safe_item hs ht
  | member => exact safe_member hs
  | key rev => exact safe_name hw
  | colon rev k => exact safe_colon hs hw
  | next => exact safe_next hs
  | done v => exact safe_dead hs
  | dead => exact ⟨hs, trivial⟩

lemma safe_run (h : s.Safe depth) (hts : ∀ t ∈ ts, t.IsPlain) : (run depth s ts).Safe depth := by
  induction ts generalizing s with
  | nil => exact h
  | cons t ts ih =>
    obtain ⟨ht, hr⟩ := List.forall_mem_cons.mp hts
    exact ih (safe_step h ht) hr

end Reader

variable {depth : Nat} {j : Json}

/-- **What is printed is read**, if the reader goes as deep as it nests. -/
theorem read?_print (hx : j.scalars isExact = true) (hf : j.scalars fits = true) :
    read? depth j.print = if j.depth ≤ depth then some j else none := by
  have hfound := Token.Scan.found hx hf []
  have htokens := Token.Scan.ofText?_of_settled hfound
  have hreads : Reader.Reads depth j := Reader.reads j
  have hleads := hreads [] (Nat.zero_le depth)
  rw [List.append_nil, List.reverse_reverse] at htokens
  simp only [read?, htokens, Option.bind_eq_bind, Option.bind_some]
  split_ifs with hd
  · rw [Reader.init, hleads.ends hd]
    rfl
  · rw [Reader.init, hleads.refused hd]

/-- **What is read nests no deeper than allowed**, and its whole numbers fit sixty-four bits. -/
theorem good_of_read? {cs : List Char} (h : read? depth cs = some j) :
    j.depth ≤ depth ∧ j.scalars fits = true := by
  obtain ⟨ts, hts, hread⟩ := Option.bind_eq_some_iff.mp h
  have hinit : Reader.init.Safe depth := ⟨trivial, trivial⟩
  have hsafe := Reader.safe_run hinit fun t ht => Token.Scan.isPlain_of_ofText? hts ht
  split at hread
  next v hv =>
    obtain rfl := Option.some.inj hread
    have hwant := hsafe.want
    rw [hv] at hwant
    exact hwant
  next => cases hread

end PubSub.Json
