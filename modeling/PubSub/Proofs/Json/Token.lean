import Mathlib.Tactic.Lemma
import Mathlib.Tactic.SplitIfs
import PubSub.Json.Token
import PubSub.Proofs.Json.Number

/-!
The tokens of a printed value. The scan finds exactly the tokens of the value in its text, if the
value holds no doubles and sixty-four bits hold its whole numbers. Of any other text, too, the
values among the tokens are scalars of that size.
-/

namespace PubSub.Json

mutual

def tokens : Json → List Token
  | .arr [] => [.openArr, .closeArr]
  | .arr (j :: r) => .openArr :: tokens j ++ itemTokens r ++ [.closeArr]
  | .obj [] => [.openObj, .closeObj]
  | .obj ((k, j) :: r) =>
    .openObj :: .value (.str k) :: .colon :: tokens j ++ memberTokens r ++ [.closeObj]
  | j => [.value j]

def itemTokens : List Json → List Token
  | [] => []
  | j :: r => .comma :: tokens j ++ itemTokens r

def memberTokens : List (String × Json) → List Token
  | [] => []
  | (k, j) :: r => .comma :: .value (.str k) :: .colon :: tokens j ++ memberTokens r

end

lemma tokens_of_isScalar {j : Json} (h : j.IsScalar) : j.tokens = [.value j] := by
  cases j <;> first | rfl | exact h.elim

/-- No token but a scalar, which sixty-four bits hold if it is a whole number, or punctuation. -/
def Token.IsPlain : Token → Prop
  | .value v => v.IsScalar ∧ v.fits = true
  | _ => True

namespace Token.Scan

variable {s : Scan} {ts : List Token} {t : Token} {c : Char} {v : Json}

@[simp] lemma run_nil (s : Scan) : s.run [] = s := rfl

@[simp] lemma run_cons (s : Scan) (c : Char) (cs : List Char) :
    s.run (c :: cs) = (s.step c).run cs := rfl

lemma run_append (s : Scan) (cs ds : List Char) : s.run (cs ++ ds) = (s.run cs).run ds := by
  simp [run, List.foldl_append]

/-! ### Texts -/

lemma hexDigit?_hexChar {d : Nat} (h : d < 16) : hexDigit? (hexChar d) = some d := by
  have hall : ∀ d < 16, hexDigit? (hexChar d) = some d := by decide
  exact hall d h

lemma step_unit {rev : List Char} {lead : Option Nat} {n x d : Nat} (h : hexDigit? c = some d) :
    (Scan.mk (.unit rev lead n x) ts).step c =
      if n = 3 then (Scan.mk (.unit rev lead n x) ts).endUnit rev lead (16 * x + d)
      else ⟨.unit rev lead (n + 1) (16 * x + d), ts⟩ := by
  simp only [step, h]

/-- The escape of a character is undone. -/
lemma run_escape (rev : List Char) (ts : List Token) (c : Char) :
    (Scan.mk (.text rev) ts).run (escape c) = ⟨.text (c :: rev), ts⟩ := by
  unfold escape
  split
  case h_1 => rfl
  case h_2 => rfl
  case h_3 => rfl
  case h_4 => rfl
  case h_5 => rfl
  case h_6 => rfl
  case h_7 => rfl
  case h_8 hquote hback _ _ _ _ _ =>
    split_ifs with hlow
    · -- a control character: two zeros and then its two digits
      have hhigh := hexDigit?_hexChar (d := c.toNat / 16) (by omega)
      have hrest := hexDigit?_hexChar (d := c.toNat % 16) (Nat.mod_lt _ (by decide))
      have hsum : 16 * (c.toNat / 16) + c.toNat % 16 = c.toNat := Nat.div_add_mod _ _
      have hend : ¬(0xdc00 ≤ c.toNat ∧ c.toNat ≤ 0xdfff) := by omega
      have hlead : ¬(0xd800 ≤ c.toNat ∧ c.toNat ≤ 0xdbff) := by omega
      have hzeros : ((((Scan.mk (.text rev) ts).step '\\').step 'u').step '0').step '0' =
          ⟨.unit rev none 2 0, ts⟩ := rfl
      have hthird : (Scan.mk (.unit rev none 2 0) ts).step (hexChar (c.toNat / 16)) =
          ⟨.unit rev none 3 (c.toNat / 16), ts⟩ := by
        rw [step_unit hhigh, if_neg (by decide), Nat.mul_zero, Nat.zero_add]
      have hfourth : (Scan.mk (.unit rev none 3 (c.toNat / 16)) ts).step (hexChar (c.toNat % 16)) =
          ⟨.text (c :: rev), ts⟩ := by
        rw [step_unit hrest, if_pos rfl, hsum, endUnit]
        simp only [if_neg hend, if_neg hlead, Char.ofNat_toNat]
      simp only [run_cons, run_nil, hzeros, hthird, hfourth]
    · -- a character that is no escape
      rw [run_cons, run_nil, step]
      simp only
      rw [if_neg hquote, if_neg hback, if_neg hlow]

lemma run_printText (ts : List Token) (s : String) :
    (Scan.mk .gap ts).run (printText s) = ⟨.gap, .value (.str s) :: ts⟩ := by
  have htext : ∀ (cs rev : List Char), (Scan.mk (.text rev) ts).run (cs.flatMap escape) =
      ⟨.text (cs.reverse ++ rev), ts⟩ := by
    intro cs
    induction cs with
    | nil => exact fun rev => rfl
    | cons c cs ih =>
      intro rev
      rw [List.flatMap_cons, run_append, run_escape, ih]
      simp
  have hstart : (Scan.mk .gap ts).step '"' = ⟨.text [], ts⟩ := rfl
  have hend : ∀ rev, (Scan.mk (.text rev) ts).step '"' =
      ⟨.gap, .value (.str (String.ofList rev.reverse)) :: ts⟩ := fun _ => rfl
  rw [printText, List.cons_append, run_cons, hstart, run_append, htext, run_cons, run_nil, hend]
  simp

/-! ### Words -/

def ends (c : Char) : Bool := space c || c = '"' || (punctuation c).isSome

lemma run_word {w : List Char} (hw : ∀ c ∈ w, ends c = false) (rev : List Char)
    (ts : List Token) : (Scan.mk (.word rev) ts).run w = ⟨.word (w.reverse ++ rev), ts⟩ := by
  induction w generalizing rev with
  | nil => rfl
  | cons c w ih =>
    have hc : ¬(space c ∨ c = '"' ∨ (punctuation c).isSome) := by
      have hends := hw c List.mem_cons_self
      simp only [ends, Bool.or_eq_false_iff, decide_eq_false_iff_not] at hends
      simp [hends]
    have hstep : (Scan.mk (.word rev) ts).step c = ⟨.word (c :: rev), ts⟩ := by
      rw [step]
      simp only [if_neg hc]
    rw [run_cons, hstep, ih fun d hd => hw d (List.mem_cons_of_mem _ hd)]
    simp

/-- The scan has found the tokens `ts`, the last of which may be a word that waits for its end. -/
def Settled (s : Scan) (ts : List Token) : Prop :=
  s = ⟨.gap, ts⟩ ∨ ∃ w, s.mode = .word w ∧ s.endWord w = ⟨.gap, ts⟩

lemma settled_word {c : Char} {w : List Char} (hw : ∀ d ∈ c :: w, ends d = false)
    (hv : ofWord (c :: w) = some v) (ts : List Token) :
    Settled ((Scan.mk .gap ts).run (c :: w)) (.value v :: ts) := by
  have hc := hw c List.mem_cons_self
  simp only [ends, Bool.or_eq_false_iff, decide_eq_false_iff_not, Option.isSome_eq_false_iff,
    Option.isNone_iff_eq_none] at hc
  have hstart : (Scan.mk .gap ts).step c = ⟨.word [c], ts⟩ := by
    simp [step, gapStep, hc]
  rw [run_cons, hstart, run_word fun d hd => hw d (List.mem_cons_of_mem _ hd)]
  refine .inr ⟨w.reverse ++ [c], rfl, ?_⟩
  have hrev : (w.reverse ++ [c]).reverse = c :: w := by simp
  rw [endWord, hrev, hv]
  rfl

/-- Punctuation ends what came before it. -/
lemma Settled.punctuation (h : Settled s ts) (hc : punctuation c = some t) :
    s.step c = ⟨.gap, t :: ts⟩ := by
  have hgap : (Scan.mk .gap ts).gapStep c = ⟨.gap, t :: ts⟩ := by
    unfold Scan.punctuation at hc
    split at hc <;> first | (obtain rfl := Option.some.inj hc; rfl) | exact absurd hc (by simp)
  rcases h with rfl | ⟨w, hw, hend⟩
  · exact hgap
  · have hends : space c ∨ c = '"' ∨ (Scan.punctuation c).isSome := .inr (.inr (by simp [hc]))
    rw [step, hw]
    simp only [if_pos hends, hend]
    exact hgap

lemma ofText?_of_settled {cs : List Char} (h : Settled (init.run cs) ts) :
    ofText? cs = some ts.reverse := by
  unfold ofText?
  rcases h with h | ⟨w, hw, hend⟩
  · simp only [h]
  · simp only [hw, hend]

/-! ### Values -/

def Found (j : Json) : Prop :=
  ∀ ts, Settled ((Scan.mk .gap ts).run j.print) (j.tokens.reverse ++ ts)

lemma ends_of_isDigit {c : Char} (h : c.isDigit = true) : ends c = false := by
  obtain ⟨h0, h9⟩ := Char.isDigit_iff_toNat.mp h
  have hall : ∀ n < 58, 48 ≤ n → ends (Char.ofNat n) = false := by decide
  exact Char.ofNat_toNat c ▸ hall _ (Nat.lt_succ_of_le h9) h0

lemma found_scalar {j : Json} (hj : j.IsScalar) (hx : j.isExact = true) (hf : j.fits = true) :
    Found j := by
  intro ts
  cases j with
  | null => exact settled_word (by simp [ends, space, Scan.punctuation]) rfl ts
  | bool b => cases b <;> exact settled_word (by simp [ends, space, Scan.punctuation]) rfl ts
  | int n =>
    have hw : ∀ c ∈ print (.int n), ends c = false := by
      intro c hc
      rcases mem_print_int hc with rfl | hc
      · rfl
      · exact ends_of_isDigit hc
    have hv := ofWord_print_int hf
    cases hp : print (.int n) with
    | nil =>
      have hnone : ofWord [] = none := rfl
      rw [hp, hnone] at hv
      cases hv
    | cons c w => exact settled_word (hp ▸ hw) (hp ▸ hv) ts
  | real d => exact absurd hx (by simp [isExact])
  | str s => exact .inl (run_printText ts s)
  | arr items => exact hj.elim
  | obj members => exact hj.elim

lemma Settled.items {items : List Json} (hf : ∀ j ∈ items, Found j) (h : Settled s ts) :
    Settled (s.run (printItems items)) ((itemTokens items).reverse ++ ts) := by
  induction items generalizing s ts with
  | nil => exact h
  | cons j items ih =>
    have hj := hf j List.mem_cons_self (.comma :: ts)
    have hr := ih (fun j' hj' => hf j' (List.mem_cons_of_mem _ hj')) hj
    rw [printItems, List.cons_append, run_cons, h.punctuation (t := .comma) rfl, run_append]
    simpa [itemTokens] using hr

/-- A name is found with its colon and its value. -/
lemma found_member {j : Json} (h : Found j) (k : String) (ts : List Token) :
    Settled ((Scan.mk .gap ts).run (printText k ++ ':' :: j.print))
      (j.tokens.reverse ++ .colon :: .value (.str k) :: ts) := by
  have hcolon : (Scan.mk .gap (.value (.str k) :: ts)).step ':' =
      ⟨.gap, .colon :: .value (.str k) :: ts⟩ := rfl
  rw [run_append, run_printText, run_cons, hcolon]
  exact h _

lemma Settled.members {members : List (String × Json)} (hf : ∀ m ∈ members, Found m.2)
    (h : Settled s ts) :
    Settled (s.run (printMembers members)) ((memberTokens members).reverse ++ ts) := by
  induction members generalizing s ts with
  | nil => exact h
  | cons m members ih =>
    obtain ⟨k, j⟩ := m
    have hj := found_member (hf _ List.mem_cons_self) k (.comma :: ts)
    have hr := ih (fun m hm => hf m (List.mem_cons_of_mem _ hm)) hj
    rw [printMembers, List.cons_append, List.cons_append, run_cons,
      h.punctuation (t := .comma) rfl, run_append]
    simpa [memberTokens] using hr

/-- **A printed value is found as its tokens.** -/
lemma found {j : Json} (hx : j.scalars isExact = true) (hf : j.scalars fits = true) : Found j := by
  induction j using Json.induction with
  | scalar j hj =>
    rw [scalars_of_isScalar hj] at hx hf
    exact found_scalar hj hx hf
  | arr items ih =>
    intro ts
    rw [scalars_arr] at hx hf
    have hall : ∀ j ∈ items, Found j := fun j hj => ih j hj (hx j hj) (hf j hj)
    cases items with
    | nil => exact .inl rfl
    | cons j items =>
      -- the bracket, the items with their commas, and the bracket that closes
      have hopen : (Scan.mk .gap ts).step '[' = ⟨.gap, .openArr :: ts⟩ := rfl
      have hitems := (hall j List.mem_cons_self (.openArr :: ts)).items
        fun j' hj' => hall j' (List.mem_cons_of_mem _ hj')
      refine .inl ?_
      rw [print, List.cons_append, List.cons_append, run_cons, hopen, run_append, run_append,
        run_cons, run_nil, hitems.punctuation (t := .closeArr) rfl]
      simp [tokens]
  | obj members ih =>
    intro ts
    rw [scalars_obj] at hx hf
    have hall : ∀ m ∈ members, Found m.2 := fun m hm => ih m hm (hx m hm) (hf m hm)
    cases members with
    | nil => exact .inl rfl
    | cons m members =>
      obtain ⟨k, j⟩ := m
      -- the brace, the members with their commas, and the brace that closes
      have hopen : (Scan.mk .gap ts).step '\x7b' = ⟨.gap, .openObj :: ts⟩ := rfl
      have hmembers := (found_member (hall _ List.mem_cons_self) k (.openObj :: ts)).members
        fun m hm => hall m (List.mem_cons_of_mem _ hm)
      refine .inl ?_
      rw [print, List.cons_append, List.cons_append, List.cons_append, run_cons, hopen, run_append,
        run_append, run_cons, run_nil, hmembers.punctuation (t := .closeObj) rfl]
      simp [tokens]

/-! ### The tokens of any text -/

def Plain (s : Scan) : Prop := ∀ t ∈ s.rev, t.IsPlain

lemma Plain.emit (h : Plain s) (ht : t.IsPlain) : Plain (s.emit t) := by
  intro t' ht'
  rcases List.mem_cons.mp ht' with rfl | ht'
  · exact ht
  · exact h t' ht'

lemma Plain.gapStep (h : Plain s) (c : Char) : Plain (s.gapStep c) := by
  unfold Scan.gapStep
  split_ifs
  · exact h
  · exact h
  · split
    next t ht =>
      refine h.emit ?_
      unfold punctuation at ht
      split at ht <;> first | (obtain rfl := Option.some.inj ht; trivial) | cases ht
    next => exact h

lemma Plain.endWord (h : Plain s) (w : List Char) : Plain (s.endWord w) := by
  unfold Scan.endWord
  split
  next v hv => exact h.emit (fits_ofWord hv)
  next => exact h

lemma Plain.endUnit (h : Plain s) (rev : List Char) (lead : Option Nat) (n : Nat) :
    Plain (s.endUnit rev lead n) := by
  unfold Scan.endUnit
  split <;> split_ifs <;> exact h

lemma Plain.step (h : Plain s) (c : Char) : Plain (s.step c) := by
  unfold Scan.step
  split
  next => exact h.gapStep c
  next w _ =>
    dsimp only
    split_ifs
    · split
      · exact h.endWord w
      · exact (h.endWord w).gapStep c
    · exact h
  next =>
    split_ifs
    · exact h.emit ⟨trivial, rfl⟩
    all_goals exact h
  next =>
    split
    · exact h
    · split_ifs <;> exact h
  next =>
    split
    · split_ifs
      · exact h.endUnit _ _ _
      · exact h
    · exact h
  next => split_ifs <;> exact h
  next => split_ifs <;> exact h
  next => exact h

lemma Plain.run (h : Plain s) (cs : List Char) : Plain (s.run cs) := by
  induction cs generalizing s with
  | nil => exact h
  | cons c cs ih => exact ih (h.step c)

lemma isPlain_of_ofText? {cs : List Char} (h : ofText? cs = some ts) (ht : t ∈ ts) :
    t.IsPlain := by
  have hinit : Plain init := fun t ht => absurd ht List.not_mem_nil
  have hrun : Plain (init.run cs) := hinit.run cs
  unfold ofText? at h
  dsimp only at h
  split at h
  next =>
    obtain rfl := Option.some.inj h
    exact hrun t (List.mem_reverse.mp ht)
  next w _ =>
    split at h
    next =>
      obtain rfl := Option.some.inj h
      exact hrun.endWord w t (List.mem_reverse.mp ht)
    next => cases h
  next => cases h

end Token.Scan

end PubSub.Json
