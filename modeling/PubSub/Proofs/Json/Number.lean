import Mathlib.Tactic.Lemma
import Mathlib.Tactic.SplitIfs
import PubSub.Json.Number
import PubSub.Json.Printer
import PubSub.Proofs.Json.Value

/-!
Whole numbers in decimal digits. What is written for a number that sixty-four bits hold reads as
that number, and every word reads as a scalar of that size.
-/

namespace PubSub.Json

def digitValues (cs : List Char) : List Nat := cs.map fun c => c.toNat - 48

lemma digit?_of_isDigit {c : Char} (h : c.isDigit = true) :
    Text.digit? c = some (c.toNat - 48) := if_pos h

lemma takeDigits_of_isDigit {cs : List Char} (h : ∀ c ∈ cs, c.isDigit = true) :
    takeDigits cs = (digitValues cs, []) := by
  induction cs with
  | nil => rfl
  | cons c cs ih =>
    have hc := digit?_of_isDigit (h c List.mem_cons_self)
    rw [takeDigits, hc, ih fun d hd => h d (List.mem_cons_of_mem _ hd)]
    rfl

lemma ofDigits_digitValues (cs : List Char) :
    Text.ofDigits (digitValues cs) = Nat.ofDigitChars 10 cs 0 := by
  rw [Nat.ofDigitChars_eq_foldl, Text.ofDigits, digitValues, List.foldl_map]
  rfl

lemma isDigit_of_mem_toDigits {n : Nat} {c : Char} (h : c ∈ Nat.toDigits 10 n) :
    c.isDigit = true :=
  Nat.isDigit_of_mem_toDigits (by decide) (by decide) h

/-- The digits of a number begin with zero only if the number is zero. -/
lemma head?_digits_ne_zero {n : Nat} (h : n ≠ 0) :
    (digitValues (Nat.toDigits 10 n)).head? ≠ some 0 := by
  induction n using Nat.strongRecOn with
  | ind n ih =>
    rw [Nat.toDigits_eq_if (by decide)]
    split_ifs with hlt
    · have hv := Nat.toNat_digitChar_sub_48_of_lt_ten hlt
      simpa [digitValues, hv] using h
    · have hne : (Nat.toDigits 10 (n / 10)).head? ≠ none := by simp
      obtain ⟨c, hc⟩ := Option.ne_none_iff_exists'.mp hne
      have hrest := ih (n / 10) (by omega) (by omega)
      simp only [digitValues, List.head?_map, List.head?_append, hc, Option.some_or] at hrest ⊢
      exact hrest

lemma plain_digits (n : Nat) : ¬(digitValues (Nat.toDigits 10 n) = [] ∨
    (digitValues (Nat.toDigits 10 n)).head? = some 0 ∧
      1 < (digitValues (Nat.toDigits 10 n)).length) := by
  rintro (hnil | ⟨hzero, hlong⟩)
  · simp [digitValues] at hnil
  · cases n with
    | zero => simp [digitValues] at hlong
    | succ n => exact head?_digits_ne_zero (Nat.succ_ne_zero n) hzero

/-- The digits of a number, with or without a sign, are a literal without point and exponent. -/
lemma readLiteral_digits (n : Nat) :
    readLiteral (Nat.toDigits 10 n) = some ⟨false, digitValues (Nat.toDigits 10 n), none, none⟩ ∧
    readLiteral ('-' :: Nat.toDigits 10 n) =
      some ⟨true, digitValues (Nat.toDigits 10 n), none, none⟩ := by
  have htake : takeDigits (Nat.toDigits 10 n) = (digitValues (Nat.toDigits 10 n), []) :=
    takeDigits_of_isDigit fun c hc => isDigit_of_mem_toDigits hc
  have hplain := plain_digits n
  constructor
  · obtain ⟨c, cs, hn⟩ := List.exists_cons_of_ne_nil (Nat.toDigits_ne_nil (n := n) (b := 10))
    have hc : c ≠ '-' := by
      rintro rfl
      exact absurd (isDigit_of_mem_toDigits (n := n) (hn ▸ List.mem_cons_self)) (by decide)
    rw [hn] at htake hplain ⊢
    unfold readLiteral
    split
    next minus r heq =>
      obtain ⟨rfl, rfl⟩ : minus = false ∧ r = c :: cs := by
        split at heq
        next hminus => exact absurd (List.cons.inj hminus).1 hc
        next => exact ⟨(Prod.mk.inj heq).1.symm, (Prod.mk.inj heq).2.symm⟩
      simp only [htake, if_neg hplain]
      rfl
  · simp only [readLiteral, htake, if_neg hplain]
    rfl

lemma ofWord_of_isDigit {c : Char} {cs : List Char} (h : c = '-' ∨ c.isDigit = true) :
    ofWord (c :: cs) = (readLiteral (c :: cs)).bind Literal.value := by
  have hn : c ≠ 'n' := by rintro rfl; revert h; decide
  have ht : c ≠ 't' := by rintro rfl; revert h; decide
  have hf : c ≠ 'f' := by rintro rfl; revert h; decide
  simp only [ofWord, List.cons.injEq, hn, ht, hf, false_and, if_false]

lemma value_whole {minus : Bool} {ds : List Nat} :
    Literal.value ⟨minus, ds, none, none⟩ =
      if minus then
        if Text.ofDigits ds ≠ 0 ∧ Text.ofDigits ds ≤ UInt64.size / 2
        then some (.int (-(Text.ofDigits ds : Int))) else Literal.toReal ⟨minus, ds, none, none⟩
      else if Text.ofDigits ds < UInt64.size then some (.int (Text.ofDigits ds))
      else Literal.toReal ⟨minus, ds, none, none⟩ := rfl

lemma print_int (n : Int) :
    print (.int n) =
      if n < 0 then '-' :: Nat.toDigits 10 n.natAbs else Nat.toDigits 10 n.natAbs := by
  cases n with
  | ofNat k => exact Nat.toList_repr
  | negSucc k =>
    rw [print, Int.toString_eq_repr, Int.repr, String.toList_append, Nat.toList_repr,
      if_pos (Int.negSucc_lt_zero k)]
    rfl

lemma mem_print_int {n : Int} {c : Char} (h : c ∈ print (.int n)) :
    c = '-' ∨ c.isDigit = true := by
  rw [print_int] at h
  split_ifs at h
  · exact (List.mem_cons.mp h).imp_right isDigit_of_mem_toDigits
  · exact .inr (isDigit_of_mem_toDigits h)

/-- A number that sixty-four bits hold is read as it was written. -/
lemma ofWord_print_int {n : Int} (h : (int n).fits = true) :
    ofWord (print (.int n)) = some (.int n) := by
  rw [fits, Bool.and_eq_true, decide_eq_true_iff, decide_eq_true_iff] at h
  have hvalue : ∀ k, Text.ofDigits (digitValues (Nat.toDigits 10 k)) = k := fun k => by
    rw [ofDigits_digitValues, Nat.ofDigitChars_ten_toDigits]
  rw [print_int]
  split_ifs with hn
  · have hrange : n.natAbs ≠ 0 ∧ n.natAbs ≤ UInt64.size / 2 := by omega
    have habs : -(n.natAbs : Int) = n := by omega
    rw [ofWord_of_isDigit (.inl rfl), (readLiteral_digits _).2, Option.bind_some, value_whole,
      hvalue, if_pos rfl, if_pos hrange, habs]
  · obtain ⟨c, cs, hcs⟩ :=
      List.exists_cons_of_ne_nil (Nat.toDigits_ne_nil (n := n.natAbs) (b := 10))
    have hc : c.isDigit = true :=
      isDigit_of_mem_toDigits (n := n.natAbs) (hcs ▸ List.mem_cons_self)
    have hrange : n.natAbs < UInt64.size := by omega
    have habs : (n.natAbs : Int) = n := by omega
    rw [hcs, ofWord_of_isDigit (.inr hc), ← hcs, (readLiteral_digits _).1, Option.bind_some,
      value_whole, hvalue, if_neg (by decide), if_pos hrange, habs]

/-! ### What any word reads as -/

lemma toReal_eq_some {l : Literal} {v : Json} (h : l.toReal = some v) : ∃ d, v = .real d := by
  obtain ⟨f, -, hv⟩ := Option.bind_eq_some_iff.mp h
  exact ⟨_, (Option.some.inj hv).symm⟩

lemma fits_value {l : Literal} {v : Json} (h : l.value = some v) :
    v.IsScalar ∧ v.fits = true := by
  have hreal : l.toReal = some v → v.IsScalar ∧ v.fits = true := fun hr => by
    obtain ⟨d, rfl⟩ := toReal_eq_some hr
    exact ⟨trivial, rfl⟩
  unfold Literal.value at h
  split at h
  · dsimp only at h
    split_ifs at h with hm hn hn
    · obtain rfl := Option.some.inj h
      refine ⟨trivial, ?_⟩
      rw [fits, Bool.and_eq_true, decide_eq_true_iff, decide_eq_true_iff]
      omega
    · exact hreal h
    · obtain rfl := Option.some.inj h
      refine ⟨trivial, ?_⟩
      rw [fits, Bool.and_eq_true, decide_eq_true_iff, decide_eq_true_iff]
      omega
    · exact hreal h
  · exact hreal h

/-- A word reads as a scalar that sixty-four bits hold, if it is a whole number. -/
lemma fits_ofWord {w : List Char} {v : Json} (h : ofWord w = some v) :
    v.IsScalar ∧ v.fits = true := by
  unfold ofWord at h
  split_ifs at h
  · exact Option.some.inj h ▸ ⟨trivial, rfl⟩
  · exact Option.some.inj h ▸ ⟨trivial, rfl⟩
  · exact Option.some.inj h ▸ ⟨trivial, rfl⟩
  · obtain ⟨l, -, hv⟩ := Option.bind_eq_some_iff.mp h
    exact fits_value hv

end PubSub.Json
