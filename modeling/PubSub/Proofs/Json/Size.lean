import Mathlib.Algebra.GroupWithZero.Nat
import Mathlib.Tactic.Lemma
import PubSub.Json.Printer
import PubSub.Json.Record

/-!
How many bytes the text of a JSON value takes. The size of a record is the sum of the sizes of
its parts, so the size of a message is known from the sizes of the few parts that vary.
-/

namespace PubSub

def bytes (cs : List Char) : Nat := (cs.map (·.utf8Size)).sum

@[simp] lemma bytes_nil : bytes [] = 0 := rfl

@[simp] lemma bytes_cons (c : Char) (cs : List Char) : bytes (c :: cs) = c.utf8Size + bytes cs := by
  simp [bytes]

@[simp] lemma bytes_append (xs ys : List Char) : bytes (xs ++ ys) = bytes xs + bytes ys := by
  simp [bytes]

lemma utf8ByteSize_ofList (cs : List Char) : (String.ofList cs).utf8ByteSize = bytes cs := by
  rw [← String.size_toByteArray, String.toByteArray_ofList]
  induction cs with
  | nil => rfl
  | cons c cs ih =>
    rw [← List.singleton_append, List.utf8Encode_append, ByteArray.size_append, ih]
    simp [List.utf8Encode]

namespace Json

def digits (n : Nat) : Nat := (Nat.toDigits 10 n).length

lemma utf8Size_of_isDigit {c : Char} (h : c.isDigit = true) : c.utf8Size = 1 := by
  obtain ⟨-, h9⟩ := Char.isDigit_iff_toNat.mp h
  have hle : c.val ≤ 0x7f := UInt32.le_iff_toNat_le.mpr (Nat.le_trans h9 (by decide))
  simp [Char.utf8Size, hle]

lemma bytes_print_ofNat (n : Nat) : bytes (print (.ofNat n)) = digits n := by
  have hprint : print (.ofNat n) = Nat.toDigits 10 n := by
    simp only [ofNat, print]
    exact String.toList_ofList
  rw [hprint, bytes, digits]
  have hones : ∀ cs : List Char, (∀ c ∈ cs, c.isDigit = true) →
      (cs.map (·.utf8Size)).sum = cs.length := by
    intro cs
    induction cs with
    | nil => simp
    | cons c cs ih =>
      intro h
      rw [List.map_cons, List.sum_cons, List.length_cons, ih fun d hd =>
        h d (List.mem_cons_of_mem _ hd), utf8Size_of_isDigit (h c List.mem_cons_self)]
      omega
  exact hones _ fun c hc => Nat.isDigit_of_mem_toDigits (by decide) (by decide) hc

/-- The bytes of a text without its quotes, escapes counted as they are printed. -/
def escaped (s : String) : Nat := bytes (s.toList.flatMap escape)

lemma bytes_printText (s : String) : bytes (printText s) = escaped s + 2 := by
  have hquote : ('"' : Char).utf8Size = 1 := rfl
  simp only [printText, escaped, bytes_append, bytes_cons, bytes_nil, hquote]
  omega

lemma escaped_of_plain {s : String} (h : ∀ c ∈ s.toList, escape c = [c]) :
    escaped s = s.utf8ByteSize := by
  have hplain : ∀ cs : List Char, (∀ c ∈ cs, escape c = [c]) → cs.flatMap escape = cs := by
    intro cs
    induction cs with
    | nil => simp
    | cons c cs ih =>
      intro h
      rw [List.flatMap_cons, h c List.mem_cons_self, ih fun d hd => h d (List.mem_cons_of_mem _ hd)]
      rfl
  rw [escaped, hplain _ h, ← utf8ByteSize_ofList, String.ofList_toList]

/-- What members take: each with its name, a colon, and the comma or brace behind it. -/
def memberBytes (ms : List (String × Json)) : Nat :=
  (ms.map fun e => bytes (printText e.1) + bytes (print e.2) + 2).sum

lemma bytes_printMembers (ms : List (String × Json)) :
    bytes (printMembers ms) = memberBytes ms := by
  have hcolon : (':' : Char).utf8Size = 1 := rfl
  have hcomma : (',' : Char).utf8Size = 1 := rfl
  induction ms with
  | nil => rfl
  | cons e ms ih =>
    simp only [printMembers, memberBytes, List.cons_append, bytes_cons, bytes_append, hcolon,
      hcomma, List.map_cons, List.sum_cons] at ih ⊢
    omega

lemma bytes_print_obj {ms : List (String × Json)} (h : ms ≠ []) :
    bytes (print (.obj ms)) = memberBytes ms + 1 := by
  have hcolon : (':' : Char).utf8Size = 1 := rfl
  have hopen : ('\x7b' : Char).utf8Size = 1 := rfl
  have hclose : ('\x7d' : Char).utf8Size = 1 := rfl
  match ms with
  | [] => exact absurd rfl h
  | e :: ms =>
    simp only [print, List.cons_append, bytes_cons, bytes_append, bytes_nil, bytes_printMembers,
      memberBytes, hcolon, hopen, hclose, List.map_cons, List.sum_cons]
    omega

end Json

end PubSub
