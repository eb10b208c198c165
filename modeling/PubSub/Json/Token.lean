import PubSub.Json.Number

/-!
JSON text as a stream of tokens, read in one pass over its characters. Between tokens the
scan skips the four blanks of JSON; inside a text it undoes the escapes, of which a pair of
surrogates makes one character.
-/

namespace PubSub.Json

inductive Token where
  | openArr
  | closeArr
  | openObj
  | closeObj
  | colon
  | comma
  | value (v : Json)
deriving Inhabited

namespace Token

/-- Where the scan stands. Text and words are kept with their last character first. -/
inductive Mode where
  | gap
  | word (rev : List Char)
  | text (rev : List Char)
  | escape (rev : List Char)
  /-- After `count` hexadecimal digits of value `n`, with a leading surrogate before them. -/
  | unit (rev : List Char) (lead : Option Nat) (count n : Nat)
  /-- A leading surrogate wants a second escape. -/
  | pair (rev : List Char) (lead : Nat)
  | pairUnit (rev : List Char) (lead : Nat)
  | dead

/-- The mode and the tokens so far, the last one first. -/
structure Scan where
  mode : Mode
  rev : List Token

namespace Scan

def init : Scan := ⟨.gap, []⟩

def dead (s : Scan) : Scan := { s with mode := .dead }

def emit (s : Scan) (t : Token) : Scan := ⟨.gap, t :: s.rev⟩

def punctuation (c : Char) : Option Token :=
  match c with
  | '[' => some .openArr
  | ']' => some .closeArr
  | '\x7b' => some .openObj
  | '\x7d' => some .closeObj
  | ':' => some .colon
  | ',' => some .comma
  | _ => none

def space (c : Char) : Bool := c = ' ' || c = '\n' || c = '\t' || c = '\r'

/-- A character between two tokens. -/
def gapStep (s : Scan) (c : Char) : Scan :=
  if space c then { s with mode := .gap }
  else if c = '"' then { s with mode := .text [] }
  else
    match punctuation c with
    | some t => s.emit t
    | none => { s with mode := .word [c] }

/-- The end of a word. -/
def endWord (s : Scan) (rev : List Char) : Scan :=
  match ofWord rev.reverse with
  | some v => s.emit (.value v)
  | none => s.dead

def hexDigit? (c : Char) : Option Nat :=
  if '0' ≤ c ∧ c ≤ '9' then some (c.toNat - 48)
  else if 'a' ≤ c ∧ c ≤ 'f' then some (c.toNat - 87)
  else if 'A' ≤ c ∧ c ≤ 'F' then some (c.toNat - 55)
  else none

/-- The character behind a backslash, for the escapes of one letter. -/
def shortEscape? (c : Char) : Option Char :=
  match c with
  | '"' => some '"'
  | '\\' => some '\\'
  | '/' => some '/'
  | 'b' => some '\x08'
  | 'f' => some '\x0c'
  | 'n' => some '\n'
  | 'r' => some '\r'
  | 't' => some '\t'
  | _ => none

/-- A complete escape of four digits: a character, or half of a pair of surrogates. -/
def endUnit (s : Scan) (rev : List Char) (lead : Option Nat) (n : Nat) : Scan :=
  match lead with
  | none =>
    if 0xdc00 ≤ n ∧ n ≤ 0xdfff then s.dead
    else if 0xd800 ≤ n ∧ n ≤ 0xdbff then { s with mode := .pair rev n }
    else { s with mode := .text (Char.ofNat n :: rev) }
  | some l =>
    if 0xdc00 ≤ n ∧ n ≤ 0xdfff then
      { s with mode := .text (Char.ofNat (0x10000 + (l - 0xd800) * 0x400 + (n - 0xdc00)) :: rev) }
    else s.dead

def step (s : Scan) (c : Char) : Scan :=
  match s.mode with
  | .gap => s.gapStep c
  | .word rev =>
    if space c ∨ c = '"' ∨ (punctuation c).isSome then
      let s' := s.endWord rev
      match s'.mode with
      | .dead => s'
      | _ => s'.gapStep c
    else { s with mode := .word (c :: rev) }
  | .text rev =>
    if c = '"' then s.emit (.value (.str (String.ofList rev.reverse)))
    else if c = '\\' then { s with mode := .escape rev }
    else if c.toNat < 0x20 then s.dead
    else { s with mode := .text (c :: rev) }
  | .escape rev =>
    match shortEscape? c with
    | some e => { s with mode := .text (e :: rev) }
    | none => if c = 'u' then { s with mode := .unit rev none 0 0 } else s.dead
  | .unit rev lead count n =>
    match hexDigit? c with
    | some d =>
      if count = 3 then s.endUnit rev lead (16 * n + d)
      else { s with mode := .unit rev lead (count + 1) (16 * n + d) }
    | none => s.dead
  | .pair rev lead => if c = '\\' then { s with mode := .pairUnit rev lead } else s.dead
  | .pairUnit rev lead => if c = 'u' then { s with mode := .unit rev (some lead) 0 0 } else s.dead
  | .dead => s

def run (s : Scan) (cs : List Char) : Scan := cs.foldl step s

end Scan

/-- The tokens of a text; nothing if the text breaks off or holds no token somewhere. -/
def ofText? (cs : List Char) : Option (List Token) :=
  let s := Scan.init.run cs
  match s.mode with
  | .gap => some s.rev.reverse
  | .word rev =>
    match (s.endWord rev).mode with
    | .gap => some (s.endWord rev).rev.reverse
    | _ => none
  | _ => none

end Token

end PubSub.Json
