import PubSub.Json.Basic

/-!
The compact text of a JSON value: no blanks, members in the order they stand in, and in
texts only the quote, the backslash and the control characters below the space escaped.
-/

namespace PubSub.Json

def hexChar (n : Nat) : Char := Nat.digitChar n

def escape (c : Char) : List Char :=
  match c with
  | '"' => ['\\', '"']
  | '\\' => ['\\', '\\']
  | '\x08' => ['\\', 'b']
  | '\x0c' => ['\\', 'f']
  | '\n' => ['\\', 'n']
  | '\r' => ['\\', 'r']
  | '\t' => ['\\', 't']
  | c =>
    if c.toNat < 0x20 then ['\\', 'u', '0', '0', hexChar (c.toNat / 16), hexChar (c.toNat % 16)]
    else [c]

def printText (s : String) : List Char := '"' :: s.toList.flatMap escape ++ ['"']

mutual

def print : Json → List Char
  | .null => ['n', 'u', 'l', 'l']
  | .bool true => ['t', 'r', 'u', 'e']
  | .bool false => ['f', 'a', 'l', 's', 'e']
  | .int n => (toString n).toList
  | .real d => d.text
  | .str s => printText s
  | .arr [] => ['[', ']']
  | .arr (j :: r) => '[' :: print j ++ printItems r ++ [']']
  | .obj [] => ['\x7b', '\x7d']
  | .obj ((k, j) :: r) =>
    '\x7b' :: printText k ++ ':' :: print j ++ printMembers r ++ ['\x7d']

/-- Further items, each after its comma. -/
def printItems : List Json → List Char
  | [] => []
  | j :: r => ',' :: print j ++ printItems r

/-- Further members, each after its comma. -/
def printMembers : List (String × Json) → List Char
  | [] => []
  | (k, j) :: r => ',' :: printText k ++ ':' :: print j ++ printMembers r

end

/-- The text of a value. -/
def text (j : Json) : String := String.ofList j.print

end PubSub.Json
