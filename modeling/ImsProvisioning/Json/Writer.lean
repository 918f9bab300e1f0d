import ImsProvisioning.Json.Value

/-! # Writing JSON

The compact text of a value: no space between tokens, and in strings only what
cannot stand there is escaped.
-/

namespace ImsProvisioning.Json

def escapeChar : Char → List Char
  | '"' => ['\\', '"']
  | '\\' => ['\\', '\\']
  | '\x08' => ['\\', 'b']
  | '\x0c' => ['\\', 'f']
  | '\n' => ['\\', 'n']
  | '\r' => ['\\', 'r']
  | '\t' => ['\\', 't']
  | c =>
    if c.toNat < 0x20 then
      ['\\', 'u', '0', '0', Nat.digitChar (c.toNat / 16), Nat.digitChar (c.toNat % 16)]
    else [c]

def writeString (s : String) : List Char := '"' :: s.toList.flatMap escapeChar ++ ['"']

def writeNumber (n : Number) : List Char := n.text.toList

mutual

def write : Value → List Char
  | .null => ['n', 'u', 'l', 'l']
  | .bool true => ['t', 'r', 'u', 'e']
  | .bool false => ['f', 'a', 'l', 's', 'e']
  | .number n => writeNumber n
  | .string s => writeString s
  | .array items => '[' :: writeItems items
  | .object members => '\x7b' :: writeMembers members

/-- The items that are left, and the closing bracket. -/
def writeItems : List Value → List Char
  | [] => [']']
  | [v] => write v ++ [']']
  | v :: vs => write v ++ ',' :: writeItems vs

def writeMembers : List (String × Value) → List Char
  | [] => ['\x7d']
  | [(k, v)] => writeString k ++ ':' :: (write v ++ ['\x7d'])
  | (k, v) :: ms => writeString k ++ ':' :: (write v ++ ',' :: writeMembers ms)

end

def Value.text (v : Value) : String := String.ofList (write v)

end ImsProvisioning.Json
