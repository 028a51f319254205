import AsmLens.Json.Basic
import AsmLens.Text.Decimal

/-!
# Writing JSON

The compact form, without white space between tokens. Quotes, backslashes and control characters
are escaped, and every other character stands for itself.
-/

namespace AsmLens.Json

def controlEscape (c : Char) : Text :=
  let hex := Nat.toDigits 16 c.toNat
  "\\u".toList ++ List.replicate (4 - hex.length) '0' ++ hex

def escapeChar (c : Char) : Text :=
  if c = '"' then ['\\', '"']
  else if c = '\\' then ['\\', '\\']
  else if c = '\n' then ['\\', 'n']
  else if c.toNat < 0x20 then controlEscape c
  else [c]

def quote (s : Text) : Text := '"' :: s.flatMap escapeChar ++ ['"']

mutual

def render : Json → Text
  | .null => "null".toList
  | .bool true => "true".toList
  | .bool false => "false".toList
  | .int n => Text.ofInt n
  | .float literal => literal
  | .str s => quote s
  | .arr [] => ['[', ']']
  | .arr (x :: xs) => '[' :: render x ++ renderItems xs
  | .obj [] => ['\x7b', '\x7d']
  | .obj ((k, v) :: ms) => '\x7b' :: quote k ++ ':' :: render v ++ renderMembers ms

/-- Further items and the closing bracket. -/
def renderItems : List Json → Text
  | [] => [']']
  | x :: xs => ',' :: render x ++ renderItems xs

/-- Further members and the closing brace. -/
def renderMembers : List (Text × Json) → Text
  | [] => ['\x7d']
  | (k, v) :: ms => ',' :: quote k ++ ':' :: render v ++ renderMembers ms

end

end AsmLens.Json
