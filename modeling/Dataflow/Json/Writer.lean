import Dataflow.Json.Basic

set_option autoImplicit false

namespace Dataflow.Json

def hexLetter (n : Nat) : Char := if n < 10 then Char.ofNat (48 + n) else Char.ofNat (87 + n)

def escape (c : Char) : List Char :=
  if c = '"' then ['\\', '"']
  else if c = '\\' then ['\\', '\\']
  else if c = '\x08' then ['\\', 'b']
  else if c = '\t' then ['\\', 't']
  else if c = '\n' then ['\\', 'n']
  else if c = '\x0c' then ['\\', 'f']
  else if c = '\r' then ['\\', 'r']
  else if c.toNat < 0x20 then ['\\', 'u', '0', '0', hexLetter (c.toNat / 16), hexLetter (c.toNat % 16)]
  else [c]

-- A string that stands for no text is written as half of a surrogate pair.
def quoted : Option String → List Char
  | some content => '"' :: content.toList.flatMap escape ++ ['"']
  | none => "\"\\ud800\"".toList

def naturalDigits (n : Nat) : List Char := Nat.toDigits 10 n

mutual

def compact : Json → List Char
  | .null => "null".toList
  | .bool true => "true".toList
  | .bool false => "false".toList
  | .natural n => naturalDigits n
  | .decimal literal => literal
  | .string content => quoted content
  | .array [] => ['[', ']']
  | .array (first :: rest) => '[' :: compact first ++ compactElements rest
  | .object [] => ['{', '}']
  | .object ((key, first) :: rest) => '{' :: quoted key ++ ':' :: compact first ++ compactFields rest

def compactElements : List Json → List Char
  | [] => [']']
  | element :: rest => ',' :: compact element ++ compactElements rest

def compactFields : List (Option String × Json) → List Char
  | [] => ['}']
  | (key, content) :: rest => ',' :: quoted key ++ ':' :: compact content ++ compactFields rest

end

def newline (level : Nat) : List Char := '\n' :: List.replicate (2 * level) ' '

mutual

def indentedAt (level : Nat) : Json → List Char
  | .null => "null".toList
  | .bool true => "true".toList
  | .bool false => "false".toList
  | .natural n => naturalDigits n
  | .decimal literal => literal
  | .string content => quoted content
  | .array [] => ['[', ']']
  | .array (first :: rest) =>
    '[' :: newline (level + 1) ++ indentedAt (level + 1) first ++ indentedElements level rest
  | .object [] => ['{', '}']
  | .object ((key, first) :: rest) =>
    '{' :: newline (level + 1) ++ quoted key ++ ':' :: ' ' :: indentedAt (level + 1) first ++
      indentedFields level rest

def indentedElements (level : Nat) : List Json → List Char
  | [] => newline level ++ [']']
  | element :: rest =>
    ',' :: newline (level + 1) ++ indentedAt (level + 1) element ++ indentedElements level rest

def indentedFields (level : Nat) : List (Option String × Json) → List Char
  | [] => newline level ++ ['}']
  | (key, content) :: rest =>
    ',' :: newline (level + 1) ++ quoted key ++ ':' :: ' ' :: indentedAt (level + 1) content ++
      indentedFields level rest

end

def render (json : Json) : String := String.ofList (compact json)

def renderIndented (json : Json) : String := String.ofList (indentedAt 0 json)

end Dataflow.Json
