import Dataflow.Json.Basic
import Dataflow.Text.Class

set_option autoImplicit false

namespace Dataflow.Json

def isBlank (c : Char) : Bool := c == ' ' || c == '\n' || c == '\t' || c == '\r'

def skipBlanks (cs : List Char) : List Char := cs.dropWhile isBlank

inductive Piece where
  | char (c : Char)
  | unit (u : Nat)
  deriving DecidableEq

def shortEscape? : Char → Option Char
  | '"' => some '"'
  | '\\' => some '\\'
  | '/' => some '/'
  | 'b' => some '\x08'
  | 'f' => some '\x0c'
  | 'n' => some '\n'
  | 'r' => some '\r'
  | 't' => some '\t'
  | _ => none

def pieces : List Char → Option (List Piece × List Char)
  | [] => none
  | '"' :: rest => some ([], rest)
  | '\\' :: 'u' :: a :: b :: c :: d :: rest => do
    let u ← Text.numeral? 16 [a, b, c, d]
    let (later, rest) ← pieces rest
    return (.unit u :: later, rest)
  | '\\' :: letter :: rest => do
    let c ← shortEscape? letter
    let (later, rest) ← pieces rest
    return (.char c :: later, rest)
  | c :: rest =>
    if c.toNat < 0x20 || c = '\\' then none
    else do
      let (later, rest) ← pieces rest
      return (.char c :: later, rest)

def isHighSurrogate (u : Nat) : Bool := 0xd800 ≤ u && u < 0xdc00

def isLowSurrogate (u : Nat) : Bool := 0xdc00 ≤ u && u < 0xe000

def assemble? : List Piece → Option (List Char)
  | [] => some []
  | .char c :: rest => (assemble? rest).map (c :: ·)
  | .unit high :: .unit low :: rest =>
    if isHighSurrogate high then
      if isLowSurrogate low then
        (assemble? rest).map (Char.ofNat (0x10000 + (high - 0xd800) * 0x400 + (low - 0xdc00)) :: ·)
      else none
    else if isLowSurrogate high then none
    else (assemble? (.unit low :: rest)).map (Char.ofNat high :: ·)
  | .unit u :: rest =>
    if isHighSurrogate u || isLowSurrogate u then none
    else (assemble? rest).map (Char.ofNat u :: ·)

def stringBody (cs : List Char) : Option (Option String × List Char) := do
  let (parts, rest) ← pieces cs
  return ((assemble? parts).map String.ofList, rest)

def digits (cs : List Char) : Option (List Char × List Char) :=
  match cs.takeWhile Char.isDigit with
  | [] => none
  | run => some (run, cs.dropWhile Char.isDigit)

def digitsValue (run : List Char) : Nat :=
  run.foldl (fun value c => value * 10 + (c.toNat - '0'.toNat)) 0

def integerPart (cs : List Char) : Option (List Char × List Char) := do
  let (run, rest) ← digits cs
  match run with
  | '0' :: _ :: _ => none
  | _ => return (run, rest)

def fractionPart (cs : List Char) : Option (List Char × List Char) :=
  match cs with
  | '.' :: rest => do
    let (run, rest) ← digits rest
    return ('.' :: run, rest)
  | _ => some ([], cs)

def exponentPart (cs : List Char) : Option (List Char × List Char) :=
  match cs with
  | mark :: rest =>
    if mark = 'e' || mark = 'E' then
      let (sign, rest) := match rest with
        | '+' :: later => (['+'], later)
        | '-' :: later => (['-'], later)
        | _ => ([], rest)
      do
        let (run, rest) ← digits rest
        return (mark :: sign ++ run, rest)
    else some ([], cs)
  | [] => some ([], [])

def number (cs : List Char) : Option (Json × List Char) := do
  let (sign, rest) := match cs with
    | '-' :: later => (['-'], later)
    | _ => ([], cs)
  let (whole, rest) ← integerPart rest
  let (fraction, rest) ← fractionPart rest
  let (exponent, rest) ← exponentPart rest
  if sign = [] && fraction = [] && exponent = [] then return (.natural (digitsValue whole), rest)
  return (.decimal (sign ++ whole ++ fraction ++ exponent), rest)

mutual

def value : Nat → List Char → Option (Json × List Char)
  | 0, _ => none
  | fuel + 1, cs =>
    match skipBlanks cs with
    | 'n' :: 'u' :: 'l' :: 'l' :: rest => some (.null, rest)
    | 't' :: 'r' :: 'u' :: 'e' :: rest => some (.bool true, rest)
    | 'f' :: 'a' :: 'l' :: 's' :: 'e' :: rest => some (.bool false, rest)
    | '"' :: rest => (stringBody rest).map fun (text, rest) => (.string text, rest)
    | '[' :: rest =>
      match skipBlanks rest with
      | ']' :: rest => some (.array [], rest)
      | rest => (elements fuel rest).map fun (elements, rest) => (.array elements, rest)
    | '{' :: rest =>
      match skipBlanks rest with
      | '}' :: rest => some (.object [], rest)
      | rest => (members fuel rest).map fun (fields, rest) => (.object fields, rest)
    | rest => number rest

def elements : Nat → List Char → Option (List Json × List Char)
  | 0, _ => none
  | fuel + 1, cs => do
    let (first, rest) ← value fuel cs
    match skipBlanks rest with
    | ']' :: rest => return ([first], rest)
    | ',' :: rest =>
      let (later, rest) ← elements fuel rest
      return (first :: later, rest)
    | _ => none

def members : Nat → List Char → Option (List (Option String × Json) × List Char)
  | 0, _ => none
  | fuel + 1, cs =>
    match skipBlanks cs with
    | '"' :: rest => do
      let (key, rest) ← stringBody rest
      match skipBlanks rest with
      | ':' :: rest =>
        let (content, rest) ← value fuel rest
        match skipBlanks rest with
        | '}' :: rest => return ([(key, content)], rest)
        | ',' :: rest =>
          let (later, rest) ← members fuel rest
          return ((key, content) :: later, rest)
        | _ => none
      | _ => none
    | _ => none

end

-- A nesting level takes two calls and at least one character.
def parse? (source : String) : Option Json := do
  let cs := source.toList
  let (json, rest) ← value (2 * cs.length + 2) cs
  match skipBlanks rest with
  | [] => return json
  | _ => none

end Dataflow.Json
