import Dataflow.Text.Class
import Dataflow.Toml.Basic

set_option autoImplicit false

namespace Dataflow.Toml

def splitSign : List Char → Bool × List Char
  | '-' :: rest => (true, rest)
  | '+' :: rest => (false, rest)
  | cs => (false, cs)

def plainDigits? (base : Nat) : List Char → Option (List Char)
  | [] => none
  | [c] => (Text.digit? base c).map fun _ => [c]
  | c :: '_' :: rest => do
    let _ ← Text.digit? base c
    return c :: (← plainDigits? base rest)
  | c :: rest => do
    let _ ← Text.digit? base c
    return c :: (← plainDigits? base rest)

def wholeDigits? (cs : List Char) : Option (List Char) := do
  match cs with
  | '0' :: _ :: _ => none
  | _ => plainDigits? 10 cs

def largestInteger : Nat := 0x7FFFFFFFFFFFFFFF

def integer? (cs : List Char) : Option Int :=
  let inBase (base : Nat) (digits : List Char) : Option Int := do
    let n ← Text.numeral? base (← plainDigits? base digits)
    if n ≤ largestInteger then return n else none
  match cs with
  | '0' :: 'x' :: digits => inBase 16 digits
  | '0' :: 'o' :: digits => inBase 8 digits
  | '0' :: 'b' :: digits => inBase 2 digits
  | _ => do
    let (negative, digits) := splitSign cs
    let n ← Text.numeral? 10 (← wholeDigits? digits)
    if negative then
      if n ≤ largestInteger + 1 then return -(n : Int) else none
    else if n ≤ largestInteger then return n
    else none

-- Numbers that are far from the bound are told by their count of digits.
def exceedsDouble (digits : Nat) (scale : Int) : Bool :=
  let bound := Nat.pow 2 1024 - Nat.pow 2 970
  let places := ((Nat.toDigits 10 digits).length : Int) + scale
  if digits = 0 || places < 300 then false
  else if places > 320 then true
  else if 0 ≤ scale then bound ≤ digits * Nat.pow 10 scale.toNat
  else bound * Nat.pow 10 (-scale).toNat ≤ digits

def fractionDigits? : List Char → Option (List Char)
  | [] => some []
  | _ :: digits => plainDigits? 10 digits

def exponent? : List Char → Option Int
  | [] => some 0
  | _ :: power => do
    let (below, digits) := splitSign power
    let n ← Text.numeral? 10 (← plainDigits? 10 digits)
    return if below then -(n : Int) else n

def isFloat (cs : List Char) : Bool :=
  let (negative, body) := splitSign cs
  let mantissa := body.takeWhile fun c => c != 'e' && c != 'E'
  let whole := mantissa.takeWhile (· != '.')
  let isFinite : Option Bool := do
    let wholePart ← wholeDigits? whole
    let fraction ← fractionDigits? (mantissa.drop whole.length)
    let exponent ← exponent? (body.drop mantissa.length)
    let digits ← Text.numeral? 10 (wholePart ++ fraction)
    return body != whole && (negative || !exceedsDouble digits (exponent - fraction.length))
  isFinite.getD false || body == "inf".toList || body == "nan".toList

def pair? (least greatest : Nat) (a b : Char) : Option Nat :=
  (Text.numeral? 10 [a, b]).filter fun n => least ≤ n && n ≤ greatest

def daysOfMonth (year month : Nat) : Nat :=
  let leap := year % 4 == 0 && (year % 100 != 0 || year % 400 == 0)
  match month with
  | 2 => if leap then 29 else 28
  | 4 | 6 | 9 | 11 => 30
  | _ => 31

def afterDate? : List Char → Option (List Char)
  | y₁ :: y₂ :: y₃ :: y₄ :: '-' :: m₁ :: m₂ :: '-' :: d₁ :: d₂ :: rest => do
    let year ← Text.numeral? 10 [y₁, y₂, y₃, y₄]
    let month ← pair? 1 12 m₁ m₂
    let _ ← pair? 1 (daysOfMonth year month) d₁ d₂
    return rest
  | _ => none

def afterTime? : List Char → Option (List Char)
  | h₁ :: h₂ :: ':' :: m₁ :: m₂ :: ':' :: s₁ :: s₂ :: rest => do
    let _ ← pair? 0 23 h₁ h₂
    let _ ← pair? 0 59 m₁ m₂
    let _ ← pair? 0 60 s₁ s₂
    match rest with
    | '.' :: c :: rest => if c.isDigit then return rest.dropWhile Char.isDigit else none
    | '.' :: [] => none
    | _ => return rest
  | _ => none

def isOffset : List Char → Bool
  | [] | ['Z'] | ['z'] => true
  | [sign, h₁, h₂, ':', m₁, m₂] =>
    (sign == '+' || sign == '-') && (pair? 0 23 h₁ h₂).isSome && (pair? 0 59 m₁ m₂).isSome
  | _ => false

def isMoment (cs : List Char) : Bool :=
  match afterDate? cs with
  | some [] => true
  | some (mark :: rest) =>
    (mark == 'T' || mark == 't' || mark == ' ') && ((afterTime? rest).map isOffset).getD false
  | none => afterTime? cs == some []

def isScalarChar (c : Char) : Bool :=
  c.isAlphanum || c == '+' || c == '-' || c == '_' || c == '.' || c == ':'

-- A blank between a date and a time belongs to the run.
def scalarRun (cs : List Char) : List Char × List Char :=
  let run := cs.takeWhile isScalarChar
  let rest := cs.dropWhile isScalarChar
  match afterDate? run, rest with
  | some [], ' ' :: h₁ :: h₂ :: ':' :: later =>
    let time := (h₁ :: h₂ :: ':' :: later).takeWhile isScalarChar
    if h₁.isDigit && h₂.isDigit then (run ++ ' ' :: time, (rest.drop 1).drop time.length)
    else (run, rest)
  | _, _ => (run, rest)

def scalar? (run : List Char) : Option Value :=
  if run = "true".toList then some (.boolean true)
  else if run = "false".toList then some (.boolean false)
  else if isMoment run then some (.moment run)
  else if isFloat run then some (.float run)
  else (integer? run).map .integer

end Dataflow.Toml
