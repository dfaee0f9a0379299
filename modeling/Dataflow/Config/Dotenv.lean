import Dataflow.Config.Environment
import Dataflow.Text.Class

set_option autoImplicit false

namespace Dataflow.Dotenv

inductive Piece where
  | char (c : Char)
  | variable (name : String)
  deriving DecidableEq

structure Assignment where
  name : String
  pieces : List Piece
  deriving DecidableEq

inductive ValueState where
  | bare
  | weak
  | strong
  | escaped (inQuotes : Bool)
  | mention (inQuotes : Bool) (name : List Char)
  | braced (inQuotes : Bool) (name : List Char)
  | ended
  deriving DecidableEq

namespace ValueState

def outside (inQuotes : Bool) : ValueState := if inQuotes then weak else bare

def step : ValueState → Char → Option (List Piece × ValueState)
  | ended, c => if c = ' ' || c = '\t' then some ([], ended) else none
  | escaped inQuotes, c =>
    if c = 'n' then some ([.char '\n'], outside inQuotes)
    else if c ∈ ['\\', '\'', '"', '$', ' '] then some ([.char c], outside inQuotes)
    else none
  | strong, c => if c = '\'' then some ([], bare) else some ([.char c], strong)
  | mention inQuotes name, c =>
    if Text.isAlphanumeric c then some ([], mention inQuotes (name ++ [c]))
    else if c = '{' && name = [] then some ([], braced inQuotes [])
    else if c = '$' then some ([.variable (String.ofList name)], mention inQuotes [])
    else some ([.variable (String.ofList name), .char c], outside inQuotes)
  | braced inQuotes name, c =>
    if c = '}' then some ([.variable (String.ofList name)], outside inQuotes)
    else some ([], braced inQuotes (name ++ [c]))
  | weak, c =>
    if c = '$' then some ([], mention true [])
    else if c = '"' then some ([], bare)
    else if c = '\\' then some ([], escaped true)
    else some ([.char c], weak)
  | bare, c =>
    if c = '$' then some ([], mention false [])
    else if c = '\'' then some ([], strong)
    else if c = '"' then some ([], weak)
    else if c = '\\' then some ([], escaped false)
    else if c = ' ' || c = '\t' then some ([], ended)
    else some ([.char c], bare)

def finish : ValueState → Option (List Piece)
  | bare | ended | escaped false => some []
  | mention false name => some [.variable (String.ofList name)]
  | _ => none

end ValueState

def pieces? : ValueState → List Char → Option (List Piece)
  | state, [] => state.finish
  | state, c :: rest =>
    if state = .ended && c = '#' then some []
    else do
      let (done, next) ← state.step c
      return done ++ (← pieces? next rest)

def isNameStart (c : Char) : Bool := c.isAlpha || c == '_'

def isNameChar (c : Char) : Bool := c.isAlphanum || c == '_' || c == '.'

def name? (cs : List Char) : Option (String × List Char) := do
  let first ← cs.head?
  if isNameStart first then
    return (String.ofList (cs.takeWhile isNameChar), Text.trimStart (cs.dropWhile isNameChar))
  else none

inductive Statement where
  | assignment (assignment : Assignment)
  | nothing
  | mistake

def target? (cs : List Char) : Option (String × List Char) := do
  match ← name? cs with
  | (name, '=' :: rest) => return (name, rest)
  | ("export", rest) =>
    match ← name? rest with
    | (name, '=' :: rest) => return (name, rest)
    | _ => none
  | _ => none

def startsComment (cs : List Char) : Bool := cs.head? = some '#'

def statement (line : List Char) : Statement :=
  let cs := Text.trimStart (Text.trimEnd line)
  if cs = [] || startsComment cs then .nothing
  else
    match target? cs with
    | none => .mistake
    | some (name, rest) =>
      let rest := Text.trimStart rest
      if rest = [] || startsComment rest then .assignment ⟨name, []⟩
      else
        match pieces? .bare rest with
        | some pieces => .assignment ⟨name, pieces⟩
        | none => .mistake

-- A line goes on inside quotes and after a blank or backslash.
inductive LineState where
  | complete
  | blank
  | escape
  | weak
  | weakEscape
  | strong
  | strongEscape
  deriving DecidableEq

namespace LineState

def opened : Char → LineState
  | '\\' => escape
  | '"' => weak
  | '\'' => strong
  | _ => complete

def step : LineState → Char → LineState
  | complete, c => if Text.isBlank c && c != '\n' && c != '\r' then blank else opened c
  | blank, c => opened c
  | escape, _ => complete
  | weak, c => if c = '\\' then weakEscape else if c = '"' then complete else weak
  | weakEscape, _ => weak
  | strong, c => if c = '\\' then strongEscape else if c = '\'' then complete else strong
  | strongEscape, _ => strong

end LineState

def scan : LineState → List Char → Option LineState × List Char
  | state, [] => (some state, [])
  | state, c :: rest =>
    if state = .blank && c = '#' then (none, [])
    else
      let (last, kept) := scan (state.step c) rest
      (last, c :: kept)

def physicalLines : List Char → List (List Char)
  | [] => []
  | c :: rest =>
    if c = '\n' then [c] :: physicalLines rest
    else
      match physicalLines rest with
      | [] => [[c]]
      | line :: lines => (c :: line) :: lines

-- `held` is the part of an unfinished line; reading stops at the first mistake.
def ofLines : List (List Char) → (held : List Char) → LineState → List Assignment
  | [], _, _ => []
  | line :: lines, held, state =>
    let whole := held ++ line
    if startsComment (Text.trimStart whole) then ofLines lines [] .complete
    else
      let (last, kept) := scan state line
      match last with
      | none | some .complete =>
        match statement (held ++ kept) with
        | .assignment assignment => assignment :: ofLines lines [] .complete
        | .nothing => ofLines lines [] .complete
        | .mistake => []
      | some unfinished => ofLines lines whole unfinished

def assignments (source : String) : List Assignment :=
  let cs := match source.toList with
    | '\uFEFF' :: rest => rest
    | cs => cs
  ofLines (physicalLines cs) [] .complete

def Piece.expand (environment : Environment) : Piece → String
  | .char c => String.singleton c
  | .variable name => (environment.get? name).getD ""

def Assignment.value (environment : Environment) (assignment : Assignment) : String :=
  String.join (assignment.pieces.map (·.expand environment))

inductive LoadError where
  -- The text of a variable ends at a NUL, so no value may hold one.
  | nulInValue (name : String)
  deriving DecidableEq

def LoadError.message : LoadError → String
  | nulInValue name => s!"the value of {name} holds a NUL"

def Assignment.load (environment : Environment) (assignment : Assignment) :
    Except LoadError Environment :=
  let value := assignment.value environment
  if (environment.get? assignment.name).isNone && value.toList.contains '\x00' then
    .error (.nulInValue assignment.name)
  else .ok (environment.supply assignment.name value)

def load (environment : Environment) (assignments : List Assignment) : Except LoadError Environment :=
  assignments.foldlM Assignment.load environment

def names (assignments : List Assignment) : List String :=
  assignments.flatMap fun assignment => assignment.name :: assignment.pieces.filterMap fun
    | .char _ => none
    | .variable name => some name

end Dataflow.Dotenv
