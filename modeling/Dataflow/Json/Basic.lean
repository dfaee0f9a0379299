set_option autoImplicit false

namespace Dataflow

inductive Json where
  | null
  | bool (value : Bool)
  | natural (value : Nat)
  | decimal (literal : List Char)
  | string (text : Option String)
  | array (elements : List Json)
  | object (fields : List (Option String × Json))
  deriving Inhabited

namespace Json

def text (content : String) : Json := .string (some content)

def record (fields : List (String × Json)) : Json :=
  .object (fields.map fun field => (some field.1, field.2))

def ofOption {α : Type} (encode : α → Json) : Option α → Json
  | none => .null
  | some value => encode value

def ofList {α : Type} (encode : α → Json) (values : List α) : Json := .array (values.map encode)

def field? (key : String) : Json → Option Json
  | .object fields => (fields.find? fun field => field.1 == some key).map Prod.snd
  | _ => none

def knownFields? (names : List String) : List (Option String × Json) → Option (List (String × Json))
  | [] => some []
  | (none, _) :: _ => none
  | (some key, content) :: rest => do
    let later ← knownFields? names rest
    if key ∈ names then
      if later.any fun field => field.1 == key then none else return (key, content) :: later
    else return later

-- A record may also be an array of its fields in the order of their declaration.
def record? (names : List String) : Json → Option (List (String × Json))
  | .object fields => knownFields? names fields
  | .array elements => if elements.length ≤ names.length then some (names.zip elements) else none
  | _ => none

def content? (fields : List (String × Json)) (name : String) : Option Json :=
  (fields.find? fun field => field.1 == name).map Prod.snd

def required? {α : Type} (fields : List (String × Json)) (name : String)
    (decode : Json → Option α) : Option α :=
  (content? fields name).bind decode

def defaulted? {α : Type} (fields : List (String × Json)) (name : String) (default : α)
    (decode : Json → Option α) : Option α :=
  match content? fields name with
  | none => some default
  | some content => decode content

def string? : Json → Option String
  | .string content => content
  | _ => none

def bool? : Json → Option Bool
  | .bool value => some value
  | _ => none

def natural? : Json → Option Nat
  | .natural n => some n
  | _ => none

def word64? : Json → Option UInt64
  | .natural n => if n < UInt64.size then some (UInt64.ofNat n) else none
  | _ => none

def word32? : Json → Option UInt32
  | .natural n => if n < UInt32.size then some (UInt32.ofNat n) else none
  | _ => none

def list? {α : Type} (decode : Json → Option α) : Json → Option (List α)
  | .array elements => elements.mapM decode
  | _ => none

def option? {α : Type} (decode : Json → Option α) : Json → Option (Option α)
  | .null => some none
  | json => (decode json).map some

def name? {α : Type} (ofName? : String → Option α) : Json → Option α
  | .string (some content) => ofName? content
  | .object [(some content, .null)] => ofName? content
  | _ => none

end Json

end Dataflow
