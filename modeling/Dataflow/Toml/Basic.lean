set_option autoImplicit false

namespace Dataflow.Toml

inductive Origin where
  | header
  -- Passed on the way to the table of a longer header.
  | passage
  | dotted
  | inline
  deriving DecidableEq

inductive Value where
  | string (text : String)
  | boolean (flag : Bool)
  | integer (number : Int)
  | float (literal : List Char)
  | moment (literal : List Char)
  | array (items : List Value)
  | table (origin : Origin) (entries : List (String × Value))
  | tables (items : List (List (String × Value)))

abbrev Entries := List (String × Value)

namespace Entries

def put (key : String) (value : Value) : Entries → Entries
  | [] => [(key, value)]
  | (other, held) :: rest =>
    if other = key then (key, value) :: rest else (other, held) :: put key value rest

-- A dotted key does not enter a table that has a header of its own, nothing enters one between braces, and a
-- repeated header stands for its last table.
def editAt (dotted : Bool) (edit : Origin → Entries → Option Entries) :
    List String → Origin → Entries → Option Entries
  | [], origin, entries => edit origin entries
  | key :: path, _, entries =>
    match entries.lookup key with
    | none => do
      let made := if dotted then .dotted else .passage
      return entries.put key (.table made (← editAt dotted edit path made []))
    | some (.table origin held) =>
      if origin = .inline || (dotted && origin = .header) then none
      else do return entries.put key (.table origin (← editAt dotted edit path origin held))
    | some (.tables items) =>
      match items.getLast? with
      | none => none
      | some last => do
        return entries.put key (.tables (items.dropLast ++ [← editAt dotted edit path .header last]))
    | some _ => none

def define (path : List String) (key : String) (value : Value) (origin : Origin) (entries : Entries) :
    Option Entries :=
  editAt true (fun reached held =>
    if (path ≠ [] && reached ≠ .dotted) || (held.lookup key).isSome then none
    else some (held ++ [(key, value)])) path origin entries

def openTable (path : List String) (key : String) (entries : Entries) : Option Entries :=
  editAt false (fun _ held =>
    match held.lookup key with
    | none => some (held ++ [(key, .table .header [])])
    | some (.table .passage inner) => some (held.put key (.table .header inner))
    | some _ => none) path .header entries

def appendTable (path : List String) (key : String) (entries : Entries) : Option Entries :=
  editAt false (fun _ held =>
    match held.lookup key with
    | none => some (held ++ [(key, .tables [[]])])
    | some (.tables items) => some (held.put key (.tables (items ++ [[]])))
    | some _ => none) path .header entries

end Entries

end Dataflow.Toml
