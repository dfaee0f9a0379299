import Dataflow.Toml.Scalar

set_option autoImplicit false

namespace Dataflow.Toml

def isSpace (c : Char) : Bool := c == ' ' || c == '\t'

def skipSpaces (cs : List Char) : List Char := cs.dropWhile isSpace

def isLineChar (c : Char) : Bool := c == '\t' || (0x20 ≤ c.toNat && c.toNat != 0x7f)

def afterBreak? : List Char → Option (List Char)
  | '\n' :: rest => some rest
  | '\r' :: '\n' :: rest => some rest
  | _ => none

def afterLine? (cs : List Char) : Option (List Char) :=
  let rest := match skipSpaces cs with
    | '#' :: rest => rest.dropWhile isLineChar
    | rest => rest
  if rest = [] then some [] else afterBreak? rest

def skipGap : (inComment : Bool) → List Char → List Char
  | _, [] => []
  | _, '\n' :: rest => skipGap false rest
  | _, '\r' :: '\n' :: rest => skipGap false rest
  | true, c :: rest => if isLineChar c then skipGap true rest else c :: rest
  | false, '#' :: rest => skipGap true rest
  | false, c :: rest => if isSpace c then skipGap false rest else c :: rest

def shortEscape? : Char → Option Char
  | 'b' => some '\x08'
  | 't' => some '\t'
  | 'n' => some '\n'
  | 'f' => some '\x0c'
  | 'r' => some '\r'
  | '"' => some '"'
  | '\\' => some '\\'
  | _ => none

def coded? (digits : List Char) : Option Char := do
  let code ← Text.numeral? 16 digits
  if code < 0xd800 || (0xe000 ≤ code && code < 0x110000) then return Char.ofNat code else none

def escape? : List Char → Option (Char × List Char)
  | 'u' :: a :: b :: c :: d :: rest => (coded? [a, b, c, d]).map (·, rest)
  | 'U' :: a :: b :: c :: d :: e :: f :: g :: h :: rest =>
    (coded? [a, b, c, d, e, f, g, h]).map (·, rest)
  | letter :: rest => (shortEscape? letter).map (·, rest)
  | [] => none

def basicBody : Nat → List Char → Option (List Char × List Char)
  | 0, _ | _, [] => none
  | _, '"' :: rest => some ([], rest)
  | fuel + 1, '\\' :: rest => do
    let (c, rest) ← escape? rest
    let (later, rest) ← basicBody fuel rest
    return (c :: later, rest)
  | fuel + 1, c :: rest =>
    if isLineChar c then do
      let (later, rest) ← basicBody fuel rest
      return (c :: later, rest)
    else none

-- Up to two quotes may stand before the closing ones; a backslash at a line's end takes the blanks behind it away.
def basicBlock : Nat → List Char → Option (List Char × List Char)
  | 0, _ | _, [] => none
  | _, '"' :: '"' :: '"' :: '"' :: '"' :: rest => some (['"', '"'], rest)
  | _, '"' :: '"' :: '"' :: '"' :: rest => some (['"'], rest)
  | _, '"' :: '"' :: '"' :: rest => some ([], rest)
  | fuel + 1, '\\' :: rest =>
    match afterBreak? (skipSpaces rest) with
    | some later => basicBlock fuel (skipBreaks later)
    | none => do
      let (c, rest) ← escape? rest
      let (later, rest) ← basicBlock fuel rest
      return (c :: later, rest)
  | fuel + 1, c :: rest =>
    match afterBreak? (c :: rest) with
    | some rest => do
      let (later, rest) ← basicBlock fuel rest
      return ('\n' :: later, rest)
    | none =>
      if isLineChar c then do
        let (later, rest) ← basicBlock fuel rest
        return (c :: later, rest)
      else none
where
  skipBreaks : List Char → List Char
    | '\n' :: rest => skipBreaks rest
    | '\r' :: '\n' :: rest => skipBreaks rest
    | c :: rest => if isSpace c then skipBreaks rest else c :: rest
    | [] => []

def literalBody (cs : List Char) : Option (List Char × List Char) :=
  let isPlain (c : Char) : Bool := isLineChar c && c != '\''
  match cs.dropWhile isPlain with
  | '\'' :: rest => some (cs.takeWhile isPlain, rest)
  | _ => none

def literalBlock : List Char → Option (List Char × List Char)
  | [] => none
  | '\'' :: '\'' :: '\'' :: '\'' :: '\'' :: rest => some (['\'', '\''], rest)
  | '\'' :: '\'' :: '\'' :: '\'' :: rest => some (['\''], rest)
  | '\'' :: '\'' :: '\'' :: rest => some ([], rest)
  | '\r' :: '\n' :: rest => do
    let (later, rest) ← literalBlock rest
    return ('\n' :: later, rest)
  | c :: rest =>
    if isLineChar c || c = '\n' then do
      let (later, rest) ← literalBlock rest
      return (c :: later, rest)
    else none

def trimBreak (cs : List Char) : List Char := (afterBreak? cs).getD cs

def quoted? : List Char → Option (List Char × List Char)
  | '"' :: rest => basicBody rest.length rest
  | '\'' :: rest => literalBody rest
  | _ => none

def string? : List Char → Option (List Char × List Char)
  | '"' :: '"' :: '"' :: rest => basicBlock rest.length (trimBreak rest)
  | '\'' :: '\'' :: '\'' :: rest => literalBlock (trimBreak rest)
  | cs => quoted? cs

def isBareKeyChar (c : Char) : Bool := c.isAlphanum || c == '_' || c == '-'

def simpleKey? (cs : List Char) : Option (String × List Char) :=
  match quoted? cs with
  | some (text, rest) => some (String.ofList text, rest)
  | none =>
    match cs.takeWhile isBareKeyChar with
    | [] => none
    | run => some (String.ofList run, cs.dropWhile isBareKeyChar)

def keyParts : Nat → List Char → Option (List String × List Char)
  | 0, _ => none
  | fuel + 1, cs => do
    let (part, rest) ← simpleKey? (skipSpaces cs)
    match skipSpaces rest with
    | '.' :: rest =>
      let (parts, rest) ← keyParts fuel rest
      return (part :: parts, rest)
    | rest => return ([part], rest)

-- Keys have fewer parts than this, and brackets are nested less deeply.
def depthLimit : Nat := 80

def key? (cs : List Char) : Option (List String × String × List Char) := do
  let (parts, rest) ← keyParts cs.length cs
  if depthLimit ≤ parts.length then none
  else
    let last ← parts.getLast?
    return (parts.dropLast, last, rest)

mutual

def value : Nat → (depth : Nat) → List Char → Option (Value × List Char)
  | 0, _, _ => none
  | fuel + 1, depth, cs =>
    match cs with
    | '"' :: _ | '\'' :: _ => (string? cs).map fun (text, rest) => (.string (String.ofList text), rest)
    | '[' :: rest =>
      if depthLimit ≤ depth + 1 then none
      else (items fuel (depth + 1) rest).map fun (items, rest) => (.array items, rest)
    | '{' :: rest =>
      if depthLimit ≤ depth + 1 then none
      else
        match skipSpaces rest with
        | '}' :: rest => some (.table .inline [], rest)
        | _ => (fields fuel (depth + 1) rest []).map fun (entries, rest) => (.table .inline entries, rest)
    | _ =>
      let (run, rest) := scalarRun cs
      (scalar? run).map (·, rest)

def items : Nat → (depth : Nat) → List Char → Option (List Value × List Char)
  | 0, _, _ => none
  | fuel + 1, depth, cs =>
    match skipGap false cs with
    | ']' :: rest => some ([], rest)
    | cs => do
      let (first, rest) ← value fuel depth cs
      match skipGap false rest with
      | ']' :: rest => return ([first], rest)
      | ',' :: rest =>
        let (later, rest) ← items fuel depth rest
        return (first :: later, rest)
      | _ => none

def fields : Nat → (depth : Nat) → List Char → Entries → Option (Entries × List Char)
  | 0, _, _, _ => none
  | fuel + 1, depth, cs, entries => do
    let (path, key, rest) ← key? cs
    match rest with
    | '=' :: rest =>
      let (content, rest) ← value fuel depth (skipSpaces rest)
      let entries ← entries.define path key content .inline
      match skipSpaces rest with
      | '}' :: rest => return (entries, rest)
      | ',' :: rest => fields fuel depth rest entries
      | _ => none
    | _ => none

end

structure Draft where
  entries : Entries := []
  path : List String := []

namespace Draft

def define (draft : Draft) (path : List String) (key : String) (content : Value) : Option Draft := do
  let entries ← Entries.editAt false (Entries.define path key content) draft.path .header draft.entries
  return { draft with entries }

def openTable (draft : Draft) (path : List String) (key : String) : Option Draft := do
  return ⟨← Entries.openTable path key draft.entries, path ++ [key]⟩

def appendTable (draft : Draft) (path : List String) (key : String) : Option Draft := do
  return ⟨← Entries.appendTable path key draft.entries, path ++ [key]⟩

def line? (draft : Draft) (cs : List Char) : Option (Draft × List Char) :=
  match skipSpaces cs with
  | '[' :: '[' :: rest => do
    let (path, key, rest) ← key? rest
    match rest with
    | ']' :: ']' :: rest => return (← draft.appendTable path key, ← afterLine? rest)
    | _ => none
  | '[' :: rest => do
    let (path, key, rest) ← key? rest
    match rest with
    | ']' :: rest => return (← draft.openTable path key, ← afterLine? rest)
    | _ => none
  | [] => some (draft, [])
  | first :: rest =>
    if first = '#' || first = '\n' || first = '\r' then
      (afterLine? (first :: rest)).map (draft, ·)
    else do
      let (path, key, rest) ← key? (first :: rest)
      match rest with
      | '=' :: rest =>
        let rest := skipSpaces rest
        let (content, rest) ← value (2 * rest.length + 2) 0 rest
        return (← draft.define path key content, ← afterLine? rest)
      | _ => none

def lines? : Nat → Draft → List Char → Option Draft
  | _, draft, [] => some draft
  | 0, _, _ => none
  | fuel + 1, draft, cs => do
    let (draft, rest) ← draft.line? cs
    lines? fuel draft rest

end Draft

-- Each line takes at least one character, so the length of the text bounds their number.
def parse? (source : String) : Option Entries :=
  let cs := match source.toList with
    | '\uFEFF' :: rest => rest
    | cs => cs
  (Draft.lines? cs.length {} cs).map (·.entries)

end Dataflow.Toml
