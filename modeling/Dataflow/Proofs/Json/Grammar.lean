import Dataflow.Json.Reader
import Mathlib.Data.List.DropRight
import Mathlib.Tactic.IntervalCases

set_option autoImplicit false

namespace Dataflow.Json

def Blank (cs : List Char) : Prop := ∀ c ∈ cs, isBlank c = true

def SpellsDigit (n : Nat) (c : Char) : Prop := n < 16 ∧ (c = n.digitChar ∨ c = n.digitChar.toUpper)

instance (n : Nat) (c : Char) : Decidable (SpellsDigit n c) := inferInstanceAs (Decidable (_ ∧ _))

inductive SpellsUnit : Nat → List Char → Prop
  | digits {w x y z : Nat} {a b c d : Char} (first : SpellsDigit w a) (second : SpellsDigit x b)
      (third : SpellsDigit y c) (fourth : SpellsDigit z d) :
      SpellsUnit (((w * 16 + x) * 16 + y) * 16 + z) [a, b, c, d]

def shortEscapes : List (Char × Char) :=
  [('"', '"'), ('\\', '\\'), ('/', '/'), ('b', '\x08'), ('f', '\x0c'), ('n', '\n'), ('r', '\r'),
    ('t', '\t')]

inductive SpellsChar (c : Char) : List Char → Prop
  | plain (visible : 0x20 ≤ c.toNat) (noQuote : c ≠ '"') (noBackslash : c ≠ '\\') : SpellsChar c [c]
  | short {letter : Char} (listed : (letter, c) ∈ shortEscapes) : SpellsChar c ['\\', letter]
  -- Four digits are enough for the basic plane only; a character beyond it takes two surrogates.
  | unit {digits : List Char} (spelled : SpellsUnit c.toNat digits) :
      SpellsChar c ('\\' :: 'u' :: digits)
  | pair {high low : Nat} {digits digits' : List Char} (high_lt : high < 0x400) (low_lt : low < 0x400)
      (joined : c.toNat = 0x10000 + high * 0x400 + low)
      (leads : SpellsUnit (0xd800 + high) digits) (trails : SpellsUnit (0xdc00 + low) digits') :
      SpellsChar c ('\\' :: 'u' :: digits ++ '\\' :: 'u' :: digits')

inductive SpellsText : List Char → List Char → Prop
  | nil : SpellsText [] []
  | cons {c : Char} {cs text later : List Char} (first : SpellsChar c cs)
      (rest : SpellsText text later) : SpellsText (c :: text) (cs ++ later)

mutual

inductive Spells : Json → List Char → Prop
  | null : Spells .null "null".toList
  | affirmative : Spells (.bool true) "true".toList
  | negative : Spells (.bool false) "false".toList
  | natural (n : Nat) : Spells (.natural n) (Nat.toDigits 10 n)
  | text {content : String} {cs : List Char} (spelled : SpellsText content.toList cs) :
      Spells (.text content) ('"' :: cs ++ ['"'])
  | emptyArray {gap : List Char} (blank : Blank gap) : Spells (.array []) ('[' :: gap ++ [']'])
  | array {values : List Json} {body : List Char} (spelled : SpellsElements values body) :
      Spells (.array values) ('[' :: body)
  | emptyObject {gap : List Char} (blank : Blank gap) : Spells (.object []) ('{' :: gap ++ ['}'])
  | object {fields : List (Option String × Json)} {body : List Char}
      (spelled : SpellsMembers fields body) : Spells (.object fields) ('{' :: body)

-- The closing bracket is part of the body.
inductive SpellsElements : List Json → List Char → Prop
  | last {json : Json} {front cs back : List Char} (before : Blank front) (spelled : Spells json cs)
      (after : Blank back) : SpellsElements [json] (front ++ cs ++ back ++ [']'])
  | more {json : Json} {front cs back body : List Char} {later : List Json} (before : Blank front)
      (spelled : Spells json cs) (after : Blank back) (rest : SpellsElements later body) :
      SpellsElements (json :: later) (front ++ cs ++ back ++ ',' :: body)

inductive SpellsMembers : List (Option String × Json) → List Char → Prop
  | last {key : String} {json : Json} {front name gap gap' cs back : List Char} (before : Blank front)
      (named : SpellsText key.toList name) (blank : Blank gap) (blank' : Blank gap')
      (spelled : Spells json cs) (after : Blank back) :
      SpellsMembers [(some key, json)]
        (front ++ '"' :: name ++ '"' :: gap ++ ':' :: gap' ++ cs ++ back ++ ['}'])
  | more {key : String} {json : Json} {front name gap gap' cs back body : List Char}
      {later : List (Option String × Json)} (before : Blank front)
      (named : SpellsText key.toList name) (blank : Blank gap) (blank' : Blank gap')
      (spelled : Spells json cs) (after : Blank back) (rest : SpellsMembers later body) :
      SpellsMembers ((some key, json) :: later)
        (front ++ '"' :: name ++ '"' :: gap ++ ':' :: gap' ++ cs ++ back ++ ',' :: body)

end

def SpelledBy (json : Json) (source : String) : Prop :=
  ∃ front cs back, Blank front ∧ Spells json cs ∧ Blank back ∧ source.toList = front ++ cs ++ back

theorem skipBlanks_append {gap : List Char} (blank : Blank gap) (cs : List Char) :
    skipBlanks (gap ++ cs) = skipBlanks cs :=
  List.dropWhile_append_of_pos blank

theorem skipBlanks_cons {c : Char} (token : isBlank c = false) (cs : List Char) :
    skipBlanks (c :: cs) = c :: cs := by
  simp [skipBlanks, token]

theorem exists_digitChar {c : Char} (digit : c.isDigit = true) : ∃ n < 10, c = n.digitChar := by
  have bounds : 48 ≤ c.toNat ∧ c.toNat ≤ 57 := by
    simpa [Char.isDigit, UInt32.le_iff_toNat_le] using digit
  refine ⟨c.toNat - 48, by omega, ?_⟩
  obtain ⟨code, same⟩ : ∃ code, c.toNat = code := ⟨_, rfl⟩
  rw [← Char.ofNat_toNat c, same]
  rw [same] at bounds
  obtain ⟨low, high⟩ := bounds
  interval_cases code <;> decide

theorem SpellsDigit.digit? {n : Nat} {c : Char} (spelled : SpellsDigit n c) :
    Text.digit? 16 c = some n := by
  obtain ⟨small, rfl | rfl⟩ := spelled <;> interval_cases n <;> decide

theorem SpellsUnit.numeral? {unit : Nat} {cs : List Char} (spelled : SpellsUnit unit cs) :
    Text.numeral? 16 cs = some unit := by
  cases spelled with
  | digits first second third fourth =>
    simp [Text.numeral?, first.digit?, second.digit?, third.digit?, fourth.digit?]

theorem pieces_unit {unit : Nat} {digits : List Char} (spelled : SpellsUnit unit digits)
    {later rest : List Char} {parts : List Piece} (read : pieces later = some (parts, rest)) :
    pieces ('\\' :: 'u' :: digits ++ later) = some (.unit unit :: parts, rest) := by
  have value := spelled.numeral?
  cases spelled with
  | digits first second third fourth =>
    simp only [List.cons_append, List.nil_append]
    rw [pieces, value, read]
    rfl

theorem pieces_short {letter c : Char} (listed : (letter, c) ∈ shortEscapes)
    {later rest : List Char} {parts : List Piece} (read : pieces later = some (parts, rest)) :
    pieces ('\\' :: letter :: later) = some (.char c :: parts, rest) := by
  simp only [shortEscapes, List.mem_cons, Prod.mk.injEq, List.not_mem_nil, or_false] at listed
  rcases listed with ⟨rfl, rfl⟩ | ⟨rfl, rfl⟩ | ⟨rfl, rfl⟩ | ⟨rfl, rfl⟩ | ⟨rfl, rfl⟩ | ⟨rfl, rfl⟩ |
    ⟨rfl, rfl⟩ | ⟨rfl, rfl⟩ <;> simp [pieces, shortEscape?, read]

theorem pieces_plain {c : Char} (visible : 0x20 ≤ c.toNat) (noQuote : c ≠ '"')
    (noBackslash : c ≠ '\\') {later rest : List Char} {parts : List Piece}
    (read : pieces later = some (parts, rest)) :
    pieces (c :: later) = some (.char c :: parts, rest) := by
  have shown : ¬ c.toNat < 0x20 := by omega
  simp [pieces, shown, noBackslash, read]

theorem assemble?_unit {unit : Nat} (alone : isHighSurrogate unit = false)
    (alone' : isLowSurrogate unit = false) (parts : List Piece) :
    assemble? (.unit unit :: parts) = (assemble? parts).map (Char.ofNat unit :: ·) := by
  -- The pieces are looked at two at a time, so the second one has to be known as well.
  cases parts with
  | nil => simp [assemble?, alone, alone']
  | cons part parts => cases part <;> simp [assemble?, alone, alone']

theorem assemble?_pair {high low : Nat} (high_lt : high < 0x400) (low_lt : low < 0x400)
    (parts : List Piece) :
    assemble? (.unit (0xd800 + high) :: .unit (0xdc00 + low) :: parts) =
      (assemble? parts).map (Char.ofNat (0x10000 + high * 0x400 + low) :: ·) := by
  have leads : isHighSurrogate (0xd800 + high) = true := by
    simp only [isHighSurrogate, Bool.and_eq_true, decide_eq_true_eq]; omega
  have trails : isLowSurrogate (0xdc00 + low) = true := by
    simp only [isLowSurrogate, Bool.and_eq_true, decide_eq_true_eq]; omega
  simp [assemble?, leads, trails]

theorem not_surrogate (c : Char) : isHighSurrogate c.toNat = false ∧ isLowSurrogate c.toNat = false := by
  -- A character is a scalar value.
  have scalar : c.toNat < 0xd800 ∨ 0xdfff < c.toNat ∧ c.toNat < 0x110000 := c.valid
  simp only [isHighSurrogate, isLowSurrogate, Bool.and_eq_false_iff, decide_eq_false_iff_not]
  omega

theorem SpellsChar.pieces {c : Char} {cs : List Char} (spelled : SpellsChar c cs)
    {later rest text : List Char} {parts : List Piece} (read : pieces later = some (parts, rest))
    (assembled : assemble? parts = some text) :
    ∃ parts', Json.pieces (cs ++ later) = some (parts', rest) ∧ assemble? parts' = some (c :: text) := by
  cases spelled with
  | plain visible noQuote noBackslash =>
    exact ⟨_, pieces_plain visible noQuote noBackslash read, by simp [assemble?, assembled]⟩
  | short listed => exact ⟨_, pieces_short listed read, by simp [assemble?, assembled]⟩
  | unit digits =>
    refine ⟨_, pieces_unit digits read, ?_⟩
    obtain ⟨alone, alone'⟩ := not_surrogate c
    rw [assemble?_unit alone alone', assembled, Char.ofNat_toNat]
    rfl
  | pair high_lt low_lt joined leads trails =>
    have paired := pieces_unit leads (pieces_unit trails read)
    refine ⟨_, by rwa [List.append_assoc], ?_⟩
    rw [assemble?_pair high_lt low_lt, assembled, ← joined, Char.ofNat_toNat]
    rfl

theorem SpellsText.pieces {text cs : List Char} (spelled : SpellsText text cs) (rest : List Char) :
    ∃ parts, Json.pieces (cs ++ '"' :: rest) = some (parts, rest) ∧ assemble? parts = some text := by
  induction spelled with
  | nil => exact ⟨[], by simp [Json.pieces], rfl⟩
  | cons first _ ih =>
    obtain ⟨parts, read, assembled⟩ := ih
    rw [List.append_assoc]
    exact first.pieces read assembled

theorem SpellsText.stringBody {content : String} {cs : List Char}
    (spelled : SpellsText content.toList cs) (rest : List Char) :
    Json.stringBody (cs ++ '"' :: rest) = some (some content, rest) := by
  obtain ⟨parts, read, assembled⟩ := spelled.pieces rest
  simp [Json.stringBody, read, assembled]

def EndsNumber (rest : List Char) : Prop :=
  ∀ c ∈ rest.head?, c.isDigit = false ∧ c ≠ '.' ∧ c ≠ 'e' ∧ c ≠ 'E'

theorem digits_append {run rest : List Char} (nonempty : run ≠ [])
    (all_digits : ∀ c ∈ run, c.isDigit = true) (ends : EndsNumber rest) :
    digits (run ++ rest) = some (run, rest) := by
  have stops : rest.takeWhile Char.isDigit = [] ∧ rest.dropWhile Char.isDigit = rest := by
    cases rest with
    | nil => simp
    | cons c later => simp [(ends c rfl).1]
  rw [digits, List.takeWhile_append_of_pos all_digits, List.dropWhile_append_of_pos all_digits, stops.1,
    stops.2, List.append_nil]
  cases run with
  | nil => contradiction
  | cons c later => rfl

theorem digitsValue_toDigits (n : Nat) : digitsValue (Nat.toDigits 10 n) = n := by
  conv => rhs; rw [← Nat.ofDigitChars_ten_toDigits (n := n), Nat.ofDigitChars_eq_foldl]
  simp only [digitsValue, Nat.mul_comm]

theorem toDigits_head_zero (n : Nat) (leading : (Nat.toDigits 10 n).head? = some '0') : n = 0 := by
  induction n using Nat.strongRecOn with
  | ind n ih =>
    rw [Nat.toDigits_eq_if (by decide)] at leading
    split at leading
    next small => interval_cases n <;> revert leading <;> decide
    next large =>
      -- The digits of the tenth part come first, and with `large` it is not zero.
      rw [List.head?_append_of_ne_nil _ Nat.toDigits_ne_nil] at leading
      have := ih (n / 10) (by omega) leading
      omega

theorem integerPart_toDigits (n : Nat) {rest : List Char} (ends : EndsNumber rest) :
    integerPart (Nat.toDigits 10 n ++ rest) = some (Nat.toDigits 10 n, rest) := by
  have run := digits_append (Nat.toDigits_ne_nil (n := n) (b := 10))
    (fun c mem => Nat.isDigit_of_mem_toDigits (by decide) (by decide) mem) ends
  simp only [integerPart, run, Option.bind_eq_bind, Option.bind_some]
  split
  next c later padded =>
    -- A zero in front of other digits: only zero starts so, and it has one digit.
    have zero := toDigits_head_zero n (by rw [padded]; rfl)
    simp [zero] at padded
  next => rfl

theorem fractionPart_ends {rest : List Char} (ends : EndsNumber rest) :
    fractionPart rest = some ([], rest) := by
  cases rest with
  | nil => rfl
  | cons c later => simp [fractionPart, (ends c rfl).2.1]

theorem exponentPart_ends {rest : List Char} (ends : EndsNumber rest) :
    exponentPart rest = some ([], rest) := by
  cases rest with
  | nil => rfl
  | cons c later => simp [exponentPart, (ends c rfl).2.2.1, (ends c rfl).2.2.2]

theorem toDigits_cons (n : Nat) : ∃ d < 10, ∃ later, Nat.toDigits 10 n = d.digitChar :: later := by
  obtain ⟨c, later, shape⟩ := List.exists_cons_of_ne_nil (Nat.toDigits_ne_nil (n := n) (b := 10))
  have digit : c.isDigit = true :=
    Nat.isDigit_of_mem_toDigits (b := 10) (n := n) (by decide) (by decide) (by simp [shape])
  obtain ⟨d, small, rfl⟩ := exists_digitChar digit
  exact ⟨d, small, later, shape⟩

theorem number_toDigits (n : Nat) {rest : List Char} (ends : EndsNumber rest) :
    number (Nat.toDigits 10 n ++ rest) = some (.natural n, rest) := by
  have whole := integerPart_toDigits n ends
  obtain ⟨d, small, later, shape⟩ := toDigits_cons n
  have unsigned : d.digitChar ≠ '-' := by interval_cases d <;> decide
  have value := digitsValue_toDigits n
  rw [shape, List.cons_append] at whole ⊢
  rw [shape] at value
  simp [number, unsigned, whole, fractionPart_ends ends, exponentPart_ends ends, value]

theorem endsNumber_append {gap rest : List Char} (blank : Blank gap) (ends : EndsNumber rest) :
    EndsNumber (gap ++ rest) := by
  cases gap with
  | nil => exact ends
  | cons c later =>
    have space := blank c List.mem_cons_self
    intro first leads
    obtain rfl : c = first := by simpa using leads
    simp only [isBlank, Bool.or_eq_true, beq_iff_eq] at space
    rcases space with ((rfl | rfl) | rfl) | rfl <;> decide

theorem endsNumber_cons {c : Char} (closes : c ∈ [']', '}', ',']) (rest : List Char) :
    EndsNumber (c :: rest) := by
  intro first leads
  obtain rfl : c = first := by simpa using leads
  revert closes
  simp only [List.mem_cons, List.not_mem_nil, or_false]
  rintro (rfl | rfl | rfl) <;> decide

theorem Spells.cons {json : Json} {cs : List Char} (spelled : Spells json cs) :
    ∃ c later, cs = c :: later ∧ isBlank c = false ∧ c ≠ ']' := by
  cases spelled with
  | natural n =>
    obtain ⟨d, small, later, shape⟩ := toDigits_cons n
    refine ⟨_, later, shape, ?_⟩
    interval_cases d <;> decide
  | null => exact ⟨'n', _, rfl, by decide⟩
  | affirmative => exact ⟨'t', _, rfl, by decide⟩
  | negative => exact ⟨'f', _, rfl, by decide⟩
  | text => exact ⟨'"', _, rfl, by decide⟩
  | emptyArray => exact ⟨'[', _, rfl, by decide⟩
  | array => exact ⟨'[', _, rfl, by decide⟩
  | emptyObject => exact ⟨'{', _, rfl, by decide⟩
  | object => exact ⟨'{', _, rfl, by decide⟩

theorem skipBlanks_skipBlanks (cs : List Char) : skipBlanks (skipBlanks cs) = skipBlanks cs :=
  List.dropWhile_idempotent _ cs

theorem value_skipBlanks (fuel : Nat) (cs : List Char) : value fuel (skipBlanks cs) = value fuel cs := by
  cases fuel with
  | zero => rfl
  | succ fuel => rw [value, value, skipBlanks_skipBlanks]

theorem value_append {gap : List Char} (blank : Blank gap) (fuel : Nat) (cs : List Char) :
    value fuel (gap ++ cs) = value fuel cs := by
  rw [← value_skipBlanks, skipBlanks_append blank, value_skipBlanks]

theorem elements_skipBlanks (fuel : Nat) (cs : List Char) :
    elements fuel (skipBlanks cs) = elements fuel cs := by
  cases fuel with
  | zero => rfl
  | succ fuel => rw [elements, elements, value_skipBlanks]

theorem members_skipBlanks (fuel : Nat) (cs : List Char) :
    members fuel (skipBlanks cs) = members fuel cs := by
  cases fuel with
  | zero => rfl
  | succ fuel => rw [members, members, skipBlanks_skipBlanks]

theorem SpellsElements.opens {values : List Json} {body : List Char}
    (spelled : SpellsElements values body) (rest : List Char) :
    ∃ c later, skipBlanks (body ++ rest) = c :: later ∧ c ≠ ']' := by
  cases spelled with
  | last before spelled | more before spelled =>
    obtain ⟨c, later, rfl, token, unclosed⟩ := spelled.cons
    simp only [List.append_assoc, List.cons_append, skipBlanks_append before]
    exact ⟨c, _, skipBlanks_cons token _, unclosed⟩

theorem SpellsMembers.opens {fields : List (Option String × Json)} {body : List Char}
    (spelled : SpellsMembers fields body) (rest : List Char) :
    ∃ later, skipBlanks (body ++ rest) = '"' :: later := by
  cases spelled with
  | last before | more before =>
    simp only [List.append_assoc, List.cons_append, skipBlanks_append before]
    exact ⟨_, skipBlanks_cons rfl _⟩

structure ReadsSpelled (fuel : Nat) : Prop where
  value {json : Json} {cs rest : List Char} (spelled : Spells json cs) (enough : 2 * cs.length ≤ fuel)
    (ends : EndsNumber rest) : value fuel (cs ++ rest) = some (json, rest)
  elements {values : List Json} {body : List Char} (spelled : SpellsElements values body)
    (enough : 2 * body.length ≤ fuel) (rest : List Char) :
    elements fuel (body ++ rest) = some (values, rest)
  members {fields : List (Option String × Json)} {body : List Char}
    (spelled : SpellsMembers fields body) (enough : 2 * body.length ≤ fuel) (rest : List Char) :
    members fuel (body ++ rest) = some (fields, rest)

theorem ReadsSpelled.value_succ {fuel : Nat} (reads : ReadsSpelled fuel) {json : Json}
    {cs rest : List Char} (spelled : Spells json cs) (enough : 2 * cs.length ≤ fuel + 1)
    (ends : EndsNumber rest) : Json.value (fuel + 1) (cs ++ rest) = some (json, rest) := by
  cases spelled with
  | null => rfl
  | affirmative => rfl
  | negative => rfl
  | natural n =>
    have read := number_toDigits n ends
    obtain ⟨d, small, later, shape⟩ := toDigits_cons n
    rw [shape, List.cons_append] at read ⊢
    rw [← read]
    -- The reader chooses its branch by the first character, which has to be a concrete one.
    interval_cases d <;> rfl
  | text spelled =>
    have read := spelled.stringBody rest
    simp [Json.value, skipBlanks_cons, isBlank, read, Json.text]
  | emptyArray blank =>
    simp [Json.value, skipBlanks_cons, isBlank, skipBlanks_append blank]
  | array spelled =>
    -- The blanks after the bracket are skipped once more by the call for the first element.
    obtain ⟨c, later, shape, opens⟩ := spelled.opens rest
    have read := reads.elements spelled (by simp at enough; omega) rest
    rw [← elements_skipBlanks, shape] at read
    simp [Json.value, skipBlanks_cons, isBlank, shape, opens, read]
  | emptyObject blank =>
    simp [Json.value, skipBlanks_cons, isBlank, skipBlanks_append blank]
  | object spelled =>
    obtain ⟨later, shape⟩ := spelled.opens rest
    have read := reads.members spelled (by simp at enough; omega) rest
    rw [← members_skipBlanks, shape] at read
    simp [Json.value, skipBlanks_cons, isBlank, shape, read]

theorem ReadsSpelled.between {fuel : Nat} (reads : ReadsSpelled fuel) {json : Json}
    {front cs back : List Char} {c : Char} (before : Blank front) (spelled : Spells json cs)
    (after : Blank back) (closes : c ∈ [']', '}', ',']) (enough : 2 * cs.length ≤ fuel)
    (rest : List Char) :
    Json.value fuel (front ++ (cs ++ (back ++ c :: rest))) = some (json, back ++ c :: rest) := by
  rw [value_append before]
  -- Neither a blank nor a closing token continues a number.
  exact reads.value spelled enough (endsNumber_append after (endsNumber_cons closes rest))

theorem ReadsSpelled.elements_succ {fuel : Nat} (reads : ReadsSpelled fuel) {values : List Json}
    {body : List Char} (spelled : SpellsElements values body)
    (enough : 2 * body.length ≤ fuel + 1) (rest : List Char) :
    Json.elements (fuel + 1) (body ++ rest) = some (values, rest) := by
  cases spelled with
  | last before spelled after =>
    simp only [List.length_append, List.length_cons] at enough
    have first := reads.between before spelled after (c := ']') (by decide) (by omega) rest
    simp [Json.elements, first, skipBlanks_append after, skipBlanks_cons, isBlank]
  | @more _ _ _ _ body _ before spelled after later =>
    simp only [List.length_append, List.length_cons] at enough
    have first :=
      reads.between before spelled after (c := ',') (by decide) (by omega) (body ++ rest)
    have others := reads.elements later (by omega) rest
    simp [Json.elements, first, skipBlanks_append after, skipBlanks_cons, isBlank, others]

theorem ReadsSpelled.members_succ {fuel : Nat} (reads : ReadsSpelled fuel)
    {fields : List (Option String × Json)} {body : List Char} (spelled : SpellsMembers fields body)
    (enough : 2 * body.length ≤ fuel + 1) (rest : List Char) :
    Json.members (fuel + 1) (body ++ rest) = some (fields, rest) := by
  cases spelled with
  | last before named blank blank' spelled after =>
    simp only [List.length_append, List.length_cons] at enough
    have first := reads.between blank' spelled after (c := '}') (by decide) (by omega) rest
    simp [Json.members, skipBlanks_append before, skipBlanks_append blank, skipBlanks_append after,
      skipBlanks_cons, isBlank, named.stringBody, first]
  | @more _ _ _ _ _ _ _ _ body _ before named blank blank' spelled after later =>
    simp only [List.length_append, List.length_cons] at enough
    have first :=
      reads.between blank' spelled after (c := ',') (by decide) (by omega) (body ++ rest)
    have others := reads.members later (by omega) rest
    simp [Json.members, skipBlanks_append before, skipBlanks_append blank, skipBlanks_append after,
      skipBlanks_cons, isBlank, named.stringBody, first, others]

theorem readsSpelled (fuel : Nat) : ReadsSpelled fuel := by
  -- Each call passes on one less than it has, so the induction is on the fuel and not on the derivation.
  induction fuel with
  | zero =>
    -- Without fuel nothing is read, but no value is spelled by no characters either.
    constructor
    case value =>
      intro json cs rest spelled enough
      obtain ⟨c, later, rfl, -⟩ := spelled.cons
      simp at enough
    case elements =>
      intro values body spelled enough
      cases spelled <;> simp at enough
    case members =>
      intro fields body spelled enough
      cases spelled <;> simp at enough
  | succ fuel ih => exact ⟨ih.value_succ, ih.elements_succ, ih.members_succ⟩

theorem SpelledBy.parse? {json : Json} {source : String} (spelled : json.SpelledBy source) :
    Json.parse? source = some json := by
  obtain ⟨front, cs, back, before, spelled, after, shape⟩ := spelled
  have ends : EndsNumber (back ++ []) := endsNumber_append after (by simp [EndsNumber])
  have read : value (2 * source.toList.length + 2) source.toList = some (json, back) := by
    rw [shape, List.append_assoc, value_append before]
    exact (readsSpelled _).value spelled (by simp; omega) (by simpa using ends)
  have blank : skipBlanks back = [] := by
    simpa [skipBlanks] using skipBlanks_append after []
  simp [Json.parse?, read, blank]

-- All that is asked of a reader of JSON: whatever spells a value is read as that value.
def Reads (read? : String → Option Json) : Prop := ∀ json source, json.SpelledBy source → read? source = some json

theorem reads_parse? : Reads parse? := fun _ _ spelled => spelled.parse?

end Dataflow.Json
