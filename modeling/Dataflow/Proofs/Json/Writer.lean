import Dataflow.Json.Writer
import Dataflow.Proofs.Json.Grammar

set_option autoImplicit false

namespace Dataflow.Json

inductive Plain : Json → Prop
  | null : Plain .null
  | bool (value : Bool) : Plain (.bool value)
  | natural (n : Nat) : Plain (.natural n)
  | text (content : String) : Plain (.text content)
  | array {values : List Json} (each : ∀ json ∈ values, Plain json) : Plain (.array values)
  | record {fields : List (String × Json)} (each : ∀ field ∈ fields, Plain field.2) :
      Plain (.record fields)

theorem spellsUnit_control {code : Nat} (small : code < 0x20) :
    SpellsUnit code ['0', '0', hexLetter (code / 16), hexLetter (code % 16)] := by
  have letter : ∀ n < 16, SpellsDigit n (hexLetter n) := by
    intro n bound
    refine ⟨bound, .inl ?_⟩
    interval_cases n <;> decide
  have spelled := SpellsUnit.digits (letter 0 (by decide)) (letter 0 (by decide))
    (letter (code / 16) (by omega)) (letter (code % 16) (by omega))
  have whole : ((0 * 16 + 0) * 16 + code / 16) * 16 + code % 16 = code := by omega
  rw [whole] at spelled
  exact spelled

theorem spellsChar_escape (c : Char) : SpellsChar c (escape c) := by
  unfold escape
  -- One split per character that has a letter of its own, then the other control characters.
  split
  next quote => exact .short (by rw [quote]; decide)
  split
  next backslash => exact .short (by rw [backslash]; decide)
  split
  next backspace => exact .short (by rw [backspace]; decide)
  split
  next tab => exact .short (by rw [tab]; decide)
  split
  next line => exact .short (by rw [line]; decide)
  split
  next page => exact .short (by rw [page]; decide)
  split
  next carriage => exact .short (by rw [carriage]; decide)
  split
  next control => exact .unit (spellsUnit_control control)
  next noQuote noBackslash _ _ _ _ _ visible => exact .plain (by omega) noQuote noBackslash

theorem spellsText_escape (text : List Char) : SpellsText text (text.flatMap escape) := by
  induction text with
  | nil => exact .nil
  | cons c text ih => exact .cons (spellsChar_escape c) ih

theorem quoted_some (content : String) :
    quoted (some content) = '"' :: content.toList.flatMap escape ++ ['"'] := rfl

theorem blank_nil : Blank [] := by simp [Blank]

theorem blank_space : Blank [' '] := by simp [Blank, isBlank]

theorem blank_newline (level : Nat) : Blank (newline level) := by
  intro c mem
  rcases List.mem_cons.mp mem with rfl | indent
  · rfl
  · rw [List.eq_of_mem_replicate indent]; rfl

-- The two layouts differ in their blanks only: `front` stands before each element or field, `back` before
-- the closing token, and `gap` after each colon.
section
variable {write : Json → List Char} {front back : List Char} (before : Blank front)
  (after : Blank back)
include before after

theorem spellsElements_of_written (writeRest : List Json → List Char)
    (closes : writeRest [] = back ++ [']'])
    (continues : ∀ json rest, writeRest (json :: rest) = ',' :: front ++ write json ++ writeRest rest)
    (first : Json) (rest : List Json) (each : ∀ json ∈ first :: rest, Spells json (write json)) :
    SpellsElements (first :: rest) (front ++ write first ++ writeRest rest) := by
  induction rest generalizing first with
  | nil =>
    have last := SpellsElements.last before (each first (by simp)) after
    rwa [List.append_assoc, ← closes] at last
  | cons next rest ih =>
    have others := ih next fun json mem => each json (List.mem_cons_of_mem _ mem)
    have more := SpellsElements.more before (each first (by simp)) blank_nil others
    simpa [continues] using more

theorem spellsMembers_of_written {gap : List Char} (blank : Blank gap)
    (writeRest : List (Option String × Json) → List Char) (closes : writeRest [] = back ++ ['}'])
    (continues : ∀ key json rest, writeRest ((key, json) :: rest) =
      ',' :: front ++ quoted key ++ ':' :: (gap ++ write json) ++ writeRest rest)
    (first : String × Json) (rest : List (String × Json))
    (each : ∀ field ∈ first :: rest, Spells field.2 (write field.2)) :
    SpellsMembers ((first :: rest).map fun field => (some field.1, field.2))
      (front ++ quoted (some first.1) ++ ':' :: (gap ++ write first.2) ++
        writeRest (rest.map fun field => (some field.1, field.2))) := by
  induction rest generalizing first with
  | nil =>
    have last := SpellsMembers.last before (spellsText_escape first.1.toList) blank_nil blank
      (each first (by simp)) after
    simpa [closes, quoted_some] using last
  | cons next rest ih =>
    have others := ih next fun field mem => each field (List.mem_cons_of_mem _ mem)
    have more := SpellsMembers.more before (spellsText_escape first.1.toList) blank_nil blank
      (each first (by simp)) blank_nil others
    simpa [continues, quoted_some] using more

end

theorem Plain.spells_compact {json : Json} (plain : Plain json) : Spells json (compact json) := by
  induction plain with
  | null => exact .null
  | bool value => cases value; exacts [.negative, .affirmative]
  | natural n => exact .natural n
  | text content => exact .text (spellsText_escape content.toList)
  | @array values _ each =>
    cases values with
    | nil => exact .emptyArray blank_nil
    | cons first rest =>
      have spelled := spellsElements_of_written blank_nil blank_nil compactElements rfl
        (fun _ _ => rfl) first rest each
      exact .array spelled
  | @record fields _ each =>
    cases fields with
    | nil => exact .emptyObject blank_nil
    | cons first rest =>
      have spelled := spellsMembers_of_written blank_nil blank_nil blank_nil compactFields rfl
        (fun _ _ _ => rfl) first rest each
      exact .object spelled

theorem Plain.spells_indentedAt {json : Json} (plain : Plain json) (level : Nat) :
    Spells json (indentedAt level json) := by
  induction plain generalizing level with
  | null => exact .null
  | bool value => cases value; exacts [.negative, .affirmative]
  | natural n => exact .natural n
  | text content => exact .text (spellsText_escape content.toList)
  | @array values _ each =>
    cases values with
    | nil => exact .emptyArray blank_nil
    | cons first rest =>
      have spelled := spellsElements_of_written (blank_newline (level + 1)) (blank_newline level)
        (indentedElements level) rfl (fun _ _ => rfl) first rest
        fun json mem => each json mem (level + 1)
      exact .array spelled
  | @record fields _ each =>
    cases fields with
    | nil => exact .emptyObject blank_nil
    | cons first rest =>
      have spelled := spellsMembers_of_written (blank_newline (level + 1)) (blank_newline level)
        blank_space (indentedFields level) rfl (fun _ _ _ => rfl) first rest
        fun field mem => each field mem (level + 1)
      exact .object spelled

theorem Plain.spelledBy_render {json : Json} (plain : Plain json) : json.SpelledBy json.render :=
  ⟨[], _, [], blank_nil, plain.spells_compact, blank_nil, by simp [render]⟩

theorem Plain.spelledBy_renderIndented {json : Json} (plain : Plain json) :
    json.SpelledBy json.renderIndented :=
  ⟨[], _, [], blank_nil, plain.spells_indentedAt 0, blank_nil, by simp [renderIndented]⟩

end Dataflow.Json
