import Dataflow.Json.Basic
import Dataflow.Proofs.Json.Writer
import Mathlib.Data.List.Forall2

set_option autoImplicit false

namespace Dataflow.Json

abbrev Writing (α : Type) := α → Json → Prop

structure Slot where
  name : String
  written : Json → Prop
  omissible : Prop

section
variable {α : Type}

def Slot.required (name : String) (writing : Writing α) (content : α) : Slot where
  name := name
  written := writing content
  omissible := False

def Slot.defaulted (name : String) (default : α) (writing : Writing α) (content : α) : Slot where
  name := name
  written := writing content
  omissible := content = default

inductive WritesFields : List Slot → List (String × Json) → Prop
  | nil : WritesFields [] []
  | keep {slot : Slot} {slots : List Slot} {json : Json} {fields : List (String × Json)}
      (written : slot.written json) (rest : WritesFields slots fields) :
      WritesFields (slot :: slots) ((slot.name, json) :: fields)
  | drop {slot : Slot} {slots : List Slot} {fields : List (String × Json)}
      (omissible : slot.omissible) (rest : WritesFields slots fields) :
      WritesFields (slot :: slots) fields

def WritesRecord (slots : List Slot) (fields : List (String × Json)) : Prop :=
  ∃ ordered, fields.Perm ordered ∧ WritesFields slots ordered

namespace Writing

def exact (encode : α → Json) : Writing α := fun value json => json = encode value

def list (each : Writing α) : Writing (List α) := fun values json =>
  ∃ jsons, json = .array jsons ∧ List.Forall₂ each values jsons

def option (present : Writing α) : Writing (Option α)
  | none, json => json = .null
  | some value, json => present value json

def record (slots : α → List Slot) : Writing α := fun value json =>
  ∃ fields, json = .record fields ∧ WritesRecord (slots value) fields

end Writing

structure Readable (writing : Writing α) (encode : α → Json) (decode : Json → Option α) : Prop where
  full (value : α) : writing value (encode value)
  plain {value : α} {json : Json} (written : writing value json) : Plain json
  decodes {value : α} {json : Json} (written : writing value json) : decode json = some value

variable {writing : Writing α} {encode : α → Json} {decode : Json → Option α}

theorem readable_exact (plain : ∀ value, Plain (encode value))
    (inverse : ∀ value, decode (encode value) = some value) :
    Readable (.exact encode) encode decode where
  full _ := rfl
  plain := by rintro value _ rfl; exact plain value
  decodes := by rintro value _ rfl; exact inverse value

theorem readable_text : Readable (.exact Json.text) Json.text string? :=
  readable_exact .text fun _ => rfl

theorem readable_bool : Readable (.exact Json.bool) Json.bool bool? :=
  readable_exact .bool fun _ => rfl

theorem readable_word64 :
    Readable (.exact fun n : UInt64 => .natural n.toNat) (fun n => .natural n.toNat) word64? :=
  readable_exact (fun _ => .natural _) fun n => by simp [word64?, UInt64.toNat_lt_size]

theorem readable_word32 :
    Readable (.exact fun n : UInt32 => .natural n.toNat) (fun n => .natural n.toNat) word32? :=
  readable_exact (fun _ => .natural _) fun n => by simp [word32?, UInt32.toNat_lt_size]

theorem readable_name {name : α → String} {ofName? : String → Option α}
    (inverse : ∀ value, ofName? (name value) = some value) :
    Readable (.exact fun value => .text (name value)) (fun value => .text (name value))
      (name? ofName?) :=
  readable_exact (fun _ => .text _) inverse

theorem Readable.list (readable : Readable writing encode decode) :
    Readable writing.list (ofList encode) (list? decode) where
  full values := by
    refine ⟨_, rfl, ?_⟩
    rw [List.forall₂_map_right_iff, List.forall₂_same]
    exact fun value _ => readable.full value
  plain := by
    rintro values _ ⟨jsons, rfl, written⟩
    refine .array ?_
    induction written with
    | nil => simp
    | cons first _ ih => exact List.forall_mem_cons.mpr ⟨readable.plain first, ih⟩
  decodes := by
    rintro values _ ⟨jsons, rfl, written⟩
    simp only [list?]
    induction written with
    | nil => rfl
    | cons first _ ih => simp [readable.decodes first, ih]

theorem Readable.option (readable : Readable writing encode decode) (refuses : decode .null = none) :
    Readable writing.option (ofOption encode) (option? decode) where
  full
    | none => rfl
    | some value => readable.full value
  plain := by
    rintro (_ | value) json written
    · obtain rfl : json = .null := written
      exact .null
    · exact readable.plain written
  decodes := by
    rintro (_ | value) json written
    · obtain rfl : json = .null := written
      rfl
    · have decoded := readable.decodes written
      -- A value that is written as null would be read as an absent one.
      have present : json ≠ .null := by
        rintro rfl
        simp [refuses] at decoded
      simp [option?, decoded]

end

theorem knownFields?_record {names : List String} {fields : List (String × Json)}
    (known : ∀ field ∈ fields, field.1 ∈ names) (distinct : (fields.map Prod.fst).Nodup) :
    knownFields? names (fields.map fun field => (some field.1, field.2)) = some fields := by
  induction fields with
  | nil => rfl
  | cons field fields ih =>
    obtain ⟨fresh, distinct⟩ := List.nodup_cons.mp distinct
    obtain ⟨listed, known⟩ := List.forall_mem_cons.mp known
    simpa [knownFields?, ih known distinct, listed] using fresh

theorem content?_of_mem {fields : List (String × Json)} (distinct : (fields.map Prod.fst).Nodup)
    {name : String} {json : Json} (mem : (name, json) ∈ fields) : content? fields name = some json := by
  induction fields with
  | nil => simp at mem
  | cons field fields ih =>
    obtain ⟨fresh, distinct⟩ := List.nodup_cons.mp distinct
    rcases List.mem_cons.mp mem with rfl | later
    · simp [content?]
    · have other : field.1 ≠ name := fun same =>
        fresh (List.mem_map.mpr ⟨(name, json), later, same.symm⟩)
      have found := ih distinct later
      simpa [content?, other] using found

theorem content?_of_not_mem {fields : List (String × Json)} {name : String}
    (absent : name ∉ fields.map Prod.fst) : content? fields name = none := by
  have other : ∀ field ∈ fields, field.1 ≠ name := fun field mem same =>
    absent (List.mem_map.mpr ⟨field, mem, same⟩)
  simpa [content?] using other

namespace WritesFields
variable {slots : List Slot} {fields : List (String × Json)} (written : WritesFields slots fields)
include written

theorem sublist : (fields.map Prod.fst).Sublist (slots.map Slot.name) := by
  induction written with
  | nil => exact .slnil
  | keep _ _ ih => exact ih.cons_cons _
  | drop _ _ ih => exact ih.cons _

theorem plain (plain : ∀ slot ∈ slots, ∀ json, slot.written json → Plain json) :
    ∀ field ∈ fields, Plain field.2 := by
  induction written with
  | nil => simp
  | keep written _ ih =>
    obtain ⟨first, plain⟩ := List.forall_mem_cons.mp plain
    exact List.forall_mem_cons.mpr ⟨first _ written, ih plain⟩
  | drop _ _ ih => exact ih (List.forall_mem_cons.mp plain).2

theorem missing_or_mem (distinct : (slots.map Slot.name).Nodup) {slot : Slot} (mem : slot ∈ slots) :
    slot.name ∉ fields.map Prod.fst ∧ slot.omissible ∨
      ∃ json, (slot.name, json) ∈ fields ∧ slot.written json := by
  induction written with
  | nil => simp at mem
  | @keep first _ _ _ written rest ih =>
    obtain ⟨fresh, distinct⟩ := List.nodup_cons.mp distinct
    rcases List.mem_cons.mp mem with rfl | later
    · exact .inr ⟨_, List.mem_cons_self, written⟩
    · rcases ih distinct later with ⟨missing, omissible⟩ | ⟨json, found, holds⟩
      · have other : slot.name ≠ first.name := fun same =>
          fresh (List.mem_map.mpr ⟨slot, later, same⟩)
        exact .inl ⟨List.not_mem_cons_of_ne_of_not_mem other missing, omissible⟩
      · exact .inr ⟨json, List.mem_cons_of_mem _ found, holds⟩
  | drop omissible rest ih =>
    obtain ⟨fresh, distinct⟩ := List.nodup_cons.mp distinct
    rcases List.mem_cons.mp mem with rfl | later
    -- The names of the fields that are there are among those of the later slots.
    · exact .inl ⟨fun named => fresh (rest.sublist.subset named), omissible⟩
    · exact ih distinct later

end WritesFields

namespace WritesRecord
variable {slots : List Slot} {fields : List (String × Json)} (written : WritesRecord slots fields)
include written

theorem plain (plain : ∀ slot ∈ slots, ∀ json, slot.written json → Plain json) :
    Plain (.record fields) := by
  obtain ⟨ordered, same, written⟩ := written
  exact .record fun field mem => written.plain plain field (same.mem_iff.mp mem)

variable (distinct : (slots.map Slot.name).Nodup)
include distinct

theorem keys_nodup : (fields.map Prod.fst).Nodup := by
  obtain ⟨ordered, same, written⟩ := written
  exact (same.map _).nodup_iff.mpr (distinct.sublist written.sublist)

theorem record? : (Json.record fields).record? (slots.map Slot.name) = some fields := by
  refine knownFields?_record ?_ (written.keys_nodup distinct)
  obtain ⟨ordered, same, written⟩ := written
  intro field mem
  exact written.sublist.subset (List.mem_map_of_mem (same.mem_iff.mp mem))

theorem content? {slot : Slot} (mem : slot ∈ slots) :
    Json.content? fields slot.name = none ∧ slot.omissible ∨
      ∃ json, Json.content? fields slot.name = some json ∧ slot.written json := by
  have keys := written.keys_nodup distinct
  obtain ⟨ordered, same, written⟩ := written
  rcases written.missing_or_mem distinct mem with ⟨missing, omissible⟩ | ⟨json, found, holds⟩
  · exact .inl ⟨content?_of_not_mem (mt (same.map _).mem_iff.mp missing), omissible⟩
  · exact .inr ⟨json, content?_of_mem keys (same.mem_iff.mpr found), holds⟩

variable {α : Type} {writing : Writing α} {encode : α → Json} {decode : Json → Option α}
  (readable : Readable writing encode decode) {name : String} {content default : α}
include readable

theorem required? (mem : Slot.required name writing content ∈ slots) :
    Json.required? fields name decode = some content := by
  rcases written.content? distinct mem with ⟨_, impossible⟩ | ⟨json, found, holds⟩
  · exact impossible.elim
  · have found : Json.content? fields name = some json := found
    rw [Json.required?, found]
    exact readable.decodes holds

theorem defaulted? (mem : Slot.defaulted name default writing content ∈ slots) :
    Json.defaulted? fields name default decode = some content := by
  rcases written.content? distinct mem with ⟨missing, same⟩ | ⟨json, found, holds⟩
  · have missing : Json.content? fields name = none := missing
    have same : content = default := same
    rw [Json.defaulted?, missing, same]
  · have found : Json.content? fields name = some json := found
    rw [Json.defaulted?, found]
    exact readable.decodes holds

end WritesRecord

theorem readable_record {α : Type} {slots : α → List Slot} {encode : α → Json}
    {decode : Json → Option α} (names : List String) (distinct : names.Nodup)
    (named : ∀ value, (slots value).map Slot.name = names)
    (full : ∀ value, Writing.record slots value (encode value))
    (plain : ∀ value, ∀ slot ∈ slots value, ∀ json, slot.written json → Plain json)
    (decodes : ∀ value fields, WritesRecord (slots value) fields →
      ((slots value).map Slot.name).Nodup → (Json.record fields).record? names = some fields →
      decode (.record fields) = some value) :
    Readable (.record slots) encode decode where
  full := full
  plain := by
    rintro value _ ⟨fields, rfl, written⟩
    exact written.plain (plain value)
  decodes := by
    rintro value _ ⟨fields, rfl, written⟩
    rw [← named value] at distinct
    have known := written.record? distinct
    rw [named value] at known
    exact decodes value fields written distinct known

end Dataflow.Json
