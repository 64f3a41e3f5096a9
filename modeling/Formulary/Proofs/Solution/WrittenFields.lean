import Formulary.Json.Decoding
import Mathlib.Data.List.Basic

/-!
# Fields of written records

A record is written as the table of the fields that have a value and read field by field. Reading a
field of a written record gives what was written for it, `get?_written`: its value, or nothing where
the field was left out. A decoder that does not take null for an item reads back what may be
missing where it reads back the item itself, `readMissing_map_iff`, and a list where it reads back
every item that stands in it, `list_map_iff` and `table_map_iff`.
-/

set_option autoImplicit false
set_option relaxedAutoImplicit false

namespace Formulary.Json

variable {Target : Type} {fields : List (String × Option Value)} {name : String}
variable {position count : Nat}

/-! ### Written fields -/

/-- The fields of a written record. -/
def Fields.written (fields : List (String × Option Value)) : Fields :=
  .named (Table.ofEntries (fields.filterMap fun field ↦ field.2.map (field.1, ·)))

/-- What is written for a field: of several fields with the name the last one counts that has a
value. -/
@[simp]
def given (name : String) : List (String × Option Value) → Option Value
  | [] => none
  | (other, value?) :: later => (given name later).or (if name = other then value? else none)

theorem of_ofFields : Fields.of count (.ofFields fields) = some (.written fields) :=
  rfl

theorem find?_ofEntries (fields : List (String × Option Value)) (name : String) :
    Table.find? name (Table.ofEntries (fields.filterMap fun field ↦ field.2.map (field.1, ·))) =
      given name fields := by
  have hfold (table : Table Value) :
      Table.find? name ((fields.filterMap fun field ↦ field.2.map (field.1, ·)).foldl
        (fun table entry ↦ Table.insert entry.1 entry.2 table) table) =
      (given name fields).or (Table.find? name table) := by
    induction fields generalizing table with
    | nil => rfl
    | cons field later ih =>
      obtain ⟨other, value?⟩ := field
      cases value? with
      | none => simp [given, ih]
      | some value =>
        simp only [List.filterMap_cons, Option.map_some, List.foldl_cons, ih, Table.find?_insert,
          given, Option.or_assoc]
        split <;> simp
  exact (hfold []).trans Option.or_none

theorem get?_written : (Fields.written fields).get? position name = given name fields :=
  find?_ofEntries fields name

@[simp] theorem required_written (decode : Decoder Target) :
    (Fields.written fields).required position name decode = (given name fields).bind decode := by
  rw [Fields.required, get?_written]

@[simp] theorem withDefault_written (standard : Target) (decode : Decoder Target) :
    (Fields.written fields).withDefault position name standard decode =
      (given name fields).elim (some standard) decode := by
  rw [Fields.withDefault, get?_written]
  cases given name fields <;> rfl

/-- What is read for a field that may be missing or null. -/
def readMissing (decode : Decoder Target) (value? : Option Value) : Option (Option Target) :=
  value?.elim (some none) (Decoder.nullable decode)

@[simp] theorem optional_written (decode : Decoder Target) :
    (Fields.written fields).optional position name decode =
      readMissing decode (given name fields) := by
  rw [Fields.optional, withDefault_written, readMissing]

/-! ### What may be missing -/

variable {decode : Decoder Target} {encode : Target → Value}

/-- An item is read back if it is not written as null. -/
theorem nullable_encode_iff (hnull : decode .null = none) (item : Target) :
    Decoder.nullable decode (encode item) = some (some item) ↔
      decode (encode item) = some item := by
  rw [Decoder.nullable.eq_def]
  split
  · rename_i hencode
    simp [hencode, hnull]
  · simp

theorem readMissing_map_iff (hnull : decode .null = none) (item? : Option Target) :
    readMissing decode (item?.map encode) = some item? ↔
      ∀ item, item? = some item → decode (encode item) = some item := by
  cases item? with
  | none => simp [readMissing]
  | some item => simp [readMissing, nullable_encode_iff hnull]

/-! ### Lists -/

theorem list_map_iff (items : List Target) :
    Decoder.list decode (.list (items.map encode)) = some items ↔
      ∀ item ∈ items, decode (encode item) = some item := by
  rw [Decoder.list]
  induction items with
  | nil => simp
  | cons item items ih =>
    rw [List.map_cons, List.mapM_cons, List.forall_mem_cons, ← ih]
    simp [Option.bind_eq_some_iff]

theorem table_map_iff (entries : List (String × Target)) :
    Decoder.table decode (.object (entries.map fun entry ↦ (entry.1, encode entry.2))) =
        some entries ↔
      ∀ entry ∈ entries, decode (encode entry.2) = some entry.2 := by
  rw [Decoder.table]
  induction entries with
  | nil => simp
  | cons entry entries ih =>
    rw [List.map_cons, List.mapM_cons, List.forall_mem_cons, ← ih]
    simp [Option.bind_eq_some_iff, Prod.ext_iff]

end Formulary.Json
