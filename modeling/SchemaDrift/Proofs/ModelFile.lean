/-
  SchemaDrift/Proofs/ModelFile.lean
  =================================
  **A saved model is read back.**

  Each kind of data in a model file has an encoding and a decoder, and the two belong
  together: what is encoded is plain, so that its text is read back, and it is decoded to
  the data that it came from (`Json.Encodes`).  Encodings are put together as the data are:
  from those of the fields of a record follows that of the record, by `Json.record_object`,
  since no two fields of a record share a name.

  Main statement: `Model.ofText_toText`.  A file holds tables and joins alone; what is
  derived from them comes back by compiling.
-/
import SchemaDrift.Json.Model
import SchemaDrift.Proofs.Derivation
import SchemaDrift.Proofs.JsonText

namespace SchemaDrift

namespace Json

/-- An encoding whose values are plain, together with a decoder that takes it back. -/
structure Encodes {α : Type} (encode : α → Json) (decode : Json → Option α) : Prop where
  plain : ∀ a, (encode a).IsPlain
  decode : ∀ a, decode (encode a) = some a

/-! ### Simple values -/

theorem encodes_string : Encodes string asString? := ⟨.string, fun _ => rfl⟩

theorem encodes_bool : Encodes bool asBool? := ⟨.bool, fun _ => rfl⟩

theorem encodes_optionalString : Encodes optionalString (nullable asString?) where
  plain
    | none => .null
    | some text => .string text
  decode
    | none => rfl
    | some _ => rfl

theorem asNat?_nat {bound n : Nat} (h : n < bound) : asNat? bound (nat n) = some n := by
  rw [nat, asNat?, decimal, String.toList_ofList, readDecimal_writeDecimal]
  simp [h]

section Lists

variable {α : Type} {encode : α → Json} {decode : Json → Option α}

theorem Encodes.list (h : Encodes encode decode) : Encodes (array encode) (asList? decode) where
  plain items := .list (List.forall_mem_map.2 fun a _ => h.plain a)
  decode items := by
    rw [array, asList?, List.mapM_map]
    induction items with
    | nil => rfl
    | cons a items ih =>
      rw [List.mapM_cons, Function.comp_apply, h.decode, ih]
      rfl

theorem encodes_strings : Encodes strings (asList? asString?) := encodes_string.list

theorem Encodes.sides (h : Encodes encode decode) :
    Encodes (Sides.toJson encode) (Sides.ofJson? decode) where
  plain p := .list (by simp [h.plain])
  decode p := by
    have hpair : asPair? decode decode (Sides.toJson encode p) = some (p.left, p.right) := by
      simp [Sides.toJson, asPair?, h.decode]
    rw [Sides.ofJson?, hpair]
    rfl

end Lists

/-! ### Records -/

theorem lookupOnce_of_mem {fields : List (String × Json)} (h : (fields.map Prod.fst).Nodup)
    {field : String × Json} (hfield : field ∈ fields) :
    lookupOnce fields field.1 = some (some field.2) := by
  have hfilter : (fields.filter fun other => other.1 == field.1) = [field] := by
    induction fields with
    | nil => cases hfield
    | cons other fields ih =>
      obtain ⟨hnot, hrest⟩ := List.nodup_cons.1 h
      rcases List.mem_cons.1 hfield with rfl | hlater
      · have hothers : (fields.filter fun other => other.1 == field.1) = [] := by
          refine List.filter_eq_nil_iff.2 fun other hother hsame => hnot ?_
          exact List.mem_map.2 ⟨other, hother, beq_iff_eq.1 hsame⟩
        rw [List.filter_cons_of_pos (by simp), hothers]
      · have hne : (other.1 == field.1) = false := by
          refine beq_eq_false_iff_ne.2 fun hsame => hnot ?_
          exact hsame ▸ List.mem_map_of_mem hlater
        rw [List.filter_cons_of_neg (by simp [hne]), ih hrest hlater]
  rw [lookupOnce, hfilter]

/-- A record that is written as an object of its fields, all under different names, has each
    field given. -/
theorem record_object {names : List String} {fields : List (String × Json)}
    (hnames : fields.map Prod.fst = names) (h : names.Nodup) :
    record names (.object fields) = some (fields.map fun field => some field.2) := by
  subst hnames
  have hlookups : ∀ part : List (String × Json), part ⊆ fields →
      (part.map Prod.fst).mapM (lookupOnce fields) = some (part.map fun field => some field.2) := by
    intro part hpart
    induction part with
    | nil => rfl
    | cons field part ih =>
      obtain ⟨hfield, hrest⟩ := List.cons_subset.1 hpart
      rw [List.map_cons, List.mapM_cons, lookupOnce_of_mem h hfield, ih hrest]
      rfl
  exact hlookups fields (List.Subset.refl fields)

end Json

open Json

/-! ### Types, columns and tables -/

namespace SqlType

theorem lengthOfJson?_nat (length : UInt64) : lengthOfJson? (.nat length.toNat) = some length := by
  rw [lengthOfJson?, asNat?_nat (show length.toNat < wordBound from length.toNat_lt),
    Option.map_some, UInt64.ofNat_toNat]

theorem byteOfJson?_nat (byte : UInt8) : byteOfJson? (.nat byte.toNat) = some byte := by
  rw [byteOfJson?, asNat?_nat (show byte.toNat < byteBound from byte.toNat_lt),
    Option.map_some, UInt8.ofNat_toNat]

end SqlType

theorem encodes_sqlType : Encodes SqlType.toJson SqlType.ofJson? where
  plain type := by
    cases type with
    | varchar length => exact .object (List.forall_mem_singleton.2 (.nat _))
    | char length => exact .object (List.forall_mem_singleton.2 (.nat _))
    | decimal precision scale =>
      refine .object (List.forall_mem_singleton.2 (.list ?_))
      exact List.forall_mem_cons.2 ⟨.nat _, List.forall_mem_singleton.2 (.nat _)⟩
    | other declared => exact .object (List.forall_mem_singleton.2 (.string _))
    | _ => exact .string _
  decode type := by
    cases type with
    | varchar length =>
      change (SqlType.lengthOfJson? (.nat length.toNat)).map SqlType.varchar = _
      rw [SqlType.lengthOfJson?_nat, Option.map_some]
    | char length =>
      change (SqlType.lengthOfJson? (.nat length.toNat)).map SqlType.char = _
      rw [SqlType.lengthOfJson?_nat, Option.map_some]
    | decimal precision scale =>
      change (asPair? SqlType.byteOfJson? SqlType.byteOfJson?
        (.list [.nat precision.toNat, .nat scale.toNat])).map _ = _
      simp [asPair?, SqlType.byteOfJson?_nat]
    | _ => rfl

theorem encodes_column : Encodes Column.toJson Column.ofJson? where
  plain c := .object (by simp [encodes_string.plain, encodes_sqlType.plain, encodes_bool.plain])
  decode c := by
    rw [Column.ofJson?, Column.toJson, record_object]
    · simp [required, encodes_string.decode, encodes_sqlType.decode, encodes_bool.decode]
    · rfl
    · decide

theorem encodes_table : Encodes Table.toJson Table.ofJson? where
  plain t := .object (by
    simp [encodes_optionalString.plain, encodes_string.plain, encodes_column.list.plain,
      encodes_strings.plain])
  decode t := by
    rw [Table.ofJson?, Table.toJson, record_object]
    · simp [required, withDefault, encodes_optionalString.decode, encodes_string.decode,
        encodes_column.list.decode, encodes_strings.decode]
    · rfl
    · decide

/-! ### Joins -/

theorem encodes_columnPair : Encodes Condition.pairToJson Condition.pairOfJson? where
  plain pair := .object (by simp [encodes_string.plain])
  decode pair := by
    rw [Condition.pairOfJson?, Condition.pairToJson, record_object]
    · rfl
    · rfl
    · decide

theorem encodes_condition : Encodes Condition.toJson Condition.ofJson? where
  plain
    | .single pair => .object (List.forall_mem_singleton.2 (encodes_columnPair.plain pair))
    | .composite pairs =>
      .object (List.forall_mem_singleton.2 (encodes_columnPair.list.plain pairs))
  decode
    | .single pair => congrArg (Option.map Condition.single) (encodes_columnPair.decode pair)
    | .composite pairs =>
      congrArg (Option.map Condition.composite) (encodes_columnPair.list.decode pairs)

theorem encodes_cardinality :
    Encodes (fun c : Cardinality => .string c.word) Cardinality.ofJson? where
  plain c := .string c.word
  decode c := by cases c <;> rfl

theorem encodes_dependentKey :
    Encodes (fun d : DependentKey => .string d.word) DependentKey.ofJson? where
  plain d := .string d.word
  decode d := by cases d <;> rfl

theorem encodes_join : Encodes Join.toJson Join.ofJson? where
  plain j := .object (by
    simp [encodes_string.plain, encodes_string.sides.plain, encodes_optionalString.sides.plain,
      encodes_bool.sides.plain, encodes_condition.plain])
  decode j := by
    rw [Join.ofJson?, Join.toJson, record_object]
    · simp [required, withDefault, encodes_string.sides.decode,
        encodes_optionalString.sides.decode, encodes_bool.sides.decode, encodes_cardinality.decode,
        encodes_dependentKey.decode, encodes_condition.decode]
    · rfl
    · decide

/-! ### Models -/

namespace Model

theorem isPlain_toJson (m : Model) : m.toJson.IsPlain :=
  .object (by simp [encodes_table.list.plain, encodes_join.list.plain])

theorem ofJson?_toJson (m : Model) : ofJson? m.toJson = some m.compile := by
  have hparts : ofParts m.tables m.joins = m.compile := rfl
  rw [ofJson?, toJson, record_object]
  · simp [required, withDefault, encodes_table.list.decode, encodes_join.list.decode, hparts]
  · rfl
  · decide

/-- Every model is saved as a text that loads, and loading gives the model as compiling leaves it:
    its tables, its joins with names for all of their endpoints, and what is derived from them.  A
    model that is compiled already comes back as it was. -/
theorem ofText_toText (m : Model) :
    ofText m.toText = .ok m.compile ∧ m.compile.tables = m.tables ∧
      ofText m.compile.toText = .ok m.compile := by
  have hload : ∀ saved : Model, ofText saved.toText = .ok saved.compile := by
    intro saved
    rw [ofText, toText, pretty, read_write Layout.isBlank_pretty (isPlain_toJson saved),
      Option.bind_some, ofJson?_toJson]
  refine ⟨hload m, rfl, ?_⟩
  rw [hload, compile_eq_self (upToDate_compile m)]

end Model

end SchemaDrift
