import ComputeIntelligence.PyDict
import ComputeIntelligence.PyValue
import Mathlib.Data.List.Forall2

/-! # Strict record schemas

A schema is a list of typed fields, some with a default.  Validation is strict and
closed, as pydantic validates Python values with `strict=True, extra="forbid"`: a
value is accepted only if it has the declared type already (an integer that a float
can represent counts as a float), a field without a default must be there, and a
key that no field declares is an error.

`Accepts` is the reading without error lists; `validate_ok_iff` says that they agree.
-/

/-- The field types in use. -/
inductive FieldType where
  | str | int | float | bool | optDateTime | dictStrStr | listStr
deriving DecidableEq

/-- A declared field; without a default it is required. -/
structure FieldSpec where
  name : String
  type : FieldType
  default : Option PyVal := none

/-- What is wrong with one key of the input. -/
inductive FieldError where
  | missing (field : String) | wrongType (field : String) (expected : FieldType)
  | extraForbidden (field : String)
deriving DecidableEq

/-- Whether the value is a text. -/
def PyVal.isStr : PyVal → Bool
  | .str _ => true
  | _ => false

namespace FieldType

/-- The validated value, if the type is right. -/
def check : FieldType → PyVal → Option PyVal
  | .str, .str s => some (.str s)
  | .int, .int i => some (.int i)
  | .float, .float x => some (.float x)
  | .float, .int i => if PyVal.fitsFloat i then some (.float (PyFloat.ofRat i)) else none
  | .bool, .bool b => some (.bool b)
  | .optDateTime, .none => some .none
  | .optDateTime, .datetime t => some (.datetime t)
  | .dictStrStr, .dict kvs => if kvs.all (·.2.isStr) then some (.dict kvs) else none
  | .listStr, .list xs => if xs.all PyVal.isStr then some (.list xs) else none
  | _, _ => none

/-- A validated value passes the check that it came from. -/
theorem check_of_check {type : FieldType} {v w : PyVal} (h : type.check v = some w) :
    (type.check w).isSome := by
  unfold check at h
  split at h
  case h_4 i =>
    -- an integer that stands for a float is stored as that float
    split at h
    · obtain rfl := Option.some.inj h
      rfl
    · cases h
  case h_8 kvs =>
    split at h
    · rename_i hall
      obtain rfl := Option.some.inj h
      simp [check, hall]
    · cases h
  case h_9 xs =>
    split at h
    · rename_i hall
      obtain rfl := Option.some.inj h
      simp [check, hall]
    · cases h
  case h_10 => cases h
  all_goals
    obtain rfl := Option.some.inj h
    rfl

end FieldType

/-- The fields of a record. -/
abbrev StrictSchema := List FieldSpec

namespace StrictSchema

/-- The declared names. -/
def names (schema : StrictSchema) : List String := schema.map FieldSpec.name

/-- One field: the given value if it has the type, or the default. -/
def validateField (attrs : PyDict String PyVal) (f : FieldSpec) : Except FieldError PyVal :=
  match attrs.get? f.name with
  | some v => match f.type.check v with
      | some v' => .ok v'
      | none => .error (.wrongType f.name f.type)
  | none => match f.default with
      | some d => .ok d
      | none => .error (.missing f.name)

/-- The error of a field, if it has one. -/
def fieldError (attrs : PyDict String PyVal) (f : FieldSpec) : Option FieldError :=
  match validateField attrs f with
  | .ok _ => none
  | .error e => some e

/-- The errors, those of the fields first. -/
def errors (schema : StrictSchema) (attrs : PyDict String PyVal) : List FieldError :=
  schema.filterMap (fieldError attrs) ++
    (attrs.keys.filter (fun k => k ∉ schema.names)).map .extraForbidden

/-- `model_dump()` of the validated record. -/
def dump (schema : StrictSchema) (attrs : PyDict String PyVal) : List (String × PyVal) :=
  schema.filterMap fun f => (validateField attrs f).toOption.map (f.name, ·)

/-- `model_validate(attrs).model_dump()`, or the errors. -/
def validate (schema : StrictSchema) (attrs : PyDict String PyVal) :
    Except (List FieldError) (List (String × PyVal)) :=
  if schema.errors attrs = [] then .ok (schema.dump attrs) else .error (schema.errors attrs)

/-- A value may stand in a field: it has the type, or it is absent and not required. -/
def FieldFits (attrs : PyDict String PyVal) (f : FieldSpec) : Prop :=
  match attrs.get? f.name with
  | some v => (f.type.check v).isSome
  | none => f.default.isSome

/-- The record has every required field, every field has its type, and there is no
other key. -/
structure Accepts (schema : StrictSchema) (attrs : PyDict String PyVal) : Prop where
  fields : ∀ f ∈ schema, FieldFits attrs f
  closed : ∀ k ∈ attrs.keys, k ∈ schema.names

variable {schema : StrictSchema} {attrs : PyDict String PyVal}

theorem fieldError_eq_none_iff {f : FieldSpec} : fieldError attrs f = none ↔ FieldFits attrs f := by
  unfold fieldError FieldFits validateField
  cases attrs.get? f.name with
  | none => dsimp only; cases f.default <;> simp
  | some v => dsimp only; cases f.type.check v <;> simp

theorem errors_eq_nil_iff : schema.errors attrs = [] ↔ schema.Accepts attrs := by
  unfold errors
  rw [List.append_eq_nil_iff, List.filterMap_eq_nil_iff, List.map_eq_nil_iff,
    List.filter_eq_nil_iff]
  constructor
  · rintro ⟨hf, hk⟩
    exact ⟨fun f hm => fieldError_eq_none_iff.mp (hf f hm), fun k hm => by simpa using hk k hm⟩
  · intro h
    exact ⟨fun f hm => fieldError_eq_none_iff.mpr (h.fields f hm),
      fun k hm => by simpa using h.closed k hm⟩

/-- **Validation succeeds exactly on the accepted records.** -/
theorem validate_ok_iff : (∃ d, schema.validate attrs = .ok d) ↔ schema.Accepts attrs := by
  rw [← errors_eq_nil_iff]
  unfold validate
  constructor
  · rintro ⟨d, hd⟩
    by_contra h
    rw [if_neg h] at hd
    cases hd
  · intro h
    exact ⟨_, if_pos h⟩

instance : Decidable (schema.Accepts attrs) := decidable_of_iff _ errors_eq_nil_iff

/-- A key that is not declared is never accepted. -/
theorem not_accepts_of_extra {k : String} (hk : attrs.get? k ≠ none) (hn : k ∉ schema.names) :
    ¬ schema.Accepts attrs :=
  fun h => hk (PyDict.get?_eq_none_iff.mpr fun hm => hn (h.closed k hm))

theorem exists_of_forall₂ {α β : Type} {R : α → β → Prop} {l : List α} {m : List β}
    (h : List.Forall₂ R l m) : ∀ a ∈ l, ∃ b ∈ m, R a b := by
  induction h with
  | nil => exact fun a ha => absurd ha List.not_mem_nil
  | @cons a b l m hab _ ih =>
    refine List.forall_mem_cons.mpr ⟨⟨b, List.mem_cons_self, hab⟩, fun a' ha' => ?_⟩
    obtain ⟨b', hb', hr⟩ := ih a' ha'
    exact ⟨b', List.mem_cons_of_mem _ hb', hr⟩

/-- A record with the declared fields in the declared order, each of its type. -/
theorem accepts_of_forall₂
    (h : List.Forall₂ (fun (f : FieldSpec) (kv : String × PyVal) =>
      kv.1 = f.name ∧ (f.type.check kv.2).isSome) schema attrs.items) : schema.Accepts attrs := by
  refine ⟨fun f hf => ?_, fun k hk => ?_⟩
  · obtain ⟨kv, hkv, hname, hcheck⟩ := exists_of_forall₂ h f hf
    unfold FieldFits
    rw [PyDict.get?_of_mem (v := kv.2) (hname ▸ hkv)]
    exact hcheck
  · obtain ⟨kv, hkv, rfl⟩ := List.mem_map.mp hk
    obtain ⟨f, hf, hname, -⟩ := exists_of_forall₂ h.flip kv hkv
    exact List.mem_map.mpr ⟨f, hf, hname.symm⟩

/-- What an accepted record holds at a declared name has the declared type. -/
theorem Accepts.check (h : schema.Accepts attrs) {f : FieldSpec} (hf : f ∈ schema) {v : PyVal}
    (hv : attrs.get? f.name = some v) : (f.type.check v).isSome := by
  have := h.fields f hf
  unfold FieldFits at this
  rwa [hv] at this

/-! ### Validating a dump -/

/-- The value of a field that fits. -/
theorem validateField_of_fits {f : FieldSpec} (hfits : FieldFits attrs f)
    (hdefault : ∀ d ∈ f.default, (f.type.check d).isSome) :
    ∃ v, validateField attrs f = .ok v ∧ (f.type.check v).isSome := by
  unfold FieldFits at hfits
  unfold validateField
  cases hget : attrs.get? f.name with
  | none =>
    rw [hget] at hfits
    obtain ⟨d, hd⟩ := Option.isSome_iff_exists.mp hfits
    simp only [hd]
    exact ⟨d, rfl, hdefault d hd⟩
  | some given =>
    rw [hget] at hfits
    obtain ⟨v, hv⟩ := Option.isSome_iff_exists.mp hfits
    simp only [hv]
    exact ⟨v, rfl, FieldType.check_of_check hv⟩

/-- The dump of accepted attributes has the declared fields in the declared order, each with a
value of its type. -/
theorem dump_fields (hfits : ∀ f ∈ schema, FieldFits attrs f)
    (hdefaults : ∀ f ∈ schema, ∀ d ∈ f.default, (f.type.check d).isSome) :
    List.Forall₂ (fun (f : FieldSpec) (kv : String × PyVal) =>
      kv.1 = f.name ∧ validateField attrs f = .ok kv.2 ∧ (f.type.check kv.2).isSome)
      schema (schema.dump attrs) := by
  induction schema with
  | nil => exact List.Forall₂.nil
  | cons f fields ih =>
    obtain ⟨hf, hrest⟩ := List.forall_mem_cons.mp hfits
    obtain ⟨hd, hdrest⟩ := List.forall_mem_cons.mp hdefaults
    obtain ⟨v, hv, hcheck⟩ := validateField_of_fits hf hd
    have hdump : dump (f :: fields) attrs = (f.name, v) :: dump fields attrs := by
      unfold dump
      rw [List.filterMap_cons, hv]
      rfl
    rw [hdump]
    exact List.Forall₂.cons ⟨rfl, hv, hcheck⟩ (ih hrest hdrest)

theorem dump_keys (h : schema.Accepts attrs)
    (hdefaults : ∀ f ∈ schema, ∀ d ∈ f.default, (f.type.check d).isSome) :
    (schema.dump attrs).map Prod.fst = schema.names := by
  refine List.forall₂_eq_eq_eq ▸ ?_
  rw [names, List.forall₂_map_left_iff, List.forall₂_map_right_iff]
  exact (dump_fields h.fields hdefaults).flip.imp fun kv f hkv => hkv.1

/-- **What a schema has dumped it accepts again.** -/
theorem accepts_ofList_dump (h : schema.Accepts attrs) (hnames : schema.names.Nodup)
    (hdefaults : ∀ f ∈ schema, ∀ d ∈ f.default, (f.type.check d).isSome) :
    schema.Accepts (PyDict.ofList (schema.dump attrs)) := by
  apply accepts_of_forall₂
  rw [PyDict.items_ofList (by rw [dump_keys h hdefaults]; exact hnames)]
  exact (dump_fields h.fields hdefaults).imp fun f kv hkv => ⟨hkv.1, hkv.2.2⟩

/-- The dump holds the value of every field. -/
theorem get?_ofList_dump (h : schema.Accepts attrs) (hnames : schema.names.Nodup)
    (hdefaults : ∀ f ∈ schema, ∀ d ∈ f.default, (f.type.check d).isSome) {f : FieldSpec}
    (hf : f ∈ schema) {v : PyVal} (hv : validateField attrs f = .ok v) :
    (PyDict.ofList (schema.dump attrs)).get? f.name = some v := by
  obtain ⟨kv, hkv, hname, hvalue, -⟩ := exists_of_forall₂ (dump_fields h.fields hdefaults) f hf
  rw [hv] at hvalue
  apply PyDict.get?_of_mem
  rw [PyDict.items_ofList (by rw [dump_keys h hdefaults]; exact hnames)]
  rw [Except.ok.inj hvalue, ← hname]
  exact hkv

end StrictSchema
