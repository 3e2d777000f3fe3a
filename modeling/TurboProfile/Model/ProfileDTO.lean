import TurboProfile.Model.Payloads

/-! # `EntityProfileDTO` and its oneof

`EntityProfileDTO`, whose oneof `VMOrPMProfileData` holds a VM or a PM payload, the three
functions the generator wrote for that oneof (its marshaler, unmarshaler and sizer), and the
struct tags through which the library reaches its other fields and the oneof functions. -/

namespace TurboProfile

/-- `isEntityProfileDTO_VMOrPMProfileData`: the two wrappers a non-nil `VMOrPMProfileData`
can hold, each a pointer to its payload, which may itself be nil. -/
inductive EntityProfileDTO.VMOrPMProfileData where
  /-- `*EntityProfileDTO_VmProfileDTO` -/
  | vmProfileDTO (vmProfileDTO : Option VMProfileDTO)
  /-- `*EntityProfileDTO_PmProfileDTO` -/
  | pmProfileDTO (pmProfileDTO : Option PMProfileDTO)
  deriving DecidableEq, Repr

/-- `EntityProfileDTO`, a profile of a service entity. `entityType` is an enum of another file,
`EntityDTO_EntityType`, an `int32` on the wire, and the elements of `entityProperties`,
messages of another file, are known by their encodings. -/
structure EntityProfileDTO where
  id : Option (List UInt8) := none
  displayName : Option (List UInt8) := none
  entityType : Option Int32 := none
  commodityProfile : List CommodityProfileDTO := []
  model : Option (List UInt8) := none
  vendor : Option (List UInt8) := none
  description : Option (List UInt8) := none
  vmOrPmProfileData : Option EntityProfileDTO.VMOrPMProfileData := none
  enableProvisionMatch : Option Bool := none
  enableResizeMatch : Option Bool := none
  entityProperties : List (List UInt8) := []
  unrecognized : List UInt8 := []
  deriving DecidableEq, Repr, Inhabited

namespace EntityProfileDTO

/-! ## The oneof functions -/

/-- `_EntityProfileDTO_OneofMarshaler`: appends the variant `VMOrPMProfileData` holds to `b`,
its key and its length-delimited payload. -/
def oneofMarshaler (m : EntityProfileDTO) (b : List UInt8) : List UInt8 × Option ProtoError :=
  match m.vmOrPmProfileData with
  | some (.vmProfileDTO x) =>
    VMProfileDTO.properties.encodeMessage x (b ++ encodeVarint (8 <<< 3 ||| wireBytes))
  | some (.pmProfileDTO x) =>
    PMProfileDTO.properties.encodeMessage x (b ++ encodeVarint (9 <<< 3 ||| wireBytes))
  | none => (b, none)

/-- `_EntityProfileDTO_OneofUnmarshaler`: the field numbered `tag`, of wire type `wire`, whose
key has been read, is decoded into `VMOrPMProfileData` when it is one of its variants. -/
def oneofUnmarshaler (m : EntityProfileDTO) (tag wire : Nat) (b : List UInt8) :
    UnmarshalResult EntityProfileDTO :=
  match tag with
  | 8 =>
    if wire ≠ wireBytes then ⟨true, some .internalBadWireType, m, b⟩
    else
      let ((msg, err), b) := VMProfileDTO.properties.decodeMessage b
      ⟨true, err, { m with vmOrPmProfileData := some (.vmProfileDTO (some msg)) }, b⟩
  | 9 =>
    if wire ≠ wireBytes then ⟨true, some .internalBadWireType, m, b⟩
    else
      let ((msg, err), b) := PMProfileDTO.properties.decodeMessage b
      ⟨true, err, { m with vmOrPmProfileData := some (.pmProfileDTO (some msg)) }, b⟩
  | _ => ⟨false, none, m, b⟩

/-- `_EntityProfileDTO_OneofSizer`: the bytes the marshaler appends for the variant, counted
from `proto.Size` of its payload. -/
def oneofSizer (m : EntityProfileDTO) : Nat :=
  match m.vmOrPmProfileData with
  | some (.vmProfileDTO x) =>
    let s := VMProfileDTO.properties.protoSize x
    sizeVarint (8 <<< 3 ||| wireBytes) + sizeVarint s + s
  | some (.pmProfileDTO x) =>
    let s := PMProfileDTO.properties.protoSize x
    sizeVarint (9 <<< 3 ||| wireBytes) + sizeVarint s + s
  | none => 0

theorem oneofUnmarshaler_rest_length_le (m : EntityProfileDTO) (tag wire : Nat)
    (b : List UInt8) : (oneofUnmarshaler m tag wire b).rest.length ≤ b.length := by
  unfold oneofUnmarshaler
  split
  · split
    · exact Nat.le_refl _
    · exact VMProfileDTO.properties.decodeMessage_length_le b
  · split
    · exact Nat.le_refl _
    · exact PMProfileDTO.properties.decodeMessage_length_le b
  · exact Nat.le_refl _

theorem oneofUnmarshaler_of_not_mem (m : EntityProfileDTO) (tag wire : Nat) (b : List UInt8)
    (h : tag ∉ [8, 9]) : oneofUnmarshaler m tag wire b = ⟨false, none, m, b⟩ := by
  unfold oneofUnmarshaler
  split
  · simp at h
  · simp at h
  · rfl

/-- `XXX_OneofFuncs` of `EntityProfileDTO`; its wrappers are tagged `bytes,8,opt` and
`bytes,9,opt`. -/
def oneofFuncs : OneofFuncs EntityProfileDTO where
  tags := [8, 9]
  marshaler := oneofMarshaler
  unmarshaler := oneofUnmarshaler
  sizer := oneofSizer
  rest_length_le := oneofUnmarshaler_rest_length_le

/-! ## The struct tags -/

/-- The struct tags of `EntityProfileDTO`: `id`, `displayName` are `bytes,1,req` and
`bytes,2,req`, `entityType` is `varint,3,req`, `commodityProfile` is `bytes,4,rep`, `model`,
`vendor` and `description` are `bytes,5,opt` to `bytes,7,opt`, `enableProvisionMatch` and
`enableResizeMatch` are `varint,10,opt` and `varint,11,opt`, `entityProperties` is
`bytes,12,rep`, and the oneof takes 8 and 9. -/
def properties : StructProperties EntityProfileDTO where
  prop :=
    [⟨"id", 1, .bytes, .required, (·.id.toList), fun m v => { m with id := some v }⟩,
     ⟨"displayName", 2, .bytes, .required, (·.displayName.toList),
      fun m v => { m with displayName := some v }⟩,
     ⟨"entityType", 3, .int32, .required, (·.entityType.toList),
      fun m v => { m with entityType := some v }⟩,
     ⟨"commodityProfile", 4, .message CommodityProfileDTO.properties, .repeated,
      (·.commodityProfile),
      fun m (v : CommodityProfileDTO) => { m with commodityProfile := m.commodityProfile ++ [v] }⟩,
     ⟨"model", 5, .bytes, .optional, (·.model.toList), fun m v => { m with model := some v }⟩,
     ⟨"vendor", 6, .bytes, .optional, (·.vendor.toList), fun m v => { m with vendor := some v }⟩,
     ⟨"description", 7, .bytes, .optional, (·.description.toList),
      fun m v => { m with description := some v }⟩,
     ⟨"enableProvisionMatch", 10, .bool, .optional, (·.enableProvisionMatch.toList),
      fun m v => { m with enableProvisionMatch := some v }⟩,
     ⟨"enableResizeMatch", 11, .bool, .optional, (·.enableResizeMatch.toList),
      fun m v => { m with enableResizeMatch := some v }⟩,
     ⟨"entityProperties", 12, .bytes, .repeated, (·.entityProperties),
      fun m (v : List UInt8) => { m with entityProperties := m.entityProperties ++ [v] }⟩]
  oneof := oneofFuncs
  unrecognized := (·.unrecognized)
  setUnrecognized m u := { m with unrecognized := u }
  zero := {}
  tags_nodup := by decide
  tag_bounds := by decide
  get_store := by
    intro p hp; fin_cases hp <;> intros <;> rfl
  get_store_of_ne := by
    intro p hp q hq hne; simp only [List.mem_cons, List.not_mem_nil, or_false] at hp hq
    rcases hp with rfl | rfl | rfl | rfl | rfl | rfl | rfl | rfl | rfl | rfl <;>
      rcases hq with rfl | rfl | rfl | rfl | rfl | rfl | rfl | rfl | rfl | rfl <;>
      first | exact absurd rfl hne | intros; rfl
  length_get_le := by
    intro p hp hr; fin_cases hp <;>
      first | exact absurd rfl hr | exact fun _ => length_option_toList_le _
  unrecognized_store := by
    intro p hp; fin_cases hp <;> intros <;> rfl
  get_setUnrecognized := by
    intro p hp; fin_cases hp <;> intros <;> rfl
  unrecognized_setUnrecognized _ _ := rfl
  get_zero := by
    intro p hp; fin_cases hp <;> rfl
  unrecognized_zero := rfl
  unmarshaler_of_not_mem := oneofUnmarshaler_of_not_mem

end EntityProfileDTO

end TurboProfile
