import TurboProfile.Model.Message
import Mathlib.Tactic.FinCases

/-! # The messages of `ProfileDTO.pb.go` without oneofs

The VM and PM payloads of the oneof of `EntityProfileDTO`, `CommodityProfileDTO` and
`DeploymentProfileDTO`, each with the struct tags the library reads: the number, coder and
label of every field, in tag order. A singular field is a pointer, nil or set; a repeated one
is a slice. -/

namespace TurboProfile

/-- `EntityProfileDTO_VMProfileDTO`: the data specific to a VM profile. -/
structure EntityProfileDTO.VMProfileDTO where
  numVCPUs : Option Int32 := none
  vCPUSpeed : Option Float32 := none
  numStorageConsumed : Option Int32 := none
  unrecognized : List UInt8 := []
  deriving DecidableEq, Repr, Inhabited

/-- `EntityProfileDTO_PMProfileDTO`: the data specific to a PM profile. -/
structure EntityProfileDTO.PMProfileDTO where
  numCores : Option Int32 := none
  cpuCoreSpeed : Option Float32 := none
  unrecognized : List UInt8 := []
  deriving DecidableEq, Repr, Inhabited

/-- `CommodityProfileDTO`: a commodity of an entity profile. `commodityType` is an enum of
another file, `CommodityDTO_CommodityType`, an `int32` on the wire. -/
structure CommodityProfileDTO where
  commodityType : Option Int32 := none
  capacity : Option Float32 := none
  consumedFactor : Option Float32 := none
  consumed : Option Float32 := none
  reservation : Option Float32 := none
  overhead : Option Float32 := none
  unrecognized : List UInt8 := []
  deriving DecidableEq, Repr, Inhabited

/-- `DeploymentProfileDTO`: a deployment profile. The elements of `contextData`, messages of a
type of another file, are known by their encodings. -/
structure DeploymentProfileDTO where
  id : Option (List UInt8) := none
  profileName : Option (List UInt8) := none
  contextData : List (List UInt8) := []
  relatedEntityProfileId : List (List UInt8) := []
  relatedScopeId : List (List UInt8) := []
  unrecognized : List UInt8 := []
  deriving DecidableEq, Repr, Inhabited

namespace EntityProfileDTO.VMProfileDTO

/-- The struct tags of `EntityProfileDTO_VMProfileDTO`: `numVCPUs` is `varint,1,opt`,
`vCPUSpeed` is `fixed32,2,opt` and `numStorageConsumed` is `varint,3,opt`. -/
def properties : StructProperties VMProfileDTO where
  prop :=
    [⟨"numVCPUs", 1, .int32, .optional, (·.numVCPUs.toList),
      fun m v => { m with numVCPUs := some v }⟩,
     ⟨"vCPUSpeed", 2, .float32, .optional, (·.vCPUSpeed.toList),
      fun m v => { m with vCPUSpeed := some v }⟩,
     ⟨"numStorageConsumed", 3, .int32, .optional, (·.numStorageConsumed.toList),
      fun m v => { m with numStorageConsumed := some v }⟩]
  oneof := .empty
  unrecognized := (·.unrecognized)
  setUnrecognized m u := { m with unrecognized := u }
  zero := {}
  tags_nodup := by decide
  tag_bounds := by decide
  get_store := by
    intro p hp; fin_cases hp <;> intros <;> rfl
  get_store_of_ne := by
    intro p hp q hq hne; simp only [List.mem_cons, List.not_mem_nil, or_false] at hp hq
    rcases hp with rfl | rfl | rfl <;> rcases hq with rfl | rfl | rfl <;>
      first | exact absurd rfl hne | intros; rfl
  length_get_le := by
    intro p hp hr; fin_cases hp <;>
      first | exact absurd rfl hr | exact fun _ => length_option_toList_le _
  unrecognized_store := by
    intro p hp; fin_cases hp <;> intros <;> rfl
  get_setUnrecognized := by
    intro p hp; fin_cases hp <;> intros <;> rfl
  unrecognized_setUnrecognized _ _ := rfl
  get_zero := by
    intro p hp; fin_cases hp <;> rfl
  unrecognized_zero := rfl
  unmarshaler_of_not_mem _ _ _ _ _ := rfl

theorem properties_missingRequired (p : VMProfileDTO) : properties.missingRequired p = none :=
  rfl

end EntityProfileDTO.VMProfileDTO

namespace EntityProfileDTO.PMProfileDTO

/-- The struct tags of `EntityProfileDTO_PMProfileDTO`: `numCores` is `varint,1,opt` and
`cpuCoreSpeed` is `fixed32,2,opt`. -/
def properties : StructProperties PMProfileDTO where
  prop :=
    [⟨"numCores", 1, .int32, .optional, (·.numCores.toList),
      fun m v => { m with numCores := some v }⟩,
     ⟨"cpuCoreSpeed", 2, .float32, .optional, (·.cpuCoreSpeed.toList),
      fun m v => { m with cpuCoreSpeed := some v }⟩]
  oneof := .empty
  unrecognized := (·.unrecognized)
  setUnrecognized m u := { m with unrecognized := u }
  zero := {}
  tags_nodup := by decide
  tag_bounds := by decide
  get_store := by
    intro p hp; fin_cases hp <;> intros <;> rfl
  get_store_of_ne := by
    intro p hp q hq hne; simp only [List.mem_cons, List.not_mem_nil, or_false] at hp hq
    rcases hp with rfl | rfl <;> rcases hq with rfl | rfl <;>
      first | exact absurd rfl hne | intros; rfl
  length_get_le := by
    intro p hp hr; fin_cases hp <;>
      first | exact absurd rfl hr | exact fun _ => length_option_toList_le _
  unrecognized_store := by
    intro p hp; fin_cases hp <;> intros <;> rfl
  get_setUnrecognized := by
    intro p hp; fin_cases hp <;> intros <;> rfl
  unrecognized_setUnrecognized _ _ := rfl
  get_zero := by
    intro p hp; fin_cases hp <;> rfl
  unrecognized_zero := rfl
  unmarshaler_of_not_mem _ _ _ _ _ := rfl

theorem properties_missingRequired (q : PMProfileDTO) : properties.missingRequired q = none :=
  rfl

end EntityProfileDTO.PMProfileDTO

namespace CommodityProfileDTO

/-- The struct tags of `CommodityProfileDTO`: `commodityType` is `varint,1,req` and the five
others are `fixed32,2,opt` to `fixed32,6,opt`. -/
def properties : StructProperties CommodityProfileDTO where
  prop :=
    [⟨"commodityType", 1, .int32, .required, (·.commodityType.toList),
      fun m v => { m with commodityType := some v }⟩,
     ⟨"capacity", 2, .float32, .optional, (·.capacity.toList),
      fun m v => { m with capacity := some v }⟩,
     ⟨"consumedFactor", 3, .float32, .optional, (·.consumedFactor.toList),
      fun m v => { m with consumedFactor := some v }⟩,
     ⟨"consumed", 4, .float32, .optional, (·.consumed.toList),
      fun m v => { m with consumed := some v }⟩,
     ⟨"reservation", 5, .float32, .optional, (·.reservation.toList),
      fun m v => { m with reservation := some v }⟩,
     ⟨"overhead", 6, .float32, .optional, (·.overhead.toList),
      fun m v => { m with overhead := some v }⟩]
  oneof := .empty
  unrecognized := (·.unrecognized)
  setUnrecognized m u := { m with unrecognized := u }
  zero := {}
  tags_nodup := by decide
  tag_bounds := by decide
  get_store := by
    intro p hp; fin_cases hp <;> intros <;> rfl
  get_store_of_ne := by
    intro p hp q hq hne; simp only [List.mem_cons, List.not_mem_nil, or_false] at hp hq
    rcases hp with rfl | rfl | rfl | rfl | rfl | rfl <;>
      rcases hq with rfl | rfl | rfl | rfl | rfl | rfl <;>
      first | exact absurd rfl hne | intros; rfl
  length_get_le := by
    intro p hp hr; fin_cases hp <;>
      first | exact absurd rfl hr | exact fun _ => length_option_toList_le _
  unrecognized_store := by
    intro p hp; fin_cases hp <;> intros <;> rfl
  get_setUnrecognized := by
    intro p hp; fin_cases hp <;> intros <;> rfl
  unrecognized_setUnrecognized _ _ := rfl
  get_zero := by
    intro p hp; fin_cases hp <;> rfl
  unrecognized_zero := rfl
  unmarshaler_of_not_mem _ _ _ _ _ := rfl

end CommodityProfileDTO

namespace DeploymentProfileDTO

/-- The struct tags of `DeploymentProfileDTO`: `id` is `bytes,1,req`, `profileName` is
`bytes,2,req`, and `contextData`, `relatedEntityProfileId` and `relatedScopeId` are
`bytes,3,rep` to `bytes,5,rep`. -/
def properties : StructProperties DeploymentProfileDTO where
  prop :=
    [⟨"id", 1, .bytes, .required, (·.id.toList), fun m v => { m with id := some v }⟩,
     ⟨"profileName", 2, .bytes, .required, (·.profileName.toList),
      fun m v => { m with profileName := some v }⟩,
     ⟨"contextData", 3, .bytes, .repeated, (·.contextData),
      fun m (v : List UInt8) => { m with contextData := m.contextData ++ [v] }⟩,
     ⟨"relatedEntityProfileId", 4, .bytes, .repeated, (·.relatedEntityProfileId),
      fun m (v : List UInt8) =>
        { m with relatedEntityProfileId := m.relatedEntityProfileId ++ [v] }⟩,
     ⟨"relatedScopeId", 5, .bytes, .repeated, (·.relatedScopeId),
      fun m (v : List UInt8) => { m with relatedScopeId := m.relatedScopeId ++ [v] }⟩]
  oneof := .empty
  unrecognized := (·.unrecognized)
  setUnrecognized m u := { m with unrecognized := u }
  zero := {}
  tags_nodup := by decide
  tag_bounds := by decide
  get_store := by
    intro p hp; fin_cases hp <;> intros <;> rfl
  get_store_of_ne := by
    intro p hp q hq hne; simp only [List.mem_cons, List.not_mem_nil, or_false] at hp hq
    rcases hp with rfl | rfl | rfl | rfl | rfl <;> rcases hq with rfl | rfl | rfl | rfl | rfl <;>
      first | exact absurd rfl hne | intros; rfl
  length_get_le := by
    intro p hp hr; fin_cases hp <;>
      first | exact absurd rfl hr | exact fun _ => length_option_toList_le _
  unrecognized_store := by
    intro p hp; fin_cases hp <;> intros <;> rfl
  get_setUnrecognized := by
    intro p hp; fin_cases hp <;> intros <;> rfl
  unrecognized_setUnrecognized _ _ := rfl
  get_zero := by
    intro p hp; fin_cases hp <;> rfl
  unrecognized_zero := rfl
  unmarshaler_of_not_mem _ _ _ _ _ := rfl

end DeploymentProfileDTO

end TurboProfile
