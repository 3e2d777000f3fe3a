import TurboProfile.Model.ProfileDTO

/-! # The getters

The getter of a singular field returns its value when the message and the field are set, and
the zero of the type otherwise; that of a repeated field the slice. A receiver is an `Option`,
`none` the nil pointer. -/

namespace TurboProfile

/-- The getter of a singular field `f` with default `d`:
`if m != nil && m.F != nil { return *m.F }; return d`. -/
def getSingular {M α : Type} (f : M → Option α) (d : α) : Option M → α
  | some m => (f m).getD d
  | none => d

/-- The getter of a repeated field `f`: `if m != nil { return m.F }; return nil`. -/
def getRepeated {M α : Type} (f : M → List α) : Option M → List α
  | some m => f m
  | none => []

/-- The zero of a Go `int32`. -/
def Int32.zero : Int32 := ⟨0, by decide, by decide⟩

/-- The zero of a Go `float32`, `+0.0`. -/
def Float32.zero : Float32 := ⟨0⟩

/-- `EntityDTO_SWITCH`, the first value of the enum `EntityDTO_EntityType`, declared with the
enum in `CommonDTO.pb.go`, numbered 0. -/
def EntityDTO_SWITCH : Int32 := Int32.zero

/-- `CommodityDTO_CLUSTER`, the first value of the enum `CommodityDTO_CommodityType`, declared
with the enum in `CommonDTO.pb.go`, numbered 0. -/
def CommodityDTO_CLUSTER : Int32 := Int32.zero

namespace EntityProfileDTO

def getVMOrPMProfileData : Option EntityProfileDTO → Option VMOrPMProfileData
  | some m => m.vmOrPmProfileData
  | none => none

def getId : Option EntityProfileDTO → List UInt8 := getSingular (·.id) []

def getDisplayName : Option EntityProfileDTO → List UInt8 := getSingular (·.displayName) []

def getEntityType : Option EntityProfileDTO → Int32 := getSingular (·.entityType) EntityDTO_SWITCH

def getCommodityProfile : Option EntityProfileDTO → List CommodityProfileDTO :=
  getRepeated (·.commodityProfile)

def getModel : Option EntityProfileDTO → List UInt8 := getSingular (·.model) []

def getVendor : Option EntityProfileDTO → List UInt8 := getSingular (·.vendor) []

def getDescription : Option EntityProfileDTO → List UInt8 := getSingular (·.description) []

/-- The type switch `m.GetVMOrPMProfileData().(*EntityProfileDTO_VmProfileDTO)`: the payload of
a VM wrapper, nil otherwise. -/
def getVmProfileDTO (m : Option EntityProfileDTO) : Option VMProfileDTO :=
  match getVMOrPMProfileData m with
  | some (.vmProfileDTO x) => x
  | _ => none

/-- The type switch on the PM wrapper, as `getVmProfileDTO`. -/
def getPmProfileDTO (m : Option EntityProfileDTO) : Option PMProfileDTO :=
  match getVMOrPMProfileData m with
  | some (.pmProfileDTO x) => x
  | _ => none

def getEnableProvisionMatch : Option EntityProfileDTO → Bool :=
  getSingular (·.enableProvisionMatch) false

def getEnableResizeMatch : Option EntityProfileDTO → Bool :=
  getSingular (·.enableResizeMatch) false

def getEntityProperties : Option EntityProfileDTO → List (List UInt8) :=
  getRepeated (·.entityProperties)

end EntityProfileDTO

namespace EntityProfileDTO.VMProfileDTO

def getNumVCPUs : Option VMProfileDTO → Int32 := getSingular (·.numVCPUs) Int32.zero

def getVCPUSpeed : Option VMProfileDTO → Float32 := getSingular (·.vCPUSpeed) Float32.zero

def getNumStorageConsumed : Option VMProfileDTO → Int32 :=
  getSingular (·.numStorageConsumed) Int32.zero

end EntityProfileDTO.VMProfileDTO

namespace EntityProfileDTO.PMProfileDTO

def getNumCores : Option PMProfileDTO → Int32 := getSingular (·.numCores) Int32.zero

def getCpuCoreSpeed : Option PMProfileDTO → Float32 := getSingular (·.cpuCoreSpeed) Float32.zero

end EntityProfileDTO.PMProfileDTO

namespace CommodityProfileDTO

def getCommodityType : Option CommodityProfileDTO → Int32 :=
  getSingular (·.commodityType) CommodityDTO_CLUSTER

def getCapacity : Option CommodityProfileDTO → Float32 := getSingular (·.capacity) Float32.zero

def getConsumedFactor : Option CommodityProfileDTO → Float32 :=
  getSingular (·.consumedFactor) Float32.zero

def getConsumed : Option CommodityProfileDTO → Float32 := getSingular (·.consumed) Float32.zero

def getReservation : Option CommodityProfileDTO → Float32 :=
  getSingular (·.reservation) Float32.zero

def getOverhead : Option CommodityProfileDTO → Float32 := getSingular (·.overhead) Float32.zero

end CommodityProfileDTO

namespace DeploymentProfileDTO

def getId : Option DeploymentProfileDTO → List UInt8 := getSingular (·.id) []

def getProfileName : Option DeploymentProfileDTO → List UInt8 := getSingular (·.profileName) []

def getContextData : Option DeploymentProfileDTO → List (List UInt8) :=
  getRepeated (·.contextData)

def getRelatedEntityProfileId : Option DeploymentProfileDTO → List (List UInt8) :=
  getRepeated (·.relatedEntityProfileId)

def getRelatedScopeId : Option DeploymentProfileDTO → List (List UInt8) :=
  getRepeated (·.relatedScopeId)

end DeploymentProfileDTO

end TurboProfile
