import TurboProfile.Verification.Message.Merge
import TurboProfile.Verification.Entity.RoundTrip

/-! # `EntityProfileDTO` bytes after bytes

Every reader the decoder calls reads only what it returns, the oneof unmarshaler included, so
entities encoded one after another decode to their merge, and a variant appended to an
encoding replaces the oneof. -/

namespace TurboProfile

namespace EntityProfileDTO

open StructProperties ValueCoder

theorem properties_coder_readsPrefix : ∀ p ∈ properties.prop, p.coder.ReadsPrefix :=
  List.forall_iff_forall_mem.mp ⟨readsPrefix_bytes, readsPrefix_bytes, readsPrefix_int32,
    readsPrefix_message _, readsPrefix_bytes, readsPrefix_bytes, readsPrefix_bytes,
    readsPrefix_bool, readsPrefix_bool, readsPrefix_bytes⟩

theorem properties_oneof_readsPrefix : properties.oneof.ReadsPrefix := by
  intro m tag wire b h t
  change (oneofUnmarshaler m tag wire b).handled → (oneofUnmarshaler m tag wire b).err = none
    at h
  change oneofUnmarshaler m tag wire (b ++ t) =
    { oneofUnmarshaler m tag wire b with rest := (oneofUnmarshaler m tag wire b).rest ++ t }
  unfold oneofUnmarshaler at h ⊢
  split
  · split
    · simp_all
    · rw [VMProfileDTO.properties.decodeMessage_append (by simp_all) t]
  · split
    · simp_all
    · rw [PMProfileDTO.properties.decodeMessage_append (by simp_all) t]
  · rfl

/-! ## The merge law -/

/-- Decoding `bs₁ ++ bs₂` decodes `bs₂` into the entity `bs₁` gave, once the loop has read `bs₁`
without error. -/
theorem properties_unmarshalFields_append (bs₁ : List UInt8) (s : EntityProfileDTO)
    (h : (properties.unmarshalFields bs₁ s).2 = none) (bs₂ : List UInt8) :
    properties.unmarshalFields (bs₁ ++ bs₂) s =
      properties.unmarshalFields bs₂ (properties.unmarshalFields bs₁ s).1 :=
  unmarshalFields_append properties_coder_readsPrefix properties_oneof_readsPrefix bs₁ s h bs₂

theorem unmarshalFields_encoding (v : VMOrPMProfileData) (hv : v.Encodable)
    (s : EntityProfileDTO) :
    properties.unmarshalFields v.encoding s = ({ s with vmOrPmProfileData := some v }, none) := by
  rw [← List.append_nil v.encoding, properties.unmarshalFields_of_readField
    (List.append_ne_nil_of_left_ne_nil v.encoding_ne_nil []) (readField_encoding hv s []),
    unmarshalFields_nil]

/-- A VM variant, then a PM variant. -/
theorem properties_unmarshalFields_append_vm :
    (properties.unmarshalFields (VMOrPMProfileData.vmProfileDTO (some {})).encoding
        properties.zero).2 = none ∧
      properties.unmarshalFields ((VMOrPMProfileData.vmProfileDTO (some {})).encoding ++
          (VMOrPMProfileData.pmProfileDTO (some {})).encoding) properties.zero =
        properties.unmarshalFields (VMOrPMProfileData.pmProfileDTO (some {})).encoding
          (properties.unmarshalFields (VMOrPMProfileData.vmProfileDTO (some {})).encoding
            properties.zero).1 :=
  have h : (properties.unmarshalFields (VMOrPMProfileData.vmProfileDTO (some {})).encoding
      properties.zero).2 = none := by
    rw [unmarshalFields_encoding (.vmProfileDTO (some {})) ⟨⟨[], rfl, nofun⟩, by decide⟩]
  ⟨h, properties_unmarshalFields_append _ _ h _⟩

/-! ## Entities one after another -/

/-- The entity decoding `b` over `a` gives: each singular field and the oneof that of `b` when
set, each repeated field and the unrecognized bytes those of `a`, then those of `b`. -/
def merge (a b : EntityProfileDTO) : EntityProfileDTO where
  id := b.id.or a.id
  displayName := b.displayName.or a.displayName
  entityType := b.entityType.or a.entityType
  commodityProfile := a.commodityProfile ++ b.commodityProfile
  model := b.model.or a.model
  vendor := b.vendor.or a.vendor
  description := b.description.or a.description
  vmOrPmProfileData := b.vmOrPmProfileData.or a.vmOrPmProfileData
  enableProvisionMatch := b.enableProvisionMatch.or a.enableProvisionMatch
  enableResizeMatch := b.enableResizeMatch.or a.enableResizeMatch
  entityProperties := a.entityProperties ++ b.entityProperties
  unrecognized := a.unrecognized ++ b.unrecognized

theorem properties_mergeOf_merge (a b : EntityProfileDTO) :
    properties.MergeOf a b (merge a b) :=
  ⟨List.forall_iff_forall_mem.mp ⟨toList_or_eq_merge (by decide) _ _,
    toList_or_eq_merge (by decide) _ _, toList_or_eq_merge (by decide) _ _, rfl,
    toList_or_eq_merge (by decide) _ _, toList_or_eq_merge (by decide) _ _,
    toList_or_eq_merge (by decide) _ _, toList_or_eq_merge (by decide) _ _,
    toList_or_eq_merge (by decide) _ _, rfl⟩, rfl⟩

theorem unmarshalFields_marshal_merge {m : EntityProfileDTO}
    (hm : properties.UnknownFieldsWellFormed m)
    (hv : ∀ p ∈ properties.prop, ∀ v ∈ p.get m, p.coder.Valid v)
    (hu : ∀ v ∈ m.vmOrPmProfileData, v.Encodable) (s : EntityProfileDTO) :
    properties.unmarshalFields (properties.marshal m).1 s = (merge s m, none) := by
  obtain ⟨c, ⟨hget, huc⟩, hoc, hrun⟩ := unmarshalFields_marshal_over hm hv hu s
  obtain ⟨hget', huc'⟩ := properties_mergeOf_merge s m
  rw [hrun, ext_of_get (fun p hp => (hget p hp).trans (hget' p hp).symm) (huc.trans huc'.symm) hoc]

/-- Decoding the encodings of entities one after the other gives their merge, left to right;
the decoder reports the first nil required field of the merge. -/
theorem properties_unmarshal_flatMap_marshal (ms : List EntityProfileDTO)
    (hms : ∀ m ∈ ms, properties.UnknownFieldsWellFormed m ∧
      (∀ p ∈ properties.prop, ∀ v ∈ p.get m, p.coder.Valid v) ∧
      ∀ v ∈ m.vmOrPmProfileData, v.Encodable) :
    properties.unmarshal (ms.flatMap fun m => (properties.marshal m).1) =
      (ms.foldl merge properties.zero,
        (properties.missingRequired (ms.foldl merge properties.zero)).map .requiredNotSet) := by
  rw [unmarshal, unmarshalFields_flatMap_of_step properties_coder_readsPrefix
    properties_oneof_readsPrefix
    (fun m hm s => unmarshalFields_marshal_merge (hms m hm).1 (hms m hm).2.1 (hms m hm).2.2 s)]

/-- An entity with a display name and a PM payload. -/
def sampleEntityProfilePM : EntityProfileDTO where
  displayName := some [66]
  vmOrPmProfileData := some (.pmProfileDTO (some {}))

/-- The sample entity, then `sampleEntityProfilePM`: the result keeps the identifier and the
commodity profile of the first, and the name and PM payload of the second. -/
theorem properties_unmarshal_flatMap_marshal_sample :
    properties.unmarshal ([sampleEntityProfile, sampleEntityProfilePM].flatMap
        fun m => (properties.marshal m).1) =
      ([sampleEntityProfile, sampleEntityProfilePM].foldl merge properties.zero,
        (properties.missingRequired ([sampleEntityProfile, sampleEntityProfilePM].foldl merge
          properties.zero)).map .requiredNotSet) :=
  properties_unmarshal_flatMap_marshal [sampleEntityProfile, sampleEntityProfilePM]
    (List.forall_iff_forall_mem.mp
      ⟨⟨⟨[], rfl, nofun⟩, sampleEntityProfile_values_valid, sampleEntityProfile_encodable⟩,
        ⟨[], rfl, nofun⟩, List.forall_iff_forall_mem.mp ⟨by decide, by decide, by decide,
          fun _ h => absurd h (List.not_mem_nil _), by decide, by decide, by decide, by decide,
          by decide, by unfold List.Forall; decide⟩,
        by rintro v ⟨⟩; exact ⟨⟨[], rfl, nofun⟩, by decide⟩⟩)

/-! ## The last variant wins, in bytes -/

/-- A variant appended to the encoding of an entity replaces its oneof; every other field, the
unrecognized bytes and the report of the required fields stay. -/
theorem properties_unmarshal_marshal_append_encoding (m : EntityProfileDTO)
    (hm : properties.UnknownFieldsWellFormed m)
    (hv : ∀ p ∈ properties.prop, ∀ v ∈ p.get m, p.coder.Valid v)
    (hu : ∀ v ∈ m.vmOrPmProfileData, v.Encodable) (v : VMOrPMProfileData) (hv' : v.Encodable) :
    properties.unmarshal ((properties.marshal m).1 ++ v.encoding) =
      ({ m with vmOrPmProfileData := some v },
        (properties.missingRequired m).map .requiredNotSet) := by
  have hrun := unmarshalFields_marshal hm hv hu
  rw [unmarshal, unmarshalFields_append properties_coder_readsPrefix properties_oneof_readsPrefix
    _ _ (by rw [hrun]) _, hrun, unmarshalFields_encoding v hv']
  simp only [missingRequired_eq]

/-- An entity with a VM payload, then a PM payload appended. -/
theorem properties_unmarshal_marshal_append_encoding_pm :
    properties.unmarshal ((properties.marshal
        { vmOrPmProfileData := some (.vmProfileDTO (some {})) }).1 ++
        (VMOrPMProfileData.pmProfileDTO (some {})).encoding) =
      ({ vmOrPmProfileData := some (.pmProfileDTO (some {})) },
        (properties.missingRequired { vmOrPmProfileData := some (.vmProfileDTO (some {})) }).map
          .requiredNotSet) :=
  properties_unmarshal_marshal_append_encoding
    { vmOrPmProfileData := some (.vmProfileDTO (some {})) } ⟨[], rfl, nofun⟩
    (values_valid_setOneof _)
    (by simp; exact ⟨⟨[], rfl, nofun⟩, by decide⟩)
    (.pmProfileDTO (some {})) (And.intro ⟨[], rfl, nofun⟩ (by decide))

/-! ## Unknown fields after an encoding -/

end EntityProfileDTO

end TurboProfile
