import TurboProfile.Verification.Message.Merge
import TurboProfile.Verification.Message.Stable
import TurboProfile.Model.Payloads

/-! # The messages without oneofs are lawful

The VM and PM payloads, `CommodityProfileDTO` and `DeploymentProfileDTO` meet the laws of the
round trip; deployment profiles decode field by field and merge. -/

namespace TurboProfile

open StructProperties ValueCoder

namespace EntityProfileDTO.VMProfileDTO

theorem properties_lawful : properties.Lawful where
  coder_lawful :=
    List.forall_iff_forall_mem.mp ⟨lawful_int32, lawful_float32, lawful_int32⟩
  marshaler_eq _ _ := rfl
  sizer_eq _ := rfl
  ext := by
    rintro ⟨⟩ ⟨⟩ h hu
    obtain ⟨h1, h2, h3⟩ := List.forall_iff_forall_mem.mpr h
    cases hu
    simp_all [option_toList_inj]

/-- A VM payload with raw unknown fields whose encoding fits its length prefix is valid. -/
theorem properties_valid {p : VMProfileDTO} (hp : properties.UnknownFieldsWellFormed p)
    (hlen : (properties.marshal p).1.length < 2 ^ 64) : properties.Valid p :=
  ⟨hp, List.forall_iff_forall_mem.mp ⟨fun _ _ => trivial, fun _ _ => trivial, fun _ _ => trivial⟩,
    hlen⟩

theorem properties_marshal_snd (p : VMProfileDTO) : (properties.marshal p).2 = none :=
  rfl

end EntityProfileDTO.VMProfileDTO

namespace EntityProfileDTO.PMProfileDTO

theorem properties_lawful : properties.Lawful where
  coder_lawful :=
    List.forall_iff_forall_mem.mp ⟨lawful_int32, lawful_float32⟩
  marshaler_eq _ _ := rfl
  sizer_eq _ := rfl
  ext := by
    rintro ⟨⟩ ⟨⟩ h hu
    obtain ⟨h1, h2⟩ := List.forall_iff_forall_mem.mpr h
    cases hu
    simp_all [option_toList_inj]

theorem properties_valid {q : PMProfileDTO} (hq : properties.UnknownFieldsWellFormed q)
    (hlen : (properties.marshal q).1.length < 2 ^ 64) : properties.Valid q :=
  ⟨hq, List.forall_iff_forall_mem.mp ⟨fun _ _ => trivial, fun _ _ => trivial⟩, hlen⟩

theorem properties_marshal_snd (q : PMProfileDTO) : (properties.marshal q).2 = none :=
  rfl

end EntityProfileDTO.PMProfileDTO

namespace CommodityProfileDTO

theorem properties_lawful : properties.Lawful where
  coder_lawful :=
    List.forall_iff_forall_mem.mp ⟨lawful_int32, lawful_float32, lawful_float32, lawful_float32,
      lawful_float32, lawful_float32⟩
  marshaler_eq _ _ := rfl
  sizer_eq _ := rfl
  ext := by
    rintro ⟨⟩ ⟨⟩ h hu
    obtain ⟨h1, h2, h3, h4, h5, h6⟩ := List.forall_iff_forall_mem.mpr h
    cases hu
    simp_all [option_toList_inj]

/-- A commodity profile reads back as itself; the decoder reports a nil `commodityType`. -/
theorem unmarshal_marshal_reports_commodityType {c : CommodityProfileDTO}
    (hc : properties.Valid c) :
    properties.unmarshal (properties.marshal c).1 =
      (c, if c.commodityType = none then some (.requiredNotSet "commodityType") else none) := by
  rw [unmarshal_marshal properties_lawful hc]
  obtain ⟨_ | _⟩ := c <;> rfl

/-- A memory commodity of capacity 100 and a reservation. -/
def sampleCommodityProfile : CommodityProfileDTO where
  commodityType := some ⟨21, by decide, by decide⟩
  capacity := some ⟨0x42c80000⟩
  reservation := some ⟨0x41200000⟩

theorem unmarshal_marshal_reports_commodityType_sample :
    properties.unmarshal (properties.marshal sampleCommodityProfile).1 =
      (sampleCommodityProfile, if sampleCommodityProfile.commodityType = none
        then some (.requiredNotSet "commodityType") else none) :=
  unmarshal_marshal_reports_commodityType ⟨⟨[], rfl, nofun⟩,
    List.forall_iff_forall_mem.mp ⟨fun _ _ => trivial, fun _ _ => trivial, fun _ _ => trivial,
      fun _ _ => trivial, fun _ _ => trivial, fun _ _ => trivial⟩, by
    rw [properties_lawful.marshal_eq]
    simp [properties, sampleCommodityProfile, FieldProp.encode, FieldProp.encodeOne,
      encodeVarint_of_lt, encodeFixed32, fieldKey, wireVarint, wireFixed32, Int32.toUInt64]⟩

end CommodityProfileDTO

namespace DeploymentProfileDTO

theorem properties_lawful : properties.Lawful where
  coder_lawful :=
    List.forall_iff_forall_mem.mp
      ⟨lawful_bytes, lawful_bytes, lawful_bytes, lawful_bytes, lawful_bytes⟩
  marshaler_eq _ _ := rfl
  sizer_eq _ := rfl
  ext := by
    rintro ⟨⟩ ⟨⟩ h hu
    obtain ⟨h1, h2, h3, h4, h5⟩ := List.forall_iff_forall_mem.mpr h
    cases hu
    simp_all [option_toList_inj]

/-- A deployment profile reads back as itself, its repeated fields in order with their
duplicates; the decoder reports the first nil of `id` and `profileName`. -/
theorem unmarshal_marshal_keeps_repeated {d : DeploymentProfileDTO} (hd : properties.Valid d) :
    properties.unmarshal (properties.marshal d).1 =
      (d, if d.id = none then some (.requiredNotSet "id")
        else if d.profileName = none then some (.requiredNotSet "profileName") else none) := by
  rw [unmarshal_marshal properties_lawful hd]
  obtain ⟨_ | _, _ | _⟩ := d <;> rfl

/-- A deployment profile whose scopes name one cluster twice. -/
def sampleDeploymentProfile : DeploymentProfileDTO where
  id := some [100, 49]
  profileName := some [112]
  relatedScopeId := [[99], [99]]

theorem sampleDeploymentProfile_valid : properties.Valid sampleDeploymentProfile := by
  refine ⟨⟨[], rfl, nofun⟩,
    List.forall_iff_forall_mem.mp ⟨by decide, by decide, by decide, by decide,
      by unfold List.Forall; decide⟩, ?_⟩
  rw [properties_lawful.marshal_eq]
  simp [properties, sampleDeploymentProfile, FieldProp.encode, FieldProp.encodeOne,
    encodeVarint_of_lt, fieldKey, wireBytes]

theorem unmarshal_marshal_keeps_repeated_sample :
    properties.unmarshal (properties.marshal sampleDeploymentProfile).1 =
      (sampleDeploymentProfile, if sampleDeploymentProfile.id = none
        then some (.requiredNotSet "id")
        else if sampleDeploymentProfile.profileName = none
        then some (.requiredNotSet "profileName") else none) :=
  unmarshal_marshal_keeps_repeated sampleDeploymentProfile_valid

/-! ## Deployment profiles one after another -/

/-- The deployment profile decoding `b` over `a` gives: `id` and `profileName` of `b` when set,
each repeated field and the unrecognized bytes those of `a`, then those of `b`. -/
def merge (a b : DeploymentProfileDTO) : DeploymentProfileDTO where
  id := b.id.or a.id
  profileName := b.profileName.or a.profileName
  contextData := a.contextData ++ b.contextData
  relatedEntityProfileId := a.relatedEntityProfileId ++ b.relatedEntityProfileId
  relatedScopeId := a.relatedScopeId ++ b.relatedScopeId
  unrecognized := a.unrecognized ++ b.unrecognized

theorem properties_mergeOf_merge (a b : DeploymentProfileDTO) :
    properties.MergeOf a b (merge a b) :=
  ⟨List.forall_iff_forall_mem.mp
    ⟨toList_or_eq_merge (by decide) _ _, toList_or_eq_merge (by decide) _ _, rfl, rfl, rfl⟩, rfl⟩

theorem properties_coder_readsPrefix : ∀ p ∈ properties.prop, p.coder.ReadsPrefix :=
  List.forall_iff_forall_mem.mp ⟨readsPrefix_bytes, readsPrefix_bytes, readsPrefix_bytes,
    readsPrefix_bytes, readsPrefix_bytes⟩

/-- Deployment profiles one after another decode to their merge, left to right; the decoder
reports the first of `id` and `profileName` that no profile sets. -/
theorem unmarshal_flatMap_marshal (ds : List DeploymentProfileDTO)
    (hds : ∀ d ∈ ds, properties.Valid d) :
    properties.unmarshal (ds.flatMap fun d => (properties.marshal d).1) =
      (ds.foldl merge properties.zero,
        (properties.missingRequired (ds.foldl merge properties.zero)).map .requiredNotSet) := by
  rw [unmarshal, unmarshalFields_flatMap_of_step properties_coder_readsPrefix
    OneofFuncs.readsPrefix_empty fun d hd s => unmarshalFields_marshal_of_mergeOf
      properties_lawful (hds d hd).1 (hds d hd).2.1 (properties_mergeOf_merge s d)]

/-- The sample profile twice: its scopes are read four times, in order. -/
theorem unmarshal_flatMap_marshal_twice :
    properties.unmarshal ([sampleDeploymentProfile, sampleDeploymentProfile].flatMap
        fun d => (properties.marshal d).1) =
      ([sampleDeploymentProfile, sampleDeploymentProfile].foldl merge properties.zero,
        (properties.missingRequired ([sampleDeploymentProfile, sampleDeploymentProfile].foldl
          merge properties.zero)).map .requiredNotSet) :=
  unmarshal_flatMap_marshal _
    (List.forall_iff_forall_mem.mp ⟨sampleDeploymentProfile_valid, sampleDeploymentProfile_valid⟩)

/-! ## Deployment profiles read from any bytes -/

theorem properties_coder_skipsLikeDecode : ∀ p ∈ properties.prop, p.coder.SkipsLikeDecode :=
  List.forall_iff_forall_mem.mp ⟨skipsLikeDecode_bytes, skipsLikeDecode_bytes,
    skipsLikeDecode_bytes, skipsLikeDecode_bytes, skipsLikeDecode_bytes⟩

theorem properties_coder_readsExactly : ∀ p ∈ properties.prop, p.coder.ReadsExactly :=
  List.forall_iff_forall_mem.mp ⟨readsExactly_bytes, readsExactly_bytes, readsExactly_bytes,
    readsExactly_bytes, readsExactly_bytes⟩

/-- The decoder of `DeploymentProfileDTO`, field by field: a buffer read without error is a
sequence of whole fields; each repeated field holds the values of all the fields of its number,
in order, each singular one that of the last, and the unrecognized bytes are the fields of
the other numbers, verbatim. -/
theorem unmarshal_fieldwise (bs : List UInt8)
    (h : (properties.unmarshalFields bs properties.zero).2 = none) :
    ∃ fs, fieldBytes bs = some fs ∧
      (∀ p ∈ properties.prop,
        p.get (properties.unmarshal bs).1 = p.label.merge [] (p.valuesIn fs)) ∧
      (properties.unmarshal bs).1.unrecognized =
        (fs.filter fun f => f.1 ∉ properties.tags).flatMap (·.2) := by
  obtain ⟨fs, hfs, hget⟩ := get_unmarshalFields properties_coder_skipsLikeDecode
    properties_coder_readsExactly OneofFuncs.skipsLikeUnmarshal_empty
    (fun _ _ _ _ _ _ => rfl) bs properties.zero h
  obtain ⟨fs', hfs', hu⟩ := unrecognized_unmarshalFields properties_coder_skipsLikeDecode
    OneofFuncs.skipsLikeUnmarshal_empty (fun _ _ _ _ => rfl)
    (fun _ _ _ _ h => absurd h (List.not_mem_nil _)) bs properties.zero h
  obtain rfl : fs = fs' := Option.some.inj (hfs.symm.trans hfs')
  rw [properties.unmarshal_fst]
  exact ⟨fs, hfs, fun p hp => by rw [hget p hp, properties.get_zero p hp], hu⟩

/-- The same scope twice: both are kept. -/
theorem unmarshal_fieldwise_scopes :
    (properties.unmarshalFields [42, 1, 65, 42, 1, 65] properties.zero).2 = none ∧
      ∃ fs, fieldBytes [42, 1, 65, 42, 1, 65] = some fs ∧
        (∀ p ∈ properties.prop,
          p.get (properties.unmarshal [42, 1, 65, 42, 1, 65]).1 =
            p.label.merge [] (p.valuesIn fs)) ∧
        (properties.unmarshal [42, 1, 65, 42, 1, 65]).1.unrecognized =
          (fs.filter fun f => f.1 ∉ properties.tags).flatMap (·.2) :=
  have h : (properties.unmarshalFields [42, 1, 65, 42, 1, 65] properties.zero).2 = none := by
    rw [properties.unmarshalFields_of_readField (List.cons_ne_nil _ _)
        (show properties.readField [42, 1, 65, 42, 1, 65] properties.zero =
          ({ relatedScopeId := [[65]] }, .ok [42, 1, 65]) from rfl),
      properties.unmarshalFields_of_readField (List.cons_ne_nil _ _)
        (show properties.readField [42, 1, 65] { relatedScopeId := [[65]] } =
          ({ relatedScopeId := [[65], [65]] }, .ok []) from rfl), unmarshalFields_nil]
  ⟨h, unmarshal_fieldwise _ h⟩

theorem unmarshalFields_eq_merge (bs : List UInt8) (s : DeploymentProfileDTO)
    (h : (properties.unmarshalFields bs properties.zero).2 = none) :
    properties.unmarshalFields bs s =
      (merge s (properties.unmarshalFields bs properties.zero).1, none) := by
  obtain ⟨hs, hget, hu⟩ := mergeOf_unmarshalFields properties_coder_skipsLikeDecode
    properties_coder_readsExactly OneofFuncs.skipsLikeUnmarshal_empty
    OneofFuncs.outcomeOfBytes_empty (fun _ _ _ _ _ _ => rfl) (fun _ _ _ _ => rfl)
    (fun _ _ _ _ h => absurd h (List.not_mem_nil _)) bs s h
  obtain ⟨hget', hu'⟩ :=
    properties_mergeOf_merge s (properties.unmarshalFields bs properties.zero).1
  exact Prod.ext (properties_lawful.ext _ _ (fun p hp => (hget p hp).trans (hget' p hp).symm)
    (hu.trans hu'.symm)) hs

/-- Decoding two buffers one after the other gives the `merge` of what each decodes; the
required fields are checked on the merge. -/
theorem unmarshal_append (bs₁ bs₂ : List UInt8)
    (h₁ : (properties.unmarshalFields bs₁ properties.zero).2 = none)
    (h₂ : (properties.unmarshalFields bs₂ properties.zero).2 = none) :
    properties.unmarshal (bs₁ ++ bs₂) =
      (merge (properties.unmarshal bs₁).1 (properties.unmarshal bs₂).1,
        (properties.missingRequired
          (merge (properties.unmarshal bs₁).1 (properties.unmarshal bs₂).1)).map
            .requiredNotSet) := by
  rw [unmarshal, unmarshalFields_append properties_coder_readsPrefix OneofFuncs.readsPrefix_empty
    bs₁ _ h₁, unmarshalFields_eq_merge bs₂ _ h₂, properties.unmarshal_fst,
    properties.unmarshal_fst]

/-- A scope in each buffer: the merge holds both, in order. -/
theorem unmarshal_append_scopes :
    (properties.unmarshalFields [42, 1, 65] properties.zero).2 = none ∧
      (properties.unmarshalFields [42, 1, 66] properties.zero).2 = none ∧
      properties.unmarshal ([42, 1, 65] ++ [42, 1, 66]) =
        (merge (properties.unmarshal [42, 1, 65]).1 (properties.unmarshal [42, 1, 66]).1,
          (properties.missingRequired
            (merge (properties.unmarshal [42, 1, 65]).1 (properties.unmarshal [42, 1, 66]).1)).map
              .requiredNotSet) :=
  have h₁ : (properties.unmarshalFields [42, 1, 65] properties.zero).2 = none := by
    rw [properties.unmarshalFields_of_readField (List.cons_ne_nil _ _)
      (show properties.readField [42, 1, 65] properties.zero =
        ({ relatedScopeId := [[65]] }, .ok []) from rfl), unmarshalFields_nil]
  have h₂ : (properties.unmarshalFields [42, 1, 66] properties.zero).2 = none := by
    rw [properties.unmarshalFields_of_readField (List.cons_ne_nil _ _)
      (show properties.readField [42, 1, 66] properties.zero =
        ({ relatedScopeId := [[66]] }, .ok []) from rfl), unmarshalFields_nil]
  ⟨h₁, h₂, unmarshal_append _ _ h₁ h₂⟩

end DeploymentProfileDTO

/-! ## Re-encoding what was decoded -/

namespace EntityProfileDTO.VMProfileDTO

theorem properties_coder_stable (n : Nat) : ∀ p ∈ properties.prop, p.coder.Stable n :=
  List.forall_iff_forall_mem.mp ⟨stable_int32 n, stable_float32 n, stable_int32 n⟩

theorem properties_length_marshal_le (p : VMProfileDTO) :
    (properties.marshal p).1.length ≤ 33 + (properties.unrecognized p).length := by
  refine length_marshal_le properties_lawful (B := 11) (fun f hf => ?_) p
  fin_cases hf <;>
    exact ⟨nofun, FieldProp.length_encodeOne_le (by decide)
      (by first | exact length_encode_int32_le | exact length_encode_float32_le)⟩
theorem decodeMessage_readsBack {n : Nat} (hn : n + 33 < 2 ^ 64) {b r : List UInt8}
    {x : VMProfileDTO} (hd : properties.decodeMessage b = ((x, none), r)) (hb : b.length ≤ n) :
    properties.unmarshal (properties.marshal x).1 = (x, none) ∧
      (properties.marshal x).1.length < 2 ^ 64 :=
  decodeMessage_stable properties_lawful rfl (properties_coder_stable n)
    properties_length_marshal_le hn hd hb

end EntityProfileDTO.VMProfileDTO

namespace EntityProfileDTO.PMProfileDTO

theorem properties_coder_stable (n : Nat) : ∀ p ∈ properties.prop, p.coder.Stable n :=
  List.forall_iff_forall_mem.mp ⟨stable_int32 n, stable_float32 n⟩

theorem properties_length_marshal_le (q : PMProfileDTO) :
    (properties.marshal q).1.length ≤ 22 + (properties.unrecognized q).length := by
  refine length_marshal_le properties_lawful (B := 11) (fun f hf => ?_) q
  fin_cases hf <;>
    exact ⟨nofun, FieldProp.length_encodeOne_le (by decide)
      (by first | exact length_encode_int32_le | exact length_encode_float32_le)⟩
theorem decodeMessage_readsBack {n : Nat} (hn : n + 22 < 2 ^ 64) {b r : List UInt8}
    {x : PMProfileDTO} (hd : properties.decodeMessage b = ((x, none), r)) (hb : b.length ≤ n) :
    properties.unmarshal (properties.marshal x).1 = (x, none) ∧
      (properties.marshal x).1.length < 2 ^ 64 :=
  decodeMessage_stable properties_lawful rfl (properties_coder_stable n)
    properties_length_marshal_le hn hd hb

end EntityProfileDTO.PMProfileDTO

namespace CommodityProfileDTO

theorem properties_coder_stable (n : Nat) : ∀ p ∈ properties.prop, p.coder.Stable n :=
  List.forall_iff_forall_mem.mp ⟨stable_int32 n, stable_float32 n, stable_float32 n,
    stable_float32 n, stable_float32 n, stable_float32 n⟩

theorem properties_length_marshal_le (c : CommodityProfileDTO) :
    (properties.marshal c).1.length ≤ 66 + (properties.unrecognized c).length := by
  refine length_marshal_le properties_lawful (B := 11) (fun f hf => ?_) c
  fin_cases hf <;>
    exact ⟨nofun, FieldProp.length_encodeOne_le (by decide)
      (by first | exact length_encode_int32_le | exact length_encode_float32_le)⟩
theorem message_stable {n : Nat} (hn : n + 66 < 2 ^ 64) : (message properties).Stable n :=
  stable_message properties_lawful rfl (properties_coder_stable n) properties_length_marshal_le hn

end CommodityProfileDTO

namespace DeploymentProfileDTO

/-- Decoding a deployment profile is stable under re-encoding, for every buffer the loop reads
without error. -/
theorem unmarshal_marshal_unmarshal (bs : List UInt8)
    (h : (properties.unmarshalFields bs properties.zero).2 = none) :
    properties.unmarshal (properties.marshal (properties.unmarshal bs).1).1 =
      properties.unmarshal bs :=
  unmarshal_marshal_unmarshal_of_stable properties_lawful rfl
    (List.forall_iff_forall_mem.mp
      ⟨stable_bytes _, stable_bytes _, stable_bytes _, stable_bytes _, stable_bytes _⟩) h

/-- An unknown field 7, a scope and an `id`: the re-encoding decodes to the same profile and
the same missing `profileName`. -/
theorem unmarshal_marshal_unmarshal_scope :
    (properties.unmarshalFields (UnknownField.encodeAll [.varint 7 5] ++ [42, 1, 65, 10, 1, 66])
        properties.zero).2 = none ∧
      properties.unmarshal (properties.marshal (properties.unmarshal
          (UnknownField.encodeAll [.varint 7 5] ++ [42, 1, 65, 10, 1, 66])).1).1 =
        properties.unmarshal (UnknownField.encodeAll [.varint 7 5] ++ [42, 1, 65, 10, 1, 66]) :=
  have h : (properties.unmarshalFields
      (UnknownField.encodeAll [.varint 7 5] ++ [42, 1, 65, 10, 1, 66]) properties.zero).2 =
        none := by
    obtain ⟨s, -, -, -, hrun⟩ := properties.unmarshalFields_encodeAll [.varint 7 5] (by decide)
      (F := fun _ => True) (fun _ _ _ => trivial) properties.zero trivial [42, 1, 65, 10, 1, 66]
    rw [hrun, properties.unmarshalFields_of_readField (List.cons_ne_nil _ _)
        (show properties.readField [42, 1, 65, 10, 1, 66] s =
          ({ s with relatedScopeId := s.relatedScopeId ++ [[65]] }, .ok [10, 1, 66]) from rfl),
      properties.unmarshalFields_of_readField (List.cons_ne_nil _ _)
        (show properties.readField [10, 1, 66]
            { s with relatedScopeId := s.relatedScopeId ++ [[65]] } =
          ({ s with relatedScopeId := s.relatedScopeId ++ [[65]], id := some [66] }, .ok [])
          from rfl), unmarshalFields_nil]
  ⟨h, unmarshal_marshal_unmarshal _ h⟩

end DeploymentProfileDTO

end TurboProfile
