import TurboProfile.Verification.Oneof.LastWriter

/-! # `EntityProfileDTO` through the library

The entity reads back as itself, its oneof and its nested commodity profiles included, and
`proto.Size` counts its encoding, unless a wrapper holds a nil payload. -/

namespace TurboProfile

namespace EntityProfileDTO

open StructProperties ValueCoder

/-! ## The laws of the fields -/

theorem properties_coder_lawful : ∀ p ∈ properties.prop, p.coder.Lawful :=
  List.forall_iff_forall_mem.mp ⟨lawful_bytes, lawful_bytes, lawful_int32,
    lawful_message CommodityProfileDTO.properties_lawful, lawful_bytes, lawful_bytes, lawful_bytes,
    lawful_bool, lawful_bool, lawful_bytes⟩

theorem get_setOneof : ∀ p ∈ properties.prop, ∀ (s : EntityProfileDTO) x,
    p.get { s with vmOrPmProfileData := x } = p.get s := by
  intro p hp; fin_cases hp <;> intros <;> rfl

theorem oneof_store : ∀ p ∈ properties.prop, ∀ s v,
    (p.store s v).vmOrPmProfileData = s.vmOrPmProfileData := by
  intro p hp; fin_cases hp <;> intros <;> rfl

/-- A message is its plain fields, its oneof and its unrecognized bytes. -/
theorem ext_of_get {m m' : EntityProfileDTO} (h : ∀ p ∈ properties.prop, p.get m = p.get m')
    (hu : m.unrecognized = m'.unrecognized) (ho : m.vmOrPmProfileData = m'.vmOrPmProfileData) :
    m = m' := by
  obtain ⟨h₁, h₂, h₃, h₄, h₅, h₆, h₇, h₈, h₉, h₁₀⟩ := List.forall_iff_forall_mem.mpr h
  cases m; cases m'
  simp_all [option_toList_inj]

theorem values_valid_setOneof (x : Option VMOrPMProfileData) :
    ∀ p ∈ properties.prop, ∀ v ∈ p.get { vmOrPmProfileData := x }, p.coder.Valid v :=
  fun p hp v hv => absurd (((get_setOneof p hp properties.zero x).trans
    (properties.get_zero p hp) : p.get { vmOrPmProfileData := x } = []) ▸ hv) (List.not_mem_nil v)

/-! ## The encoder -/

theorem marshal_eq (m : EntityProfileDTO) :
    properties.marshal m =
      match oneofMarshaler m (properties.prop.flatMap (·.encode m)) with
      | (b, some e) => (b, some (if e = .errNil then .oneofHasNil else e))
      | (b, none) => (b ++ m.unrecognized, (properties.missingRequired m).map .requiredNotSet) :=
  rfl

theorem marshal_of_payload {m : EntityProfileDTO}
    (hu : ∀ v ∈ m.vmOrPmProfileData, v.nilError = none) :
    properties.marshal m = (properties.prop.flatMap (·.encode m) ++
      (m.vmOrPmProfileData.map (·.encoding)).getD [] ++ m.unrecognized,
      (properties.missingRequired m).map .requiredNotSet) := by
  rcases hv : m.vmOrPmProfileData with _ | v
  · rw [marshal_eq, oneofMarshaler_of_none hv]
    simp only [Option.map_none', Option.getD_none, List.append_nil]
  · rw [marshal_eq, oneofMarshaler_of_some hv, hu v hv]
    rfl

/-! ## The decoder -/

theorem readField_encoding_of {v : VMOrPMProfileData} (hv : v.PayloadReadsBack)
    (s : EntityProfileDTO) (rest : List UInt8) :
    properties.readField (v.encoding ++ rest) s =
      ({ s with vmOrPmProfileData := some v }, .ok rest) := by
  obtain ⟨key, after, hkey, hw, htag, hun⟩ := oneofUnmarshaler_encoding_of hv s rest
  have h0 : key >>> 3 ≠ 0 := by omega
  have hnone : properties.prop.find? (·.tag = key >>> 3) = none :=
    properties.find?_eq_none (by rcases htag with h | h <;> simp [h, properties])
  rw [hw] at hun
  have ho : properties.oneof.unmarshaler s (key >>> 3) wireBytes after =
      ⟨true, none, { s with vmOrPmProfileData := some v }, rest⟩ := hun
  rw [readField, hkey]
  simp only [hw, show wireBytes ≠ wireEndGroup by decide, h0, hnone, ho, if_false, if_true]

theorem readField_encoding {v : VMOrPMProfileData} (hv : v.Encodable) (s : EntityProfileDTO)
    (rest : List UInt8) :
    properties.readField (v.encoding ++ rest) s =
      ({ s with vmOrPmProfileData := some v }, .ok rest) :=
  readField_encoding_of (VMOrPMProfileData.payloadReadsBack_of_encodable hv) s rest

/-- A variant the decoder reads back from its encoding into the oneof of any entity. -/
def VMOrPMProfileData.ReadsBack (v : VMOrPMProfileData) : Prop :=
  v.nilError = none ∧ ∀ s rest, properties.readField (v.encoding ++ rest) s =
    ({ s with vmOrPmProfileData := some v }, .ok rest)

theorem VMOrPMProfileData.readsBack_of_payloadReadsBack {v : VMOrPMProfileData}
    (hv : v.PayloadReadsBack) : v.ReadsBack := by
  refine ⟨?_, readField_encoding_of hv⟩
  rcases v with (_ | _) | (_ | _) <;> first | exact hv.elim | rfl

theorem VMOrPMProfileData.readsBack_of_encodable {v : VMOrPMProfileData} (hv : v.Encodable) :
    v.ReadsBack :=
  ⟨VMOrPMProfileData.nilError_of_encodable hv, readField_encoding hv⟩

theorem unmarshalFields_oneof {m : EntityProfileDTO}
    (hu : ∀ v ∈ m.vmOrPmProfileData, v.ReadsBack) (s : EntityProfileDTO) (rest : List UInt8) :
    properties.unmarshalFields ((m.vmOrPmProfileData.map (·.encoding)).getD [] ++ rest) s =
      properties.unmarshalFields rest
        { s with vmOrPmProfileData := m.vmOrPmProfileData.or s.vmOrPmProfileData } := by
  rcases hv : m.vmOrPmProfileData with _ | v
  · rfl
  · exact properties.unmarshalFields_of_readField
      (List.append_ne_nil_of_left_ne_nil v.encoding_ne_nil rest) ((hu v hv).2 s rest)

/-! ## The round trip -/

/-- The loop reads the encoding of `m` over `s` without error: it merges the plain fields and
the unrecognized bytes of `m` into those of `s`, and sets the oneof to that of `m`, if set. -/
theorem unmarshalFields_marshal_over_of {m : EntityProfileDTO}
    (hm : properties.ReadsAsUnknown m.unrecognized)
    (hv : ∀ p ∈ properties.prop, ∀ v ∈ p.get m, p.coder.ReadsBack v)
    (hu : ∀ v ∈ m.vmOrPmProfileData, v.ReadsBack) (s : EntityProfileDTO) :
    ∃ c, properties.MergeOf s m c ∧
      c.vmOrPmProfileData = m.vmOrPmProfileData.or s.vmOrPmProfileData ∧
      properties.unmarshalFields (properties.marshal m).1 s = (c, none) := by
  obtain ⟨s₁, hget₁, ⟨hu₁, ho₁⟩, hrun₁⟩ := properties.unmarshalFields_encode_over
    properties_coder_lawful hv
    (F := fun t => t.unrecognized = s.unrecognized ∧ t.vmOrPmProfileData = s.vmOrPmProfileData)
    (fun p hp t v h => ⟨(properties.unrecognized_store p hp t v).trans h.1,
      (oneof_store p hp t v).trans h.2⟩) ⟨rfl, rfl⟩
    ((m.vmOrPmProfileData.map (·.encoding)).getD [] ++ (m.unrecognized ++ []))
  obtain ⟨c, hget, huc, hoc, hrun₃⟩ := hm
    (F := fun t => t.vmOrPmProfileData = m.vmOrPmProfileData.or s.vmOrPmProfileData)
    (fun _ _ h => h) { s₁ with vmOrPmProfileData := m.vmOrPmProfileData.or s.vmOrPmProfileData }
    rfl []
  refine ⟨c, ⟨fun p hp => by rw [hget p hp, get_setOneof p hp, hget₁ p hp], ?_⟩, hoc, ?_⟩
  · rw [huc]
    exact congrArg (· ++ m.unrecognized) hu₁
  · rw [marshal_of_payload fun v hv' => (hu v hv').1, List.append_assoc,
      ← List.append_nil m.unrecognized, hrun₁, unmarshalFields_oneof hu, ho₁, hrun₃,
      unmarshalFields_nil]

theorem unmarshalFields_marshal_over {m : EntityProfileDTO}
    (hm : properties.UnknownFieldsWellFormed m)
    (hv : ∀ p ∈ properties.prop, ∀ v ∈ p.get m, p.coder.Valid v)
    (hu : ∀ v ∈ m.vmOrPmProfileData, v.Encodable) (s : EntityProfileDTO) :
    ∃ c, properties.MergeOf s m c ∧
      c.vmOrPmProfileData = m.vmOrPmProfileData.or s.vmOrPmProfileData ∧
      properties.unmarshalFields (properties.marshal m).1 s = (c, none) :=
  unmarshalFields_marshal_over_of (properties.readsAsUnknown_of_rawUnknown hm)
    (fun p hp v hv' => (properties_coder_lawful p hp).readsBack (hv p hp v hv'))
    (fun v hv' => VMOrPMProfileData.readsBack_of_encodable (hu v hv')) s

theorem unmarshalFields_marshal {m : EntityProfileDTO}
    (hm : properties.UnknownFieldsWellFormed m)
    (hv : ∀ p ∈ properties.prop, ∀ v ∈ p.get m, p.coder.Valid v)
    (hu : ∀ v ∈ m.vmOrPmProfileData, v.Encodable) :
    properties.unmarshalFields (properties.marshal m).1 properties.zero = (m, none) := by
  obtain ⟨c, ⟨hget, huc⟩, hoc, hrun⟩ := unmarshalFields_marshal_over hm hv hu properties.zero
  rw [hrun, ext_of_get (fun p hp => (hget p hp).trans (properties.merge_get_zero hp m))
    huc (hoc.trans Option.or_none)]

/-- Decoding what the library writes for an `EntityProfileDTO` gives it back; the only error is
that of the first nil required field. -/
theorem properties_unmarshal_marshal {m : EntityProfileDTO}
    (hm : properties.UnknownFieldsWellFormed m)
    (hv : ∀ p ∈ properties.prop, ∀ v ∈ p.get m, p.coder.Valid v)
    (hu : ∀ v ∈ m.vmOrPmProfileData, v.Encodable) :
    properties.unmarshal (properties.marshal m).1 =
      (m, (properties.missingRequired m).map .requiredNotSet) := by
  rw [unmarshal, unmarshalFields_marshal hm hv hu]

/-- An entity profile with a name, one commodity profile and a VM payload. -/
def sampleEntityProfile : EntityProfileDTO where
  id := some [101, 49]
  commodityProfile := [{ commodityType := some ⟨2, by decide, by decide⟩ }]
  vmOrPmProfileData := some (.vmProfileDTO (some {}))

theorem sampleEntityProfile_values_valid :
    ∀ p ∈ properties.prop, ∀ v ∈ p.get sampleEntityProfile, p.coder.Valid v := by
  refine List.forall_iff_forall_mem.mp ⟨by decide, by decide, by decide,
    List.forall_iff_forall_mem.mp ⟨⟨⟨[], rfl, nofun⟩, List.forall_iff_forall_mem.mp
      ⟨fun _ _ => trivial, fun _ _ => trivial, fun _ _ => trivial, fun _ _ => trivial,
        fun _ _ => trivial, fun _ _ => trivial⟩, ?_⟩, rfl⟩,
    by decide, by decide, by decide, by decide, by decide, by unfold List.Forall; decide⟩
  rw [CommodityProfileDTO.properties_lawful.marshal_eq]
  simp [CommodityProfileDTO.properties, FieldProp.encode, FieldProp.encodeOne,
    encodeVarint_of_lt, fieldKey, Int32.toUInt64]

theorem sampleEntityProfile_encodable :
    ∀ v ∈ sampleEntityProfile.vmOrPmProfileData, v.Encodable := by
  simp [sampleEntityProfile, VMOrPMProfileData.Encodable]
  exact ⟨⟨[], rfl, nofun⟩, by decide⟩

theorem properties_unmarshal_marshal_sample :
    properties.unmarshal (properties.marshal sampleEntityProfile).1 =
      (sampleEntityProfile, (properties.missingRequired sampleEntityProfile).map .requiredNotSet) :=
  properties_unmarshal_marshal ⟨[], rfl, nofun⟩ sampleEntityProfile_values_valid
    sampleEntityProfile_encodable

/-- The decoder never leaves a wrapper around a nil payload in the oneof. -/
theorem nilError_unmarshalFields (bs : List UInt8) {s : EntityProfileDTO}
    (hs : ∀ v ∈ s.vmOrPmProfileData, v.nilError = none) :
    ∀ v ∈ (properties.unmarshalFields bs s).1.vmOrPmProfileData, v.nilError = none := by
  refine properties.unmarshalFields_frame
    (F := fun t => ∀ v ∈ t.vmOrPmProfileData, v.nilError = none)
    (fun p hp t x ht v hv => ht v (oneof_store p hp t x ▸ hv)) (fun _ _ ht => ht)
    (fun t tag wire b ht => ?_) bs hs
  rcases oneofUnmarshaler_cases t tag wire b with ⟨-, -, h⟩ | ⟨-, -, h | ⟨v, hv, h⟩⟩
  · exact (congrArg (·.msg) h).symm ▸ ht
  · exact h.symm ▸ ht
  · intro w hw
    change w ∈ (oneofUnmarshaler t tag wire b).msg.vmOrPmProfileData at hw
    rw [h, Option.mem_def, Option.some_inj] at hw
    exact hw ▸ hv

/-- Re-encoding what the decoder returns, with or without an error, writes its fields verbatim
and reports at most its first nil required field, never `errOneofHasNil`. -/
theorem properties_marshal_unmarshal (bs : List UInt8) :
    properties.marshal (properties.unmarshal bs).1 =
      (properties.prop.flatMap (·.encode (properties.unmarshal bs).1) ++
        ((properties.unmarshal bs).1.vmOrPmProfileData.map (·.encoding)).getD [] ++
        (properties.unmarshal bs).1.unrecognized,
        (properties.missingRequired (properties.unmarshal bs).1).map .requiredNotSet) := by
  refine marshal_of_payload ?_
  rw [properties.unmarshal_fst bs]
  exact nilError_unmarshalFields bs fun _ h => nomatch h

/-- Re-encoding is idempotent: the decoded message is written as the bytes it came from. -/
theorem properties_marshal_unmarshal_marshal {m : EntityProfileDTO}
    (hm : properties.UnknownFieldsWellFormed m)
    (hv : ∀ p ∈ properties.prop, ∀ v ∈ p.get m, p.coder.Valid v)
    (hu : ∀ v ∈ m.vmOrPmProfileData, v.Encodable) :
    properties.marshal (properties.unmarshal (properties.marshal m).1).1 =
      properties.marshal m := by
  rw [unmarshal, unmarshalFields_marshal hm hv hu]

theorem properties_marshal_unmarshal_marshal_sample :
    properties.marshal (properties.unmarshal (properties.marshal sampleEntityProfile).1).1 =
      properties.marshal sampleEntityProfile :=
  properties_marshal_unmarshal_marshal ⟨[], rfl, nofun⟩ sampleEntityProfile_values_valid
    sampleEntityProfile_encodable

/-! ## Sizes -/

/-- `proto.Size` counts the bytes the library writes, as long as no wrapper holds a nil payload. -/
theorem properties_size_eq_length_marshal (m : EntityProfileDTO)
    (hu : ∀ v ∈ m.vmOrPmProfileData, v ≠ .vmProfileDTO none ∧ v ≠ .pmProfileDTO none) :
    properties.size m = (properties.marshal m).1.length := by
  have hnil : ∀ v ∈ m.vmOrPmProfileData, v.nilError = none := fun v hv => by
    have := hu v hv
    rcases v with (_ | _) | (_ | _)
    · exact absurd rfl this.1
    · rfl
    · exact absurd rfl this.2
    · rfl
  have hsizer :
      properties.oneof.sizer m = ((m.vmOrPmProfileData.map (·.encoding)).getD []).length := by
    show oneofSizer m = _
    rcases hv : m.vmOrPmProfileData with _ | v
    · simp only [oneofSizer, hv, Option.map_none', Option.getD_none, List.length_nil]
    · rw [oneofSizer_of_some hv (hu v hv)]
      rfl
  rw [marshal_of_payload hnil, StructProperties.size, hsizer, List.length_append,
    List.length_append, length_flatMap_encode properties_coder_lawful]
  show _ + m.unrecognized.length + _ = _
  omega

theorem properties_size_eq_length_marshal_sample :
    properties.size sampleEntityProfile = (properties.marshal sampleEntityProfile).1.length :=
  properties_size_eq_length_marshal sampleEntityProfile (by simp [sampleEntityProfile])

/-- A wrapper holding a nil payload: the marshaler appends the key alone and returns `ErrNil`,
the sizer counts two bytes, and encoding the entity fails with `errOneofHasNil`. -/
theorem oneofSizer_nil_payload (m : EntityProfileDTO)
    (hv : m.vmOrPmProfileData = some (.vmProfileDTO none) ∨
      m.vmOrPmProfileData = some (.pmProfileDTO none)) (b : List UInt8) :
    (oneofMarshaler m b).1.length = b.length + 1 ∧ (oneofMarshaler m b).2 = some .errNil ∧
      oneofSizer m = 2 ∧ (properties.marshal m).2 = some .oneofHasNil := by
  rcases hv with hv | hv <;>
  · refine ⟨?_, ?_, ?_, by rw [marshal_eq, oneofMarshaler_of_some hv]; rfl⟩
    · rw [oneofMarshaler_of_some hv]
      simp [VMOrPMProfileData.encoding, encodeVarint_of_lt]
    · rw [oneofMarshaler_of_some hv]
      rfl
    · simp only [oneofSizer, hv, protoSize, vmKey_eq, pmKey_eq,
        sizeVarint_of_lt (show (66 : Nat) < 128 by decide),
        sizeVarint_of_lt (show (74 : Nat) < 128 by decide),
        sizeVarint_of_lt (show (0 : Nat) < 128 by decide)]

/-! ## Required fields -/

/-- The required fields of `EntityProfileDTO`, in tag order. -/
theorem missingRequired_eq (m : EntityProfileDTO) :
    properties.missingRequired m =
      if m.id = none then some "id"
      else if m.displayName = none then some "displayName"
      else if m.entityType = none then some "entityType"
      else none := by
  obtain ⟨_ | _, _ | _, _ | _⟩ := m <;> rfl

/-- After the loop, the decoder names the first of `id`, `displayName`, `entityType` left nil. -/
theorem properties_unmarshal_requiredNotSet (bs : List UInt8)
    (h : (properties.unmarshalFields bs properties.zero).2 = none) :
    properties.unmarshal bs =
      let s := (properties.unmarshalFields bs properties.zero).1
      (s, if s.id = none then some (.requiredNotSet "id")
        else if s.displayName = none then some (.requiredNotSet "displayName")
        else if s.entityType = none then some (.requiredNotSet "entityType")
        else none) := by
  rw [unmarshal]
  rcases hrun : properties.unmarshalFields bs properties.zero with ⟨s, _ | e⟩
  · simp only [missingRequired_eq]
    split_ifs <;> rfl
  · rw [hrun] at h
    cases h

end EntityProfileDTO

end TurboProfile
