import TurboProfile.Verification.Message.Decode
import TurboProfile.Verification.Entity.RoundTrip
import TurboProfile.Verification.Oneof.LastWriter

/-! # The fields of an `EntityProfileDTO` buffer

The encoder writes the plain fields in tag order, then the variant under number 8 or 9, then
the unrecognized fields. A buffer without field 1 decodes to an entity without `id`. -/

namespace TurboProfile

namespace EntityProfileDTO

open StructProperties ValueCoder

/-- The field number under which the oneof marshaler writes a variant. -/
def VMOrPMProfileData.tag : VMOrPMProfileData → Nat
  | .vmProfileDTO _ => 8
  | .pmProfileDTO _ => 9

theorem VMOrPMProfileData.tag_mem_oneof_tags (v : VMOrPMProfileData) :
    v.tag ∈ properties.oneof.tags := by
  cases v
  · exact List.mem_cons_self _ _
  · exact List.mem_cons_of_mem _ (List.mem_cons_self _ _)

theorem properties_coder_skipsLikeDecode : ∀ p ∈ properties.prop, p.coder.SkipsLikeDecode :=
  List.forall_iff_forall_mem.mp ⟨skipsLikeDecode_bytes, skipsLikeDecode_bytes,
    skipsLikeDecode_int32, skipsLikeDecode_message _, skipsLikeDecode_bytes, skipsLikeDecode_bytes,
    skipsLikeDecode_bytes, skipsLikeDecode_bool, skipsLikeDecode_bool, skipsLikeDecode_bytes⟩

theorem properties_oneof_skipsLikeUnmarshal : properties.oneof.SkipsLikeUnmarshal := by
  intro m tag wire b hh herr
  change (oneofUnmarshaler m tag wire b).handled at hh
  change (oneofUnmarshaler m tag wire b).err = none at herr
  change (skip wire b).map (·.1) = .ok (oneofUnmarshaler m tag wire b).rest
  by_cases htag : tag = 8 ∨ tag = 9
  · by_cases hw : wire = wireBytes
    · subst hw
      rcases htag with rfl | rfl
      · exact VMProfileDTO.properties.decodeMessage_skip herr
      · exact PMProfileDTO.properties.decodeMessage_skip herr
    · rw [oneofUnmarshaler_of_bad_wire htag hw] at herr
      cases herr
  · rw [not_or] at htag
    rw [oneofUnmarshaler_of_not_variant htag.1 htag.2] at hh
    cases hh

theorem properties_oneof_get : ∀ p ∈ properties.prop, ∀ m tag wire b,
    p.get (properties.oneof.unmarshaler m tag wire b).msg = p.get m := by
  intro p hp m tag wire b
  rcases oneofUnmarshaler_cases m tag wire b with ⟨-, -, h⟩ | ⟨-, -, h | ⟨v, -, h⟩⟩
  · exact congrArg (p.get ·.msg) h
  · exact congrArg p.get h
  · exact (congrArg p.get h).trans (get_setOneof p hp m _)

theorem properties_oneof_unrecognized : ∀ m tag wire b,
    properties.unrecognized (properties.oneof.unmarshaler m tag wire b).msg =
      properties.unrecognized m := by
  intro m tag wire b
  rcases oneofUnmarshaler_cases m tag wire b with ⟨-, -, h⟩ | ⟨-, -, h | ⟨v, -, h⟩⟩
  · exact congrArg (·.msg.unrecognized) h
  · exact congrArg (·.unrecognized) h
  · exact congrArg (·.unrecognized) h

theorem properties_oneof_handled : ∀ m tag wire b, tag ∈ properties.oneof.tags →
    (properties.oneof.unmarshaler m tag wire b).handled := by
  intro m tag wire b htag
  rcases oneofUnmarshaler_cases m tag wire b with ⟨h8, h9, -⟩ | ⟨-, hh, -⟩
  · simp only [properties, oneofFuncs, List.mem_cons, List.not_mem_nil, or_false] at htag
    omega
  · exact hh

/-! ## The encoder -/

theorem fieldNumbers_encoding {v : VMOrPMProfileData} (hv : v.Encodable) (rest : List UInt8) :
    fieldNumbers (v.encoding ++ rest) = (fieldNumbers rest).map (v.tag :: ·) := by
  rcases v with (_ | p) | (_ | q)
  · exact hv.elim
  · rw [VMOrPMProfileData.encoding, List.append_assoc,
      fieldNumbers_of_skip (decodeVarint_encodeVarint (by decide) _)
        (skip_bytes (decodeRawBytes_encode hv.2 rest))]
    rfl
  · exact hv.elim
  · rw [VMOrPMProfileData.encoding, List.append_assoc,
      fieldNumbers_of_skip (decodeVarint_encodeVarint (by decide) _)
        (skip_bytes (decodeRawBytes_encode hv.2 rest))]
    rfl

/-- The fields the library writes for an entity: the plain fields in tag order, the variant,
then the unrecognized fields. -/
theorem fieldNumbers_marshal {m : EntityProfileDTO} {fs : List (Nat × List UInt8)}
    (hfs : ∀ f ∈ fs, IsField f) (hunrec : m.unrecognized = fs.flatMap (·.2))
    (hv : ∀ p ∈ properties.prop, ∀ v ∈ p.get m, p.coder.Valid v)
    (hu : ∀ v ∈ m.vmOrPmProfileData, v.Encodable) :
    fieldNumbers (properties.marshal m).1 =
      some (properties.prop.flatMap (fun p => (p.get m).map fun _ => p.tag) ++
        (m.vmOrPmProfileData.map (·.tag)).toList ++ fs.map (·.1)) := by
  have hfa : fieldNumbers (fs.flatMap (·.2)) = some (fs.map (·.1)) := by
    simpa using fieldNumbers_flatMap_isField hfs []
  have honeof : fieldNumbers ((m.vmOrPmProfileData.map (·.encoding)).getD [] ++
      fs.flatMap (·.2)) =
      some ((m.vmOrPmProfileData.map (·.tag)).toList ++ fs.map (·.1)) := by
    rcases hmv : m.vmOrPmProfileData with _ | v
    · simpa using hfa
    · simp only [Option.map_some', Option.getD_some, Option.toList_some]
      rw [fieldNumbers_encoding (hu v hmv), hfa]
      rfl
  rw [marshal_of_payload fun v hv' => VMOrPMProfileData.nilError_of_encodable (hu v hv'),
    hunrec, List.append_assoc,
    fieldNumbers_flatMap_encode properties_coder_lawful properties_coder_skipsLikeDecode hv _
      (fun _ hp => hp), honeof]
  simp

/-- Variant exclusivity on the wire: the encoding of an entity holds one field numbered 8 or 9
when its oneof is set, and none otherwise. -/
theorem properties_marshal_variant_count {m : EntityProfileDTO}
    (hm : properties.UnknownFieldsWellFormed m)
    (hv : ∀ p ∈ properties.prop, ∀ v ∈ p.get m, p.coder.Valid v)
    (hu : ∀ v ∈ m.vmOrPmProfileData, v.Encodable) :
    ∃ ns, fieldNumbers (properties.marshal m).1 = some ns ∧
      ns.count 8 + ns.count 9 = if m.vmOrPmProfileData = none then 0 else 1 := by
  obtain ⟨fs, hunrec, hfs⟩ := hm
  refine ⟨_, fieldNumbers_marshal (fun f hf => (hfs f hf).1) hunrec hv hu, ?_⟩
  have hoff : ∀ n ∈ properties.oneof.tags, n ∉ properties.prop.flatMap
      (fun p => (p.get m).map fun _ => p.tag) ∧ n ∉ fs.map (·.1) := by
    intro n hn
    constructor
    · simp only [List.mem_flatMap, List.mem_map, not_exists, not_and]
      intro p hp _ _ hpn
      exact tag_not_mem_oneof_tags hp (hpn ▸ hn)
    · simp only [List.mem_map, not_exists, not_and]
      intro f hf hfn
      exact (hfs f hf).2.2 (hfn ▸ List.mem_append_right _ hn)
  obtain ⟨h8p, h8u⟩ := hoff 8 (by decide)
  obtain ⟨h9p, h9u⟩ := hoff 9 (by decide)
  simp only [List.count_append, List.count_eq_zero.mpr h8p, List.count_eq_zero.mpr h8u,
    List.count_eq_zero.mpr h9p, List.count_eq_zero.mpr h9u]
  rcases m.vmOrPmProfileData with _ | (_ | _) | (_ | _) <;> rfl

/-- An entity with a VM payload. -/
theorem properties_marshal_variant_count_vm :
    ∃ ns, fieldNumbers (properties.marshal
        { vmOrPmProfileData := some (.vmProfileDTO (some {})) }).1 = some ns ∧
      ns.count 8 + ns.count 9 =
        if (({ vmOrPmProfileData := some (.vmProfileDTO (some {})) } : EntityProfileDTO)
          ).vmOrPmProfileData = none then 0 else 1 :=
  properties_marshal_variant_count ⟨[], rfl, nofun⟩
    (values_valid_setOneof _)
    (by simp; exact ⟨⟨[], rfl, nofun⟩, by decide⟩)

/-! ## The decoder -/

/-- A buffer read without error that holds no field 1 decodes to an entity without `id`, and
the decoder reports `RequiredNotSet("id")`. -/
theorem properties_unmarshal_without_id (bs : List UInt8) {ns : List Nat}
    (hns : fieldNumbers bs = some ns) (h1 : 1 ∉ ns)
    (h : (properties.unmarshalFields bs properties.zero).2 = none) :
    (properties.unmarshal bs).2 = some (.requiredNotSet "id") := by
  obtain ⟨p, hp, htag, hget⟩ : ∃ p ∈ properties.prop, p.tag = 1 ∧
      ∀ m : EntityProfileDTO, p.get m = [] ↔ m.id = none :=
    ⟨_, List.mem_cons_self _ _, rfl, fun m => by cases h : m.id <;> simp [h]⟩
  have hid := get_unmarshalFields_of_not_mem properties_coder_skipsLikeDecode
    properties_oneof_skipsLikeUnmarshal properties_oneof_get hp bs properties.zero hns (htag ▸ h1)
  rw [unmarshal]
  rcases hrun : properties.unmarshalFields bs properties.zero with ⟨s, _ | e⟩
  · rw [hrun] at hid
    have hs : s.id = none := (hget s).mp (hid.trans ((hget _).mpr rfl))
    simp only [missingRequired_eq, hs, if_true, Option.map_some']
  · rw [hrun] at h
    cases h

/-- Unknown-field preservation: the unrecognized bytes of the decoded entity are the fields of
the buffer with undeclared numbers, verbatim and in order, and nothing else. -/
theorem properties_unmarshal_unrecognized (bs : List UInt8)
    (h : (properties.unmarshalFields bs properties.zero).2 = none) :
    ∃ fs, fieldBytes bs = some fs ∧
      (properties.unmarshal bs).1.unrecognized =
        (fs.filter fun f => f.1 ∉ properties.tags).flatMap (·.2) := by
  obtain ⟨fs, hfs, hu⟩ := unrecognized_unmarshalFields properties_coder_skipsLikeDecode
    properties_oneof_skipsLikeUnmarshal properties_oneof_unrecognized properties_oneof_handled bs
    properties.zero h
  exact ⟨fs, hfs, by rw [properties.unmarshal_fst bs]; exact hu⟩

/-- A field numbered 13, as in a newer schema, before a `displayName`. -/
theorem properties_unmarshal_unrecognized_13 :
    (properties.unmarshalFields (UnknownField.encodeAll [.varint 13 1] ++ [18, 1, 65])
        properties.zero).2 = none ∧
      ∃ fs, fieldBytes (UnknownField.encodeAll [.varint 13 1] ++ [18, 1, 65]) = some fs ∧
        (properties.unmarshal
            (UnknownField.encodeAll [.varint 13 1] ++ [18, 1, 65])).1.unrecognized =
          (fs.filter fun f => f.1 ∉ properties.tags).flatMap (·.2) :=
  have h : (properties.unmarshalFields (UnknownField.encodeAll [.varint 13 1] ++ [18, 1, 65])
      properties.zero).2 = none := by
    obtain ⟨s, -, -, -, hrun⟩ := properties.unmarshalFields_encodeAll [.varint 13 1] (by decide)
      (F := fun _ => True) (fun _ _ _ => trivial) properties.zero trivial [18, 1, 65]
    rw [hrun, properties.unmarshalFields_of_readField (List.cons_ne_nil _ _)
      (show properties.readField [18, 1, 65] s = ({ s with displayName := some [65] }, .ok [])
        from rfl), unmarshalFields_nil]
  ⟨h, properties_unmarshal_unrecognized _ h⟩

theorem fieldNumbers_displayName : fieldNumbers [18, 1, 65] = some [2] := by
  rw [fieldNumbers_of_skip (show decodeVarint [18, 1, 65] = .ok (18, [1, 65]) from rfl)
    (skip_bytes (show decodeRawBytes [1, 65] = .ok ([65], []) from rfl)), fieldNumbers_nil]
  rfl

theorem properties_unmarshal_without_id_displayName :
    fieldNumbers [18, 1, 65] = some [2] ∧ 1 ∉ [2] ∧
      (properties.unmarshalFields [18, 1, 65] properties.zero).2 = none ∧
      (properties.unmarshal [18, 1, 65]).2 = some (.requiredNotSet "id") := by
  have hns := fieldNumbers_displayName
  have hrun : (properties.unmarshalFields [18, 1, 65] properties.zero).2 = none := by
    rw [properties.unmarshalFields_of_readField (List.cons_ne_nil _ _)
      (show properties.readField [18, 1, 65] properties.zero =
        ({ displayName := some [65] }, .ok []) from rfl)]
    simp
  exact ⟨hns, by decide, hrun, properties_unmarshal_without_id _ hns (by decide) hrun⟩

end EntityProfileDTO

end TurboProfile
