import TurboProfile.Verification.Payloads
import TurboProfile.Model.ProfileDTO

/-! # The oneof marshaler, sizer and unmarshaler agree

The marshaler writes the variant of `VMOrPMProfileData` under key `8<<3|2` or `9<<3|2`; the
sizer counts those bytes from `proto.Size` of the payload; the unmarshaler, given the number
and wire type of that key, maps it back to the same variant and decodes the same payload. -/

namespace TurboProfile

namespace EntityProfileDTO

open StructProperties

/-- A variant the codec carries through unchanged: a non-nil payload whose unrecognized bytes
are whole fields, in any encoding, of numbers the payload type does not declare, and whose
encoding fits the `uint64` length in front of it. -/
def VMOrPMProfileData.Encodable : VMOrPMProfileData → Prop
  | .vmProfileDTO (some p) =>
    VMProfileDTO.properties.UnknownFieldsWellFormed p ∧
      (VMProfileDTO.properties.marshal p).1.length < 2 ^ 64
  | .pmProfileDTO (some q) =>
    PMProfileDTO.properties.UnknownFieldsWellFormed q ∧
      (PMProfileDTO.properties.marshal q).1.length < 2 ^ 64
  | _ => False

theorem vmKey_eq : (8 <<< 3 ||| wireBytes : Nat) = 66 := by decide

theorem pmKey_eq : (9 <<< 3 ||| wireBytes : Nat) = 74 := by decide

namespace VMOrPMProfileData

/-- The bytes the oneof marshaler appends for a variant: its key, then its length-prefixed
payload; a nil payload gets its key alone. -/
def encoding : VMOrPMProfileData → List UInt8
  | .vmProfileDTO (some p) => encodeVarint 66 ++
    (encodeVarint (VMProfileDTO.properties.marshal p).1.length ++
      (VMProfileDTO.properties.marshal p).1)
  | .pmProfileDTO (some q) => encodeVarint 74 ++
    (encodeVarint (PMProfileDTO.properties.marshal q).1.length ++
      (PMProfileDTO.properties.marshal q).1)
  | .vmProfileDTO none => encodeVarint 66
  | .pmProfileDTO none => encodeVarint 74

/-- The error the oneof marshaler returns for a variant: `ErrNil` for a nil payload. -/
def nilError : VMOrPMProfileData → Option ProtoError
  | .vmProfileDTO none | .pmProfileDTO none => some .errNil
  | _ => none

theorem encoding_ne_nil (v : VMOrPMProfileData) : v.encoding ≠ [] := by
  rcases v with (_ | _) | (_ | _) <;> simp [encoding, encodeVarint_ne_nil]

theorem nilError_of_encodable {v : VMOrPMProfileData} (hv : v.Encodable) : v.nilError = none := by
  rcases v with (_ | _) | (_ | _)
  · exact hv.elim
  · rfl
  · exact hv.elim
  · rfl

end VMOrPMProfileData

/-! ## One spec lemma per oneof function -/

theorem oneofMarshaler_of_none {m : EntityProfileDTO} (hv : m.vmOrPmProfileData = none)
    (b : List UInt8) : oneofMarshaler m b = (b, none) := by
  simp only [oneofMarshaler, hv]

theorem oneofMarshaler_of_some {m : EntityProfileDTO} {v : VMOrPMProfileData}
    (hv : m.vmOrPmProfileData = some v) (b : List UInt8) :
    oneofMarshaler m b = (b ++ v.encoding, v.nilError) := by
  rcases v with (_ | p) | (_ | q) <;>
    simp only [oneofMarshaler, hv, encodeMessage, vmKey_eq, pmKey_eq, List.append_assoc,
      VMOrPMProfileData.encoding, VMOrPMProfileData.nilError,
      VMProfileDTO.properties_marshal_snd, PMProfileDTO.properties_marshal_snd]

theorem oneofSizer_of_some {m : EntityProfileDTO} {v : VMOrPMProfileData}
    (hv : m.vmOrPmProfileData = some v) (h : v ≠ .vmProfileDTO none ∧ v ≠ .pmProfileDTO none) :
    oneofSizer m = v.encoding.length := by
  rcases v with (_ | p) | (_ | q)
  · exact absurd rfl h.1
  · simp only [oneofSizer, hv, protoSize, size_eq_length_marshal VMProfileDTO.properties_lawful,
      vmKey_eq, VMOrPMProfileData.encoding, List.length_append, length_encodeVarint]
    omega
  · exact absurd rfl h.2
  · simp only [oneofSizer, hv, protoSize, size_eq_length_marshal PMProfileDTO.properties_lawful,
      pmKey_eq, VMOrPMProfileData.encoding, List.length_append, length_encodeVarint]
    omega

/-- A variant whose payload decodes from its encoding to itself, without error, and whose
encoding fits a `uint64` length. -/
def VMOrPMProfileData.PayloadReadsBack : VMOrPMProfileData → Prop
  | .vmProfileDTO (some p) =>
    VMProfileDTO.properties.unmarshal (VMProfileDTO.properties.marshal p).1 = (p, none) ∧
      (VMProfileDTO.properties.marshal p).1.length < 2 ^ 64
  | .pmProfileDTO (some q) =>
    PMProfileDTO.properties.unmarshal (PMProfileDTO.properties.marshal q).1 = (q, none) ∧
      (PMProfileDTO.properties.marshal q).1.length < 2 ^ 64
  | _ => False

theorem VMOrPMProfileData.payloadReadsBack_of_encodable {v : VMOrPMProfileData}
    (hv : v.Encodable) : v.PayloadReadsBack := by
  rcases v with (_ | p) | (_ | q)
  · exact hv.elim
  · refine ⟨?_, hv.2⟩
    rw [unmarshal_marshal VMProfileDTO.properties_lawful (VMProfileDTO.properties_valid hv.1 hv.2),
      VMProfileDTO.properties_missingRequired]
    rfl
  · exact hv.elim
  · refine ⟨?_, hv.2⟩
    rw [unmarshal_marshal PMProfileDTO.properties_lawful (PMProfileDTO.properties_valid hv.1 hv.2),
      PMProfileDTO.properties_missingRequired]
    rfl

theorem oneofUnmarshaler_encoding_of {v : VMOrPMProfileData} (hv : v.PayloadReadsBack)
    (s : EntityProfileDTO) (rest : List UInt8) :
    ∃ key after, decodeVarint (v.encoding ++ rest) = .ok (key, after) ∧
      key &&& 7 = wireBytes ∧ (key >>> 3 = 8 ∨ key >>> 3 = 9) ∧
      oneofUnmarshaler s (key >>> 3) (key &&& 7) after =
        ⟨true, none, { s with vmOrPmProfileData := some v }, rest⟩ := by
  rcases v with (_ | p) | (_ | q)
  · exact hv.elim
  · obtain ⟨hrt, hlen⟩ := hv
    refine ⟨66, _, by rw [VMOrPMProfileData.encoding, List.append_assoc,
      decodeVarint_encodeVarint (by decide)], rfl, .inl rfl, ?_⟩
    simp only [oneofUnmarshaler, show (66 : Nat) >>> 3 = 8 from rfl,
      show (66 : Nat) &&& 7 = 2 from rfl, ← List.append_assoc, decodeMessage,
      decodeRawBytes_encode hlen, hrt]
    rfl
  · exact hv.elim
  · obtain ⟨hrt, hlen⟩ := hv
    refine ⟨74, _, by rw [VMOrPMProfileData.encoding, List.append_assoc,
      decodeVarint_encodeVarint (by decide)], rfl, .inr rfl, ?_⟩
    simp only [oneofUnmarshaler, show (74 : Nat) >>> 3 = 9 from rfl,
      show (74 : Nat) &&& 7 = 2 from rfl, ← List.append_assoc, decodeMessage,
      decodeRawBytes_encode hlen, hrt]
    rfl

/-- The key of an encodable variant reads back with wire type `WireBytes`, and the unmarshaler
decodes the payload and stops right after it. -/
theorem oneofUnmarshaler_encoding {v : VMOrPMProfileData} (hv : v.Encodable)
    (s : EntityProfileDTO) (rest : List UInt8) :
    ∃ key after, decodeVarint (v.encoding ++ rest) = .ok (key, after) ∧
      key &&& 7 = wireBytes ∧ (key >>> 3 = 8 ∨ key >>> 3 = 9) ∧
      oneofUnmarshaler s (key >>> 3) (key &&& 7) after =
        ⟨true, none, { s with vmOrPmProfileData := some v }, rest⟩ :=
  oneofUnmarshaler_encoding_of (VMOrPMProfileData.payloadReadsBack_of_encodable hv) s rest

/-! ## Marshaler, unmarshaler and sizer agree -/

/-- Every variant the marshaler writes, with its payload, reads back as itself. -/
theorem oneofUnmarshaler_oneofMarshaler (u : Option VMOrPMProfileData)
    (hu : ∀ v ∈ u, v.Encodable) (m : EntityProfileDTO) (b rest : List UInt8) :
    ∃ out, oneofMarshaler { m with vmOrPmProfileData := u } b = (b ++ out, none) ∧
      (u = none → out = []) ∧
      (u ≠ none → ∃ key after, decodeVarint (out ++ rest) = .ok (key, after) ∧
        oneofUnmarshaler { m with vmOrPmProfileData := none } (key >>> 3) (key &&& 7) after =
          ⟨true, none, { m with vmOrPmProfileData := u }, rest⟩) := by
  rcases u with _ | v
  · exact ⟨[], by rw [oneofMarshaler_of_none rfl, List.append_nil], fun _ => rfl,
      fun h => absurd rfl h⟩
  · obtain ⟨key, after, hkey, -, -, hun⟩ := oneofUnmarshaler_encoding (hu v rfl)
      { m with vmOrPmProfileData := none } rest
    refine ⟨v.encoding, ?_, (fun h => nomatch h), fun _ => ⟨key, after, hkey, hun⟩⟩
    rw [oneofMarshaler_of_some rfl, VMOrPMProfileData.nilError_of_encodable (hu v rfl)]

/-- A VM payload with a negative `numVCPUs`, a `vCPUSpeed`, two canonical unknown fields and a
field 13 whose value 1 is an overlong two-byte varint. -/
def sampleVMProfile : VMProfileDTO where
  numVCPUs := some ⟨-2, by decide, by decide⟩
  vCPUSpeed := some ⟨0x45160000⟩
  unrecognized :=
    UnknownField.encodeAll [.varint 7 300, .group 20 [.bytes 1 [1, 2, 3]]] ++ [104, 129, 0]

theorem oneofUnmarshaler_oneofMarshaler_sample :
    ∃ out, oneofMarshaler { ({} : EntityProfileDTO) with
        vmOrPmProfileData := some (.vmProfileDTO (some sampleVMProfile)) } [] = ([] ++ out, none) ∧
      (some (VMOrPMProfileData.vmProfileDTO (some sampleVMProfile)) = none → out = []) ∧
      (some (VMOrPMProfileData.vmProfileDTO (some sampleVMProfile)) ≠ none →
        ∃ key after, decodeVarint (out ++ []) = .ok (key, after) ∧
          oneofUnmarshaler { ({} : EntityProfileDTO) with vmOrPmProfileData := none } (key >>> 3)
              (key &&& 7) after =
            ⟨true, none, { ({} : EntityProfileDTO) with
              vmOrPmProfileData := some (.vmProfileDTO (some sampleVMProfile)) }, []⟩) :=
  oneofUnmarshaler_oneofMarshaler _ (by
    rintro v ⟨⟩
    refine ⟨VMProfileDTO.properties.rawUnknown_append
      (VMProfileDTO.properties.rawUnknown_encodeAll (by decide))
      ⟨[(13, [104, 129, 0])], rfl, by
        simp only [List.mem_singleton, forall_eq]
        exact ⟨⟨104, [129, 0], rfl, rfl, skip_varint (u := 1) rfl⟩, by decide, by decide⟩⟩, ?_⟩
    rw [VMProfileDTO.properties_lawful.marshal_eq]
    simp [sampleVMProfile, VMProfileDTO.properties, FieldProp.encode, FieldProp.encodeOne,
      encodeVarint_of_lt, encodeVarint_of_ge, encodeFixed32, fieldKey, UnknownField.encodeAll,
      UnknownField.payload, UnknownField.tag, UnknownField.wire, wireVarint, wireFixed32,
      wireBytes, wireStartGroup, wireEndGroup, Int32.toUInt64]) {} [] []

/-- The sizer counts exactly the bytes the marshaler appends, and the marshaler succeeds, as
long as a wrapper holds a non-nil payload. -/
theorem oneofSizer_eq_length_oneofMarshaler (m : EntityProfileDTO)
    (hm : ∀ v ∈ m.vmOrPmProfileData, v ≠ .vmProfileDTO none ∧ v ≠ .pmProfileDTO none)
    (b : List UInt8) :
    ∃ out, oneofMarshaler m b = (b ++ out, none) ∧ oneofSizer m = out.length := by
  rcases hv : m.vmOrPmProfileData with _ | v
  · exact ⟨[], by rw [oneofMarshaler_of_none hv, List.append_nil], by simp [oneofSizer, hv]⟩
  · have h := hm v hv
    have hnil : v.nilError = none := by
      rcases v with (_ | _) | (_ | _) <;> first | exact absurd rfl h.1 | exact absurd rfl h.2 | rfl
    exact ⟨v.encoding, by rw [oneofMarshaler_of_some hv, hnil], oneofSizer_of_some hv h⟩

/-- A PM payload with 130 unrecognized bytes, whose length prefix takes two bytes. -/
def samplePMProfile : PMProfileDTO where
  numCores := some ⟨16, by decide, by decide⟩
  unrecognized := List.replicate 130 0

theorem oneofSizer_eq_length_oneofMarshaler_sample :
    ∃ out, oneofMarshaler { vmOrPmProfileData := some (.pmProfileDTO (some samplePMProfile)) } [] =
        ([] ++ out, none) ∧
      oneofSizer { vmOrPmProfileData := some (.pmProfileDTO (some samplePMProfile)) } =
        out.length :=
  oneofSizer_eq_length_oneofMarshaler _ (by simp) []

end EntityProfileDTO

end TurboProfile
