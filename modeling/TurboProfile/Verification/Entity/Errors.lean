import TurboProfile.Verification.Message.Errors
import TurboProfile.Verification.Entity.Fields

/-! # Decoding errors of `EntityProfileDTO`

A field the decoder fails on changes only the oneof. A variant whose payload runs past the end
of the buffer does change it: `_EntityProfileDTO_OneofUnmarshaler` assigns the wrapper of the
fresh payload before it returns the error of `DecodeMessage`. -/

namespace TurboProfile

namespace EntityProfileDTO

open StructProperties

theorem properties_tags_not_mem_variant {n : Nat} (hn : n = 8 ∨ n = 9) :
    n ∉ properties.prop.map (·.tag) := by
  rcases hn with rfl | rfl <;> decide

theorem oneofUnmarshaler_msg (m : EntityProfileDTO) (tag wire : Nat) (b : List UInt8) :
    (oneofUnmarshaler m tag wire b).msg =
      { m with vmOrPmProfileData := (oneofUnmarshaler m tag wire b).msg.vmOrPmProfileData } := by
  rcases oneofUnmarshaler_cases m tag wire b with ⟨-, -, h⟩ | ⟨-, -, h | ⟨v, -, h⟩⟩ <;> rw [h]

/-- A field the decoder fails on changes nothing in the message but the oneof. -/
theorem readField_error_frame {bs : List UInt8} {s s' : EntityProfileDTO} {e : ProtoError}
    (h : properties.readField bs s = (s', .error e)) :
    s' = { s with vmOrPmProfileData := s'.vmOrPmProfileData } := by
  unfold StructProperties.readField at h
  split at h
  · obtain ⟨rfl, -⟩ := Prod.mk.inj h
    rfl
  dsimp only at h
  repeat' split at h
  all_goals obtain ⟨rfl, h⟩ := Prod.mk.inj h
  all_goals first | rfl | exact oneofUnmarshaler_msg _ _ _ _ | cases h

theorem properties_unmarshalFields_badWireType {p : FieldProp EntityProfileDTO}
    (hp : p ∈ properties.prop) {w : Nat} (hw : w < 8) (hwe : w ≠ wireEndGroup)
    (hne : w ≠ p.coder.wireType) (s : EntityProfileDTO) (rest : List UInt8) :
    properties.unmarshalFields (encodeVarint (fieldKey p.tag w) ++ rest) s =
      (s, some (.badWireType p.tag w)) :=
  properties.unmarshalFields_of_readField_error
    (List.append_ne_nil_of_left_ne_nil (encodeVarint_ne_nil _) rest)
    (readField_badWireType hp hw hwe hne s rest)

theorem properties_unmarshalFields_variant_badWireType {n w : Nat} (hn : n = 8 ∨ n = 9)
    (hw : w < 8) (hwe : w ≠ wireEndGroup) (hne : w ≠ wireBytes) (s : EntityProfileDTO)
    (rest : List UInt8) :
    properties.unmarshalFields (encodeVarint (fieldKey n w) ++ rest) s =
      (s, some .oneofBadWireType) := by
  have hu := oneofUnmarshaler_of_bad_wire hn hne s rest
  have h0 : 0 < n := by omega
  have ht : n < 2 ^ 61 := by omega
  rw [properties.unmarshalFields_of_readField_error
    (List.append_ne_nil_of_left_ne_nil (encodeVarint_ne_nil _) rest)
    (readField_oneof_error (properties_tags_not_mem_variant hn) h0 ht hw hwe
      (by rw [show properties.oneof.unmarshaler = oneofUnmarshaler from rfl, hu])
      (by rw [show properties.oneof.unmarshaler = oneofUnmarshaler from rfl, hu]))]
  simp only [show properties.oneof.unmarshaler = oneofUnmarshaler from rfl, hu, if_true]

/-- A truncated variant payload stops the decoder with `io.ErrUnexpectedEOF`, after the oneof
is set to that variant. -/
theorem properties_unmarshalFields_truncated_variant {v : VMOrPMProfileData}
    (hv : v = .vmProfileDTO (some {}) ∨ v = .pmProfileDTO (some {})) {len : Nat}
    (hlen : len < 2 ^ 64) {rest : List UInt8} (hlt : rest.length < len) (s : EntityProfileDTO) :
    properties.unmarshalFields
        (encodeVarint (fieldKey v.tag wireBytes) ++ (encodeVarint len ++ rest)) s =
      ({ s with vmOrPmProfileData := some v }, some .unexpectedEOF) := by
  have ht : v.tag = 8 ∨ v.tag = 9 := by rcases hv with rfl | rfl <;> simp [VMOrPMProfileData.tag]
  have hun : properties.oneof.unmarshaler s v.tag wireBytes (encodeVarint len ++ rest) = ⟨true,
      some .unexpectedEOF, { s with vmOrPmProfileData := some v }, encodeVarint len ++ rest⟩ := by
    show oneofUnmarshaler _ _ _ _ = _
    rcases hv with rfl | rfl
    · rw [show VMOrPMProfileData.tag (.vmProfileDTO (some {})) = 8 from rfl, oneofUnmarshaler_vm,
        VMProfileDTO.properties.decodeMessage_of_lt hlen hlt]
      rfl
    · rw [show VMOrPMProfileData.tag (.pmProfileDTO (some {})) = 9 from rfl, oneofUnmarshaler_pm,
        PMProfileDTO.properties.decodeMessage_of_lt hlen hlt]
      rfl
  rw [properties.unmarshalFields_of_readField_error
    (List.append_ne_nil_of_left_ne_nil (encodeVarint_ne_nil _) _)
    (readField_oneof_error (properties_tags_not_mem_variant ht) (by omega) (by omega) (by decide)
      (by decide) (by rw [hun]) (by rw [hun]))]
  simp only [hun]
  rfl

end EntityProfileDTO

end TurboProfile
