import TurboProfile.Verification.Entity.Decode
import TurboProfile.Verification.Payloads

/-! # Decoding an `EntityProfileDTO` is stable under re-encoding

A nested message may grow when written back, by at most 66 bytes for a commodity profile and
33 for a payload, so the result asks that the input, plus 66, fit a `uint64`. -/

namespace TurboProfile

namespace EntityProfileDTO

open StructProperties ValueCoder

theorem properties_coder_stable {n : Nat} (hn : n + 66 < 2 ^ 64) :
    ∀ p ∈ properties.prop, p.coder.Stable n :=
  List.forall_iff_forall_mem.mp ⟨stable_bytes n, stable_bytes n, stable_int32 n,
    CommodityProfileDTO.message_stable hn, stable_bytes n, stable_bytes n, stable_bytes n,
    stable_bool n, stable_bool n, stable_bytes n⟩

theorem readsBack_oneofUnmarshaler {m m' : EntityProfileDTO} {tag wire : Nat}
    {b r : List UInt8} (hb : b.length + 33 < 2 ^ 64)
    (h : oneofUnmarshaler m tag wire b = ⟨true, none, m', r⟩) :
    ∀ v ∈ m'.vmOrPmProfileData, v.ReadsBack := by
  rcases oneofUnmarshaler_cases m tag wire b with ⟨-, -, h'⟩ | ⟨htag, -, -⟩
  · rw [h'] at h
    cases h
  by_cases hw : wire = wireBytes
  · subst hw
    rcases htag with rfl | rfl
    · rw [oneofUnmarshaler_vm] at h
      obtain ⟨-, herr, rfl, -⟩ := UnmarshalResult.mk.inj h
      rintro v ⟨⟩
      exact VMOrPMProfileData.readsBack_of_payloadReadsBack
        (VMProfileDTO.decodeMessage_readsBack hb (show _ = ((_, none), _) by rw [← herr]) le_rfl)
    · rw [oneofUnmarshaler_pm] at h
      obtain ⟨-, herr, rfl, -⟩ := UnmarshalResult.mk.inj h
      rintro v ⟨⟩
      exact VMOrPMProfileData.readsBack_of_payloadReadsBack
        (PMProfileDTO.decodeMessage_readsBack (n := b.length) (by omega)
          (show _ = ((_, none), _) by rw [← herr]) le_rfl)
  · rw [oneofUnmarshaler_of_bad_wire htag hw] at h
    cases h

theorem readsBack_vmOrPmProfileData_readField {n : Nat} (hn : n + 33 < 2 ^ 64)
    {b r : List UInt8} {t t' : EntityProfileDTO} (h : properties.readField b t = (t', .ok r))
    (hb : b.length ≤ n) (ht : ∀ v ∈ t.vmOrPmProfileData, v.ReadsBack) :
    ∀ v ∈ t'.vmOrPmProfileData, v.ReadsBack := by
  obtain ⟨u, rest, hd, -, -, hcases⟩ := properties.readField_ok_cases h
  rcases hcases with ⟨q, hq, -, -, w, -, rfl⟩ | ⟨-, hu⟩ | ⟨-, -, -, rfl⟩
  · rwa [oneof_store q hq t w]
  · have := decodeVarint_length_lt hd
    exact readsBack_oneofUnmarshaler (by omega) hu
  · exact ht

/-- The loop reads the re-encoding of what it decoded from the zero entity into the same entity:
the values, the oneof and the unrecognized bytes read back. -/
theorem properties_unmarshalFields_marshal_unmarshalFields {bs : List UInt8}
    (h : (properties.unmarshalFields bs properties.zero).2 = none)
    (hlen : bs.length + 66 < 2 ^ 64) :
    properties.unmarshalFields (properties.marshal (properties.unmarshalFields bs
        properties.zero).1).1 properties.zero = properties.unmarshalFields bs properties.zero := by
  obtain ⟨hv, hu⟩ := readsBack_unmarshalFields (properties_coder_stable hlen)
    properties_oneof_get properties_oneof_unrecognized properties_oneof_handled h
  have ho := unmarshalFields_inv (s := properties.zero)
    (F := fun rem t => rem.length ≤ bs.length ∧ ∀ v ∈ t.vmOrPmProfileData, v.ReadsBack)
    (fun hr ht => ⟨(properties.readField_length_lt hr).le.trans ht.1,
      readsBack_vmOrPmProfileData_readField (by omega) hr ht.1 ht.2⟩)
    ⟨le_rfl, fun v hv => absurd hv (Option.not_mem_none v)⟩ h
  obtain ⟨c, ⟨hgc, huc⟩, hoc, hrun⟩ := unmarshalFields_marshal_over_of
    (properties.readsAsUnknown_of_rawUnknown hu) hv ho.2 properties.zero
  have hc : c = (properties.unmarshalFields bs properties.zero).1 :=
    ext_of_get (fun p hp => (hgc p hp).trans (properties.merge_get_zero hp _)) huc
      (hoc.trans Option.or_none)
  rw [hrun, hc]
  exact Prod.ext rfl h.symm

/-- Decoding an `EntityProfileDTO` is stable under re-encoding, for every buffer the loop reads
without error whose length plus 66 fits a `uint64`. -/
theorem properties_unmarshal_marshal_unmarshal (bs : List UInt8)
    (h : (properties.unmarshalFields bs properties.zero).2 = none)
    (hlen : bs.length + 66 < 2 ^ 64) :
    properties.unmarshal (properties.marshal (properties.unmarshal bs).1).1 =
      properties.unmarshal bs := by
  rw [properties.unmarshal_fst]
  unfold StructProperties.unmarshal
  rw [properties_unmarshalFields_marshal_unmarshalFields h hlen]

/-- An `entityType` of -1 as a five-byte varint, as some encoders write it: re-encoded in ten
bytes, it decodes to the same entity. -/
theorem properties_unmarshal_marshal_unmarshal_entityType :
    (properties.unmarshalFields [24, 255, 255, 255, 255, 15] properties.zero).2 = none ∧
      [24, 255, 255, 255, 255, 15].length + 66 < 2 ^ 64 ∧
      properties.unmarshal
          (properties.marshal (properties.unmarshal [24, 255, 255, 255, 255, 15]).1).1 =
        properties.unmarshal [24, 255, 255, 255, 255, 15] :=
  have h : (properties.unmarshalFields [24, 255, 255, 255, 255, 15] properties.zero).2 =
      none := by
    rw [properties.unmarshalFields_of_readField (List.cons_ne_nil _ _)
      (show properties.readField [24, 255, 255, 255, 255, 15] properties.zero =
        ({ entityType := some (Int32.ofUInt64 4294967295) }, .ok []) from rfl),
      unmarshalFields_nil]
  ⟨h, by decide, properties_unmarshal_marshal_unmarshal _ h (by decide)⟩

end EntityProfileDTO

end TurboProfile
