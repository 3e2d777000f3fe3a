import TurboProfile.Verification.Message.RoundTrip

/-! # The errors of the decoder

Every error of the decoding loop is terminal: the loop stops at the field that fails and
returns the message as that field left it. -/

namespace TurboProfile

theorem decodeRawBytes_of_lt {n : Nat} (hn : n < 2 ^ 64) {rest : List UInt8}
    (hlt : rest.length < n) : decodeRawBytes (encodeVarint n ++ rest) = .error .unexpectedEOF := by
  rw [decodeRawBytes, decodeVarint_encodeVarint hn]
  exact if_neg (by omega)

namespace StructProperties

variable {M : Type} (P : StructProperties M)

theorem decodeMessage_of_lt {n : Nat} (hn : n < 2 ^ 64) {rest : List UInt8}
    (hlt : rest.length < n) :
    P.decodeMessage (encodeVarint n ++ rest) =
      ((P.zero, some .unexpectedEOF), encodeVarint n ++ rest) := by
  rw [decodeMessage, decodeRawBytes_of_lt hn hlt]

variable {P}

/-- A declared field read with another wire type: the pass fails with its number and that wire
type, and leaves the message as it was. -/
theorem readField_badWireType {p : FieldProp M} (hp : p ∈ P.prop) {w : Nat} (hw : w < 8)
    (hwe : w ≠ wireEndGroup) (hne : w ≠ p.coder.wireType) (s : M) (rest : List UInt8) :
    P.readField (encodeVarint (fieldKey p.tag w) ++ rest) s =
      (s, .error (.badWireType p.tag w)) := by
  obtain ⟨h0, ht⟩ := P.tag_bounds p hp
  rw [readField, decodeVarint_encodeVarint (fieldKey_lt ht hw)]
  simp only [fieldKey_and_seven hw, fieldKey_shiftRight hw, P.find?_tag hp, if_neg hwe,
    if_neg (Nat.pos_iff_ne_zero.mp h0), ne_eq, hne, not_false_eq_true, if_true]

/-- A field the oneof unmarshaler takes with an error: the pass fails with that error and leaves
the message the unmarshaler returned. -/
theorem readField_oneof_error {n w : Nat} (hn : n ∉ P.prop.map (·.tag)) (h0 : 0 < n)
    (ht : n < 2 ^ 61) (hw : w < 8) (hwe : w ≠ wireEndGroup) {s : M} {rest : List UInt8}
    {e : ProtoError} (hh : (P.oneof.unmarshaler s n w rest).handled)
    (he : (P.oneof.unmarshaler s n w rest).err = some e) :
    P.readField (encodeVarint (fieldKey n w) ++ rest) s =
      ((P.oneof.unmarshaler s n w rest).msg,
        .error (if e = .internalBadWireType then .oneofBadWireType else e)) := by
  rw [readField, decodeVarint_encodeVarint (fieldKey_lt ht hw)]
  simp only [fieldKey_and_seven hw, fieldKey_shiftRight hw, P.find?_eq_none hn, if_neg hwe,
    if_neg (Nat.pos_iff_ne_zero.mp h0), if_pos hh, he]
  split_ifs with hbad
  · rw [hbad]
  · cases e <;> first | exact absurd rfl hbad | rfl

end StructProperties

end TurboProfile
