import TurboProfile.Verification.Wire.RoundTrip
import TurboProfile.Model.Message

/-! # Lawful coders

The obligations a value coder meets for the message codec to read back what it writes, and
the proof of them for the scalar coders and the coder of strings. The coder of a nested
message is lawful by the round trip of its own type (`Verification.Message.RoundTrip`). -/

namespace TurboProfile

namespace ValueCoder

/-- A coder whose wire type is a field's, that reads back every value it is meant for and stops
right after it, and whose sizer counts what its encoder writes. -/
structure Lawful (c : ValueCoder) : Prop where
  wireType_lt : c.wireType < 8
  wireType_ne_endGroup : c.wireType ≠ wireEndGroup
  decode_encode : ∀ {v}, c.Valid v → ∀ rest, c.decode (c.encode v ++ rest) = .ok (v, rest)
  length_encode : ∀ v, (c.encode v).length = c.size v

theorem lawful_int32 : int32.Lawful where
  wireType_lt := by decide
  wireType_ne_endGroup := by decide
  decode_encode {v} _ rest := by
    simp only [decodeVarint_encodeVarint (Int32.toUInt64_lt v), Int32.ofUInt64_toUInt64]
  length_encode _ := length_encodeVarint _

theorem lawful_float32 : float32.Lawful where
  wireType_lt := by decide
  wireType_ne_endGroup := by decide
  decode_encode {v} _ rest := by
    simp only [decodeFixed32_encodeFixed32 v.bits.toNat_lt_size]
    congr
    apply UInt32.eq_of_toBitVec_eq
    simp only [Nat.toUInt32, UInt32.ofNat, UInt32.toNat, BitVec.ofNat_toNat, BitVec.setWidth_eq]
  length_encode _ := rfl

theorem lawful_bool : bool.Lawful where
  wireType_lt := by decide
  wireType_ne_endGroup := by decide
  decode_encode {v} _ rest := by
    have hv : (if v then 1 else 0 : Nat) < 2 ^ 64 := by split <;> decide
    simp only [decodeVarint_encodeVarint hv]
    cases v <;> rfl
  length_encode v := by
    rw [length_encodeVarint]; split <;> exact sizeVarint_of_lt (by decide)

theorem lawful_bytes : bytes.Lawful where
  wireType_lt := by decide
  wireType_ne_endGroup := by decide
  decode_encode h rest := decodeRawBytes_encode h rest
  length_encode v := by rw [List.length_append, length_encodeVarint]

/-- The coder reads the value `v` back from its encoding, whatever follows, and stops right
after it. -/
def ReadsBack (c : ValueCoder) (v : c.Val) : Prop :=
  ∀ rest, c.decode (c.encode v ++ rest) = .ok (v, rest)

theorem Lawful.readsBack {c : ValueCoder} (hc : c.Lawful) {v : c.Val} (hv : c.Valid v) :
    c.ReadsBack v :=
  hc.decode_encode hv

end ValueCoder

end TurboProfile
