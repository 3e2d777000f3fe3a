import TurboProfile.Model.Wire

/-! # Round trips of the wire primitives

Each decoder, handed the encoding of a value followed by any bytes, returns the value and
leaves exactly those bytes unread. -/

namespace TurboProfile

/-! ## Keys -/

theorem fieldKey_eq {t w : Nat} (hw : w < 8) : fieldKey t w = 8 * t + w := by
  rw [fieldKey, Nat.shiftLeft_eq, Nat.mul_comm, ← Nat.mul_add_lt_is_or (i := 3) hw]

@[simp] theorem fieldKey_shiftRight {t w : Nat} (hw : w < 8) : fieldKey t w >>> 3 = t := by
  rw [fieldKey_eq hw, Nat.shiftRight_eq_div_pow]; omega

@[simp] theorem fieldKey_and_seven {t w : Nat} (hw : w < 8) : fieldKey t w &&& 7 = w := by
  rw [fieldKey_eq hw, show (7 : Nat) = 2 ^ 3 - 1 from rfl, Nat.and_pow_two_sub_one_eq_mod]
  omega

theorem fieldKey_lt {t w : Nat} (ht : t < 2 ^ 61) (hw : w < 8) : fieldKey t w < 2 ^ 64 := by
  rw [fieldKey_eq hw]; omega

/-! ## Varints -/

@[simp] theorem toNat_toUInt8 (n : Nat) : n.toUInt8.toNat = n % 256 :=
  BitVec.toNat_ofNat n 8

theorem encodeVarint_of_lt {x : Nat} (h : x < 128) : encodeVarint x = [x.toUInt8] := by
  rw [encodeVarint, if_pos h]

theorem encodeVarint_of_ge {x : Nat} (h : 128 ≤ x) :
    encodeVarint x = (x % 128 + 128).toUInt8 :: encodeVarint (x / 128) := by
  rw [encodeVarint, if_neg (by omega)]

theorem length_encodeVarint (x : Nat) : (encodeVarint x).length = sizeVarint x := by
  induction x using Nat.strong_induction_on with
  | _ x ih =>
      rw [sizeVarint, Nat.shiftRight_eq_div_pow]
      by_cases h : x < 128
      · rw [encodeVarint_of_lt h, if_pos (by omega)]; rfl
      · rw [encodeVarint_of_ge (by omega), if_neg (by omega), List.length_cons,
          ih (x / 128) (by omega)]

theorem sizeVarint_of_lt {x : Nat} (h : x < 128) : sizeVarint x = 1 := by
  rw [← length_encodeVarint, encodeVarint_of_lt h]; rfl

theorem encodeVarint_ne_nil (x : Nat) : encodeVarint x ≠ [] := by
  by_cases h : x < 128
  · simp [encodeVarint_of_lt h]
  · simp [encodeVarint_of_ge (Nat.le_of_not_lt h)]

/-- From bit `7 * k` on, the decoder reads back a value that fits the `10 - k` bytes left. -/
theorem decodeVarintFrom_encodeVarint (x k acc : Nat) (rest : List UInt8)
    (hx : x < 128 ^ (10 - k)) :
    decodeVarintFrom (7 * k) acc (encodeVarint x ++ rest) =
      .ok ((acc + x * 2 ^ (7 * k)) % 2 ^ 64, rest) := by
  induction x using Nat.strong_induction_on generalizing k acc with
  | _ x ih =>
      by_cases h : x < 128
      · rw [encodeVarint_of_lt h]
        simp [decodeVarintFrom, Nat.mod_eq_of_lt (show x < 256 by omega), Nat.mod_eq_of_lt h, h]
      · have hk : 2 ≤ 10 - k := by
          by_contra hk
          have : 128 ^ (10 - k) ≤ 128 ^ 1 := Nat.pow_le_pow_right (by omega) (by omega)
          omega
        have hpow : 128 ^ (10 - k) = 128 * 128 ^ (10 - (k + 1)) := by
          rw [← pow_succ']; congr 1; omega
        have hdiv : x / 128 < 128 ^ (10 - (k + 1)) := Nat.div_lt_of_lt_mul (hpow ▸ hx)
        have hsum : acc + x % 128 * 2 ^ (7 * k) + x / 128 * 2 ^ (7 * (k + 1)) =
            acc + x * 2 ^ (7 * k) := by
          conv_rhs => rw [← Nat.div_add_mod x 128]
          rw [show 7 * (k + 1) = 7 * k + 7 by ring, pow_add]
          ring
        rw [encodeVarint_of_ge (by omega), List.cons_append]
        simp only [decodeVarintFrom, toNat_toUInt8,
          Nat.mod_eq_of_lt (show x % 128 + 128 < 256 by omega),
          show (x % 128 + 128) % 128 = x % 128 by omega]
        rw [if_neg (by omega), if_pos (by omega), show 7 * k + 7 = 7 * (k + 1) by ring,
          ih (x / 128) (by omega) (k + 1) _ hdiv, hsum]

/-- The varint of a `uint64` reads back as itself. -/
theorem decodeVarint_encodeVarint {x : Nat} (hx : x < 2 ^ 64) (rest : List UInt8) :
    decodeVarint (encodeVarint x ++ rest) = .ok (x, rest) := by
  rw [decodeVarint, show (0 : Nat) = 7 * 0 from rfl,
    decodeVarintFrom_encodeVarint x 0 0 rest (by omega)]
  simp only [Nat.mul_zero, pow_zero, Nat.mul_one, Nat.zero_add, Nat.mod_eq_of_lt hx]

/-! ## Fixed-width values and length-delimited bytes -/

theorem decodeFixed32_encodeFixed32 {x : Nat} (hx : x < 2 ^ 32) (rest : List UInt8) :
    decodeFixed32 (encodeFixed32 x ++ rest) = .ok (x, rest) := by
  simp only [encodeFixed32, decodeFixed32, List.cons_append, List.nil_append, toNat_toUInt8]
  congr 2
  omega

theorem decodeRawBytes_encode {data : List UInt8} (h : data.length < 2 ^ 64)
    (rest : List UInt8) :
    decodeRawBytes (encodeVarint data.length ++ data ++ rest) = .ok (data, rest) := by
  rw [decodeRawBytes, List.append_assoc, decodeVarint_encodeVarint h]
  simp

end TurboProfile
