import Mathlib.Data.List.Nodup
import Mathlib.Tactic.Ring
import Mathlib.Tactic.SplitIfs
import Mathlib.Tactic.ByContra

/-! # Wire primitives

The `proto.Buffer` primitives `ProfileDTO.pb.go` relies on, which are not part of this
repository, modelled from the wire layout of the spec (§4.3). A buffer being read is its unread
bytes, and every decoder returns the bytes it leaves. -/

namespace TurboProfile

/-! ## Go scalars -/

/-- A Go `int32`. -/
@[ext] structure Int32 where
  val : Int
  ge : -2 ^ 31 ≤ val
  lt : val < 2 ^ 31
  deriving DecidableEq, Repr

namespace Int32

/-- `uint64(int64(x))`: the two's complement of `x` in 64 bits, as the encoder writes it. -/
def toUInt64 (x : Int32) : Nat := (x.val % 2 ^ 64).toNat

/-- `int32(uint32(u))`: the low 32 bits of `u` read as a signed integer, as the decoder
stores a varint into an `int32` field. -/
def ofUInt64 (u : Nat) : Int32 :=
  if h : u % 2 ^ 32 < 2 ^ 31 then ⟨(u % 2 ^ 32 : Nat), by omega, by omega⟩
  else ⟨(u % 2 ^ 32 : Nat) - 2 ^ 32, by omega, by omega⟩

instance : Inhabited Int32 := ⟨⟨0, by decide, by decide⟩⟩

theorem toUInt64_lt (x : Int32) : x.toUInt64 < 2 ^ 64 := by
  unfold toUInt64; omega

@[simp] theorem ofUInt64_toUInt64 (x : Int32) : ofUInt64 x.toUInt64 = x := by
  have := x.ge; have := x.lt
  unfold ofUInt64 toUInt64
  split <;> (ext; simp only; omega)

end Int32

/-- A Go `float32`, known by its IEEE-754 bits: the codec moves the bits and never reads the
number they stand for. -/
structure Float32 where
  bits : UInt32
  deriving DecidableEq, Repr, Inhabited

/-! ## Errors and keys -/

/-- The errors of the codec, after the Go error values it returns. -/
inductive ProtoError where
  /-- `io.ErrUnexpectedEOF`: a value runs past the end of the buffer. -/
  | unexpectedEOF
  /-- `errOverflow`: a varint longer than ten bytes. -/
  | overflow
  /-- A key of wire type `WireEndGroup` outside a group. -/
  | endGroupForNonGroup
  /-- A key whose field number is zero. -/
  | illegalTag (tag wire : Nat)
  /-- A declared field read with a wire type other than its own. -/
  | badWireType (tag wire : Nat)
  /-- A wire type no field can have. -/
  | cannotSkip (wire : Nat)
  /-- `proto.ErrInternalBadWireType`, returned by a oneof unmarshaler. -/
  | internalBadWireType
  /-- `proto.ErrNil`: a nil message handed to the encoder. -/
  | errNil
  /-- `proto.RequiredNotSetError`: a required field, named, is nil. -/
  | requiredNotSet (name : String)
  /-- `errOneofHasNil`: a oneof wrapper holding a nil message, met by the encoder. -/
  | oneofHasNil
  /-- What the decoder makes of `ErrInternalBadWireType` from a oneof unmarshaler: a variant
  field of the wrong wire type. -/
  | oneofBadWireType
  deriving DecidableEq, Repr

/-- `proto.WireVarint`. -/
abbrev wireVarint : Nat := 0
/-- `proto.WireFixed64`. -/
abbrev wireFixed64 : Nat := 1
/-- `proto.WireBytes`. -/
abbrev wireBytes : Nat := 2
/-- `proto.WireStartGroup`. -/
abbrev wireStartGroup : Nat := 3
/-- `proto.WireEndGroup`. -/
abbrev wireEndGroup : Nat := 4
/-- `proto.WireFixed32`. -/
abbrev wireFixed32 : Nat := 5

/-- `tag<<3 | wire`: the key in front of every field. -/
def fieldKey (tag wire : Nat) : Nat := tag <<< 3 ||| wire

/-! ## Varints -/

/-- Modelled from the spec: `proto.Buffer.EncodeVarint`, seven bits to a byte, the low group
first, the high bit set on every byte but the last. -/
def encodeVarint (x : Nat) : List UInt8 :=
  if x < 128 then [x.toUInt8] else (x % 128 + 128).toUInt8 :: encodeVarint (x / 128)
termination_by x
decreasing_by omega

/-- Modelled from the spec: `proto.SizeVarint`, the length of the varint of `x`, counted by
shifting `x` right seven bits at a time until nothing is left. -/
def sizeVarint (x : Nat) : Nat :=
  if x >>> 7 = 0 then 1 else sizeVarint (x >>> 7) + 1
termination_by x
decreasing_by rw [Nat.shiftRight_eq_div_pow] at *; omega

/-- Modelled from the spec: the loop of `proto.Buffer.DecodeVarint` from bit `shift` on, `acc`
holding the bits read so far. Bits past the 64th are dropped, and a varint with a
continuation bit on its tenth byte is an overflow. -/
def decodeVarintFrom (shift acc : Nat) : List UInt8 → Except ProtoError (Nat × List UInt8)
  | [] => .error .unexpectedEOF
  | b :: bs =>
    let acc := acc + b.toNat % 128 * 2 ^ shift
    if b.toNat < 128 then .ok (acc % 2 ^ 64, bs)
    else if shift + 7 < 64 then decodeVarintFrom (shift + 7) acc bs
    else .error .overflow

/-- `proto.Buffer.DecodeVarint`. -/
def decodeVarint (bs : List UInt8) : Except ProtoError (Nat × List UInt8) :=
  decodeVarintFrom 0 0 bs

theorem decodeVarintFrom_length_lt {shift acc u : Nat} {bs rest : List UInt8}
    (h : decodeVarintFrom shift acc bs = .ok (u, rest)) : rest.length < bs.length := by
  induction bs generalizing shift acc with
  | nil => cases h
  | cons b bs ih =>
      simp only [decodeVarintFrom] at h
      split at h
      · cases h; simp
      · split at h
        · have := ih h; simp only [List.length_cons]; omega
        · cases h

theorem decodeVarint_length_lt {u : Nat} {bs rest : List UInt8}
    (h : decodeVarint bs = .ok (u, rest)) : rest.length < bs.length :=
  decodeVarintFrom_length_lt h

/-! ## Fixed-width values and length-delimited bytes -/

/-- Modelled from the spec: `proto.Buffer.EncodeFixed32`, four bytes, least significant
first. -/
def encodeFixed32 (x : Nat) : List UInt8 :=
  [x.toUInt8, (x / 2 ^ 8).toUInt8, (x / 2 ^ 16).toUInt8, (x / 2 ^ 24).toUInt8]

/-- Modelled from the spec: `proto.Buffer.DecodeFixed32`. -/
def decodeFixed32 : List UInt8 → Except ProtoError (Nat × List UInt8)
  | b0 :: b1 :: b2 :: b3 :: bs =>
    .ok (b0.toNat + b1.toNat * 2 ^ 8 + b2.toNat * 2 ^ 16 + b3.toNat * 2 ^ 24, bs)
  | _ => .error .unexpectedEOF

theorem decodeFixed32_length_lt {u : Nat} {bs rest : List UInt8}
    (h : decodeFixed32 bs = .ok (u, rest)) : rest.length < bs.length := by
  match bs, h with
  | _ :: _ :: _ :: _ :: _, rfl => simp only [List.length_cons]; omega

/-- Modelled from the spec: `proto.Buffer.DecodeRawBytes`, a varint length and that many
bytes. -/
def decodeRawBytes (bs : List UInt8) : Except ProtoError (List UInt8 × List UInt8) :=
  match decodeVarint bs with
  | .error e => .error e
  | .ok (n, rest) =>
    if n ≤ rest.length then .ok (rest.take n, rest.drop n) else .error .unexpectedEOF

theorem decodeRawBytes_length_lt {bs data rest : List UInt8}
    (h : decodeRawBytes bs = .ok (data, rest)) : rest.length < bs.length := by
  unfold decodeRawBytes at h
  split at h
  · cases h
  · rename_i n r hr
    split at h
    · cases h
      have := decodeVarint_length_lt hr
      simp only [List.length_drop]; omega
    · cases h

/-! ## Skipping a field -/

/-- What a decoder that consumed input leaves unread of `bs`. -/
abbrev Rest (bs : List UInt8) := {r : List UInt8 // r.length < bs.length}

/-- The `n` bytes of a fixed-width value, as `DecodeFixed64` and `DecodeFixed32` step over
them. -/
def skipFixed (n : Nat) (hn : 0 < n) (bs : List UInt8) : Except ProtoError (Rest bs) :=
  if h : n ≤ bs.length then .ok ⟨bs.drop n, by simp only [List.length_drop]; omega⟩
  else .error .unexpectedEOF

mutual

/-- Modelled from the spec: `proto.Buffer.skip`, which steps over the payload of a field of
wire type `wire` whose key has been read. -/
def skip (wire : Nat) (bs : List UInt8) : Except ProtoError (Rest bs) :=
  match wire with
  | 0 =>
    match h : decodeVarint bs with
    | .ok (_, r) => .ok ⟨r, decodeVarint_length_lt h⟩
    | .error e => .error e
  | 1 => skipFixed 8 (by omega) bs
  | 2 =>
    match h : decodeRawBytes bs with
    | .ok (_, r) => .ok ⟨r, decodeRawBytes_length_lt h⟩
    | .error e => .error e
  | 3 => skipGroup bs
  | 5 => skipFixed 4 (by omega) bs
  | w => .error (.cannotSkip w)
termination_by 2 * bs.length + 1

/-- The `WireStartGroup` case of `proto.Buffer.skip`: the fields of the group are skipped up
to the first key of wire type `WireEndGroup`. -/
def skipGroup (bs : List UInt8) : Except ProtoError (Rest bs) :=
  match h : decodeVarint bs with
  | .error e => .error e
  | .ok (u, r) =>
    if u &&& 7 = wireEndGroup then .ok ⟨r, decodeVarint_length_lt h⟩
    else
      match skip (u &&& 7) r with
      | .error e => .error e
      | .ok r' =>
        match skipGroup r'.1 with
        | .error e => .error e
        | .ok r'' =>
          .ok ⟨r''.1, by have := decodeVarint_length_lt h; have := r'.2; have := r''.2; omega⟩
termination_by 2 * bs.length
decreasing_by
  all_goals have := decodeVarint_length_lt h
  · omega
  · have := r'.2; omega

end

end TurboProfile
