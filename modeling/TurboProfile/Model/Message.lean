import TurboProfile.Model.Unknown

/-! # Messages

The library marshals a generated struct by reflection over its struct tags: `StructProperties`
lists each field with its number and coder, together with `XXX_OneofFuncs`, and the encoder,
sizer and decoder below are the library's loops over that list, modelled from the spec
(§4.3). -/

namespace TurboProfile

/-! ## Coders of values -/

/-- The coder `proto.Properties` selects for the values of a field, from the field's Go type and
the wire type of its struct tag: the value encoder, sizer and decoder. `Valid` are the values
the coder is meant for. -/
structure ValueCoder where
  Val : Type
  wireType : Nat
  encode : Val → List UInt8
  size : Val → Nat
  decode : List UInt8 → Except ProtoError (Val × List UInt8)
  decode_length_lt : ∀ {bs v r}, decode bs = .ok (v, r) → r.length < bs.length
  Valid : Val → Prop

namespace ValueCoder

/-- Modelled from the spec: `enc_int32`, `size_int32`, `dec_int32`, for an `int32` or an enum:
the varint of the value sign-extended to 64 bits. -/
@[reducible] def int32 : ValueCoder where
  Val := Int32
  wireType := wireVarint
  encode v := encodeVarint v.toUInt64
  size v := sizeVarint v.toUInt64
  decode bs :=
    match decodeVarint bs with
    | .ok (u, r) => .ok (Int32.ofUInt64 u, r)
    | .error e => .error e
  decode_length_lt h := by
    dsimp only at h; split at h <;> cases h; exact decodeVarint_length_lt ‹_›
  Valid _ := True

/-- Modelled from the spec: `enc_uint32`, `size_uint32`, `dec_int32` for a `float32`: the four
bytes of its bits. -/
@[reducible] def float32 : ValueCoder where
  Val := Float32
  wireType := wireFixed32
  encode v := encodeFixed32 v.bits.toNat
  size _ := 4
  decode bs :=
    match decodeFixed32 bs with
    | .ok (u, r) => .ok (⟨u.toUInt32⟩, r)
    | .error e => .error e
  decode_length_lt h := by
    dsimp only at h; split at h <;> cases h; exact decodeFixed32_length_lt ‹_›
  Valid _ := True

/-- Modelled from the spec: `enc_bool`, `size_bool`, `dec_bool`: a varint 0 or 1, and any
nonzero varint read as true. -/
@[reducible] def bool : ValueCoder where
  Val := Bool
  wireType := wireVarint
  encode v := encodeVarint (if v then 1 else 0)
  size _ := 1
  decode bs :=
    match decodeVarint bs with
    | .ok (u, r) => .ok (u != 0, r)
    | .error e => .error e
  decode_length_lt h := by
    dsimp only at h; split at h <;> cases h; exact decodeVarint_length_lt ‹_›
  Valid _ := True

/-- Modelled from the spec: `enc_string`, `size_string`, `dec_string`, for a `string`, and the
coder of a message of a type defined outside this file, known here by its encoding: the
length and the bytes. -/
@[reducible] def bytes : ValueCoder where
  Val := List UInt8
  wireType := wireBytes
  encode v := encodeVarint v.length ++ v
  size v := sizeVarint v.length + v.length
  decode := decodeRawBytes
  decode_length_lt := decodeRawBytes_length_lt
  Valid v := v.length < 2 ^ 64

end ValueCoder

/-- The label of a field in its struct tag: `opt`, `req` or `rep`. -/
inductive Label where
  | optional
  | required
  | repeated
  deriving DecidableEq, Repr

/-- The values a field holds once `v` is decoded into it, from `l`: a repeated field appends
`v`, a singular one holds `v` alone. -/
def Label.push {α : Type} : Label → List α → α → List α
  | .repeated, l, v => l ++ [v]
  | _, _, v => [v]

/-- One entry of `proto.StructProperties`: the name, number, coder and label of a field, from
its struct tag, and the field itself, seen as the list of the values it holds (none or one
for a singular field). `store` is what the decoder does with a value it has read. -/
structure FieldProp (M : Type) where
  name : String
  tag : Nat
  coder : ValueCoder
  label : Label
  get : M → List coder.Val
  store : M → coder.Val → M

/-- What a oneof unmarshaler returns, `(bool, error)`, with the message and the unread bytes
it leaves behind. -/
structure UnmarshalResult (M : Type) where
  handled : Bool
  err : Option ProtoError
  msg : M
  rest : List UInt8
  deriving DecidableEq, Repr

/-- `XXX_OneofFuncs`: the marshaler, unmarshaler and sizer of the oneofs of a message, with the
field numbers of their variants, read from the struct tags of the wrapper types. -/
structure OneofFuncs (M : Type) where
  tags : List Nat
  marshaler : M → List UInt8 → List UInt8 × Option ProtoError
  unmarshaler : M → Nat → Nat → List UInt8 → UnmarshalResult M
  sizer : M → Nat
  rest_length_le : ∀ m tag wire b, (unmarshaler m tag wire b).rest.length ≤ b.length

/-- The oneof functions of a message without oneofs, for which the library calls none. -/
def OneofFuncs.empty {M : Type} : OneofFuncs M where
  tags := []
  marshaler _ b := (b, none)
  unmarshaler m _ _ b := ⟨false, none, m, b⟩
  sizer _ := 0
  rest_length_le _ _ _ _ := Nat.le_refl _

/-- `proto.StructProperties` of a generated message type `M`: its fields in tag order, its oneof
functions, its `XXX_unrecognized` bytes and its zero value `new(M)`. The laws say that every
entry is a field of its own (a field sees only its own writes, and a singular field holds at
most one value), and that a oneof unmarshaler handles only the numbers of its variants. -/
structure StructProperties (M : Type) where
  prop : List (FieldProp M)
  oneof : OneofFuncs M
  unrecognized : M → List UInt8
  setUnrecognized : M → List UInt8 → M
  zero : M
  tags_nodup : (prop.map (·.tag) ++ oneof.tags).Nodup
  tag_bounds : ∀ p ∈ prop, 0 < p.tag ∧ p.tag < 2 ^ 61
  get_store : ∀ p ∈ prop, ∀ m v, p.get (p.store m v) = p.label.push (p.get m) v
  get_store_of_ne : ∀ p ∈ prop, ∀ q ∈ prop, p.tag ≠ q.tag → ∀ m v,
    q.get (p.store m v) = q.get m
  length_get_le : ∀ p ∈ prop, p.label ≠ .repeated → ∀ m, (p.get m).length ≤ 1
  unrecognized_store : ∀ p ∈ prop, ∀ m v, unrecognized (p.store m v) = unrecognized m
  get_setUnrecognized : ∀ p ∈ prop, ∀ m u, p.get (setUnrecognized m u) = p.get m
  unrecognized_setUnrecognized : ∀ m u, unrecognized (setUnrecognized m u) = u
  get_zero : ∀ p ∈ prop, p.get zero = []
  unrecognized_zero : unrecognized zero = []
  unmarshaler_of_not_mem : ∀ m tag wire b, tag ∉ oneof.tags →
    oneof.unmarshaler m tag wire b = ⟨false, none, m, b⟩

theorem option_toList_inj {α : Type} {a b : Option α} : a.toList = b.toList ↔ a = b := by
  cases a <;> cases b <;> simp

@[simp] theorem length_option_toList_le {α : Type} (a : Option α) : a.toList.length ≤ 1 := by
  cases a <;> simp

namespace FieldProp

variable {M : Type} (p : FieldProp M)

/-- Modelled from the spec: one value of the field, its key and its encoding. -/
def encodeOne (v : p.coder.Val) : List UInt8 :=
  encodeVarint (fieldKey p.tag p.coder.wireType) ++ p.coder.encode v

/-- Modelled from the spec: the encoder of one field, each of its values in turn, and nothing
for a nil field. -/
def encode (m : M) : List UInt8 := (p.get m).flatMap p.encodeOne

/-- Modelled from the spec: the sizer of one field. -/
def size (m : M) : Nat :=
  ((p.get m).map fun v => sizeVarint (fieldKey p.tag p.coder.wireType) + p.coder.size v).sum

end FieldProp

namespace StructProperties

variable {M : Type} (P : StructProperties M)

/-- The field numbers the struct tags declare, the variants of the oneofs included. -/
def tags : List Nat := P.prop.map (·.tag) ++ P.oneof.tags

/-- Bytes that are whole fields, none numbered 0 and none of a number `M` declares: the unknown
fields a decoder of `M` keeps, in whatever encoding they came. -/
def RawUnknown (u : List UInt8) : Prop :=
  ∃ fs : List (Nat × List UInt8), u = fs.flatMap (·.2) ∧
    ∀ f ∈ fs, IsField f ∧ f.1 ≠ 0 ∧ f.1 ∉ P.tags

/-- The unrecognized bytes of `m` are unknown fields as a decoder of `M` keeps them. -/
def UnknownFieldsWellFormed (m : M) : Prop := P.RawUnknown (P.unrecognized m)

/-- The name of the first required field that `m` leaves nil. -/
def missingRequired (m : M) : Option String :=
  (P.prop.find? fun p => p.label = .required && (p.get m).isEmpty).map (·.name)

/-- Modelled from the spec: `proto.Marshal` of a message (`enc_struct`): its set fields in tag
order, then its oneofs, then its unrecognized bytes. A nil required field is written as
nothing and reported; a oneof wrapper holding a nil message stops the encoder. -/
def marshal (m : M) : List UInt8 × Option ProtoError :=
  match P.oneof.marshaler m (P.prop.flatMap (·.encode m)) with
  | (b, some e) => (b, some (if e = .errNil then .oneofHasNil else e))
  | (b, none) => (b ++ P.unrecognized m, (P.missingRequired m).map .requiredNotSet)

/-- Modelled from the spec: `proto.Size` of a message (`size_struct`). -/
def size (m : M) : Nat :=
  (P.prop.map (·.size m)).sum + (P.unrecognized m).length + P.oneof.sizer m

/-- Modelled from the spec: one pass of the loop of `proto.Buffer.unmarshalType`. It reads a
key; a value of a declared field is decoded and stored into `m`; another number is offered to
the oneof unmarshaler, and if that does not take it, the field is skipped and its bytes, key
and payload, are appended to the unrecognized bytes. It returns the message, changed in place
even when an error follows, and the unread bytes or the error. -/
def readField (bs : List UInt8) (m : M) : M × Except ProtoError (List UInt8) :=
  match decodeVarint bs with
  | .error e => (m, .error e)
  | .ok (u, rest) =>
    let wire := u &&& 7
    let tag := u >>> 3
    if wire = wireEndGroup then (m, .error .endGroupForNonGroup)
    else if tag = 0 then (m, .error (.illegalTag tag wire))
    else
      match P.prop.find? (·.tag = tag) with
      | some p =>
        if wire ≠ p.coder.wireType then (m, .error (.badWireType tag wire))
        else
          match p.coder.decode rest with
          | .error e => (m, .error e)
          | .ok (v, r) => (p.store m v, .ok r)
      | none =>
        let o := P.oneof.unmarshaler m tag wire rest
        if o.handled then
          match o.err with
          | some .internalBadWireType => (o.msg, .error .oneofBadWireType)
          | some e => (o.msg, .error e)
          | none => (o.msg, .ok o.rest)
        else
          match skip wire rest with
          | .error e => (m, .error e)
          | .ok r =>
            (P.setUnrecognized m (P.unrecognized m ++ bs.take (bs.length - r.1.length)), .ok r.1)

theorem readField_length_lt {bs rest : List UInt8} {m m' : M}
    (h : P.readField bs m = (m', .ok rest)) : rest.length < bs.length := by
  unfold readField at h
  split at h
  · cases h
  · rename_i u r hu
    have := decodeVarint_length_lt hu
    dsimp only at h
    repeat' split at h
    all_goals cases h
    · have := ValueCoder.decode_length_lt _ ‹_›; omega
    · have := P.oneof.rest_length_le m (u >>> 3) (u &&& 7) r; omega
    · rename_i r' _; have := r'.2; omega

/-- Modelled from the spec: the loop of `proto.Buffer.unmarshalType`, reading fields into `m`
until the buffer is empty. It returns the message as far as it was decoded and the first
error. -/
def unmarshalFields (bs : List UInt8) (m : M) : M × Option ProtoError :=
  match bs with
  | [] => (m, none)
  | b :: bs' =>
    match h : P.readField (b :: bs') m with
    | (m', .error e) => (m', some e)
    | (m', .ok r) => unmarshalFields r m'
termination_by bs.length
decreasing_by exact P.readField_length_lt h

/-- Modelled from the spec: `proto.Buffer.Unmarshal` into the zero message: the loop, and
then the check that every required field was read. -/
def unmarshal (bs : List UInt8) : M × Option ProtoError :=
  match P.unmarshalFields bs P.zero with
  | (m, some e) => (m, some e)
  | (m, none) => (m, (P.missingRequired m).map .requiredNotSet)

/-- Modelled from the spec: `proto.Buffer.DecodeMessage`, a length-delimited message decoded
into a new one. It returns the message, the error, and the bytes left unread. -/
def decodeMessage (bs : List UInt8) : (M × Option ProtoError) × List UInt8 :=
  match decodeRawBytes bs with
  | .error e => ((P.zero, some e), bs)
  | .ok (enc, rest) => (P.unmarshal enc, rest)

theorem decodeMessage_length_le (bs : List UInt8) : (P.decodeMessage bs).2.length ≤ bs.length := by
  unfold decodeMessage
  split
  · exact Nat.le_refl _
  · exact (decodeRawBytes_length_lt ‹_›).le

/-- Modelled from the spec: `proto.Buffer.EncodeMessage`, appending the length of the message
and the message to `b`. A nil message is refused with `ErrNil`; a message with a nil
required field is written all the same, and the field is reported. -/
def encodeMessage (x : Option M) (b : List UInt8) : List UInt8 × Option ProtoError :=
  match x with
  | none => (b, some .errNil)
  | some m => (b ++ encodeVarint (P.marshal m).1.length ++ (P.marshal m).1, (P.marshal m).2)

/-- Modelled from the spec: `proto.Size`, which is zero for a nil message. -/
def protoSize : Option M → Nat
  | none => 0
  | some m => P.size m

/-- The values `m` holds are values their coders are meant for, its unrecognized bytes are
well-formed unknown fields, and its encoding fits the `uint64` length in front of it. -/
def Valid (m : M) : Prop :=
  P.UnknownFieldsWellFormed m ∧ (∀ p ∈ P.prop, ∀ v ∈ p.get m, p.coder.Valid v) ∧
    (P.marshal m).1.length < 2 ^ 64

end StructProperties

/-- Modelled from the spec: `enc_struct_message`, `size_struct_message`, `dec_struct_message`
and their forms for a repeated field, for a message of a type of this file: its length and
its encoding, decoded into a new message. -/
@[reducible] def ValueCoder.message {N : Type} (P : StructProperties N) : ValueCoder where
  Val := N
  wireType := wireBytes
  encode n := encodeVarint (P.marshal n).1.length ++ (P.marshal n).1
  size n := sizeVarint (P.size n) + P.size n
  decode bs :=
    match decodeRawBytes bs with
    | .error e => .error e
    | .ok (enc, r) =>
      match P.unmarshal enc with
      | (n, none) => .ok (n, r)
      | (_, some e) => .error e
  decode_length_lt h := by
    dsimp only at h
    split at h
    · cases h
    · split at h <;> cases h; exact decodeRawBytes_length_lt ‹_›
  Valid n := P.Valid n ∧ P.missingRequired n = none

end TurboProfile
