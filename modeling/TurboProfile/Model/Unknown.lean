import TurboProfile.Model.Wire

/-! # Fields a message does not declare

A decoder keeps the fields it has no struct field for, key and payload, in
`XXX_unrecognized`, in whatever encoding they came: `IsField` says which bytes are one field.
`UnknownField` is the syntax of a field and `encodeAll` its canonical encoding. -/

namespace TurboProfile

/-- A field of the wire format, one constructor a wire type. A group holds the fields between
its start and end keys. -/
inductive UnknownField where
  | varint (tag v : Nat)
  | fixed64 (tag : Nat) (payload : List UInt8)
  | bytes (tag : Nat) (data : List UInt8)
  | group (tag : Nat) (body : List UnknownField)
  | fixed32 (tag : Nat) (payload : List UInt8)
  deriving Repr

namespace UnknownField

def tag : UnknownField → Nat
  | varint t _ | fixed64 t _ | bytes t _ | group t _ | fixed32 t _ => t

def wire : UnknownField → Nat
  | varint .. => wireVarint
  | fixed64 .. => wireFixed64
  | bytes .. => wireBytes
  | group .. => wireStartGroup
  | fixed32 .. => wireFixed32

mutual

/-- The bytes after the key of a field. -/
def payload : UnknownField → List UInt8
  | varint _ v => encodeVarint v
  | fixed64 _ p => p
  | bytes _ d => encodeVarint d.length ++ d
  | group t body => encodeAll body ++ encodeVarint (fieldKey t wireEndGroup)
  | fixed32 _ p => p

/-- The bytes of a sequence of fields, each its key and its payload. -/
def encodeAll : List UnknownField → List UInt8
  | [] => []
  | f :: fs => encodeVarint (fieldKey f.tag f.wire) ++ f.payload ++ encodeAll fs

end

mutual

/-- A field an encoder can write: its number is positive and its key fits a `uint64`, a
varint value fits a `uint64`, a length fits its varint, fixed payloads have their width, and
the fields of a group are well formed. -/
def wellFormed : UnknownField → Bool
  | varint t v => 0 < t && t < 2 ^ 61 && v < 2 ^ 64
  | fixed64 t p => 0 < t && t < 2 ^ 61 && p.length == 8
  | bytes t d => 0 < t && t < 2 ^ 61 && d.length < 2 ^ 64
  | group t body => 0 < t && t < 2 ^ 61 && allWellFormed body
  | fixed32 t p => 0 < t && t < 2 ^ 61 && p.length == 4

def allWellFormed : List UnknownField → Bool
  | [] => true
  | f :: fs => f.wellFormed && allWellFormed fs

end

end UnknownField

/-- The bytes `f.2` are one field numbered `f.1`: a key of that number, and a payload `skip`
steps over to its end. -/
def IsField (f : Nat × List UInt8) : Prop :=
  ∃ k pay, decodeVarint f.2 = .ok (k, pay) ∧ k >>> 3 = f.1 ∧
    (skip (k &&& 7) pay).map (·.1) = .ok []

end TurboProfile
