import TurboProfile.Verification.Wire.RoundTrip
import TurboProfile.Model.Unknown

/-! # Skipping well-formed fields

`skip` steps over the payload of a well-formed field exactly, whatever follows it; a group
is stepped over field by field up to its end key. -/

namespace TurboProfile

/-! ## One step of `skip` and `skipGroup` -/

theorem skip_varint {bs r : List UInt8} {u : Nat} (h : decodeVarint bs = .ok (u, r)) :
    (skip wireVarint bs).map (·.1) = .ok r := by
  unfold skip
  split <;> simp_all [Except.map]

theorem skip_bytes {bs d r : List UInt8} (h : decodeRawBytes bs = .ok (d, r)) :
    (skip wireBytes bs).map (·.1) = .ok r := by
  unfold skip
  split <;> simp_all [Except.map]

theorem skipFixed_append {n : Nat} (hn : 0 < n) {p : List UInt8} (hp : p.length = n)
    (rest : List UInt8) : (skipFixed n hn (p ++ rest)).map (·.1) = .ok rest := by
  rw [skipFixed, dif_pos (by simp only [List.length_append]; omega)]
  simp [Except.map, ← hp]

theorem skip_fixed64 {p : List UInt8} (hp : p.length = 8) (rest : List UInt8) :
    (skip wireFixed64 (p ++ rest)).map (·.1) = .ok rest := by
  unfold skip; exact skipFixed_append _ hp rest

theorem skip_fixed32 {p : List UInt8} (hp : p.length = 4) (rest : List UInt8) :
    (skip wireFixed32 (p ++ rest)).map (·.1) = .ok rest := by
  unfold skip; exact skipFixed_append _ hp rest

theorem skip_startGroup (bs : List UInt8) : skip wireStartGroup bs = skipGroup bs := by
  unfold skip; rfl

theorem skip_endGroup (bs : List UInt8) :
    skip wireEndGroup bs = .error (.cannotSkip wireEndGroup) := by
  unfold skip; rfl

theorem skipGroup_end {bs r : List UInt8} {u : Nat} (h : decodeVarint bs = .ok (u, r))
    (hu : u &&& 7 = wireEndGroup) : (skipGroup bs).map (·.1) = .ok r := by
  unfold skipGroup
  split <;> simp_all [Except.map]

theorem skipGroup_field {bs r r' : List UInt8} {u : Nat} (h : decodeVarint bs = .ok (u, r))
    (hu : u &&& 7 ≠ wireEndGroup) (hs : (skip (u &&& 7) r).map (·.1) = .ok r') :
    (skipGroup bs).map (·.1) = (skipGroup r').map (·.1) := by
  conv_lhs => unfold skipGroup
  split
  · simp_all
  · rename_i u' r'' hd
    obtain ⟨rfl, rfl⟩ : u' = u ∧ r'' = r := by simp_all
    rw [if_neg hu]
    split
    · simp_all [Except.map]
    · rename_i s hs'
      rw [hs'] at hs
      cases hs
      split <;> simp_all [Except.map]

/-! ## Well-formed fields -/

namespace UnknownField

theorem wire_lt (f : UnknownField) : f.wire < 8 := by
  cases f <;> (simp only [wire]; decide)

theorem wire_ne_endGroup (f : UnknownField) : f.wire ≠ wireEndGroup := by
  cases f <;> (simp only [wire]; decide)

theorem tag_bounds_of_wellFormed {f : UnknownField} (hf : f.wellFormed) :
    0 < f.tag ∧ f.tag < 2 ^ 61 := by
  cases f <;> simp_all [wellFormed, tag]

end UnknownField

open UnknownField in
mutual

/-- `skip` steps over the payload of a well-formed field and leaves what follows. -/
theorem skip_payload : (f : UnknownField) → f.wellFormed → ∀ rest,
    (skip f.wire (f.payload ++ rest)).map (·.1) = .ok rest
  | .varint _ v, hf, rest => by
      simp only [wellFormed, Bool.and_eq_true, decide_eq_true_eq] at hf
      exact skip_varint (decodeVarint_encodeVarint hf.2 rest)
  | .fixed64 _ p, hf, rest => by
      simp only [wellFormed, Bool.and_eq_true, decide_eq_true_eq, beq_iff_eq] at hf
      exact skip_fixed64 hf.2 rest
  | .bytes _ d, hf, rest => by
      simp only [wellFormed, Bool.and_eq_true, decide_eq_true_eq] at hf
      exact skip_bytes (by rw [payload]; exact decodeRawBytes_encode hf.2 rest)
  | .group t body, hf, rest => by
      simp only [wellFormed, Bool.and_eq_true, decide_eq_true_eq] at hf
      rw [wire, skip_startGroup, payload, List.append_assoc]
      exact skipGroup_encodeAll body t hf.2 hf.1.2 rest
  | .fixed32 _ p, hf, rest => by
      simp only [wellFormed, Bool.and_eq_true, decide_eq_true_eq, beq_iff_eq] at hf
      exact skip_fixed32 hf.2 rest

theorem skipGroup_encodeAll : (fs : List UnknownField) → ∀ t, allWellFormed fs → t < 2 ^ 61 →
    ∀ rest, (skipGroup (encodeAll fs ++ (encodeVarint (fieldKey t wireEndGroup) ++ rest))).map
      (·.1) = .ok rest
  | [], t, _, ht, rest =>
      skipGroup_end (decodeVarint_encodeVarint (fieldKey_lt ht (by decide)) rest)
        (fieldKey_and_seven (by decide))
  | f :: fs, t, hfs, ht, rest => by
      simp only [allWellFormed, Bool.and_eq_true] at hfs
      have hkey := fieldKey_lt (tag_bounds_of_wellFormed hfs.1).2 f.wire_lt
      have hd :
          decodeVarint (encodeAll (f :: fs) ++ (encodeVarint (fieldKey t wireEndGroup) ++ rest))
          = .ok (fieldKey f.tag f.wire,
              f.payload ++ (encodeAll fs ++ (encodeVarint (fieldKey t wireEndGroup) ++ rest))) := by
        rw [encodeAll]; simp only [List.append_assoc]; exact decodeVarint_encodeVarint hkey _
      rw [skipGroup_field hd
          (by rw [fieldKey_and_seven f.wire_lt]; exact f.wire_ne_endGroup)
          (by rw [fieldKey_and_seven f.wire_lt]; exact skip_payload f hfs.1 _)]
      exact skipGroup_encodeAll fs t hfs.2 ht rest

end

namespace UnknownField

theorem isField_encode {f : UnknownField} (hf : f.wellFormed) :
    IsField (f.tag, encodeVarint (fieldKey f.tag f.wire) ++ f.payload) :=
  ⟨fieldKey f.tag f.wire, f.payload,
    decodeVarint_encodeVarint (fieldKey_lt (tag_bounds_of_wellFormed hf).2 f.wire_lt) _,
    fieldKey_shiftRight f.wire_lt,
    by
      have h := skip_payload f hf []
      rwa [fieldKey_and_seven f.wire_lt, ← List.append_nil f.payload]⟩

theorem encodeAll_eq_flatMap (fs : List UnknownField) :
    encodeAll fs =
      (fs.map fun f => (f.tag, encodeVarint (fieldKey f.tag f.wire) ++ f.payload)).flatMap
        (·.2) := by
  induction fs with
  | nil => rfl
  | cons f fs ih => rw [encodeAll, ih, List.map_cons, List.flatMap_cons, List.append_assoc]

end UnknownField

end TurboProfile
