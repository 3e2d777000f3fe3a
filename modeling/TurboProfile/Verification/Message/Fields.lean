import TurboProfile.Verification.Wire.Fields
import TurboProfile.Verification.Message.RoundTrip

/-! # The fields the encoder writes and the decoder reads

Every reader the decoder calls consumes what `skip` steps over, so what the decoder accepts is
a sequence of whole fields; the encoder writes each value under its field's number. -/

namespace TurboProfile

/-! ## Readers that consume what `skip` steps over -/

namespace ValueCoder

/-- The decoder of the coder consumes the payload `skip` steps over for its wire type. -/
def SkipsLikeDecode (c : ValueCoder) : Prop :=
  ∀ {bs v r}, c.decode bs = .ok (v, r) → (skip c.wireType bs).map (·.1) = .ok r

theorem skipsLikeDecode_int32 : int32.SkipsLikeDecode := by
  intro bs v r h
  dsimp only at h ⊢
  split at h
  · cases h; exact skip_varint ‹_›
  · cases h

theorem skipsLikeDecode_float32 : float32.SkipsLikeDecode := by
  intro bs v r h
  dsimp only at h ⊢
  split at h
  · cases h
    rename_i hd
    match bs, hd with
    | a :: b :: c :: d :: r, rfl => exact skip_fixed32 (p := [a, b, c, d]) rfl r
  · cases h

theorem skipsLikeDecode_bool : bool.SkipsLikeDecode := by
  intro bs v r h
  dsimp only at h ⊢
  split at h
  · cases h; exact skip_varint ‹_›
  · cases h

theorem skipsLikeDecode_bytes : bytes.SkipsLikeDecode := fun h => skip_bytes h

theorem skipsLikeDecode_message {N : Type} (P : StructProperties N) :
    (message P).SkipsLikeDecode := by
  intro bs v r h
  dsimp only at h ⊢
  split at h
  · cases h
  · split at h <;> cases h
    exact skip_bytes ‹_›

theorem skip_encode {c : ValueCoder} (hc : c.Lawful) (hs : c.SkipsLikeDecode) {v : c.Val}
    (hv : c.Valid v) (rest : List UInt8) :
    (skip c.wireType (c.encode v ++ rest)).map (·.1) = .ok rest :=
  hs (hc.decode_encode hv rest)

end ValueCoder

/-- A oneof unmarshaler that, when it takes a field without error, consumes the payload `skip`
steps over. -/
def OneofFuncs.SkipsLikeUnmarshal {M : Type} (o : OneofFuncs M) : Prop :=
  ∀ m tag wire b, (o.unmarshaler m tag wire b).handled → (o.unmarshaler m tag wire b).err = none →
    (skip wire b).map (·.1) = .ok (o.unmarshaler m tag wire b).rest

theorem OneofFuncs.skipsLikeUnmarshal_empty {M : Type} :
    (OneofFuncs.empty : OneofFuncs M).SkipsLikeUnmarshal :=
  fun _ _ _ _ h => nomatch h

namespace StructProperties

variable {M : Type} {P : StructProperties M}

theorem tag_not_mem_oneof_tags {p : FieldProp M} (hp : p ∈ P.prop) : p.tag ∉ P.oneof.tags :=
  (List.nodup_append.mp P.tags_nodup).2.2 (List.mem_map_of_mem _ hp)

theorem decodeMessage_skip {bs : List UInt8} (h : (P.decodeMessage bs).1.2 = none) :
    (skip wireBytes bs).map (·.1) = .ok (P.decodeMessage bs).2 := by
  unfold decodeMessage at h ⊢
  split at h
  · cases h
  · exact skip_bytes ‹_›

/-! ## The encoder -/

theorem fieldNumbers_encodeOne {p : FieldProp M} (hp : p ∈ P.prop) (hc : p.coder.Lawful)
    (hs : p.coder.SkipsLikeDecode) {v : p.coder.Val} (hv : p.coder.Valid v) (rest : List UInt8) :
    fieldNumbers (p.encodeOne v ++ rest) = (fieldNumbers rest).map (p.tag :: ·) := by
  have ht := (P.tag_bounds p hp).2
  rw [FieldProp.encodeOne, List.append_assoc,
    fieldNumbers_of_skip (decodeVarint_encodeVarint (fieldKey_lt ht hc.wireType_lt) _)
      (by rw [fieldKey_and_seven hc.wireType_lt]; exact ValueCoder.skip_encode hc hs hv rest),
    fieldKey_shiftRight hc.wireType_lt]

theorem fieldNumbers_encode {p : FieldProp M} (hp : p ∈ P.prop) (hc : p.coder.Lawful)
    (hs : p.coder.SkipsLikeDecode) (vs : List p.coder.Val) (hv : ∀ v ∈ vs, p.coder.Valid v)
    (rest : List UInt8) :
    fieldNumbers (vs.flatMap p.encodeOne ++ rest) =
      (fieldNumbers rest).map (vs.map (fun _ => p.tag) ++ ·) := by
  induction vs with
  | nil => simp
  | cons v vs ih =>
      rw [List.flatMap_cons, List.append_assoc, fieldNumbers_encodeOne hp hc hs (hv v (by simp)),
        ih (fun w hw => hv w (List.mem_cons_of_mem _ hw)), Option.map_map]
      rfl

theorem fieldNumbers_flatMap_encode (hc : ∀ p ∈ P.prop, p.coder.Lawful)
    (hs : ∀ p ∈ P.prop, p.coder.SkipsLikeDecode) {m : M}
    (hv : ∀ p ∈ P.prop, ∀ v ∈ p.get m, p.coder.Valid v) (ps : List (FieldProp M))
    (hps : ∀ p ∈ ps, p ∈ P.prop) (rest : List UInt8) :
    fieldNumbers (ps.flatMap (·.encode m) ++ rest) =
      (fieldNumbers rest).map (ps.flatMap (fun p => (p.get m).map fun _ => p.tag) ++ ·) := by
  induction ps with
  | nil => simp
  | cons p ps ih =>
      have hp := hps p (List.mem_cons_self _ _)
      rw [List.flatMap_cons, List.append_assoc, FieldProp.encode,
        fieldNumbers_encode hp (hc p hp) (hs p hp) _ (hv p hp),
        ih (fun q hq => hps q (List.mem_cons_of_mem _ hq)), Option.map_map, List.flatMap_cons]
      simp only [Function.comp_def, List.append_assoc]

/-! ## The decoder -/

/-- A pass without error read a key of a nonzero number, then stored a declared value, handed
the field to the oneof unmarshaler, or kept it in the unrecognized bytes. -/
theorem readField_ok_cases {bs r : List UInt8} {s s' : M} (h : P.readField bs s = (s', .ok r)) :
    ∃ u rest, decodeVarint bs = .ok (u, rest) ∧ u &&& 7 ≠ wireEndGroup ∧ u >>> 3 ≠ 0 ∧
      ((∃ p ∈ P.prop, p.tag = u >>> 3 ∧ u &&& 7 = p.coder.wireType ∧
          ∃ v, p.coder.decode rest = .ok (v, r) ∧ s' = p.store s v) ∨
        (u >>> 3 ∉ P.prop.map (·.tag) ∧
          P.oneof.unmarshaler s (u >>> 3) (u &&& 7) rest = ⟨true, none, s', r⟩) ∨
        (u >>> 3 ∉ P.prop.map (·.tag) ∧
          (P.oneof.unmarshaler s (u >>> 3) (u &&& 7) rest).handled = false ∧
          (skip (u &&& 7) rest).map (·.1) = .ok r ∧
          s' = P.setUnrecognized s (P.unrecognized s ++ bs.take (bs.length - r.length)))) := by
  unfold readField at h
  split at h
  · cases h
  rename_i u rest hu
  dsimp only at h
  split at h
  · cases h
  rename_i hw
  split at h
  · cases h
  rename_i h0
  refine ⟨u, rest, hu, hw, h0, ?_⟩
  split at h
  · rename_i p hp
    split at h
    · cases h
    rename_i hwp
    split at h
    · cases h
    · rename_i v r' hd
      cases h
      exact .inl ⟨p, List.mem_of_find?_eq_some hp, by simpa using List.find?_some hp,
        Decidable.of_not_not hwp, v, hd, rfl⟩
  · rename_i hn
    have hnm : u >>> 3 ∉ P.prop.map (·.tag) := fun hm => by
      obtain ⟨q, hq, hqt⟩ := List.mem_map.mp hm
      exact List.find?_eq_none.mp hn q hq (decide_eq_true hqt)
    split at h
    · rename_i hh
      split at h
      · cases h
      · cases h
      · rename_i herr
        cases h
        exact .inr (.inl ⟨hnm, by rw [← hh, ← herr]⟩)
    · rename_i hh
      split at h
      · cases h
      · rename_i r' hs
        cases h
        exact .inr (.inr ⟨hnm, Bool.eq_false_iff.mpr hh, by rw [hs]; rfl, rfl⟩)

theorem tag_mem_oneof_tags_of_handled {m : M} {tag wire : Nat} {b : List UInt8}
    (hh : (P.oneof.unmarshaler m tag wire b).handled) : tag ∈ P.oneof.tags :=
  Decidable.of_not_not fun hn => by rw [P.unmarshaler_of_not_mem m tag wire b hn] at hh; cases hh

theorem readField_skip (hc : ∀ p ∈ P.prop, p.coder.SkipsLikeDecode)
    (ho : P.oneof.SkipsLikeUnmarshal) {bs r : List UInt8} {s s' : M}
    (h : P.readField bs s = (s', .ok r)) :
    ∃ u rest, decodeVarint bs = .ok (u, rest) ∧ (skip (u &&& 7) rest).map (·.1) = .ok r := by
  obtain ⟨u, rest, hd, -, -, ⟨p, hp, -, hw, v, hv, -⟩ | ⟨-, hu⟩ | ⟨-, -, hs, -⟩⟩ :=
    P.readField_ok_cases h
  · exact ⟨u, rest, hd, hw ▸ hc p hp hv⟩
  · have := ho s _ _ rest (by rw [hu]) (by rw [hu])
    rw [hu] at this
    exact ⟨u, rest, hd, this⟩
  · exact ⟨u, rest, hd, hs⟩

theorem get_readField_of_ne
    (hf : ∀ p ∈ P.prop, ∀ m tag wire b, p.get (P.oneof.unmarshaler m tag wire b).msg = p.get m)
    {p : FieldProp M} (hp : p ∈ P.prop) {bs r : List UInt8} {u : Nat}
    (hd : decodeVarint bs = .ok (u, r)) (hne : u >>> 3 ≠ p.tag) (s : M) :
    p.get (P.readField bs s).1 = p.get s := by
  unfold readField
  rw [hd]
  dsimp only
  split
  · rfl
  split
  · rfl
  split
  · rename_i q hq
    have hqt : q.tag = u >>> 3 := by simpa using List.find?_some hq
    split
    · rfl
    split
    · rfl
    · exact P.get_store_of_ne q (List.mem_of_find?_eq_some hq) p hp (hqt ▸ hne) s _
  · split
    · split <;> exact hf p hp _ _ _ _
    · split
      · rfl
      · exact P.get_setUnrecognized p hp s _

/-- A declared field whose number the buffer does not hold keeps its value through the loop,
with or without an error. -/
theorem get_unmarshalFields_of_not_mem (hc : ∀ p ∈ P.prop, p.coder.SkipsLikeDecode)
    (ho : P.oneof.SkipsLikeUnmarshal)
    (hf : ∀ p ∈ P.prop, ∀ m tag wire b, p.get (P.oneof.unmarshaler m tag wire b).msg = p.get m)
    {p : FieldProp M} (hp : p ∈ P.prop) (bs : List UInt8) (s : M) {ns : List Nat}
    (hns : fieldNumbers bs = some ns) (ht : p.tag ∉ ns) :
    p.get (P.unmarshalFields bs s).1 = p.get s := by
  induction bs, s using unmarshalFields.induct P generalizing ns with
  | case1 m => simp
  | case2 m b bs m' e hr =>
      obtain ⟨u, r₀, -, ns', hd, -, -, rfl⟩ := fieldNumbers_cons_inv (List.cons_ne_nil _ _) hns
      have hget := get_readField_of_ne hf hp hd (fun h => ht (h ▸ List.mem_cons_self _ _)) m
      rw [hr] at hget
      rwa [P.unmarshalFields_of_readField_error (List.cons_ne_nil _ _) hr]
  | case3 m b bs m' r hr ih =>
      obtain ⟨u, rest, hd, hs⟩ := readField_skip hc ho hr
      rw [fieldNumbers_of_skip hd hs] at hns
      obtain ⟨ns', hns', rfl⟩ := Option.map_eq_some'.mp hns
      have hget := get_readField_of_ne hf hp hd (fun h => ht (h ▸ List.mem_cons_self _ _)) m
      rw [hr] at hget
      rw [P.unmarshalFields_of_readField (List.cons_ne_nil _ _) hr,
        ih hns' (fun h => ht (List.mem_cons_of_mem _ h)), hget]

end StructProperties

end TurboProfile
