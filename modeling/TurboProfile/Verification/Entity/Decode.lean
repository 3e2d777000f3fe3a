import TurboProfile.Verification.Entity.Errors
import TurboProfile.Verification.Entity.Merge

/-! # `EntityProfileDTO` decoded field by field

For every buffer the decoder reads without error, each plain field of the entity holds the
values of the fields of its number, each read from its own bytes, and the oneof the variant of
the last field numbered 8 or 9: the decoder is a function of the fields of the buffer. -/

namespace TurboProfile

namespace EntityProfileDTO

open StructProperties ValueCoder

theorem properties_coder_readsExactly : ∀ p ∈ properties.prop, p.coder.ReadsExactly :=
  List.forall_iff_forall_mem.mp ⟨readsExactly_bytes, readsExactly_bytes, readsExactly_int32,
    readsExactly_message _, readsExactly_bytes, readsExactly_bytes, readsExactly_bytes,
    readsExactly_bool, readsExactly_bool, readsExactly_bytes⟩

/-! ## The oneof, field by field -/

/-- The variant the payload of a field numbered `tag` holds, as the oneof unmarshaler reads it:
the VM or PM payload `DecodeMessage` reads for 8 or 9, none for another number. -/
def variantPayload (tag : Nat) (payload : List UInt8) : Option VMOrPMProfileData :=
  if tag = 8 then some (.vmProfileDTO (some (VMProfileDTO.properties.decodeMessage payload).1.1))
  else if tag = 9 then
    some (.pmProfileDTO (some (PMProfileDTO.properties.decodeMessage payload).1.1))
  else none

/-- The variant a field holds, from its number and its bytes. -/
def variantOf (f : Nat × List UInt8) : Option VMOrPMProfileData :=
  match decodeVarint f.2 with
  | .error _ => none
  | .ok (_, payload) => variantPayload f.1 payload

/-- The variant the fields `fs` leave in the oneof: that of the last field numbered 8 or 9. -/
def variantIn (fs : List (Nat × List UInt8)) : Option VMOrPMProfileData :=
  (fs.filterMap variantOf).getLast?

theorem variantOf_of_not_variant {f : Nat × List UInt8} (h8 : f.1 ≠ 8) (h9 : f.1 ≠ 9) :
    variantOf f = none := by
  unfold variantOf variantPayload
  split
  · rfl
  · rw [if_neg h8, if_neg h9]

theorem variantIn_filter (fs : List (Nat × List UInt8)) :
    variantIn (fs.filter (·.1 ∈ properties.oneof.tags)) = variantIn fs := by
  refine congrArg List.getLast? (filterMap_filter_of_ne_none (fun f hf => decide_eq_true ?_) fs)
  by_contra hn
  simp only [properties, oneofFuncs, List.mem_cons, List.not_mem_nil, or_false, not_or] at hn
  exact hf (variantOf_of_not_variant hn.1 hn.2)

theorem foldl_variantOf (fs : List (Nat × List UInt8)) (acc : Option VMOrPMProfileData) :
    fs.foldl (fun o f => (variantOf f).or o) acc = (variantIn fs).or acc := by
  induction fs generalizing acc with
  | nil => rfl
  | cons f fs ih =>
      rw [List.foldl_cons, ih]
      simp only [variantIn, List.filterMap_cons]
      cases variantOf f with
      | none => rfl
      | some w => rw [List.getLast?_cons]; cases (fs.filterMap variantOf).getLast? <;> rfl

theorem oneofUnmarshaler_ok {m m' : EntityProfileDTO} {tag wire : Nat} {b r : List UInt8}
    (h : oneofUnmarshaler m tag wire b = ⟨true, none, m', r⟩) :
    ∃ payload, b = payload ++ r ∧
      m'.vmOrPmProfileData = (variantPayload tag payload).or m.vmOrPmProfileData := by
  rcases oneofUnmarshaler_cases m tag wire b with ⟨-, -, h'⟩ | ⟨htag, -, -⟩
  · rw [h'] at h
    cases h
  by_cases hw : wire = wireBytes
  · subst hw
    rcases htag with rfl | rfl
    · rw [oneofUnmarshaler_vm] at h
      obtain ⟨-, herr, rfl, rfl⟩ := UnmarshalResult.mk.inj h
      obtain ⟨payload, hb, hp⟩ := VMProfileDTO.properties.decodeMessage_exact
        (show _ = ((_, none), _) by rw [← herr])
      exact ⟨payload, hb, by rw [variantPayload, if_pos rfl, hp]; rfl⟩
    · rw [oneofUnmarshaler_pm] at h
      obtain ⟨-, herr, rfl, rfl⟩ := UnmarshalResult.mk.inj h
      obtain ⟨payload, hb, hp⟩ := PMProfileDTO.properties.decodeMessage_exact
        (show _ = ((_, none), _) by rw [← herr])
      exact ⟨payload, hb, by rw [variantPayload, if_neg (by decide), if_pos rfl, hp]; rfl⟩
  · rw [oneofUnmarshaler_of_bad_wire htag hw] at h
    cases h

theorem vmOrPmProfileData_readField {bs r : List UInt8} {s s' : EntityProfileDTO}
    (h : properties.readField bs s = (s', .ok r)) :
    ∃ u rest, decodeVarint bs = .ok (u, rest) ∧ s'.vmOrPmProfileData =
      (variantOf (u >>> 3, bs.take (bs.length - r.length))).or s.vmOrPmProfileData := by
  obtain ⟨u, rest, hd, -, -, hcases⟩ := properties.readField_ok_cases h
  refine ⟨u, rest, hd, ?_⟩
  rcases hcases with ⟨q, hq, htag, -, v, -, rfl⟩ | ⟨-, hu⟩ | ⟨-, hh, -, rfl⟩
  · have hnot : ∀ n, n = 8 ∨ n = 9 → u >>> 3 ≠ n := fun n hn he =>
      properties_tags_not_mem_variant hn (he ▸ htag ▸ List.mem_map_of_mem _ hq)
    rw [oneof_store q hq s v, variantOf_of_not_variant (hnot 8 (.inl rfl)) (hnot 9 (.inr rfl))]
    rfl
  · obtain ⟨payload, hrest, hvm⟩ := oneofUnmarshaler_ok hu
    obtain ⟨key, hbs, hk⟩ := decodeVarint_exact hd
    rw [hvm, take_sub_length_of_exact hbs hrest, variantOf]
    simp only [decodeVarint_append hk, List.nil_append]
  · have hnot : u >>> 3 ∉ properties.oneof.tags := fun hn => by
      rw [properties_oneof_handled s _ (u &&& 7) rest hn] at hh
      cases hh
    simp only [properties, oneofFuncs, List.mem_cons, List.not_mem_nil, or_false, not_or] at hnot
    rw [variantOf_of_not_variant hnot.1 hnot.2]
    rfl

/-- The loop leaves in the oneof the variant of the last variant field of the buffer, or what
the entity held if there is none. -/
theorem vmOrPmProfileData_unmarshalFields (bs : List UInt8) (s : EntityProfileDTO)
    (h : (properties.unmarshalFields bs s).2 = none) :
    ∃ fs, fieldBytes bs = some fs ∧ (properties.unmarshalFields bs s).1.vmOrPmProfileData =
      (variantIn fs).or s.vmOrPmProfileData := by
  obtain ⟨fs, hfs, -, hfold⟩ := unmarshalFields_foldl properties_coder_skipsLikeDecode
    properties_oneof_skipsLikeUnmarshal bs s h
  exact ⟨fs, hfs, (hfold (·.vmOrPmProfileData) (fun o f => (variantOf f).or o)
    vmOrPmProfileData_readField).trans (foldl_variantOf fs _)⟩

/-! ## The decoder -/

theorem unmarshalFields_zero_fieldwise {bs : List UInt8} {fs : List (Nat × List UInt8)}
    (h : (properties.unmarshalFields bs properties.zero).2 = none)
    (hfs : fieldBytes bs = some fs) :
    (∀ p ∈ properties.prop,
        p.get (properties.unmarshalFields bs properties.zero).1 =
          p.label.merge [] (p.valuesIn fs)) ∧
      properties.unrecognized (properties.unmarshalFields bs properties.zero).1 =
        (fs.filter fun f => f.1 ∉ properties.tags).flatMap (·.2) ∧
      (properties.unmarshalFields bs properties.zero).1.vmOrPmProfileData = variantIn fs := by
  obtain ⟨fs₁, hfs₁, hget⟩ := get_unmarshalFields properties_coder_skipsLikeDecode
    properties_coder_readsExactly properties_oneof_skipsLikeUnmarshal properties_oneof_get bs
    properties.zero h
  obtain ⟨fs₂, hfs₂, hu⟩ := unrecognized_unmarshalFields properties_coder_skipsLikeDecode
    properties_oneof_skipsLikeUnmarshal properties_oneof_unrecognized properties_oneof_handled bs
    properties.zero h
  obtain ⟨fs₃, hfs₃, hvm⟩ := vmOrPmProfileData_unmarshalFields bs properties.zero h
  obtain rfl : fs = fs₁ := Option.some.inj (hfs.symm.trans hfs₁)
  obtain rfl : fs = fs₂ := Option.some.inj (hfs.symm.trans hfs₂)
  obtain rfl : fs = fs₃ := Option.some.inj (hfs.symm.trans hfs₃)
  refine ⟨fun p hp => ?_, ?_, ?_⟩
  · rw [hget p hp, properties.get_zero p hp]
  · rw [hu, properties.unrecognized_zero, List.nil_append]
  · rw [hvm]
    exact Option.or_none

/-- The decoder of `EntityProfileDTO`, field by field: a buffer read without error is a sequence
of whole fields, each plain field holds the values of the fields of its number (all of them for
a repeated field, the last for a singular one), and the oneof the variant of the last field
numbered 8 or 9. -/
theorem properties_unmarshal_fieldwise (bs : List UInt8)
    (h : (properties.unmarshalFields bs properties.zero).2 = none) :
    ∃ fs, fieldBytes bs = some fs ∧
      (∀ p ∈ properties.prop,
        p.get (properties.unmarshal bs).1 = p.label.merge [] (p.valuesIn fs)) ∧
      (properties.unmarshal bs).1.vmOrPmProfileData = variantIn fs := by
  obtain ⟨fs, hfs, -⟩ := vmOrPmProfileData_unmarshalFields bs properties.zero h
  obtain ⟨hget, -, hvm⟩ := unmarshalFields_zero_fieldwise h hfs
  rw [properties.unmarshal_fst]
  exact ⟨fs, hfs, hget, hvm⟩

/-- A `displayName` twice, "A" then "B": the decoded entity holds "B". -/
theorem properties_unmarshal_fieldwise_displayName :
    (properties.unmarshalFields [18, 1, 65, 18, 1, 66] properties.zero).2 = none ∧
      ∃ fs, fieldBytes [18, 1, 65, 18, 1, 66] = some fs ∧
        (∀ p ∈ properties.prop,
          p.get (properties.unmarshal [18, 1, 65, 18, 1, 66]).1 =
            p.label.merge [] (p.valuesIn fs)) ∧
        (properties.unmarshal [18, 1, 65, 18, 1, 66]).1.vmOrPmProfileData = variantIn fs :=
  have h : (properties.unmarshalFields [18, 1, 65, 18, 1, 66] properties.zero).2 = none := by
    rw [properties.unmarshalFields_of_readField (List.cons_ne_nil _ _)
        (show properties.readField [18, 1, 65, 18, 1, 66] properties.zero =
          ({ displayName := some [65] }, .ok [18, 1, 66]) from rfl),
      properties.unmarshalFields_of_readField (List.cons_ne_nil _ _)
        (show properties.readField [18, 1, 66] { displayName := some [65] } =
          ({ displayName := some [66] }, .ok []) from rfl), unmarshalFields_nil]
  ⟨h, properties_unmarshal_fieldwise _ h⟩

/-! ## The order of the fields -/

/-- The decoder sees the order of the fields only among those of one number, the two variant
numbers counting as one, and among the unknown fields. -/
theorem properties_unmarshal_eq_of_filter {bs bs' : List UInt8} {fs fs' : List (Nat × List UInt8)}
    (h : (properties.unmarshalFields bs properties.zero).2 = none)
    (h' : (properties.unmarshalFields bs' properties.zero).2 = none)
    (hfs : fieldBytes bs = some fs) (hfs' : fieldBytes bs' = some fs')
    (hplain : ∀ p ∈ properties.prop, fs.filter (·.1 = p.tag) = fs'.filter (·.1 = p.tag))
    (hvariant : fs.filter (·.1 ∈ properties.oneof.tags) =
      fs'.filter (·.1 ∈ properties.oneof.tags))
    (hunknown : fs.filter (·.1 ∉ properties.tags) = fs'.filter (·.1 ∉ properties.tags)) :
    properties.unmarshal bs = properties.unmarshal bs' := by
  obtain ⟨hget, hu, hvm⟩ := unmarshalFields_zero_fieldwise h hfs
  obtain ⟨hget', hu', hvm'⟩ := unmarshalFields_zero_fieldwise h' hfs'
  have hm : (properties.unmarshalFields bs properties.zero).1 =
      (properties.unmarshalFields bs' properties.zero).1 :=
    ext_of_get
      (fun p hp => by
        rw [hget p hp, hget' p hp, ← p.valuesIn_filter fs, hplain p hp, p.valuesIn_filter])
      (hu.trans (hunknown ▸ hu'.symm))
      (by rw [hvm, hvm', ← variantIn_filter fs, hvariant, variantIn_filter])
  rw [unmarshal, unmarshal, Prod.ext hm (h.trans h'.symm)]

/-- An `id` "B" and a `displayName` "A", in both orders. -/
theorem properties_unmarshal_eq_of_filter_swap :
    ∃ fs fs' : List (Nat × List UInt8),
      (properties.unmarshalFields [10, 1, 66, 18, 1, 65] properties.zero).2 = none ∧
      (properties.unmarshalFields [18, 1, 65, 10, 1, 66] properties.zero).2 = none ∧
      fieldBytes [10, 1, 66, 18, 1, 65] = some fs ∧ fieldBytes [18, 1, 65, 10, 1, 66] = some fs' ∧
      (∀ p ∈ properties.prop, fs.filter (·.1 = p.tag) = fs'.filter (·.1 = p.tag)) ∧
      fs.filter (·.1 ∈ properties.oneof.tags) = fs'.filter (·.1 ∈ properties.oneof.tags) ∧
      fs.filter (·.1 ∉ properties.tags) = fs'.filter (·.1 ∉ properties.tags) ∧
      properties.unmarshal [10, 1, 66, 18, 1, 65] =
        properties.unmarshal [18, 1, 65, 10, 1, 66] :=
  have h : (properties.unmarshalFields [10, 1, 66, 18, 1, 65] properties.zero).2 = none := by
    rw [properties.unmarshalFields_of_readField (List.cons_ne_nil _ _)
        (show properties.readField [10, 1, 66, 18, 1, 65] properties.zero =
          ({ id := some [66] }, .ok [18, 1, 65]) from rfl),
      properties.unmarshalFields_of_readField (List.cons_ne_nil _ _)
        (show properties.readField [18, 1, 65] { id := some [66] } =
          ({ id := some [66], displayName := some [65] }, .ok []) from rfl), unmarshalFields_nil]
  have h' : (properties.unmarshalFields [18, 1, 65, 10, 1, 66] properties.zero).2 = none := by
    rw [properties.unmarshalFields_of_readField (List.cons_ne_nil _ _)
        (show properties.readField [18, 1, 65, 10, 1, 66] properties.zero =
          ({ displayName := some [65] }, .ok [10, 1, 66]) from rfl),
      properties.unmarshalFields_of_readField (List.cons_ne_nil _ _)
        (show properties.readField [10, 1, 66] { displayName := some [65] } =
          ({ id := some [66], displayName := some [65] }, .ok []) from rfl), unmarshalFields_nil]
  have hfs : fieldBytes [10, 1, 66, 18, 1, 65] = some [(1, [10, 1, 66]), (2, [18, 1, 65])] := by
    rw [fieldBytes_of_skip (show decodeVarint [10, 1, 66, 18, 1, 65] = .ok (10, [1, 66, 18, 1, 65])
        from rfl) (skip_bytes (show decodeRawBytes [1, 66, 18, 1, 65] = .ok ([66], [18, 1, 65])
          from rfl)),
      fieldBytes_of_skip (show decodeVarint [18, 1, 65] = .ok (18, [1, 65]) from rfl)
        (skip_bytes (show decodeRawBytes [1, 65] = .ok ([65], []) from rfl)), fieldBytes_nil]
    rfl
  have hfs' : fieldBytes [18, 1, 65, 10, 1, 66] = some [(2, [18, 1, 65]), (1, [10, 1, 66])] := by
    rw [fieldBytes_of_skip (show decodeVarint [18, 1, 65, 10, 1, 66] = .ok (18, [1, 65, 10, 1, 66])
        from rfl) (skip_bytes (show decodeRawBytes [1, 65, 10, 1, 66] = .ok ([65], [10, 1, 66])
          from rfl)),
      fieldBytes_of_skip (show decodeVarint [10, 1, 66] = .ok (10, [1, 66]) from rfl)
        (skip_bytes (show decodeRawBytes [1, 66] = .ok ([66], []) from rfl)), fieldBytes_nil]
    rfl
  have hplain : ∀ p ∈ properties.prop,
      List.filter (·.1 = p.tag) ([(1, [10, 1, 66]), (2, [18, 1, 65])] : List (Nat × List UInt8)) =
        List.filter (·.1 = p.tag) [(2, [18, 1, 65]), (1, [10, 1, 66])] := by
    decide
  have hvariant : List.filter (·.1 ∈ properties.oneof.tags)
      ([(1, [10, 1, 66]), (2, [18, 1, 65])] : List (Nat × List UInt8)) =
        List.filter (·.1 ∈ properties.oneof.tags) [(2, [18, 1, 65]), (1, [10, 1, 66])] := by
    decide
  have hunknown : List.filter (·.1 ∉ properties.tags)
      ([(1, [10, 1, 66]), (2, [18, 1, 65])] : List (Nat × List UInt8)) =
        List.filter (·.1 ∉ properties.tags) [(2, [18, 1, 65]), (1, [10, 1, 66])] := by
    decide
  ⟨_, _, h, h', hfs, hfs', hplain, hvariant, hunknown,
    properties_unmarshal_eq_of_filter h h' hfs hfs' hplain hvariant hunknown⟩

/-! ## Decoding over an entity -/

theorem properties_oneof_outcomeOfBytes : properties.oneof.OutcomeOfBytes := by
  intro m m' tag wire b
  show (oneofUnmarshaler m tag wire b).handled = (oneofUnmarshaler m' tag wire b).handled ∧
    (oneofUnmarshaler m tag wire b).err = (oneofUnmarshaler m' tag wire b).err ∧
    (oneofUnmarshaler m tag wire b).rest = (oneofUnmarshaler m' tag wire b).rest
  unfold oneofUnmarshaler
  split <;> (try split) <;> exact ⟨rfl, rfl, rfl⟩

theorem unmarshalFields_eq_merge (bs : List UInt8) (s : EntityProfileDTO)
    (h : (properties.unmarshalFields bs properties.zero).2 = none) :
    properties.unmarshalFields bs s =
      (merge s (properties.unmarshalFields bs properties.zero).1, none) := by
  obtain ⟨hs, hget, hu⟩ := mergeOf_unmarshalFields properties_coder_skipsLikeDecode
    properties_coder_readsExactly properties_oneof_skipsLikeUnmarshal
    properties_oneof_outcomeOfBytes properties_oneof_get properties_oneof_unrecognized
    properties_oneof_handled bs s h
  obtain ⟨hget', hu'⟩ :=
    properties_mergeOf_merge s (properties.unmarshalFields bs properties.zero).1
  obtain ⟨fs, hfs, hvm⟩ := vmOrPmProfileData_unmarshalFields bs s hs
  obtain ⟨fs₀, hfs₀, hvm₀⟩ := vmOrPmProfileData_unmarshalFields bs properties.zero h
  obtain rfl : fs = fs₀ := Option.some.inj (hfs.symm.trans hfs₀)
  refine Prod.ext (ext_of_get (fun p hp => (hget p hp).trans (hget' p hp).symm)
    (hu.trans hu'.symm) ?_) hs
  show _ = (properties.unmarshalFields bs properties.zero).1.vmOrPmProfileData.or _
  rw [hvm, hvm₀]
  cases variantIn fs <;> rfl

/-- Decoding two buffers one after the other gives the `merge` of the two entities; the
required fields are checked on the merge. -/
theorem properties_unmarshal_append (bs₁ bs₂ : List UInt8)
    (h₁ : (properties.unmarshalFields bs₁ properties.zero).2 = none)
    (h₂ : (properties.unmarshalFields bs₂ properties.zero).2 = none) :
    properties.unmarshal (bs₁ ++ bs₂) =
      (merge (properties.unmarshal bs₁).1 (properties.unmarshal bs₂).1,
        (properties.missingRequired
          (merge (properties.unmarshal bs₁).1 (properties.unmarshal bs₂).1)).map
            .requiredNotSet) := by
  rw [unmarshal, unmarshalFields_append properties_coder_readsPrefix properties_oneof_readsPrefix
    bs₁ _ h₁, unmarshalFields_eq_merge bs₂ _ h₂, properties.unmarshal_fst,
    properties.unmarshal_fst]

/-- A `displayName` "A" in the first buffer and an `id` "B" in the second. -/
theorem properties_unmarshal_append_id :
    (properties.unmarshalFields [18, 1, 65] properties.zero).2 = none ∧
      (properties.unmarshalFields [10, 1, 66] properties.zero).2 = none ∧
      properties.unmarshal ([18, 1, 65] ++ [10, 1, 66]) =
        (merge (properties.unmarshal [18, 1, 65]).1 (properties.unmarshal [10, 1, 66]).1,
          (properties.missingRequired
            (merge (properties.unmarshal [18, 1, 65]).1 (properties.unmarshal [10, 1, 66]).1)).map
              .requiredNotSet) :=
  have h₁ : (properties.unmarshalFields [18, 1, 65] properties.zero).2 = none := by
    rw [properties.unmarshalFields_of_readField (List.cons_ne_nil _ _)
      (show properties.readField [18, 1, 65] properties.zero =
        ({ displayName := some [65] }, .ok []) from rfl), unmarshalFields_nil]
  have h₂ : (properties.unmarshalFields [10, 1, 66] properties.zero).2 = none := by
    rw [properties.unmarshalFields_of_readField (List.cons_ne_nil _ _)
      (show properties.readField [10, 1, 66] properties.zero =
        ({ id := some [66] }, .ok []) from rfl), unmarshalFields_nil]
  ⟨h₁, h₂, properties_unmarshal_append _ _ h₁ h₂⟩

end EntityProfileDTO

end TurboProfile
