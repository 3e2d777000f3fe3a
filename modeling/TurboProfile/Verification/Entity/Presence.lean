import TurboProfile.Verification.Entity.Fields
import TurboProfile.Model.Getters

/-! # Presence of the fields of `EntityProfileDTO`

The encoding of an entity holds the number of a field exactly when the field is set, a zero
included. The getters do not keep that presence: they read `false` for a flag left nil. -/

namespace TurboProfile

namespace EntityProfileDTO

open StructProperties

/-- Presence on the wire: the encoding of an entity holds the number of a plain field exactly
when the field holds a value. -/
theorem properties_marshal_present_iff {m : EntityProfileDTO}
    (hm : properties.UnknownFieldsWellFormed m)
    (hv : ∀ p ∈ properties.prop, ∀ v ∈ p.get m, p.coder.Valid v)
    (hu : ∀ v ∈ m.vmOrPmProfileData, v.Encodable) :
    ∃ ns, fieldNumbers (properties.marshal m).1 = some ns ∧
      ∀ p ∈ properties.prop, p.tag ∈ ns ↔ p.get m ≠ [] := by
  obtain ⟨fs, hunrec, hfs⟩ := hm
  refine ⟨_, fieldNumbers_marshal (fun f hf => (hfs f hf).1) hunrec hv hu, fun p hp => ?_⟩
  have honeof : p.tag ∉ (m.vmOrPmProfileData.map (·.tag)).toList := by
    rcases m.vmOrPmProfileData with _ | v
    · exact List.not_mem_nil _
    · intro h
      rw [Option.map_some', Option.toList_some, List.mem_singleton] at h
      exact tag_not_mem_oneof_tags hp (h ▸ v.tag_mem_oneof_tags)
  have hunknown : p.tag ∉ fs.map (·.1) := by
    simp only [List.mem_map, not_exists, not_and]
    exact fun f hf hfp => (hfs f hf).2.2 (hfp ▸ List.mem_append_left _ (List.mem_map_of_mem _ hp))
  simp only [List.mem_append, honeof, hunknown, or_false, List.mem_flatMap, List.mem_map]
  constructor
  · rintro ⟨q, hq, v, hv, hqp⟩
    rw [← properties.eq_of_tag_eq hq hp hqp]
    exact List.ne_nil_of_mem hv
  · intro hne
    obtain ⟨v, hv⟩ := List.exists_mem_of_ne_nil _ hne
    exact ⟨p, hp, v, hv, rfl⟩

/-- `enableProvisionMatch` set to `false`, `enableResizeMatch` nil. -/
theorem properties_marshal_present_iff_flags :
    ∃ ns, fieldNumbers (properties.marshal { enableProvisionMatch := some false }).1 = some ns ∧
      ∀ p ∈ properties.prop,
        p.tag ∈ ns ↔ p.get ({ enableProvisionMatch := some false } : EntityProfileDTO) ≠ [] :=
  properties_marshal_present_iff ⟨[], rfl, nofun⟩
    (List.forall_iff_forall_mem.mp ⟨by decide, by decide, by decide,
      fun _ h => absurd h (List.not_mem_nil _), by decide, by decide, by decide, by decide,
      by decide, by unfold List.Forall; decide⟩)
    (by simp)

/-- The flags default to `false`: a buffer without field 10, or 11, decodes to an entity whose
`GetEnableProvisionMatch`, or `GetEnableResizeMatch`, is `false`, with or without an error. -/
theorem properties_unmarshal_match_flags_default (bs : List UInt8) {ns : List Nat}
    (hns : fieldNumbers bs = some ns) :
    (10 ∉ ns → getEnableProvisionMatch (some (properties.unmarshal bs).1) = false) ∧
      (11 ∉ ns → getEnableResizeMatch (some (properties.unmarshal bs).1) = false) := by
  have hfst := properties.unmarshal_fst bs
  have hframe := @get_unmarshalFields_of_not_mem _ properties properties_coder_skipsLikeDecode
    properties_oneof_skipsLikeUnmarshal properties_oneof_get
  constructor
  · intro h10
    obtain ⟨p, hp, htag, hget⟩ : ∃ p ∈ properties.prop, p.tag = 10 ∧
        ∀ m : EntityProfileDTO, p.get m = [] ↔ m.enableProvisionMatch = none :=
      ⟨properties.prop.get ⟨7, by decide⟩, List.get_mem _ _ _, rfl,
        fun m => by
          show m.enableProvisionMatch.toList = [] ↔ _
          cases m.enableProvisionMatch <;> simp⟩
    have hs := (hget _).mp ((hframe hp bs properties.zero hns (htag ▸ h10)).trans
      ((hget _).mpr rfl))
    simp only [getEnableProvisionMatch, getSingular, hfst, hs, Option.getD_none]
  · intro h11
    obtain ⟨p, hp, htag, hget⟩ : ∃ p ∈ properties.prop, p.tag = 11 ∧
        ∀ m : EntityProfileDTO, p.get m = [] ↔ m.enableResizeMatch = none :=
      ⟨properties.prop.get ⟨8, by decide⟩, List.get_mem _ _ _, rfl,
        fun m => by
          show m.enableResizeMatch.toList = [] ↔ _
          cases m.enableResizeMatch <;> simp⟩
    have hs := (hget _).mp ((hframe hp bs properties.zero hns (htag ▸ h11)).trans
      ((hget _).mpr rfl))
    simp only [getEnableResizeMatch, getSingular, hfst, hs, Option.getD_none]

theorem properties_unmarshal_match_flags_default_displayName :
    fieldNumbers [18, 1, 65] = some [2] ∧
      (10 ∉ [2] → getEnableProvisionMatch (some (properties.unmarshal [18, 1, 65]).1) = false) ∧
      (11 ∉ [2] → getEnableResizeMatch (some (properties.unmarshal [18, 1, 65]).1) = false) :=
  ⟨fieldNumbers_displayName, properties_unmarshal_match_flags_default _ fieldNumbers_displayName⟩

end EntityProfileDTO

end TurboProfile
