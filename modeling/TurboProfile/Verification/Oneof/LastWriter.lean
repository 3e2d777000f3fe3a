import TurboProfile.Verification.Oneof.Codec

/-! # The last variant on the wire wins

The decoder hands every field it meets to `_EntityProfileDTO_OneofUnmarshaler`, in order. A
field of another number is left to the decoder, a variant field of the wrong wire type is an
error, and a variant field replaces whatever the oneof held with a payload decoded afresh:
after a run without error the oneof holds the variant of the last field numbered 8 or 9. -/

namespace TurboProfile

namespace EntityProfileDTO

/-- A field as the decoder hands it to the oneof unmarshaler: its number, its wire type and
the unread bytes after its key. -/
structure DecodedField where
  tag : Nat
  wire : Nat
  buf : List UInt8
  deriving DecidableEq, Repr

/-- The calls of the oneof unmarshaler on `fs` in order, from the message `m`, up to the first
that returns an error. -/
def oneofUnmarshalRun (m : EntityProfileDTO) :
    List DecodedField → EntityProfileDTO × Option ProtoError
  | [] => (m, none)
  | f :: fs =>
    let r := oneofUnmarshaler m f.tag f.wire f.buf
    match r.err with
    | some e => (r.msg, some e)
    | none => oneofUnmarshalRun r.msg fs

namespace DecodedField

/-- The field is one of the variants of `VMOrPMProfileData`. -/
def isVariant (f : DecodedField) : Bool := f.tag == 8 || f.tag == 9

/-- The variant field `f` names, 8 the VM one and 9 the PM one, with its payload decoded
afresh from its bytes. -/
def variant (f : DecodedField) : Option VMOrPMProfileData :=
  if f.tag = 8 then some (.vmProfileDTO (some (VMProfileDTO.properties.decodeMessage f.buf).1.1))
  else if f.tag = 9 then
    some (.pmProfileDTO (some (PMProfileDTO.properties.decodeMessage f.buf).1.1))
  else none

end DecodedField

/-! ## One call -/

theorem oneofUnmarshaler_of_not_variant {tag : Nat} (h8 : tag ≠ 8) (h9 : tag ≠ 9)
    (m : EntityProfileDTO) (wire : Nat) (b : List UInt8) :
    oneofUnmarshaler m tag wire b = ⟨false, none, m, b⟩ := by
  unfold oneofUnmarshaler
  split
  · exact absurd rfl h8
  · exact absurd rfl h9
  · rfl

theorem oneofUnmarshaler_of_bad_wire {tag wire : Nat} (htag : tag = 8 ∨ tag = 9)
    (hw : wire ≠ wireBytes) (m : EntityProfileDTO) (b : List UInt8) :
    oneofUnmarshaler m tag wire b = ⟨true, some .internalBadWireType, m, b⟩ := by
  rcases htag with rfl | rfl <;> simp [oneofUnmarshaler, hw]

/-- A VM field of the right wire type: the oneof is set to the payload `DecodeMessage` reads,
whether or not it fails. -/
theorem oneofUnmarshaler_vm (m : EntityProfileDTO) (b : List UInt8) :
    oneofUnmarshaler m 8 wireBytes b =
      ⟨true, (VMProfileDTO.properties.decodeMessage b).1.2,
        { m with vmOrPmProfileData :=
          some <| .vmProfileDTO <| some (VMProfileDTO.properties.decodeMessage b).1.1 },
        (VMProfileDTO.properties.decodeMessage b).2⟩ :=
  rfl

theorem oneofUnmarshaler_pm (m : EntityProfileDTO) (b : List UInt8) :
    oneofUnmarshaler m 9 wireBytes b =
      ⟨true, (PMProfileDTO.properties.decodeMessage b).1.2,
        { m with vmOrPmProfileData :=
          some <| .pmProfileDTO <| some (PMProfileDTO.properties.decodeMessage b).1.1 },
        (PMProfileDTO.properties.decodeMessage b).2⟩ :=
  rfl

/-- One call declines a number other than 8 and 9; on 8 or 9 it either reports a wrong wire type
or sets the oneof to a payload it allocates, and changes nothing else. -/
theorem oneofUnmarshaler_cases (m : EntityProfileDTO) (tag wire : Nat) (b : List UInt8) :
    (tag ≠ 8 ∧ tag ≠ 9 ∧ oneofUnmarshaler m tag wire b = ⟨false, none, m, b⟩) ∨
      ((tag = 8 ∨ tag = 9) ∧ (oneofUnmarshaler m tag wire b).handled ∧
        ((oneofUnmarshaler m tag wire b).msg = m ∨
          ∃ v : VMOrPMProfileData, v.nilError = none ∧
            (oneofUnmarshaler m tag wire b).msg = { m with vmOrPmProfileData := some v })) := by
  by_cases htag : tag = 8 ∨ tag = 9
  · refine .inr ⟨htag, ?_⟩
    by_cases hw : wire = wireBytes
    · subst hw
      rcases htag with rfl | rfl
      · exact ⟨rfl, .inr ⟨.vmProfileDTO (some _), rfl, rfl⟩⟩
      · exact ⟨rfl, .inr ⟨.pmProfileDTO (some _), rfl, rfl⟩⟩
    · rw [oneofUnmarshaler_of_bad_wire htag hw]
      exact ⟨rfl, .inl rfl⟩
  · rw [not_or] at htag
    exact .inl ⟨htag.1, htag.2, oneofUnmarshaler_of_not_variant htag.1 htag.2 m wire b⟩

theorem oneofUnmarshaler_variant {f : DecodedField} (hf : f.isVariant) (hw : f.wire = wireBytes)
    (m : EntityProfileDTO) :
    (oneofUnmarshaler m f.tag f.wire f.buf).msg = { m with vmOrPmProfileData := f.variant } := by
  obtain ⟨tag, wire, buf⟩ := f
  simp only [DecodedField.isVariant, Bool.or_eq_true, beq_iff_eq] at hf
  simp only at hw
  subst hw
  rcases hf with rfl | rfl <;> rfl

/-! ## A run -/

/-- Last writer wins, by replacement: a run without error leaves the oneof as it was when no
field numbered 8 or 9 came, and otherwise holds the variant of the last such field. -/
theorem oneofUnmarshalRun_last_variant :
    (∀ (m : EntityProfileDTO) (tag wire : Nat) (b : List UInt8), tag ≠ 8 → tag ≠ 9 →
      oneofUnmarshaler m tag wire b = ⟨false, none, m, b⟩) ∧
    (∀ (m : EntityProfileDTO) (tag wire : Nat) (b : List UInt8), (tag = 8 ∨ tag = 9) →
      wire ≠ wireBytes →
        (oneofUnmarshaler m tag wire b).handled = true ∧
        (oneofUnmarshaler m tag wire b).err = some .internalBadWireType ∧
        (oneofUnmarshaler m tag wire b).msg.vmOrPmProfileData = m.vmOrPmProfileData) ∧
    (∀ (m : EntityProfileDTO) (fs : List DecodedField), (oneofUnmarshalRun m fs).2 = none →
      (oneofUnmarshalRun m fs).1.vmOrPmProfileData =
        match (fs.filter (·.isVariant)).getLast? with
        | none => m.vmOrPmProfileData
        | some f => f.variant) := by
  refine ⟨fun m tag wire b h8 h9 => oneofUnmarshaler_of_not_variant h8 h9 m wire b,
    fun m tag wire b htag hw => by simp [oneofUnmarshaler_of_bad_wire htag hw], ?_⟩
  intro m fs
  induction fs generalizing m with
  | nil => intro; rfl
  | cons f fs ih =>
      intro hrun
      by_cases hf : f.isVariant
      · have hw : f.wire = wireBytes := by
          by_contra hw
          have htag : f.tag = 8 ∨ f.tag = 9 := by
            simpa [DecodedField.isVariant] using hf
          simp [oneofUnmarshalRun, oneofUnmarshaler_of_bad_wire htag hw] at hrun
        cases hr : (oneofUnmarshaler m f.tag f.wire f.buf).err with
        | some e => simp [oneofUnmarshalRun, hr] at hrun
        | none =>
            simp only [oneofUnmarshalRun, hr] at hrun ⊢
            rw [ih _ hrun, oneofUnmarshaler_variant hf hw, List.filter_cons_of_pos hf,
              List.getLast?_cons]
            cases (fs.filter (·.isVariant)).getLast? <;> rfl
      · have h8 : f.tag ≠ 8 := fun h => hf (by simp [DecodedField.isVariant, h])
        have h9 : f.tag ≠ 9 := fun h => hf (by simp [DecodedField.isVariant, h])
        simp only [oneofUnmarshalRun, oneofUnmarshaler_of_not_variant h8 h9] at hrun ⊢
        rw [ih m hrun, List.filter_cons_of_neg hf]

/-- A VM field and then a PM field: the run keeps the PM payload. -/
theorem oneofUnmarshalRun_vm_then_pm :
    let vm : VMProfileDTO := {}
    let pm : PMProfileDTO := { numCores := some ⟨16, by decide, by decide⟩ }
    let fs : List DecodedField :=
      [⟨8, wireBytes, encodeVarint (VMProfileDTO.properties.marshal vm).1.length ++
          (VMProfileDTO.properties.marshal vm).1⟩,
        ⟨9, wireBytes, encodeVarint (PMProfileDTO.properties.marshal pm).1.length ++
          (PMProfileDTO.properties.marshal pm).1⟩]
    (oneofUnmarshalRun {} fs).2 = none ∧
      (oneofUnmarshalRun {} fs).1.vmOrPmProfileData = some (.pmProfileDTO (some pm)) := by
  intro vm pm fs
  have hvm := StructProperties.decodeMessage_encodeMessage VMProfileDTO.properties_lawful
    (VMProfileDTO.properties_valid (p := vm) ⟨[], rfl, nofun⟩ (by decide)) []
  have hpm := StructProperties.decodeMessage_encodeMessage PMProfileDTO.properties_lawful
    (PMProfileDTO.properties_valid (q := pm) ⟨[], rfl, nofun⟩
      (by rw [PMProfileDTO.properties_lawful.marshal_eq]
          simp [pm, PMProfileDTO.properties, FieldProp.encode, FieldProp.encodeOne,
            encodeVarint_of_lt, fieldKey, Int32.toUInt64])) []
  simp only [List.append_nil, VMProfileDTO.properties_missingRequired,
    PMProfileDTO.properties_missingRequired, Option.map_none'] at hvm hpm
  have hrun : (oneofUnmarshalRun {} fs).2 = none := by
    simp [fs, oneofUnmarshalRun, oneofUnmarshaler, hvm, hpm]
  refine ⟨hrun, (oneofUnmarshalRun_last_variant.2.2 {} fs hrun).trans ?_⟩
  simp [fs, DecodedField.isVariant, DecodedField.variant, hpm]

end EntityProfileDTO

end TurboProfile
