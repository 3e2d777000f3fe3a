import TurboProfile.Verification.Wire.Append
import TurboProfile.Verification.Message.RoundTrip

/-! # Decoding a concatenation

Each reader decides from the bytes it consumes alone, so decoding `bs₁ ++ bs₂` decodes `bs₂`
into the message `bs₁` gave. -/

namespace TurboProfile

/-! ## Readers of values -/

namespace ValueCoder

/-- The decoder of the coder reads only the value it returns. -/
def ReadsPrefix (c : ValueCoder) : Prop :=
  ∀ {bs v r}, c.decode bs = .ok (v, r) → ∀ t, c.decode (bs ++ t) = .ok (v, r ++ t)

theorem readsPrefix_int32 : int32.ReadsPrefix := by
  intro bs v r h t
  dsimp only at h ⊢
  split at h
  · cases h; rw [decodeVarint_append ‹_› t]
  · cases h

theorem readsPrefix_float32 : float32.ReadsPrefix := by
  intro bs v r h t
  dsimp only at h ⊢
  split at h
  · cases h; rw [decodeFixed32_append ‹_› t]
  · cases h

theorem readsPrefix_bool : bool.ReadsPrefix := by
  intro bs v r h t
  dsimp only at h ⊢
  split at h
  · cases h; rw [decodeVarint_append ‹_› t]
  · cases h

theorem readsPrefix_bytes : bytes.ReadsPrefix := fun h t => decodeRawBytes_append h t

theorem readsPrefix_message {N : Type} (P : StructProperties N) : (message P).ReadsPrefix := by
  intro bs v r h t
  dsimp only at h ⊢
  split at h
  · cases h
  · rw [decodeRawBytes_append ‹_› t]
    split at h <;> cases h
    simp only [*]

end ValueCoder

/-! ## Oneof unmarshalers -/

/-- A oneof unmarshaler that, unless it reports an error, read only the field it returns. -/
def OneofFuncs.ReadsPrefix {M : Type} (o : OneofFuncs M) : Prop :=
  ∀ m tag wire b, ((o.unmarshaler m tag wire b).handled → (o.unmarshaler m tag wire b).err = none) →
    ∀ t, o.unmarshaler m tag wire (b ++ t) =
      { o.unmarshaler m tag wire b with rest := (o.unmarshaler m tag wire b).rest ++ t }

theorem OneofFuncs.readsPrefix_empty {M : Type} : (OneofFuncs.empty : OneofFuncs M).ReadsPrefix :=
  fun _ _ _ _ _ _ => rfl

namespace StructProperties

variable {M : Type} (P : StructProperties M)

theorem decodeMessage_append {bs : List UInt8} (h : (P.decodeMessage bs).1.2 = none)
    (t : List UInt8) :
    P.decodeMessage (bs ++ t) = ((P.decodeMessage bs).1, (P.decodeMessage bs).2 ++ t) := by
  unfold decodeMessage at h ⊢
  cases hd : decodeRawBytes bs with
  | error e => simp only [hd] at h; cases h
  | ok er => simp only [decodeRawBytes_append hd t]

/-! ## One field -/

variable {P}

theorem readField_append (hc : ∀ p ∈ P.prop, p.coder.ReadsPrefix) (ho : P.oneof.ReadsPrefix)
    {bs r : List UInt8} {s s' : M} (h : P.readField bs s = (s', .ok r)) (t : List UInt8) :
    P.readField (bs ++ t) s = (s', .ok (r ++ t)) := by
  unfold readField at h ⊢
  split at h
  · cases h
  · rename_i u rest hu
    rw [decodeVarint_append hu t]
    dsimp only at h ⊢
    split at h
    · cases h
    rw [if_neg ‹_›]
    split at h
    · cases h
    rw [if_neg ‹_›]
    split at h
    · rename_i p hp
      split at h
      · cases h
      rw [if_neg ‹_›]
      split at h
      · cases h
      · rename_i v r' hd
        cases h
        rw [hc p (List.mem_of_find?_eq_some hp) hd t]
    · have hok : (P.oneof.unmarshaler s (u >>> 3) (u &&& 7) rest).handled →
          (P.oneof.unmarshaler s (u >>> 3) (u &&& 7) rest).err = none := by
        intro hh
        rw [if_pos hh] at h
        cases herr : (P.oneof.unmarshaler s (u >>> 3) (u &&& 7) rest).err with
        | none => rfl
        | some e =>
          rw [herr] at h
          split at h
          · cases h
          · cases h
          · rename_i hn; cases hn
      rw [ho s _ _ rest hok t]
      dsimp only
      split at h
      · rename_i hh
        rw [if_pos hh, hok hh]
        rw [hok hh] at h
        cases h
        rfl
      · rw [if_neg ‹_›]
        split at h
        · cases h
        · rename_i r' hs
          cases h
          have hs' := skip_map_append _ _ (r := r'.1) (by rw [hs]; rfl) t
          split
          · rename_i e he; rw [he] at hs'; cases hs'
          · rename_i r'' he
            rw [he] at hs'
            have hr : r''.1 = r'.1 ++ t := by simpa [Except.map] using hs'
            have hle : bs.length - r'.1.length ≤ bs.length := Nat.sub_le _ _
            simp only [hr, List.length_append, Nat.add_sub_add_right,
              List.take_append_of_le_length hle]

/-! ## The loop -/

/-- The merge law: once the loop has read `bs₁` without error, decoding `bs₁ ++ bs₂` decodes
`bs₂` into the message `bs₁` gave. -/
theorem unmarshalFields_append (hc : ∀ p ∈ P.prop, p.coder.ReadsPrefix)
    (ho : P.oneof.ReadsPrefix) (bs₁ : List UInt8) (s : M)
    (h : (P.unmarshalFields bs₁ s).2 = none) (bs₂ : List UInt8) :
    P.unmarshalFields (bs₁ ++ bs₂) s = P.unmarshalFields bs₂ (P.unmarshalFields bs₁ s).1 := by
  induction bs₁, s using unmarshalFields.induct P with
  | case1 m => simp
  | case2 m b bs m' e hr =>
      rw [P.unmarshalFields_of_readField_error (List.cons_ne_nil _ _) hr] at h
      cases h
  | case3 m b bs m' r hr ih =>
      rw [P.unmarshalFields_of_readField (List.cons_ne_nil _ _) hr] at h ⊢
      rw [P.unmarshalFields_of_readField (by simp) (readField_append hc ho hr bs₂)]
      exact ih h

/-- Encodings that each merge into any message without error, decoded one after the other,
merge in order. -/
theorem unmarshalFields_flatMap_of_step (hc : ∀ p ∈ P.prop, p.coder.ReadsPrefix)
    (ho : P.oneof.ReadsPrefix) {N : Type} {enc : N → List UInt8} {mg : M → N → M}
    {ns : List N} (hstep : ∀ n ∈ ns, ∀ s, P.unmarshalFields (enc n) s = (mg s n, none))
    (s : M) : P.unmarshalFields (ns.flatMap enc) s = (ns.foldl mg s, none) := by
  induction ns generalizing s with
  | nil => simp
  | cons n ns ih =>
      have h₁ := hstep n (List.mem_cons_self _ _) s
      rw [List.flatMap_cons, unmarshalFields_append hc ho _ s (by rw [h₁]) _, h₁,
        List.foldl_cons]
      exact ih (fun n' hn' => hstep n' (List.mem_cons_of_mem _ hn')) _

end StructProperties

end TurboProfile
