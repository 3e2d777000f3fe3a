import TurboProfile.Verification.Message.Decode

/-! # Decoding is stable under re-encoding

Every value decoded reads back from its canonical encoding, and the unknown fields, written
verbatim, read again as the same fields: both are invariants of the decoding loop. -/

namespace TurboProfile

/-! ## Fields on their own bytes -/

theorem isField_take {b rest r : List UInt8} {u : Nat} (hd : decodeVarint b = .ok (u, rest))
    (hs : (skip (u &&& 7) rest).map (·.1) = .ok r) :
    IsField (u >>> 3, b.take (b.length - r.length)) := by
  obtain ⟨key, hb, hk⟩ := decodeVarint_exact hd
  obtain ⟨pay, hrest, hpay⟩ := skip_exact _ _ hs
  refine ⟨u, pay, ?_, rfl, hpay⟩
  have hkp := decodeVarint_append hk pay
  rw [List.nil_append] at hkp
  rw [take_sub_length_of_exact hb hrest]
  exact hkp

/-! ## Coders whose decoded values read back -/

namespace ValueCoder

/-- Every value the coder decodes from at most `n` bytes reads back from its encoding. -/
def Stable (c : ValueCoder) (n : Nat) : Prop :=
  ∀ {bs v r}, c.decode bs = .ok (v, r) → bs.length ≤ n → c.ReadsBack v

theorem Stable.mono {c : ValueCoder} {n n' : Nat} (hc : c.Stable n) (h : n' ≤ n) :
    c.Stable n' :=
  fun hd hl => hc hd (hl.trans h)

theorem stable_of_lawful {c : ValueCoder} (hc : c.Lawful) (hv : ∀ v, c.Valid v) (n : Nat) :
    c.Stable n :=
  fun _ _ => hc.readsBack (hv _)

theorem stable_int32 (n : Nat) : int32.Stable n :=
  stable_of_lawful lawful_int32 (fun _ => trivial) n

theorem stable_float32 (n : Nat) : float32.Stable n :=
  stable_of_lawful lawful_float32 (fun _ => trivial) n

theorem stable_bool (n : Nat) : bool.Stable n :=
  stable_of_lawful lawful_bool (fun _ => trivial) n

theorem stable_bytes (n : Nat) : bytes.Stable n :=
  fun hd _ => lawful_bytes.readsBack (decodeRawBytes_length_lt_two_pow hd)

theorem length_encode_int32_le (v : Int32) : (int32.encode v).length ≤ 10 :=
  (lawful_int32.length_encode v).trans_le (sizeVarint_le_ten (Int32.toUInt64_lt v))

theorem length_encode_float32_le (v : Float32) : (float32.encode v).length ≤ 10 :=
  (lawful_float32.length_encode v).trans_le (by show 4 ≤ 10; decide)

end ValueCoder

theorem FieldProp.length_encodeOne_le {M : Type} {p : FieldProp M}
    (hkey : fieldKey p.tag p.coder.wireType < 128) {B : Nat}
    (hB : ∀ v, (p.coder.encode v).length ≤ B) (v : p.coder.Val) :
    (p.encodeOne v).length ≤ B + 1 := by
  rw [FieldProp.encodeOne, List.length_append, length_encodeVarint, sizeVarint_of_lt hkey,
    Nat.add_comm]
  exact Nat.add_le_add_right (hB v) 1

/-! ## Invariants of the decoding loop -/

theorem Label.mem_push {α : Type} {label : Label} {l : List α} {v w : α}
    (h : v ∈ label.push l w) : v ∈ l ∨ v = w := by
  cases label <;> simp_all [Label.push]

namespace StructProperties

variable {M : Type} {P : StructProperties M}

/-- An invariant every pass without error keeps holds when the loop reads a buffer without
error. -/
theorem unmarshalFields_inv {F : List UInt8 → M → Prop}
    (hstep : ∀ {b r t t'}, P.readField b t = (t', .ok r) → F b t → F r t')
    {bs : List UInt8} {s : M} (hs : F bs s) (h : (P.unmarshalFields bs s).2 = none) :
    F [] (P.unmarshalFields bs s).1 := by
  induction bs, s using unmarshalFields.induct P with
  | case1 m => rwa [P.unmarshalFields_nil]
  | case2 m b bs m' e hr =>
      rw [P.unmarshalFields_of_readField_error (List.cons_ne_nil _ _) hr] at h
      cases h
  | case3 m b bs m' r hr ih =>
      rw [P.unmarshalFields_of_readField (List.cons_ne_nil _ _) hr] at h ⊢
      exact ih (hstep hr hs) h

theorem readsBack_readField {n : Nat} (hs : ∀ p ∈ P.prop, p.coder.Stable n)
    (hf : ∀ p ∈ P.prop, ∀ m tag wire b,
      p.get (P.oneof.unmarshaler m tag wire b).msg = p.get m)
    {b r : List UInt8} {t t' : M} (h : P.readField b t = (t', .ok r)) (hn : b.length ≤ n)
    (ht : ∀ p ∈ P.prop, ∀ v ∈ p.get t, p.coder.ReadsBack v) :
    ∀ p ∈ P.prop, ∀ v ∈ p.get t', p.coder.ReadsBack v := by
  obtain ⟨u, rest, hd, -, -, hcases⟩ := P.readField_ok_cases h
  intro p hp v hv
  rcases hcases with ⟨q, hq, -, -, w, hw, rfl⟩ | ⟨-, hu⟩ | ⟨-, -, -, rfl⟩
  · by_cases hqp : q.tag = p.tag
    · obtain rfl := P.eq_of_tag_eq hq hp hqp
      rw [P.get_store q hq] at hv
      rcases Label.mem_push hv with hv | rfl
      · exact ht q hq v hv
      · exact hs q hq hw ((decodeVarint_length_lt hd).le.trans hn)
    · rw [P.get_store_of_ne q hq p hp hqp] at hv
      exact ht p hp v hv
  · have hget := hf p hp t (u >>> 3) (u &&& 7) rest
    rw [hu] at hget
    exact ht p hp v (hget ▸ hv)
  · rw [P.get_setUnrecognized p hp] at hv
    exact ht p hp v hv

theorem rawUnknown_readField
    (hou : ∀ m tag wire b, P.unrecognized (P.oneof.unmarshaler m tag wire b).msg =
      P.unrecognized m)
    (hot : ∀ m tag wire b, tag ∈ P.oneof.tags → (P.oneof.unmarshaler m tag wire b).handled)
    {b r : List UInt8} {t t' : M} (h : P.readField b t = (t', .ok r))
    (ht : P.RawUnknown (P.unrecognized t)) : P.RawUnknown (P.unrecognized t') := by
  obtain ⟨u, rest, hd, -, h0, hcases⟩ := P.readField_ok_cases h
  rcases hcases with ⟨q, hq, -, -, w, -, rfl⟩ | ⟨-, hu⟩ | ⟨hnm, hh, hs, rfl⟩
  · rwa [P.unrecognized_store q hq]
  · have hm := hou t (u >>> 3) (u &&& 7) rest
    rw [hu] at hm
    rwa [hm]
  · have hout : u >>> 3 ∉ P.tags := by
      rw [tags, List.mem_append, not_or]
      exact ⟨hnm, fun hn => by rw [hot t _ (u &&& 7) rest hn] at hh; cases hh⟩
    rw [P.unrecognized_setUnrecognized]
    exact P.rawUnknown_append ht ⟨[_], (List.flatMap_singleton _ _).symm,
      fun f hf => List.mem_singleton.mp hf ▸ ⟨isField_take hd hs, h0, hout⟩⟩

theorem length_unrecognized_readField {b r : List UInt8} {t t' : M}
    (hou : ∀ m tag wire b, P.unrecognized (P.oneof.unmarshaler m tag wire b).msg =
      P.unrecognized m)
    (h : P.readField b t = (t', .ok r)) :
    (P.unrecognized t').length + r.length ≤ (P.unrecognized t).length + b.length := by
  have hlt := (P.readField_length_lt h).le
  obtain ⟨u, rest, -, -, -, hcases⟩ := P.readField_ok_cases h
  rcases hcases with ⟨q, hq, -, -, w, -, rfl⟩ | ⟨-, hu⟩ | ⟨-, -, -, rfl⟩
  · rw [P.unrecognized_store q hq]; omega
  · have hm := hou t (u >>> 3) (u &&& 7) rest
    rw [hu] at hm
    rw [hm]; omega
  · rw [P.unrecognized_setUnrecognized, List.length_append, List.length_take]
    omega

/-- What the loop decodes from the zero message without error reads back: every value of a
declared field, and the unrecognized bytes as raw unknown fields. -/
theorem readsBack_unmarshalFields {bs : List UInt8}
    (hs : ∀ p ∈ P.prop, p.coder.Stable bs.length)
    (hf : ∀ p ∈ P.prop, ∀ m tag wire b,
      p.get (P.oneof.unmarshaler m tag wire b).msg = p.get m)
    (hou : ∀ m tag wire b, P.unrecognized (P.oneof.unmarshaler m tag wire b).msg =
      P.unrecognized m)
    (hot : ∀ m tag wire b, tag ∈ P.oneof.tags → (P.oneof.unmarshaler m tag wire b).handled)
    (h : (P.unmarshalFields bs P.zero).2 = none) :
    (∀ p ∈ P.prop, ∀ v ∈ p.get (P.unmarshalFields bs P.zero).1, p.coder.ReadsBack v) ∧
      P.RawUnknown (P.unrecognized (P.unmarshalFields bs P.zero).1) := by
  have hv := unmarshalFields_inv (s := P.zero)
    (F := fun rem t =>
      rem.length ≤ bs.length ∧ ∀ p ∈ P.prop, ∀ v ∈ p.get t, p.coder.ReadsBack v)
    (fun hr ht => ⟨(P.readField_length_lt hr).le.trans ht.1,
      readsBack_readField hs hf hr ht.1 ht.2⟩)
    ⟨le_rfl, fun p hp v hv => by rw [P.get_zero p hp] at hv; cases hv⟩ h
  exact ⟨hv.2, unmarshalFields_inv (F := fun _ t => P.RawUnknown (P.unrecognized t))
    (fun hr ht => rawUnknown_readField hou hot hr ht)
    ⟨[], by rw [P.unrecognized_zero]; rfl, fun _ h => absurd h (List.not_mem_nil _)⟩ h⟩

/-! ## Messages without oneofs -/

theorem unmarshaler_of_oneof_tags_nil (he : P.oneof.tags = []) (m : M) (tag wire : Nat)
    (b : List UInt8) : P.oneof.unmarshaler m tag wire b = ⟨false, none, m, b⟩ :=
  P.unmarshaler_of_not_mem m tag wire b (by rw [he]; exact List.not_mem_nil _)

/-- The loop reads the encoding of what it decoded from `bs` into the same message. -/
theorem unmarshalFields_marshal_unmarshalFields (hP : P.Lawful) (he : P.oneof.tags = [])
    {bs : List UInt8} (hs : ∀ p ∈ P.prop, p.coder.Stable bs.length)
    (h : (P.unmarshalFields bs P.zero).2 = none) :
    P.unmarshalFields (P.marshal (P.unmarshalFields bs P.zero).1).1 P.zero =
      P.unmarshalFields bs P.zero := by
  obtain ⟨hv, hu⟩ := readsBack_unmarshalFields hs
    (fun p _ m tag wire b => by rw [unmarshaler_of_oneof_tags_nil he])
    (fun m tag wire b => by rw [unmarshaler_of_oneof_tags_nil he])
    (fun m tag wire b ht => by rw [he] at ht; cases ht) h
  obtain ⟨c, ⟨hgc, huc⟩, hrun⟩ := unmarshalFields_marshal_over_of hP
    (P.readsAsUnknown_of_rawUnknown hu) hv P.zero
  have hc : c = (P.unmarshalFields bs P.zero).1 :=
    hP.ext _ _ (fun p hp => (hgc p hp).trans (P.merge_get_zero hp _))
      (by rw [huc, P.unrecognized_zero, List.nil_append])
  rw [hrun, hc]
  exact Prod.ext rfl h.symm

theorem length_unrecognized_unmarshalFields
    (hou : ∀ m tag wire b, P.unrecognized (P.oneof.unmarshaler m tag wire b).msg =
      P.unrecognized m)
    {bs : List UInt8} {s : M} (h : (P.unmarshalFields bs s).2 = none) :
    (P.unrecognized (P.unmarshalFields bs s).1).length ≤
      (P.unrecognized s).length + bs.length := by
  simpa using unmarshalFields_inv
    (F := fun rem t => (P.unrecognized t).length + rem.length ≤
      (P.unrecognized s).length + bs.length)
    (fun hr ht => (length_unrecognized_readField hou hr).trans ht) le_rfl h

theorem length_flatMap_le {α β : Type _} {l : List α} {f : α → List β} {B : Nat}
    (h : ∀ a ∈ l, (f a).length ≤ B) : (l.flatMap f).length ≤ l.length * B := by
  induction l with
  | nil => simp
  | cons a l ih =>
      have ha := h a (List.mem_cons_self _ _)
      have hl := ih fun b hb => h b (List.mem_cons_of_mem _ hb)
      rw [List.flatMap_cons, List.length_append, List.length_cons, Nat.succ_mul]
      omega

theorem length_marshal_le (hP : P.Lawful) {B : Nat}
    (hB : ∀ p ∈ P.prop, p.label ≠ .repeated ∧ ∀ v, (p.encodeOne v).length ≤ B) (m : M) :
    (P.marshal m).1.length ≤ P.prop.length * B + (P.unrecognized m).length := by
  rw [hP.marshal_eq, List.length_append]
  refine Nat.add_le_add_right (length_flatMap_le fun p hp => ?_) _
  obtain ⟨hr, hb⟩ := hB p hp
  rw [FieldProp.encode]
  match p.get m, P.length_get_le p hp hr m with
  | [], _ => exact Nat.zero_le _
  | [v], _ => simpa using hb v

theorem decodeMessage_eq_ok {bs r : List UInt8} {x : M}
    (h : P.decodeMessage bs = ((x, none), r)) :
    ∃ enc, decodeRawBytes bs = .ok (enc, r) ∧ P.unmarshal enc = (x, none) := by
  unfold decodeMessage at h
  split at h
  · cases h
  · rename_i enc rest hraw
    obtain ⟨hun, rfl⟩ := Prod.mk.inj h
    exact ⟨enc, hraw, hun⟩

theorem unmarshal_eq_none {bs : List UInt8} {x : M} (h : P.unmarshal bs = (x, none)) :
    P.unmarshalFields bs P.zero = (x, none) ∧ P.missingRequired x = none := by
  unfold unmarshal at h
  rcases hu : P.unmarshalFields bs P.zero with ⟨m, _ | e⟩
  · rw [hu] at h
    obtain ⟨rfl, hreq⟩ := Prod.mk.inj h
    exact ⟨rfl, Option.map_eq_none'.mp hreq⟩
  · rw [hu] at h
    cases h

/-- A message `DecodeMessage` decoded from at most `n` bytes reads back from its encoding, when
re-encoding adds at most `K` bytes and `n + K` fits a `uint64`. -/
theorem decodeMessage_stable (hP : P.Lawful) (he : P.oneof.tags = []) {n K : Nat}
    (hs : ∀ p ∈ P.prop, p.coder.Stable n)
    (hK : ∀ m, (P.marshal m).1.length ≤ K + (P.unrecognized m).length) (hnK : n + K < 2 ^ 64)
    {bs r : List UInt8} {x : M} (hd : P.decodeMessage bs = ((x, none), r))
    (hn : bs.length ≤ n) :
    P.unmarshal (P.marshal x).1 = (x, none) ∧ (P.marshal x).1.length < 2 ^ 64 := by
  obtain ⟨enc, hraw, hun⟩ := decodeMessage_eq_ok hd
  obtain ⟨hrun, hreq⟩ := unmarshal_eq_none hun
  have henc : enc.length ≤ n := (decodeRawBytes_data_length_lt hraw).le.trans hn
  have hrun' := unmarshalFields_marshal_unmarshalFields hP he
    (fun p hp => ValueCoder.Stable.mono (hs p hp) henc) (by rw [hrun])
  rw [hrun] at hrun'
  have hlen := length_unrecognized_unmarshalFields
    (fun m tag wire b => by rw [unmarshaler_of_oneof_tags_nil he])
    (show (P.unmarshalFields enc P.zero).2 = none by rw [hrun])
  rw [hrun, P.unrecognized_zero] at hlen
  refine ⟨?_, by have := hK x; simp only [List.length_nil] at hlen; omega⟩
  rw [unmarshal, hrun']
  simp only [hreq, Option.map_none']

theorem decodeMessage_of_decode {bs r : List UInt8} {v : M}
    (h : (ValueCoder.message P).decode bs = .ok (v, r)) : P.decodeMessage bs = ((v, none), r) := by
  simp only [ValueCoder.message] at h
  unfold decodeMessage
  split at h
  · cases h
  · rename_i enc _ _
    rcases hu : P.unmarshal enc with ⟨v', _ | e⟩
    · rw [hu] at h
      cases h
      rfl
    · rw [hu] at h
      cases h

/-- The coder of a nested message without oneofs is stable under the same bound. -/
theorem stable_message (hP : P.Lawful) (he : P.oneof.tags = []) {n K : Nat}
    (hs : ∀ p ∈ P.prop, p.coder.Stable n)
    (hK : ∀ m, (P.marshal m).1.length ≤ K + (P.unrecognized m).length) (hnK : n + K < 2 ^ 64) :
    (ValueCoder.message P).Stable n := by
  intro bs v r hd hn rest
  obtain ⟨hrt, hlen⟩ := decodeMessage_stable hP he hs hK hnK (decodeMessage_of_decode hd) hn
  simp only [ValueCoder.message, decodeRawBytes_encode hlen, hrt]

/-- Decoding is stable under re-encoding for a message without oneofs whose coders are stable. -/
theorem unmarshal_marshal_unmarshal_of_stable (hP : P.Lawful) (he : P.oneof.tags = [])
    {bs : List UInt8} (hs : ∀ p ∈ P.prop, p.coder.Stable bs.length)
    (h : (P.unmarshalFields bs P.zero).2 = none) :
    P.unmarshal (P.marshal (P.unmarshal bs).1).1 = P.unmarshal bs := by
  rw [P.unmarshal_fst]
  unfold unmarshal
  rw [unmarshalFields_marshal_unmarshalFields hP he hs h]

end StructProperties

end TurboProfile
