import TurboProfile.Verification.Message.Fields

/-! # The decoder, field by field

A buffer the loop reads without error is a sequence of whole fields, and the loop is a fold
over them: each declared field holds the values of the fields of its number merged into what it
held, and the unrecognized bytes gain the fields of undeclared numbers, verbatim. -/

namespace TurboProfile

/-! ## Readers of values -/

namespace ValueCoder

/-- The decoder of the coder reads what it returns from a prefix of its input, and from that
prefix alone it returns the same value with nothing left. -/
def ReadsExactly (c : ValueCoder) : Prop :=
  ∀ {bs v r}, c.decode bs = .ok (v, r) → ∃ pre, bs = pre ++ r ∧ c.decode pre = .ok (v, [])

theorem readsExactly_int32 : int32.ReadsExactly := by
  intro bs v r h
  dsimp only at h ⊢
  split at h
  · cases h
    obtain ⟨pre, rfl, hpre⟩ := decodeVarint_exact ‹_›
    exact ⟨pre, rfl, by rw [hpre]⟩
  · cases h

theorem readsExactly_float32 : float32.ReadsExactly := by
  intro bs v r h
  dsimp only at h ⊢
  split at h
  · cases h
    obtain ⟨pre, rfl, hpre⟩ := decodeFixed32_exact ‹_›
    exact ⟨pre, rfl, by rw [hpre]⟩
  · cases h

theorem readsExactly_bool : bool.ReadsExactly := by
  intro bs v r h
  dsimp only at h ⊢
  split at h
  · cases h
    obtain ⟨pre, rfl, hpre⟩ := decodeVarint_exact ‹_›
    exact ⟨pre, rfl, by rw [hpre]⟩
  · cases h

theorem readsExactly_bytes : bytes.ReadsExactly := fun h => decodeRawBytes_exact h

theorem readsExactly_message {N : Type} (P : StructProperties N) : (message P).ReadsExactly := by
  intro bs v r h
  dsimp only at h ⊢
  split at h
  · cases h
  · rename_i enc r' hd
    split at h
    · rename_i n hn
      cases h
      obtain ⟨pre, rfl, hpre⟩ := decodeRawBytes_exact hd
      exact ⟨pre, rfl, by rw [hpre]; simp only [hn]⟩
    · cases h

end ValueCoder

theorem StructProperties.decodeMessage_exact {N : Type} (P : StructProperties N) {bs r : List UInt8}
    {x : N} (h : P.decodeMessage bs = ((x, none), r)) :
    ∃ pre, bs = pre ++ r ∧ P.decodeMessage pre = ((x, none), []) := by
  unfold decodeMessage at h
  split at h
  · cases h
  · rename_i enc r' hd
    obtain ⟨hx, rfl⟩ := Prod.mk.inj h
    obtain ⟨pre, rfl, hpre⟩ := decodeRawBytes_exact hd
    exact ⟨pre, rfl, by rw [decodeMessage, hpre]; simp only [hx]⟩

theorem take_sub_length_of_exact {bs rest r key payload : List UInt8}
    (hbs : bs = key ++ rest) (hrest : rest = payload ++ r) :
    bs.take (bs.length - r.length) = key ++ payload := by
  subst hbs hrest
  rw [← List.append_assoc, List.length_append, Nat.add_sub_cancel, List.take_left]

/-! ## The loop is a fold over the fields -/

namespace StructProperties

variable {M : Type} {P : StructProperties M}

/-- The decoding loop is a fold of `step` over the fields of a buffer it reads without error,
for every observation of the message that each pass updates by `step`. -/
theorem unmarshalFields_foldl (hc : ∀ p ∈ P.prop, p.coder.SkipsLikeDecode)
    (ho : P.oneof.SkipsLikeUnmarshal) (bs : List UInt8) (s : M)
    (h : (P.unmarshalFields bs s).2 = none) :
    ∃ fs, fieldBytes bs = some fs ∧ (∀ f ∈ fs, f.1 ≠ 0) ∧
      ∀ {α : Type} (g : M → α) (step : α → Nat × List UInt8 → α),
        (∀ {b r t t'}, P.readField b t = (t', .ok r) →
          ∃ u rest, decodeVarint b = .ok (u, rest) ∧
            g t' = step (g t) (u >>> 3, b.take (b.length - r.length))) →
        g (P.unmarshalFields bs s).1 = fs.foldl step (g s) := by
  induction bs, s using unmarshalFields.induct P with
  | case1 m =>
      exact ⟨[], fieldBytes_nil, fun _ h => absurd h (List.not_mem_nil _),
        fun g step _ => by rw [P.unmarshalFields_nil]; rfl⟩
  | case2 m b bs m' e hr =>
      rw [P.unmarshalFields_of_readField_error (List.cons_ne_nil _ _) hr] at h
      cases h
  | case3 m b bs m' r hr ih =>
      rw [P.unmarshalFields_of_readField (List.cons_ne_nil _ _) hr] at h ⊢
      obtain ⟨fs, hfs, hnz, hfold⟩ := ih h
      obtain ⟨u, rest, hd, hs⟩ := readField_skip hc ho hr
      obtain ⟨u', rest', hd', -, h0, -⟩ := P.readField_ok_cases hr
      rw [hd] at hd'
      cases hd'
      refine ⟨_, by rw [fieldBytes_of_skip hd hs, hfs]; rfl, fun f hf => ?_, fun g step hstep => ?_⟩
      · rcases List.mem_cons.mp hf with rfl | hf
        · exact h0
        · exact hnz f hf
      · obtain ⟨u', rest', hd', hg⟩ := hstep hr
        rw [hd] at hd'
        cases hd'
        rw [hfold g step hstep, hg]
        rfl

/-! ## Declared fields -/

end StructProperties

theorem filterMap_filter_of_ne_none {α β : Type} {c : α → Bool} {f : α → Option β}
    (hf : ∀ a, f a ≠ none → c a) (l : List α) : (l.filter c).filterMap f = l.filterMap f := by
  rw [List.filterMap_filter]
  refine List.filterMap_congr fun a _ => ?_
  by_cases hc : c a
  · rw [if_pos hc]
  · rw [if_neg hc]
    exact (not_not.mp (mt (hf a) hc)).symm

namespace FieldProp

variable {M : Type} (p : FieldProp M)

/-- The value the declared field `p` reads from the bytes `f` of one field, key and payload. -/
def decodeField (f : List UInt8) : Option p.coder.Val :=
  match decodeVarint f with
  | .error _ => none
  | .ok (_, payload) =>
    match p.coder.decode payload with
    | .ok (v, []) => some v
    | _ => none

/-- The value the field `f`, number and bytes, gives the declared field `p`, if any. -/
def valueOf (f : Nat × List UInt8) : Option p.coder.Val :=
  if f.1 = p.tag then p.decodeField f.2 else none

/-- The values the fields `fs` give the declared field `p`: those of the fields numbered `p.tag`. -/
def valuesIn (fs : List (Nat × List UInt8)) : List p.coder.Val :=
  fs.filterMap p.valueOf

theorem valueOf_of_ne {f : Nat × List UInt8} (h : f.1 ≠ p.tag) : p.valueOf f = none :=
  if_neg h

theorem valuesIn_filter (fs : List (Nat × List UInt8)) :
    p.valuesIn (fs.filter (·.1 = p.tag)) = p.valuesIn fs :=
  filterMap_filter_of_ne_none
    (fun _ hf => decide_eq_true (Decidable.of_not_not fun hn => hf (p.valueOf_of_ne hn))) fs

theorem decodeField_take (hx : p.coder.ReadsExactly) {bs rest r : List UInt8} {u : Nat}
    {v : p.coder.Val} (hd : decodeVarint bs = .ok (u, rest))
    (hv : p.coder.decode rest = .ok (v, r)) :
    p.decodeField (bs.take (bs.length - r.length)) = some v := by
  obtain ⟨key, hbs, hk⟩ := decodeVarint_exact hd
  obtain ⟨payload, hrest, hp⟩ := hx hv
  rw [take_sub_length_of_exact hbs hrest, decodeField, decodeVarint_append hk, List.nil_append]
  simp only [hp]

theorem foldl_push_valueOf (fs : List (Nat × List UInt8)) (acc : List p.coder.Val) :
    fs.foldl (fun l f => ((p.valueOf f).map (p.label.push l)).getD l) acc =
      p.label.merge acc (p.valuesIn fs) := by
  induction fs generalizing acc with
  | nil => rw [valuesIn, List.filterMap_nil, ← foldl_push_eq_merge]; rfl
  | cons f fs ih =>
      rw [List.foldl_cons, ih]
      simp only [valuesIn, List.filterMap_cons]
      cases p.valueOf f with
      | none => rfl
      | some v => rw [← foldl_push_eq_merge, ← foldl_push_eq_merge]; rfl

end FieldProp

namespace StructProperties

variable {M : Type} {P : StructProperties M}

/-- One pass of the loop pushes into a declared field the value the field it reads gives it. -/
theorem get_readField (hx : ∀ q ∈ P.prop, q.coder.ReadsExactly)
    (hf : ∀ p ∈ P.prop, ∀ m tag wire b,
      p.get (P.oneof.unmarshaler m tag wire b).msg = p.get m)
    {p : FieldProp M} (hp : p ∈ P.prop) {bs r : List UInt8} {s s' : M}
    (h : P.readField bs s = (s', .ok r)) :
    ∃ u rest, decodeVarint bs = .ok (u, rest) ∧ p.get s' =
      ((p.valueOf (u >>> 3, bs.take (bs.length - r.length))).map (p.label.push (p.get s))).getD
        (p.get s) := by
  obtain ⟨u, rest, hd, -, -, hcases⟩ := P.readField_ok_cases h
  refine ⟨u, rest, hd, ?_⟩
  rcases hcases with ⟨q, hq, htag, -, v, hv, rfl⟩ | ⟨hnm, hu⟩ | ⟨hnm, -, -, rfl⟩
  · by_cases hqp : q.tag = p.tag
    · obtain rfl := P.eq_of_tag_eq hq hp hqp
      rw [P.get_store q hq, FieldProp.valueOf, if_pos htag.symm,
        q.decodeField_take (hx q hq) hd hv]
      rfl
    · rw [P.get_store_of_ne q hq p hp hqp, p.valueOf_of_ne (htag ▸ hqp)]
      rfl
  · have hmsg := hf p hp s (u >>> 3) (u &&& 7) rest
    rw [hu] at hmsg
    have hne : u >>> 3 ≠ p.tag := fun he =>
      tag_not_mem_oneof_tags hp (he ▸ tag_mem_oneof_tags_of_handled (by rw [hu]))
    rw [hmsg, p.valueOf_of_ne hne]
    rfl
  · have hne : u >>> 3 ≠ p.tag := fun he => hnm (he ▸ List.mem_map_of_mem _ hp)
    rw [P.get_setUnrecognized p hp, p.valueOf_of_ne hne]
    rfl

/-- After a buffer read without error, each declared field holds the values of the fields of
its number merged into what it held. -/
theorem get_unmarshalFields (hc : ∀ p ∈ P.prop, p.coder.SkipsLikeDecode)
    (hx : ∀ p ∈ P.prop, p.coder.ReadsExactly) (ho : P.oneof.SkipsLikeUnmarshal)
    (hf : ∀ p ∈ P.prop, ∀ m tag wire b,
      p.get (P.oneof.unmarshaler m tag wire b).msg = p.get m)
    (bs : List UInt8) (s : M) (h : (P.unmarshalFields bs s).2 = none) :
    ∃ fs, fieldBytes bs = some fs ∧ ∀ p ∈ P.prop,
      p.get (P.unmarshalFields bs s).1 = p.label.merge (p.get s) (p.valuesIn fs) := by
  obtain ⟨fs, hfs, -, hfold⟩ := unmarshalFields_foldl hc ho bs s h
  exact ⟨fs, hfs, fun p hp => (hfold p.get _ (get_readField hx hf hp)).trans
    (p.foldl_push_valueOf fs _)⟩

/-! ## Unknown fields -/

variable (P)

/-- Reading the field `f` appends its bytes to the unrecognized `u` if its number is undeclared. -/
def keepUnknown (u : List UInt8) : Nat × List UInt8 → List UInt8
  | (n, b) => if n ∈ P.tags then u else u ++ b

theorem foldl_keepUnknown (fs : List (Nat × List UInt8)) (acc : List UInt8) :
    fs.foldl P.keepUnknown acc = acc ++ (fs.filter fun f => f.1 ∉ P.tags).flatMap (·.2) := by
  induction fs generalizing acc with
  | nil => simp
  | cons f fs ih =>
      obtain ⟨n, b⟩ := f
      rw [List.foldl_cons, ih, keepUnknown]
      by_cases ht : n ∈ P.tags
      · rw [if_pos ht, List.filter_cons_of_neg (by simpa using ht)]
      · rw [if_neg ht, List.filter_cons_of_pos (by simpa using ht), List.flatMap_cons,
          List.append_assoc]

variable {P}

theorem unrecognized_readField
    (hou : ∀ m tag wire b, P.unrecognized (P.oneof.unmarshaler m tag wire b).msg =
      P.unrecognized m)
    (hot : ∀ m tag wire b, tag ∈ P.oneof.tags → (P.oneof.unmarshaler m tag wire b).handled)
    {bs r : List UInt8} {s s' : M} (h : P.readField bs s = (s', .ok r)) :
    ∃ u rest, decodeVarint bs = .ok (u, rest) ∧ P.unrecognized s' =
      P.keepUnknown (P.unrecognized s) (u >>> 3, bs.take (bs.length - r.length)) := by
  obtain ⟨u, rest, hd, -, -, hcases⟩ := P.readField_ok_cases h
  refine ⟨u, rest, hd, ?_⟩
  rcases hcases with ⟨q, hq, htag, -, v, -, rfl⟩ | ⟨-, hu⟩ | ⟨hnm, hh, -, rfl⟩
  · rw [P.unrecognized_store q hq, keepUnknown,
      if_pos (htag ▸ List.mem_append_left _ (List.mem_map_of_mem _ hq))]
  · have hm := hou s (u >>> 3) (u &&& 7) rest
    rw [hu] at hm
    rw [hm, keepUnknown, if_pos (show u >>> 3 ∈ P.tags from
      List.mem_append_right _ (tag_mem_oneof_tags_of_handled (by rw [hu])))]
  · have hout : u >>> 3 ∉ P.tags := by
      rw [tags, List.mem_append, not_or]
      exact ⟨hnm, fun hn => by rw [hot s _ (u &&& 7) rest hn] at hh; cases hh⟩
    rw [P.unrecognized_setUnrecognized, keepUnknown, if_neg hout]

/-- Unknown fields are kept verbatim: a buffer read without error appends to the unrecognized
bytes its fields of undeclared numbers, in order, and nothing else. -/
theorem unrecognized_unmarshalFields (hc : ∀ p ∈ P.prop, p.coder.SkipsLikeDecode)
    (ho : P.oneof.SkipsLikeUnmarshal)
    (hou : ∀ m tag wire b, P.unrecognized (P.oneof.unmarshaler m tag wire b).msg =
      P.unrecognized m)
    (hot : ∀ m tag wire b, tag ∈ P.oneof.tags → (P.oneof.unmarshaler m tag wire b).handled)
    (bs : List UInt8) (s : M) (h : (P.unmarshalFields bs s).2 = none) :
    ∃ fs, fieldBytes bs = some fs ∧
      P.unrecognized (P.unmarshalFields bs s).1 =
        P.unrecognized s ++ (fs.filter fun f => f.1 ∉ P.tags).flatMap (·.2) := by
  obtain ⟨fs, hfs, -, hfold⟩ := unmarshalFields_foldl hc ho bs s h
  exact ⟨fs, hfs, (hfold P.unrecognized _ (unrecognized_readField hou hot)).trans
    (P.foldl_keepUnknown fs _)⟩

end StructProperties

/-! ## The loop from any message -/

/-- What the oneof unmarshaler takes, reports and leaves unread depends on the bytes alone. -/
def OneofFuncs.OutcomeOfBytes {M : Type} (o : OneofFuncs M) : Prop :=
  ∀ m m' tag wire b,
    (o.unmarshaler m tag wire b).handled = (o.unmarshaler m' tag wire b).handled ∧
      (o.unmarshaler m tag wire b).err = (o.unmarshaler m' tag wire b).err ∧
      (o.unmarshaler m tag wire b).rest = (o.unmarshaler m' tag wire b).rest

theorem OneofFuncs.outcomeOfBytes_empty {M : Type} : (OneofFuncs.empty (M := M)).OutcomeOfBytes :=
  fun _ _ _ _ _ => ⟨rfl, rfl, rfl⟩

theorem Label.merge_merge_nil {α : Type} (label : Label) (acc l : List α) :
    label.merge acc (label.merge [] l) = label.merge acc l := by
  cases label
  case repeated => exact congrArg (acc ++ ·) (List.nil_append l)
  all_goals cases h : l.getLast? <;> simp only [Label.merge, h] <;> rfl

namespace StructProperties

variable {M : Type} {P : StructProperties M}

theorem readField_snd (ho : P.oneof.OutcomeOfBytes) (bs : List UInt8) (s t : M) :
    (P.readField bs s).2 = (P.readField bs t).2 := by
  unfold readField
  split
  · rfl
  rename_i u rest _
  obtain ⟨hhandled, herr, hrest⟩ := ho s t (u >>> 3) (u &&& 7) rest
  dsimp only
  rw [hhandled, herr, hrest]
  by_cases hw : u &&& 7 = wireEndGroup
  · rw [if_pos hw, if_pos hw]
  rw [if_neg hw, if_neg hw]
  by_cases h0 : u >>> 3 = 0
  · rw [if_pos h0, if_pos h0]
  rw [if_neg h0, if_neg h0]
  cases P.prop.find? (·.tag = u >>> 3) with
  | some p =>
    dsimp only
    by_cases hwp : u &&& 7 = p.coder.wireType
    · rw [if_neg (not_not_intro hwp), if_neg (not_not_intro hwp)]
      cases p.coder.decode rest <;> rfl
    · rw [if_pos hwp, if_pos hwp]
  | none =>
    dsimp only
    by_cases hh : (P.oneof.unmarshaler t (u >>> 3) (u &&& 7) rest).handled
    · rw [if_pos hh, if_pos hh]
      split <;> rfl
    · rw [if_neg hh, if_neg hh]
      cases skip (u &&& 7) rest <;> rfl

/-- Whether the loop fails, and with which error, depends on the bytes alone. -/
theorem unmarshalFields_snd (ho : P.oneof.OutcomeOfBytes) (bs : List UInt8) (s t : M) :
    (P.unmarshalFields bs s).2 = (P.unmarshalFields bs t).2 := by
  induction bs, s using unmarshalFields.induct P generalizing t with
  | case1 m => rw [unmarshalFields_nil, unmarshalFields_nil]
  | case2 m b bs m' e hr =>
      have ht : P.readField (b :: bs) t = (_, .error e) :=
        Prod.ext rfl (by rw [readField_snd ho _ t m, hr])
      rw [P.unmarshalFields_of_readField_error (List.cons_ne_nil _ _) hr,
        P.unmarshalFields_of_readField_error (List.cons_ne_nil _ _) ht]
  | case3 m b bs m' r hr ih =>
      have ht : P.readField (b :: bs) t = (_, .ok r) :=
        Prod.ext rfl (by rw [readField_snd ho _ t m, hr])
      rw [P.unmarshalFields_of_readField (List.cons_ne_nil _ _) hr,
        P.unmarshalFields_of_readField (List.cons_ne_nil _ _) ht]
      exact ih _

/-- Decoding over a message merges: a buffer read without error from the zero message reads
without error from any `s`, into the merge of `s` with what it decodes from zero. -/
theorem mergeOf_unmarshalFields (hc : ∀ p ∈ P.prop, p.coder.SkipsLikeDecode)
    (hx : ∀ p ∈ P.prop, p.coder.ReadsExactly) (ho : P.oneof.SkipsLikeUnmarshal)
    (hb : P.oneof.OutcomeOfBytes)
    (hf : ∀ p ∈ P.prop, ∀ m tag wire b,
      p.get (P.oneof.unmarshaler m tag wire b).msg = p.get m)
    (hou : ∀ m tag wire b, P.unrecognized (P.oneof.unmarshaler m tag wire b).msg =
      P.unrecognized m)
    (hot : ∀ m tag wire b, tag ∈ P.oneof.tags → (P.oneof.unmarshaler m tag wire b).handled)
    (bs : List UInt8) (s : M) (h : (P.unmarshalFields bs P.zero).2 = none) :
    (P.unmarshalFields bs s).2 = none ∧
      P.MergeOf s (P.unmarshalFields bs P.zero).1 (P.unmarshalFields bs s).1 := by
  have hs : (P.unmarshalFields bs s).2 = none := (unmarshalFields_snd hb bs s P.zero).trans h
  obtain ⟨fs, hfs, hget⟩ := get_unmarshalFields hc hx ho hf bs s hs
  obtain ⟨fs₀, hfs₀, hget₀⟩ := get_unmarshalFields hc hx ho hf bs P.zero h
  obtain ⟨fu, hfu, hu⟩ := unrecognized_unmarshalFields hc ho hou hot bs s hs
  obtain ⟨fu₀, hfu₀, hu₀⟩ := unrecognized_unmarshalFields hc ho hou hot bs P.zero h
  obtain rfl : fs = fs₀ := Option.some.inj (hfs.symm.trans hfs₀)
  obtain rfl : fs = fu := Option.some.inj (hfs.symm.trans hfu)
  obtain rfl : fs = fu₀ := Option.some.inj (hfs.symm.trans hfu₀)
  refine ⟨hs, fun p hp => ?_, ?_⟩
  · rw [hget p hp, hget₀ p hp, P.get_zero p hp, Label.merge_merge_nil]
  · rw [hu, hu₀, P.unrecognized_zero, List.nil_append]

end StructProperties

end TurboProfile
