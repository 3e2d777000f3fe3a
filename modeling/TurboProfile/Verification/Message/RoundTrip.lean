import TurboProfile.Verification.Wire.Append
import TurboProfile.Verification.Message.Coder

/-! # Round trip of a message

Decoding what `marshal` wrote gives the message back, with the error of a nil required field
if there is one, and `size` counts what `marshal` writes. The decoder is followed over any
message it starts from; the round trip is the case of the zero message. -/

namespace TurboProfile

/-! ## The values a field holds -/

/-- What a field holds once the values `l` are decoded into it over `acc`: a repeated field
keeps both, in order, a singular one the last value read. -/
def Label.merge {α : Type} : Label → List α → List α → List α
  | .repeated, acc, l => acc ++ l
  | _, acc, l => (l.getLast?.map ([·])).getD acc

theorem foldl_push_eq_merge {α : Type} (label : Label) (acc l : List α) :
    l.foldl label.push acc = label.merge acc l := by
  induction l generalizing acc with
  | nil => cases label <;> simp [Label.merge]
  | cons v l ih =>
      rw [List.foldl_cons, ih]
      cases label <;> cases l <;> simp [Label.merge, Label.push, List.getLast?_cons]

theorem merge_nil {α : Type} {label : Label} {l : List α}
    (hl : label = .repeated ∨ l.length ≤ 1) : label.merge [] l = l := by
  rcases hl with rfl | hl
  · rfl
  · match l, hl with
    | [], _ => cases label <;> rfl
    | [_], _ => cases label <;> rfl

theorem toList_or_eq_merge {α : Type} {label : Label} (hl : label ≠ .repeated)
    (a b : Option α) : (b.or a).toList = label.merge a.toList b.toList := by
  cases label with
  | optional => cases b <;> rfl
  | required => cases b <;> rfl
  | repeated => exact absurd rfl hl

namespace StructProperties

variable {M : Type} (P : StructProperties M)

/-! ## Looking a field up by its number -/

theorem find?_tag_of_nodup {l : List (FieldProp M)} (hnd : (l.map (·.tag)).Nodup)
    {p : FieldProp M} (hp : p ∈ l) : l.find? (·.tag = p.tag) = some p := by
  induction l with
  | nil => cases hp
  | cons q ps ih =>
      rw [List.map_cons, List.nodup_cons] at hnd
      rcases List.mem_cons.mp hp with rfl | hp
      · simp
      · have hne : q.tag ≠ p.tag := fun h => hnd.1 (h ▸ List.mem_map_of_mem _ hp)
        simp [hne, ih hnd.2 hp]

theorem prop_tags_nodup : (P.prop.map (·.tag)).Nodup :=
  (List.nodup_append.mp P.tags_nodup).1

theorem find?_tag {p : FieldProp M} (hp : p ∈ P.prop) :
    P.prop.find? (·.tag = p.tag) = some p :=
  find?_tag_of_nodup P.prop_tags_nodup hp

theorem find?_eq_none {t : Nat} (ht : t ∉ P.prop.map (·.tag)) :
    P.prop.find? (·.tag = t) = none := by
  simp only [List.find?_eq_none, decide_eq_true_eq]
  exact fun p hp h => ht (h ▸ List.mem_map_of_mem _ hp)

theorem eq_of_tag_eq {p q : FieldProp M} (hp : p ∈ P.prop) (hq : q ∈ P.prop)
    (h : p.tag = q.tag) : p = q :=
  List.inj_on_of_nodup_map P.prop_tags_nodup hp hq h

/-! ## One field -/

theorem encodeOne_ne_nil (p : FieldProp M) (v : p.coder.Val) : p.encodeOne v ≠ [] := by
  simp [FieldProp.encodeOne, encodeVarint_ne_nil]

theorem readField_encodeOne {p : FieldProp M} (hp : p ∈ P.prop) (hc : p.coder.Lawful)
    {v : p.coder.Val} (hv : p.coder.ReadsBack v) (s : M) (rest : List UInt8) :
    P.readField (p.encodeOne v ++ rest) s = (p.store s v, .ok rest) := by
  obtain ⟨h0, ht⟩ := P.tag_bounds p hp
  rw [FieldProp.encodeOne, readField, List.append_assoc,
    decodeVarint_encodeVarint (fieldKey_lt ht hc.wireType_lt)]
  simp only [fieldKey_and_seven hc.wireType_lt, fieldKey_shiftRight hc.wireType_lt,
    P.find?_tag hp, if_neg hc.wireType_ne_endGroup, if_neg (Nat.pos_iff_ne_zero.mp h0), ne_eq,
    not_true_eq_false, if_false, hv rest]

/-! ## The decoding loop -/

@[simp] theorem unmarshalFields_nil (m : M) : P.unmarshalFields [] m = (m, none) := by
  rw [unmarshalFields]

theorem unmarshalFields_of_readField {bs r : List UInt8} {m m' : M} (hbs : bs ≠ [])
    (h : P.readField bs m = (m', .ok r)) : P.unmarshalFields bs m = P.unmarshalFields r m' := by
  cases bs with
  | nil => exact absurd rfl hbs
  | cons b bs =>
      rw [unmarshalFields]
      split <;> simp_all

/-- The message `Unmarshal` returns is the one the loop leaves. -/
theorem unmarshal_fst (bs : List UInt8) : (P.unmarshal bs).1 = (P.unmarshalFields bs P.zero).1 := by
  unfold unmarshal
  obtain ⟨m, _ | e⟩ := P.unmarshalFields bs P.zero <;> rfl

theorem unmarshalFields_of_readField_error {bs : List UInt8} {m m' : M} {e : ProtoError}
    (hbs : bs ≠ []) (h : P.readField bs m = (m', .error e)) :
    P.unmarshalFields bs m = (m', some e) := by
  cases bs with
  | nil => exact absurd rfl hbs
  | cons b bs =>
      rw [unmarshalFields]
      split <;> simp_all

/-- A property that storing a value, setting the unrecognized bytes and the oneof unmarshaler
keep holds after every pass of the loop. -/
theorem readField_frame {F : M → Prop} (hstore : ∀ p ∈ P.prop, ∀ s v, F s → F (p.store s v))
    (hunrec : ∀ s u, F s → F (P.setUnrecognized s u))
    (honeof : ∀ s tag wire b, F s → F (P.oneof.unmarshaler s tag wire b).msg)
    (bs : List UInt8) {s : M} (hs : F s) : F (P.readField bs s).1 := by
  unfold readField
  split
  · exact hs
  dsimp only
  split
  · exact hs
  split
  · exact hs
  split
  · rename_i p hp
    split
    · exact hs
    split
    · exact hs
    · exact hstore p (List.mem_of_find?_eq_some hp) s _ hs
  · split
    · split <;> exact honeof s _ _ _ hs
    · split
      · exact hs
      · exact hunrec s _ hs

theorem unmarshalFields_frame {F : M → Prop} (hstore : ∀ p ∈ P.prop, ∀ s v, F s → F (p.store s v))
    (hunrec : ∀ s u, F s → F (P.setUnrecognized s u))
    (honeof : ∀ s tag wire b, F s → F (P.oneof.unmarshaler s tag wire b).msg)
    (bs : List UInt8) {s : M} (hs : F s) : F (P.unmarshalFields bs s).1 := by
  induction bs, s using unmarshalFields.induct P with
  | case1 m => simpa using hs
  | case2 m b bs m' e hr =>
      have h := P.readField_frame hstore hunrec honeof (b :: bs) hs
      rw [hr] at h
      rwa [P.unmarshalFields_of_readField_error (List.cons_ne_nil _ _) hr]
  | case3 m b bs m' r hr ih =>
      have h := P.readField_frame hstore hunrec honeof (b :: bs) hs
      rw [hr] at h
      rw [P.unmarshalFields_of_readField (List.cons_ne_nil _ _) hr]
      exact ih h

/-! ## Storing values -/

theorem get_foldl_store {p : FieldProp M} (hp : p ∈ P.prop) (l : List p.coder.Val) (s : M) :
    p.get (l.foldl p.store s) = l.foldl p.label.push (p.get s) := by
  induction l generalizing s with
  | nil => rfl
  | cons v l ih => rw [List.foldl_cons, ih, P.get_store p hp, List.foldl_cons]

theorem get_foldl_store_of_ne {p q : FieldProp M} (hp : p ∈ P.prop) (hq : q ∈ P.prop)
    (hne : p.tag ≠ q.tag) (l : List p.coder.Val) (s : M) :
    q.get (l.foldl p.store s) = q.get s := by
  induction l generalizing s with
  | nil => rfl
  | cons v l ih => rw [List.foldl_cons, ih, P.get_store_of_ne p hp q hq hne]

theorem foldl_store_of_frame {p : FieldProp M} {F : M → Prop} (hF : ∀ s v, F s → F (p.store s v))
    (l : List p.coder.Val) {s : M} (hs : F s) : F (l.foldl p.store s) := by
  induction l generalizing s with
  | nil => exact hs
  | cons v l ih => exact ih (hF s v hs)

/-! ## Decoding the declared fields -/

/-- `s` holds the values of `m` merged into those of `s₀` in each field numbered in `T`, and
those of `s₀` in the others. -/
def MergedOn (T : List Nat) (s₀ m s : M) : Prop :=
  ∀ q ∈ P.prop, q.get s = if q.tag ∈ T then q.label.merge (q.get s₀) (q.get m) else q.get s₀

theorem mergedOn_nil (s m : M) : P.MergedOn [] s m s := fun _ _ => by simp

theorem merge_get_zero {p : FieldProp M} (hp : p ∈ P.prop) (m : M) :
    p.label.merge (p.get P.zero) (p.get m) = p.get m := by
  rw [P.get_zero p hp]
  by_cases hr : p.label = .repeated
  · exact merge_nil (.inl hr)
  · exact merge_nil (.inr (P.length_get_le p hp hr m))

theorem unmarshalFields_flatMap_encodeOne {p : FieldProp M} (hp : p ∈ P.prop)
    (hc : p.coder.Lawful) (l : List p.coder.Val) (hl : ∀ v ∈ l, p.coder.ReadsBack v) (s : M)
    (rest : List UInt8) :
    P.unmarshalFields (l.flatMap p.encodeOne ++ rest) s =
      P.unmarshalFields rest (l.foldl p.store s) := by
  induction l generalizing s with
  | nil => rfl
  | cons v l ih =>
      rw [List.flatMap_cons, List.append_assoc,
        P.unmarshalFields_of_readField (by simp [encodeOne_ne_nil])
          (P.readField_encodeOne hp hc (hl v (List.mem_cons_self _ _)) s _),
        ih (fun w hw => hl w (List.mem_cons_of_mem _ hw))]
      rfl

/-- Decoding the encoding of a declared field of `m` over `s` merges its values in. -/
theorem unmarshalFields_encode {p : FieldProp M} (hp : p ∈ P.prop) (hc : p.coder.Lawful)
    {T : List Nat} (hT : p.tag ∉ T) {s₀ m s : M} (hs : P.MergedOn T s₀ m s)
    (hm : ∀ v ∈ p.get m, p.coder.ReadsBack v) {F : M → Prop}
    (hF : ∀ s v, F s → F (p.store s v)) (hFs : F s) (rest : List UInt8) :
    ∃ s', P.MergedOn (T ++ [p.tag]) s₀ m s' ∧ F s' ∧
      P.unmarshalFields (p.encode m ++ rest) s = P.unmarshalFields rest s' := by
  refine ⟨(p.get m).foldl p.store s, fun q hq => ?_, foldl_store_of_frame hF _ hFs,
    P.unmarshalFields_flatMap_encodeOne hp hc _ hm s rest⟩
  by_cases hqp : p.tag = q.tag
  · obtain rfl := P.eq_of_tag_eq hp hq hqp
    have hs₀ : p.get s = p.get s₀ := by simpa [hT] using hs p hp
    rw [P.get_foldl_store hp, hs₀, foldl_push_eq_merge, if_pos (by simp)]
  · rw [P.get_foldl_store_of_ne hp hq hqp, hs q hq]
    simp [Ne.symm hqp]

theorem unmarshalFields_flatMap_encode {m : M} (hc : ∀ p ∈ P.prop, p.coder.Lawful)
    (hm : ∀ p ∈ P.prop, ∀ v ∈ p.get m, p.coder.ReadsBack v) {F : M → Prop}
    (hF : ∀ p ∈ P.prop, ∀ s v, F s → F (p.store s v))
    (ps : List (FieldProp M)) (hps : ∀ p ∈ ps, p ∈ P.prop) {T : List Nat}
    (hT : (T ++ ps.map (·.tag)).Nodup) {s₀ s : M} (hs : P.MergedOn T s₀ m s) (hFs : F s)
    (rest : List UInt8) :
    ∃ s', P.MergedOn (T ++ ps.map (·.tag)) s₀ m s' ∧ F s' ∧
      P.unmarshalFields (ps.flatMap (·.encode m) ++ rest) s = P.unmarshalFields rest s' := by
  induction ps generalizing T s with
  | nil => exact ⟨s, by simpa using hs, hFs, by simp⟩
  | cons p ps ih =>
      have hp := hps p (List.mem_cons_self _ _)
      have hT' : ((T ++ [p.tag]) ++ ps.map (·.tag)).Nodup := by simpa using hT
      obtain ⟨s₁, hs₁, hF₁, hrun₁⟩ := P.unmarshalFields_encode hp (hc p hp)
        (fun h => (List.nodup_append.mp hT).2.2 h (by simp)) hs (hm p hp) (hF p hp) hFs
        (ps.flatMap (·.encode m) ++ rest)
      obtain ⟨s₂, hs₂, hF₂, hrun₂⟩ :=
        ih (fun q hq => hps q (List.mem_cons_of_mem _ hq)) hT' hs₁ hF₁
      refine ⟨s₂, by simpa using hs₂, hF₂, ?_⟩
      rw [List.flatMap_cons, List.append_assoc, hrun₁, hrun₂]

/-- The declared fields of `m`, decoded over `s`, each merge into the field of `s`. -/
theorem unmarshalFields_encode_over {m : M} (hc : ∀ p ∈ P.prop, p.coder.Lawful)
    (hm : ∀ p ∈ P.prop, ∀ v ∈ p.get m, p.coder.ReadsBack v) {F : M → Prop}
    (hF : ∀ p ∈ P.prop, ∀ s v, F s → F (p.store s v)) {s : M} (hFs : F s) (rest : List UInt8) :
    ∃ s', (∀ p ∈ P.prop, p.get s' = p.label.merge (p.get s) (p.get m)) ∧ F s' ∧
      P.unmarshalFields (P.prop.flatMap (·.encode m) ++ rest) s = P.unmarshalFields rest s' := by
  obtain ⟨s', hs', hFs', hrun⟩ := P.unmarshalFields_flatMap_encode hc hm hF P.prop (fun _ h => h)
    (by simpa using P.prop_tags_nodup) (P.mergedOn_nil s m) hFs rest
  refine ⟨s', fun p hp => ?_, hFs', hrun⟩
  rw [hs' p hp, if_pos (by simpa using List.mem_map_of_mem _ hp)]

/-! ## Decoding the unknown fields -/

/-- A field of a number the message does not declare is kept verbatim. -/
theorem readField_isField {f : Nat × List UInt8} (hf : IsField f) (h0 : f.1 ≠ 0)
    (ht : f.1 ∉ P.tags) (s : M) (rest : List UInt8) :
    P.readField (f.2 ++ rest) s = (P.setUnrecognized s (P.unrecognized s ++ f.2), .ok rest) := by
  obtain ⟨k, pay, hd, hk, hs⟩ := hf
  have hw : k &&& 7 ≠ wireEndGroup := fun hw => by rw [hw, skip_endGroup] at hs; cases hs
  rw [tags, List.mem_append, not_or, ← hk] at ht
  rw [← hk] at h0
  have hs' := skip_map_append _ _ hs rest
  rw [List.nil_append] at hs'
  rw [readField, decodeVarint_append hd rest]
  simp only [if_neg hw, if_neg h0, P.find?_eq_none ht.1, P.unmarshaler_of_not_mem _ _ _ _ ht.2,
    Bool.false_eq_true, if_false]
  split
  · rename_i e he; rw [he] at hs'; cases hs'
  · rename_i r hr
    rw [hr] at hs'
    simp only [Except.map, Except.ok.injEq] at hs'
    rw [hs', List.length_append, Nat.add_sub_cancel, List.take_left' rfl]

/-- The loop reads `u` as unknown fields: over any message it appends them, unchanged, to the
unrecognized bytes, keeps the declared fields and goes on after them. -/
def ReadsAsUnknown (u : List UInt8) : Prop :=
  ∀ {F : M → Prop}, (∀ s u, F s → F (P.setUnrecognized s u)) → ∀ s, F s → ∀ rest,
    ∃ s', (∀ p ∈ P.prop, p.get s' = p.get s) ∧ P.unrecognized s' = P.unrecognized s ++ u ∧
      F s' ∧ P.unmarshalFields (u ++ rest) s = P.unmarshalFields rest s'

/-- Unknown fields, in whatever encoding, read as unknown fields. -/
theorem readsAsUnknown_of_rawUnknown {u : List UInt8} (hu : P.RawUnknown u) :
    P.ReadsAsUnknown u := by
  obtain ⟨fs, rfl, hfs⟩ := hu
  intro F hF s hFs rest
  induction fs generalizing s with
  | nil => exact ⟨s, fun _ _ => rfl, by simp, hFs, rfl⟩
  | cons f fs ih =>
      obtain ⟨hf, h0, ht⟩ := hfs f (List.mem_cons_self _ _)
      obtain ⟨s', hget, hu, hF', hrun⟩ := ih (fun g hg => hfs g (List.mem_cons_of_mem _ hg))
        (P.setUnrecognized s (P.unrecognized s ++ f.2)) (hF _ _ hFs)
      have hne : f.2 ≠ [] := by
        obtain ⟨k, pay, hd, -⟩ := hf
        intro he; rw [he] at hd; cases hd
      refine ⟨s', fun p hp => (hget p hp).trans (P.get_setUnrecognized p hp _ _), ?_, hF', ?_⟩
      · rw [hu, P.unrecognized_setUnrecognized, List.flatMap_cons, List.append_assoc]
      · rw [List.flatMap_cons, List.append_assoc, P.unmarshalFields_of_readField
          (List.append_ne_nil_of_left_ne_nil hne _) (P.readField_isField hf h0 ht s _), hrun]

theorem rawUnknown_encodeAll {fs : List UnknownField}
    (hfs : ∀ f ∈ fs, f.wellFormed ∧ f.tag ∉ P.tags) : P.RawUnknown (UnknownField.encodeAll fs) :=
  ⟨_, UnknownField.encodeAll_eq_flatMap fs, fun g hg => by
    obtain ⟨f, hf, rfl⟩ := List.mem_map.mp hg
    exact ⟨UnknownField.isField_encode (hfs f hf).1,
      (UnknownField.tag_bounds_of_wellFormed (hfs f hf).1).1.ne', (hfs f hf).2⟩⟩

theorem rawUnknown_append {u u' : List UInt8} (hu : P.RawUnknown u) (hu' : P.RawUnknown u') :
    P.RawUnknown (u ++ u') := by
  obtain ⟨fs, rfl, hfs⟩ := hu
  obtain ⟨fs', rfl, hfs'⟩ := hu'
  refine ⟨fs ++ fs', by rw [List.flatMap_append], fun f hf => ?_⟩
  rcases List.mem_append.mp hf with hf | hf
  exacts [hfs f hf, hfs' f hf]

theorem unmarshalFields_encodeAll (fs : List UnknownField)
    (hfs : ∀ f ∈ fs, f.wellFormed ∧ f.tag ∉ P.tags) {F : M → Prop}
    (hF : ∀ s u, F s → F (P.setUnrecognized s u)) (s : M) (hFs : F s) (rest : List UInt8) :
    ∃ s', (∀ p ∈ P.prop, p.get s' = p.get s) ∧
      P.unrecognized s' = P.unrecognized s ++ UnknownField.encodeAll fs ∧ F s' ∧
      P.unmarshalFields (UnknownField.encodeAll fs ++ rest) s = P.unmarshalFields rest s' :=
  P.readsAsUnknown_of_rawUnknown (P.rawUnknown_encodeAll hfs) hF s hFs rest

/-! ## Messages without oneofs -/

/-- `c` is what decoding `m` over `s` gives: each field holds the values of `m` merged into
those of `s`, and the unrecognized bytes are those of `s`, then those of `m`. -/
def MergeOf (s m c : M) : Prop :=
  (∀ p ∈ P.prop, p.get c = p.label.merge (p.get s) (p.get m)) ∧
    P.unrecognized c = P.unrecognized s ++ P.unrecognized m

/-- The laws the round trip needs of a message type without oneofs. -/
structure Lawful : Prop where
  coder_lawful : ∀ p ∈ P.prop, p.coder.Lawful
  marshaler_eq : ∀ m b, P.oneof.marshaler m b = (b, none)
  sizer_eq : ∀ m, P.oneof.sizer m = 0
  ext : ∀ m m', (∀ p ∈ P.prop, p.get m = p.get m') → P.unrecognized m = P.unrecognized m' →
    m = m'

variable {P}

theorem Lawful.marshal_eq (hP : P.Lawful) (m : M) :
    P.marshal m = (P.prop.flatMap (·.encode m) ++ P.unrecognized m,
      (P.missingRequired m).map .requiredNotSet) := by
  rw [marshal, hP.marshaler_eq]

/-- Decoding what `marshal` wrote for `m` over `s` merges `m` into `s`, without error. -/
theorem unmarshalFields_marshal_over_of (hP : P.Lawful) {m : M}
    (hu : P.ReadsAsUnknown (P.unrecognized m))
    (hv : ∀ p ∈ P.prop, ∀ v ∈ p.get m, p.coder.ReadsBack v) (s : M) :
    ∃ c, P.MergeOf s m c ∧ P.unmarshalFields (P.marshal m).1 s = (c, none) := by
  obtain ⟨s₁, hs₁, hus₁, hrun₁⟩ := P.unmarshalFields_encode_over hP.coder_lawful hv
    (F := fun t => P.unrecognized t = P.unrecognized s)
    (fun p hp t v h => (P.unrecognized_store p hp t v).trans h) rfl (P.unrecognized m ++ [])
  obtain ⟨c, hget, huc, -, hrun₂⟩ := hu (F := fun _ => True) (fun _ _ _ => trivial) s₁ trivial []
  refine ⟨c, ⟨fun p hp => (hget p hp).trans (hs₁ p hp), by rw [huc, hus₁]⟩, ?_⟩
  rw [hP.marshal_eq, ← List.append_nil (P.unrecognized m), hrun₁, hrun₂, unmarshalFields_nil]

theorem unmarshalFields_marshal_over (hP : P.Lawful) {m : M} (hm : P.UnknownFieldsWellFormed m)
    (hv : ∀ p ∈ P.prop, ∀ v ∈ p.get m, p.coder.Valid v) (s : M) :
    ∃ c, P.MergeOf s m c ∧ P.unmarshalFields (P.marshal m).1 s = (c, none) :=
  unmarshalFields_marshal_over_of hP (P.readsAsUnknown_of_rawUnknown hm)
    (fun p hp v hv' => (hP.coder_lawful p hp).readsBack (hv p hp v hv')) s

theorem unmarshalFields_marshal_of_mergeOf (hP : P.Lawful) {m : M}
    (hm : P.UnknownFieldsWellFormed m) (hv : ∀ p ∈ P.prop, ∀ v ∈ p.get m, p.coder.Valid v)
    {s c : M} (hc : P.MergeOf s m c) : P.unmarshalFields (P.marshal m).1 s = (c, none) := by
  obtain ⟨c', ⟨hget, hu⟩, hrun⟩ := unmarshalFields_marshal_over hP hm hv s
  rw [hrun, hP.ext c' c (fun p hp => (hget p hp).trans (hc.1 p hp).symm) (hu.trans hc.2.symm)]

/-- Decoding what `marshal` wrote gives the message back; the only error is the one for a nil
required field. -/
theorem unmarshal_marshal (hP : P.Lawful) {m : M} (hm : P.Valid m) :
    P.unmarshal (P.marshal m).1 = (m, (P.missingRequired m).map .requiredNotSet) := by
  obtain ⟨c, ⟨hget, hu⟩, hrun⟩ := unmarshalFields_marshal_over hP hm.1 hm.2.1 P.zero
  have hc : c = m := hP.ext _ _ (fun p hp => (hget p hp).trans (P.merge_get_zero hp m))
    (by rw [hu, P.unrecognized_zero, List.nil_append])
  rw [unmarshal, hrun, hc]

/-- `DecodeMessage` reads back what `EncodeMessage` appended, and stops right after it. -/
theorem decodeMessage_encodeMessage (hP : P.Lawful) {m : M} (hm : P.Valid m)
    (rest : List UInt8) :
    P.decodeMessage (encodeVarint (P.marshal m).1.length ++ (P.marshal m).1 ++ rest) =
      ((m, (P.missingRequired m).map .requiredNotSet), rest) := by
  rw [decodeMessage, decodeRawBytes_encode hm.2.2]
  simp only [unmarshal_marshal hP hm]

/-! ## Sizes -/

theorem length_encode {p : FieldProp M} (hc : p.coder.Lawful) (m : M) :
    (p.encode m).length = p.size m := by
  simp only [FieldProp.encode, FieldProp.size, List.flatMap, List.length_flatten, List.map_map]
  congr 1
  exact List.map_congr_left fun v _ => by
    simp [FieldProp.encodeOne, length_encodeVarint, hc.length_encode]

theorem length_flatMap_encode (hc : ∀ p ∈ P.prop, p.coder.Lawful) (m : M) :
    (P.prop.flatMap (·.encode m)).length = (P.prop.map (·.size m)).sum := by
  simp only [List.flatMap, List.length_flatten, List.map_map]
  congr 1
  exact List.map_congr_left fun p hp => length_encode (hc p hp) m

theorem size_eq_length_marshal (hP : P.Lawful) (m : M) : P.size m = (P.marshal m).1.length := by
  rw [hP.marshal_eq, size, hP.sizer_eq, List.length_append,
    length_flatMap_encode hP.coder_lawful]
  rfl

/-- The coder of a nested message of a type without oneofs is lawful. -/
theorem lawful_message (hP : P.Lawful) : (ValueCoder.message P).Lawful where
  wireType_lt := show wireBytes < 8 by decide
  wireType_ne_endGroup := show wireBytes ≠ wireEndGroup by decide
  decode_encode {n} hn rest := by
    obtain ⟨hv, hreq⟩ := hn
    dsimp only [ValueCoder.message]
    rw [decodeRawBytes_encode hv.2.2]
    simp only [unmarshal_marshal hP hv, hreq, Option.map_none']
  length_encode n := by
    dsimp only [ValueCoder.message]
    rw [List.length_append, length_encodeVarint, size_eq_length_marshal hP]

end StructProperties

end TurboProfile
