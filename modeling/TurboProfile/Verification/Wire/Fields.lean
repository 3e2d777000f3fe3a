import TurboProfile.Verification.Wire.Append

/-! # The fields of a buffer

`fieldNumbers` lists the numbers of the fields of a buffer and `fieldBytes` the fields, each a
key and the payload `skip` steps over. -/

namespace TurboProfile

/-- The numbers of the fields of `bs`, in order, each field being a key and the payload `skip`
steps over; `none` if `bs` is not a sequence of whole fields. -/
def fieldNumbers (bs : List UInt8) : Option (List Nat) :=
  match bs with
  | [] => some []
  | b :: bs' =>
    match h : decodeVarint (b :: bs') with
    | .error _ => none
    | .ok (u, r) =>
      match skip (u &&& 7) r with
      | .error _ => none
      | .ok r' => (fieldNumbers r'.1).map (u >>> 3 :: ·)
termination_by bs.length
decreasing_by have := decodeVarint_length_lt h; have := r'.2; omega

@[simp] theorem fieldNumbers_nil : fieldNumbers [] = some [] := by
  rw [fieldNumbers]

theorem fieldNumbers_of_skip {bs r r' : List UInt8} {u : Nat}
    (hd : decodeVarint bs = .ok (u, r)) (hs : (skip (u &&& 7) r).map (·.1) = .ok r') :
    fieldNumbers bs = (fieldNumbers r').map (u >>> 3 :: ·) := by
  cases bs with
  | nil => cases hd
  | cons b bs =>
      rw [fieldNumbers]
      split
      · rename_i hd'; rw [hd] at hd'; cases hd'
      · rename_i hd'
        rw [hd] at hd'
        cases hd'
        split
        · rename_i e he; rw [he] at hs; cases hs
        · rename_i r'' he; rw [he] at hs; cases hs; rfl

/-- The fields of `bs`, in order, each as its number and its bytes, key and payload as they
stand in `bs`; `none` if `bs` is not a sequence of whole fields. -/
def fieldBytes (bs : List UInt8) : Option (List (Nat × List UInt8)) :=
  match bs with
  | [] => some []
  | b :: bs' =>
    match h : decodeVarint (b :: bs') with
    | .error _ => none
    | .ok (u, r) =>
      match skip (u &&& 7) r with
      | .error _ => none
      | .ok r' =>
        (fieldBytes r'.1).map ((u >>> 3, (b :: bs').take ((b :: bs').length - r'.1.length)) :: ·)
termination_by bs.length
decreasing_by have := decodeVarint_length_lt h; have := r'.2; omega

@[simp] theorem fieldBytes_nil : fieldBytes [] = some [] := by
  rw [fieldBytes]

theorem fieldBytes_of_skip {bs r r' : List UInt8} {u : Nat}
    (hd : decodeVarint bs = .ok (u, r)) (hs : (skip (u &&& 7) r).map (·.1) = .ok r') :
    fieldBytes bs = (fieldBytes r').map ((u >>> 3, bs.take (bs.length - r'.length)) :: ·) := by
  cases bs with
  | nil => cases hd
  | cons b bs =>
      rw [fieldBytes]
      split
      · rename_i hd'; rw [hd] at hd'; cases hd'
      · rename_i hd'
        rw [hd] at hd'
        cases hd'
        split
        · rename_i e he; rw [he] at hs; cases hs
        · rename_i r'' he; rw [he] at hs; cases hs; rfl

theorem fieldNumbers_cons_inv {bs : List UInt8} {ns : List Nat} (hbs : bs ≠ [])
    (h : fieldNumbers bs = some ns) :
    ∃ u r r' ns', decodeVarint bs = .ok (u, r) ∧ (skip (u &&& 7) r).map (·.1) = .ok r' ∧
      fieldNumbers r' = some ns' ∧ ns = u >>> 3 :: ns' := by
  cases bs with
  | nil => exact absurd rfl hbs
  | cons b bs =>
      rw [fieldNumbers] at h
      split at h
      · cases h
      · rename_i u r hd
        split at h
        · cases h
        · rename_i r' hs
          obtain ⟨ns', hns', rfl⟩ := Option.map_eq_some'.mp h
          exact ⟨u, r, r'.1, ns', hd, by rw [hs]; rfl, hns', rfl⟩

theorem fieldNumbers_flatMap_isField {fs : List (Nat × List UInt8)} (hfs : ∀ f ∈ fs, IsField f)
    (rest : List UInt8) :
    fieldNumbers (fs.flatMap (·.2) ++ rest) = (fieldNumbers rest).map (fs.map (·.1) ++ ·) := by
  induction fs with
  | nil => simp
  | cons f fs ih =>
      obtain ⟨k, pay, hd, hk, hs⟩ := hfs f (List.mem_cons_self _ _)
      have hs' := skip_map_append _ _ hs (fs.flatMap (·.2) ++ rest)
      rw [List.nil_append] at hs'
      rw [List.flatMap_cons, List.append_assoc, fieldNumbers_of_skip (decodeVarint_append hd _) hs',
        ih (fun g hg => hfs g (List.mem_cons_of_mem _ hg)), Option.map_map, hk]
      rfl

end TurboProfile
