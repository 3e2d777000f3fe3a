import TurboProfile.Verification.Wire.Skip

/-! # Readers do not look past what they read

Every reader that succeeds on `bs` succeeds in the same way on `bs ++ t`, and on the prefix it
consumed it returns the same value with nothing left. -/

namespace TurboProfile

theorem decodeVarintFrom_append {shift acc u : Nat} {bs r : List UInt8}
    (h : decodeVarintFrom shift acc bs = .ok (u, r)) (t : List UInt8) :
    decodeVarintFrom shift acc (bs ++ t) = .ok (u, r ++ t) := by
  induction bs generalizing shift acc with
  | nil => cases h
  | cons b bs ih =>
      simp only [decodeVarintFrom, List.cons_append] at h ⊢
      split at h
      · cases h; rw [if_pos ‹_›]; rfl
      · rw [if_neg ‹_›]
        split at h
        · rw [if_pos ‹_›]; exact ih h
        · cases h

theorem decodeVarint_append {u : Nat} {bs r : List UInt8} (h : decodeVarint bs = .ok (u, r))
    (t : List UInt8) : decodeVarint (bs ++ t) = .ok (u, r ++ t) :=
  decodeVarintFrom_append h t

theorem decodeFixed32_append {u : Nat} {bs r : List UInt8} (h : decodeFixed32 bs = .ok (u, r))
    (t : List UInt8) : decodeFixed32 (bs ++ t) = .ok (u, r ++ t) := by
  match bs, h with
  | _ :: _ :: _ :: _ :: _, rfl => rfl

theorem decodeRawBytes_append {bs d r : List UInt8} (h : decodeRawBytes bs = .ok (d, r))
    (t : List UInt8) : decodeRawBytes (bs ++ t) = .ok (d, r ++ t) := by
  unfold decodeRawBytes at h ⊢
  split at h
  · cases h
  · rename_i n r' hr
    split at h
    · rename_i hle
      cases h
      have hn : n ≤ (r' ++ t).length := by simp only [List.length_append]; omega
      simp only [decodeVarint_append hr t, if_pos hn, List.take_append_of_le_length hle,
        List.drop_append_of_le_length hle]
    · cases h

/-! ## What a reader returns it read from a prefix -/

theorem decodeVarintFrom_exact {shift acc u : Nat} {bs r : List UInt8}
    (h : decodeVarintFrom shift acc bs = .ok (u, r)) :
    ∃ pre, bs = pre ++ r ∧ decodeVarintFrom shift acc pre = .ok (u, []) := by
  induction bs generalizing shift acc with
  | nil => cases h
  | cons b bs ih =>
      simp only [decodeVarintFrom] at h
      split at h
      · rename_i hb
        cases h
        exact ⟨[b], rfl, by simp only [decodeVarintFrom, if_pos hb]⟩
      · rename_i hb
        split at h
        · rename_i hs
          obtain ⟨pre, rfl, hpre⟩ := ih h
          exact ⟨b :: pre, rfl, by simp only [decodeVarintFrom, if_neg hb, if_pos hs, hpre]⟩
        · cases h

theorem decodeVarint_exact {u : Nat} {bs r : List UInt8} (h : decodeVarint bs = .ok (u, r)) :
    ∃ pre, bs = pre ++ r ∧ decodeVarint pre = .ok (u, []) :=
  decodeVarintFrom_exact h

theorem decodeFixed32_exact {u : Nat} {bs r : List UInt8} (h : decodeFixed32 bs = .ok (u, r)) :
    ∃ pre, bs = pre ++ r ∧ decodeFixed32 pre = .ok (u, []) := by
  match bs, h with
  | b0 :: b1 :: b2 :: b3 :: _, rfl => exact ⟨[b0, b1, b2, b3], rfl, rfl⟩

theorem decodeRawBytes_exact {bs d r : List UInt8} (h : decodeRawBytes bs = .ok (d, r)) :
    ∃ pre, bs = pre ++ r ∧ decodeRawBytes pre = .ok (d, []) := by
  unfold decodeRawBytes at h
  split at h
  · cases h
  · rename_i n rest hr
    split at h
    · rename_i hle
      cases h
      obtain ⟨pre, rfl, hpre⟩ := decodeVarint_exact hr
      have hlen : (rest.take n).length = n := List.length_take_of_le hle
      refine ⟨pre ++ rest.take n, by rw [List.append_assoc, List.take_append_drop], ?_⟩
      rw [decodeRawBytes, decodeVarint_append hpre]
      simp only [List.nil_append, hlen, le_refl, if_true, List.take_of_length_le hlen.le,
        List.drop_of_length_le hlen.le]
    · cases h

theorem skipFixed_map_append {n : Nat} {hn : 0 < n} {bs r : List UInt8}
    (h : (skipFixed n hn bs).map (·.1) = .ok r) (t : List UInt8) :
    (skipFixed n hn (bs ++ t)).map (·.1) = .ok (r ++ t) := by
  unfold skipFixed at h ⊢
  split at h
  · simp only [Except.map, Except.ok.injEq] at h
    rw [dif_pos (by simp only [List.length_append]; omega)]
    simp only [Except.map, ← h, List.drop_append_of_le_length ‹_›]
  · cases h

theorem skip_map_append (wire : Nat) (bs : List UInt8) :
    ∀ {r : List UInt8}, (skip wire bs).map (·.1) = .ok r → ∀ t,
      (skip wire (bs ++ t)).map (·.1) = .ok (r ++ t) := by
  refine skip.induct
    (fun wire bs => ∀ {r : List UInt8}, (skip wire bs).map (·.1) = .ok r → ∀ t,
      (skip wire (bs ++ t)).map (·.1) = .ok (r ++ t))
    (fun bs => ∀ {r : List UInt8}, (skipGroup bs).map (·.1) = .ok r → ∀ t,
      (skipGroup (bs ++ t)).map (·.1) = .ok (r ++ t))
    ?case1 ?case2 ?case3 ?case4 ?case5 ?case6 ?case7 ?case8 ?case9 ?case10 ?case11 ?case12 ?case13
    wire bs
  case case1 =>
    intro bs u r hd r₀ h t
    rw [skip_varint hd] at h
    cases h
    exact skip_varint (decodeVarint_append hd t)
  case case2 =>
    intro bs e hd r₀ h t
    unfold skip at h
    split at h
    · rename_i hd'; rw [hd] at hd'; cases hd'
    · cases h
  case case3 =>
    intro bs r₀ h t
    unfold skip at h ⊢
    exact skipFixed_map_append h t
  case case4 =>
    intro bs d r hd r₀ h t
    rw [skip_bytes hd] at h
    cases h
    exact skip_bytes (decodeRawBytes_append hd t)
  case case5 =>
    intro bs e hd r₀ h t
    unfold skip at h
    split at h
    · rename_i hd'; rw [hd] at hd'; cases hd'
    · cases h
  case case6 =>
    intro bs ih r₀ h t
    rw [skip_startGroup] at h ⊢
    exact ih h t
  case case7 =>
    intro bs r₀ h t
    unfold skip at h ⊢
    exact skipFixed_map_append h t
  case case8 =>
    intro bs w h0 h1 h2 h3 h5 r₀ h t
    unfold skip at h
    split at h <;> first | exact absurd rfl ‹_› | cases h
  case case9 =>
    intro bs e hd r₀ h t
    unfold skipGroup at h
    split at h
    · cases h
    · rename_i hd'; rw [hd] at hd'; cases hd'
  case case10 =>
    intro bs u r hd hu r₀ h t
    rw [skipGroup_end hd hu] at h
    cases h
    exact skipGroup_end (decodeVarint_append hd t) hu
  case case11 =>
    intro bs u r hd hu e hs ih r₀ h t
    unfold skipGroup at h
    split at h
    · rename_i hd'; rw [hd] at hd'; cases hd'
    · rename_i hd'
      rw [hd] at hd'
      cases hd'
      simp only [if_neg hu, hs, Except.map] at h
      cases h
  case case12 =>
    intro bs u r hd hu r' hs e hg ih ihg r₀ h t
    rw [skipGroup_field hd hu (by rw [hs]; rfl), hg] at h
    cases h
  case case13 =>
    intro bs u r hd hu r' hs r'' hg ih ihg r₀ h t
    rw [skipGroup_field hd hu (by rw [hs]; rfl)] at h
    rw [skipGroup_field (decodeVarint_append hd t) hu (ih (by rw [hs]; rfl) t)]
    exact ihg h t

theorem skipFixed_exact {n : Nat} {hn : 0 < n} {bs r : List UInt8}
    (h : (skipFixed n hn bs).map (·.1) = .ok r) :
    ∃ pre, bs = pre ++ r ∧ (skipFixed n hn pre).map (·.1) = .ok [] := by
  unfold skipFixed at h
  split at h
  · simp only [Except.map, Except.ok.injEq] at h
    refine ⟨bs.take n, by rw [← h, List.take_append_drop], ?_⟩
    unfold skipFixed
    rw [dif_pos (by rw [List.length_take]; omega)]
    simp only [Except.map, List.drop_take, Nat.sub_self, List.take_zero]
  · cases h

theorem skip_exact (wire : Nat) (bs : List UInt8) :
    ∀ {r : List UInt8}, (skip wire bs).map (·.1) = .ok r →
      ∃ pre, bs = pre ++ r ∧ (skip wire pre).map (·.1) = .ok [] := by
  refine skip.induct
    (fun wire bs => ∀ {r : List UInt8}, (skip wire bs).map (·.1) = .ok r →
      ∃ pre, bs = pre ++ r ∧ (skip wire pre).map (·.1) = .ok [])
    (fun bs => ∀ {r : List UInt8}, (skipGroup bs).map (·.1) = .ok r →
      ∃ pre, bs = pre ++ r ∧ (skipGroup pre).map (·.1) = .ok [])
    ?case1 ?case2 ?case3 ?case4 ?case5 ?case6 ?case7 ?case8 ?case9 ?case10 ?case11 ?case12 ?case13
    wire bs
  case case1 =>
    intro bs u r hd r₀ h
    rw [skip_varint hd] at h
    cases h
    obtain ⟨pre, hbs, hpre⟩ := decodeVarint_exact hd
    exact ⟨pre, hbs, skip_varint hpre⟩
  case case2 =>
    intro bs e hd r₀ h
    unfold skip at h
    split at h
    · rename_i hd'; rw [hd] at hd'; cases hd'
    · cases h
  case case3 =>
    intro bs r₀ h
    unfold skip at h ⊢
    exact skipFixed_exact h
  case case4 =>
    intro bs d r hd r₀ h
    rw [skip_bytes hd] at h
    cases h
    obtain ⟨pre, hbs, hpre⟩ := decodeRawBytes_exact hd
    exact ⟨pre, hbs, skip_bytes hpre⟩
  case case5 =>
    intro bs e hd r₀ h
    unfold skip at h
    split at h
    · rename_i hd'; rw [hd] at hd'; cases hd'
    · cases h
  case case6 =>
    intro bs ih r₀ h
    rw [skip_startGroup] at h
    obtain ⟨pre, hbs, hpre⟩ := ih h
    exact ⟨pre, hbs, by rw [skip_startGroup]; exact hpre⟩
  case case7 =>
    intro bs r₀ h
    unfold skip at h ⊢
    exact skipFixed_exact h
  case case8 =>
    intro bs w h0 h1 h2 h3 h5 r₀ h
    unfold skip at h
    split at h <;> first | exact absurd rfl ‹_› | cases h
  case case9 =>
    intro bs e hd r₀ h
    unfold skipGroup at h
    split at h
    · cases h
    · rename_i hd'; rw [hd] at hd'; cases hd'
  case case10 =>
    intro bs u r hd hu r₀ h
    rw [skipGroup_end hd hu] at h
    cases h
    obtain ⟨pre, hbs, hpre⟩ := decodeVarint_exact hd
    exact ⟨pre, hbs, skipGroup_end hpre hu⟩
  case case11 =>
    intro bs u r hd hu e hs ih r₀ h
    unfold skipGroup at h
    split at h
    · rename_i hd'; rw [hd] at hd'; cases hd'
    · rename_i hd'
      rw [hd] at hd'
      cases hd'
      simp only [if_neg hu, hs, Except.map] at h
      cases h
  case case12 =>
    intro bs u r hd hu r' hs e hg ih ihg r₀ h
    rw [skipGroup_field hd hu (by rw [hs]; rfl), hg] at h
    cases h
  case case13 =>
    intro bs u r hd hu r' hs r'' hg ih ihg r₀ h
    rw [skipGroup_field hd hu (by rw [hs]; rfl)] at h
    obtain ⟨key, hbs, hkey⟩ := decodeVarint_exact hd
    obtain ⟨pre₁, hr, hpre₁⟩ := ih (by rw [hs]; rfl)
    obtain ⟨pre₂, hr', hpre₂⟩ := ihg h
    dsimp only at hr
    refine ⟨key ++ (pre₁ ++ pre₂),
      by rw [hbs, hr, hr', List.append_assoc, List.append_assoc], ?_⟩
    have hd' := decodeVarint_append hkey (pre₁ ++ pre₂)
    have hs' := skip_map_append _ _ hpre₁ pre₂
    rw [List.nil_append] at hd' hs'
    rw [skipGroup_field hd' hu hs']
    exact hpre₂

/-! ## Bounds on what the readers return -/

theorem sizeVarint_le {k x : Nat} (hx : x < 2 ^ (7 * (k + 1))) : sizeVarint x ≤ k + 1 := by
  induction k generalizing x with
  | zero => rw [sizeVarint, if_pos (by rw [Nat.shiftRight_eq_div_pow]; omega)]
  | succ k ih =>
      rw [sizeVarint]
      split
      · omega
      · have hlt : x >>> 7 < 2 ^ (7 * (k + 1)) := by
          rw [Nat.shiftRight_eq_div_pow, Nat.div_lt_iff_lt_mul (Nat.two_pow_pos 7), ← Nat.pow_add]
          exact hx.trans_eq (congrArg (2 ^ ·) (by omega))
        have := ih hlt
        omega

theorem sizeVarint_le_ten {x : Nat} (hx : x < 2 ^ 64) : sizeVarint x ≤ 10 :=
  sizeVarint_le (k := 9) (hx.trans (by decide))

theorem decodeVarintFrom_lt {shift acc u : Nat} {bs r : List UInt8}
    (h : decodeVarintFrom shift acc bs = .ok (u, r)) : u < 2 ^ 64 := by
  induction bs generalizing shift acc with
  | nil => cases h
  | cons b bs ih =>
      simp only [decodeVarintFrom] at h
      split at h
      · cases h; exact Nat.mod_lt _ (Nat.two_pow_pos 64)
      · split at h
        · exact ih h
        · cases h

theorem decodeRawBytes_length_lt_two_pow {bs d r : List UInt8}
    (h : decodeRawBytes bs = .ok (d, r)) : d.length < 2 ^ 64 := by
  unfold decodeRawBytes at h
  split at h
  · cases h
  · rename_i n rest hn
    split at h
    · cases h
      exact (List.length_take_le _ _).trans_lt (decodeVarintFrom_lt hn)
    · cases h

theorem decodeRawBytes_data_length_lt {bs d r : List UInt8}
    (h : decodeRawBytes bs = .ok (d, r)) : d.length < bs.length := by
  unfold decodeRawBytes at h
  split at h
  · cases h
  · rename_i n rest hn
    split at h
    · cases h
      have := decodeVarint_length_lt hn
      rw [List.length_take]
      omega
    · cases h

end TurboProfile
