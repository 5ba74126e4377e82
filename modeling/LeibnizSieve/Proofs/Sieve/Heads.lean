import LeibnizSieve.Proofs.Sieve.Primality

/-! The heads of the outer loop, one by one. Main statement: at each of them the flags tell which
numbers have no proper divisor among the candidates passed so far. Behind it the inner loop clears
the multiples of a prime from its square on, and nothing else. -/

namespace LeibnizSieve.Sieve

theorem flag_ext {a b : Option Bool} (hsome : a.isSome = b.isSome)
    (htrue : a = some true ↔ b = some true) : a = b := by
  cases a with
  | none =>
    cases b with
    | none => rfl
    | some y => cases hsome
  | some x =>
    cases b with
    | none => cases hsome
    | some y => cases x <;> cases y <;> simp at htrue ⊢

theorem getElem?_clearMultiples {limit p : UInt64} {flags : Array Bool} (hp : 0 < p.toNat)
    (hsq : p.toNat * p.toNat ≤ limit.toNat) (hsize : flags.size = limit.toNat + 1) (k : ℕ) :
    (clearMultiples limit p flags)[k]? =
      if p.toNat * p.toNat ≤ k ∧ k ≤ limit.toNat ∧ p.toNat ∣ k then some false
      else flags[k]? := by
  apply flag_ext
  · split_ifs with hk
    · have hlt : k < flags.size := by
        rw [hsize]
        exact Nat.lt_succ_of_le hk.2.1
      simp [hlt]
    · rw [Bool.eq_iff_iff, isSome_getElem?, isSome_getElem?]
      simp
  · rw [clearMultiples_flag flags k hp hsq]
    split_ifs with hk <;> simp [hk]

namespace Sweep

variable {limit : UInt64} {s : Sweep}

theorem getElem?_turn (hs : s.Sound limit) (hg : s.goesOn limit = true) (k : ℕ) :
    (s.turn limit).flags[k]? =
      if s.flags[s.candidate.toNat]? = some true ∧ s.candidate.toNat * s.candidate.toNat ≤ k ∧
        k ≤ limit.toNat ∧ s.candidate.toNat ∣ k then some false
      else s.flags[k]? := by
  have hsq := (goesOn_iff hs.pos).1 hg
  simp only [flags_turn, getD_flag]
  by_cases hp : s.flags[s.candidate.toNat]? = some true
  · simp only [hp, if_true, true_and, getElem?_clearMultiples hs.pos hsq hs.size k]
  · simp only [hp, if_false, false_and]

theorem Sound.candidate_flag (hs : s.Sound limit) (hg : s.goesOn limit = true) :
    s.flags[s.candidate.toNat]? = some true ↔ s.candidate.toNat.Prime :=
  (hs.flag _ (candidate_lt_of_goesOn hg).1).trans survives_self

end Sweep

/-- At every head of the outer loop the flags are those of the numbers from two on that no smaller
number below the candidate divides. As long as the loop goes on, a candidate that is still set is
prime, and the turn clears its multiples from its square up to the limit and no other flag. -/
theorem sweep_head_flags {limit : UInt64} {s : Sweep} (h : Sweep.Reached limit s) :
    2 ≤ s.candidate.toNat ∧ s.flags.size = limit.toNat + 1 ∧
    (∀ k ≤ limit.toNat, s.flags[k]? = some true ↔
      2 ≤ k ∧ ∀ d, 2 ≤ d → d < s.candidate.toNat → d < k → ¬ d ∣ k) ∧
    (s.goesOn limit = true →
      (s.flags[s.candidate.toNat]? = some true ↔ s.candidate.toNat.Prime) ∧
      ∀ k, (s.turn limit).flags[k]? =
        if s.flags[s.candidate.toNat]? = some true ∧ s.candidate.toNat * s.candidate.toNat ≤ k ∧
          k ≤ limit.toNat ∧ s.candidate.toNat ∣ k then some false
        else s.flags[k]?) := by
  have hs := h.sound
  refine ⟨hs.two_le, hs.size, hs.flag, ?_⟩
  intro hg
  exact ⟨hs.candidate_flag hg, Sweep.getElem?_turn hs hg⟩

theorem sweep_head_flags_thirty : ∃ s, Sweep.Reached 30 s ∧ s.goesOn 30 = true ∧
    s.candidate.toNat = 5 ∧ s.flags[25]? = some true ∧ (s.turn 30).flags[25]? = some false ∧
    (s.turn 30).flags[29]? = some true := by
  have hreached : Sweep.Reached 30 ((((Sweep.start 30).turn 30).turn 30).turn 30) :=
    ((Sweep.Reached.start.turn (by decide)).turn (by decide)).turn (by decide)
  have hg : ((((Sweep.start 30).turn 30).turn 30).turn 30).goesOn 30 = true := by decide
  have hp : ((((Sweep.start 30).turn 30).turn 30).turn 30).candidate.toNat = 5 := by decide
  have hlimit : (30 : UInt64).toNat = 30 := rfl
  have hsquare : ∀ d < 5, 2 ≤ d → ¬ d ∣ 25 := by decide
  have hlast : ∀ d < 5, 2 ≤ d → ¬ d ∣ 29 := by decide
  obtain ⟨-, -, hflag, hturn⟩ := sweep_head_flags hreached
  obtain ⟨hprime, hclear⟩ := hturn hg
  rw [hp, hlimit] at hflag
  rw [hp] at hprime
  simp only [hp, hlimit] at hclear
  refine ⟨_, hreached, hg, hp, ?_, ?_, ?_⟩
  · exact (hflag 25 (by decide)).2 ⟨by decide, fun d h2 hd _ => hsquare d hd h2⟩
  · rw [hclear, if_pos ⟨hprime.2 (by norm_num), by decide⟩]
  · rw [hclear, if_neg (fun h => absurd h.2 (by decide))]
    exact (hflag 29 (by decide)).2 ⟨by decide, fun d h2 hd _ => hlast d hd h2⟩

end LeibnizSieve.Sieve
