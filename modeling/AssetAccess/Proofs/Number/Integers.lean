import AssetAccess.Number.Binary64
set_option autoImplicit false

/-!
# Integers as doubles

An integer of no more than 53 bits is a double: shifted until its leading bit is the 53rd, it is
the significand, and nothing is left to round.
-/

namespace AssetAccess.Binary64

/-- Nothing is rounded in a quotient by one. -/
theorem roundToEven_one (n : Nat) : roundToEven n 1 = n := by
  simp [roundToEven, Nat.mod_one]

theorem leadingBit_one {n : Nat} (h : n ≠ 0) : leadingBit n 1 = n.log2 := by
  have hle : 1 * Nat.pow 2 n.log2 ≤ n * Nat.pow 2 0 := by
    rw [Nat.one_mul]
    exact Nat.le_trans (Nat.log2_self_le h) (Nat.le_of_eq (Nat.mul_one n).symm)
  have hone : Nat.log2 1 = 0 := by decide
  have hneg : (-(n.log2 : Int)).toNat = 0 := by omega
  simp only [leadingBit, hone, Int.natCast_zero, Int.sub_zero, Int.toNat_natCast, hneg, if_pos hle]

/-- A number of no more than 53 bits has 53 bits when it is shifted to the left by those that it
lacks. -/
theorem shifted_bounds {n : Nat} (hne : n ≠ 0) (h : n < 9007199254740992) :
    n.log2 ≤ 52 ∧ 4503599627370496 ≤ n * Nat.pow 2 (52 - n.log2) ∧
      n * Nat.pow 2 (52 - n.log2) < 9007199254740992 := by
  have hlog : n.log2 < 53 := (Nat.log2_lt hne).mpr h
  have hpow : ∀ k, Nat.pow 2 (k + (52 - n.log2)) = Nat.pow 2 k * Nat.pow 2 (52 - n.log2) :=
    fun k => Nat.pow_add 2 k _
  have hlow := hpow n.log2
  have hhigh := hpow (n.log2 + 1)
  have hlowest : n.log2 + (52 - n.log2) = 52 := by omega
  have hhighest : n.log2 + 1 + (52 - n.log2) = 53 := by omega
  rw [hlowest] at hlow
  rw [hhighest] at hhigh
  refine ⟨Nat.le_of_lt_succ hlog, ?_, ?_⟩
  · have hle : Nat.pow 2 n.log2 * Nat.pow 2 (52 - n.log2) ≤ n * Nat.pow 2 (52 - n.log2) :=
      Nat.mul_le_mul_right _ (Nat.log2_self_le hne)
    rw [← hlow] at hle
    exact hle
  · have hlt : n * Nat.pow 2 (52 - n.log2) < Nat.pow 2 (n.log2 + 1) * Nat.pow 2 (52 - n.log2) :=
      Nat.mul_lt_mul_of_pos_right Nat.lt_log2_self (Nat.pow_pos (by decide))
    rw [← hhigh] at hlt
    exact hlt

/-- An integer of no more than 53 bits is a finite double. -/
theorem isFinite_ofInt {i : Int} (h : i.natAbs < 9007199254740992) :
    (ofInt i).isFinite = true := by
  rw [ofInt, ofRatio]
  split
  · rfl
  · rename_i hne
    obtain ⟨hlog, hlow, hhigh⟩ := shifted_bounds hne h
    have hwanted : ¬ ((i.natAbs.log2 : Int) - 52 < -1074) := by omega
    have hshift : (-((i.natAbs.log2 : Int) - 52)).toNat = 52 - i.natAbs.log2 := by omega
    have hden : ((i.natAbs.log2 : Int) - 52).toNat = 0 := by omega
    have hunit : 1 * Nat.pow 2 0 = 1 := rfl
    have hcanonical : Canonical (i.natAbs * Nat.pow 2 (52 - i.natAbs.log2))
        ((i.natAbs.log2 : Int) - 52) :=
      ⟨hhigh, by omega, by omega, .inr hlow⟩
    simp only [leadingBit_one hne, if_neg hwanted, hshift, hden, hunit, roundToEven_one,
      if_neg (Nat.ne_of_lt hhigh), ofParts, dif_pos hcanonical, isFinite]

end AssetAccess.Binary64
