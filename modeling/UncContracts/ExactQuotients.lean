import UncContracts.ShareMath
import Mathlib.Data.Rat.Floor

/-!
# The share math computes exact floor and ceiling quotients

The four conversions of `ShareMath` multiply two `u128`s into a `U256`, add `denom - 1`
when rounding up, and divide.  Neither the product nor the rounded-up intermediate can
overflow (`U256.mul_u128`, `U256.add_mul_u128`), so with a positive denominator each
conversion computes the rational quotient rounded down or up (`mulDivFloor_eq_floor`,
`mulDivCeil_eq_ceil`), and rounding up adds one exactly when the division is inexact
(`mulDivCeil_eq_mulDivFloor_add`).

What a conversion returns is that quotient cast back by `as_u128`, which panics once the
quotient reaches `2^128`: at `dilutedState`, with `u128::MAX` shares backed by a single
token, two tokens are worth `2^129 - 2` shares (`num_shares_cast_overflows`).
-/

namespace UncContracts

/-- The ceiling of the rational quotient is the rounded-up natural quotient. -/
theorem ceil_div_eq {p d : Nat} (hd : 0 < d) : ⌈(p : ℚ) / d⌉₊ = (p + (d - 1)) / d := by
  have hd' : (0 : ℚ) < d := Nat.cast_pos.mpr hd
  refine le_antisymm (Nat.ceil_le.mpr ?_) ((ceil_le_iff hd).mpr ?_)
  · rw [div_le_iff₀ hd']
    exact_mod_cast le_ceil_mul hd
  · have hceil := Nat.le_ceil ((p : ℚ) / d)
    rw [div_le_iff₀ hd'] at hceil
    exact_mod_cast hceil

section Conversions

variable {msg : String} {n d x : U128}

theorem mulDivFloor_eq_floor (hd : 0 < d.val) :
    mulDivFloor msg n d x = U256.asU128 ⌊((n.val * x.val : ℕ) : ℚ) / d.val⌋₊ := by
  rw [mulDivFloor_eq hd, Nat.floor_div_eq_div]

theorem mulDivCeil_eq_ceil (hd : 0 < d.val) :
    mulDivCeil msg n d x = U256.asU128 ⌈((n.val * x.val : ℕ) : ℚ) / d.val⌉₊ := by
  rw [mulDivCeil_eq hd, ceil_div_eq hd]

/-- When both roundings return, rounding up adds one exactly when `d` does not divide
`n x`. -/
theorem mulDivCeil_eq_mulDivFloor_add {msg' : String} {lo hi : U128}
    (hlo : mulDivFloor msg n d x = .ok lo) (hhi : mulDivCeil msg' n d x = .ok hi) :
    hi.val = lo.val + if n.val * x.val % d.val = 0 then 0 else 1 := by
  obtain ⟨hd, hlo⟩ := mulDivFloor_eq_ok.mp hlo
  rw [(mulDivCeil_eq_ok.mp hhi).2, hlo]
  exact ceil_eq_floor_add hd

end Conversions

namespace StakingContract

/-- **The share math is exact.**  No `U256` intermediate overflows; with a positive
denominator each conversion is the rational quotient rounded down or up and cast by
`as_u128`; and when both roundings of a pair return, they differ by one exactly when the
division is inexact. -/
theorem share_math_exact {AccountId : Type} (self : StakingContract AccountId) (x : U128) :
    (∀ a b : U128, U256.mul a.val b.val = .ok (a.val * b.val)) ∧
    (∀ a b c : U128, U256.add (a.val * b.val) (c.val - 1) = .ok (a.val * b.val + (c.val - 1))) ∧
    (0 < self.totalStakedBalance.val →
      self.numSharesFromStakedAmountRoundedDown x = U256.asU128
          ⌊((self.totalStakeShares.val * x.val : ℕ) : ℚ) / self.totalStakedBalance.val⌋₊ ∧
        self.numSharesFromStakedAmountRoundedUp x = U256.asU128
          ⌈((self.totalStakeShares.val * x.val : ℕ) : ℚ) / self.totalStakedBalance.val⌉₊) ∧
    (∀ lo hi : U128, self.numSharesFromStakedAmountRoundedDown x = .ok lo →
      self.numSharesFromStakedAmountRoundedUp x = .ok hi →
      hi.val = lo.val +
        if self.totalStakeShares.val * x.val % self.totalStakedBalance.val = 0 then 0 else 1) ∧
    (0 < self.totalStakeShares.val →
      self.stakedAmountFromNumSharesRoundedDown x = U256.asU128
          ⌊((self.totalStakedBalance.val * x.val : ℕ) : ℚ) / self.totalStakeShares.val⌋₊ ∧
        self.stakedAmountFromNumSharesRoundedUp x = U256.asU128
          ⌈((self.totalStakedBalance.val * x.val : ℕ) : ℚ) / self.totalStakeShares.val⌉₊) ∧
    (∀ lo hi : U128, self.stakedAmountFromNumSharesRoundedDown x = .ok lo →
      self.stakedAmountFromNumSharesRoundedUp x = .ok hi →
      hi.val = lo.val +
        if self.totalStakedBalance.val * x.val % self.totalStakeShares.val = 0 then 0 else 1) :=
  ⟨U256.mul_u128, U256.add_mul_u128,
    fun hd => ⟨mulDivFloor_eq_floor hd, mulDivCeil_eq_ceil hd⟩,
    fun _ _ => mulDivCeil_eq_mulDivFloor_add,
    fun hd => ⟨mulDivFloor_eq_floor hd, mulDivCeil_eq_ceil hd⟩,
    fun _ _ => mulDivCeil_eq_mulDivFloor_add⟩

/-- `u128::MAX` shares backed by a single token. -/
def dilutedState : StakingContract Nat where
  ownerId := 0
  lastEpochHeight := 0
  lastTotalBalance := 1
  totalStakedBalance := 1
  totalStakeShares := ⟨2 ^ 128 - 1, by decide⟩
  rewardFeeFraction := ⟨0, 1, by decide, by decide⟩
  accounts := ∅

/-- Two shares at `dilutedState` are worth less than a token: the staked amount rounds
down to `0` and up to `1`. -/
theorem share_math_exact_diluted :
    0 < dilutedState.totalStakeShares.val ∧
      dilutedState.stakedAmountFromNumSharesRoundedDown 2 = .ok 0 ∧
      dilutedState.stakedAmountFromNumSharesRoundedUp 2 = .ok 1 ∧
      (1 : U128).val = (0 : U128).val +
        if dilutedState.totalStakedBalance.val * (2 : U128).val %
            dilutedState.totalStakeShares.val = 0 then 0 else 1 :=
  have hlo : dilutedState.stakedAmountFromNumSharesRoundedDown 2 = .ok 0 := rfl
  have hhi : dilutedState.stakedAmountFromNumSharesRoundedUp 2 = .ok 1 := rfl
  ⟨by decide, hlo, hhi, (share_math_exact dilutedState 2).2.2.2.2.2 0 1 hlo hhi⟩

/-- Two tokens at `dilutedState` are worth `2^129 - 2` shares: the denominator is
positive, but the quotient does not fit in `u128` and `as_u128` panics. -/
theorem num_shares_cast_overflows :
    0 < dilutedState.totalStakedBalance.val ∧
      ⌊((dilutedState.totalStakeShares.val * (2 : U128).val : ℕ) : ℚ) /
          dilutedState.totalStakedBalance.val⌋₊ = 2 ^ 129 - 2 ∧
      dilutedState.numSharesFromStakedAmountRoundedDown 2 =
        .error "Integer overflow when casting to u128" :=
  ⟨by decide, by rw [Nat.floor_div_eq_div]; rfl, rfl⟩

end StakingContract

end UncContracts
