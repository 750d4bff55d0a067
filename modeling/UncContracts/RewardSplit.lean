import UncContracts.HostBalance
import Mathlib.Tactic.Linarith

/-!
# The reward split of `internal_ping`

On an epoch change with a reward `r = total_balance - last_total_balance > 0`, the
owner's fee `f = reward_fee_fraction.multiply r` is split off, `T₁ = T + (r - f)` is
given to the delegators, and the owner buys `n = floor (S f / T₁)` shares at the price
`T₁ / S`, before the fee is added: the pool ends at `T + r` with `S + n` shares.

When the `saturating_add`s do not clip, `internalPing_reward_split` gives these
values, and that at the new price the owner's `n` shares are worth at most `f` while
the `S` old shares are worth at least `T + r - f`.  A saturated total stops the pool
short of `T + r` (`internalPing_clips_reward`).
-/

namespace UncContracts

namespace StakingContract

variable {AccountId : Type} [DecidableEq AccountId]

/-- The fee shares bought at `T₁ / S` leave the owner at most `f` and the delegators at
least `T₁` at the new price `(T₁ + f) / (S + n)`. -/
theorem fee_shares_fair {S T₁ f n : Nat} (hbuy : n * T₁ ≤ S * f) :
    n * (T₁ + f) ≤ f * (S + n) ∧ T₁ * (S + n) ≤ S * (T₁ + f) :=
  ⟨by linarith, by linarith⟩

/-- **The reward split.**  With `r`, `f` and `T₁` as `internal_ping` computes them, a
successful ping on an epoch change whose totals do not clip ends with the pool at
`T + r`, the recorded balance at `total_balance`, and `n` new shares for the owner, the
largest `n` with `n T₁ ≤ S f`; at the new price they are worth at most `f`, and the
old shares at least `T + r - f`. -/
theorem internalPing_reward_split {c c' : StakingContract AccountId} {env : Env AccountId}
    {b : Bool} {r f T₁ : Nat}
    (he : c.lastEpochHeight ≠ env.epochHeight)
    (hr : r = env.totalBalance.val - c.lastTotalBalance.val) (hr0 : 0 < r)
    (hf : f = (c.rewardFeeFraction.multiply
      (env.totalBalance.saturatingSub c.lastTotalBalance)).val)
    (hT₁ : T₁ = c.totalStakedBalance.val + (r - f))
    (hfitT : c.totalStakedBalance.val + r ≤ 2 ^ 128 - 1)
    (hfitS : c.totalStakeShares.val + c.totalStakeShares.val * f / T₁ ≤ 2 ^ 128 - 1)
    (hfitO : (c.internalGetAccount c.ownerId).stakeShares.val +
      c.totalStakeShares.val * f / T₁ ≤ 2 ^ 128 - 1)
    (h : c.internalPing env = .ok (b, c')) :
    c'.totalStakedBalance.val = c.totalStakedBalance.val + r ∧
    c'.lastTotalBalance = env.totalBalance ∧
    ∃ n : Nat, n * T₁ ≤ c.totalStakeShares.val * f ∧
      c.totalStakeShares.val * f < (n + 1) * T₁ ∧
      c'.totalStakeShares.val = c.totalStakeShares.val + n ∧
      (c'.internalGetAccount c.ownerId).stakeShares.val =
        (c.internalGetAccount c.ownerId).stakeShares.val + n ∧
      n * (c.totalStakedBalance.val + r) ≤ f * (c.totalStakeShares.val + n) ∧
      (c.totalStakedBalance.val + r - f) * (c.totalStakeShares.val + n) ≤
        c.totalStakeShares.val * (c.totalStakedBalance.val + r) := by
  obtain ⟨-, -, c₁, h₁, rfl⟩ := (internalPing_eq_ok c env he).mp h
  rw [if_pos (by omega)] at h₁
  obtain ⟨hpos, n, hn, rfl⟩ := (pingReward_eq_ok _ rfl rfl).mp h₁
  have hfr := c.rewardFeeFraction.multiply_le (env.totalBalance.saturatingSub c.lastTotalBalance)
  generalize hR : env.totalBalance.saturatingSub c.lastTotalBalance = R at *
  generalize c.rewardFeeFraction.multiply R = F at *
  subst hf
  have hRr : R.val = r := by rw [← hR, U128.val_saturatingSub, hr]
  -- The values `internal_ping` computes, with no clipping.
  have hT₁v : (c.totalStakedBalance.saturatingAdd (R.saturatingSub F)).val = T₁ := by
    simp only [U128.val_saturatingAdd, U128.val_saturatingSub]
    omega
  have hT' : ((c.totalStakedBalance.saturatingAdd (R.saturatingSub F)).saturatingAdd F).val =
      T₁ + F.val := by
    rw [U128.val_saturatingAdd, hT₁v]
    omega
  simp only [hT₁v] at hn hpos
  have hbuy : n.val * T₁ ≤ c.totalStakeShares.val * F.val := hn ▸ (Nat.div_mul_le_self _ _)
  have hmax : c.totalStakeShares.val * F.val < (n.val + 1) * T₁ := hn ▸ lt_floor_succ_mul hpos
  rw [show c.totalStakedBalance.val + r = T₁ + F.val by omega,
    show T₁ + F.val - F.val = T₁ by omega]
  split_ifs with hn0 <;> refine ⟨hT', rfl, n.val, hbuy, hmax, ?_, ?_, fee_shares_fair hbuy⟩
  -- Shares bought: the owner's account is saved with them.
  · simp only [internalSaveAccount_totalStakeShares, U128.val_saturatingAdd]
    omega
  · have hk : Kept { (c.internalGetAccount c.ownerId) with
        stakeShares := (c.internalGetAccount c.ownerId).stakeShares.saturatingAdd n } :=
      Or.inr (by simp only [U128.val_saturatingAdd]; omega)
    refine (congrArg (fun a : Account => a.stakeShares.val)
      (get_save_self_of_kept { c with lastEpochHeight := env.epochHeight } _ _ hk)).trans ?_
    simp only [U128.val_saturatingAdd]
    omega
  -- No share bought: the owner's account is left as it was.
  all_goals simp only [internalGetAccount]; omega

/-- `tenSharesState` with the fee fraction `1/10`. -/
def feeState : StakingContract Nat :=
  { tenSharesState with rewardFeeFraction := ⟨1, 10, by decide, by decide⟩ }

/-- Epoch `1`, the balance grown from 100 to 200. -/
def rewardEnv : Env Nat := ⟨1, 0, 1, 200, 0⟩

/-- A reward of 100 with a fee of 10: `T₁ = 100` and the owner buys one share. -/
theorem internalPing_reward_split_fee :
    ∃ (b : Bool) (c' : StakingContract Nat), feeState.internalPing rewardEnv = .ok (b, c') ∧
      c'.totalStakedBalance.val = 110 ∧ c'.totalStakeShares.val = 11 ∧
      (c'.internalGetAccount 0).stakeShares.val = 1 := by
  obtain ⟨p, hp⟩ := exists_eq_ok_of_toBool (x := feeState.internalPing rewardEnv) (by decide)
  obtain ⟨hT, -, n, hbuy, hmax, hS, hO, -⟩ := internalPing_reward_split (r := 100) (f := 10)
    (by decide) (by decide) (by decide) (by decide)
    (show 100 = feeState.totalStakedBalance.val + (100 - 10) from rfl) (by decide)
    (by decide) (by decide) hp
  have hT₀ : feeState.totalStakedBalance.val = 10 := rfl
  have hS₀ : feeState.totalStakeShares.val = 10 := rfl
  have hO₀ : (feeState.internalGetAccount feeState.ownerId).stakeShares.val = 0 := by decide
  have hn : n = 1 := by omega
  subst hn
  exact ⟨p.1, p.2, hp, by omega, by omega, hO.trans (by omega)⟩

/-- `tenSharesState` with `total_staked_balance` at `u128::MAX`. -/
def fullPoolState : StakingContract Nat :=
  { tenSharesState with totalStakedBalance := ⟨2 ^ 128 - 1, by decide⟩ }

/-- Epoch `1`, the balance grown from 100 to 101. -/
def rewardOneEnv : Env Nat := ⟨1, 0, 1, 101, 0⟩

/-- A reward of 1 on a full pool: `T + r = 2^128`, but the pool stays at `u128::MAX`. -/
theorem internalPing_clips_reward :
    fullPoolState.lastEpochHeight ≠ rewardOneEnv.epochHeight ∧
    rewardOneEnv.totalBalance.val - fullPoolState.lastTotalBalance.val = 1 ∧
    fullPoolState.totalStakedBalance.val + 1 = 2 ^ 128 ∧
    ((fullPoolState.internalPing rewardOneEnv).toOption.map fun p =>
      p.2.totalStakedBalance.val) = some (2 ^ 128 - 1) := by
  decide

end StakingContract

end UncContracts
