import UncContracts.Operations

/-!
# What each operation does

One lemma per internal method saying everything a successful call does: the
assertions that passed, the values the conversions computed, and the state it
returns.  Every later proof about the ledger goes through these and never
unfolds an operation again.

    internalWithdraw_eq_ok, internalStake_eq_ok, innerUnstake_eq_ok,
    internalPing_of_same_epoch, pingReward_eq_ok, internalPing_eq_ok, internalPing_cases
-/

namespace UncContracts

variable {AccountId : Type} [DecidableEq AccountId]

namespace StakingContract

variable (self : StakingContract AccountId) (env : Env AccountId) {c' : StakingContract AccountId}

theorem internalWithdraw_eq_ok {amount : U128} :
    self.internalWithdraw env amount = .ok c' ↔
      0 < amount.val ∧
      amount.val ≤ (self.internalGetAccount env.predecessorAccountId).unstaked.val ∧
      (self.internalGetAccount env.predecessorAccountId).unstakedAvailableEpochHeight.val ≤
        env.epochHeight.val ∧
      c' = { self.internalSaveAccount env.predecessorAccountId
              { self.internalGetAccount env.predecessorAccountId with
                unstaked :=
                  (self.internalGetAccount env.predecessorAccountId).unstaked.saturatingSub amount }
             with lastTotalBalance := self.lastTotalBalance.saturatingSub amount } := by
  simp only [internalWithdraw, gt_iff_lt, ge_iff_le, bind_pure_comp, bind_eq_ok,
    require_eq_ok, map_eq_ok, exists_const, and_congr_right_iff]
  aesop

theorem internalStake_eq_ok {amount : U128} :
    self.internalStake env amount = .ok c' ↔
      0 < amount.val ∧ 0 < self.totalStakedBalance.val ∧ 0 < self.totalStakeShares.val ∧
      ∃ num_shares charge_amount stake_amount : U128,
        num_shares.val =
          self.totalStakeShares.val * amount.val / self.totalStakedBalance.val ∧
        0 < num_shares.val ∧
        charge_amount.val =
          self.totalStakedBalance.val * num_shares.val / self.totalStakeShares.val ∧
        0 < charge_amount.val ∧
        charge_amount.val ≤ (self.internalGetAccount env.predecessorAccountId).unstaked.val ∧
        stake_amount.val = (self.totalStakedBalance.val * num_shares.val +
          (self.totalStakeShares.val - 1)) / self.totalStakeShares.val ∧
        c' = { self.internalSaveAccount env.predecessorAccountId
                { self.internalGetAccount env.predecessorAccountId with
                  unstaked := (self.internalGetAccount
                    env.predecessorAccountId).unstaked.saturatingSub charge_amount
                  stakeShares := (self.internalGetAccount
                    env.predecessorAccountId).stakeShares.saturatingAdd num_shares }
               with
               totalStakedBalance := self.totalStakedBalance.saturatingAdd stake_amount
               totalStakeShares := self.totalStakeShares.saturatingAdd num_shares } := by
  simp only [internalStake, gt_iff_lt, ge_iff_le, numSharesFromStakedAmountRoundedDown,
    stakedAmountFromNumSharesRoundedDown, stakedAmountFromNumSharesRoundedUp,
    internalSaveAccount_totalStakedBalance, internalSaveAccount_totalStakeShares,
    bind_pure_comp, bind_eq_ok, require_eq_ok, mulDivFloor_eq_ok, map_eq_ok, mulDivCeil_eq_ok,
    exists_const, exists_and_left, and_congr_right_iff]
  intro _
  constructor
  · rintro ⟨n, ⟨hT, hn⟩, hn0, ch, ⟨hS, hch⟩, hch0, hle, sa, ⟨-, hsa⟩, rfl⟩
    exact ⟨hT, hS, n, hn, hn0, ch, hch, hch0, hle, sa, hsa, rfl⟩
  · rintro ⟨hT, hS, n, hn, hn0, ch, hch, hch0, hle, sa, hsa, rfl⟩
    exact ⟨n, ⟨hT, hn⟩, hn0, ch, ⟨hS, hch⟩, hch0, hle, sa, ⟨hS, hsa⟩, rfl⟩

theorem innerUnstake_eq_ok {N : U64} {amount : U128} :
    self.innerUnstake env N amount = .ok c' ↔
      0 < amount.val ∧ 0 < self.totalStakedBalance.val ∧ 0 < self.totalStakeShares.val ∧
      ∃ (num_shares receive_amount unstake_amount : U128) (unlock : U64),
        num_shares.val = (self.totalStakeShares.val * amount.val +
          (self.totalStakedBalance.val - 1)) / self.totalStakedBalance.val ∧
        0 < num_shares.val ∧
        num_shares.val ≤ (self.internalGetAccount env.predecessorAccountId).stakeShares.val ∧
        receive_amount.val = (self.totalStakedBalance.val * num_shares.val +
          (self.totalStakeShares.val - 1)) / self.totalStakeShares.val ∧
        0 < receive_amount.val ∧
        unlock.val = env.epochHeight.val + N.val ∧
        unstake_amount.val =
          self.totalStakedBalance.val * num_shares.val / self.totalStakeShares.val ∧
        c' = { self.internalSaveAccount env.predecessorAccountId
                { stakeShares := (self.internalGetAccount
                    env.predecessorAccountId).stakeShares.saturatingAdd num_shares
                  unstaked := (self.internalGetAccount
                    env.predecessorAccountId).unstaked.saturatingAdd receive_amount
                  unstakedAvailableEpochHeight := unlock }
               with
               totalStakedBalance := self.totalStakedBalance.saturatingSub unstake_amount
               totalStakeShares := self.totalStakeShares.saturatingSub num_shares } := by
  simp only [innerUnstake, gt_iff_lt, ge_iff_le, numSharesFromStakedAmountRoundedUp,
    stakedAmountFromNumSharesRoundedUp, stakedAmountFromNumSharesRoundedDown,
    internalSaveAccount_totalStakedBalance, internalSaveAccount_totalStakeShares,
    bind_pure_comp, bind_eq_ok, require_eq_ok, mulDivCeil_eq_ok, U64.add_eq_ok, map_eq_ok,
    mulDivFloor_eq_ok, exists_const, exists_and_left, and_congr_right_iff]
  intro _ hT
  constructor
  · rintro ⟨n, ⟨-, hn⟩, hn0, hle, r, ⟨hS, hr⟩, hr0, ul, hul, u, ⟨-, hu⟩, rfl⟩
    exact ⟨hS, n, hn, hn0, hle, r, hr, hr0, u, ul, hul, hu, rfl⟩
  · rintro ⟨hS, n, hn, hn0, hle, r, hr, hr0, u, ul, hul, hu, rfl⟩
    exact ⟨n, ⟨hT, hn⟩, hn0, hle, r, ⟨hS, hr⟩, hr0, ul, hul, u, ⟨hS, hu⟩, rfl⟩

/-- The record `inner_unstake` saves for its caller is read back as saved: its positive
credit keeps it. -/
theorem get_save_unstake (x : AccountId) (n r : U128) (ul : U64) (hr : 0 < r.val) :
    (self.internalSaveAccount x
        { stakeShares := (self.internalGetAccount x).stakeShares.saturatingAdd n
          unstaked := (self.internalGetAccount x).unstaked.saturatingAdd r
          unstakedAvailableEpochHeight := ul }).internalGetAccount x =
      { stakeShares := (self.internalGetAccount x).stakeShares.saturatingAdd n
        unstaked := (self.internalGetAccount x).unstaked.saturatingAdd r
        unstakedAvailableEpochHeight := ul } :=
  get_save_self_of_kept self x _ (Or.inl (by simp only [U128.val_saturatingAdd]; omega))

theorem internalPing_of_same_epoch (h : self.lastEpochHeight = env.epochHeight) :
    self.internalPing env = .ok (false, self) := by
  simp [internalPing, h]
  rfl

theorem pingReward_eq_ok {total_reward owners_fee T₁ : U128}
    (hf : owners_fee = self.rewardFeeFraction.multiply total_reward)
    (hT : T₁ = self.totalStakedBalance.saturatingAdd (total_reward.saturatingSub owners_fee)) :
    self.pingReward total_reward = .ok c' ↔
      0 < T₁.val ∧ ∃ num_shares : U128,
        num_shares.val = self.totalStakeShares.val * owners_fee.val / T₁.val ∧
        c' = if 0 < num_shares.val then
            { self.internalSaveAccount self.ownerId
                { self.internalGetAccount self.ownerId with
                  stakeShares := (self.internalGetAccount self.ownerId).stakeShares.saturatingAdd
                    num_shares }
              with
              totalStakedBalance := T₁.saturatingAdd owners_fee
              totalStakeShares := self.totalStakeShares.saturatingAdd num_shares }
          else { self with totalStakedBalance := T₁.saturatingAdd owners_fee } := by
  subst hf hT
  simp only [pingReward, bind_eq_ok, numSharesFromStakedAmountRoundedDown,
    mulDivFloor_eq_ok, pure, Except.pure, Except.ok.injEq]
  constructor
  · rintro ⟨n, ⟨hT, hn⟩, rfl⟩
    exact ⟨hT, n, hn, by split_ifs <;> rfl⟩
  · rintro ⟨hT, n, hn, rfl⟩
    exact ⟨n, ⟨hT, hn⟩, by split_ifs <;> rfl⟩

theorem internalPing_eq_ok (h : self.lastEpochHeight ≠ env.epochHeight) {b : Bool} :
    self.internalPing env = .ok (b, c') ↔
      b = true ∧ self.lastTotalBalance.val ≤ env.totalBalance.val ∧
      ∃ c₁ : StakingContract AccountId,
        (if 0 < env.totalBalance.val - self.lastTotalBalance.val then
          { self with lastEpochHeight := env.epochHeight }.pingReward
            (env.totalBalance.saturatingSub self.lastTotalBalance) = .ok c₁
         else c₁ = { self with lastEpochHeight := env.epochHeight }) ∧
        c' = { c₁ with lastTotalBalance := env.totalBalance } := by
  simp [internalPing, h, bind_eq_ok]
  split_ifs
  · simp only [map_eq_ok, Except.ok.injEq, Prod.mk.injEq]
    constructor
    · rintro ⟨hle, c₁, hx, rfl, rfl⟩; exact ⟨rfl, hle, c₁, hx, rfl⟩
    · rintro ⟨rfl, hle, c₁, hx, rfl⟩; exact ⟨hle, c₁, hx, rfl, rfl⟩
  · simp only [pure, Except.pure, Except.ok.injEq, Prod.mk.injEq, exists_eq_left]
    constructor
    · rintro ⟨hle, rfl, rfl⟩; exact ⟨rfl, hle, rfl⟩
    · rintro ⟨rfl, hle, rfl⟩; exact ⟨hle, rfl, rfl⟩

/-- Every successful `internal_ping`: in the same epoch it changes nothing; on a new
epoch its assertion held, it ran the reward branch if there was a reward, and it
recorded the balance. -/
theorem internalPing_cases {b : Bool} (h : self.internalPing env = .ok (b, c')) :
    (b = false ∧ c' = self ∧ self.lastEpochHeight = env.epochHeight) ∨
    (b = true ∧ self.lastEpochHeight ≠ env.epochHeight ∧
      self.lastTotalBalance.val ≤ env.totalBalance.val ∧
      ∃ c₁ : StakingContract AccountId,
        ({ self with lastEpochHeight := env.epochHeight }.pingReward
            (env.totalBalance.saturatingSub self.lastTotalBalance) = .ok c₁ ∨
          c₁ = { self with lastEpochHeight := env.epochHeight }) ∧
        c' = { c₁ with lastTotalBalance := env.totalBalance }) := by
  by_cases he : self.lastEpochHeight = env.epochHeight
  · rw [internalPing_of_same_epoch self env he] at h
    cases h
    exact .inl ⟨rfl, rfl, he⟩
  obtain ⟨rfl, hle, c₁, h₁, rfl⟩ := (internalPing_eq_ok self env he).mp h
  refine .inr ⟨rfl, he, hle, c₁, ?_, rfl⟩
  split_ifs at h₁
  · exact .inl h₁
  · exact .inr h₁

end StakingContract

end UncContracts
