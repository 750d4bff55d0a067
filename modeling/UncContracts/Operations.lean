import UncContracts.ShareMath

/-!
# The internal methods of the staking pool

`internal_deposit`, `internal_withdraw`, `internal_stake`, `inner_unstake` and
`internal_ping` as `internal.rs` computes them: each `assert!` is a `require`
with the assertion's message, each `&mut self` update a new state.  The host's
side effects (`Promise::transfer`, `env::log_str`) are not state of the
contract and are left to the run models that need them.

`NUM_EPOCHS_TO_UNLOCK` is a constant of the crate root, not under `src/`; it is a
parameter of `inner_unstake`.
-/

namespace UncContracts

variable {AccountId : Type} [DecidableEq AccountId]

/-- New total amount (both locked and unlocked balances), less the attached deposit that
`internal_deposit` has not accounted yet. -/
def Env.totalBalance (env : Env AccountId) : U128 :=
  (env.accountLockedBalance.saturatingAdd env.accountBalance).saturatingSub env.attachedDeposit

namespace StakingContract

variable (self : StakingContract AccountId) (env : Env AccountId)

/-- Credits the attached deposit to the caller's unstaked balance. -/
def internalDeposit : U128 × StakingContract AccountId :=
  let account_id := env.predecessorAccountId
  let account := self.internalGetAccount account_id
  let amount := env.attachedDeposit
  let account := { account with unstaked := account.unstaked.saturatingAdd amount }
  let self := self.internalSaveAccount account_id account
  (amount, { self with lastTotalBalance := self.lastTotalBalance.saturatingAdd amount })

/-- Debits the caller's unstaked balance; the host then transfers `amount` to the caller. -/
def internalWithdraw (amount : U128) : Except String (StakingContract AccountId) := do
  require (amount.val > 0) "Withdrawal amount should be positive"
  let account_id := env.predecessorAccountId
  let account := self.internalGetAccount account_id
  require (account.unstaked.val ≥ amount.val) "Not enough unstaked balance to withdraw"
  require (account.unstakedAvailableEpochHeight.val ≤ env.epochHeight.val)
    "The unstaked balance is not yet available due to unstaking delay"
  let account := { account with unstaked := account.unstaked.saturatingSub amount }
  let self := self.internalSaveAccount account_id account
  pure { self with lastTotalBalance := self.lastTotalBalance.saturatingSub amount }

/-- Converts `amount` of the caller's unstaked balance into "stake" shares. -/
def internalStake (amount : U128) : Except String (StakingContract AccountId) := do
  require (amount.val > 0) "Staking amount should be positive"
  let account_id := env.predecessorAccountId
  let account := self.internalGetAccount account_id
  let num_shares ← self.numSharesFromStakedAmountRoundedDown amount
  require (num_shares.val > 0)
    "The calculated number of \"stake\" shares received for staking should be positive"
  -- Rounded down to avoid overcharging the account.
  let charge_amount ← self.stakedAmountFromNumSharesRoundedDown num_shares
  require (charge_amount.val > 0)
    "Invariant violation. Calculated staked amount must be positive, because \"stake\" share price should be at least 1"
  require (account.unstaked.val ≥ charge_amount.val) "Not enough unstaked balance to stake"
  let account := { account with
    unstaked := account.unstaked.saturatingSub charge_amount
    stakeShares := account.stakeShares.saturatingAdd num_shares }
  let self := self.internalSaveAccount account_id account
  -- Rounded up so that the "stake" share price never decreases.
  let stake_amount ← self.stakedAmountFromNumSharesRoundedUp num_shares
  pure { self with
    totalStakedBalance := self.totalStakedBalance.saturatingAdd stake_amount
    totalStakeShares := self.totalStakeShares.saturatingAdd num_shares }

/-- Unstakes `amount`: pays for it in shares (rounded up), credits the unstaked
balance and restarts the unlock delay.  Line 154 of the source adds the spent shares
to the account with `saturating_add`. -/
def innerUnstake (numEpochsToUnlock : U64) (amount : U128) :
    Except String (StakingContract AccountId) := do
  require (amount.val > 0) "Unstaking amount should be positive"
  let account_id := env.predecessorAccountId
  let account := self.internalGetAccount account_id
  require (self.totalStakedBalance.val > 0) "The contract doesn't have staked balance"
  let num_shares ← self.numSharesFromStakedAmountRoundedUp amount
  require (num_shares.val > 0)
    "Invariant violation. The calculated number of \"stake\" shares for unstaking should be positive"
  require (account.stakeShares.val ≥ num_shares.val) "Not enough staked balance to unstake"
  let receive_amount ← self.stakedAmountFromNumSharesRoundedUp num_shares
  require (receive_amount.val > 0)
    "Invariant violation. Calculated staked amount must be positive, because \"stake\" share price should be at least 1"
  let unlock ← U64.add env.epochHeight numEpochsToUnlock
  let account := { account with
    stakeShares := account.stakeShares.saturatingAdd num_shares
    unstaked := account.unstaked.saturatingAdd receive_amount
    unstakedAvailableEpochHeight := unlock }
  let self := self.internalSaveAccount account_id account
  let unstake_amount ← self.stakedAmountFromNumSharesRoundedDown num_shares
  pure { self with
    totalStakedBalance := self.totalStakedBalance.saturatingSub unstake_amount
    totalStakeShares := self.totalStakeShares.saturatingSub num_shares }

/-- The `total_reward > 0` branch of `internal_ping`: the owner's fee is split off, the
rest goes to the delegators, and the owner buys shares for the fee at the new price. -/
def pingReward (total_reward : U128) : Except String (StakingContract AccountId) := do
  -- The validation fee that the contract owner takes.
  let owners_fee := self.rewardFeeFraction.multiply total_reward
  -- Distributing the remaining reward to the delegators first.
  let remaining_reward := total_reward.saturatingSub owners_fee
  let self := { self with
    totalStakedBalance := self.totalStakedBalance.saturatingAdd remaining_reward }
  -- Now buying "stake" shares for the contract owner at the new share price.
  let num_shares ← self.numSharesFromStakedAmountRoundedDown owners_fee
  let self := if num_shares.val > 0 then
      let ownerId := self.ownerId
      let account := self.internalGetAccount ownerId
      let account := { account with stakeShares := account.stakeShares.saturatingAdd num_shares }
      let self := self.internalSaveAccount ownerId account
      { self with totalStakeShares := self.totalStakeShares.saturatingAdd num_shares }
    else self
  -- Increasing the total staked balance by the owners fee, no matter whether the owner
  -- received any shares or not.
  pure { self with totalStakedBalance := self.totalStakedBalance.saturatingAdd owners_fee }

/-- Distributes rewards after the new epoch; `true` if the epoch changed. -/
def internalPing : Except String (Bool × StakingContract AccountId) := do
  let epochHeight := env.epochHeight
  if self.lastEpochHeight = epochHeight then return (false, self)
  let self := { self with lastEpochHeight := epochHeight }
  let totalBalance := env.totalBalance
  require (totalBalance.val ≥ self.lastTotalBalance.val)
    "The new total balance should not be less than the old total balance"
  let total_reward := totalBalance.saturatingSub self.lastTotalBalance
  let self ← if total_reward.val > 0 then self.pingReward total_reward else pure self
  pure (true, { self with lastTotalBalance := totalBalance })

end StakingContract

end UncContracts
