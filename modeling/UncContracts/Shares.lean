import UncContracts.Run

/-!
# Where the shares go

`inner_unstake` lowers `total_stake_shares` by the `num_shares` it charges
(line 165) and then, at line 154, *adds* them to the caller's `stake_shares`
with `saturating_add`.  `innerUnstake_shares` states this for every state
and every successful call: the total falls by `num_shares` while the shares the
accounts hold rise by them, so `total_stake_shares - Σ stake_shares` falls by
twice `num_shares` on every unstake.
-/

namespace UncContracts

namespace StakingContract

variable {AccountId : Type} [DecidableEq AccountId]
  {c c' : StakingContract AccountId} {env : Env AccountId} {N : U64} {amount : U128}

/-- **Unstake credits the spent shares back to the caller.** -/
theorem innerUnstake_shares (h : c.innerUnstake env N amount = .ok c') :
    ∃ num_shares : U128, 0 < num_shares.val ∧
      c'.totalStakeShares.val = c.totalStakeShares.val - num_shares.val ∧
      (c'.internalGetAccount env.predecessorAccountId).stakeShares =
        (c.internalGetAccount env.predecessorAccountId).stakeShares.saturatingAdd num_shares ∧
      sharesHeld c'.accounts + (c.internalGetAccount env.predecessorAccountId).stakeShares.val =
        sharesHeld c.accounts +
          ((c.internalGetAccount env.predecessorAccountId).stakeShares.saturatingAdd
            num_shares).val := by
  obtain ⟨-, -, -, n, r, u, ul, -, hn0, -, -, hr0, -, -, rfl⟩ := (innerUnstake_eq_ok c env).mp h
  exact ⟨n, hn0, rfl, congrArg Account.stakeShares (get_save_unstake c _ n r ul hr0),
    sharesHeld_save c _ _⟩

/-- Ten shares at price one, all held by account `1`; fee fraction `0/1`. -/
def tenSharesState : StakingContract Nat where
  ownerId := 0
  lastEpochHeight := 0
  lastTotalBalance := 100
  totalStakedBalance := 10
  totalStakeShares := 10
  rewardFeeFraction := ⟨0, 1, by decide, by decide⟩
  accounts := (∅ : AList fun _ : Nat => Account).insert 1 ⟨0, 10, 0⟩

/-- Account `1` calls at epoch `0`, nothing attached. -/
def accountOneEnv : Env Nat := ⟨1, 0, 0, 100, 0⟩

/-- `tenSharesState` with 20 unstaked for account `1`. -/
def stakerState : StakingContract Nat :=
  { tenSharesState with accounts := (∅ : AList fun _ : Nat => Account).insert 1 ⟨20, 10, 0⟩ }

/-- Account `1` deposits 5 at epoch `0`, stakes 5 and withdraws 5. -/
def stakerCalls : List (Env Nat × Op) :=
  [(⟨1, 5, 0, 105, 0⟩, .deposit), (accountOneEnv, .stake 5), (accountOneEnv, .withdraw 5)]

/-- Account `1` holds all 10 shares; unstaking 5 charges 5 shares, after which it holds
15 while `total_stake_shares` is 5. -/
theorem innerUnstake_credits_spent_shares_example :
    sharesHeld tenSharesState.accounts = 10 ∧
    ∃ c', tenSharesState.innerUnstake accountOneEnv 4 5 = .ok c' ∧
      (c'.internalGetAccount 1).stakeShares.val = 15 ∧ c'.totalStakeShares.val = 5 ∧
      sharesHeld c'.accounts = 15 := by
  have hc : tenSharesState.innerUnstake accountOneEnv 4 5 =
      .ok (step 4 tenSharesState accountOneEnv (.unstake 5)) := rfl
  obtain ⟨n, -, hS, hown, hsum⟩ := innerUnstake_shares hc
  have hown' := congrArg Fin.val hown
  have h1 : accountOneEnv.predecessorAccountId = 1 := rfl
  simp only [h1, U128.val_saturatingAdd] at hown' hsum
  have h5 : (step 4 tenSharesState accountOneEnv (.unstake 5)).totalStakeShares.val = 5 := by
    decide
  have h10 : (tenSharesState.internalGetAccount 1).stakeShares.val = 10 := by decide
  have hheld : sharesHeld tenSharesState.accounts = 10 := by decide
  have hS10 : tenSharesState.totalStakeShares.val = 10 := rfl
  refine ⟨hheld, _, hc, ?_, h5, ?_⟩ <;> omega

end StakingContract

end UncContracts
