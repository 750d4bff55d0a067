import UncContracts.Solvency
import UncContracts.Ledger
import Mathlib.Data.Nat.ModEq

/-!
# The delegators' claims stay within the balance, away from `inner_unstake`

The contract owes each delegator its unstaked balance and its shares at the current
price, rounded down as `staked_amount_from_num_shares_rounded_down` values them.  While
the accounts hold no more shares than `total_stake_shares`, the shares are worth at
most `total_staked_balance`, so the claims are at most `last_total_balance` plus the
deficit (`liabilities_le`).  Share conservation keeps the shares backed under every
call but `inner_unstake`, and the deficit bound keeps the deficit within one unit a
stake, so over every run without an unstake the claims stay within
`last_total_balance` plus one unit a stake (`liabilities_bounded`).  `inner_unstake`
credits the shares it spends back to the caller and breaks the first step.
-/

namespace UncContracts

namespace StakingContract

variable {AccountId : Type} [DecidableEq AccountId]

/-- The delegators' claims: the unstaked balances, and each account's shares valued at
the current price, rounded down. -/
def liabilities (c : StakingContract AccountId) : Nat :=
  unstakedHeld c.accounts +
    accountsSum (fun acc => c.totalStakedBalance.val * acc.stakeShares.val /
      c.totalStakeShares.val) c.accounts

/-- The side conditions of the bound: the deficit bound's, and share conservation's. -/
def SolventCall (N : U64) (c : StakingContract AccountId) (env : Env AccountId) (op : Op) :
    Prop :=
  Fits c env op ∧ NotUnstakeBelowMax N c env op

omit [DecidableEq AccountId] in
/-- Valuing each account's shares on its own never exceeds valuing their sum. -/
theorem accountsSum_value_le (T S : Nat) (accounts : AList fun _ : AccountId => Account) :
    accountsSum (fun acc => T * acc.stakeShares.val / S) accounts ≤
      T * sharesHeld accounts / S := by
  unfold sharesHeld accountsSum
  induction accounts.entries with
  | nil => exact Nat.zero_le _
  | cons e es ih =>
    simp only [List.map_cons, List.sum_cons, Nat.mul_add]
    exact Nat.le_trans (Nat.add_le_add_left ih _) (Nat.add_div_le_add_div _ _ _)

omit [DecidableEq AccountId] in
/-- Backed shares are worth at most the pool, so the claims are at most the recorded
balance plus the deficit. -/
theorem liabilities_le {c : StakingContract AccountId}
    (hbacked : sharesHeld c.accounts ≤ c.totalStakeShares.val) :
    (liabilities c : Int) ≤ deficit c + c.lastTotalBalance.val := by
  have hvalue := accountsSum_value_le c.totalStakedBalance.val c.totalStakeShares.val c.accounts
  have hpool : c.totalStakedBalance.val * sharesHeld c.accounts / c.totalStakeShares.val ≤
      c.totalStakedBalance.val :=
    Nat.div_le_of_le_mul (Nat.mul_comm c.totalStakedBalance.val _ ▸
      Nat.mul_le_mul_left _ hbacked)
  unfold liabilities deficit
  omega

/-- **The delegators' claims stay within the balance.**  From a ledger whose accounts
hold at most `total_stake_shares` shares and whose deficit is not positive, every run of
calls that are not unstakes, whose deposits fit and that leave no share count at
`u128::MAX`, keeps the shares backed and the delegators' claims within
`last_total_balance` plus one unit a stake. -/
theorem liabilities_bounded (N : U64) (calls : List (Env AccountId × Op))
    (c : StakingContract AccountId) (hrun : RunAll (SolventCall N) N c calls)
    (hbacked : sharesHeld c.accounts ≤ c.totalStakeShares.val) (hsolvent : deficit c ≤ 0) :
    sharesHeld (run N c calls).accounts ≤ (run N c calls).totalStakeShares.val ∧
      (liabilities (run N c calls) : Int) ≤
        (run N c calls).lastTotalBalance.val + stakeCalls calls := by
  have hgap := sharesGap_run calls c (hrun.mono fun _ _ _ h => h.2)
  have hdeficit := deficit_run calls c (hrun.mono fun _ _ _ h => h.1)
  have hbacked' : sharesHeld (run N c calls).accounts ≤ (run N c calls).totalStakeShares.val := by
    unfold sharesGap at hgap
    omega
  have hclaims := liabilities_le hbacked'
  exact ⟨hbacked', by omega⟩

/-- From `stakerState` (deficit `-70`) account `1` deposits 5, stakes 5 and withdraws 5:
every call succeeds, leaving it 15 unstaked and 15 shares, and the claims stay within the
recorded balance plus the one stake. -/
theorem liabilities_bounded_deposit :
    RunAll (SolventCall 4) 4 stakerState stakerCalls ∧
      (run 4 stakerState stakerCalls).internalGetAccount 1 = ⟨15, 15, 0⟩ ∧
      (liabilities (run 4 stakerState stakerCalls) : Int) ≤
        (run 4 stakerState stakerCalls).lastTotalBalance.val + stakeCalls stakerCalls :=
  have hrun : RunAll (SolventCall 4) 4 stakerState stakerCalls :=
    ⟨⟨show _ ≤ _ by decide, notUnstakeBelowMax_of_step (fun _ h => Op.noConfusion h) (by decide)⟩,
      ⟨trivial, notUnstakeBelowMax_of_step (fun _ h => Op.noConfusion h) (by decide)⟩,
      ⟨trivial, notUnstakeBelowMax_of_step (fun _ h => Op.noConfusion h) (by decide)⟩, trivial⟩
  ⟨hrun, by decide, (liabilities_bounded 4 _ stakerState hrun (by decide) (by decide)).2⟩

end StakingContract

end UncContracts
