import UncContracts.Shares

/-!
# The rounding deficit

`deficit c = Σ unstaked + total_staked_balance - last_total_balance`, over the
integers: what the ledger owes (unstaked balances and the staked pool) beyond
the balance it accounts for.  Deposits, withdrawals and pings never raise it;
a stake or an unstake raises it by at most the one unit its two roundings
differ by (`ceil - floor ≤ 1`).  The unstake bound needs the spent shares to be
at most `total_stake_shares`: past that, the `saturating_sub` of
`total_staked_balance` clips and the pool shrinks by less than the account is
paid.

    deficit_step : Fits c env op → exec N c env op = .ok c' →
      deficit c' ≤ deficit c + cost op
    deficit_run  : RunAll Fits N c calls →
      deficit (run N c calls) ≤ deficit c + stakeCalls calls
-/

namespace UncContracts

namespace StakingContract

variable {AccountId : Type} [DecidableEq AccountId]
  {c c' : StakingContract AccountId} {env : Env AccountId} {N : U64}

/-- Tracked liabilities beyond the tracked total balance. -/
def deficit (c : StakingContract AccountId) : Int :=
  (unstakedHeld c.accounts : Int) + c.totalStakedBalance.val - c.lastTotalBalance.val

/-- The side conditions of the deficit bound: the deposit's addition to
`last_total_balance` does not clip, and an unstake spends at most
`total_stake_shares`. -/
def Fits (c : StakingContract AccountId) (env : Env AccountId) : Op → Prop
  | .deposit => c.lastTotalBalance.val + env.attachedDeposit.val ≤ 2 ^ 128 - 1
  | .unstake amount => (c.totalStakeShares.val * amount.val + (c.totalStakedBalance.val - 1)) /
      c.totalStakedBalance.val ≤ c.totalStakeShares.val
  | _ => True

/-- What a call may add to the deficit. -/
def cost : Op → Int
  | .stake _ | .unstake _ => 1
  | _ => 0

/-- The stake and unstake calls of a run. -/
def stakeCalls (calls : List (Env AccountId × Op)) : Int :=
  (calls.map fun call => cost call.2).sum

/-! ## One call -/

theorem deficit_internalDeposit
    (h : c.lastTotalBalance.val + env.attachedDeposit.val ≤ 2 ^ 128 - 1) :
    deficit (c.internalDeposit env).2 ≤ deficit c := by
  have hs := unstakedHeld_save c env.predecessorAccountId
    { c.internalGetAccount env.predecessorAccountId with
      unstaked := (c.internalGetAccount env.predecessorAccountId).unstaked.saturatingAdd
        env.attachedDeposit }
  simp only [U128.val_saturatingAdd] at hs
  simp only [deficit, internalDeposit, internalSaveAccount_totalStakedBalance,
    internalSaveAccount_lastTotalBalance, U128.val_saturatingAdd]
  omega

theorem deficit_internalWithdraw {amount : U128} (h : c.internalWithdraw env amount = .ok c') :
    deficit c' ≤ deficit c := by
  obtain ⟨-, hle, -, rfl⟩ := (internalWithdraw_eq_ok c env).mp h
  have hs := unstakedHeld_save c env.predecessorAccountId
    { c.internalGetAccount env.predecessorAccountId with
      unstaked := (c.internalGetAccount env.predecessorAccountId).unstaked.saturatingSub amount }
  simp only [U128.val_saturatingSub] at hs
  simp only [deficit, internalSaveAccount_totalStakedBalance, U128.val_saturatingSub]
  omega

theorem deficit_internalStake {amount : U128} (h : c.internalStake env amount = .ok c') :
    deficit c' ≤ deficit c + 1 := by
  obtain ⟨-, -, hS, n, ch, sa, -, -, hch, -, hle, hsa, rfl⟩ := (internalStake_eq_ok c env).mp h
  have hs := unstakedHeld_save c env.predecessorAccountId
    { c.internalGetAccount env.predecessorAccountId with
      unstaked := (c.internalGetAccount env.predecessorAccountId).unstaked.saturatingSub ch
      stakeShares := (c.internalGetAccount env.predecessorAccountId).stakeShares.saturatingAdd n }
  have hround : sa.val ≤ ch.val + 1 := hsa ▸ hch ▸ ceil_le_floor_succ hS
  simp only [U128.val_saturatingSub] at hs
  simp only [deficit, internalSaveAccount_lastTotalBalance, U128.val_saturatingAdd]
  omega

theorem deficit_innerUnstake {amount : U128} (h : c.innerUnstake env N amount = .ok c')
    (hfit : (c.totalStakeShares.val * amount.val + (c.totalStakedBalance.val - 1)) /
      c.totalStakedBalance.val ≤ c.totalStakeShares.val) :
    deficit c' ≤ deficit c + 1 := by
  obtain ⟨-, -, hS, n, r, u, ul, hn, -, -, hr, -, -, hu, rfl⟩ := (innerUnstake_eq_ok c env).mp h
  have hs := unstakedHeld_save c env.predecessorAccountId
    { stakeShares := (c.internalGetAccount env.predecessorAccountId).stakeShares.saturatingAdd n
      unstaked := (c.internalGetAccount env.predecessorAccountId).unstaked.saturatingAdd r
      unstakedAvailableEpochHeight := ul }
  have hround : r.val ≤ u.val + 1 := hr ▸ hu ▸ ceil_le_floor_succ hS
  -- No clipping: the pool loses `u ≤ T` because the spent shares are at most `S`.
  have hclip : u.val ≤ c.totalStakedBalance.val := by
    rw [hu]
    exact Nat.div_le_of_le_mul (by rw [Nat.mul_comm]; exact Nat.mul_le_mul_right _ (hn ▸ hfit))
  simp only [U128.val_saturatingAdd] at hs
  simp only [deficit, internalSaveAccount_lastTotalBalance, U128.val_saturatingSub]
  omega

/-- The reward branch moves the pool by at most the reward and leaves the unstaked
balances alone. -/
theorem pingReward_deficit {r : U128} (h : c.pingReward r = .ok c') :
    unstakedHeld c'.accounts = unstakedHeld c.accounts ∧
      c'.totalStakedBalance.val ≤ c.totalStakedBalance.val + r.val := by
  obtain ⟨-, n, -, rfl⟩ := (pingReward_eq_ok c rfl rfl).mp h
  have hf := c.rewardFeeFraction.multiply_le r
  split_ifs
  · have hs := unstakedHeld_save c c.ownerId
      { c.internalGetAccount c.ownerId with
        stakeShares := (c.internalGetAccount c.ownerId).stakeShares.saturatingAdd n }
    constructor <;> simp only [U128.val_saturatingAdd, U128.val_saturatingSub] at hs ⊢ <;> omega
  · refine ⟨rfl, ?_⟩
    simp only [U128.val_saturatingAdd, U128.val_saturatingSub]
    omega

theorem deficit_internalPing {b : Bool} (h : c.internalPing env = .ok (b, c')) :
    deficit c' ≤ deficit c := by
  rcases internalPing_cases c env h with ⟨-, rfl, -⟩ | ⟨-, -, hle, c₁, h₁ | rfl, rfl⟩
  · exact le_rfl
  · obtain ⟨hU, hT⟩ := pingReward_deficit h₁
    simp only [U128.val_saturatingSub] at hT
    simp only [deficit, hU]
    omega
  · simp only [deficit]
    omega

/-- **One call.** -/
theorem deficit_step {op : Op} (hfit : Fits c env op) (h : exec N c env op = .ok c') :
    deficit c' ≤ deficit c + cost op := by
  cases op with
  | deposit =>
    cases h
    simpa [cost] using deficit_internalDeposit hfit
  | withdraw amount => simpa [cost] using deficit_internalWithdraw h
  | stake amount => exact deficit_internalStake h
  | unstake amount => exact deficit_innerUnstake h hfit
  | ping =>
    obtain ⟨b, hb⟩ := exec_ping_eq_ok.mp h
    simpa [cost] using deficit_internalPing hb

/-- **A run.**  Each stake or unstake call adds at most one unit. -/
theorem deficit_run :
    ∀ (calls : List (Env AccountId × Op)) (c : StakingContract AccountId),
      RunAll Fits N c calls → deficit (run N c calls) ≤ deficit c + stakeCalls calls
  | [], _, _ => by simp [run, stakeCalls]
  | (env, op) :: calls, c, ⟨hfit, hrest⟩ => by
    have ih := deficit_run calls _ hrest
    have hstep : deficit (step N c env op) ≤ deficit c + cost op := by
      rcases step_cases N c env op with hs | hs
      · exact deficit_step hfit hs
      · rw [hs]; cases op <;> simp only [cost] <;> omega
    simp only [run, stakeCalls, List.map_cons, List.sum_cons] at ih ⊢
    omega

/-- **Bounded rounding deficit.**  No call raises the deficit except a stake or an
unstake, each by at most one unit, as long as deposits do not clip
`last_total_balance` and unstakes spend at most `total_stake_shares`. -/
theorem rounding_deficit_bounded (N : U64) :
    (∀ (c c' : StakingContract AccountId) (env : Env AccountId) (op : Op),
      Fits c env op → exec N c env op = .ok c' → deficit c' ≤ deficit c + cost op) ∧
    ∀ (calls : List (Env AccountId × Op)) (c : StakingContract AccountId),
      RunAll Fits N c calls → deficit (run N c calls) ≤ deficit c + stakeCalls calls :=
  ⟨fun _ _ _ _ => deficit_step, deficit_run⟩

/-- From `stakerState` account `1` deposits 5, stakes 5, withdraws 5 and unstakes 5: every
call succeeds, leaving it 20 unstaked and 20 shares, and the deficit rises by at most the
two stake and unstake calls. -/
theorem rounding_deficit_bounded_stake_run :
    RunAll Fits 4 stakerState (stakerCalls ++ [(accountOneEnv, .unstake 5)]) ∧
    (run 4 stakerState (stakerCalls ++ [(accountOneEnv, .unstake 5)])).internalGetAccount 1 =
      ⟨20, 20, 4⟩ ∧
    deficit (run 4 stakerState (stakerCalls ++ [(accountOneEnv, .unstake 5)])) ≤
      deficit stakerState + stakeCalls (stakerCalls ++ [(accountOneEnv, .unstake 5)]) :=
  have hfits : RunAll Fits 4 stakerState (stakerCalls ++ [(accountOneEnv, .unstake 5)]) :=
    ⟨show _ ≤ _ by decide, trivial, trivial, show _ ≤ _ by decide, trivial⟩
  ⟨hfits, by decide, (rounding_deficit_bounded 4).2 _ _ hfits⟩

/-- From `tenSharesState` account `1` unstakes 5 and then 15: the second unstake spends
15 shares of a total of 5, `total_staked_balance` clips at 0 while the account is paid
15, and the deficit ends 10 above where it started after two calls. -/
theorem deficit_after_two_unstakes :
    deficit tenSharesState = -90 ∧
    deficit (run 4 tenSharesState [(accountOneEnv, .unstake 5)]) = -90 ∧
    deficit (run 4 tenSharesState [(accountOneEnv, .unstake 5), (accountOneEnv, .unstake 15)]) = -80 ∧
    stakeCalls [(accountOneEnv, Op.unstake 5), (accountOneEnv, .unstake 15)] = 2 := by
  decide

end StakingContract

end UncContracts
