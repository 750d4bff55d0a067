import UncContracts.Solvency

/-!
# The share price never decreases

The price is `total_staked_balance / total_stake_shares`, compared cross
multiplied: `T * S' ≤ T' * S`.  Each rounding direction of the four
conversions is what keeps it: a stake mints `n` shares for the rounded-up
`ceil (n T / S)`, an unstake burns `n` shares for the rounded-down
`floor (n T / S)`, and the owner's fee buys `floor (f S / T₁)` shares at the
price after the delegators' reward.

    price_step     : 0 < T → 0 < S → StakedAddsFit c env op →
      exec N c env op = .ok c' → S' = 0 ∨ T * S' ≤ T' * S
    at_least_one_step : S ≤ T → exec N c env op = .ok c' → S' ≤ T'
    internalPing_ok   : S ≤ T → 0 < T ∨ fee < 1 → (its assertion holds) →
      ∃ b c', c.internalPing env = .ok (b, c')

The second needs no side condition: a clipped `saturating_add` stops both totals
at `u128::MAX`.  The third says that at a price of at least one the reward logic of
`internal_ping` cannot panic.
-/

namespace UncContracts

namespace StakingContract

variable {AccountId : Type} [DecidableEq AccountId]
  {c c' : StakingContract AccountId} {env : Env AccountId} {N : U64}

/-- The call's `saturating_add`s to `total_staked_balance` do not clip. -/
def StakedAddsFit (c : StakingContract AccountId) (env : Env AccountId) : Op → Prop
  | .stake amount => c.totalStakedBalance.val +
      (c.totalStakedBalance.val * (c.totalStakeShares.val * amount.val /
        c.totalStakedBalance.val) + (c.totalStakeShares.val - 1)) / c.totalStakeShares.val
        ≤ 2 ^ 128 - 1
  | .ping => c.lastEpochHeight ≠ env.epochHeight →
      c.totalStakedBalance.val + (env.totalBalance.val - c.lastTotalBalance.val) ≤ 2 ^ 128 - 1
  | _ => True

instance (c : StakingContract AccountId) (env : Env AccountId) :
    ∀ op, Decidable (StakedAddsFit c env op)
  | .stake _ | .ping => by unfold StakedAddsFit; infer_instance
  | .deposit | .withdraw _ | .unstake _ => isTrue trivial

/-- The price as a cross-multiplied comparison. -/
def PriceNotBelow (c c' : StakingContract AccountId) : Prop :=
  c'.totalStakeShares.val = 0 ∨
    c.totalStakedBalance.val * c'.totalStakeShares.val ≤
      c'.totalStakedBalance.val * c.totalStakeShares.val

/-! ## Arithmetic -/

/-- Burning `n ≤ S` shares for `u` with `u S ≤ T n` at a price `T / S ≥ 1` keeps the
price at least one. -/
theorem sub_le_sub_of_burn {T S n u : Nat} (hS : 0 < S) (hST : S ≤ T) (hn : n ≤ S)
    (hu : u * S ≤ T * n) : S - n ≤ T - u := by
  obtain ⟨k, rfl⟩ := Nat.exists_eq_add_of_le hn
  have hk : k * (n + k) ≤ T * k := Nat.mul_comm T k ▸ Nat.mul_le_mul_left k hST
  have h : (k + u) * (n + k) ≤ T * (n + k) := by
    rw [Nat.add_mul, Nat.mul_add T]
    omega
  have := Nat.le_of_mul_le_mul_right h hS
  omega

/-- Minting `n` shares for `sa` with `T n ≤ sa S` at a price at least one adds at
least as many tokens as shares. -/
theorem le_of_mint {T S n sa : Nat} (hS : 0 < S) (hST : S ≤ T) (h : T * n ≤ sa * S) :
    n ≤ sa := by
  have : n * S ≤ sa * S := by
    calc n * S = S * n := Nat.mul_comm _ _
      _ ≤ T * n := Nat.mul_le_mul_right n hST
      _ ≤ sa * S := h
  exact Nat.le_of_mul_le_mul_right this hS

/-! ## One call -/

theorem price_internalStake {amount : U128} (h : c.internalStake env amount = .ok c')
    (hfit : StakedAddsFit c env (.stake amount)) : PriceNotBelow c c' := by
  obtain ⟨-, -, hS, n, ch, sa, hn, -, -, -, -, hsa, rfl⟩ := (internalStake_eq_ok c env).mp h
  have hmint : c.totalStakedBalance.val * n.val ≤ sa.val * c.totalStakeShares.val :=
    hsa ▸ le_ceil_mul hS
  have hS' : min (c.totalStakeShares.val + n.val) (2 ^ 128 - 1) ≤
      c.totalStakeShares.val + n.val := Nat.min_le_left _ _
  have := Nat.mul_le_mul_left c.totalStakedBalance.val hS'
  change _ ≤ _ at hfit
  rw [← hn] at hfit
  rw [← hsa] at hfit
  right
  simp only [internalSaveAccount_totalStakeShares, internalSaveAccount_totalStakedBalance,
    U128.val_saturatingAdd, Nat.min_eq_left hfit, Nat.add_mul]
  rw [Nat.mul_add] at this
  omega

theorem price_innerUnstake {amount : U128} (h : c.innerUnstake env N amount = .ok c') :
    PriceNotBelow c c' := by
  obtain ⟨-, -, hS, n, r, u, ul, -, -, -, -, -, -, hu, rfl⟩ := (innerUnstake_eq_ok c env).mp h
  simp only [PriceNotBelow, U128.val_saturatingSub]
  by_cases hn : c.totalStakeShares.val ≤ n.val
  · left; omega
  right
  have hburn : u.val * c.totalStakeShares.val ≤ c.totalStakedBalance.val * n.val :=
    hu ▸ (Nat.div_mul_le_self _ _)
  have h1 := Nat.mul_le_mul_left c.totalStakedBalance.val (Nat.le_of_lt (Nat.lt_of_not_le hn))
  rw [Nat.mul_sub, Nat.sub_mul]
  have h2 : u.val * c.totalStakeShares.val ≤
      c.totalStakedBalance.val * c.totalStakeShares.val := Nat.le_trans hburn h1
  omega

/-- The owner's fee buys `floor (f S / T₁)` shares at the price after the delegators'
reward, `T₁ = T + (r - f)`, and the pool then grows to `T + r`. -/
theorem price_pingReward {r : U128} (h : c.pingReward r = .ok c')
    (hfit : c.totalStakedBalance.val + r.val ≤ 2 ^ 128 - 1) : PriceNotBelow c c' := by
  obtain ⟨-, n, hn, rfl⟩ := (pingReward_eq_ok c rfl rfl).mp h
  have hf := c.rewardFeeFraction.multiply_le r
  generalize c.rewardFeeFraction.multiply r = f at hf hn ⊢
  have hT₁ : (c.totalStakedBalance.saturatingAdd (r.saturatingSub f)).val =
      c.totalStakedBalance.val + (r.val - f.val) := by
    simp only [U128.val_saturatingAdd, U128.val_saturatingSub]
    omega
  have hT' : ((c.totalStakedBalance.saturatingAdd (r.saturatingSub f)).saturatingAdd f).val =
      c.totalStakedBalance.val + r.val := by rw [U128.val_saturatingAdd, hT₁]; omega
  rw [hT₁] at hn
  right
  split_ifs
  · simp only [internalSaveAccount_totalStakeShares, hT', U128.val_saturatingAdd]
    -- The fee shares: `n T₁ ≤ S f`, at `T ≤ T₁`.
    have hbuy : (c.totalStakedBalance.val + (r.val - f.val)) * n.val ≤
        c.totalStakeShares.val * f.val := Nat.mul_comm _ _ ▸ hn ▸ (Nat.div_mul_le_self _ _)
    have h1 := Nat.mul_le_mul_left c.totalStakedBalance.val
      (Nat.min_le_left (c.totalStakeShares.val + n.val) (2 ^ 128 - 1))
    have h2 := Nat.mul_le_mul_right n.val
      (Nat.le_add_right c.totalStakedBalance.val (r.val - f.val))
    have h3 := Nat.mul_le_mul_left c.totalStakeShares.val hf
    rw [Nat.mul_add] at h1
    rw [Nat.add_mul, Nat.mul_comm r.val]
    omega
  · simp only [hT']
    exact Nat.mul_le_mul_right _ (Nat.le_add_right _ _)

theorem price_internalPing {b : Bool} (h : c.internalPing env = .ok (b, c'))
    (hfit : StakedAddsFit c env .ping) : PriceNotBelow c c' := by
  rcases internalPing_cases c env h with ⟨-, rfl, -⟩ | ⟨-, he, -, c₁, h₁ | rfl, rfl⟩
  · exact .inr le_rfl
  · have := price_pingReward h₁ (by simpa using hfit he)
    exact this
  · exact .inr le_rfl

/-- **One call.** -/
theorem price_step {op : Op} (hfit : StakedAddsFit c env op)
    (h : exec N c env op = .ok c') : PriceNotBelow c c' := by
  cases op with
  | deposit =>
    cases h
    exact .inr le_rfl
  | withdraw amount =>
    obtain ⟨-, -, -, rfl⟩ := (internalWithdraw_eq_ok c env).mp h
    exact .inr le_rfl
  | stake amount => exact price_internalStake h hfit
  | unstake amount => exact price_innerUnstake h
  | ping =>
    obtain ⟨b, hb⟩ := exec_ping_eq_ok.mp h
    exact price_internalPing hb hfit

/-! ## A price of at least one

A clipped `saturating_add` stops both totals at `u128::MAX`, so no side condition
is needed. -/

section AtLeastOne

variable (hST : c.totalStakeShares.val ≤ c.totalStakedBalance.val)
include hST

theorem at_least_one_internalStake {amount : U128} (h : c.internalStake env amount = .ok c') :
    c'.totalStakeShares.val ≤ c'.totalStakedBalance.val := by
  obtain ⟨-, -, hS, n, ch, sa, -, -, -, -, -, hsa, rfl⟩ := (internalStake_eq_ok c env).mp h
  have hle : n.val ≤ sa.val := le_of_mint hS hST (hsa ▸ le_ceil_mul hS)
  simp only [internalSaveAccount_totalStakeShares, internalSaveAccount_totalStakedBalance,
    U128.val_saturatingAdd]
  omega

theorem at_least_one_innerUnstake {amount : U128} (h : c.innerUnstake env N amount = .ok c') :
    c'.totalStakeShares.val ≤ c'.totalStakedBalance.val := by
  obtain ⟨-, -, hS, n, r, u, ul, -, -, -, -, -, -, hu, rfl⟩ := (innerUnstake_eq_ok c env).mp h
  simp only [U128.val_saturatingSub]
  by_cases hn : c.totalStakeShares.val ≤ n.val
  · omega
  exact sub_le_sub_of_burn hS hST (by omega) (hu ▸ (Nat.div_mul_le_self _ _))

/-- The fee shares are at most the fee, since they are bought at a price `T₁ / S ≥ 1`. -/
theorem at_least_one_pingReward {r : U128} (h : c.pingReward r = .ok c') :
    c'.totalStakeShares.val ≤ c'.totalStakedBalance.val := by
  obtain ⟨hT₁, n, hn, rfl⟩ := (pingReward_eq_ok c rfl rfl).mp h
  generalize c.rewardFeeFraction.multiply r = f at hn hT₁ ⊢
  generalize hT : c.totalStakedBalance.saturatingAdd (r.saturatingSub f) = T₁ at hn hT₁ ⊢
  have hTT₁ : c.totalStakedBalance.val ≤ T₁.val := by
    rw [← hT, U128.val_saturatingAdd]
    omega
  -- `n T₁ ≤ S f ≤ T₁ f`
  have hnf : n.val ≤ f.val := by
    refine Nat.le_of_mul_le_mul_right ?_ hT₁
    calc n.val * T₁.val ≤ c.totalStakeShares.val * f.val := hn ▸ (Nat.div_mul_le_self _ _)
      _ ≤ T₁.val * f.val := Nat.mul_le_mul_right _ (Nat.le_trans hST hTT₁)
      _ = f.val * T₁.val := Nat.mul_comm _ _
  split_ifs
  · simp only [internalSaveAccount_totalStakeShares, U128.val_saturatingAdd]
    omega
  · simp only [U128.val_saturatingAdd]
    omega

theorem at_least_one_internalPing {b : Bool} (h : c.internalPing env = .ok (b, c')) :
    c'.totalStakeShares.val ≤ c'.totalStakedBalance.val := by
  rcases internalPing_cases c env h with ⟨-, rfl, -⟩ | ⟨-, -, -, c₁, h₁ | rfl, rfl⟩
  · exact hST
  · have := at_least_one_pingReward (c := { c with lastEpochHeight := env.epochHeight }) hST h₁
    exact this
  · exact hST

/-- **`internal_ping` fails only at its assertion.**  At a price of at least one, with
stake in the pool or an owner's fee below the whole reward, the reward logic cannot panic:
`T₁ > 0`, and the fee shares are bought at a price `T₁ / S ≥ 1`, so they fit. -/
theorem internalPing_ok (hpos : 0 < c.totalStakedBalance.val ∨
      c.rewardFeeFraction.numerator < c.rewardFeeFraction.denominator)
    (hle : c.lastEpochHeight ≠ env.epochHeight →
      c.lastTotalBalance.val ≤ env.totalBalance.val) :
    ∃ b c', c.internalPing env = .ok (b, c') := by
  by_cases he : c.lastEpochHeight = env.epochHeight
  · exact ⟨false, c, internalPing_of_same_epoch c env he⟩
  have hreward : ∃ c₁ : StakingContract AccountId,
      if 0 < env.totalBalance.val - c.lastTotalBalance.val then
        { c with lastEpochHeight := env.epochHeight }.pingReward
          (env.totalBalance.saturatingSub c.lastTotalBalance) = .ok c₁
      else c₁ = { c with lastEpochHeight := env.epochHeight } := by
    split_ifs with hr
    · generalize hR : env.totalBalance.saturatingSub c.lastTotalBalance = R
      generalize hf : c.rewardFeeFraction.multiply R = f
      generalize hT₁ : c.totalStakedBalance.saturatingAdd (R.saturatingSub f) = T₁
      have hR0 : 0 < R.val := by rw [← hR, U128.val_saturatingSub]; exact hr
      have hTT₁ : c.totalStakedBalance.val ≤ T₁.val := by
        rw [← hT₁, U128.val_saturatingAdd]
        omega
      -- With no stake, the delegators' part `R - f` keeps `T₁` positive.
      have hT₁0 : 0 < T₁.val := by
        rcases hpos with hT | hfee
        · omega
        have hfR : f.val < R.val := hf ▸ (Nat.div_lt_iff_lt_mul
          c.rewardFeeFraction.denominator_pos).mpr
            (by rw [Nat.mul_comm R.val]; exact Nat.mul_lt_mul_of_pos_right hfee hR0)
        rw [← hT₁, U128.val_saturatingAdd, U128.val_saturatingSub]
        omega
      have hfee := Nat.div_le_of_le_mul (Nat.mul_le_mul_right f.val (Nat.le_trans hST hTT₁))
      exact ⟨_, (pingReward_eq_ok { c with lastEpochHeight := env.epochHeight }
        hf.symm hT₁.symm).mpr ⟨hT₁0, ⟨_, Nat.lt_of_le_of_lt hfee f.isLt⟩, rfl, rfl⟩⟩
    · exact ⟨_, rfl⟩
  obtain ⟨c₁, h₁⟩ := hreward
  exact ⟨true, _, (internalPing_eq_ok c env he).mpr ⟨rfl, hle he, c₁, h₁, rfl⟩⟩

/-- **One call.** -/
theorem at_least_one_step {op : Op} (h : exec N c env op = .ok c') :
    c'.totalStakeShares.val ≤ c'.totalStakedBalance.val := by
  cases op with
  | deposit =>
    cases h
    exact hST
  | withdraw amount =>
    obtain ⟨-, -, -, rfl⟩ := (internalWithdraw_eq_ok c env).mp h
    exact hST
  | stake amount => exact at_least_one_internalStake hST h
  | unstake amount => exact at_least_one_innerUnstake hST h
  | ping =>
    obtain ⟨b, hb⟩ := exec_ping_eq_ok.mp h
    exact at_least_one_internalPing hST hb

end AtLeastOne

/-- **The share price never decreases.**  A call that adds to `total_staked_balance`
without clipping leaves the price `T / S` no lower (or burns every share), and from a
price of at least one every run keeps a price of at least one. -/
theorem share_price_never_decreases (N : U64) :
    (∀ (c c' : StakingContract AccountId) (env : Env AccountId) (op : Op),
      StakedAddsFit c env op → exec N c env op = .ok c' →
        c'.totalStakeShares.val = 0 ∨
        c.totalStakedBalance.val * c'.totalStakeShares.val ≤
          c'.totalStakedBalance.val * c.totalStakeShares.val) ∧
    ∀ (calls : List (Env AccountId × Op)) (c : StakingContract AccountId),
      c.totalStakeShares.val ≤ c.totalStakedBalance.val →
        (run N c calls).totalStakeShares.val ≤ (run N c calls).totalStakedBalance.val :=
  ⟨fun _ _ _ _ => price_step, run_invariant fun _ _ _ _ hST h => at_least_one_step hST h⟩

theorem share_price_never_decreases_unstake :
    StakedAddsFit tenSharesState accountOneEnv (.unstake 5) ∧
    exec 4 tenSharesState accountOneEnv (.unstake 5) =
      .ok (step 4 tenSharesState accountOneEnv (.unstake 5)) ∧
    ((step 4 tenSharesState accountOneEnv (.unstake 5)).totalStakeShares.val = 0 ∨
      tenSharesState.totalStakedBalance.val *
          (step 4 tenSharesState accountOneEnv (.unstake 5)).totalStakeShares.val ≤
        (step 4 tenSharesState accountOneEnv (.unstake 5)).totalStakedBalance.val *
          tenSharesState.totalStakeShares.val) := by
  have hfit : StakedAddsFit tenSharesState accountOneEnv (.unstake 5) := trivial
  have hok := (step_cases 4 tenSharesState accountOneEnv (.unstake 5)).resolve_right fun h =>
    absurd (congrArg totalStakeShares h) (by decide)
  exact ⟨hfit, hok, (share_price_never_decreases 4).1 _ _ _ _ hfit hok⟩

end StakingContract

end UncContracts
