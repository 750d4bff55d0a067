import UncContracts.Price
import Mathlib.Tactic.Ring

/-!
# Unstake's share charge and the stake/unstake round trip

`inner_unstake` charges `ceil (a S / T)` shares for an amount `a`: the fewest shares
worth at least `a`, so its balance check passes exactly when the account's shares are
worth `a` (`unstake_charges_fewest_shares`), and the amount it credits is at least `a`.

`internal_stake` charges `floor (T n / S)` for `n = floor (S a / T)` shares and grows
the pool by `ceil (T n / S)`.  When neither total clips, the charge can be unstaked
again for at most the `n` shares minted, and `n` shares are then worth at most the
amount asked and at most one unit above the charge (`stake_unstake_round_trip`).  A
clipped `total_staked_balance` breaks the first half
(`stake_then_unstake_needs_more_shares`).
-/

namespace UncContracts

namespace StakingContract

variable {AccountId : Type} [DecidableEq AccountId]

/-- Past its first checks (`T > 0`, `S > 0`, `a > 0`), `inner_unstake` stops at its
balance check exactly when the share count fits in `u128` and the caller's `s` shares are
worth less than `a`: `s T < a S`. -/
theorem innerUnstake_eq_error_notEnough {c : StakingContract AccountId} {env : Env AccountId}
    {N : U64} {amount : U128} (hT : 0 < c.totalStakedBalance.val)
    (hS : 0 < c.totalStakeShares.val) (ha : 0 < amount.val) :
    c.innerUnstake env N amount = .error "Not enough staked balance to unstake" ↔
      (c.totalStakeShares.val * amount.val + (c.totalStakedBalance.val - 1)) /
          c.totalStakedBalance.val < 2 ^ 128 ∧
      (c.internalGetAccount env.predecessorAccountId).stakeShares.val * c.totalStakedBalance.val <
        amount.val * c.totalStakeShares.val := by
  have hup : c.numSharesFromStakedAmountRoundedUp amount = U256.asU128
      ((c.totalStakeShares.val * amount.val + (c.totalStakedBalance.val - 1)) /
        c.totalStakedBalance.val) := mulDivCeil_eq hT
  by_cases hfit : (c.totalStakeShares.val * amount.val + (c.totalStakedBalance.val - 1)) /
      c.totalStakedBalance.val < 2 ^ 128
  case neg =>
    -- The share count does not fit: the cast panics before the balance check.
    have herr : c.numSharesFromStakedAmountRoundedUp amount =
        .error "Integer overflow when casting to u128" :=
      hup.trans (checkedFin_eq_error.mpr ⟨Nat.le_of_not_lt hfit, rfl⟩)
    simp only [innerUnstake, require, gt_iff_lt, ha, hT, if_true, pure_bind, herr, error_bind]
    exact iff_of_false (fun h => absurd (Except.error.inj h) (by decide)) fun h => hfit h.1
  case pos =>
    have hn : c.numSharesFromStakedAmountRoundedUp amount = pure ⟨_, hfit⟩ :=
      hup.trans (U256.asU128_eq_ok.mpr rfl)
    have hpos : 0 < (c.totalStakeShares.val * amount.val + (c.totalStakedBalance.val - 1)) /
        c.totalStakedBalance.val :=
      Nat.div_pos (by have := Nat.mul_pos hS ha; omega) hT
    -- The check `s ≥ ceil (S a / T)` is `a S ≤ s T`.
    have hcheck := ceil_le_iff (p := c.totalStakeShares.val * amount.val)
      (k := (c.internalGetAccount env.predecessorAccountId).stakeShares.val) hT
    simp only [innerUnstake, require, gt_iff_lt, ha, hT, if_true, pure_bind, hn, ok_bind, hpos,
      Fin.val_mk]
    by_cases hs : (c.internalGetAccount env.predecessorAccountId).stakeShares.val *
        c.totalStakedBalance.val < amount.val * c.totalStakeShares.val
    · rw [if_neg (by rw [ge_iff_le, hcheck, Nat.mul_comm c.totalStakeShares.val]; omega)]
      exact iff_of_true rfl ⟨hfit, hs⟩
    · -- Every later step panics, if at all, with another message.
      rw [if_pos (by rw [ge_iff_le, hcheck, Nat.mul_comm c.totalStakeShares.val]; omega), pure_bind]
      refine iff_of_false (bind_ne_error (mulDivCeil_ne_error (by decide) (by decide)) fun _ => ?_)
        fun h => hs h.2
      refine bind_ne_error (require_ne_error (by decide)) fun _ => ?_
      refine bind_ne_error (fun h => absurd (checkedFin_eq_error.mp h).2 (by decide)) fun _ => ?_
      exact bind_ne_error (mulDivFloor_ne_error (by decide) (by decide)) fun _ => nofun

/-- **Unstake charges the fewest shares and never under-pays.**  For `T > 0`, `S > 0` and
an amount `a > 0`: a successful `inner_unstake` burns `ceil (a S / T)` shares, the least
`n` with `a S ≤ n T`, and credits the caller at least `a`; its "Not enough staked
balance" check, once reached (the share count fits in `u128`), fails exactly when the
caller's `s` shares are worth less than `a` (`s T < a S`); and unstaking what
`staked_amount_from_num_shares_rounded_down` values the caller's shares at never fails
that check. -/
theorem unstake_charges_fewest_shares (c : StakingContract AccountId) (env : Env AccountId)
    (N : U64) (amount : U128) (hT : 0 < c.totalStakedBalance.val)
    (hS : 0 < c.totalStakeShares.val) (ha : 0 < amount.val) :
    (∀ c', c.innerUnstake env N amount = .ok c' →
      ∃ num_shares receive_amount : U128,
        num_shares.val = (c.totalStakeShares.val * amount.val + (c.totalStakedBalance.val - 1)) /
          c.totalStakedBalance.val ∧
        (∀ k : Nat, num_shares.val ≤ k ↔
          amount.val * c.totalStakeShares.val ≤ k * c.totalStakedBalance.val) ∧
        c'.totalStakeShares = c.totalStakeShares.saturatingSub num_shares ∧
        amount.val ≤ receive_amount.val ∧
        (c'.internalGetAccount env.predecessorAccountId).unstaked =
          (c.internalGetAccount env.predecessorAccountId).unstaked.saturatingAdd
            receive_amount) ∧
    (c.innerUnstake env N amount = .error "Not enough staked balance to unstake" ↔
      (c.totalStakeShares.val * amount.val + (c.totalStakedBalance.val - 1)) /
          c.totalStakedBalance.val < 2 ^ 128 ∧
      (c.internalGetAccount env.predecessorAccountId).stakeShares.val * c.totalStakedBalance.val <
        amount.val * c.totalStakeShares.val) ∧
    ∀ v : U128, c.stakedAmountFromNumSharesRoundedDown
        (c.internalGetAccount env.predecessorAccountId).stakeShares = .ok v →
      c.innerUnstake env N v ≠ .error "Not enough staked balance to unstake" := by
  refine ⟨fun c' h => ?_, innerUnstake_eq_error_notEnough hT hS ha, fun v hv => ?_⟩
  · obtain ⟨-, -, -, n, r, u, ul, hn, -, -, hr, hr0, -, -, rfl⟩ := (innerUnstake_eq_ok c env).mp h
    -- `n T ≥ a S`, so `n` shares are worth at least `a`.
    have hworth : amount.val ≤ c.totalStakedBalance.val * n.val / c.totalStakeShares.val := by
      rw [Nat.le_div_iff_mul_le hS, Nat.mul_comm amount.val, Nat.mul_comm c.totalStakedBalance.val, hn]
      exact le_ceil_mul hT
    refine ⟨n, r, hn, fun k => ?_, rfl, hr ▸ Nat.le_trans hworth floor_le_ceil,
      congrArg Account.unstaked (get_save_unstake c _ n r ul hr0)⟩
    rw [hn, ceil_le_iff hT, Nat.mul_comm amount.val]
  · -- The shares are worth `v`: `v S ≤ T s`.
    obtain ⟨-, hv⟩ := mulDivFloor_eq_ok.mp hv
    rcases Nat.eq_zero_or_pos v.val with h0 | hv0
    · simp only [innerUnstake, require, gt_iff_lt, h0, Nat.lt_irrefl, if_false]
      exact fun h => absurd (Except.error.inj h) (by decide)
    · have hworth : v.val * c.totalStakeShares.val ≤
          c.totalStakedBalance.val * (c.internalGetAccount env.predecessorAccountId).stakeShares.val :=
        hv ▸ Nat.div_mul_le_self _ _
      rw [Ne, innerUnstake_eq_error_notEnough hT hS hv0, Nat.mul_comm _ c.totalStakedBalance.val]
      omega

/-- Account `1` holds ten shares at price one: unstaking 11 stops at the balance check,
while unstaking the 10 its shares are worth gets past it. -/
theorem unstake_charges_fewest_shares_eleven :
    tenSharesState.innerUnstake accountOneEnv 4 11 = .error "Not enough staked balance to unstake" ∧
      tenSharesState.innerUnstake accountOneEnv 4 10 ≠ .error "Not enough staked balance to unstake" :=
  have h := unstake_charges_fewest_shares tenSharesState accountOneEnv 4 11 (by decide) (by decide)
    (by decide)
  ⟨h.2.1.mpr ⟨by decide, by decide⟩, h.2.2 10 rfl⟩

/-- `inner_unstake` succeeds once its checks can pass: a positive amount, positive totals,
a share charge `ceil (a S / T)` within both the caller's shares and `S`, and an unlock
epoch that fits in `u64`. -/
theorem innerUnstake_ok_of_le {c : StakingContract AccountId} {env : Env AccountId} {N : U64}
    {amount : U128} (ha : 0 < amount.val) (hT : 0 < c.totalStakedBalance.val)
    (hS : 0 < c.totalStakeShares.val)
    (hs : (c.totalStakeShares.val * amount.val + (c.totalStakedBalance.val - 1)) /
      c.totalStakedBalance.val ≤ (c.internalGetAccount env.predecessorAccountId).stakeShares.val)
    (hSS : (c.totalStakeShares.val * amount.val + (c.totalStakedBalance.val - 1)) /
      c.totalStakedBalance.val ≤ c.totalStakeShares.val)
    (hepoch : env.epochHeight.val + N.val < 2 ^ 64) :
    ∃ c', c.innerUnstake env N amount = .ok c' := by
  generalize hn : (c.totalStakeShares.val * amount.val + (c.totalStakedBalance.val - 1)) /
    c.totalStakedBalance.val = n at hs hSS
  have hn0 : 0 < n := hn ▸ Nat.div_pos (by have := Nat.mul_pos hS ha; omega) hT
  -- `n ≤ S` keeps the credit `ceil (T n / S)` within `T`.
  have hr : (c.totalStakedBalance.val * n + (c.totalStakeShares.val - 1)) /
      c.totalStakeShares.val ≤ c.totalStakedBalance.val :=
    (ceil_le_iff hS).mpr (Nat.mul_le_mul_left _ hSS)
  have hr0 : 0 < (c.totalStakedBalance.val * n + (c.totalStakeShares.val - 1)) /
      c.totalStakeShares.val := Nat.div_pos (by have := Nat.mul_pos hT hn0; omega) hS
  exact ⟨_, (innerUnstake_eq_ok c env).mpr ⟨ha, hT, hS,
    ⟨n, Nat.lt_of_le_of_lt hs (c.internalGetAccount _).stakeShares.isLt⟩,
    ⟨_, Nat.lt_of_le_of_lt hr c.totalStakedBalance.isLt⟩,
    ⟨_, Nat.lt_of_le_of_lt (floor_le_ceil.trans hr) c.totalStakedBalance.isLt⟩, ⟨_, hepoch⟩,
    hn.symm, hn0, hs, rfl, hr0, rfl, rfl, rfl⟩⟩

/-- **Stake/unstake round trip.**  A successful stake of `a` whose totals do not clip
(`T + ceil (T n / S)` and `S + n` stay within `u128::MAX`) mints `n = floor (S a / T)`
shares and charges `c = floor (T n / S) ≤ a`.  In the state it leaves, the same account
can unstake `c` again at once, for at most the `n` shares minted; and every unstake that
spends at most `n` shares credits at most `a` and at most `c + 1`. -/
theorem stake_unstake_round_trip {N : U64} {c c' : StakingContract AccountId}
    {env : Env AccountId} {amount : U128}
    (hfitT : c.totalStakedBalance.val + (c.totalStakedBalance.val *
        (c.totalStakeShares.val * amount.val / c.totalStakedBalance.val) +
          (c.totalStakeShares.val - 1)) / c.totalStakeShares.val ≤ 2 ^ 128 - 1)
    (hfitS : c.totalStakeShares.val +
      c.totalStakeShares.val * amount.val / c.totalStakedBalance.val ≤ 2 ^ 128 - 1)
    (h : c.internalStake env amount = .ok c') :
    ∃ num_shares charge_amount : U128,
      num_shares.val = c.totalStakeShares.val * amount.val / c.totalStakedBalance.val ∧
      charge_amount.val =
        c.totalStakedBalance.val * num_shares.val / c.totalStakeShares.val ∧
      charge_amount.val ≤ amount.val ∧
      (∀ env' : Env AccountId, env'.predecessorAccountId = env.predecessorAccountId →
        env'.epochHeight.val + N.val < 2 ^ 64 →
        (c'.totalStakeShares.val * charge_amount.val + (c'.totalStakedBalance.val - 1)) /
            c'.totalStakedBalance.val ≤ num_shares.val ∧
          ∃ c'', c'.innerUnstake env' N charge_amount = .ok c'') ∧
      ∀ (env' : Env AccountId) (amount' : U128) (c'' : StakingContract AccountId),
        c'.innerUnstake env' N amount' = .ok c'' →
        (c'.totalStakeShares.val * amount'.val + (c'.totalStakedBalance.val - 1)) /
            c'.totalStakedBalance.val ≤ num_shares.val →
        ∃ receive_amount : U128,
          receive_amount.val = (c'.totalStakedBalance.val *
            ((c'.totalStakeShares.val * amount'.val + (c'.totalStakedBalance.val - 1)) /
              c'.totalStakedBalance.val) + (c'.totalStakeShares.val - 1)) /
                c'.totalStakeShares.val ∧
          (c''.internalGetAccount env'.predecessorAccountId).unstaked =
            (c'.internalGetAccount env'.predecessorAccountId).unstaked.saturatingAdd
              receive_amount ∧
          receive_amount.val ≤ amount.val ∧ receive_amount.val ≤ charge_amount.val + 1 := by
  obtain ⟨-, hT, hS, n, ch, sa, hn, hn0, hch, hch0, -, hsa, hc'⟩ :=
    (internalStake_eq_ok c env).mp h
  rw [← hn] at hfitS hfitT
  rw [← hsa] at hfitT
  -- The three roundings: `n T ≤ a S`, `ch S ≤ T n ≤ sa S`, `sa ≤ ch + 1`.
  have hmint : n.val * c.totalStakedBalance.val ≤ c.totalStakeShares.val * amount.val :=
    hn ▸ (Nat.div_mul_le_self _ _)
  have hcharge : ch.val * c.totalStakeShares.val ≤ c.totalStakedBalance.val * n.val :=
    hch ▸ (Nat.div_mul_le_self _ _)
  have hstake : c.totalStakedBalance.val * n.val ≤ sa.val * c.totalStakeShares.val :=
    hsa ▸ le_ceil_mul hS
  have hround : sa.val ≤ ch.val + 1 := hsa ▸ hch ▸ ceil_le_floor_succ hS
  -- `sa ≤ a`: the pool grows by at most the amount asked.
  have hsa_le : sa.val ≤ amount.val := by
    rw [hsa, ceil_le_iff hS, Nat.mul_comm _ n.val, Nat.mul_comm amount.val]
    exact hmint
  have hch_le : ch.val ≤ sa.val := hch ▸ hsa ▸ floor_le_ceil
  -- The totals after the stake, with no clipping.
  obtain ⟨hT', hS'⟩ : c'.totalStakedBalance.val = c.totalStakedBalance.val + sa.val ∧
      c'.totalStakeShares.val = c.totalStakeShares.val + n.val := by
    subst hc'
    simp only [U128.val_saturatingAdd]
    omega
  refine ⟨n, ch, hn, hch, by omega, fun env' hid hepoch => ?_, fun env' a' c'' hu hm => ?_⟩
  · -- `ch (S + n) ≤ n (T + sa)`, so the charge costs at most `n` shares.
    have hworth : c'.totalStakeShares.val * ch.val ≤ n.val * c'.totalStakedBalance.val :=
      calc c'.totalStakeShares.val * ch.val
          = ch.val * c.totalStakeShares.val + n.val * ch.val := by rw [hS']; ring
        _ ≤ c.totalStakedBalance.val * n.val + n.val * sa.val :=
          Nat.add_le_add hcharge (Nat.mul_le_mul_left n.val hch_le)
        _ = n.val * c'.totalStakedBalance.val := by rw [hT']; ring
    have hle := (ceil_le_iff (hT' ▸ Nat.add_pos_left hT _)).mpr hworth
    -- The caller holds at least the `n` shares just minted.
    have hown : n.val ≤ (c'.internalGetAccount env'.predecessorAccountId).stakeShares.val := by
      rw [hid, hc']
      show n.val ≤ ((c.internalSaveAccount _ _).internalGetAccount _).stakeShares.val
      rw [get_save_self_of_kept c _ _ (Or.inr (by simp only [U128.val_saturatingAdd]; omega))]
      simp only [U128.val_saturatingAdd]
      omega
    exact ⟨hle, innerUnstake_ok_of_le hch0 (hT' ▸ Nat.add_pos_left hT _)
      (hS' ▸ Nat.add_pos_left hS _) (hle.trans hown) (by omega) hepoch⟩
  · -- `m ≤ n` shares are worth at most `sa` at the new price: `m (T + sa) ≤ sa (S + n)`.
    obtain ⟨-, -, hS'pos, m, r, -, ul, hmv, -, -, hr, hr0, -, -, rfl⟩ :=
      (innerUnstake_eq_ok c' env').mp hu
    rw [← hmv] at hm
    have hworth : c'.totalStakedBalance.val * m.val ≤ sa.val * c'.totalStakeShares.val :=
      calc c'.totalStakedBalance.val * m.val
          = c.totalStakedBalance.val * m.val + sa.val * m.val := by rw [hT']; ring
        _ ≤ sa.val * c.totalStakeShares.val + sa.val * n.val :=
          Nat.add_le_add ((Nat.mul_le_mul_left _ hm).trans hstake) (Nat.mul_le_mul_left _ hm)
        _ = sa.val * c'.totalStakeShares.val := by rw [hS']; ring
    have hle : r.val ≤ sa.val := hr ▸ (ceil_le_iff hS'pos).mpr hworth
    exact ⟨r, hmv ▸ hr, congrArg Account.unstaked (get_save_unstake c' _ m r ul hr0), by omega,
      by omega⟩

/-- Account `1` stakes 5 at price one: 5 shares for 5, and the 5 charged can be unstaked
again at once. -/
theorem stake_unstake_round_trip_five :
    ∃ c', stakerState.internalStake accountOneEnv 5 = .ok c' ∧
      ∃ c'', c'.innerUnstake accountOneEnv 4 5 = .ok c'' := by
  obtain ⟨c', h⟩ :=
    exists_eq_ok_of_toBool (x := stakerState.internalStake accountOneEnv 5) (by decide)
  obtain ⟨num_shares, charge_amount, hn, hch, -, hagain, -⟩ :=
    stake_unstake_round_trip (N := 4) (by decide) (by decide) h
  have hch5 : charge_amount = 5 := Fin.ext (hch.trans (by rw [hn]; rfl))
  subst hch5
  exact ⟨c', h, (hagain accountOneEnv rfl (by decide)).2⟩

/-- The pool two units below `u128::MAX` with one share; account `1` holds it and
`2^128 - 2` unstaked. -/
def nearlyFullState : StakingContract Nat where
  ownerId := 0
  lastEpochHeight := 0
  lastTotalBalance := ⟨2 ^ 128 - 1, by decide⟩
  totalStakedBalance := ⟨2 ^ 128 - 2, by decide⟩
  totalStakeShares := 1
  rewardFeeFraction := ⟨0, 1, by decide, by decide⟩
  accounts := (∅ : AList fun _ : Nat => Account).insert 1 ⟨⟨2 ^ 128 - 2, by decide⟩, 1, 0⟩

/-- Account `1` stakes `2^128 - 2`: it is charged all of it for one share, the pool
clips at `u128::MAX` with two shares, and unstaking the charge then costs two shares. -/
theorem stake_then_unstake_needs_more_shares :
    ((nearlyFullState.internalStake accountOneEnv ⟨2 ^ 128 - 2, by decide⟩).toOption.map
      fun c' => ((c'.internalGetAccount 1).unstaked.val, c'.totalStakedBalance.val,
        c'.totalStakeShares.val,
        (c'.numSharesFromStakedAmountRoundedUp ⟨2 ^ 128 - 2, by decide⟩).toOption.map
          Fin.val)) =
      some (0, 2 ^ 128 - 1, 2, some 2) := by
  decide

end StakingContract

end UncContracts
