import UncContracts.RoundTrip

/-!
# Only the caller's errors fail an operation

At a price of at least one (`S ≤ T`) with shares in circulation (`0 < S`), a caller
holding at most `S` shares, and an unlock epoch that fits in `u64`, each operation
fails exactly on a caller error: a zero amount, an amount worth no share, a balance
too small, or a host balance below the recorded one.  The `Invariant violation` and
`can't be 0` assertions, the `as_u128` casts and the `u64` addition never fail, and
the two `saturating_sub`s of `inner_unstake` never clip.

    internalStake_ok_iff, innerUnstake_ok_iff, internalPing_ok_iff, innerUnstake_exact
-/

namespace UncContracts

namespace StakingContract

variable {AccountId : Type} [DecidableEq AccountId]
  (c : StakingContract AccountId) (env : Env AccountId)

/-- The `saturating_sub`s of `inner_unstake` subtract at most what is there: the
`num_shares = ceil (S a / T)` it burns are at most `S`, the `unstake_amount =
floor (T num_shares / S)` it takes off the pool at most `T`, and both totals fall by
exactly those. -/
theorem innerUnstake_exact {N : U64} {amount : U128} {c' : StakingContract AccountId}
    (hshares : (c.internalGetAccount env.predecessorAccountId).stakeShares.val ≤
      c.totalStakeShares.val)
    (h : c.innerUnstake env N amount = .ok c') :
    (c.totalStakeShares.val * amount.val + (c.totalStakedBalance.val - 1)) /
        c.totalStakedBalance.val ≤ c.totalStakeShares.val ∧
    c.totalStakedBalance.val *
        ((c.totalStakeShares.val * amount.val + (c.totalStakedBalance.val - 1)) /
          c.totalStakedBalance.val) / c.totalStakeShares.val ≤ c.totalStakedBalance.val ∧
    c'.totalStakeShares.val = c.totalStakeShares.val -
      (c.totalStakeShares.val * amount.val + (c.totalStakedBalance.val - 1)) /
        c.totalStakedBalance.val ∧
    c'.totalStakedBalance.val = c.totalStakedBalance.val -
      c.totalStakedBalance.val *
        ((c.totalStakeShares.val * amount.val + (c.totalStakedBalance.val - 1)) /
          c.totalStakedBalance.val) / c.totalStakeShares.val := by
  obtain ⟨-, -, -, n, -, u, -, hn, -, hle, -, -, -, hu, rfl⟩ := (innerUnstake_eq_ok c env).mp h
  rw [← hn]
  have hnS := Nat.le_trans hle hshares
  refine ⟨hnS, ?_, rfl, congrArg (c.totalStakedBalance.val - ·) hu⟩
  exact Nat.div_le_of_le_mul (Nat.mul_comm c.totalStakedBalance.val _ ▸
    Nat.mul_le_mul_left _ hnS)

section PriceAtLeastOne

variable {c} (hS : 0 < c.totalStakeShares.val)
  (hST : c.totalStakeShares.val ≤ c.totalStakedBalance.val)
include hS hST

theorem internalStake_ok_iff {amount : U128} :
    (∃ c', c.internalStake env amount = .ok c') ↔
      0 < amount.val ∧
      0 < c.totalStakeShares.val * amount.val / c.totalStakedBalance.val ∧
      c.totalStakedBalance.val *
          (c.totalStakeShares.val * amount.val / c.totalStakedBalance.val) /
          c.totalStakeShares.val ≤
        (c.internalGetAccount env.predecessorAccountId).unstaked.val := by
  constructor
  · rintro ⟨c', h⟩
    obtain ⟨ha, -, -, n, ch, -, hn, hn0, hch, -, hle, -⟩ := (internalStake_eq_ok c env).mp h
    exact ⟨ha, hn ▸ hn0, hn ▸ hch ▸ hle⟩
  rintro ⟨ha, hn0, hle⟩
  have hT : 0 < c.totalStakedBalance.val := Nat.lt_of_lt_of_le hS hST
  -- Every value stays within `amount`: `n ≤ a`, `T n ≤ S a`, so `ch ≤ sa ≤ a`.
  generalize hn : c.totalStakeShares.val * amount.val / c.totalStakedBalance.val = n at hn0 hle
  have hmint : c.totalStakedBalance.val * n ≤ amount.val * c.totalStakeShares.val := by
    rw [Nat.mul_comm, Nat.mul_comm amount.val, ← hn]
    exact Nat.div_mul_le_self _ _
  have hna : n ≤ amount.val := hn ▸ Nat.div_le_of_le_mul (Nat.mul_le_mul_right _ hST)
  have hsa := (ceil_le_iff hS).mpr hmint
  have hch0 : 0 < c.totalStakedBalance.val * n / c.totalStakeShares.val :=
    (Nat.le_div_iff_mul_le hS).mpr (by
      rw [Nat.one_mul]; exact Nat.le_trans hST (Nat.le_mul_of_pos_right _ hn0))
  exact ⟨_, (internalStake_eq_ok c env).mpr ⟨ha, hT, hS,
    ⟨n, by omega⟩, ⟨_, Nat.lt_of_le_of_lt (Nat.le_trans floor_le_ceil hsa) amount.isLt⟩,
    ⟨_, Nat.lt_of_le_of_lt hsa amount.isLt⟩, hn.symm, hn0, rfl, hch0, hle, rfl, rfl⟩⟩

theorem internalPing_ok_iff :
    (∃ b c', c.internalPing env = .ok (b, c')) ↔
      (c.lastEpochHeight ≠ env.epochHeight →
        c.lastTotalBalance.val ≤ env.totalBalance.val) :=
  ⟨fun ⟨_, _, h⟩ he => ((internalPing_eq_ok c env he).mp h).2.1,
    internalPing_ok hST (.inl (Nat.lt_of_lt_of_le hS hST))⟩

variable {N : U64}
  (hshares : (c.internalGetAccount env.predecessorAccountId).stakeShares.val ≤
    c.totalStakeShares.val)
include hshares

theorem innerUnstake_ok_iff {amount : U128} (hepoch : env.epochHeight.val + N.val < 2 ^ 64) :
    (∃ c', c.innerUnstake env N amount = .ok c') ↔
      0 < amount.val ∧
      (c.totalStakeShares.val * amount.val + (c.totalStakedBalance.val - 1)) /
          c.totalStakedBalance.val ≤
        (c.internalGetAccount env.predecessorAccountId).stakeShares.val := by
  constructor
  · rintro ⟨c', h⟩
    obtain ⟨ha, -, -, n, -, -, -, hn, -, hle, -⟩ := (innerUnstake_eq_ok c env).mp h
    exact ⟨ha, hn ▸ hle⟩
  rintro ⟨ha, hle⟩
  exact innerUnstake_ok_of_le ha (Nat.lt_of_lt_of_le hS hST) hS hle (hle.trans hshares) hepoch

end PriceAtLeastOne

/-- **Only caller errors can fail an operation.**  At a price of at least one with
shares in circulation, for a caller holding at most `S` shares and an unlock epoch
within `u64`: `internal_stake` fails iff the amount is zero, buys no share, or costs
more than the unstaked balance; `inner_unstake` fails iff the amount is zero or costs
more shares than the caller holds; `internal_ping` fails iff it runs the reward logic
on a balance below `last_total_balance`; and `inner_unstake`'s subtractions of the
`ceil (S a / T)` shares and the `floor (T n / S)` tokens it burns do not clip. -/
theorem only_caller_errors_fail (N : U64) (c : StakingContract AccountId) (env : Env AccountId)
    (amount : U128) (hS : 0 < c.totalStakeShares.val)
    (hST : c.totalStakeShares.val ≤ c.totalStakedBalance.val)
    (hshares : (c.internalGetAccount env.predecessorAccountId).stakeShares.val ≤
      c.totalStakeShares.val)
    (hepoch : env.epochHeight.val + N.val < 2 ^ 64) :
    ((∃ c', c.internalStake env amount = .ok c') ↔
      0 < amount.val ∧
      0 < c.totalStakeShares.val * amount.val / c.totalStakedBalance.val ∧
      c.totalStakedBalance.val *
          (c.totalStakeShares.val * amount.val / c.totalStakedBalance.val) /
          c.totalStakeShares.val ≤
        (c.internalGetAccount env.predecessorAccountId).unstaked.val) ∧
    ((∃ c', c.innerUnstake env N amount = .ok c') ↔
      0 < amount.val ∧
      (c.totalStakeShares.val * amount.val + (c.totalStakedBalance.val - 1)) /
          c.totalStakedBalance.val ≤
        (c.internalGetAccount env.predecessorAccountId).stakeShares.val) ∧
    ((∃ b c', c.internalPing env = .ok (b, c')) ↔
      (c.lastEpochHeight ≠ env.epochHeight →
        c.lastTotalBalance.val ≤ env.totalBalance.val)) ∧
    ∀ c', c.innerUnstake env N amount = .ok c' →
      (c.totalStakeShares.val * amount.val + (c.totalStakedBalance.val - 1)) /
          c.totalStakedBalance.val ≤ c.totalStakeShares.val ∧
      c.totalStakedBalance.val *
          ((c.totalStakeShares.val * amount.val + (c.totalStakedBalance.val - 1)) /
            c.totalStakedBalance.val) / c.totalStakeShares.val ≤ c.totalStakedBalance.val ∧
      c'.totalStakeShares.val = c.totalStakeShares.val -
        (c.totalStakeShares.val * amount.val + (c.totalStakedBalance.val - 1)) /
          c.totalStakedBalance.val ∧
      c'.totalStakedBalance.val = c.totalStakedBalance.val -
        c.totalStakedBalance.val *
          ((c.totalStakeShares.val * amount.val + (c.totalStakedBalance.val - 1)) /
            c.totalStakedBalance.val) / c.totalStakeShares.val :=
  ⟨internalStake_ok_iff env hS hST, innerUnstake_ok_iff env hS hST hshares hepoch,
    internalPing_ok_iff env hS hST, fun _ => innerUnstake_exact c env hshares⟩

/-- At `tenSharesState` account `1` can unstake 5: it costs 5 of its 10 shares. -/
theorem only_caller_errors_fail_unstake :
    ∃ c', tenSharesState.innerUnstake accountOneEnv 4 5 = .ok c' :=
  (only_caller_errors_fail 4 tenSharesState accountOneEnv 5 (by decide) (by decide) (by decide)
    (by decide)).2.1.mpr ⟨by decide, by decide⟩

end StakingContract

end UncContracts
