import UncContracts.HostBalance

/-!
# Ledger invariants over runs

* The stored records are exactly the accounts holding a balance:
  `internal_save_account` stores a record only while it holds unstaked tokens or
  shares, and removes it otherwise (`records_hold_balance`).
* Every call but `inner_unstake` keeps `total_stake_shares - Σ stake_shares`, as long
  as no share count reaches `u128::MAX` (`share_conservation_without_unstake`);
  `inner_unstake` lowers it by twice the shares it spends (`innerUnstake_shares`).
-/

namespace UncContracts

namespace StakingContract

variable {AccountId : Type} [DecidableEq AccountId]
  {c c' : StakingContract AccountId} {env : Env AccountId} {N : U64}

/-! ## Stored records hold a balance -/

/-- Every stored record holds unstaked tokens or shares. -/
def RecordsKept (c : StakingContract AccountId) : Prop :=
  ∀ e ∈ c.accounts.entries, Kept e.2

instance (c : StakingContract AccountId) : Decidable (RecordsKept c) :=
  inferInstanceAs (Decidable (∀ e ∈ c.accounts.entries, Kept e.2))

theorem recordsKept_save {x : AccountId} {acc : Account} (h : RecordsKept c) :
    RecordsKept (c.internalSaveAccount x acc) := by
  unfold RecordsKept internalSaveAccount
  split
  · next hk =>
    intro e he
    rw [AList.insert_entries, List.mem_cons] at he
    rcases he with rfl | he
    · exact hk
    · exact h e ((List.kerase_sublist _ _).subset he)
  · exact fun e he => h e ((List.kerase_sublist _ _).subset he)

theorem recordsKept_pingReward {r : U128} (hk : RecordsKept c) (h : c.pingReward r = .ok c') :
    RecordsKept c' := by
  obtain ⟨-, n, -, rfl⟩ := (pingReward_eq_ok c rfl rfl).mp h
  split_ifs
  · exact recordsKept_save hk
  · exact hk

/-- **One call.** -/
theorem recordsKept_exec {op : Op} (hk : RecordsKept c) (h : exec N c env op = .ok c') :
    RecordsKept c' := by
  cases op with
  | deposit =>
    cases h
    exact recordsKept_save hk
  | withdraw amount =>
    obtain ⟨-, -, -, rfl⟩ := (internalWithdraw_eq_ok c env).mp h
    exact recordsKept_save hk
  | stake amount =>
    obtain ⟨-, -, -, -, -, -, -, -, -, -, -, -, rfl⟩ := (internalStake_eq_ok c env).mp h
    exact recordsKept_save hk
  | unstake amount =>
    obtain ⟨-, -, -, -, -, -, -, -, -, -, -, -, -, -, rfl⟩ := (innerUnstake_eq_ok c env).mp h
    exact recordsKept_save hk
  | ping =>
    obtain ⟨b, hb⟩ := exec_ping_eq_ok.mp h
    rcases internalPing_cases c env hb with ⟨-, rfl, -⟩ | ⟨-, -, -, c₁, h₁ | rfl, rfl⟩
    · exact hk
    · have := recordsKept_pingReward (c := { c with lastEpochHeight := env.epochHeight }) hk h₁
      exact this
    · exact hk

/-- With every stored record holding a balance, an account is stored exactly when it
holds a balance. -/
theorem mem_accounts_iff (hk : RecordsKept c) (a : AccountId) :
    a ∈ c.accounts ↔ Kept (c.internalGetAccount a) := by
  refine ⟨fun ha => ?_, mem_of_kept_get c a⟩
  obtain ⟨acc, hl⟩ := Option.isSome_iff_exists.mp (AList.lookup_isSome.mpr ha)
  rw [internalGetAccount, hl, Option.getD_some]
  exact hk ⟨a, acc⟩ (AList.mem_lookup_iff.mp hl)

/-- **Stored records hold a balance.**  From a ledger whose stored records all hold a
balance, every run keeps it so, and in every state it reaches an account is stored
exactly when it holds unstaked tokens or shares. -/
theorem records_hold_balance (N : U64) (calls : List (Env AccountId × Op))
    (c : StakingContract AccountId) (hk : RecordsKept c) :
    RecordsKept (run N c calls) ∧
      ∀ a, a ∈ (run N c calls).accounts ↔ Kept ((run N c calls).internalGetAccount a) := by
  have hrun := run_invariant (N := N) (fun _ _ _ _ hk h => recordsKept_exec hk h) calls c hk
  exact ⟨hrun, mem_accounts_iff hrun⟩

theorem records_hold_balance_ten_shares :
    RecordsKept tenSharesState ∧
      RecordsKept (run 4 tenSharesState [(accountOneEnv, .unstake 5), (accountOneEnv, .deposit)]) :=
  ⟨by decide, (records_hold_balance 4 _ tenSharesState (by decide)).1⟩

/-! ## Share conservation away from `inner_unstake` -/

/-- `total_stake_shares` less the shares the accounts hold. -/
def sharesGap (c : StakingContract AccountId) : Int :=
  c.totalStakeShares.val - sharesHeld c.accounts

/-- No share count has reached `u128::MAX`: the total and the accounts' sum are below it. -/
def SharesBelowMax (c : StakingContract AccountId) : Prop :=
  c.totalStakeShares.val < 2 ^ 128 - 1 ∧ sharesHeld c.accounts < 2 ^ 128 - 1

instance (c : StakingContract AccountId) : Decidable (SharesBelowMax c) :=
  inferInstanceAs (Decidable (_ ∧ _))

/-- A saved record's shares are part of the sum. -/
theorem stakeShares_le_sharesHeld_save (c : StakingContract AccountId) (x : AccountId)
    (acc : Account) :
    acc.stakeShares.val ≤ sharesHeld (c.internalSaveAccount x acc).accounts := by
  have h₁ := sharesHeld_save c x acc
  have h₂ := accountsSum_erase (f := fun acc => acc.stakeShares.val) c x rfl
  beta_reduce at h₂
  unfold sharesHeld at h₁ ⊢
  omega

/-- A save that keeps the record's shares keeps the gap. -/
theorem sharesGap_of_save_same {x : AccountId} {acc : Account}
    (hS : c'.totalStakeShares = c.totalStakeShares)
    (hacc : c'.accounts = (c.internalSaveAccount x acc).accounts)
    (hs : acc.stakeShares = (c.internalGetAccount x).stakeShares) :
    sharesGap c' = sharesGap c := by
  have h := sharesHeld_save c x acc
  rw [← hacc, hs] at h
  simp only [sharesGap, hS]
  omega

/-- A save that adds `n` shares to the record, with `n` added to the total, keeps the gap
when no count reaches `u128::MAX`. -/
theorem sharesGap_of_save_add {x : AccountId} {acc : Account} {n : U128}
    (hS : c'.totalStakeShares = c.totalStakeShares.saturatingAdd n)
    (hacc : c'.accounts = (c.internalSaveAccount x acc).accounts)
    (hs : acc.stakeShares = (c.internalGetAccount x).stakeShares.saturatingAdd n)
    (hmax : SharesBelowMax c') : sharesGap c' = sharesGap c := by
  obtain ⟨hSmax, hsum⟩ := hmax
  have h₁ := sharesHeld_save c x acc
  have h₂ := stakeShares_le_sharesHeld_save c x acc
  rw [← hacc, hs, U128.val_saturatingAdd] at h₁ h₂
  rw [hS, U128.val_saturatingAdd] at hSmax
  simp only [sharesGap, hS, U128.val_saturatingAdd]
  omega

theorem sharesGap_pingReward {r : U128} (h : c.pingReward r = .ok c')
    (hmax : SharesBelowMax c') : sharesGap c' = sharesGap c := by
  obtain ⟨-, n, -, rfl⟩ := (pingReward_eq_ok c rfl rfl).mp h
  split_ifs at hmax ⊢
  · exact sharesGap_of_save_add rfl rfl rfl hmax
  · rfl

/-- **One call.** -/
theorem sharesGap_exec {op : Op} (hop : ∀ amount, op ≠ .unstake amount) (hmax : SharesBelowMax c')
    (h : exec N c env op = .ok c') : sharesGap c' = sharesGap c := by
  cases op with
  | deposit =>
    cases h
    exact sharesGap_of_save_same rfl rfl rfl
  | withdraw amount =>
    obtain ⟨-, -, -, rfl⟩ := (internalWithdraw_eq_ok c env).mp h
    exact sharesGap_of_save_same rfl rfl rfl
  | stake amount =>
    obtain ⟨-, -, -, n, ch, sa, -, -, -, -, -, -, rfl⟩ := (internalStake_eq_ok c env).mp h
    exact sharesGap_of_save_add rfl rfl rfl hmax
  | unstake amount => exact absurd rfl (hop amount)
  | ping =>
    obtain ⟨b, hb⟩ := exec_ping_eq_ok.mp h
    rcases internalPing_cases c env hb with ⟨-, rfl, -⟩ | ⟨-, -, -, c₁, h₁ | rfl, rfl⟩
    · rfl
    · have hgap := sharesGap_pingReward (c := { c with lastEpochHeight := env.epochHeight }) h₁ hmax
      exact hgap
    · rfl

/-- The side condition of share conservation: the call is not an unstake, and no share
count reaches `u128::MAX` in the state it leaves. -/
def NotUnstakeBelowMax (N : U64) (c : StakingContract AccountId) (env : Env AccountId)
    (op : Op) : Prop :=
  (∀ amount, op ≠ .unstake amount) ∧ ∀ c', exec N c env op = .ok c' → SharesBelowMax c'

/-- The side condition, read off the state the call leaves. -/
theorem notUnstakeBelowMax_of_step {op : Op} (hop : ∀ amount, op ≠ .unstake amount)
    (hmax : SharesBelowMax (step N c env op)) : NotUnstakeBelowMax N c env op :=
  ⟨hop, fun _ h => step_of_exec_eq_ok h ▸ hmax⟩

/-- **A run.** -/
theorem sharesGap_run :
    ∀ (calls : List (Env AccountId × Op)) (c : StakingContract AccountId),
      RunAll (NotUnstakeBelowMax N) N c calls → sharesGap (run N c calls) = sharesGap c
  | [], _, _ => rfl
  | (env, op) :: calls, c, ⟨⟨hop, hmax⟩, hrest⟩ => by
    rw [run, sharesGap_run calls _ hrest]
    rcases step_cases N c env op with hs | hs
    · exact sharesGap_exec hop (hmax _ hs) hs
    · rw [hs]

/-- **Share conservation without `inner_unstake`.**  Every successful deposit,
withdrawal, stake and ping leaves `total_stake_shares - Σ stake_shares` as it was when
no share count reaches `u128::MAX`, and so does every run of such calls. -/
theorem share_conservation_without_unstake (N : U64) :
    (∀ (c c' : StakingContract AccountId) (env : Env AccountId) (op : Op),
      (∀ amount, op ≠ .unstake amount) → SharesBelowMax c' → exec N c env op = .ok c' →
        sharesGap c' = sharesGap c) ∧
    ∀ (calls : List (Env AccountId × Op)) (c : StakingContract AccountId),
      RunAll (NotUnstakeBelowMax N) N c calls → sharesGap (run N c calls) = sharesGap c :=
  ⟨fun _ _ _ _ hop hmax h => sharesGap_exec hop hmax h, sharesGap_run⟩

/-- From `stakerState` account `1` deposits 5, stakes 5 and withdraws 5: every call
succeeds, leaving it 15 unstaked and 15 shares, and the gap stays 0. -/
theorem share_conservation_deposit :
    RunAll (NotUnstakeBelowMax 4) 4 stakerState stakerCalls ∧
      (run 4 stakerState stakerCalls).internalGetAccount 1 = ⟨15, 15, 0⟩ ∧
      sharesGap (run 4 stakerState stakerCalls) = sharesGap stakerState :=
  have hside : RunAll (NotUnstakeBelowMax 4) 4 stakerState stakerCalls :=
    ⟨notUnstakeBelowMax_of_step (fun _ h => Op.noConfusion h) (by decide),
      notUnstakeBelowMax_of_step (fun _ h => Op.noConfusion h) (by decide),
      notUnstakeBelowMax_of_step (fun _ h => Op.noConfusion h) (by decide), trivial⟩
  ⟨hside, by decide, (share_conservation_without_unstake 4).2 _ _ hside⟩

end StakingContract

end UncContracts
