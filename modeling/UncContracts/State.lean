import UncContracts.Uint
import Mathlib.Data.List.AList
import Mathlib.Algebra.BigOperators.Group.List

/-!
# Contract state and the account ledger

The fields of `StakingContract` that the internal methods read or write, the
delegator's `Account`, the host environment of a call, and the ledger's two
accessors: `internal_get_account` (the stored record or the zero default) and
`internal_save_account` (upsert, or remove a record whose two balances are
zero).  The persistent map is an association list with distinct keys.

Sums over the ledger (`accountsSum`) change on a save by exactly the saved
record minus the record it replaces (`accountsSum_save`), for every field
that is zero on a pruned record.
-/

namespace UncContracts

/-- A delegator's record (`Account` of the staking pool's `lib.rs`, not under `src/`). -/
structure Account where
  unstaked : U128
  stakeShares : U128
  unstakedAvailableEpochHeight : U64
  deriving DecidableEq, Repr

/-- `Account::default()` (derived in `lib.rs`, not under `src/`): zero balances, unlock
epoch `0`. -/
instance : Inhabited Account := ⟨⟨0, 0, 0⟩⟩

@[simp] theorem Account.default_unstaked : (default : Account).unstaked = 0 := rfl
@[simp] theorem Account.default_stakeShares : (default : Account).stakeShares = 0 := rfl
@[simp] theorem Account.default_unstakedAvailableEpochHeight :
    (default : Account).unstakedAvailableEpochHeight = 0 := rfl

/-- Modelled from the spec: `reward_fee_fraction`, a fraction whose numerator is at
most its denominator. -/
structure RewardFeeFraction where
  numerator : Nat
  denominator : Nat
  denominator_pos : 0 < denominator
  numerator_le : numerator ≤ denominator
  deriving DecidableEq

/-- Modelled from the spec: `RewardFeeFraction::multiply`, multiply then divide,
rounded down. -/
def RewardFeeFraction.multiply (f : RewardFeeFraction) (value : U128) : U128 :=
  ⟨f.numerator * value.val / f.denominator, by
    have h : f.numerator * value.val ≤ f.denominator * value.val :=
      Nat.mul_le_mul_right _ f.numerator_le
    have := Nat.div_le_of_le_mul h
    omega⟩

/-- The owner's fee is never more than the reward. -/
theorem RewardFeeFraction.multiply_le (f : RewardFeeFraction) (value : U128) :
    (f.multiply value).val ≤ value.val :=
  Nat.div_le_of_le_mul (Nat.mul_le_mul_right _ f.numerator_le)

/-- The fields of the contract state that the internal methods use (`StakingContract` of
the staking pool's `lib.rs`, not under `src/`). -/
structure StakingContract (AccountId : Type) where
  ownerId : AccountId
  lastEpochHeight : U64
  lastTotalBalance : U128
  totalStakedBalance : U128
  totalStakeShares : U128
  rewardFeeFraction : RewardFeeFraction
  accounts : AList fun _ : AccountId => Account
  deriving DecidableEq

/-- What the host (`env::`) tells a call. -/
structure Env (AccountId : Type) where
  predecessorAccountId : AccountId
  attachedDeposit : U128
  epochHeight : U64
  accountBalance : U128
  accountLockedBalance : U128

variable {AccountId : Type} [DecidableEq AccountId]

namespace StakingContract

/-- Inner method to get the given account or a new default value account. -/
def internalGetAccount (self : StakingContract AccountId) (account_id : AccountId) : Account :=
  (self.accounts.lookup account_id).getD default

/-- Inner method to save the given account for a given account ID.
If the account balances are 0, the account is deleted instead to release storage. -/
def internalSaveAccount (self : StakingContract AccountId) (account_id : AccountId)
    (account : Account) : StakingContract AccountId :=
  { self with
    accounts :=
      if account.unstaked.val > 0 ∨ account.stakeShares.val > 0 then
        self.accounts.insert account_id account
      else self.accounts.erase account_id }

/-- The sum of one field over the stored accounts. -/
def accountsSum (f : Account → Nat) (accounts : AList fun _ : AccountId => Account) : Nat :=
  (accounts.entries.map fun e => f e.2).sum

/-- Stake shares held by the stored accounts. -/
def sharesHeld (accounts : AList fun _ : AccountId => Account) : Nat :=
  accountsSum (fun acc => acc.stakeShares.val) accounts

/-- Unstaked balances of the stored accounts. -/
def unstakedHeld (accounts : AList fun _ : AccountId => Account) : Nat :=
  accountsSum (fun acc => acc.unstaked.val) accounts

/-- A record `internal_save_account` keeps. -/
def Kept (account : Account) : Prop :=
  account.unstaked.val > 0 ∨ account.stakeShares.val > 0

instance (account : Account) : Decidable (Kept account) :=
  inferInstanceAs (Decidable (_ ∨ _))

/-! ## Lemmas -/

variable (c : StakingContract AccountId) (a b : AccountId) (acc : Account)

@[simp] theorem internalSaveAccount_ownerId :
    (c.internalSaveAccount a acc).ownerId = c.ownerId := rfl
@[simp] theorem internalSaveAccount_lastEpochHeight :
    (c.internalSaveAccount a acc).lastEpochHeight = c.lastEpochHeight := rfl
@[simp] theorem internalSaveAccount_lastTotalBalance :
    (c.internalSaveAccount a acc).lastTotalBalance = c.lastTotalBalance := rfl
@[simp] theorem internalSaveAccount_totalStakedBalance :
    (c.internalSaveAccount a acc).totalStakedBalance = c.totalStakedBalance := rfl
@[simp] theorem internalSaveAccount_totalStakeShares :
    (c.internalSaveAccount a acc).totalStakeShares = c.totalStakeShares := rfl
@[simp] theorem internalSaveAccount_rewardFeeFraction :
    (c.internalSaveAccount a acc).rewardFeeFraction = c.rewardFeeFraction := rfl

/-- A kept record is read back as saved. -/
theorem get_save_self_of_kept (h : Kept acc) :
    (c.internalSaveAccount a acc).internalGetAccount a = acc := by
  simp [internalGetAccount, internalSaveAccount, show _ ∨ _ from h, AList.lookup_insert]

/-- A pruned record is read back as the default. -/
theorem get_save_self_of_not_kept (h : ¬Kept acc) :
    (c.internalSaveAccount a acc).internalGetAccount a = default := by
  simp [internalGetAccount, internalSaveAccount, show ¬(_ ∨ _) from h, AList.lookup_erase]

/-- Saving one account leaves every other account as it was. -/
@[simp] theorem get_save_of_ne (h : b ≠ a) :
    (c.internalSaveAccount a acc).internalGetAccount b = c.internalGetAccount b := by
  unfold internalGetAccount internalSaveAccount
  split <;> simp [AList.lookup_insert_ne h, AList.lookup_erase_ne h]

/-- A stored account is the one `internal_get_account` reads. -/
theorem mem_of_kept_get (h : Kept (c.internalGetAccount a)) : a ∈ c.accounts := by
  unfold internalGetAccount at h
  cases hl : c.accounts.lookup a with
  | none => simp [hl, Kept] at h
  | some _ => exact AList.lookup_isSome.mp (by simp [hl])

section Sums

variable {f : Account → Nat}

theorem accountsSum_erase (hf : f default = 0) :
    accountsSum f (c.accounts.erase a) + f (c.internalGetAccount a) = accountsSum f c.accounts := by
  unfold accountsSum internalGetAccount
  by_cases ha : a ∈ c.accounts.keys
  · obtain ⟨v, l₁, l₂, hn, hl, he⟩ := List.exists_of_kerase ha
    have hlook : c.accounts.lookup a = some v := by
      rw [AList.lookup, hl, List.dlookup_append, List.dlookup_eq_none.mpr hn,
        List.dlookup_cons_eq]
      rfl
    simp only [AList.erase, he, hlook, Option.getD_some]
    simp only [hl, List.map_append, List.map_cons, List.sum_append, List.sum_cons]
    omega
  · have hlook : c.accounts.lookup a = none := AList.lookup_eq_none.mpr (AList.mem_keys.not.mpr ha)
    simp [AList.erase, List.kerase_of_not_mem_keys ha, hlook, hf]

/-- **Ledger sums on a save.**  The saved record replaces the one read before. -/
theorem accountsSum_save (hf : ∀ acc : Account, ¬Kept acc → f acc = 0) :
    accountsSum f (c.internalSaveAccount a acc).accounts + f (c.internalGetAccount a)
      = accountsSum f c.accounts + f acc := by
  have hd : f default = 0 := hf default (by simp [Kept])
  have he := accountsSum_erase c a hd
  simp only [internalSaveAccount, accountsSum, AList.erase] at he ⊢
  split
  · simp only [AList.insert_entries, List.map_cons, List.sum_cons]
    omega
  · next h =>
    simp only [hf acc h]
    omega

theorem sharesHeld_save :
    sharesHeld (c.internalSaveAccount a acc).accounts + (c.internalGetAccount a).stakeShares.val
      = sharesHeld c.accounts + acc.stakeShares.val :=
  accountsSum_save c a acc fun _ h => by simp only [Kept, not_or] at h; omega

theorem unstakedHeld_save :
    unstakedHeld (c.internalSaveAccount a acc).accounts + (c.internalGetAccount a).unstaked.val
      = unstakedHeld c.accounts + acc.unstaked.val :=
  accountsSum_save c a acc fun _ h => by simp only [Kept, not_or] at h; omega

end Sums

end StakingContract

end UncContracts
