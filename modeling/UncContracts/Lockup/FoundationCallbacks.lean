import UncContracts.Uint

/-!
# The lockup contract's termination callbacks

When the foundation terminates a vesting schedule, the lockup contract unstakes and
withdraws its tokens from the staking pool and then sends the unvested tokens to the
foundation.  Each of these steps ends in a callback of `foundation_callbacks.rs`:

* `on_get_account_staked_balance_to_unstake` (`…unstaked_balance_to_withdraw`) gets
  the pool's answer to a balance query: a positive balance is unstaked (withdrawn)
  by a pool call whose result goes to the next callback, a zero balance ends the step
  at once;
* `on_staking_pool_unstake_for_termination` (`…withdraw_for_termination`) records
  whether that pool call succeeded;
* `on_withdraw_unvested_amount` records a transfer of unvested tokens.

The callbacks are modelled with what they call on the contract (`set_staking_pool_status`,
`set_termination_status`, `get_terminated_unvested_balance`, the `unwrap`s of
`staking_information`) and in the SDK (`assert_self`, `is_promise_success`).  A callback
that starts a pool call returns the call; log lines are left out, their `unwrap`s kept.

Only `foundation_callbacks.rs` is under `src/`.  The lockup's types, its helpers
`set_staking_pool_status`, `set_termination_status` and `get_terminated_unvested_balance`,
and the utilities `assert_self` and `is_promise_success` live in other files of the lockup
crate; they are modelled from their use here and from the panic messages they raise, and
each says so.
-/

namespace UncContracts

namespace Lockup

/-- Whether a staking-pool transaction is in flight (a type of the lockup crate, not under
`src/`). -/
inductive TransactionStatus
  | idle
  | busy
  deriving DecidableEq, Repr

/-- The stages of a vesting termination (a type of the lockup crate, not under `src/`). -/
inductive TerminationStatus
  | vestingTerminatedWithDeficit
  | unstakingInProgress
  | everythingUnstaked
  | withdrawingFromStakingPoolInProgress
  | readyToWithdraw
  | withdrawingFromAccount
  deriving DecidableEq, Repr

/-- A termination's unvested balance and stage (lockup crate, not under `src/`). -/
structure TerminationInformation where
  unvestedAmount : U128
  status : TerminationStatus
  deriving DecidableEq, Repr

/-- The vesting state (lockup crate, not under `src/`); the callbacks read only the data of
`Terminating`. -/
inductive VestingInformation
  | none
  | vestingHash
  | vestingSchedule
  | terminating (info : TerminationInformation)
  deriving DecidableEq, Repr

/-- The selected staking pool and what is deposited there (lockup crate, not under
`src/`). -/
structure StakingInformation (AccountId : Type) where
  stakingPoolAccountId : AccountId
  status : TransactionStatus
  depositAmount : U128
  deriving DecidableEq, Repr

/-- Of the lockup amounts, the callbacks touch only the tokens withdrawn on termination
(lockup crate, not under `src/`). -/
structure LockupInformation where
  terminationWithdrawnTokens : U128
  deriving DecidableEq, Repr

/-- The fields of the lockup contract the callbacks read or write (the contract's state
is declared in the lockup's `lib.rs`, not under `src/`). -/
structure LockupContract (AccountId : Type) where
  lockupInformation : LockupInformation
  vestingInformation : VestingInformation
  stakingInformation : Option (StakingInformation AccountId)
  foundationAccountId : Option AccountId
  deriving DecidableEq, Repr

/-- The host as a callback sees it. -/
structure CallbackEnv (AccountId : Type) where
  predecessorAccountId : AccountId
  currentAccountId : AccountId
  promiseResultsCount : Nat
  /-- Whether the first promise result is `PromiseResult::Successful`. -/
  promiseResultSuccessful : Bool
  deriving DecidableEq, Repr

/-- The staking-pool calls the callbacks make. -/
inductive PoolCall
  | unstake
  | withdraw
  deriving DecidableEq, Repr

/-- `PromiseOrValue<bool>`: a pool call whose result goes to the matching callback with
the same amount, or a value returned at once. -/
inductive PromiseOrValue (AccountId : Type)
  | promise (stakingPoolAccountId : AccountId) (call : PoolCall) (amount : U128)
  | value (b : Bool)
  deriving DecidableEq, Repr

variable {AccountId : Type}

/-- `assert_self()` of the crates' `utils.rs` (not under `src/`): only the contract calls
its callbacks. -/
def assertSelf [DecidableEq AccountId] (env : CallbackEnv AccountId) : Except String Unit :=
  require (env.predecessorAccountId = env.currentAccountId) "Method is private"

/-- `is_promise_success()` of the crates' `utils.rs` (not under `src/`): the callback's one
promise result. -/
def isPromiseSuccess (env : CallbackEnv AccountId) : Except String Bool := do
  require (env.promiseResultsCount = 1) "Contract expected a result on the callback"
  pure env.promiseResultSuccessful

namespace LockupContract

variable (self : LockupContract AccountId)

/-- `set_staking_pool_status` of the lockup crate (not under `src/`): needs a selected
pool. -/
def setStakingPoolStatus (status : TransactionStatus) :
    Except String (LockupContract AccountId) :=
  match self.stakingInformation with
  | some info => pure { self with stakingInformation := some { info with status := status } }
  | none => throw "Staking pool should be selected"

/-- `set_termination_status` of the lockup crate (not under `src/`): only while
terminating. -/
def setTerminationStatus (status : TerminationStatus) :
    Except String (LockupContract AccountId) :=
  match self.vestingInformation with
  | .terminating info =>
    pure { self with vestingInformation := .terminating { info with status := status } }
  | _ => throw
    "internal error: entered unreachable code: The vesting information is not at the terminating stage"

/-- `get_terminated_unvested_balance` of the lockup crate (not under `src/`): zero unless
terminating. -/
def getTerminatedUnvestedBalance : U128 :=
  match self.vestingInformation with
  | .terminating info => info.unvestedAmount
  | _ => 0

/-- `self.staking_information.as_ref().unwrap()` (and `as_mut`). -/
def stakingInformationUnwrap : Except String (StakingInformation AccountId) :=
  match self.stakingInformation with
  | some info => pure info
  | none => throw "called Option::unwrap() on a None value"

section Callbacks

variable [DecidableEq AccountId]

/-- The two balance-query callbacks: a positive balance of the lockup at the pool is
unstaked (withdrawn) by `call`, a zero balance moves the termination to `next`. -/
def onGetAccountBalance (call : PoolCall) (next : TerminationStatus)
    (env : CallbackEnv AccountId) (balance : U128) :
    Except String (LockupContract AccountId × PromiseOrValue AccountId) := do
  assertSelf env
  if balance.val > 0 then
    let stakingInformation ← self.stakingInformationUnwrap
    pure (self, .promise stakingInformation.stakingPoolAccountId call balance)
  else
    let self ← self.setStakingPoolStatus .idle
    let self ← self.setTerminationStatus next
    pure (self, .value true)

def onGetAccountStakedBalanceToUnstake (env : CallbackEnv AccountId)
    (staked_balance : U128) :
    Except String (LockupContract AccountId × PromiseOrValue AccountId) :=
  self.onGetAccountBalance .unstake .everythingUnstaked env staked_balance

def onGetAccountUnstakedBalanceToWithdraw (env : CallbackEnv AccountId)
    (unstaked_balance : U128) :
    Except String (LockupContract AccountId × PromiseOrValue AccountId) :=
  self.onGetAccountBalance .withdraw .readyToWithdraw env unstaked_balance

/-- The pool's unstake is done; `amount` is only logged. -/
def onStakingPoolUnstakeForTermination (env : CallbackEnv AccountId) (_amount : U128) :
    Except String (LockupContract AccountId × Bool) := do
  assertSelf env
  let unstake_succeeded ← isPromiseSuccess env
  let self ← self.setStakingPoolStatus .idle
  if unstake_succeeded then
    let self ← self.setTerminationStatus .everythingUnstaked
    pure (self, unstake_succeeded)
  else
    let self ← self.setTerminationStatus .vestingTerminatedWithDeficit
    pure (self, unstake_succeeded)

def onStakingPoolWithdrawForTermination (env : CallbackEnv AccountId) (amount : U128) :
    Except String (LockupContract AccountId × Bool) := do
  assertSelf env
  let withdraw_succeeded ← isPromiseSuccess env
  let self ← self.setStakingPoolStatus .idle
  if withdraw_succeeded then
    let self ← self.setTerminationStatus .readyToWithdraw
    -- Due to staking rewards the deposit amount can become negative.
    let stakingInformation ← self.stakingInformationUnwrap
    pure ({ self with stakingInformation := some { stakingInformation with
      depositAmount := stakingInformation.depositAmount.saturatingSub amount } },
      withdraw_succeeded)
  else
    let self ← self.setTerminationStatus .everythingUnstaked
    pure (self, withdraw_succeeded)

/-- The transfer of `amount` unvested tokens to the receiver is done; the receiver is only
logged. -/
def onWithdrawUnvestedAmount (env : CallbackEnv AccountId) (amount : U128)
    (_receiverId : AccountId) : Except String (LockupContract AccountId × Bool) := do
  assertSelf env
  let withdraw_succeeded ← isPromiseSuccess env
  if withdraw_succeeded then
    -- Decreasing lockup amount after withdrawal.
    let terminationWithdrawnTokens ←
      U128.add self.lockupInformation.terminationWithdrawnTokens amount
    let self := { self with lockupInformation := { self.lockupInformation with
      terminationWithdrawnTokens := terminationWithdrawnTokens } }
    let unvestedAmount := self.getTerminatedUnvestedBalance
    if unvestedAmount.val > amount.val then
      -- There is still unvested balance remaining.
      let remaining_balance : U128 :=
        ⟨unvestedAmount.val - amount.val, Nat.lt_of_le_of_lt (Nat.sub_le _ _) unvestedAmount.isLt⟩
      let vestingInformation := VestingInformation.terminating
        { unvestedAmount := remaining_balance, status := .readyToWithdraw }
      pure ({ self with vestingInformation := vestingInformation }, withdraw_succeeded)
    else
      pure ({ self with foundationAccountId := none, vestingInformation := .none },
        withdraw_succeeded)
  else
    let self ← self.setTerminationStatus .readyToWithdraw
    pure (self, withdraw_succeeded)

end Callbacks

end LockupContract

/-! ## Lemmas -/

namespace LockupContract

variable {self c' : LockupContract AccountId}

@[simp] theorem assertSelf_eq_ok [DecidableEq AccountId] {env : CallbackEnv AccountId} {u : Unit} :
    assertSelf env = .ok u ↔ env.predecessorAccountId = env.currentAccountId :=
  require_eq_ok

theorem isPromiseSuccess_eq_ok {env : CallbackEnv AccountId} {b : Bool} :
    isPromiseSuccess env = .ok b ↔
      env.promiseResultsCount = 1 ∧ b = env.promiseResultSuccessful := by
  simp only [isPromiseSuccess, bind_eq_ok, require_eq_ok, pure, Except.pure, Except.ok.injEq,
    eq_comm (a := env.promiseResultSuccessful)]
  exact ⟨fun ⟨_, h, hb⟩ => ⟨h, hb⟩, fun ⟨h, hb⟩ => ⟨(), h, hb⟩⟩

theorem setStakingPoolStatus_eq_ok {status : TransactionStatus} :
    self.setStakingPoolStatus status = .ok c' ↔
      ∃ info, self.stakingInformation = some info ∧
        { self with stakingInformation := some { info with status := status } } = c' := by
  unfold setStakingPoolStatus
  split <;> simp_all [pure, Except.pure, throw, throwThe, MonadExceptOf.throw]

theorem setTerminationStatus_eq_ok {status : TerminationStatus} :
    self.setTerminationStatus status = .ok c' ↔
      ∃ info, self.vestingInformation = .terminating info ∧
        { self with vestingInformation := .terminating { info with status := status } } = c' := by
  unfold setTerminationStatus
  split <;> simp_all [pure, Except.pure, throw, throwThe, MonadExceptOf.throw]

theorem stakingInformationUnwrap_eq_ok {info : StakingInformation AccountId} :
    self.stakingInformationUnwrap = .ok info ↔ self.stakingInformation = some info := by
  unfold stakingInformationUnwrap
  split <;> simp_all [pure, Except.pure, throw, throwThe, MonadExceptOf.throw]

@[simp] theorem getTerminatedUnvestedBalance_terminating (l : LockupInformation)
    (t : TerminationInformation) (s : Option (StakingInformation AccountId)) (f : Option AccountId) :
    (⟨l, .terminating t, s, f⟩ : LockupContract AccountId).getTerminatedUnvestedBalance =
      t.unvestedAmount := rfl

@[simp] theorem getTerminatedUnvestedBalance_none (l : LockupInformation)
    (s : Option (StakingInformation AccountId)) (f : Option AccountId) :
    (⟨l, .none, s, f⟩ : LockupContract AccountId).getTerminatedUnvestedBalance = 0 := rfl

@[simp] theorem getTerminatedUnvestedBalance_lockup (l : LockupInformation) :
    { self with lockupInformation := l }.getTerminatedUnvestedBalance =
      self.getTerminatedUnvestedBalance := rfl

section Callbacks

variable [DecidableEq AccountId]

theorem onGetAccountBalance_eq_ok {call : PoolCall} {next : TerminationStatus}
    {env : CallbackEnv AccountId} {balance : U128}
    {r : LockupContract AccountId × PromiseOrValue AccountId} :
    self.onGetAccountBalance call next env balance = .ok r ↔
      env.predecessorAccountId = env.currentAccountId ∧
      ∃ info, self.stakingInformation = some info ∧
        if 0 < balance.val then r = (self, .promise info.stakingPoolAccountId call balance)
        else ∃ t, self.vestingInformation = .terminating t ∧
          r = ({ self with
            stakingInformation := some { info with status := .idle }
            vestingInformation := .terminating { t with status := next } }, .value true) := by
  simp only [onGetAccountBalance, bind_eq_ok, assertSelf_eq_ok, exists_const, gt_iff_lt]
  split_ifs <;>
    simp only [bind_eq_ok, stakingInformationUnwrap_eq_ok, setStakingPoolStatus_eq_ok,
      setTerminationStatus_eq_ok, pure, Except.pure, Except.ok.injEq, exists_exists_and_eq_and,
      @eq_comm _ r]

theorem onStakingPoolUnstakeForTermination_eq_ok {env : CallbackEnv AccountId}
    {amount : U128} {r : LockupContract AccountId × Bool} :
    self.onStakingPoolUnstakeForTermination env amount = .ok r ↔
      env.predecessorAccountId = env.currentAccountId ∧ env.promiseResultsCount = 1 ∧
      ∃ info t, self.stakingInformation = some info ∧ self.vestingInformation = .terminating t ∧
        r = ({ self with
          stakingInformation := some { info with status := .idle }
          vestingInformation := .terminating { t with
            status := if env.promiseResultSuccessful then .everythingUnstaked
              else .vestingTerminatedWithDeficit } },
          env.promiseResultSuccessful) := by
  simp only [onStakingPoolUnstakeForTermination, bind_eq_ok, assertSelf_eq_ok,
    isPromiseSuccess_eq_ok, setStakingPoolStatus_eq_ok, and_assoc, exists_and_left,
    exists_eq_left, exists_const]
  cases env.promiseResultSuccessful <;>
    simp only [Bool.false_eq_true, ite_true, ite_false, bind_eq_ok, setTerminationStatus_eq_ok,
      pure, Except.pure, Except.ok.injEq, exists_exists_and_eq_and, @eq_comm _ r]

theorem onStakingPoolWithdrawForTermination_eq_ok {env : CallbackEnv AccountId}
    {amount : U128} {r : LockupContract AccountId × Bool} :
    self.onStakingPoolWithdrawForTermination env amount = .ok r ↔
      env.predecessorAccountId = env.currentAccountId ∧ env.promiseResultsCount = 1 ∧
      ∃ info t, self.stakingInformation = some info ∧ self.vestingInformation = .terminating t ∧
        r = ({ self with
          stakingInformation := some { info with
            status := .idle
            depositAmount := if env.promiseResultSuccessful then
              info.depositAmount.saturatingSub amount else info.depositAmount }
          vestingInformation := .terminating { t with
            status := if env.promiseResultSuccessful then .readyToWithdraw
              else .everythingUnstaked } },
          env.promiseResultSuccessful) := by
  simp only [onStakingPoolWithdrawForTermination, bind_eq_ok, assertSelf_eq_ok,
    isPromiseSuccess_eq_ok, setStakingPoolStatus_eq_ok, and_assoc, exists_and_left,
    exists_eq_left, exists_const]
  cases env.promiseResultSuccessful <;>
    simp only [Bool.false_eq_true, ite_true, ite_false, bind_eq_ok, setTerminationStatus_eq_ok,
      stakingInformationUnwrap_eq_ok, pure, Except.pure, Except.ok.injEq, exists_exists_and_eq_and,
      Option.some.injEq, exists_eq_left', @eq_comm _ r]

theorem onWithdrawUnvestedAmount_eq_ok {env : CallbackEnv AccountId}
    {amount : U128} {receiverId : AccountId} {r : LockupContract AccountId × Bool} :
    self.onWithdrawUnvestedAmount env amount receiverId = .ok r ↔
      env.predecessorAccountId = env.currentAccountId ∧ env.promiseResultsCount = 1 ∧
      if env.promiseResultSuccessful then
        ∃ terminationWithdrawnTokens : U128,
          terminationWithdrawnTokens.val =
            self.lockupInformation.terminationWithdrawnTokens.val + amount.val ∧
          r = (if amount.val < self.getTerminatedUnvestedBalance.val then
              { self with
                lockupInformation := { terminationWithdrawnTokens }
                vestingInformation := .terminating
                  { unvestedAmount := self.getTerminatedUnvestedBalance.saturatingSub amount
                    status := .readyToWithdraw } }
            else
              { self with
                lockupInformation := { terminationWithdrawnTokens }
                foundationAccountId := none
                vestingInformation := .none }, true)
      else
        ∃ t, self.vestingInformation = .terminating t ∧
          r = ({ self with vestingInformation := .terminating { t with status := .readyToWithdraw } },
            false) := by
  simp only [onWithdrawUnvestedAmount, bind_eq_ok, assertSelf_eq_ok,
    isPromiseSuccess_eq_ok, and_assoc, exists_and_left, exists_eq_left, exists_const]
  cases env.promiseResultSuccessful <;>
    simp only [Bool.false_eq_true, ite_true, ite_false, bind_eq_ok, setTerminationStatus_eq_ok,
      U128.add_eq_ok, pure, Except.pure, Except.ok.injEq, exists_exists_and_eq_and, @eq_comm _ r,
      getTerminatedUnvestedBalance_lockup, gt_iff_lt]
  split_ifs <;> simp only [Except.ok.injEq, @eq_comm _ r]
  -- `remaining_balance` is the truncated difference.
  rfl

end Callbacks

end LockupContract

end Lockup

end UncContracts
