import UncContracts.LockupFactory
import UncContracts.Lockup.FoundationCallbacks

/-!
# The lockup factory's create exchange

`create` does not create the lockup: it returns a promise.  A batch of actions goes to
the new account (create it, deploy the lockup contract, transfer the attached deposit,
call the lockup's `new`), and after it `on_lockup_create` runs on the factory with the
lockup's id, the deposit and the caller.  The callback returns `true` when the batch
succeeded.  When the batch failed, the host has returned its deposit to the factory, and
the callback refunds that deposit to the caller.  `assert_self` keeps every other account
out of the callback.

The host runs the exchange as receipts in flight (`FactoryWorld.Step`): a `create` call
takes its caller's deposit and sends the batch; the batch succeeds (the deposit lands on
the lockup) or fails (it comes back to the factory); the callback runs with that result;
and any other account may call `on_lockup_create` directly.  Over every interleaving of
these, from a factory with nothing in flight:

    factory_balance_conserved : the factory holds its own balance plus the deposits of
      failed creations whose callback has not run; each batch carries the deposit its
      callback would refund, and each refund is owed to the account that paid it

`create` (in `LockupFactory`) checks the deposit and names the lockup account;
`createPromise` is the whole of what `create` returns.
-/

namespace UncContracts

open Sdk

instance : DecidableEq AccountId := fun a b =>
  decidable_of_iff (a.chars = b.chars)
    ⟨fun h => by cases a; cases b; cases h; rfl, fun h => h ▸ rfl⟩

/-! ## Algorithm -/

/-- The vesting schedule of a lockup (a type of the lockup contract). -/
structure VestingSchedule where
  startTimestamp : U64
  cliffTimestamp : U64
  endTimestamp : U64

/-- The schedule, or a hash of it with a salt, which hides it until it is revealed. -/
inductive VestingScheduleOrHash
  | vestingSchedule (vestingSchedule : VestingSchedule)
  | vestingHash (hash : List UInt8)

inductive TransfersInformation
  | transfersEnabled (transfersTimestamp : U64)
  | transfersDisabled (transfer_poll_account_id : AccountId)

/-- The arguments of the lockup contract's `new`. -/
structure LockupArgs where
  ownerAccountId : AccountId
  lockupDuration : U64
  lockupTimestamp : Option U64
  transfersInformation : TransfersInformation
  vestingSchedule : Option VestingScheduleOrHash
  releaseDuration : Option U64
  stakingPoolWhitelistAccountId : AccountId
  foundationAccountId : Option AccountId

/-- There is no deposit balance attached. -/
def noDeposit : U128 := 0

/-- 13 October 2020 18:38:58.293. -/
def transfersStarted : U64 := 1602614338293769340

namespace gas

/-- The base amount of gas for a regular execution. -/
def base : Nat := 25000000000000

/-- The gas attached to the promise that creates the lockup. -/
def lockupNew : Nat := base

/-- The gas attached to the callback to itself. -/
def callback : Nat := base

end gas

/-- The actions of the batch `create` sends; `DeployContract` deploys the lockup
contract's code, a constant of the build. -/
inductive Action
  | createAccount
  | deployContract
  | transfer (deposit : U128)
  | functionCall (methodName : String) (args : LockupArgs) (deposit : U128) (gas : Nat)

/-- What an action attaches. -/
def Action.deposit : Action → Nat
  | .transfer deposit => deposit.val
  | .functionCall _ _ deposit _ => deposit.val
  | _ => 0

/-- The call of `on_lockup_create` on the factory that follows the batch. -/
structure OnLockupCreate where
  receiverId : AccountId
  gas : Nat
  deposit : U128
  lockupAccountId : AccountId
  attachedDeposit : U128
  predecessorAccountId : AccountId

/-- `Promise::new(receiver_id)` with its batch of actions, `.then` the callback. -/
structure Promise where
  receiverId : AccountId
  actions : List Action
  callback : OnLockupCreate

/-- What the batch attaches, taken from the factory's balance when it is sent. -/
def Promise.deposit (p : Promise) : Nat := (p.actions.map Action.deposit).sum

/-- The host as a `create` call sees it: the factory's environment and its caller. -/
structure CreateEnv extends FactoryEnv where
  predecessorAccountId : AccountId

namespace LockupFactory

/-- `create`: after the deposit check and the lockup's name (`create`), the promise that
creates the lockup and then calls back `on_lockup_create`. -/
def createPromise (self : LockupFactory) (env : CreateEnv) (ownerAccountId : AccountId)
    (lockupDuration : U64) (lockupTimestamp : Option U64)
    (vestingSchedule : Option VestingScheduleOrHash) (releaseDuration : Option U64)
    (whitelistAccountId : Option AccountId) : Except String Promise := do
  let lockupAccountId ← create env.toFactoryEnv ownerAccountId
  let foundation_account :=
    if vestingSchedule.isSome then some self.foundationAccountId else none
  -- Defaults to the whitelist account ID given on init call.
  let stakingPoolWhitelistAccountId := whitelistAccountId.getD self.whitelistAccountId
  let transfers_enabled := transfersStarted
  pure
    { receiverId := lockupAccountId
      actions := [.createAccount, .deployContract, .transfer env.attachedDeposit,
        .functionCall "new"
          { ownerAccountId
            lockupDuration
            lockupTimestamp
            transfersInformation := .transfersEnabled transfers_enabled
            vestingSchedule
            releaseDuration
            stakingPoolWhitelistAccountId
            foundationAccountId := foundation_account }
          noDeposit gas.lockupNew]
      callback :=
        { receiverId := env.currentAccountId
          gas := gas.callback
          deposit := noDeposit
          lockupAccountId
          attachedDeposit := env.attachedDeposit
          predecessorAccountId := env.predecessorAccountId } }

/-- Callback after a lockup was created: `true` if the creation succeeded; otherwise the
attached deposit is refunded to the caller, `Promise::new(predecessor_account_id)
.transfer(attached_deposit)`, and `false`.  The lockup's id is only logged. -/
def onLockupCreate (env : Lockup.CallbackEnv AccountId) (_lockupAccountId : AccountId)
    (attachedDeposit : U128) (predecessorAccountId : AccountId) :
    Except String (Bool × Option (AccountId × U128)) := do
  Lockup.assertSelf env
  let lockup_account_created ← Lockup.isPromiseSuccess env
  if lockup_account_created then pure (true, none)
  else pure (false, some (predecessorAccountId, attachedDeposit))

end LockupFactory

/-! ## The host -/

/-- A receipt of the exchange in flight, with the account that paid the deposit it
stands for (the host's record). -/
inductive Receipt
  /-- The batch `create` sent to the lockup account, its callback waiting on it. -/
  | batch (promise : Promise) (payer : AccountId)
  /-- The callback, with the batch's result. -/
  | callback (call : OnLockupCreate) (success : Bool) (payer : AccountId)

/-- The accounts' balances and the receipts in flight. -/
structure FactoryWorld where
  balance : AccountId → Nat
  receipts : List Receipt

def credit (balance : AccountId → Nat) (a : AccountId) (amount : Nat) : AccountId → Nat :=
  Function.update balance a (balance a + amount)

def debit (balance : AccountId → Nat) (a : AccountId) (amount : Nat) : AccountId → Nat :=
  Function.update balance a (balance a - amount)

/-- The host's environment for a callback receipt: sent by the factory to
`call.receiver_id`, with the batch's result as its one promise result. -/
def callbackEnv (factory_id : AccountId) (call : OnLockupCreate) (success : Bool) :
    Lockup.CallbackEnv AccountId :=
  ⟨factory_id, call.receiverId, 1, success⟩

/-- The balances after `on_lockup_create` ran: its refund is paid from the factory; a
panic changes nothing. -/
def payRefund (factory_id : AccountId) (balance : AccountId → Nat) :
    Except String (Bool × Option (AccountId × U128)) → AccountId → Nat
  | .ok (_, some (receiver, amount)) =>
    credit (debit balance factory_id amount.val) receiver amount.val
  | _ => balance

/-- One step of the exchange at the factory `factory_id`. -/
inductive FactoryWorld.Step (self : LockupFactory) (factory_id : AccountId) :
    FactoryWorld → FactoryWorld → Prop
  /-- An account calls `create`: its deposit goes to the factory, and the batch takes the
  batch's deposit from the factory.  A `create` that panics is rolled back. -/
  | create (balance : AccountId → Nat) (receipts : List Receipt) (env : CreateEnv)
      (ownerAccountId : AccountId) (lockupDuration : U64) (lockupTimestamp : Option U64)
      (vestingSchedule : Option VestingScheduleOrHash) (releaseDuration : Option U64)
      (whitelistAccountId : Option AccountId) (p : Promise)
      (hcurrent : env.currentAccountId = factory_id)
      (hcaller : env.predecessorAccountId ≠ factory_id)
      (hpaid : env.attachedDeposit.val ≤ balance env.predecessorAccountId)
      (h : self.createPromise env ownerAccountId lockupDuration lockupTimestamp
        vestingSchedule releaseDuration whitelistAccountId = .ok p) :
      Step self factory_id ⟨balance, receipts⟩
        ⟨debit (credit (debit balance env.predecessorAccountId env.attachedDeposit.val)
            factory_id env.attachedDeposit.val) factory_id p.deposit,
          .batch p env.predecessorAccountId :: receipts⟩
  /-- The batch succeeds: its deposit lands on the lockup account. -/
  | batch_ok (balance : AccountId → Nat) (pre post : List Receipt) (p : Promise)
      (payer : AccountId) :
      Step self factory_id ⟨balance, pre ++ .batch p payer :: post⟩
        ⟨credit balance p.receiverId p.deposit, pre ++ .callback p.callback true payer :: post⟩
  /-- The batch fails: its deposit is refunded to its sender, the factory. -/
  | batch_fail (balance : AccountId → Nat) (pre post : List Receipt) (p : Promise)
      (payer : AccountId) :
      Step self factory_id ⟨balance, pre ++ .batch p payer :: post⟩
        ⟨credit balance factory_id p.deposit, pre ++ .callback p.callback false payer :: post⟩
  /-- The callback runs with the batch's result. -/
  | callback (balance : AccountId → Nat) (pre post : List Receipt) (call : OnLockupCreate)
      (success : Bool) (payer : AccountId) :
      Step self factory_id ⟨balance, pre ++ .callback call success payer :: post⟩
        ⟨payRefund factory_id balance (LockupFactory.onLockupCreate
            (callbackEnv factory_id call success) call.lockupAccountId call.attachedDeposit
            call.predecessorAccountId),
          pre ++ post⟩
  /-- Another account calls `on_lockup_create` directly, with any arguments and any
  promise results. -/
  | direct (balance : AccountId → Nat) (receipts : List Receipt)
      (env : Lockup.CallbackEnv AccountId) (lockupAccountId : AccountId)
      (attachedDeposit : U128) (predecessorAccountId : AccountId)
      (hcurrent : env.currentAccountId = factory_id)
      (hother : env.predecessorAccountId ≠ factory_id) :
      Step self factory_id ⟨balance, receipts⟩
        ⟨payRefund factory_id balance (LockupFactory.onLockupCreate env lockupAccountId
            attachedDeposit predecessorAccountId),
          receipts⟩

/-- The refund a receipt stands for: the deposit of a failed batch, until its callback
has run. -/
def Receipt.owed : Receipt → Nat
  | .batch _ _ => 0
  | .callback call success _ => if success then 0 else call.attachedDeposit.val

/-- A receipt as `create` sent it: the batch carries the deposit its callback would
refund, the refund is owed to the payer, and the callback runs on the factory. -/
def Receipt.Consistent (factory_id : AccountId) : Receipt → Prop
  | .batch p payer => p.deposit = p.callback.attachedDeposit.val ∧
      p.callback.predecessorAccountId = payer ∧ payer ≠ factory_id ∧
      p.receiverId ≠ factory_id ∧ p.callback.receiverId = factory_id
  | .callback call _ payer => call.predecessorAccountId = payer ∧ payer ≠ factory_id ∧
      call.receiverId = factory_id

/-- The factory holds `B` and the refunds it owes, and every receipt is as `create`
sent it. -/
def FactoryWorld.Holds (factory_id : AccountId) (B : Nat) (w : FactoryWorld) : Prop :=
  w.balance factory_id = B + (w.receipts.map Receipt.owed).sum ∧
    ∀ r ∈ w.receipts, r.Consistent factory_id

/-! ## Lemmas -/

section Balances

variable (balance : AccountId → Nat) {a b : AccountId} (amount : Nat)

@[simp] theorem credit_self : credit balance a amount a = balance a + amount :=
  Function.update_same _ _ _

@[simp] theorem credit_ne (h : b ≠ a) : credit balance a amount b = balance b :=
  Function.update_noteq h _ _

@[simp] theorem debit_self : debit balance a amount a = balance a - amount :=
  Function.update_same _ _ _

@[simp] theorem debit_ne (h : b ≠ a) : debit balance a amount b = balance b :=
  Function.update_noteq h _ _

end Balances

theorem parse_chars {s : List Char} {id : AccountId} (h : parse s = .ok id) : id.chars = s := by
  unfold parse at h
  split at h
  · cases h
    rfl
  · cases h

theorem unwrap_eq_ok {α : Type} {x : Except ParseAccountError α} {a : α} :
    unwrap x = .ok a ↔ x = .ok a := by
  cases x <;> simp [unwrap]

namespace LockupFactory

/-- The lockup account is a sub-account of the factory, so never the factory itself. -/
theorem create_ne_current {env : FactoryEnv} {ownerAccountId lockupAccountId : AccountId}
    (h : create env ownerAccountId = .ok lockupAccountId) :
    lockupAccountId ≠ env.currentAccountId := by
  simp only [create, bind_eq_ok, require_eq_ok, unwrap_eq_ok, pure, Except.pure,
    Except.ok.injEq] at h
  obtain ⟨-, -, id, hparse, rfl⟩ := h
  intro heq
  have hlen := congrArg List.length ((parse_chars hparse).symm.trans (congrArg AccountId.chars heq))
  simp only [List.length_append, List.length_cons] at hlen
  omega

/-- What `create` sends: the batch to the lockup account with the attached deposit, and
the callback to the factory with that deposit and the caller. -/
theorem createPromise_eq_ok {self : LockupFactory} {env : CreateEnv}
    {ownerAccountId : AccountId} {lockupDuration : U64} {lockupTimestamp : Option U64}
    {vestingSchedule : Option VestingScheduleOrHash} {releaseDuration : Option U64}
    {whitelistAccountId : Option AccountId} {p : Promise}
    (h : self.createPromise env ownerAccountId lockupDuration lockupTimestamp
      vestingSchedule releaseDuration whitelistAccountId = .ok p) :
    p.deposit = env.attachedDeposit.val ∧ p.receiverId ≠ env.currentAccountId ∧
      p.callback.receiverId = env.currentAccountId ∧
      p.callback.attachedDeposit = env.attachedDeposit ∧
      p.callback.predecessorAccountId = env.predecessorAccountId := by
  obtain ⟨id, hid, hp⟩ := bind_eq_ok.mp h
  cases hp
  exact ⟨by simp [Promise.deposit, Action.deposit, noDeposit], create_ne_current hid, rfl, rfl,
    rfl⟩

theorem onLockupCreate_eq_ok {env : Lockup.CallbackEnv AccountId}
    {lockupAccountId : AccountId} {attachedDeposit : U128} {predecessorAccountId : AccountId}
    {r : Bool × Option (AccountId × U128)} :
    onLockupCreate env lockupAccountId attachedDeposit predecessorAccountId = .ok r ↔
      env.predecessorAccountId = env.currentAccountId ∧ env.promiseResultsCount = 1 ∧
      r = if env.promiseResultSuccessful then (true, none)
        else (false, some (predecessorAccountId, attachedDeposit)) := by
  simp only [onLockupCreate, bind_eq_ok, Lockup.LockupContract.assertSelf_eq_ok,
    Lockup.LockupContract.isPromiseSuccess_eq_ok]
  constructor
  · rintro ⟨-, hself, b, ⟨hcount, rfl⟩, h⟩
    refine ⟨hself, hcount, ?_⟩
    split_ifs at h ⊢ <;> exact (Except.ok.inj h).symm
  · rintro ⟨hself, hcount, rfl⟩
    exact ⟨(), hself, _, ⟨hcount, rfl⟩, by split_ifs <;> rfl⟩

end LockupFactory

/-- Only the factory's own callback gets past `assert_self`: a direct call by another
account pays nothing. -/
theorem payRefund_direct {factory_id : AccountId} {balance : AccountId → Nat}
    {env : Lockup.CallbackEnv AccountId} {lockupAccountId : AccountId} {attachedDeposit : U128}
    {predecessorAccountId : AccountId} (hcurrent : env.currentAccountId = factory_id)
    (hother : env.predecessorAccountId ≠ factory_id) :
    payRefund factory_id balance (LockupFactory.onLockupCreate env lockupAccountId
      attachedDeposit predecessorAccountId) = balance := by
  cases hr : LockupFactory.onLockupCreate env lockupAccountId attachedDeposit
      predecessorAccountId with
  | error => rfl
  | ok r => exact absurd ((LockupFactory.onLockupCreate_eq_ok.mp hr).1.trans hcurrent) hother

/-- The factory's callback pays back exactly the deposit of a failed batch, to its payer. -/
theorem payRefund_callback {factory_id : AccountId} {balance : AccountId → Nat}
    {call : OnLockupCreate} {success : Bool} (hreceiver : call.receiverId = factory_id) :
    payRefund factory_id balance (LockupFactory.onLockupCreate (callbackEnv factory_id call success)
        call.lockupAccountId call.attachedDeposit call.predecessorAccountId) =
      if success then balance
      else credit (debit balance factory_id call.attachedDeposit.val) call.predecessorAccountId
        call.attachedDeposit.val := by
  have hr : LockupFactory.onLockupCreate (callbackEnv factory_id call success)
      call.lockupAccountId call.attachedDeposit call.predecessorAccountId =
      .ok (if success then (true, none)
        else (false, some (call.predecessorAccountId, call.attachedDeposit))) :=
    LockupFactory.onLockupCreate_eq_ok.mpr ⟨hreceiver.symm, rfl, rfl⟩
  rw [hr]
  cases success <;> rfl

/-- A step that replaces one receipt by a consistent one keeps every receipt consistent. -/
theorem Receipt.consistent_replace {factory_id : AccountId} {pre post : List Receipt}
    {r r' : Receipt} (hcons : ∀ x ∈ pre ++ r :: post, x.Consistent factory_id)
    (h : r'.Consistent factory_id) : ∀ x ∈ pre ++ r' :: post, x.Consistent factory_id := by
  intro x hx
  simp only [List.mem_append, List.mem_cons] at hx
  rcases hx with hx | rfl | hx
  · exact hcons x (by simp [hx])
  · exact h
  · exact hcons x (by simp [hx])

/-- **One step.** -/
theorem FactoryWorld.holds_step {self : LockupFactory} {factory_id : AccountId} {B : Nat}
    {w w' : FactoryWorld} (hw : w.Holds factory_id B) (hstep : FactoryWorld.Step self factory_id w w') :
    w'.Holds factory_id B := by
  obtain ⟨hbal, hcons⟩ := hw
  cases hstep with
  | create balance receipts env _ _ _ _ _ _ p hcurrent hcaller _ h =>
    obtain ⟨hdep, hrecv, hcb, hatt, hpred⟩ := LockupFactory.createPromise_eq_ok h
    refine ⟨?_, ?_⟩
    · simp only [List.map_cons, List.sum_cons, Receipt.owed] at hbal ⊢
      rw [debit_self, credit_self, debit_ne _ _ (Ne.symm hcaller)]
      omega
    · intro r hr
      rcases List.mem_cons.mp hr with rfl | hr
      · exact ⟨by rw [hdep, hatt], hpred, hcaller, hcurrent ▸ hrecv, hcurrent ▸ hcb⟩
      · exact hcons r hr
  | batch_ok balance pre post p payer =>
    obtain ⟨-, hpred, hpayer, hrecv, hcb⟩ := hcons (.batch p payer) (by simp)
    refine ⟨?_, Receipt.consistent_replace hcons ⟨hpred, hpayer, hcb⟩⟩
    simp only [List.map_append, List.map_cons, List.sum_append, List.sum_cons, Receipt.owed,
      if_true] at hbal ⊢
    rw [credit_ne _ _ (Ne.symm hrecv)]
    omega
  | batch_fail balance pre post p payer =>
    obtain ⟨hdep, hpred, hpayer, -, hcb⟩ := hcons (.batch p payer) (by simp)
    refine ⟨?_, Receipt.consistent_replace hcons ⟨hpred, hpayer, hcb⟩⟩
    simp only [List.map_append, List.map_cons, List.sum_append, List.sum_cons, Receipt.owed,
      Bool.false_eq_true, if_false] at hbal ⊢
    rw [credit_self]
    omega
  | callback balance pre post call success payer =>
    obtain ⟨hpred, hpayer, hcb⟩ := hcons (.callback call success payer) (by simp)
    refine ⟨?_, fun r hr => hcons r (by simp only [List.mem_append, List.mem_cons] at hr ⊢; tauto)⟩
    simp only [List.map_append, List.map_cons, List.sum_append, List.sum_cons, Receipt.owed]
      at hbal ⊢
    rw [payRefund_callback hcb]
    cases success
    · simp only [Bool.false_eq_true, if_false] at hbal ⊢
      rw [credit_ne _ _ (by rw [hpred]; exact Ne.symm hpayer), debit_self]
      omega
    · simp only [if_true] at hbal ⊢
      omega
  | direct balance receipts env _ _ _ hcurrent hother =>
    exact ⟨(payRefund_direct hcurrent hother).symm ▸ hbal, hcons⟩

/-- **A run.** -/
theorem FactoryWorld.holds_of_reachable {self : LockupFactory} {factory_id : AccountId} {B : Nat}
    {w w' : FactoryWorld} (hw : w.Holds factory_id B)
    (h : Relation.ReflTransGen (FactoryWorld.Step self factory_id) w w') :
    w'.Holds factory_id B := by
  induction h with
  | refl => exact hw
  | tail _ hstep ih => exact FactoryWorld.holds_step ih hstep

/-- **No deposit is kept or paid twice.**  From a factory with nothing in flight, over
every interleaving of `create` calls, batch results, callbacks and direct calls of
`on_lockup_create` by other accounts: the factory holds its starting balance plus the
deposits of failed creations whose callback has not run; every batch in flight carries
the deposit its callback would refund; and every refund is owed to the account that paid
the deposit. -/
theorem factory_balance_conserved (self : LockupFactory) (factory_id : AccountId)
    {w₀ w : FactoryWorld} (hidle : w₀.receipts = [])
    (hreach : Relation.ReflTransGen (FactoryWorld.Step self factory_id) w₀ w) :
    w.balance factory_id = w₀.balance factory_id + (w.receipts.map Receipt.owed).sum ∧
    (∀ p payer, .batch p payer ∈ w.receipts →
      p.deposit = p.callback.attachedDeposit.val ∧ p.callback.predecessorAccountId = payer) ∧
    ∀ call success payer, .callback call success payer ∈ w.receipts →
      call.predecessorAccountId = payer := by
  have hw := FactoryWorld.holds_of_reachable (B := w₀.balance factory_id)
    ⟨by simp [hidle], by simp [hidle]⟩ hreach
  exact ⟨hw.1, fun p payer hr => ⟨(hw.2 _ hr).1, (hw.2 _ hr).2.1⟩,
    fun call success payer hr => (hw.2 _ hr).1⟩

/-- The factory `lockup.unc`, with `owner` as whitelist and foundation. -/
def ownerFactory : LockupFactory := ⟨ownerAccountId, ownerAccountId⟩

/-- `owner` calls `create` on `lockup.unc` with 35 UNC attached. -/
def ownerCreateEnv : CreateEnv :=
  { toFactoryEnv := factoryCreateEnv
    predecessorAccountId := ownerAccountId }

/-- Every account holds 35 UNC; nothing is in flight. -/
def mintedWorld : FactoryWorld := ⟨fun _ => 35000000000000000000000000, []⟩

/-- `owner` creates a lockup, the batch fails and the callback refunds the deposit: the
factory ends with the balance it started with. -/
theorem factory_balance_conserved_failed_create :
    ∃ w : FactoryWorld,
      Relation.ReflTransGen (FactoryWorld.Step ownerFactory factoryCreateEnv.currentAccountId)
        mintedWorld w ∧
      w.receipts = [] ∧
      w.balance factoryCreateEnv.currentAccountId =
        mintedWorld.balance factoryCreateEnv.currentAccountId := by
  obtain ⟨p, h⟩ := exists_eq_ok_of_toBool
    (x := ownerFactory.createPromise ownerCreateEnv ownerAccountId 0 none none none none) (by decide)
  have hrun : Relation.ReflTransGen
      (FactoryWorld.Step ownerFactory factoryCreateEnv.currentAccountId) mintedWorld
      ⟨payRefund factoryCreateEnv.currentAccountId
          (credit (debit (credit (debit mintedWorld.balance ownerAccountId 35000000000000000000000000)
            factoryCreateEnv.currentAccountId 35000000000000000000000000)
            factoryCreateEnv.currentAccountId p.deposit)
            factoryCreateEnv.currentAccountId p.deposit)
          (LockupFactory.onLockupCreate
            (callbackEnv factoryCreateEnv.currentAccountId p.callback false)
            p.callback.lockupAccountId p.callback.attachedDeposit
            p.callback.predecessorAccountId),
        [] ++ []⟩ :=
    .tail (.tail (.single (.create _ _ ownerCreateEnv ownerAccountId 0 none none none none p rfl
      (by decide) (Nat.le_refl _) h)) (.batch_fail _ [] [] p ownerAccountId))
      (.callback _ [] [] p.callback false ownerAccountId)
  exact ⟨_, hrun, rfl,
    (factory_balance_conserved ownerFactory factoryCreateEnv.currentAccountId rfl hrun).1⟩

end UncContracts
