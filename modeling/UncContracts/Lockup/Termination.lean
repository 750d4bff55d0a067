import UncContracts.Lockup.FoundationCallbacks
import Mathlib.Logic.Relation

/-!
# Termination callbacks over runs

A step of the lockup is one successful callback, made by any host in any order; a
panicking callback changes nothing and is no step.  `exec_cases` says once what a step
can do, and the invariants follow from it:

* over every run the selected pool stays, its `deposit_amount` never grows, and
  `termination_withdrawn_tokens` and the tokens released to the foundation
  (withdrawn plus still unvested) never shrink; the foundation stays set while the
  vesting is terminating (`termination_progress`);
* when each transfer of unvested tokens is at most what is still unvested, the released
  tokens are conserved, so the foundation receives at most the unvested balance the run
  started with (`unvested_withdrawals_conserved`).
-/

namespace UncContracts

namespace Lockup

/-- A call of one of the callbacks, with its arguments. -/
inductive Callback (AccountId : Type)
  | onGetAccountStakedBalanceToUnstake (staked_balance : U128)
  | onStakingPoolUnstakeForTermination (amount : U128)
  | onGetAccountUnstakedBalanceToWithdraw (unstaked_balance : U128)
  | onStakingPoolWithdrawForTermination (amount : U128)
  | onWithdrawUnvestedAmount (amount : U128) (receiverId : AccountId)
  deriving DecidableEq, Repr

namespace LockupContract

variable {AccountId : Type} [DecidableEq AccountId]

/-- The state a callback leaves. -/
def exec (self : LockupContract AccountId) (env : CallbackEnv AccountId) :
    Callback AccountId → Except String (LockupContract AccountId)
  | .onGetAccountStakedBalanceToUnstake staked_balance =>
    Prod.fst <$> self.onGetAccountStakedBalanceToUnstake env staked_balance
  | .onStakingPoolUnstakeForTermination amount =>
    Prod.fst <$> self.onStakingPoolUnstakeForTermination env amount
  | .onGetAccountUnstakedBalanceToWithdraw unstaked_balance =>
    Prod.fst <$> self.onGetAccountUnstakedBalanceToWithdraw env unstaked_balance
  | .onStakingPoolWithdrawForTermination amount =>
    Prod.fst <$> self.onStakingPoolWithdrawForTermination env amount
  | .onWithdrawUnvestedAmount amount receiverId =>
    Prod.fst <$> self.onWithdrawUnvestedAmount env amount receiverId

/-- One successful callback. -/
def Step (c c' : LockupContract AccountId) : Prop :=
  ∃ env cb, c.exec env cb = .ok c'

/-- A transfer of unvested tokens asks for at most what is still unvested; the other
callbacks are unconstrained. -/
def WithinUnvested (c : LockupContract AccountId) : Callback AccountId → Prop
  | .onWithdrawUnvestedAmount amount _ => amount.val ≤ c.getTerminatedUnvestedBalance.val
  | _ => True

instance (c : LockupContract AccountId) : (cb : Callback AccountId) → Decidable (WithinUnvested c cb)
  | .onWithdrawUnvestedAmount amount _ =>
    inferInstanceAs (Decidable (amount.val ≤ c.getTerminatedUnvestedBalance.val))
  | .onGetAccountStakedBalanceToUnstake _ => isTrue trivial
  | .onStakingPoolUnstakeForTermination _ => isTrue trivial
  | .onGetAccountUnstakedBalanceToWithdraw _ => isTrue trivial
  | .onStakingPoolWithdrawForTermination _ => isTrue trivial

/-- One successful callback whose transfer stays within the unvested balance. -/
def StepWithinUnvested (c c' : LockupContract AccountId) : Prop :=
  ∃ env cb, WithinUnvested c cb ∧ c.exec env cb = .ok c'

/-- The tokens withdrawn on termination. -/
def withdrawn (c : LockupContract AccountId) : Nat :=
  c.lockupInformation.terminationWithdrawnTokens.val

/-- The tokens released to the foundation: withdrawn, or still to withdraw. -/
def released (c : LockupContract AccountId) : Nat :=
  c.withdrawn + c.getTerminatedUnvestedBalance.val

/-- The foundation is set while the vesting is terminating. -/
def FoundationWhileTerminating (c : LockupContract AccountId) : Prop :=
  ∀ t, c.vestingInformation = .terminating t → c.foundationAccountId.isSome

/-- What a run may change: the pool stays, its deposit does not grow, the withdrawn and
released tokens do not shrink. -/
structure Progress (c c' : LockupContract AccountId) : Prop where
  pool_eq : c'.stakingInformation.map StakingInformation.stakingPoolAccountId =
    c.stakingInformation.map StakingInformation.stakingPoolAccountId
  deposit_le : ∀ i i', c.stakingInformation = some i → c'.stakingInformation = some i' →
    i'.depositAmount.val ≤ i.depositAmount.val
  withdrawn_le : c.withdrawn ≤ c'.withdrawn
  released_le : c.released ≤ c'.released

/-! ## What one step can do -/

variable {c c' : LockupContract AccountId}

/-- The two balance queries: a pool call that changes nothing, or the step ends at `next`. -/
theorem onGetAccountBalance_cases {call : PoolCall} {next : TerminationStatus}
    {env : CallbackEnv AccountId} {balance : U128} {r : LockupContract AccountId × PromiseOrValue AccountId}
    (h : c.onGetAccountBalance call next env balance = .ok r) :
    (∃ i, c.stakingInformation = some i ∧
      r = (c, .promise i.stakingPoolAccountId call balance)) ∨
    ∃ i t, c.stakingInformation = some i ∧ c.vestingInformation = .terminating t ∧
      r = ({ c with
        stakingInformation := some { i with status := .idle }
        vestingInformation := .terminating { t with status := next } }, .value true) := by
  obtain ⟨-, i, hi, h⟩ := onGetAccountBalance_eq_ok.mp h
  split_ifs at h
  · exact .inl ⟨i, hi, h⟩
  · obtain ⟨t, ht, rfl⟩ := h
    exact .inr ⟨i, t, hi, ht, rfl⟩

/-- **What a callback can do.**  It leaves the contract as it was (a pool call is
scheduled); or it ends a staking-pool step: the pool `Idle`, the deposit not grown, a
new termination status; or it records a failed transfer of unvested tokens; or a
successful one, which adds `amount` to the withdrawn tokens and lowers the unvested
balance by it, ending the termination when nothing is left. -/
theorem exec_cases {env : CallbackEnv AccountId} {cb : Callback AccountId}
    (h : c.exec env cb = .ok c') :
    c' = c ∨
    (∃ (i : StakingInformation AccountId) (t : TerminationInformation) (d : U128)
      (s : TerminationStatus), c.stakingInformation = some i ∧ c.vestingInformation = .terminating t ∧
      d.val ≤ i.depositAmount.val ∧
      c' = { c with
        stakingInformation := some { i with status := .idle, depositAmount := d }
        vestingInformation := .terminating { t with status := s } }) ∨
    (∃ t, c.vestingInformation = .terminating t ∧
      c' = { c with vestingInformation := .terminating { t with status := .readyToWithdraw } }) ∨
    ∃ (amount : U128) (receiverId : AccountId) (terminationWithdrawnTokens : U128),
      cb = .onWithdrawUnvestedAmount amount receiverId ∧
      terminationWithdrawnTokens.val = c.withdrawn + amount.val ∧
      c' = if amount.val < c.getTerminatedUnvestedBalance.val then
          { c with
            lockupInformation := { terminationWithdrawnTokens }
            vestingInformation := .terminating
              { unvestedAmount := c.getTerminatedUnvestedBalance.saturatingSub amount
                status := .readyToWithdraw } }
        else
          { c with
            lockupInformation := { terminationWithdrawnTokens }
            foundationAccountId := none
            vestingInformation := .none } := by
  cases cb with
  | onGetAccountStakedBalanceToUnstake staked_balance
  | onGetAccountUnstakedBalanceToWithdraw unstaked_balance =>
    obtain ⟨r, hr, rfl⟩ := map_eq_ok.mp h
    rcases onGetAccountBalance_cases hr with ⟨i, -, rfl⟩ | ⟨i, t, hi, ht, rfl⟩
    · exact .inl rfl
    · exact .inr (.inl ⟨i, t, _, _, hi, ht, le_rfl, rfl⟩)
  | onStakingPoolUnstakeForTermination amount =>
    obtain ⟨r, hr, rfl⟩ := map_eq_ok.mp h
    obtain ⟨-, -, i, t, hi, ht, rfl⟩ := onStakingPoolUnstakeForTermination_eq_ok.mp hr
    exact .inr (.inl ⟨i, t, _, _, hi, ht, le_rfl, rfl⟩)
  | onStakingPoolWithdrawForTermination amount =>
    obtain ⟨r, hr, rfl⟩ := map_eq_ok.mp h
    obtain ⟨-, -, i, t, hi, ht, rfl⟩ := onStakingPoolWithdrawForTermination_eq_ok.mp hr
    refine .inr (.inl ⟨i, t, _, _, hi, ht, ?_, rfl⟩)
    split
    · exact Nat.sub_le _ _
    · exact le_rfl
  | onWithdrawUnvestedAmount amount receiverId =>
    obtain ⟨r, hr, rfl⟩ := map_eq_ok.mp h
    obtain ⟨-, -, h⟩ := onWithdrawUnvestedAmount_eq_ok.mp hr
    split at h
    · obtain ⟨w, hw, rfl⟩ := h
      exact .inr (.inr (.inr ⟨amount, receiverId, w, rfl, hw, rfl⟩))
    · obtain ⟨t, ht, rfl⟩ := h
      exact .inr (.inr (.inl ⟨t, ht, rfl⟩))

/-! ## Invariants of one step -/

omit [DecidableEq AccountId] in
theorem unvested_pos_terminating (h : 0 < c.getTerminatedUnvestedBalance.val) :
    ∃ t, c.vestingInformation = .terminating t := by
  unfold getTerminatedUnvestedBalance at h
  split at h
  · exact ⟨_, ‹_›⟩
  · exact absurd h (Nat.lt_irrefl 0)

omit [DecidableEq AccountId] in
theorem unvested_of_terminating {t : TerminationInformation}
    (h : c.vestingInformation = .terminating t) :
    c.getTerminatedUnvestedBalance = t.unvestedAmount := by
  rw [getTerminatedUnvestedBalance, h]

omit [DecidableEq AccountId] in
/-- A step that keeps the staking information. -/
theorem Progress.of_staking_eq (hs : c'.stakingInformation = c.stakingInformation)
    (hw : c.withdrawn ≤ c'.withdrawn) (hr : c.released ≤ c'.released) : Progress c c' where
  pool_eq := by rw [hs]
  deposit_le _ _ h h' := by
    cases h.symm.trans (hs ▸ h')
    exact le_rfl
  withdrawn_le := hw
  released_le := hr

omit [DecidableEq AccountId] in
theorem Progress.refl (c : LockupContract AccountId) : Progress c c :=
  .of_staking_eq rfl le_rfl le_rfl

omit [DecidableEq AccountId] in
theorem Progress.trans {c₁ c₂ c₃ : LockupContract AccountId} (h₁ : Progress c₁ c₂)
    (h₂ : Progress c₂ c₃) : Progress c₁ c₃ where
  pool_eq := h₂.pool_eq.trans h₁.pool_eq
  deposit_le i i'' h h'' := by
    -- The pool stays selected in between.
    obtain ⟨i', h', -⟩ := Option.map_eq_some'.mp (h₁.pool_eq.trans (by rw [h]; rfl))
    exact Nat.le_trans (h₂.deposit_le i' i'' h' h'') (h₁.deposit_le i i' h h')
  withdrawn_le := Nat.le_trans h₁.withdrawn_le h₂.withdrawn_le
  released_le := Nat.le_trans h₁.released_le h₂.released_le

/-- A step never lowers the released tokens, and keeps them when its transfer stays
within the unvested balance. -/
theorem released_exec {env : CallbackEnv AccountId} {cb : Callback AccountId}
    (h : c.exec env cb = .ok c') :
    c.released ≤ c'.released ∧ (WithinUnvested c cb → c'.released = c.released) := by
  rcases exec_cases h with rfl | ⟨i, t, d, s, -, ht, -, rfl⟩ | ⟨t, ht, rfl⟩ |
    ⟨amount, receiverId, w, rfl, hw, rfl⟩
  · exact ⟨le_rfl, fun _ => rfl⟩
  -- A new termination status keeps the unvested balance.
  iterate 2
    have : c.released = c.withdrawn + t.unvestedAmount.val := by
      rw [released, unvested_of_terminating ht]
    exact ⟨Nat.le_of_eq this, fun _ => this.symm⟩
  · simp only [WithinUnvested, released]
    split <;> simp only [withdrawn, hw, getTerminatedUnvestedBalance_terminating,
      getTerminatedUnvestedBalance_none, U128.val_saturatingSub, Fin.val_zero] <;> omega

theorem progress_exec {env : CallbackEnv AccountId} {cb : Callback AccountId}
    (h : c.exec env cb = .ok c') : Progress c c' := by
  have hreleased := (released_exec h).1
  rcases exec_cases h with rfl | ⟨i, t, d, s, hi, -, hd, rfl⟩ | ⟨t, -, rfl⟩ |
    ⟨amount, receiverId, w, -, hw, rfl⟩
  · exact Progress.refl _
  · refine ⟨by rw [hi]; rfl, fun i₀ i' h₀ h' => ?_, le_rfl, hreleased⟩
    cases hi.symm.trans h₀
    cases h'
    exact hd
  · exact .of_staking_eq rfl le_rfl hreleased
  · have hwithdrawn : c.withdrawn ≤ w.val := by omega
    by_cases hlt : amount.val < c.getTerminatedUnvestedBalance.val <;>
      simp only [hlt, if_true, if_false] at hreleased ⊢ <;>
      exact .of_staking_eq rfl hwithdrawn hreleased

theorem foundationWhileTerminating_exec {env : CallbackEnv AccountId} {cb : Callback AccountId}
    (hf : FoundationWhileTerminating c) (h : c.exec env cb = .ok c') :
    FoundationWhileTerminating c' := by
  rcases exec_cases h with rfl | ⟨i, t, d, s, -, ht, -, rfl⟩ | ⟨t, ht, rfl⟩ |
    ⟨amount, receiverId, w, -, -, rfl⟩
  · exact hf
  · exact fun _ _ => hf t ht
  · exact fun _ _ => hf t ht
  · split
    · -- Some tokens were still unvested, so the vesting was terminating.
      obtain ⟨t, ht⟩ := unvested_pos_terminating (c := c) (by omega)
      exact fun _ _ => hf t ht
    · exact fun _ h => nomatch h

/-! ## Runs -/

theorem progress_of_reachable (h : Relation.ReflTransGen Step c c') : Progress c c' := by
  induction h with
  | refl => exact Progress.refl c
  | tail _ hstep ih =>
    obtain ⟨env, cb, h⟩ := hstep
    exact ih.trans (progress_exec h)

theorem foundationWhileTerminating_of_reachable (h : Relation.ReflTransGen Step c c')
    (hf : FoundationWhileTerminating c) : FoundationWhileTerminating c' := by
  induction h with
  | refl => exact hf
  | tail _ hstep ih =>
    obtain ⟨env, cb, h⟩ := hstep
    exact foundationWhileTerminating_exec ih h

theorem step_of_stepWithinUnvested (h : StepWithinUnvested c c') : Step c c' :=
  let ⟨env, cb, _, h⟩ := h
  ⟨env, cb, h⟩

theorem released_of_reachable_within (h : Relation.ReflTransGen StepWithinUnvested c c') :
    c'.released = c.released := by
  induction h with
  | refl => rfl
  | tail _ hstep ih =>
    obtain ⟨env, cb, hw, h⟩ := hstep
    exact ((released_exec h).2 hw).trans ih

/-! ## A termination run -/

/-- A lockup withdrawing from pool `7` (5 deposited) during a termination with 10 tokens
unvested and 3 withdrawn; the foundation is `1`. -/
def terminatingLockup : LockupContract Nat where
  lockupInformation := ⟨3⟩
  vestingInformation := .terminating ⟨10, .withdrawingFromStakingPoolInProgress⟩
  stakingInformation := some ⟨7, .busy, 5⟩
  foundationAccountId := some 1

/-- The lockup `0` called back by itself after a successful promise. -/
def succeededCallbackEnv : CallbackEnv Nat := ⟨0, 0, 1, true⟩

/-- The pool returns 4 of the deposit, then 6 unvested tokens go to the foundation. -/
theorem terminatingLockup_run :
    Relation.ReflTransGen StepWithinUnvested terminatingLockup
      ⟨⟨9⟩, .terminating ⟨4, .readyToWithdraw⟩, some ⟨7, .idle, 1⟩, some 1⟩ :=
  .tail (.single ⟨succeededCallbackEnv, .onStakingPoolWithdrawForTermination 4, trivial, rfl⟩)
    ⟨succeededCallbackEnv, .onWithdrawUnvestedAmount 6 1, by decide, rfl⟩

/-! ## Main results -/

/-- **Termination progress.**  Over every run of callbacks, made in any order with any
results: the selected pool stays, its `deposit_amount` never grows,
`termination_withdrawn_tokens` and the released tokens never shrink, and the foundation
stays set while the vesting is terminating. -/
theorem termination_progress {c c' : LockupContract AccountId}
    (h : Relation.ReflTransGen Step c c') :
    Progress c c' ∧ (FoundationWhileTerminating c → FoundationWhileTerminating c') :=
  ⟨progress_of_reachable h, foundationWhileTerminating_of_reachable h⟩

/-- After the run the deposit is down to 1 and the pool idle. -/
theorem termination_progress_two_steps :
    Progress terminatingLockup
      ⟨⟨9⟩, .terminating ⟨4, .readyToWithdraw⟩, some ⟨7, .idle, 1⟩, some 1⟩ :=
  (termination_progress
    (terminatingLockup_run.mono fun _ _ => step_of_stepWithinUnvested)).1

/-- **Unvested withdrawals are conserved.**  Over every run in which each transfer of
unvested tokens asks for at most what is still unvested, the withdrawn plus the unvested
tokens stay constant, so at most the unvested balance the run started with is
withdrawn. -/
theorem unvested_withdrawals_conserved {c c' : LockupContract AccountId}
    (h : Relation.ReflTransGen StepWithinUnvested c c') :
    c'.released = c.released ∧
      c'.withdrawn ≤ c.withdrawn + c.getTerminatedUnvestedBalance.val := by
  have hr := released_of_reachable_within h
  refine ⟨hr, ?_⟩
  unfold released at hr
  omega

/-- After the run 9 tokens are withdrawn and 4 still unvested: 13 released, as before. -/
theorem unvested_withdrawals_conserved_two_steps :
    released
      (⟨⟨9⟩, .terminating ⟨4, .readyToWithdraw⟩, some ⟨7, .idle, 1⟩, some 1⟩ : LockupContract Nat) =
      terminatingLockup.released :=
  (unvested_withdrawals_conserved terminatingLockup_run).1

end LockupContract

end Lockup

end UncContracts
