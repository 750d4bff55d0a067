import UncContracts.Shares

/-!
# The host's balance: rewards are its growth, never deposits

The host holds the pool account's balance `B = locked + liquid`.  Between calls
it credits validator rewards.  In a call it reports the balance with the attached
deposit already added, the contract runs `internal_ping` and then the call's
internal method, and the host pays out what `internal_withdraw` transfers.  A call
that panics is rolled back and its deposit returned: to the ledger it is a reward
credit alone.

Three ghost counters follow the rewards: `pending`, credited since the last call
whose `internal_ping` ran its reward logic; `distributed`, the sum of the
`total_reward`s `internal_ping` computed; `credited`, all rewards credited.

    accounted_step : Accounted h → HostStep N h h' → Accounted h'
    accounted_of_reachable : Accounted h₀ → ReflTransGen (HostStep N) h₀ h → Accounted h

where `Accounted h` is `B = last_total_balance + pending` and
`distributed + pending = credited`.  From it, the balance `internal_ping` reads is
never below `last_total_balance`.
-/

namespace UncContracts

variable {AccountId : Type} [DecidableEq AccountId]

/-- The contract with the host around it. -/
structure Host (AccountId : Type) where
  contract : StakingContract AccountId
  /-- `locked + liquid` of the pool's account. -/
  balance : Nat
  /-- Ghost: rewards credited since the last call that ran the reward logic. -/
  pending : Nat
  /-- Ghost: the sum of the `total_reward`s of `internal_ping`. -/
  distributed : Nat
  /-- Ghost: the sum of the rewards credited. -/
  credited : Nat

/-- The host before any call, the contract having accounted the whole balance. -/
def Host.init (c : StakingContract AccountId) : Host AccountId :=
  ⟨c, c.lastTotalBalance.val, 0, 0, 0⟩

/-- What the host transfers out after a successful call: a withdrawal. -/
def Op.transferred : Op → Nat
  | .withdraw amount => amount.val
  | _ => 0

/-- The deposit a call's internal method accounts for. -/
def Op.deposited (env : Env AccountId) : Op → Nat
  | .deposit => env.attachedDeposit.val
  | _ => 0

/-- One step of the host.  The reward is credited before the call; the call's
environment reports `B + reward` plus the attached deposit, which is zero unless the
call deposits. -/
inductive HostStep (N : U64) : Host AccountId → Host AccountId → Prop
  | call (h : Host AccountId) (reward : Nat) (env : Env AccountId) (op : Op) (pinged : Bool)
      (c₁ c' : StakingContract AccountId)
      (hbalance : env.accountLockedBalance.val + env.accountBalance.val =
        h.balance + reward + env.attachedDeposit.val)
      (hfit : h.balance + reward + env.attachedDeposit.val ≤ 2 ^ 128 - 1)
      (hdeposit : env.attachedDeposit.val = op.deposited env)
      (hping : h.contract.internalPing env = .ok (pinged, c₁))
      (hop : exec N c₁ env op = .ok c')
      (hwithdraw : op.transferred ≤ c₁.lastTotalBalance.val) :
      HostStep N h
        { contract := c'
          balance := h.balance + reward + env.attachedDeposit.val - op.transferred
          pending := if pinged then 0 else h.pending + reward
          distributed := h.distributed +
            if pinged then env.totalBalance.val - h.contract.lastTotalBalance.val else 0
          credited := h.credited + reward }
  | reward (h : Host AccountId) (reward : Nat) :
      HostStep N h { h with
        balance := h.balance + reward
        pending := h.pending + reward
        credited := h.credited + reward }

/-- The balance the contract has not accounted is the pending reward, and every reward
credited is distributed or pending. -/
def Accounted (h : Host AccountId) : Prop :=
  h.balance = h.contract.lastTotalBalance.val + h.pending ∧
    h.distributed + h.pending = h.credited

namespace StakingContract

variable {c c₁ c' : StakingContract AccountId} {env : Env AccountId} {N : U64}

theorem pingReward_last {r : U128} (h : c.pingReward r = .ok c') :
    c'.lastEpochHeight = c.lastEpochHeight ∧ c'.lastTotalBalance = c.lastTotalBalance := by
  obtain ⟨-, n, -, rfl⟩ := (pingReward_eq_ok c rfl rfl).mp h
  split_ifs <;> simp

/-- What `internal_ping` does to the two fields the host reads: the epoch is the
call's, and `last_total_balance` is the reported balance if the reward logic ran
(whose assertion then held). -/
theorem internalPing_last {b : Bool} (h : c.internalPing env = .ok (b, c₁)) :
    c₁.lastEpochHeight = env.epochHeight ∧
      (b = false ∧ c₁.lastTotalBalance = c.lastTotalBalance ∨
        b = true ∧ c.lastTotalBalance.val ≤ env.totalBalance.val ∧
          c₁.lastTotalBalance = env.totalBalance) := by
  rcases internalPing_cases c env h with ⟨rfl, rfl, he⟩ | ⟨rfl, -, hle, c₂, h₂ | rfl, rfl⟩
  · exact ⟨he, .inl ⟨rfl, rfl⟩⟩
  · exact ⟨(pingReward_last h₂).1, .inr ⟨rfl, hle, rfl⟩⟩
  · exact ⟨rfl, .inr ⟨rfl, hle, rfl⟩⟩

/-- In the epoch of its last ping, an internal method moves `last_total_balance` by the
deposit it accounts and the transfer it makes, and by nothing else. -/
theorem exec_lastTotalBalance {op : Op} (hep : c.lastEpochHeight = env.epochHeight)
    (hfit : c.lastTotalBalance.val + op.deposited env ≤ 2 ^ 128 - 1)
    (hw : op.transferred ≤ c.lastTotalBalance.val) (h : exec N c env op = .ok c') :
    c'.lastTotalBalance.val + op.transferred = c.lastTotalBalance.val + op.deposited env := by
  cases op with
  | deposit =>
    cases h
    simp only [internalDeposit, internalSaveAccount_lastTotalBalance,
      U128.val_saturatingAdd, Op.transferred, Op.deposited] at hfit ⊢
    omega
  | withdraw amount =>
    obtain ⟨-, -, -, rfl⟩ := (internalWithdraw_eq_ok c env).mp h
    simp only [internalSaveAccount_lastTotalBalance, U128.val_saturatingSub,
      Op.transferred, Op.deposited] at hw ⊢
    omega
  | stake amount =>
    obtain ⟨-, -, -, -, -, -, -, -, -, -, -, -, rfl⟩ := (internalStake_eq_ok c env).mp h
    simp [Op.transferred, Op.deposited]
  | unstake amount =>
    obtain ⟨-, -, -, -, -, -, -, -, -, -, -, -, -, -, rfl⟩ := (innerUnstake_eq_ok c env).mp h
    simp [Op.transferred, Op.deposited]
  | ping =>
    obtain ⟨b, hb⟩ := exec_ping_eq_ok.mp h
    rw [internalPing_of_same_epoch c env hep] at hb
    cases hb
    rfl

end StakingContract

open StakingContract

section

variable {N : U64} {h h₀ h' : Host AccountId}

omit [DecidableEq AccountId] in
/-- The balance a call reports, less its deposit, is `B + reward`. -/
theorem totalBalance_of_reported {env : Env AccountId} {reward : Nat}
    (hbalance : env.accountLockedBalance.val + env.accountBalance.val =
      h.balance + reward + env.attachedDeposit.val)
    (hfit : h.balance + reward + env.attachedDeposit.val ≤ 2 ^ 128 - 1) :
    env.totalBalance.val = h.balance + reward := by
  simp only [Env.totalBalance, U128.val_saturatingAdd, U128.val_saturatingSub]
  omega

/-- **One step.** -/
theorem accounted_step (hacc : Accounted h) (hstep : HostStep N h h') : Accounted h' := by
  obtain ⟨hB, hD⟩ := hacc
  cases hstep with
  | call reward env op pinged c₁ c' hbalance hfit hdeposit hping hop hwithdraw =>
    have htb := totalBalance_of_reported hbalance hfit
    obtain ⟨hep, hlast⟩ := internalPing_last hping
    have hle : c₁.lastTotalBalance.val ≤ h.balance + reward := by
      rcases hlast with ⟨-, hl⟩ | ⟨-, -, hl⟩ <;> rw [hl] <;> omega
    have hop' := exec_lastTotalBalance hep (by omega) hwithdraw hop
    rcases hlast with ⟨rfl, hl⟩ | ⟨rfl, -, hl⟩ <;>
      simp only [hl, Accounted, Bool.false_eq_true, ↓reduceIte] at hop' ⊢ <;> omega
  | reward reward =>
    exact ⟨by simp only; omega, by simp only; omega⟩

/-- **A run.** -/
theorem accounted_of_reachable (hacc : Accounted h₀)
    (hrun : Relation.ReflTransGen (HostStep N) h₀ h) : Accounted h := by
  induction hrun with
  | refl => exact hacc
  | tail _ hstep ih => exact accounted_step ih hstep

omit [DecidableEq AccountId] in
/-- The assertion of `internal_ping`: the balance a call reports, less its deposit,
is at least `last_total_balance`. -/
theorem ping_assertion_of_accounted (hacc : Accounted h) {env : Env AccountId} {reward : Nat}
    (hbalance : env.accountLockedBalance.val + env.accountBalance.val =
      h.balance + reward + env.attachedDeposit.val)
    (hfit : h.balance + reward + env.attachedDeposit.val ≤ 2 ^ 128 - 1) :
    h.contract.lastTotalBalance.val ≤ env.totalBalance.val := by
  rw [totalBalance_of_reported hbalance hfit, hacc.1]
  omega

end

/-- **Rewards are exactly the balance's growth.**  From a contract that has accounted the
host's whole balance, after every run the unaccounted balance is the reward credited
since the last call that ran the reward logic, every credited reward has been
distributed by `internal_ping` or is still pending, and the assertion of
`internal_ping` holds for every next call. -/
theorem rewards_are_balance_growth (N : U64) (c : StakingContract AccountId) (h : Host AccountId)
    (hrun : Relation.ReflTransGen (HostStep N) (Host.init c) h) :
    h.balance = h.contract.lastTotalBalance.val + h.pending ∧
    h.distributed + h.pending = h.credited ∧
    ∀ (env : Env AccountId) (reward : Nat),
      env.accountLockedBalance.val + env.accountBalance.val =
        h.balance + reward + env.attachedDeposit.val →
      h.balance + reward + env.attachedDeposit.val ≤ 2 ^ 128 - 1 →
      h.contract.lastTotalBalance.val ≤ env.totalBalance.val := by
  have hacc := accounted_of_reachable (show Accounted (Host.init c) from ⟨rfl, rfl⟩) hrun
  exact ⟨hacc.1, hacc.2, fun _ _ => ping_assertion_of_accounted hacc⟩

/-- Account `1` attaches 5 in epoch `0`; the host reports `100 + 5`. -/
def depositFiveEnv : Env Nat := ⟨1, 5, 0, 105, 0⟩

theorem rewards_are_balance_growth_deposit :
    ∃ h : Host Nat, Relation.ReflTransGen (HostStep 4) (Host.init tenSharesState) h ∧
      h.balance = 105 ∧ h.balance = h.contract.lastTotalBalance.val + h.pending ∧
      h.distributed + h.pending = h.credited := by
  have hstep : HostStep 4 (Host.init tenSharesState) _ :=
    .call _ 0 depositFiveEnv .deposit false _ _ (by decide) (by decide) rfl
      (internalPing_of_same_epoch _ _ rfl) rfl (Nat.zero_le _)
  obtain ⟨hB, hD, -⟩ := rewards_are_balance_growth 4 tenSharesState _ (.single hstep)
  exact ⟨_, .single hstep, rfl, hB, hD⟩

end UncContracts
