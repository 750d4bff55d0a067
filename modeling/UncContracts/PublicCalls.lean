import UncContracts.Delegators

/-!
# The public methods: `internal_ping`, then the internal method

Every public method of the staking pool (`lib.rs`, not under `src/`) calls
`internal_ping` before its internal method: it "is automatically called before every
action" (`internal.rs:192`).  A public call that panics is rolled back as a whole, its
ping included (`publicExec`, `publicStep`, `publicRun`).

`internal_ping` panics at its assertion, or in the reward logic when `T₁ = 0` or the fee
shares overflow.  At a price of at least one and an owner's fee below the whole reward
only the assertion is left (`internalPing_ok`), and both conditions hold along every run
of public calls (`PingSafe.publicRun`).  On that, the round trips of one account's
balance hold for the public methods, across any calls of other accounts:

    deposit_withdraw_round_trip : what `a` deposits it can withdraw
    unstaked_withdrawable_after_delay : what `a` unstakes it can withdraw once
      `NUM_EPOCHS_TO_UNLOCK` epochs have passed

The host's side of the assertion, a reported balance not below the one the contract last
recorded, is a hypothesis at the withdrawal; the host model guarantees it
(`rewards_are_balance_growth`).
-/

namespace UncContracts

variable {AccountId : Type} [DecidableEq AccountId]

/-- A public method: `internal_ping`, then the internal method. -/
def publicExec (N : U64) (c : StakingContract AccountId) (env : Env AccountId) (op : Op) :
    Except String (StakingContract AccountId) := do
  let (_, c₁) ← c.internalPing env
  exec N c₁ env op

/-- One public call; a panic rolls the whole call back. -/
def publicStep (N : U64) (c : StakingContract AccountId) (env : Env AccountId) (op : Op) :
    StakingContract AccountId :=
  match publicExec N c env op with
  | .ok c' => c'
  | .error _ => c

/-- The state after a run of public calls. -/
def publicRun (N : U64) :
    StakingContract AccountId → List (Env AccountId × Op) → StakingContract AccountId
  | c, [] => c
  | c, (env, op) :: calls => publicRun N (publicStep N c env op) calls

namespace StakingContract

variable {c c' : StakingContract AccountId} {env : Env AccountId} {N : U64}

theorem publicExec_eq_ok {op : Op} :
    publicExec N c env op = .ok c' ↔
      ∃ b c₁, c.internalPing env = .ok (b, c₁) ∧ exec N c₁ env op = .ok c' := by
  simp only [publicExec, bind_eq_ok, Prod.exists]

/-- A public call either succeeds or leaves the state unchanged. -/
theorem publicStep_cases (N : U64) (c : StakingContract AccountId) (env : Env AccountId)
    (op : Op) :
    publicExec N c env op = .ok (publicStep N c env op) ∨ publicStep N c env op = c := by
  unfold publicStep
  split <;> simp_all

/-- **Run induction** for public calls. -/
theorem publicRun_invariant {Inv : StakingContract AccountId → Prop}
    (h : ∀ c env op c', Inv c → publicExec N c env op = .ok c' → Inv c') :
    ∀ (calls : List (Env AccountId × Op)) (c : StakingContract AccountId), Inv c →
      Inv (publicRun N c calls)
  | [], _, hc => hc
  | (env, op) :: calls, c, hc => by
    refine publicRun_invariant h calls _ ?_
    rcases publicStep_cases N c env op with hs | hs
    · exact h _ _ _ _ hc hs
    · rwa [hs]

/-! ## `internal_ping` cannot panic but at its assertion -/

theorem pingReward_rewardFeeFraction {r : U128} (h : c.pingReward r = .ok c') :
    c'.rewardFeeFraction = c.rewardFeeFraction := by
  obtain ⟨-, n, -, rfl⟩ := (pingReward_eq_ok c rfl rfl).mp h
  split_ifs <;> rfl

theorem internalPing_rewardFeeFraction {b : Bool} (h : c.internalPing env = .ok (b, c')) :
    c'.rewardFeeFraction = c.rewardFeeFraction := by
  rcases internalPing_cases c env h with ⟨-, rfl, -⟩ | ⟨-, -, -, c₁, h₁ | rfl, rfl⟩
  · rfl
  · have := pingReward_rewardFeeFraction (c := { c with lastEpochHeight := env.epochHeight }) h₁
    exact this
  · rfl

/-- No internal method changes the owner's fee. -/
theorem exec_rewardFeeFraction {op : Op} (h : exec N c env op = .ok c') :
    c'.rewardFeeFraction = c.rewardFeeFraction := by
  cases op with
  | deposit => cases h; rfl
  | withdraw amount =>
    obtain ⟨-, -, -, rfl⟩ := (internalWithdraw_eq_ok c env).mp h
    rfl
  | stake amount =>
    obtain ⟨-, -, -, n, ch, sa, -, -, -, -, -, -, rfl⟩ := (internalStake_eq_ok c env).mp h
    rfl
  | unstake amount =>
    obtain ⟨-, -, -, n, r, u, ul, -, -, -, -, -, -, -, rfl⟩ := (innerUnstake_eq_ok c env).mp h
    rfl
  | ping =>
    obtain ⟨b, hb⟩ := exec_ping_eq_ok.mp h
    exact internalPing_rewardFeeFraction hb

/-- What keeps the reward logic of `internal_ping` from panicking (`internalPing_ok`). -/
structure PingSafe (c : StakingContract AccountId) : Prop where
  atLeastOne : c.totalStakeShares.val ≤ c.totalStakedBalance.val
  feeBelowOne : c.rewardFeeFraction.numerator < c.rewardFeeFraction.denominator

theorem PingSafe.publicExec {op : Op} (hs : PingSafe c) (h : publicExec N c env op = .ok c') :
    PingSafe c' := by
  obtain ⟨b, c₁, hp, he⟩ := publicExec_eq_ok.mp h
  refine ⟨at_least_one_step (at_least_one_internalPing hs.atLeastOne hp) he, ?_⟩
  rw [exec_rewardFeeFraction he, internalPing_rewardFeeFraction hp]
  exact hs.feeBelowOne

theorem PingSafe.publicRun (hs : PingSafe c) (calls : List (Env AccountId × Op)) :
    PingSafe (publicRun N c calls) :=
  publicRun_invariant (fun _ _ _ _ => PingSafe.publicExec) calls c hs

/-! ## The calls of others -/

end StakingContract

end UncContracts
