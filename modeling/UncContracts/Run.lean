import UncContracts.OperationSpecs

/-!
# Runs of the internal methods

A run is a list of calls, each an internal method with the host environment of
its call.  A call that panics is rolled back: the state is the one before it.
An invariant that every successful call keeps holds after every run
(`run_invariant`); `RunAll` states a side condition on every call of a run, at
the state the call is made in.
-/

namespace UncContracts

variable {AccountId : Type} [DecidableEq AccountId]

/-- A call of one of the internal methods. -/
inductive Op
  | deposit
  | withdraw (amount : U128)
  | stake (amount : U128)
  | unstake (amount : U128)
  | ping
  deriving DecidableEq, Repr

/-- The state after a call, or the panic's message. -/
def exec (N : U64) (c : StakingContract AccountId) (env : Env AccountId) :
    Op → Except String (StakingContract AccountId)
  | .deposit => pure (c.internalDeposit env).2
  | .withdraw amount => c.internalWithdraw env amount
  | .stake amount => c.internalStake env amount
  | .unstake amount => c.innerUnstake env N amount
  | .ping => Prod.snd <$> c.internalPing env

/-- One call; a panic leaves the state as it was. -/
def step (N : U64) (c : StakingContract AccountId) (env : Env AccountId) (op : Op) :
    StakingContract AccountId :=
  match exec N c env op with
  | .ok c' => c'
  | .error _ => c

/-- The state after a run of calls. -/
def run (N : U64) : StakingContract AccountId → List (Env AccountId × Op) → StakingContract AccountId
  | c, [] => c
  | c, (env, op) :: calls => run N (step N c env op) calls

/-- `P` holds of every call of the run, at the state the call is made in. -/
def RunAll (P : StakingContract AccountId → Env AccountId → Op → Prop) (N : U64) :
    StakingContract AccountId → List (Env AccountId × Op) → Prop
  | _, [] => True
  | c, (env, op) :: calls => P c env op ∧ RunAll P N (step N c env op) calls

/-! ## Lemmas -/

theorem exec_ping_eq_ok {N : U64} {c c' : StakingContract AccountId} {env : Env AccountId} :
    exec N c env .ping = .ok c' ↔ ∃ b, c.internalPing env = .ok (b, c') := by
  simp [exec, map_eq_ok]

/-- A call either succeeds or leaves the state unchanged. -/
theorem step_cases (N : U64) (c : StakingContract AccountId) (env : Env AccountId) (op : Op) :
    exec N c env op = .ok (step N c env op) ∨ step N c env op = c := by
  unfold step
  split <;> simp_all

theorem step_of_exec_eq_ok {N : U64} {c c' : StakingContract AccountId} {env : Env AccountId}
    {op : Op} (h : exec N c env op = .ok c') : step N c env op = c' := by
  simp only [step, h]

/-- **Run induction.**  What every successful call keeps, every run keeps. -/
theorem run_invariant {N : U64} {Inv : StakingContract AccountId → Prop}
    (h : ∀ c env op c', Inv c → exec N c env op = .ok c' → Inv c') :
    ∀ (calls : List (Env AccountId × Op)) (c : StakingContract AccountId), Inv c → Inv (run N c calls)
  | [], _, hc => hc
  | (env, op) :: calls, c, hc => by
    refine run_invariant h calls _ ?_
    rcases step_cases N c env op with hs | hs
    · exact h _ _ _ _ hc hs
    · rwa [hs]

theorem RunAll.mono {N : U64} {P Q : StakingContract AccountId → Env AccountId → Op → Prop}
    (hPQ : ∀ c env op, P c env op → Q c env op) :
    ∀ {calls : List (Env AccountId × Op)} {c : StakingContract AccountId},
      RunAll P N c calls → RunAll Q N c calls
  | [], _, _ => trivial
  | (_, _) :: _, _, ⟨hP, hrest⟩ => ⟨hPQ _ _ _ hP, RunAll.mono hPQ hrest⟩

end UncContracts
