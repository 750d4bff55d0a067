import UncContracts.Shares

/-!
# Unstaked balance stays locked for `NUM_EPOCHS_TO_UNLOCK` epochs

`inner_unstake` sets the caller's `unstaked_available_epoch_height` to
`epoch_height + NUM_EPOCHS_TO_UNLOCK`, and `internal_withdraw` asserts it has been
reached.  Between the two, other calls read and save the record: a deposit and a
stake keep its height, a later unstake only raises it (epochs do not decrease),
and the owner's fee shares in `internal_ping` keep it.  The one way to lower it,
pruning the record and reading back the default (height `0`), needs both balances at
zero, and after an unstake the record keeps a positive balance until a withdrawal,
which needs the delay to have passed.

    LockedUntil a unlock c : a's record is stored and locked until at least `unlock`
    lockedUntil_exec       : every successful call but a's withdrawal keeps it
    unlockInv_run          : along a run with non-decreasing epochs, the lock holds
                             until the delay has passed, and every successful
                             withdrawal by `a` is made after it
-/

namespace UncContracts

namespace StakingContract

variable {AccountId : Type} [DecidableEq AccountId]
  {c c' : StakingContract AccountId} {env : Env AccountId}

section Lock

variable (a : AccountId) (unlock : Nat) {N : U64}

/-- `a`'s record is stored and locked until at least `unlock`. -/
def LockedUntil (c : StakingContract AccountId) : Prop :=
  Kept (c.internalGetAccount a) ∧
    unlock ≤ (c.internalGetAccount a).unstakedAvailableEpochHeight.val

variable {a unlock}

theorem kept_of_le {acc acc' : Account} (h : Kept acc) (hu : acc.unstaked.val ≤ acc'.unstaked.val)
    (hs : acc.stakeShares.val ≤ acc'.stakeShares.val) : Kept acc' := by
  unfold Kept at *
  omega

/-- A save keeps `a`'s lock when it saves another account, or a stored record for `a`
that is still locked. -/
theorem lockedUntil_save {x : AccountId} {acc : Account} (hl : LockedUntil a unlock c)
    (hx : x = a → Kept acc ∧ unlock ≤ acc.unstakedAvailableEpochHeight.val) :
    LockedUntil a unlock (c.internalSaveAccount x acc) := by
  by_cases hxa : x = a
  · subst hxa
    obtain ⟨hk, hu⟩ := hx rfl
    unfold LockedUntil
    rw [get_save_self_of_kept c x acc hk]
    exact ⟨hk, hu⟩
  · unfold LockedUntil
    rw [get_save_of_ne c x a acc (Ne.symm hxa)]
    exact hl

theorem lockedUntil_pingReward {r : U128} (hl : LockedUntil a unlock c)
    (h : c.pingReward r = .ok c') : LockedUntil a unlock c' := by
  obtain ⟨-, n, -, rfl⟩ := (pingReward_eq_ok c rfl rfl).mp h
  split_ifs with hn0
  · refine lockedUntil_save hl fun hx => ?_
    subst hx
    exact ⟨Or.inr (by simp only [U128.val_saturatingAdd]; omega), hl.2⟩
  · exact hl

theorem lockedUntil_internalPing {b : Bool} (hl : LockedUntil a unlock c)
    (h : c.internalPing env = .ok (b, c')) : LockedUntil a unlock c' := by
  rcases internalPing_cases c env h with ⟨-, rfl, -⟩ | ⟨-, -, -, c₁, h₁ | rfl, rfl⟩
  · exact hl
  · have := lockedUntil_pingReward (c := { c with lastEpochHeight := env.epochHeight }) hl h₁
    exact this
  · exact hl

/-- **One call.**  Every successful call but a withdrawal by `a` keeps `a`'s lock; an
unstake by `a` relocks it until `epoch_height + N`. -/
theorem lockedUntil_exec {op : Op} (hl : LockedUntil a unlock c)
    (hN : unlock ≤ env.epochHeight.val + N.val)
    (hw : ∀ amount, op = .withdraw amount → env.predecessorAccountId ≠ a)
    (h : exec N c env op = .ok c') : LockedUntil a unlock c' := by
  cases op with
  | deposit =>
    cases h
    refine lockedUntil_save hl fun hx => ?_
    subst hx
    refine ⟨kept_of_le hl.1 ?_ le_rfl, hl.2⟩
    simp only [U128.val_saturatingAdd]
    omega
  | withdraw amount =>
    obtain ⟨-, -, -, rfl⟩ := (internalWithdraw_eq_ok c env).mp h
    exact lockedUntil_save hl fun hx => absurd hx (hw amount rfl)
  | stake amount =>
    obtain ⟨-, -, -, n, -, -, -, hn0, -, -, -, -, rfl⟩ := (internalStake_eq_ok c env).mp h
    refine lockedUntil_save hl fun hx => ?_
    subst hx
    exact ⟨Or.inr (by simp only [U128.val_saturatingAdd]; omega), hl.2⟩
  | unstake amount =>
    obtain ⟨-, -, -, n, r, u, ul, -, -, -, -, hr0, hul, -, rfl⟩ := (innerUnstake_eq_ok c env).mp h
    refine lockedUntil_save hl fun _ => ⟨Or.inl ?_, show unlock ≤ ul.val by omega⟩
    simp only [U128.val_saturatingAdd]
    omega
  | ping =>
    obtain ⟨b, hb⟩ := exec_ping_eq_ok.mp h
    exact lockedUntil_internalPing hl hb

end Lock

section Run

variable (a : AccountId) (e : Nat) (N : U64)

/-- After an unstake by `a` at epoch `e`, at the epoch `cur` of the latest call: the
delay has passed, or `a`'s record is stored and locked until `e + N`. -/
def UnlockInv (cur : Nat) (c : StakingContract AccountId) : Prop :=
  e + N.val ≤ cur ∨ LockedUntil a (e + N.val) c

/-- A successful withdrawal by `a` is made at or after the epoch `unlock`. -/
def WithdrawnAfter (unlock : Nat) (c : StakingContract AccountId) (env : Env AccountId)
    (op : Op) : Prop :=
  ∀ amount c', op = .withdraw amount → env.predecessorAccountId = a →
    exec N c env op = .ok c' → unlock ≤ env.epochHeight.val

variable {a e N}

theorem UnlockInv.mono {cur h : Nat} (hinv : UnlockInv a e N cur c) (hh : cur ≤ h) :
    UnlockInv a e N h c :=
  hinv.imp (fun hd => Nat.le_trans hd hh) id

/-- **One call**, at an epoch no earlier than the latest. -/
theorem unlockInv_step {op : Op} {cur : Nat} (he : e ≤ cur) (hcur : cur ≤ env.epochHeight.val)
    (hinv : UnlockInv a e N cur c) :
    WithdrawnAfter a N (e + N.val) c env op ∧
      UnlockInv a e N env.epochHeight.val (step N c env op) := by
  rcases hinv with hd | hl
  · exact ⟨fun _ _ _ _ _ => by omega, .inl (by omega)⟩
  have hw : WithdrawnAfter a N (e + N.val) c env op := by
    rintro amount c' rfl rfl h
    obtain ⟨-, -, hle, -⟩ := (internalWithdraw_eq_ok c env).mp h
    exact Nat.le_trans hl.2 hle
  refine ⟨hw, ?_⟩
  by_cases hpass : e + N.val ≤ env.epochHeight.val
  · exact .inl hpass
  right
  rcases step_cases N c env op with hs | hs
  · exact lockedUntil_exec hl (by omega) (fun amount hop ha => hpass (hw amount _ hop ha hs)) hs
  · rw [hs]
    exact hl

/-- **A run** whose epochs do not decrease from `cur`. -/
theorem unlockInv_run : ∀ (calls : List (Env AccountId × Op)) (c : StakingContract AccountId)
    (cur : Nat), e ≤ cur →
    List.Chain (· ≤ ·) cur (calls.map fun call => call.1.epochHeight.val) →
    UnlockInv a e N cur c →
    RunAll (WithdrawnAfter a N (e + N.val)) N c calls ∧
      ∀ h, cur ≤ h → (∀ call ∈ calls, call.1.epochHeight.val ≤ h) →
        UnlockInv a e N h (run N c calls)
  | [], _, _, _, _, hinv => ⟨trivial, fun _ hh _ => hinv.mono hh⟩
  | (env, op) :: calls, c, cur, he, hchain, hinv => by
    obtain ⟨hcur, hchain⟩ := List.chain_cons.mp hchain
    obtain ⟨hw, hinv'⟩ : WithdrawnAfter a N (e + N.val) c env op ∧
        UnlockInv a e N env.epochHeight.val (step N c env op) := unlockInv_step he hcur hinv
    obtain ⟨hall, hend⟩ := unlockInv_run calls _ _ (Nat.le_trans he hcur) hchain hinv'
    exact ⟨⟨hw, hall⟩, fun h _ hmem =>
      hend h (hmem _ (List.mem_cons_self _ _)) fun call hc => hmem call (List.mem_cons_of_mem _ hc)⟩

end Run

/-- **Unstaked tokens stay locked for the full delay.**  After `a` unstakes at epoch
`e`, along every run of calls with non-decreasing epochs: every successful withdrawal
by `a` is made at an epoch `≥ e + N`, and at every epoch before `e + N`, `a`'s record
is stored with `unstaked_available_epoch_height ≥ e + N`. -/
theorem unstaked_stays_locked (N : U64) (a : AccountId) (c₀ c : StakingContract AccountId)
    (env : Env AccountId) (amount : U128) (ha : env.predecessorAccountId = a)
    (hu : c₀.innerUnstake env N amount = .ok c) (calls : List (Env AccountId × Op))
    (hmono : List.Chain (· ≤ ·) env.epochHeight.val (calls.map fun call => call.1.epochHeight.val)) :
    RunAll (WithdrawnAfter a N (env.epochHeight.val + N.val)) N c calls ∧
    ∀ h, env.epochHeight.val ≤ h → h < env.epochHeight.val + N.val →
      (∀ call ∈ calls, call.1.epochHeight.val ≤ h) →
      LockedUntil a (env.epochHeight.val + N.val) (run N c calls) := by
  obtain ⟨-, -, -, n, r, u, ul, -, -, -, -, hr0, hul, -, hc⟩ := (innerUnstake_eq_ok c₀ env).mp hu
  subst ha
  -- The unstake leaves the caller's record stored, with a positive unstaked balance.
  have hk : Kept
      { stakeShares := (c₀.internalGetAccount env.predecessorAccountId).stakeShares.saturatingAdd n
        unstaked := (c₀.internalGetAccount env.predecessorAccountId).unstaked.saturatingAdd r
        unstakedAvailableEpochHeight := ul } :=
    Or.inl (by simp only [U128.val_saturatingAdd]; omega)
  have hget := get_save_self_of_kept c₀ env.predecessorAccountId _ hk
  have hl : LockedUntil env.predecessorAccountId (env.epochHeight.val + N.val) c := by
    subst hc
    exact ⟨(congrArg Kept hget).mpr hk, (congrArg (fun acc : Account =>
      env.epochHeight.val + N.val ≤ acc.unstakedAvailableEpochHeight.val) hget).mpr hul.ge⟩
  obtain ⟨hall, hend⟩ := unlockInv_run calls c _ le_rfl hmono (.inr hl)
  exact ⟨hall, fun h he hlt hmem => (hend h he hmem).resolve_left (by omega)⟩

/-- Account `1` asks to withdraw 5 at epoch `2`. -/
def withdrawEpochTwoEnv : Env Nat := ⟨1, 0, 2, 100, 0⟩

/-- Account `1` unstakes 5 at epoch `0` with a delay of 4, then tries to withdraw at
epoch `2`: its record is still locked until epoch `4`. -/
theorem unstaked_stays_locked_early_withdraw :
    ∃ c, tenSharesState.innerUnstake accountOneEnv 4 5 = .ok c ∧
      RunAll (WithdrawnAfter 1 4 4) 4 c [(withdrawEpochTwoEnv, .withdraw 5)] ∧
      LockedUntil 1 4 (run 4 c [(withdrawEpochTwoEnv, .withdraw 5)]) := by
  obtain ⟨c, hu⟩ :=
    exists_eq_ok_of_toBool (x := tenSharesState.innerUnstake accountOneEnv 4 5) (by decide)
  obtain ⟨hall, hlock⟩ := unstaked_stays_locked 4 1 tenSharesState c accountOneEnv 5 rfl hu
    [(withdrawEpochTwoEnv, .withdraw 5)] (.cons (by decide) .nil)
  exact ⟨c, hu, hall, hlock 2 (by decide) (by decide) (by decide)⟩

end StakingContract

end UncContracts
