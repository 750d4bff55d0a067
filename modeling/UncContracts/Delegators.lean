import UncContracts.Price

/-!
# Idle delegators keep their claim

A call saves only its caller's record, and `internal_ping` only the owner's
(`exec_frame`), so an account that makes none of the calls of a run and is not the
owner keeps its record (`run_frame`).  The price `T / S` does not decrease under a call
whose additions to `total_staked_balance` do not clip (`price_step`), and no call brings
`total_stake_shares` back from zero (`exec_shares_zero`), so the price comparison
composes along a run (`priceNotBelow_run`).

    passive_delegator_keeps_claim : an idle delegator's shares are worth at least what
      they were worth, and every amount they covered it can still unstake for at most
      those shares
    zero_shares_freeze : once `total_stake_shares` is zero it stays zero, no record's
      shares change again, and every stake and every unstake panics

The same frame, for the public methods, gives the round trips of one account's balance
across the calls of others (`PublicCalls`).
-/

namespace UncContracts

namespace StakingContract

variable {AccountId : Type} [DecidableEq AccountId]
  {c c' : StakingContract AccountId} {env : Env AccountId} {N : U64}

/-! ## Which records a call writes -/

/-- A record as a call by another account leaves it: the unstaked balance and the unlock
epoch as they were, and the shares too unless the record is the owner's. -/
structure Untouched (isOwner : Prop) (acc acc' : Account) : Prop where
  unstaked : acc'.unstaked = acc.unstaked
  unlock : acc'.unstakedAvailableEpochHeight = acc.unstakedAvailableEpochHeight
  stakeShares : ¬isOwner → acc'.stakeShares = acc.stakeShares

theorem Untouched.of_eq {isOwner : Prop} {acc acc' : Account} (h : acc' = acc) :
    Untouched isOwner acc acc' :=
  h ▸ ⟨rfl, rfl, fun _ => rfl⟩

theorem Untouched.trans {isOwner : Prop} {acc₁ acc₂ acc₃ : Account}
    (h₁ : Untouched isOwner acc₁ acc₂) (h₂ : Untouched isOwner acc₂ acc₃) :
    Untouched isOwner acc₁ acc₃ :=
  ⟨h₂.unstaked.trans h₁.unstaked, h₂.unlock.trans h₁.unlock,
    fun h => (h₂.stakeShares h).trans (h₁.stakeShares h)⟩

/-- A record other than the owner's that no one else touched is the same record. -/
theorem Untouched.eq {isOwner : Prop} {acc acc' : Account} (h : Untouched isOwner acc acc')
    (hown : ¬isOwner) : acc' = acc := by
  obtain ⟨u, s, e⟩ := acc
  obtain ⟨u', s', e'⟩ := acc'
  obtain ⟨hu, he, hs⟩ := h
  cases hu
  cases he
  cases hs hown
  rfl

/-- What a save leaves in a field that is zero on a pruned record: the saved value for
the saved account, the old one for every other. -/
theorem field_get_save {β : Type} (f : Account → β) (hf : ∀ acc, ¬Kept acc → f acc = f default)
    (x b : AccountId) (acc : Account) :
    f ((c.internalSaveAccount x acc).internalGetAccount b) =
      if b = x then f acc else f (c.internalGetAccount b) := by
  split_ifs with hb
  · subst hb
    by_cases hk : Kept acc
    · rw [get_save_self_of_kept c b acc hk]
    · rw [get_save_self_of_not_kept c b acc hk, hf acc hk]
  · rw [get_save_of_ne c x b acc hb]

/-- A pruned record holds nothing: its balance and its shares are the default's zero. -/
theorem balances_of_not_kept {acc : Account} (hk : ¬Kept acc) :
    acc.unstaked = (default : Account).unstaked ∧
      acc.stakeShares = (default : Account).stakeShares := by
  unfold Kept at hk
  exact ⟨Fin.ext (by simp only [Account.default_unstaked, Fin.val_zero]; omega),
    Fin.ext (by simp only [Account.default_stakeShares, Fin.val_zero]; omega)⟩

/-- A save that keeps the saved record's shares keeps every record's shares. -/
theorem stakeShares_get_save (x : AccountId) (acc : Account)
    (h : acc.stakeShares = (c.internalGetAccount x).stakeShares) (a : AccountId) :
    ((c.internalSaveAccount x acc).internalGetAccount a).stakeShares =
      (c.internalGetAccount a).stakeShares := by
  rw [field_get_save _ fun _ hk => (balances_of_not_kept hk).2]
  split_ifs with ha
  · rw [ha, h]
  · rfl

/-- The owner's fee shares change only the owner's shares. -/
theorem pingReward_frame {r : U128} (h : c.pingReward r = .ok c') :
    c'.ownerId = c.ownerId ∧
      ∀ a, Untouched (a = c.ownerId) (c.internalGetAccount a) (c'.internalGetAccount a) := by
  obtain ⟨-, n, -, rfl⟩ := (pingReward_eq_ok c rfl rfl).mp h
  refine ⟨by split_ifs <;> rfl, fun a => ?_⟩
  split_ifs with hn0
  · by_cases ha : a = c.ownerId
    · rw [ha]
      have hk : Kept { c.internalGetAccount c.ownerId with
          stakeShares := (c.internalGetAccount c.ownerId).stakeShares.saturatingAdd n } :=
        Or.inr (by simp only [U128.val_saturatingAdd]; omega)
      have hget := get_save_self_of_kept c c.ownerId _ hk
      have hu := congrArg Account.unstaked hget
      have he := congrArg Account.unstakedAvailableEpochHeight hget
      exact ⟨hu, he, fun hne => absurd rfl hne⟩
    · exact .of_eq (get_save_of_ne c _ a _ ha)
  · exact .of_eq rfl

theorem internalPing_frame {b : Bool} (h : c.internalPing env = .ok (b, c')) :
    c'.ownerId = c.ownerId ∧
      ∀ a, Untouched (a = c.ownerId) (c.internalGetAccount a) (c'.internalGetAccount a) := by
  rcases internalPing_cases c env h with ⟨-, rfl, -⟩ | ⟨-, -, -, c₁, h₁ | rfl, rfl⟩
  · exact ⟨rfl, fun _ => .of_eq rfl⟩
  · have := pingReward_frame (c := { c with lastEpochHeight := env.epochHeight }) h₁
    exact this
  · exact ⟨rfl, fun _ => .of_eq rfl⟩

/-- **One call.**  A call writes only its caller's record and, in `internal_ping`, the
owner's shares; no call changes the owner. -/
theorem exec_frame {op : Op} (h : exec N c env op = .ok c') :
    c'.ownerId = c.ownerId ∧ ∀ a, a ≠ env.predecessorAccountId →
      Untouched (a = c.ownerId) (c.internalGetAccount a) (c'.internalGetAccount a) := by
  cases op with
  | deposit =>
    cases h
    exact ⟨rfl, fun a hp => .of_eq (get_save_of_ne c _ a _ hp)⟩
  | withdraw amount =>
    obtain ⟨-, -, -, rfl⟩ := (internalWithdraw_eq_ok c env).mp h
    exact ⟨rfl, fun a hp => .of_eq (get_save_of_ne c _ a _ hp)⟩
  | stake amount =>
    obtain ⟨-, -, -, n, ch, sa, -, -, -, -, -, -, rfl⟩ := (internalStake_eq_ok c env).mp h
    exact ⟨rfl, fun a hp => .of_eq (get_save_of_ne c _ a _ hp)⟩
  | unstake amount =>
    obtain ⟨-, -, -, n, r, u, ul, -, -, -, -, -, -, -, rfl⟩ := (innerUnstake_eq_ok c env).mp h
    exact ⟨rfl, fun a hp => .of_eq (get_save_of_ne c _ a _ hp)⟩
  | ping =>
    obtain ⟨b, hb⟩ := exec_ping_eq_ok.mp h
    have hf := internalPing_frame hb
    exact ⟨hf.1, fun a _ => hf.2 a⟩

/-- **A run.**  The record of an account that makes none of the calls is untouched, and
the owner stays the owner. -/
theorem run_frame (a : AccountId) :
    ∀ (calls : List (Env AccountId × Op)) (c : StakingContract AccountId),
      (∀ call ∈ calls, call.1.predecessorAccountId ≠ a) →
      (run N c calls).ownerId = c.ownerId ∧
        Untouched (a = c.ownerId) (c.internalGetAccount a) ((run N c calls).internalGetAccount a)
  | [], _, _ => ⟨rfl, .of_eq rfl⟩
  | (env, op) :: calls, c, hidle => by
    have hstep : (step N c env op).ownerId = c.ownerId ∧ Untouched (a = c.ownerId)
        (c.internalGetAccount a) ((step N c env op).internalGetAccount a) := by
      rcases step_cases N c env op with hs | hs
      · have hf := exec_frame hs
        exact ⟨hf.1, hf.2 a (Ne.symm (hidle _ (List.mem_cons_self _ _)))⟩
      · rw [hs]
        exact ⟨rfl, .of_eq rfl⟩
    have ih := run_frame a calls (step N c env op)
      fun call hc => hidle call (List.mem_cons_of_mem _ hc)
    rw [hstep.1] at ih
    exact ⟨ih.1, hstep.2.trans ih.2⟩

/-! ## No shares come back from zero -/

theorem pingReward_shares_zero {r : U128} (h0 : c.totalStakeShares.val = 0)
    (h : c.pingReward r = .ok c') :
    c'.totalStakeShares.val = 0 ∧
      ∀ a, (c'.internalGetAccount a).stakeShares = (c.internalGetAccount a).stakeShares := by
  obtain ⟨-, n, hn, rfl⟩ := (pingReward_eq_ok c rfl rfl).mp h
  rw [h0, Nat.zero_mul, Nat.zero_div] at hn
  rw [if_neg (by omega)]
  exact ⟨h0, fun _ => rfl⟩

/-- **One call.**  With no shares in circulation no call mints any: a stake and an
unstake need `total_stake_shares > 0`, and the owner's fee buys `0 * fee / T₁` shares;
a deposit and a withdrawal keep the caller's shares. -/
theorem exec_shares_zero {op : Op} (h0 : c.totalStakeShares.val = 0)
    (h : exec N c env op = .ok c') :
    c'.totalStakeShares.val = 0 ∧
      ∀ a, (c'.internalGetAccount a).stakeShares = (c.internalGetAccount a).stakeShares := by
  cases op with
  | deposit =>
    cases h
    exact ⟨h0, stakeShares_get_save _ _ rfl⟩
  | withdraw amount =>
    obtain ⟨-, -, -, rfl⟩ := (internalWithdraw_eq_ok c env).mp h
    exact ⟨h0, stakeShares_get_save _ _ rfl⟩
  | stake amount =>
    have := ((internalStake_eq_ok c env).mp h).2.2.1
    omega
  | unstake amount =>
    have := ((innerUnstake_eq_ok c env).mp h).2.2.1
    omega
  | ping =>
    obtain ⟨b, hb⟩ := exec_ping_eq_ok.mp h
    rcases internalPing_cases c env hb with ⟨-, rfl, -⟩ | ⟨-, -, -, c₁, h₁ | rfl, rfl⟩
    · exact ⟨h0, fun _ => rfl⟩
    · have := pingReward_shares_zero (c := { c with lastEpochHeight := env.epochHeight }) h0 h₁
      exact this
    · exact ⟨h0, fun _ => rfl⟩

theorem run_shares_zero (calls : List (Env AccountId × Op)) (c : StakingContract AccountId)
    (h0 : c.totalStakeShares.val = 0) :
    (run N c calls).totalStakeShares.val = 0 ∧
      ∀ a, ((run N c calls).internalGetAccount a).stakeShares =
        (c.internalGetAccount a).stakeShares :=
  @run_invariant AccountId _ N (fun x => x.totalStakeShares.val = 0 ∧
      ∀ a, (x.internalGetAccount a).stakeShares = (c.internalGetAccount a).stakeShares)
    (fun _ _ _ _ hx h => ⟨(exec_shares_zero hx.1 h).1,
      fun a => ((exec_shares_zero hx.1 h).2 a).trans (hx.2 a)⟩)
    calls c ⟨h0, fun _ => rfl⟩

/-- **Zero shares freeze the pool.**  Once `total_stake_shares` is zero, every run keeps
it zero and leaves every record's shares as they were, and from then on every stake and
every unstake panics, whoever calls and whatever the amount. -/
theorem zero_shares_freeze (N : U64) (calls : List (Env AccountId × Op))
    (c : StakingContract AccountId) (h0 : c.totalStakeShares.val = 0) :
    (run N c calls).totalStakeShares.val = 0 ∧
    (∀ a, ((run N c calls).internalGetAccount a).stakeShares =
      (c.internalGetAccount a).stakeShares) ∧
    ∀ (env : Env AccountId) (amount : U128),
      (∃ msg, exec N (run N c calls) env (.stake amount) = .error msg) ∧
      ∃ msg, exec N (run N c calls) env (.unstake amount) = .error msg := by
  obtain ⟨hS, hshares⟩ := run_shares_zero (N := N) calls c h0
  refine ⟨hS, hshares, fun env amount => ⟨?_, ?_⟩⟩
  · cases hx : exec N (run N c calls) env (.stake amount) with
    | error msg => exact ⟨msg, rfl⟩
    | ok c' =>
      have := ((internalStake_eq_ok _ env).mp hx).2.2.1
      omega
  · cases hx : exec N (run N c calls) env (.unstake amount) with
    | error msg => exact ⟨msg, rfl⟩
    | ok c' =>
      have := ((innerUnstake_eq_ok _ env).mp hx).2.2.1
      omega

/-- Account `1` unstakes all ten shares at `tenSharesState`: the shares it spends are
credited back to it and `total_stake_shares` falls to zero; after a deposit, its stake of
ten panics. -/
theorem zero_shares_freeze_after_unstake :
    (step 4 tenSharesState accountOneEnv (.unstake 10)).totalStakeShares.val = 0 ∧
      ∃ msg, exec 4 (run 4 (step 4 tenSharesState accountOneEnv (.unstake 10))
        [(accountOneEnv, .deposit)]) accountOneEnv (.stake 10) = .error msg :=
  have h0 : (step 4 tenSharesState accountOneEnv (.unstake 10)).totalStakeShares.val = 0 := by
    decide
  ⟨h0, ((zero_shares_freeze 4 [(accountOneEnv, .deposit)] _ h0).2.2 accountOneEnv 10).1⟩

/-! ## The price along a run -/

omit [DecidableEq AccountId] in
/-- The price comparison composes through a state from which no shares come back. -/
theorem PriceNotBelow.trans {c₁ c₂ : StakingContract AccountId} (h₁ : PriceNotBelow c c₁)
    (h₂ : PriceNotBelow c₁ c₂)
    (hz : c₁.totalStakeShares.val = 0 → c₂.totalStakeShares.val = 0) :
    PriceNotBelow c c₂ := by
  rcases Nat.eq_zero_or_pos c₂.totalStakeShares.val with h | hS₂
  · exact .inl h
  have hS₁ : 0 < c₁.totalStakeShares.val := Nat.pos_of_ne_zero fun h => by
    have := hz h
    omega
  have h₁ := h₁.resolve_left (by omega)
  have h₂ := h₂.resolve_left (by omega)
  refine .inr (Nat.le_of_mul_le_mul_right ?_ hS₁)
  calc c.totalStakedBalance.val * c₂.totalStakeShares.val * c₁.totalStakeShares.val
      = c.totalStakedBalance.val * c₁.totalStakeShares.val * c₂.totalStakeShares.val :=
        Nat.mul_right_comm _ _ _
    _ ≤ c₁.totalStakedBalance.val * c.totalStakeShares.val * c₂.totalStakeShares.val :=
        Nat.mul_le_mul_right _ h₁
    _ = c₁.totalStakedBalance.val * c₂.totalStakeShares.val * c.totalStakeShares.val :=
        Nat.mul_right_comm _ _ _
    _ ≤ c₂.totalStakedBalance.val * c₁.totalStakeShares.val * c.totalStakeShares.val :=
        Nat.mul_le_mul_right _ h₂
    _ = c₂.totalStakedBalance.val * c.totalStakeShares.val * c₁.totalStakeShares.val :=
        Nat.mul_right_comm _ _ _

/-- **A run.**  Along a run whose additions to `total_staked_balance` do not clip, the
price does not decrease (or every share is gone). -/
theorem priceNotBelow_run :
    ∀ (calls : List (Env AccountId × Op)) (c : StakingContract AccountId),
      RunAll StakedAddsFit N c calls → PriceNotBelow c (run N c calls)
  | [], _, _ => .inr le_rfl
  | (env, op) :: calls, c, ⟨hfit, hrest⟩ => by
    have hstep : PriceNotBelow c (step N c env op) := by
      rcases step_cases N c env op with hs | hs
      · exact price_step hfit hs
      · rw [hs]
        exact .inr le_rfl
    exact hstep.trans (priceNotBelow_run calls _ hrest) fun h => (run_shares_zero calls _ h).1

/-- What `k` tokens cost in shares at one price, they cost at most at a price no lower. -/
theorem mul_le_of_price {T S T' S' k s : Nat} (hS : 0 < S) (hk : k * S ≤ T * s)
    (hp : T * S' ≤ T' * S) : k * S' ≤ T' * s := by
  refine Nat.le_of_mul_le_mul_right ?_ hS
  calc k * S' * S = k * S * S' := Nat.mul_right_comm _ _ _
    _ ≤ T * s * S' := Nat.mul_le_mul_right _ hk
    _ = T * S' * s := Nat.mul_right_comm _ _ _
    _ ≤ T' * S * s := Nat.mul_le_mul_right _ hp
    _ = T' * s * S := Nat.mul_right_comm _ _ _

/-- **An idle delegator keeps its claim.**  Along a run whose additions to
`total_staked_balance` do not clip, an account that makes none of the calls and is not
the owner keeps its record; if shares are still in circulation at the end, its shares
are worth at least the `v` that `staked_amount_from_num_shares_rounded_down` valued them
at the start, and every positive amount up to `v` costs at most those shares to unstake. -/
theorem passive_delegator_keeps_claim (N : U64) (calls : List (Env AccountId × Op))
    (c : StakingContract AccountId) (a : AccountId) (hfit : RunAll StakedAddsFit N c calls)
    (hidle : ∀ call ∈ calls, call.1.predecessorAccountId ≠ a) (hown : a ≠ c.ownerId)
    (hS : 0 < (run N c calls).totalStakeShares.val) :
    (run N c calls).internalGetAccount a = c.internalGetAccount a ∧
    ∀ v : U128,
      c.stakedAmountFromNumSharesRoundedDown (c.internalGetAccount a).stakeShares =
        .ok v →
      v.val ≤ (run N c calls).totalStakedBalance.val *
          (c.internalGetAccount a).stakeShares.val / (run N c calls).totalStakeShares.val ∧
      ∀ x : U128, 0 < x.val → x.val ≤ v.val →
        ∃ n : U128, (run N c calls).numSharesFromStakedAmountRoundedUp x = .ok n ∧
          n.val ≤ (c.internalGetAccount a).stakeShares.val := by
  refine ⟨((run_frame a calls c hidle).2.eq hown), fun v hv => ?_⟩
  obtain ⟨hS₀, hv⟩ := mulDivFloor_eq_ok.mp hv
  have hprice := (priceNotBelow_run calls c hfit).resolve_left (by omega)
  generalize run N c calls = c' at hS hprice ⊢
  generalize (c.internalGetAccount a).stakeShares = s at hv ⊢
  -- `v S ≤ T s` at the start, so `v S' ≤ T' s` at the end.
  have hworth : v.val * c.totalStakeShares.val ≤ c.totalStakedBalance.val * s.val :=
    hv ▸ (Nat.div_mul_le_self _ _)
  refine ⟨(Nat.le_div_iff_mul_le hS).mpr (mul_le_of_price hS₀ hworth hprice), fun x hx hxv => ?_⟩
  have hcost : x.val * c'.totalStakeShares.val ≤ c'.totalStakedBalance.val * s.val :=
    mul_le_of_price hS₀ (Nat.le_trans (Nat.mul_le_mul_right _ hxv) hworth) hprice
  have hT' : 0 < c'.totalStakedBalance.val := by
    rcases Nat.eq_zero_or_pos c'.totalStakedBalance.val with h | h
    · rw [h, Nat.zero_mul] at hcost
      have := Nat.mul_pos hx hS
      omega
    · exact h
  have hle : (c'.totalStakeShares.val * x.val + (c'.totalStakedBalance.val - 1)) /
      c'.totalStakedBalance.val ≤ s.val :=
    (ceil_le_iff hT').mpr (by rw [Nat.mul_comm, Nat.mul_comm s.val]; exact hcost)
  exact ⟨⟨_, Nat.lt_of_le_of_lt hle s.isLt⟩, mulDivCeil_eq_ok.mpr ⟨hT', rfl⟩, hle⟩

/-- Account `2` deposits and stakes 5 at `tenSharesState`; account `1`, idle, keeps its
ten shares. -/
def idleCalls : List (Env Nat × Op) :=
  [(⟨2, 5, 0, 105, 0⟩, .deposit), (⟨2, 0, 0, 105, 0⟩, .stake 5)]

theorem passive_delegator_keeps_claim_idle :
    RunAll StakedAddsFit 4 tenSharesState idleCalls ∧
      (∀ call ∈ idleCalls, call.1.predecessorAccountId ≠ 1) ∧ 1 ≠ tenSharesState.ownerId ∧
      0 < (run 4 tenSharesState idleCalls).totalStakeShares.val ∧
      (run 4 tenSharesState idleCalls).internalGetAccount 1 =
        tenSharesState.internalGetAccount 1 :=
  have hfit : RunAll StakedAddsFit 4 tenSharesState idleCalls := ⟨trivial, by decide, trivial⟩
  have hidle : ∀ call ∈ idleCalls, call.1.predecessorAccountId ≠ 1 := by decide
  have hS : 0 < (run 4 tenSharesState idleCalls).totalStakeShares.val := by decide
  ⟨hfit, hidle, by decide, hS,
    (passive_delegator_keeps_claim 4 idleCalls tenSharesState 1 hfit hidle (by decide) hS).1⟩

end StakingContract

end UncContracts
