import UncContracts.State

/-!
# Share math: the four conversions between staked amounts and shares

`num_shares_from_staked_amount_rounded_{down,up}` and
`staked_amount_from_num_shares_rounded_{down,up}` are one computation,
`numer * x / denom` through a `U256` intermediate after asserting
`denom > 0`, rounded down (`mulDivFloor`) or up by adding `denom - 1` first
(`mulDivCeil`).  They differ in which total is the numerator and in the
assertion's message.

    mulDivFloor msg n d x = .ok r ↔ 0 < d ∧ r = n x / d          (mulDivFloor_eq_ok)
    mulDivCeil  msg n d x = .ok r ↔ 0 < d ∧ r = (n x + d - 1) / d (mulDivCeil_eq_ok)

The `ceil_*`/`floor_*` lemmas are the rounding facts the ledger proofs use.
-/

namespace UncContracts

/-! ## Algorithm -/

/-- `numer * x / denom` rounded down, through `U256`. -/
def mulDivFloor (msg : String) (numer denom x : U128) : Except String U128 := do
  require (denom.val > 0) msg
  let p ← U256.mul numer.val x.val
  U256.asU128 (p / denom.val)

/-- `numer * x / denom` rounded up as `(a + b - 1) / b`, through `U256`. -/
def mulDivCeil (msg : String) (numer denom x : U128) : Except String U128 := do
  require (denom.val > 0) msg
  let p ← U256.mul numer.val x.val
  let p ← U256.add p (denom.val - 1)
  U256.asU128 (p / denom.val)

variable {AccountId : Type}

namespace StakingContract

variable (self : StakingContract AccountId)

/-- Returns the number of "stake" shares rounded down corresponding to the given staked
balance amount. -/
def numSharesFromStakedAmountRoundedDown (amount : U128) : Except String U128 :=
  mulDivFloor "The total staked balance can't be 0"
    self.totalStakeShares self.totalStakedBalance amount

/-- Returns the number of "stake" shares rounded up corresponding to the given staked
balance amount. -/
def numSharesFromStakedAmountRoundedUp (amount : U128) : Except String U128 :=
  mulDivCeil "The total staked balance can't be 0"
    self.totalStakeShares self.totalStakedBalance amount

/-- Returns the staked amount rounded down corresponding to the given number of "stake"
shares. -/
def stakedAmountFromNumSharesRoundedDown (num_shares : U128) : Except String U128 :=
  mulDivFloor "The total number of stake shares can't be 0"
    self.totalStakedBalance self.totalStakeShares num_shares

/-- Returns the staked amount rounded up corresponding to the given number of "stake"
shares. -/
def stakedAmountFromNumSharesRoundedUp (num_shares : U128) : Except String U128 :=
  mulDivCeil "The total number of stake shares can't be 0"
    self.totalStakedBalance self.totalStakeShares num_shares

end StakingContract

/-! ## Lemmas -/

/-- The rounded-up intermediate `n x + (d - 1)` of two `u128`s stays within `U256`. -/
theorem U256.add_mul_u128 (n x d : U128) :
    U256.add (n.val * x.val) (d.val - 1) = .ok (n.val * x.val + (d.val - 1)) := by
  have hnx : n.val * x.val ≤ (2 ^ 128 - 1) * (2 ^ 128 - 1) :=
    Nat.mul_le_mul (by omega) (by omega)
  have hmax : (2 ^ 128 - 1) * (2 ^ 128 - 1) + (2 ^ 128 - 2) < 2 ^ 256 := by decide
  have : n.val * x.val + (d.val - 1) < 2 ^ 256 := by omega
  rw [U256.add, if_pos this]; rfl

theorem mulDivFloor_eq_ok {msg : String} {n d x r : U128} :
    mulDivFloor msg n d x = .ok r ↔ 0 < d.val ∧ r.val = n.val * x.val / d.val := by
  simp [mulDivFloor, bind_eq_ok, U256.mul_u128]

theorem mulDivCeil_eq_ok {msg : String} {n d x r : U128} :
    mulDivCeil msg n d x = .ok r ↔ 0 < d.val ∧ r.val = (n.val * x.val + (d.val - 1)) / d.val := by
  simp [mulDivCeil, bind_eq_ok, U256.mul_u128, U256.add_mul_u128]

/-- The conversions panic only with their own message or the cast's. -/
theorem mulDivCeil_ne_error {msg m : String} {n d x : U128} (h : msg ≠ m)
    (hc : "Integer overflow when casting to u128" ≠ m) : mulDivCeil msg n d x ≠ .error m := by
  refine bind_ne_error (require_ne_error h) fun _ => ?_
  rw [U256.mul_u128]
  show U256.add (n.val * x.val) (d.val - 1) >>= (fun p => U256.asU128 (p / d.val)) ≠ _
  rw [U256.add_mul_u128]
  exact fun h' => hc (checkedFin_eq_error.mp h').2.symm

theorem mulDivFloor_ne_error {msg m : String} {n d x : U128} (h : msg ≠ m)
    (hc : "Integer overflow when casting to u128" ≠ m) : mulDivFloor msg n d x ≠ .error m := by
  refine bind_ne_error (require_ne_error h) fun _ => ?_
  rw [U256.mul_u128]
  exact fun h' => hc (checkedFin_eq_error.mp h').2.symm

/-- With a positive denominator, only the final `as_u128` can fail. -/
theorem mulDivFloor_eq {msg : String} {n d x : U128} (hd : 0 < d.val) :
    mulDivFloor msg n d x = U256.asU128 (n.val * x.val / d.val) := by
  simp only [mulDivFloor, require, gt_iff_lt, hd, if_true, U256.mul_u128]
  rfl

theorem mulDivCeil_eq {msg : String} {n d x : U128} (hd : 0 < d.val) :
    mulDivCeil msg n d x = U256.asU128 ((n.val * x.val + (d.val - 1)) / d.val) := by
  simp only [mulDivCeil, require, gt_iff_lt, hd, if_true, U256.mul_u128]
  show U256.add (n.val * x.val) (d.val - 1) >>= (fun p => U256.asU128 (p / d.val)) = _
  rw [U256.add_mul_u128]
  rfl

section Rounding

variable {p d k : Nat}

theorem lt_floor_succ_mul (hd : 0 < d) : p < (p / d + 1) * d :=
  (Nat.div_lt_iff_lt_mul hd).mp (Nat.lt_succ_self _)

/-- `(p + d - 1) / d` is the least `k` with `p ≤ k d`. -/
theorem ceil_le_iff (hd : 0 < d) : (p + (d - 1)) / d ≤ k ↔ p ≤ k * d := by
  rw [← Nat.lt_succ_iff, Nat.div_lt_iff_lt_mul hd, Nat.succ_mul]
  omega

theorem le_ceil_mul (hd : 0 < d) : p ≤ (p + (d - 1)) / d * d :=
  (ceil_le_iff hd).mp le_rfl

theorem floor_le_ceil : p / d ≤ (p + (d - 1)) / d :=
  Nat.div_le_div_right (Nat.le_add_right _ _)

theorem ceil_le_floor_succ (hd : 0 < d) : (p + (d - 1)) / d ≤ p / d + 1 :=
  (ceil_le_iff hd).mpr (Nat.le_of_lt (lt_floor_succ_mul hd))

/-- Rounding up adds one exactly when the division is inexact. -/
theorem ceil_eq_floor_add (hd : 0 < d) :
    (p + (d - 1)) / d = p / d + if p % d = 0 then 0 else 1 := by
  have hfloor := @floor_le_ceil p d
  have hsucc := ceil_le_floor_succ (p := p) hd
  -- The ceiling is the floor exactly when `d` divides `p`.
  have hexact : (p + (d - 1)) / d ≤ p / d ↔ p % d = 0 := by
    rw [ceil_le_iff hd, Nat.mul_comm]
    have := Nat.div_add_mod p d
    omega
  split_ifs with h <;> omega

end Rounding

end UncContracts
