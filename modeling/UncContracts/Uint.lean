import Mathlib

/-!
# Machine integers of the staking pool

Token amounts (`UncToken`) and share counts (`NumStakeShares`) are `u128`,
epoch heights are `u64`.  The contract touches them through `saturating_add`,
`saturating_sub`, a `U256` intermediate for the share conversions, and the
`as_u128` downcast back.  A panic of the host (`assert!`, `U256` overflow,
a failed downcast) is `Except.error` with the panic's message.
-/

namespace UncContracts

/-- `u128`. -/
abbrev U128 := Fin (2 ^ 128)

/-- `u64`. -/
abbrev U64 := Fin (2 ^ 64)

/-- `u128::saturating_add`. -/
def U128.saturatingAdd (a b : U128) : U128 :=
  ⟨min (a.val + b.val) (2 ^ 128 - 1), by omega⟩

/-- `u128::saturating_sub`. -/
def U128.saturatingSub (a b : U128) : U128 :=
  ⟨a.val - b.val, by omega⟩

@[simp] theorem U128.val_saturatingAdd (a b : U128) :
    (a.saturatingAdd b).val = min (a.val + b.val) (2 ^ 128 - 1) := rfl

@[simp] theorem U128.val_saturatingSub (a b : U128) :
    (a.saturatingSub b).val = a.val - b.val := rfl

/-- `assert!(cond, msg)`. -/
def require (cond : Prop) [Decidable cond] (msg : String) : Except String Unit :=
  if cond then pure () else throw msg

@[simp] theorem require_eq_ok {cond : Prop} [Decidable cond] {msg : String} {u : Unit} :
    require cond msg = .ok u ↔ cond := by
  unfold require; split <;> simp_all [pure, Except.pure, throw, throwThe, MonadExceptOf.throw]

@[simp] theorem require_eq_error {cond : Prop} [Decidable cond] {msg e : String} :
    require cond msg = .error e ↔ ¬cond ∧ e = msg := by
  unfold require; split <;> simp_all [pure, Except.pure, throw, throwThe, MonadExceptOf.throw, eq_comm]

/-- Peeling one step off a successful computation. -/
theorem bind_eq_ok {α β : Type} {x : Except String α} {f : α → Except String β} {b : β} :
    x >>= f = .ok b ↔ ∃ a, x = .ok a ∧ f a = .ok b := by
  cases x <;> simp [bind, Except.bind]

theorem ok_bind {α β : Type} (a : α) (f : α → Except String β) :
    (Except.ok a : Except String α) >>= f = f a := rfl

theorem error_bind {α β : Type} (e : String) (f : α → Except String β) :
    (Except.error e : Except String α) >>= f = .error e := rfl

/-- A computation whose steps never panic with `m` does not panic with `m`. -/
theorem bind_ne_error {α β : Type} {x : Except String α} {f : α → Except String β} {m : String}
    (hx : x ≠ .error m) (hf : ∀ a, f a ≠ .error m) : x >>= f ≠ .error m := by
  cases x with
  | error e => exact fun h => hx (congrArg Except.error (Except.error.inj h))
  | ok a => exact hf a

theorem require_ne_error {cond : Prop} [Decidable cond] {msg m : String} (h : msg ≠ m) :
    require cond msg ≠ .error m :=
  fun h' => h (require_eq_error.mp h').2.symm

theorem map_eq_ok {α β : Type} {x : Except String α} {f : α → β} {b : β} :
    f <$> x = .ok b ↔ ∃ a, x = .ok a ∧ f a = b := by
  cases x <;> simp [Functor.map, Except.map]

/-- A computation that evaluates to a success has a result to name. -/
theorem exists_eq_ok_of_toBool {α : Type} {x : Except String α} (h : x.toBool = true) :
    ∃ a, x = .ok a := by
  cases x with
  | error e => cases h
  | ok a => exact ⟨a, rfl⟩

/-- `U256` multiplication: panics on overflow. -/
def U256.mul (a b : Nat) : Except String Nat :=
  if a * b < 2 ^ 256 then pure (a * b) else throw "arithmetic operation overflow"

/-- `U256` addition: panics on overflow. -/
def U256.add (a b : Nat) : Except String Nat :=
  if a + b < 2 ^ 256 then pure (a + b) else throw "arithmetic operation overflow"

/-- A value at width `n`, or the panic `msg` when it does not fit: the one check behind
`as_u128` and the overflow-checked additions. -/
def checkedFin (n : Nat) (msg : String) (a : Nat) : Except String (Fin n) :=
  if h : a < n then pure ⟨a, h⟩ else throw msg

@[simp] theorem checkedFin_eq_ok {n : Nat} {msg : String} {a : Nat} {r : Fin n} :
    checkedFin n msg a = .ok r ↔ r.val = a := by
  unfold checkedFin
  split
  · constructor
    · intro h
      exact congrArg Fin.val (Except.ok.inj h).symm
    · intro h
      exact congrArg Except.ok (Fin.ext h.symm)
  · exact iff_of_false (fun h => nomatch h) fun h => ‹¬a < n› (h ▸ r.isLt)

@[simp] theorem checkedFin_eq_error {n : Nat} {msg e : String} {a : Nat} :
    checkedFin n msg a = .error e ↔ n ≤ a ∧ e = msg := by
  unfold checkedFin
  split
  · exact iff_of_false (fun h => nomatch h) fun h => Nat.not_le.mpr ‹a < n› h.1
  · constructor
    · intro h
      exact ⟨Nat.le_of_not_lt ‹¬a < n›, (Except.error.inj h).symm⟩
    · rintro ⟨-, rfl⟩
      rfl

/-- `U256::as_u128`: panics when the value does not fit. -/
def U256.asU128 (a : Nat) : Except String U128 :=
  checkedFin (2 ^ 128) "Integer overflow when casting to u128" a

/-- `u64` addition with the overflow check of the contract's release profile. -/
def U64.add (a b : U64) : Except String U64 :=
  checkedFin (2 ^ 64) "attempt to add with overflow" (a.val + b.val)

/-- `u128` addition with the overflow check of the contract's release profile. -/
def U128.add (a b : U128) : Except String U128 :=
  checkedFin (2 ^ 128) "attempt to add with overflow" (a.val + b.val)

/-- Two `u128`s multiply within `U256`. -/
theorem U256.mul_u128 (a b : U128) : U256.mul a.val b.val = .ok (a.val * b.val) := by
  have : a.val * b.val < 2 ^ 256 :=
    calc a.val * b.val < 2 ^ 128 * 2 ^ 128 :=
          Nat.mul_lt_mul_of_lt_of_lt a.isLt b.isLt
      _ = 2 ^ 256 := (Nat.pow_add 2 128 128).symm
  rw [U256.mul, if_pos this]; rfl

@[simp] theorem U256.asU128_eq_ok {a : Nat} {r : U128} : U256.asU128 a = .ok r ↔ r.val = a :=
  checkedFin_eq_ok

@[simp] theorem U64.add_eq_ok {a b r : U64} : U64.add a b = .ok r ↔ r.val = a.val + b.val :=
  checkedFin_eq_ok

@[simp] theorem U128.add_eq_ok {a b r : U128} : U128.add a b = .ok r ↔ r.val = a.val + b.val :=
  checkedFin_eq_ok

end UncContracts
