import UncContracts.Sdk.AccountId
import UncContracts.Uint
import Mathlib.Algebra.BigOperators.Group.List

/-!
# The lockup factory: derived lockup account ids

`LockupFactory::new` accepts a factory account of at most 23 bytes.  `create` names
the lockup `format!("{}.{}", hex::encode(&sha256(owner)[..20]), factory)`: 40 hex
digits, a dot and the factory's id, so at most `40 + 1 + 23 = 64` bytes, the SDK's
limit.  Its `parse().unwrap()` never panics, and the lockup is a direct sub-account
of the factory (`lockupAccountId_valid`).

The promise `create` returns (create, deploy, transfer, `new`, callback) and the
arguments it only forwards are not modelled: `create` returns the account it names.
-/

namespace UncContracts

open Sdk

/-- A SHA-256 digest. -/
structure Digest where
  bytes : List UInt8
  length_eq : bytes.length = 32

/-- The host as the factory's calls see it. -/
structure FactoryEnv where
  currentAccountId : AccountId
  attachedDeposit : U128
  stateExists : Bool
  sha256 : List UInt8 → Digest

/-- The factory's state. -/
structure LockupFactory where
  whitelistAccountId : AccountId
  foundationAccountId : AccountId

def minAttachedBalance : Nat := 3500000000000000000000000

/-- The `hex` crate's lower-case digits. -/
def hexCharsLower : List Char := "0123456789abcdef".toList

/-- `hex::encode`: two digits a byte, the high nibble first. -/
def hexEncode : List UInt8 → List Char
  | [] => []
  | b :: bs =>
    hexCharsLower.getD (b.toNat / 16) '0' :: hexCharsLower.getD (b.toNat % 16) '0' ::
      hexEncode bs

/-- `AccountId::as_bytes`: the id's UTF-8 bytes. -/
def Sdk.AccountId.asBytes (id : AccountId) : List UInt8 := (String.mk id.chars).toUTF8.toList

/-- `Result::unwrap` of a parse: a panic on an error. -/
def unwrap {α : Type} : Except ParseAccountError α → Except String α
  | .ok a => .ok a
  | .error _ => .error "called Result::unwrap() on an Err value"

namespace LockupFactory

def new (env : FactoryEnv) (whitelistAccountId foundationAccountId : AccountId) :
    Except String LockupFactory := do
  require (env.stateExists = false) "The contract is already initialized"
  require (env.currentAccountId.len ≤ 23)
    "The account ID of this contract can't be more than 23 characters"
  pure { whitelistAccountId, foundationAccountId }

/-- The account `create` creates and deploys the lockup contract to. -/
def create (env : FactoryEnv) (ownerAccountId : AccountId) : Except String AccountId := do
  require (env.attachedDeposit.val ≥ minAttachedBalance) "Not enough attached deposit"
  let byte_slice := env.sha256 ownerAccountId.asBytes
  let lockupAccountId ← unwrap (parse
    (hexEncode (byte_slice.bytes.take 20) ++ '.' :: env.currentAccountId.chars))
  pure lockupAccountId

end LockupFactory

/-! ## Lemmas -/

theorem hexEncode_length (bs : List UInt8) : (hexEncode bs).length = 2 * bs.length := by
  induction bs with
  | nil => rfl
  | cons b bs ih =>
    simp only [hexEncode, List.length_cons, ih]
    omega

theorem hex_digit_alnum : ∀ i < 16, isAlnum (hexCharsLower.getD i '0') = true := by
  decide

/-- Hex digits are letters and digits. -/
theorem hexEncode_alnum (bs : List UInt8) : ∀ c ∈ hexEncode bs, isAlnum c = true := by
  induction bs with
  | nil => exact fun _ hc => absurd hc (List.not_mem_nil _)
  | cons b bs ih =>
    have hb := b.toNat_lt_size
    intro c hc
    simp only [hexEncode, List.mem_cons] at hc
    rcases hc with rfl | rfl | hc
    · exact hex_digit_alnum _ (Nat.div_lt_of_lt_mul hb)
    · exact hex_digit_alnum _ (Nat.mod_lt _ (by decide))
    · exact ih c hc

theorem len_append (s t : List Char) : len (s ++ t) = len s + len t := by
  simp [len, List.sum_append]

/-- A string that validates is an account id with those characters. -/
theorem parse_of_validate {s : List Char} (h : validate s = .ok ()) :
    ∃ id : AccountId, parse s = .ok id ∧ id.chars = s := by
  unfold parse
  split
  · exact ⟨_, rfl, rfl⟩
  · next e he => simp [he] at h

namespace LockupFactory

theorem new_eq_ok {env : FactoryEnv} {whitelistAccountId foundationAccountId : AccountId}
    {factory : LockupFactory} :
    new env whitelistAccountId foundationAccountId = .ok factory ↔
      env.stateExists = false ∧ env.currentAccountId.len ≤ 23 ∧
      factory = { whitelistAccountId, foundationAccountId } := by
  simp only [new, bind_eq_ok, map_eq_ok, require_eq_ok, pure, Except.pure, Except.ok.injEq]
  constructor
  · rintro ⟨-, hs, -, hl, rfl⟩
    exact ⟨hs, hl, rfl⟩
  · rintro ⟨hs, hl, rfl⟩
    exact ⟨(), hs, (), hl, rfl⟩

end LockupFactory

/-- **Derived lockup account ids are valid.**  For every factory account `new` accepts
and every owner, `create` with enough deposit names the account
`hex(sha256(owner)[..20]).factory`: it parses, so the `unwrap` does not panic; it is
41 bytes longer than the factory's id and at most 64 bytes; and it is a direct
sub-account of the factory. -/
theorem lockupAccountId_valid (env env' : FactoryEnv)
    (whitelistAccountId foundationAccountId ownerAccountId : AccountId)
    (factory : LockupFactory)
    (hnew : LockupFactory.new env whitelistAccountId foundationAccountId = .ok factory)
    (hcurrent : env'.currentAccountId = env.currentAccountId)
    (hdeposit : minAttachedBalance ≤ env'.attachedDeposit.val) :
    ∃ lockupAccountId : AccountId,
      LockupFactory.create env' ownerAccountId = .ok lockupAccountId ∧
      lockupAccountId.chars = hexEncode ((env'.sha256 ownerAccountId.asBytes).bytes.take 20) ++
        '.' :: env.currentAccountId.chars ∧
      lockupAccountId.len = 41 + env.currentAccountId.len ∧
      lockupAccountId.len ≤ 64 ∧
      lockupAccountId.isSubAccountOf env.currentAccountId = true := by
  obtain ⟨-, hlen, -⟩ := LockupFactory.new_eq_ok.mp hnew
  generalize hdig : env'.sha256 ownerAccountId.asBytes = digest
  generalize hhex : hexEncode (digest.bytes.take 20) = hex
  have hhex_len : hex.length = 40 := by
    rw [← hhex, hexEncode_length, List.length_take, digest.length_eq]
    rfl
  have hhex_alnum : ∀ c ∈ hex, isAlnum c = true := hhex ▸ hexEncode_alnum _
  have hhex_len' : len hex = 40 := hhex_len ▸ len_of_one_byte fun c hc =>
    utf8Size_of_valid_char (.inl (hhex_alnum c hc))
  obtain ⟨hmin, hmax, hchars⟩ := validate_eq_ok.mp env.currentAccountId.valid
  -- The derived name: the hex digits run through the loop, the dot is a single separator.
  have hname : len (hex ++ '.' :: env.currentAccountId.chars) =
      41 + env.currentAccountId.len := by
    rw [len_append, hhex_len', show '.' :: env.currentAccountId.chars =
      ['.'] ++ env.currentAccountId.chars from rfl, len_append,
      show len ['.'] = 1 from rfl, AccountId.len]
    omega
  have hvalid : validate (hex ++ '.' :: env.currentAccountId.chars) = .ok () := by
    refine validate_eq_ok.mpr ⟨?_, ?_, ?_⟩
    · rw [hname]
      exact Nat.le_add_right_of_le (by decide)
    · rw [hname]
      exact Nat.add_le_of_le_sub' (by decide) hlen
    · rw [validateChars_append_alnum _ hhex_alnum (List.ne_nil_of_length_pos (by omega)),
        validateChars_dot]
      exact hchars
  obtain ⟨id, hparse, hid⟩ := parse_of_validate hvalid
  have hid_len : id.len = 41 + env.currentAccountId.len := by
    rw [AccountId.len, hid, hname]
  refine ⟨id, ?_, hid, hid_len, by rw [hid_len]; omega, ?_⟩
  · simp [LockupFactory.create, bind_eq_ok, map_eq_ok, hdeposit, hdig, hcurrent, hhex, hparse,
      unwrap]
  · exact AccountId.isSubAccountOf_of_eq hid fun hdot =>
      absurd (hhex_alnum '.' hdot) (by decide)

/-- The account `owner`. -/
def ownerAccountId : AccountId := ⟨"owner".toList, rfl⟩

/-- The factory `lockup.unc` before `new`; the host's hash is left constant. -/
def factoryInitEnv : FactoryEnv :=
  ⟨⟨"lockup.unc".toList, rfl⟩, 0, false, fun _ => ⟨List.replicate 32 0, rfl⟩⟩

/-- A `create` call to `lockup.unc` with 35 UNC attached, as the factory's tests attach. -/
def factoryCreateEnv : FactoryEnv :=
  { factoryInitEnv with
    attachedDeposit := ⟨35000000000000000000000000, by decide⟩
    stateExists := true }

/-- `lockup.unc` has 10 bytes, so the lockup account has 51. -/
theorem lockupAccountId_valid_lockup_unc :
    ∃ lockupAccountId : AccountId,
      LockupFactory.create factoryCreateEnv ownerAccountId = .ok lockupAccountId ∧
      lockupAccountId.len = 51 := by
  obtain ⟨id, hcreate, -, hlen, -, -⟩ := lockupAccountId_valid factoryInitEnv factoryCreateEnv
    ownerAccountId ownerAccountId ownerAccountId ⟨ownerAccountId, ownerAccountId⟩ rfl rfl (by decide)
  exact ⟨id, hcreate, hlen.trans rfl⟩

end UncContracts
