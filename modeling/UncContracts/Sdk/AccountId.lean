import Mathlib

/-!
# Account ids of the SDK

`AccountId` belongs to the SDK, not to `src/`: a string that the SDK's validation
accepts.  It is 2 to 64 bytes long and made of lowercase letters and digits, in parts
separated by `-`, `_` or `.`, with no separator first, last, or next to another.  The
validation runs one loop over the characters, carrying whether the last one was a
separator (`validateChars`).

`AccountId` carries its validation as a field, so every id that exists is valid.
`is_sub_account_of` strips the parent and then a dot, and asks that no dot remain.
-/

namespace UncContracts

namespace Sdk

/-- `a`-`z` or `0`-`9`. -/
def isAlnum (c : Char) : Bool := ('a' ≤ c && c ≤ 'z') || ('0' ≤ c && c ≤ '9')

/-- `-`, `_` or `.`. -/
def isSeparator (c : Char) : Bool := c == '-' || c == '_' || c == '.'

inductive ParseAccountError
  | tooShort
  | tooLong
  | invalidChar
  | redundantSeparator
  deriving DecidableEq, Repr

def minLen : Nat := 2

def maxLen : Nat := 64

/-- The character loop of the validation; `last_char_is_separator` starts `true`. -/
def validateChars : Bool → List Char → Except ParseAccountError Unit
  | last_char_is_separator, [] =>
    if last_char_is_separator then .error .redundantSeparator else .ok ()
  | last_char_is_separator, c :: cs =>
    if isAlnum c then validateChars false cs
    else if isSeparator c then
      if last_char_is_separator then .error .redundantSeparator else validateChars true cs
    else .error .invalidChar

/-- `str::len`: the length in bytes of the UTF-8 encoding. -/
def len (s : List Char) : Nat := (s.map Char.utf8Size).sum

def validate (s : List Char) : Except ParseAccountError Unit :=
  if len s < minLen then .error .tooShort
  else if maxLen < len s then .error .tooLong
  else validateChars true s

/-- A valid account id. -/
structure AccountId where
  chars : List Char
  valid : validate chars = .ok ()

/-- `str::parse::<AccountId>`. -/
def parse (s : List Char) : Except ParseAccountError AccountId :=
  match h : validate s with
  | .ok () => .ok ⟨s, h⟩
  | .error e => .error e

def AccountId.len (self : AccountId) : Nat := Sdk.len self.chars

/-- `str::strip_suffix`. -/
def stripSuffix (s suffix : List Char) : Option (List Char) :=
  if suffix.isSuffixOf s then some (s.take (s.length - suffix.length)) else none

/-- `self` is `prefix.parent` for a `prefix` without a dot. -/
def AccountId.isSubAccountOf (self parent : AccountId) : Bool :=
  match (stripSuffix self.chars parent.chars).bind fun s => stripSuffix s ['.'] with
  | some s => !s.contains '.'
  | none => false

/-! ## Lemmas -/

theorem utf8Size_of_le_z {c : Char} (h : c ≤ 'z') : c.utf8Size = 1 := by
  rw [Char.le_def] at h
  unfold Char.utf8Size
  exact if_pos (UInt32.le_trans h (by decide))

/-- Letters, digits and separators are one byte. -/
theorem utf8Size_of_valid_char {c : Char} (h : isAlnum c = true ∨ isSeparator c = true) :
    c.utf8Size = 1 := by
  simp only [isAlnum, isSeparator, Bool.or_eq_true, Bool.and_eq_true, decide_eq_true_eq,
    beq_iff_eq] at h
  rcases h with (⟨-, h⟩ | ⟨-, h⟩) | (h | h) | h
  · exact utf8Size_of_le_z h
  · exact utf8Size_of_le_z (Char.le_def.mpr (UInt32.le_trans (Char.le_def.mp h) (by decide)))
  all_goals subst h; rfl

theorem len_of_one_byte {s : List Char} (h : ∀ c ∈ s, c.utf8Size = 1) : len s = s.length := by
  induction s with
  | nil => rfl
  | cons c cs ih =>
    simp only [len, List.map_cons, List.sum_cons, List.length_cons] at ih ⊢
    rw [h c (List.mem_cons_self _ _), ih fun d hd => h d (List.mem_cons_of_mem _ hd)]
    omega

theorem validate_eq_ok {s : List Char} :
    validate s = .ok () ↔ minLen ≤ len s ∧ len s ≤ maxLen ∧ validateChars true s = .ok () := by
  unfold validate
  split_ifs <;> simp_all

/-- Letters and digits run through the loop, which then continues after them. -/
theorem validateChars_append_alnum {l : List Char} (rest : List Char)
    (hl : ∀ c ∈ l, isAlnum c = true) (hne : l ≠ []) :
    ∀ b, validateChars b (l ++ rest) = validateChars false rest := by
  induction l with
  | nil => exact absurd rfl hne
  | cons c cs ih =>
    intro b
    rw [List.cons_append, validateChars, if_pos (hl c (List.mem_cons_self _ _))]
    rcases cs with _ | ⟨d, ds⟩
    · rfl
    · exact ih (fun e he => hl e (List.mem_cons_of_mem _ he)) (List.cons_ne_nil _ _) false

theorem validateChars_dot (rest : List Char) :
    validateChars false ('.' :: rest) = validateChars true rest := rfl

theorem stripSuffix_append (s t : List Char) : stripSuffix (s ++ t) t = some s := by
  simp [stripSuffix, List.isSuffixOf_iff_suffix, List.suffix_append]

/-- `pre.parent` with no dot in `pre` is a direct sub-account of `parent`. -/
theorem AccountId.isSubAccountOf_of_eq {id parent : AccountId} {pre : List Char}
    (h : id.chars = pre ++ '.' :: parent.chars) (hpre : '.' ∉ pre) :
    id.isSubAccountOf parent = true := by
  have h₁ : stripSuffix id.chars parent.chars = some (pre ++ ['.']) := by
    rw [h, ← List.singleton_append, ← List.append_assoc, stripSuffix_append]
  simp [AccountId.isSubAccountOf, h₁, stripSuffix_append, hpre]

end Sdk

end UncContracts
