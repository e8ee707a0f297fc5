import AiPlatform.Kernel.Unicode
import Mathlib.Data.String.Basic

/-!
# Identifier checks shared by several contexts

`SAFE_ID_PATTERN` and `SAFE_PRINCIPAL_USER_ID_PATTERN` are single character classes with a length
bound, so `fullmatch` is a test on the first character, on the others and on the length. The
colon is an accepted character of both.
-/
namespace AiPlatform.Kernel

def isAsciiAlnum (c : Char) : Bool :=
  ('A' ≤ c && c ≤ 'Z') || ('a' ≤ c && c ≤ 'z') || ('0' ≤ c && c ≤ '9')

/-- `[A-Za-z0-9][class]{0,127}` matched against the whole text. -/
def fullmatchId (rest : Char → Bool) (value : String) : Bool :=
  match value.toList with
  | [] => false
  | c :: cs => isAsciiAlnum c && cs.all rest && cs.length ≤ 127

def isSafeIdChar (c : Char) : Bool :=
  isAsciiAlnum c || c == '_' || c == '.' || c == ':' || c == '-'

def isSafePrincipalChar (c : Char) : Bool :=
  isSafeIdChar c || c == '@' || c == '+'

/-- `assert_safe_id` accepts the value. -/
def safeId (value : String) : Bool := fullmatchId isSafeIdChar value

/-- `".." in value`. -/
def hasDoubleDot : List Char → Bool
  | '.' :: '.' :: _ => true
  | _ :: cs => hasDoubleDot cs
  | [] => false

/-- `assert_safe_principal_user_id` accepts the value. -/
def safePrincipalUserId (value : String) : Bool :=
  fullmatchId isSafePrincipalChar value && !hasDoubleDot value.toList

def isRefChar (c : Char) : Bool := isAsciiAlnum c || c == '_' || c == '-'

/-- `[A-Za-z0-9][A-Za-z0-9_-]{0,255}` matched against the whole text. -/
def safePublicRef (value : String) : Bool :=
  match value.toList with
  | [] => false
  | c :: cs => isAsciiAlnum c && cs.all isRefChar && cs.length ≤ 255

theorem ne_empty_of_safeId {value : String} (h : safeId value = true) : value ≠ "" := by
  rintro rfl
  revert h
  decide

/-- The text starts with an ASCII letter or digit. -/
def startsAlnum : List Char → Bool
  | [] => false
  | c :: _ => isAsciiAlnum c

theorem isSafeIdChar_of_isAsciiAlnum {c : Char} (h : isAsciiAlnum c = true) :
    isSafeIdChar c = true := by
  simp [isSafeIdChar, h]

theorem safeId_iff {value : String} :
    safeId value = true ↔ startsAlnum value.toList = true ∧
      value.toList.all isSafeIdChar = true ∧ value.toList.length ≤ 128 := by
  unfold safeId fullmatchId
  cases value.toList with
  | nil => simp [startsAlnum]
  | cons c cs =>
    simp only [startsAlnum, Bool.and_eq_true, decide_eq_true_eq, List.all_cons, List.length_cons]
    constructor
    · rintro ⟨⟨hc, hcs⟩, hlength⟩
      exact ⟨hc, ⟨isSafeIdChar_of_isAsciiAlnum hc, hcs⟩, by omega⟩
    · rintro ⟨hc, ⟨-, hcs⟩, hlength⟩
      exact ⟨⟨hc, hcs⟩, by omega⟩

theorem isSafeIdChar_of_isDigit {c : Char} (h : c.isDigit = true) : isSafeIdChar c = true := by
  apply isSafeIdChar_of_isAsciiAlnum
  simp only [Char.isDigit, Bool.and_eq_true, decide_eq_true_eq] at h
  simp only [isAsciiAlnum, Bool.or_eq_true, Bool.and_eq_true, decide_eq_true_eq, Char.le_def]
  exact .inr h

theorem isSafeIdChar_ascii {c : Char} (h : isSafeIdChar c = true) : c.val < 128 := by
  simp only [isSafeIdChar, isAsciiAlnum, Bool.or_eq_true, Bool.and_eq_true, decide_eq_true_eq,
    beq_iff_eq, Char.le_def] at h
  rcases h with (((((⟨-, h⟩ | ⟨-, h⟩) | ⟨-, h⟩) | rfl) | rfl) | rfl) | rfl
  · exact UInt32.lt_of_le_of_lt h (by decide)
  · exact UInt32.lt_of_le_of_lt h (by decide)
  · exact UInt32.lt_of_le_of_lt h (by decide)
  · decide
  · decide
  · decide
  · decide

/-- No character of an identifier is a space, so stripping leaves identifiers alone. -/
theorem isSpace_of_isSafeIdChar (u : Unicode) {c : Char} (h : isSafeIdChar c = true) :
    u.isSpace c = false := by
  have hrange : c.toNat < 128 ∧ 32 < c.toNat := by
    simp only [isSafeIdChar, isAsciiAlnum, Bool.or_eq_true, Bool.and_eq_true, decide_eq_true_eq,
      beq_iff_eq, Char.le_def, UInt32.le_iff_toNat_le] at h
    obtain ((((((h | h) | h) | rfl) | rfl) | rfl) | rfl) := h
    all_goals first | decide | (simp at h; omega)
  have hne : c ≠ ' ' := by
    rintro rfl
    exact absurd hrange.2 (by decide)
  rw [u.isSpace_ascii c (UInt32.lt_iff_toNat_lt.mpr hrange.1)]
  simp [isAsciiSpace, hne, UInt32.le_iff_toNat_le]
  omega

end AiPlatform.Kernel
