import AiPlatform.Foundation.Pattern
import Mathlib.Data.List.Induction
import Mathlib.Data.Nat.Init

/-!
# Decimal texts

`str` of a natural number, and `str.isdecimal` and `int` of a text. The last two read the digits of
every script; which characters those are is a parameter, fixed on ASCII only. A text of ASCII
digits without a leading zero is the text of its value.
-/
namespace AiPlatform.Foundation

open List

/-! ## The text of a number -/

theorem toDigits_all_isDigit (n : Nat) : (Nat.toDigits 10 n).all Char.isDigit = true :=
  all_eq_true.mpr fun _ hc => Nat.isDigit_of_mem_toDigits (by decide) (by decide) hc

theorem digitChar_ne_zero : ∀ n < 10, n ≠ 0 → Nat.digitChar n ≠ '0' := by
  decide

/-- A positive number starts with no zero. -/
theorem exists_toDigits_eq_cons {n : Nat} (hn : n ≠ 0) :
    ∃ c rest, Nat.toDigits 10 n = c :: rest ∧ c ≠ '0' := by
  induction n using Nat.strong_induction_on with
  | _ n ih =>
    by_cases hlt : n < 10
    · exact ⟨_, [], Nat.toDigits_of_lt_base hlt, digitChar_ne_zero n hlt hn⟩
    · obtain ⟨c, rest, heq, hc⟩ := ih (n / 10) (by omega) (by omega)
      rw [Nat.toDigits_of_base_le (by decide) (by omega), heq]
      exact ⟨c, _, rfl, hc⟩

theorem toDigits_concat {n d : Nat} (hn : n ≠ 0) (hd : d < 10) :
    Nat.toDigits 10 (10 * n + d) = Nat.toDigits 10 n ++ [Nat.digitChar d] := by
  rw [Nat.toDigits_of_base_le (by decide) (by omega)]
  congr 3 <;> omega

theorem digitChar_toNat_sub {c : Char} (h : c.isDigit = true) :
    Nat.digitChar (c.toNat - '0'.toNat) = c ∧ c.toNat - '0'.toNat < 10 := by
  have hbounds : 48 ≤ c.toNat ∧ c.toNat ≤ 57 := by
    simpa [Char.isDigit, UInt32.le_iff_toNat_le] using h
  have hall : ∀ k < 10, Nat.digitChar k = Char.ofNat (48 + k) := by decide
  have hzero : '0'.toNat = 48 := rfl
  refine ⟨?_, by omega⟩
  rw [hall _ (by omega), hzero, Nat.add_sub_cancel' hbounds.1, Char.ofNat_toNat]

/-- A text of digits without a leading zero is the text of a positive number. -/
theorem toDigits_ofDigitChars {text : Text} (hdigits : text.all Char.isDigit = true)
    (hne : text ≠ []) (hzero : text.head? ≠ some '0') :
    Nat.ofDigitChars 10 text 0 ≠ 0 ∧ Nat.toDigits 10 (Nat.ofDigitChars 10 text 0) = text := by
  induction text using List.reverseRecOn with
  | nil => exact absurd rfl hne
  | append_singleton text c ih =>
    rw [all_append, Bool.and_eq_true] at hdigits
    have hc : c.isDigit = true := by simpa using hdigits.2
    obtain ⟨hchar, hlt⟩ := digitChar_toNat_sub hc
    have hvalue : Nat.ofDigitChars 10 (text ++ [c]) 0 =
        10 * Nat.ofDigitChars 10 text 0 + (c.toNat - '0'.toNat) := by
      simp [Nat.ofDigitChars]
    rw [hvalue]
    rcases eq_or_ne text [] with rfl | htext
    · have hpos : c.toNat - '0'.toNat ≠ 0 := by
        intro hsub
        rw [hsub] at hchar
        exact absurd (congrArg some hchar.symm) hzero
      have hnil : 10 * Nat.ofDigitChars 10 ([] : Text) 0 + (c.toNat - '0'.toNat) =
          c.toNat - '0'.toNat := Nat.zero_add _
      rw [hnil, Nat.toDigits_of_lt_base hlt, hchar]
      exact ⟨hpos, rfl⟩
    · obtain ⟨hpos, heq⟩ := ih hdigits.1 htext (by rwa [head?_append_of_ne_nil _ htext] at hzero)
      refine ⟨by omega, ?_⟩
      rw [toDigits_concat hpos hlt, heq, hchar]

/-! ## Reading a number -/

/-- The decimal digits the interpreter knows, with their values. -/
structure DigitTable where
  digit : Char → Option Nat
  digit_ascii : ∀ c : Char, c.val < 128 →
    digit c = if c.isDigit then some (c.toNat - '0'.toNat) else none

/-- `text.isdecimal()` -/
def DigitTable.isDecimal (t : DigitTable) (text : Text) : Bool :=
  !text.isEmpty && text.all fun c => (t.digit c).isSome

def DigitTable.value (t : DigitTable) (text : Text) : Nat :=
  text.foldl (fun n c => 10 * n + (t.digit c).getD 0) 0

/-- The longest text `int` reads and `str` writes. -/
def maxDigits : Nat := 4300

/-- `int(text)` of a decimal text. -/
def DigitTable.readInt (t : DigitTable) (text : Text) : Option Nat :=
  if text.length ≤ maxDigits then some (t.value text) else none

/-- `str(n)` -/
def writeInt (n : Nat) : Option Text :=
  let digits := Nat.toDigits 10 n
  if digits.length ≤ maxDigits then some digits else none

/-- The ten ASCII digits. -/
def asciiDigits : DigitTable where
  digit c := if c.isDigit then some (c.toNat - '0'.toNat) else none
  digit_ascii _ _ := rfl

/-- `text.isascii()` -/
def isAscii (text : Text) : Bool := text.all fun c => c.val < 128

section Table

variable {t : DigitTable}

theorem ascii_of_isDigit {c : Char} (h : c.isDigit = true) : c.val < 128 := by
  simp only [Char.isDigit, ge_iff_le, Bool.and_eq_true, decide_eq_true_eq] at h
  exact UInt32.lt_of_le_of_lt h.2 (by decide)

theorem isAscii_of_isDigit {text : Text} (h : text.all Char.isDigit = true) : isAscii text = true :=
  all_eq_true.mpr fun c hc => decide_eq_true (ascii_of_isDigit (all_eq_true.mp h c hc))

theorem DigitTable.digit_isDigit {c : Char} (h : c.isDigit = true) :
    t.digit c = some (c.toNat - '0'.toNat) := by
  rw [t.digit_ascii c (ascii_of_isDigit h), if_pos h]

theorem DigitTable.value_of_isDigit {text : Text} (h : text.all Char.isDigit = true) :
    t.value text = Nat.ofDigitChars 10 text 0 := by
  unfold DigitTable.value Nat.ofDigitChars
  refine foldl_ext _ _ 0 fun n c hc => ?_
  rw [digit_isDigit (all_eq_true.mp h c hc), Option.getD_some]

/-- On ASCII the decimal texts are those of the ten digits. -/
theorem DigitTable.isDecimal_of_isAscii {text : Text} (h : isAscii text = true) :
    t.isDecimal text = true ↔ text ≠ [] ∧ text.all Char.isDigit = true := by
  have hdigit : ∀ c ∈ text, (t.digit c).isSome = c.isDigit := by
    intro c hc
    rw [t.digit_ascii c (by simpa using all_eq_true.mp h c hc)]
    cases c.isDigit <;> rfl
  rw [DigitTable.isDecimal, Bool.and_eq_true, all_eq_true, all_eq_true]
  exact and_congr (by simp) (forall₂_congr fun c hc => by rw [hdigit c hc])

theorem DigitTable.readInt_toDigits {n : Nat} (h : (Nat.toDigits 10 n).length ≤ maxDigits) :
    t.readInt (Nat.toDigits 10 n) = some n := by
  rw [DigitTable.readInt, if_pos h, value_of_isDigit (toDigits_all_isDigit n),
    Nat.ofDigitChars_ten_toDigits]

theorem DigitTable.value_concat (text : Text) (c : Char) :
    t.value (text ++ [c]) = 10 * t.value text + (t.digit c).getD 0 := by
  simp [DigitTable.value]

/-- A decimal text has the value zero exactly when all its digits are zeros. -/
theorem DigitTable.value_pos_iff {text : Text} (h : ∀ c ∈ text, (t.digit c).isSome = true) :
    1 ≤ t.value text ↔ ∃ c ∈ text, t.digit c ≠ some 0 := by
  induction text using List.reverseRecOn with
  | nil => simp [DigitTable.value]
  | append_singleton text c ih =>
    have hrest := ih fun d hd => h d (mem_append_left _ hd)
    obtain ⟨digit, hdigit⟩ := Option.isSome_iff_exists.mp (h c (by simp))
    rw [value_concat, hdigit, Option.getD_some]
    constructor
    · intro hpos
      by_cases hd : digit = 0
      · obtain ⟨d, hmem, hne⟩ := hrest.mp (by omega)
        exact ⟨d, mem_append_left _ hmem, hne⟩
      · exact ⟨c, by simp, by simpa [hdigit] using hd⟩
    · rintro ⟨d, hmem, hne⟩
      rcases mem_append.mp hmem with hmem | hmem
      · have := hrest.mpr ⟨d, hmem, hne⟩
        omega
      · obtain rfl := mem_singleton.mp hmem
        have : digit ≠ 0 := fun hzero => hne (by rw [hdigit, hzero])
        omega

end Table

end AiPlatform.Foundation
