import AiPlatform.Foundation.Pattern
import Mathlib.Data.List.DropRight

/-!
# Characters

The tables of Unicode are a parameter; only their values on ASCII are fixed.
-/
namespace AiPlatform.Kernel

open AiPlatform.Foundation

def isAsciiSpace (c : Char) : Bool :=
  c == ' ' || (9 ≤ c.val && c.val ≤ 13) || (28 ≤ c.val && c.val ≤ 31)

/-- What the interpreter knows about characters: `str.isalnum`, `str.isspace`, the representative
of a character under `re.IGNORECASE`, and `str.lower`. -/
structure Unicode where
  isSpace : Char → Bool
  caseless : Char → Char
  lower : Text → Text
  isSpace_ascii : ∀ c : Char, c.val < 128 → isSpace c = isAsciiSpace c
  caseless_ascii : ∀ c : Char, c.val < 128 → caseless c = c.toLower

/-- Tables in which nothing outside ASCII is a letter, a digit or a space. -/
def Unicode.ascii : Unicode where
  isSpace := isAsciiSpace
  caseless c := c.toLower
  lower text := text.map Char.toLower
  isSpace_ascii _ _ := rfl
  caseless_ascii _ _ := rfl

section Strip

variable (u : Unicode)

/-- A word under `re.IGNORECASE`. -/
def word (text : String) : Pattern := .literal (fun l c => u.caseless c == l) text.toList

/-- `\s*` -/
def spaces : Pattern := .star (.one u.isSpace)

/-- `text.strip()` -/
def strip (text : String) : String :=
  String.ofList ((text.toList.dropWhile u.isSpace).rdropWhile u.isSpace)

variable {u}

theorem dropWhile_rdropWhile {p : Char → Bool} {text : List Char}
    (h : text.dropWhile p = text) : (text.rdropWhile p).dropWhile p = text.rdropWhile p := by
  have hinitial := List.rdropWhile_prefix p (l := text)
  cases hdrop : text.rdropWhile p with
  | nil => rfl
  | cons c rest =>
    rw [hdrop] at hinitial
    obtain ⟨tail, rfl⟩ := hinitial
    have hc : ¬ p c = true := by
      intro hc
      rw [List.cons_append, List.dropWhile_cons_of_pos hc] at h
      have hlength := congrArg List.length h
      have hle := (List.dropWhile_suffix p (l := rest ++ tail)).length_le
      simp only [List.length_cons] at hlength
      omega
    rw [List.dropWhile_cons_of_neg hc]

theorem strip_strip (text : String) : strip u (strip u text) = strip u text := by
  simp only [strip, String.toList_ofList]
  rw [dropWhile_rdropWhile (List.dropWhile_idempotent ..), List.rdropWhile_idempotent]

theorem length_strip_le (text : String) : (strip u text).length ≤ text.length := by
  have hright := List.rdropWhile_prefix u.isSpace (l := text.toList.dropWhile u.isSpace)
  have hleft := List.dropWhile_suffix u.isSpace (l := text.toList)
  rw [strip, String.length_ofList, ← String.length_toList]
  exact hright.length_le.trans hleft.length_le

/-- A text with no space at either end is left as it is. -/
theorem strip_eq_self {text : String} (hhead : ∀ c ∈ text.toList.head?, u.isSpace c = false)
    (hlast : ∀ c ∈ text.toList.getLast?, u.isSpace c = false) : strip u text = text := by
  have hleft : text.toList.dropWhile u.isSpace = text.toList := by
    cases hchars : text.toList with
    | nil => rfl
    | cons c cs =>
      rw [hchars] at hhead
      rw [List.dropWhile_cons_of_neg (by simp [hhead c rfl])]
  have hright : text.toList.rdropWhile u.isSpace = text.toList := by
    refine List.rdropWhile_eq_self_iff.mpr fun hne => ?_
    rw [hlast _ (List.getLast?_eq_getLast_of_ne_nil hne)]
    decide
  rw [strip, hleft, hright, String.ofList_toList]

end Strip

end AiPlatform.Kernel
