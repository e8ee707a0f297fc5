import AiPlatform.Foundation.Bytes

/-!
# Texts that may hold surrogates

A Python text is a sequence of code points, among them lone surrogates, which no encoding accepts.
-/
namespace AiPlatform.Foundation

inductive CodePoint where
  | scalar (c : Char)
  | surrogate (offset : Fin 2048)
  deriving DecidableEq, Repr

abbrev RawText := List CodePoint

def rawText (text : String) : RawText := text.toList.map .scalar

/-- The characters of a text without surrogates. -/
def scalars : RawText → Option (List Char)
  | [] => some []
  | .scalar c :: rest => (scalars rest).map (c :: ·)
  | .surrogate _ :: _ => none

theorem scalars_append {text rest : RawText} {chars more : List Char}
    (htext : scalars text = some chars) (hrest : scalars rest = some more) :
    scalars (text ++ rest) = some (chars ++ more) := by
  induction text generalizing chars with
  | nil =>
    obtain rfl := Option.some.inj htext
    exact hrest
  | cons point text ih =>
    cases point with
    | scalar c =>
      obtain ⟨chars, hchars, rfl⟩ := Option.map_eq_some_iff.mp htext
      rw [List.cons_append, scalars, ih hchars]
      rfl
    | surrogate offset => cases htext

end AiPlatform.Foundation
