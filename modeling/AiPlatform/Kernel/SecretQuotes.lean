import AiPlatform.Foundation.Pattern

/-!
# Open quotes

What the streaming side remembers of a quoted secret that is too long to be kept: the quote, and
whether the next character is escaped.
-/
namespace AiPlatform.Kernel

open AiPlatform.Foundation

/-- `SecretQuoteContinuation`: inside a quoted value that is being discarded. -/
structure SecretQuoteContinuation where
  quote : Char
  escaped : Bool
  deriving DecidableEq, Repr

/-- The characters consumed, and the state if the quote is still open. -/
def SecretQuoteContinuation.consume (q : SecretQuoteContinuation) :
    Text → Nat × Option SecretQuoteContinuation
  | [] => (0, some q)
  | c :: rest =>
    if !q.escaped && c != '\\' && c == q.quote then (1, none)
    else
      let result := consume { q with escaped := !q.escaped && c == '\\' } rest
      (result.1 + 1, result.2)

/-- Where a text is cut does not matter: the quote ends inside the first part, or the second part
goes on from the state and the offset that the first one left. -/
theorem SecretQuoteContinuation.consume_append (q : SecretQuoteContinuation) (a b : Text) :
    ((q.consume a).2 = none → q.consume (a ++ b) = q.consume a) ∧
      ∀ next, (q.consume a).2 = some next → (q.consume a).1 = a.length ∧
        q.consume (a ++ b) = (a.length + (next.consume b).1, (next.consume b).2) := by
  induction a generalizing q with
  | nil => simp [consume]
  | cons c rest ih =>
    rw [List.cons_append, consume, consume]
    split
    · simp
    · obtain ⟨hclosed, hopen⟩ := ih { q with escaped := !q.escaped && c == '\\' }
      refine ⟨fun h => by simp only [hclosed h], fun next h => ?_⟩
      obtain ⟨hconsumed, hwhole⟩ := hopen next h
      simp only [hconsumed, hwhole, List.length_cons, true_and]
      grind

end AiPlatform.Kernel
