import Mathlib.Data.List.Basic

/-!
# Claims on a resource

A resource is claimed under a token and the claim is given up again. The history of what took effect
says which claim is the latest one and whether it still stands.
-/
namespace AiPlatform.Foundation

/-- What an operation does to the claim: it makes one, it ends the one that stands, or neither. -/
inductive ClaimEffect (τ : Type*) where
  | claims (token : τ)
  | ends
  | keeps
  deriving DecidableEq

section LatestClaim

variable {ω τ : Type*} (effect : ω → ClaimEffect τ)

/-- The latest claim in the history was made under the token, and nothing since has ended it. -/
def LatestClaim (history : List ω) (token : τ) : Prop :=
  ∃ before claim after, history = before ++ claim :: after ∧ effect claim = .claims token ∧
    ∀ op ∈ after, effect op = .keeps

variable {effect} {history : List ω} {token : τ} {op : ω}

theorem latestClaim_concat (h : effect op = .claims token) :
    LatestClaim effect (history ++ [op]) token :=
  ⟨history, op, [], rfl, h, by simp⟩

theorem LatestClaim.concat (hclaim : LatestClaim effect history token) (h : effect op = .keeps) :
    LatestClaim effect (history ++ [op]) token := by
  obtain ⟨before, claim, after, rfl, hmade, hkept⟩ := hclaim
  refine ⟨before, claim, after ++ [op], by simp, hmade, ?_⟩
  exact List.forall_mem_append.mpr ⟨hkept, List.forall_mem_singleton.mpr h⟩

end LatestClaim

end AiPlatform.Foundation
