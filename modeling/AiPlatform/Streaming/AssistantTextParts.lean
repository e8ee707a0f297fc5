import AiPlatform.Foundation.KeyedLists
import AiPlatform.Streaming.Envelope

/-!
# The ledger of an assistant message

A message is a sequence of answer facts: it is started, its text arrives in parts, each part is
classified as answer or work, and it is completed. The answer is the text of the answer parts. Text
is counted in code points.
-/
namespace AiPlatform.Streaming

open AiPlatform.Foundation

inductive PartRole where
  | pending
  | answer
  | work
  deriving DecidableEq, Repr

/-- The entries of `part_text` and `part_roles` for one member of `part_order`. -/
structure LedgerPart where
  partId : String
  deltas : List String
  role : PartRole
  deriving DecidableEq, Repr

def LedgerPart.text (part : LedgerPart) : String := String.join part.deltas

def isAnswerFact : EventType → Bool
  | .messageStarted | .messageDelta | .messagePartDelta | .messagePartClassified
  | .messageCompleted => true
  | _ => false

def isPartFact : EventType → Bool
  | .messagePartDelta | .messagePartClassified => true
  | _ => false

/-! ## The parts of a message -/

/-- Append to the part's text; an unknown part comes last and is pending. -/
def addDelta (parts : List LedgerPart) (partId delta : String) : List LedgerPart :=
  if parts.any (·.partId = partId) then
    parts.map fun part =>
      if part.partId = partId then { part with deltas := part.deltas ++ [delta] } else part
  else parts ++ [⟨partId, [delta], .pending⟩]

def setRole (parts : List LedgerPart) (partId : String) (role : PartRole) : List LedgerPart :=
  parts.map fun part => if part.partId = partId then { part with role } else part

def roleOf (parts : List LedgerPart) (partId : String) : Option PartRole :=
  (parts.find? (·.partId = partId)).map LedgerPart.role

def selectedParts (parts : List LedgerPart) : List LedgerPart :=
  parts.filter (·.role = .answer)

/-- The texts of the answer parts with a blank line between two parts. -/
def answerText (parts : List LedgerPart) : String :=
  "\n\n".intercalate ((selectedParts parts).map LedgerPart.text)

section Parts

variable {parts : List LedgerPart} {partId : String}

theorem addDelta_eq_upsert (parts : List LedgerPart) (partId delta : String) :
    addDelta parts partId delta =
      upsert LedgerPart.partId partId
        (fun part => { part with deltas := part.deltas ++ [delta] }) ⟨partId, [delta], .pending⟩
        parts :=
  rfl

theorem nodup_addDelta (h : (parts.map LedgerPart.partId).Nodup) (partId delta : String) :
    ((addDelta parts partId delta).map LedgerPart.partId).Nodup :=
  nodup_keys_upsert h (fun _ => rfl) rfl

theorem setRole_partIds (parts : List LedgerPart) (partId : String) (role : PartRole) :
    (setRole parts partId role).map LedgerPart.partId = parts.map LedgerPart.partId :=
  keys_map fun _ => rfl

theorem roleOf_eq_some (h : (parts.map LedgerPart.partId).Nodup) {part : LedgerPart}
    (hpart : part ∈ parts) : roleOf parts part.partId = some part.role := by
  unfold roleOf
  rw [find?_key h hpart]
  rfl

/-- The selected parts are those whose id has the answer role. -/
theorem selectedParts_eq_filter (h : (parts.map LedgerPart.partId).Nodup) :
    selectedParts parts = parts.filter fun part => roleOf parts part.partId = some .answer := by
  unfold selectedParts
  refine List.filter_congr fun part hpart => ?_
  rw [roleOf_eq_some h hpart]
  simp

/-- Deltas of one part that arrive one after the other. -/
theorem foldl_addDelta (parts : List LedgerPart) (partId : String) {deltas : List String}
    (h : deltas ≠ []) :
    deltas.foldl (fun parts delta => addDelta parts partId delta) parts =
      upsert LedgerPart.partId partId
        (fun part => { part with deltas := part.deltas ++ deltas }) ⟨partId, deltas, .pending⟩
        parts := by
  induction deltas generalizing parts with
  | nil => exact absurd rfl h
  | cons delta deltas ih =>
    rw [List.foldl_cons]
    by_cases hdeltas : deltas = []
    · subst hdeltas
      rfl
    have hknown : partId ∈ (addDelta parts partId delta).map LedgerPart.partId :=
      mem_keys_upsert (fun _ => rfl) rfl
    rw [ih (addDelta parts partId delta) hdeltas, upsert_of_mem hknown, addDelta_eq_upsert]
    by_cases hmem : partId ∈ parts.map LedgerPart.partId
    · rw [upsert_of_mem hmem, upsert_of_mem hmem, List.map_map]
      refine List.map_congr_left fun part _ => ?_
      dsimp only [Function.comp_apply]
      by_cases heq : part.partId = partId
      · simp only [heq, if_true, List.append_assoc, List.singleton_append]
      · simp only [heq, if_false]
    · rw [upsert_of_not_mem hmem, upsert_of_not_mem hmem, List.map_append, map_ite_of_not_mem hmem]
      simp

theorem intercalate_length (separator : List Char) (texts : List (List Char)) :
    (separator.intercalate texts).length =
      (texts.map List.length).sum + separator.length * (texts.length - 1) := by
  induction texts with
  | nil => simp
  | cons text texts ih =>
    cases texts with
    | nil => simp
    | cons next texts =>
      rw [List.intercalate_cons_cons, List.length_append, List.length_append, ih]
      simp only [List.map_cons, List.sum_cons, List.length_cons, Nat.add_sub_cancel]
      rw [Nat.mul_succ]
      omega

theorem answerText_length (parts : List LedgerPart) :
    (answerText parts).length =
      ((selectedParts parts).map fun part => part.text.length).sum +
        2 * ((selectedParts parts).length - 1) := by
  unfold answerText
  rw [← String.length_toList, String.toList_intercalate, intercalate_length]
  simp [Function.comp_def, String.length_toList]

end Parts

/-- The length of a delta is between 1 and 8192. -/
def validDelta (delta : String) : Bool := 1 ≤ delta.length && delta.length ≤ 8192

end AiPlatform.Streaming
