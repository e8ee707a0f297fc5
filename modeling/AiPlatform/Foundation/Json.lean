import Mathlib.Data.List.Basic

/-!
# JSON values

Values as an interpreter holds them after parsing. An object keeps its members in insertion order;
a number that is not an integer is kept as its shortest text, which determines it.
-/
namespace AiPlatform.Foundation

inductive Json where
  | null
  | bool (value : Bool)
  | int (value : Int)
  | float (text : List Char)
  | str (value : String)
  | arr (items : List Json)
  | obj (members : List (String × Json))
  deriving Inhabited

namespace Json

/-! ## Equality -/

mutual

def beq : Json → Json → Bool
  | .null, .null => true
  | .bool a, .bool b => a == b
  | .int a, .int b => a == b
  | .float a, .float b => a == b
  | .str a, .str b => a == b
  | .arr as, .arr bs => beqItems as bs
  | .obj as, .obj bs => beqMembers as bs
  | _, _ => false

def beqItems : List Json → List Json → Bool
  | [], [] => true
  | a :: as, b :: bs => beq a b && beqItems as bs
  | _, _ => false

def beqMembers : List (String × Json) → List (String × Json) → Bool
  | [], [] => true
  | (k, a) :: as, (l, b) :: bs => k == l && beq a b && beqMembers as bs
  | _, _ => false

end

mutual

theorem beq_iff : ∀ a b : Json, beq a b = true ↔ a = b
  | .null, b => by cases b <;> simp [beq]
  | .bool _, b => by cases b <;> simp [beq]
  | .int _, b => by cases b <;> simp [beq]
  | .float _, b => by cases b <;> simp [beq]
  | .str _, b => by cases b <;> simp [beq]
  | .arr as, b => by
    cases b with
    | arr bs => simp [beq, beqItems_iff as bs]
    | _ => simp [beq]
  | .obj as, b => by
    cases b with
    | obj bs => simp [beq, beqMembers_iff as bs]
    | _ => simp [beq]

theorem beqItems_iff : ∀ as bs : List Json, beqItems as bs = true ↔ as = bs
  | [], bs => by cases bs <;> simp [beqItems]
  | a :: as, bs => by
    cases bs with
    | nil => simp [beqItems]
    | cons b bs => simp [beqItems, beq_iff a b, beqItems_iff as bs]

theorem beqMembers_iff : ∀ as bs : List (String × Json), beqMembers as bs = true ↔ as = bs
  | [], bs => by cases bs <;> simp [beqMembers]
  | (k, a) :: as, bs => by
    cases bs with
    | nil => simp [beqMembers]
    | cons b bs =>
      obtain ⟨l, b⟩ := b
      simp [beqMembers, beq_iff a b, beqMembers_iff as bs]

end

instance : DecidableEq Json := fun a b => decidable_of_iff (beq a b = true) (beq_iff a b)

/-! ## Members -/

/-- `value.get(key)`: what is not an object, and a missing key, read as `None`. -/
def get? (key : String) : Json → Option Json
  | .obj members => members.lookup key
  | _ => none

end Json

end AiPlatform.Foundation
