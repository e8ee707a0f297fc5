import Mathlib.Data.List.Basic

/-!
# Backtracking patterns

Regular expressions run the way a backtracking engine runs them: `Pattern.run` lists what may be
left of a text after a match at its head, in the order in which the engine tries them.
-/
namespace AiPlatform.Foundation

abbrev Text := List Char

inductive Pattern where
  | empty
  | one (test : Char → Bool)
  | seq (p q : Pattern)
  | alt (p q : Pattern)
  | star (p : Pattern)
  | lineEnd

namespace Pattern

/-- Greedy repetition. The bodies in use consume at least one character, so the number of
characters left bounds the repetitions. -/
def starFrom (step : Text → List Text) : Nat → Text → List Text
  | 0, text => [text]
  | n + 1, text => (step text).flatMap (starFrom step n) ++ [text]

def runOne (test : Char → Bool) : Text → List Text
  | [] => []
  | c :: rest => if test c then [rest] else []

def run : Pattern → Text → List Text
  | .empty, text => [text]
  | .one test, text => runOne test text
  | .seq p q, text => (p.run text).flatMap q.run
  | .alt p q, text => p.run text ++ q.run text
  | .star p, text => starFrom p.run text.length text
  -- The end of the text or the line break that ends it.
  | .lineEnd, text => if text.isEmpty || text == ['\n'] then [text] else []

/-- Some part of the text matches. -/
def occursIn (p : Pattern) (text : Text) : Bool := text.tails.any fun rest => !(p.run rest).isEmpty

def literal (same : Char → Char → Bool) : Text → Pattern
  | [] => .empty
  | c :: rest => .seq (.one (same c)) (literal same rest)

def all : List Pattern → Pattern
  | [] => .empty
  | [p] => p
  | p :: rest => .seq p (all rest)

end Pattern

end AiPlatform.Foundation
