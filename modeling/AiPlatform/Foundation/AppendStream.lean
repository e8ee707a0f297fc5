import Mathlib.Data.Prod.Lex
import Mathlib.Data.List.Pairwise
import Mathlib.Data.List.Infix

/-!
# Append-only streams with generated ids

The value of one stream key of a Redis-like store. An entry gets an id made of the clock and a
counter, larger than every id before it; trimming drops entries at the head. Reads by id range
return consecutive entries, so a read that starts at an entry still retained continues exactly
where that entry stands in everything that was ever appended.
-/
namespace AiPlatform.Foundation

open List

/-- Milliseconds and a counter within the millisecond. -/
abbrev StreamId : Type := Nat ×ₗ Nat

def StreamId.of (ms seq : Nat) : StreamId := toLex (ms, seq)

/-- `0-0`, below every generated id. -/
def StreamId.origin : StreamId := .of 0 0

def StreamId.ms (id : StreamId) : Nat := (ofLex id).1

/-- The id `XADD … *` generates. -/
def StreamId.next (last : StreamId) (now : Nat) : StreamId :=
  if last.ms < now then .of now 0 else .of last.ms ((ofLex last).2 + 1)

theorem StreamId.lt_next (last : StreamId) (now : Nat) : last < last.next now := by
  unfold StreamId.next
  split
  · rename_i h
    exact Prod.Lex.lt_iff.mpr (.inl h)
  · exact Prod.Lex.lt_iff.mpr (.inr ⟨rfl, Nat.lt_succ_self _⟩)

theorem StreamId.lt_of_ms_lt {a b : StreamId} (h : a.ms < b.ms) : a < b :=
  Prod.Lex.lt_iff.mpr (.inl h)

theorem StreamId.ms_next_of_lt {last : StreamId} {now : Nat} (h : last.ms < now) :
    (last.next now).ms = now := by
  unfold StreamId.next
  rw [if_pos h]
  rfl

theorem StreamId.origin_le (id : StreamId) : StreamId.origin ≤ id := by
  refine Prod.Lex.le_iff.mpr ?_
  rcases Nat.eq_zero_or_pos id.ms with h | h
  · exact .inr ⟨h.symm, Nat.zero_le _⟩
  · exact .inl h

theorem StreamId.ms_next_le {last : StreamId} {now : Nat} (h : last.ms ≤ now) :
    (last.next now).ms ≤ now := by
  unfold StreamId.next
  split
  · exact le_rfl
  · exact h

variable {α : Type}

structure StreamEntry (α : Type) where
  id : StreamId
  value : α
  deriving DecidableEq

structure AppendStream (α : Type) where
  entries : List (StreamEntry α)
  lastId : StreamId

namespace AppendStream

def empty : AppendStream α := ⟨[], .origin⟩

def nextEntry (s : AppendStream α) (now : Nat) (value : α) : StreamEntry α :=
  ⟨s.lastId.next now, value⟩

def xadd (s : AppendStream α) (now : Nat) (value : α) : AppendStream α :=
  ⟨s.entries ++ [s.nextEntry now value], s.lastId.next now⟩

def trim (s : AppendStream α) (count : Nat) : AppendStream α :=
  { s with entries := s.entries.drop count }

/-- `XRANGE key first last COUNT n` with both bounds included. -/
def xrange (s : AppendStream α) (first last : StreamId) (count : Nat) : List (StreamEntry α) :=
  (s.entries.filter fun e => first ≤ e.id ∧ e.id ≤ last).take count

/-- `XRANGE key (first last COUNT n`. -/
def xrangeAfter (s : AppendStream α) (first last : StreamId) (count : Nat) :
    List (StreamEntry α) :=
  (s.entries.filter fun e => first < e.id ∧ e.id ≤ last).take count

/-- `XREAD COUNT n STREAMS key first`. -/
def xread (s : AppendStream α) (first : StreamId) (count : Nat) : List (StreamEntry α) :=
  (s.entries.filter fun e => first < e.id).take count

end AppendStream

/-! ## Segments of an ordered sequence -/

/-- Ids grow along the sequence. -/
def Ordered (l : List (StreamEntry α)) : Prop := l.Pairwise fun a b => a.id < b.id

theorem Ordered.suffix {l s : List (StreamEntry α)} (h : Ordered l) (hs : s <:+ l) : Ordered s :=
  List.Pairwise.sublist hs.sublist h

theorem Ordered.append_singleton {l : List (StreamEntry α)} {e : StreamEntry α} (h : Ordered l)
    (he : ∀ a ∈ l, a.id < e.id) : Ordered (l ++ [e]) := by
  refine pairwise_append.mpr ⟨h, pairwise_singleton _ _, ?_⟩
  intro a ha b hb
  exact mem_singleton.mp hb ▸ he a ha

/-- The part of an ordered sequence up to an id is an initial part. -/
theorem Ordered.filter_le_initial {l : List (StreamEntry α)} (h : Ordered l) (last : StreamId) :
    l.filter (fun e => e.id ≤ last) <+: l := by
  induction l with
  | nil => simp
  | cons e l ih =>
    obtain ⟨hlt, hl⟩ := pairwise_cons.mp h
    by_cases he : e.id ≤ last
    · simp only [he, decide_true, filter_cons_of_pos, prefix_cons_inj]
      exact ih hl
    · have hnone : (e :: l).filter (fun e => e.id ≤ last) = [] := by
        refine filter_eq_nil_iff.mpr fun a ha => ?_
        rcases mem_cons.mp ha with rfl | ha
        · simpa using he
        · simpa using (lt_of_not_ge he).trans (hlt a ha)
      rw [hnone]
      exact nil_prefix

/-- Reading from an entry that is there returns it, then a run of what follows it. -/
theorem Ordered.filter_from {pre post : List (StreamEntry α)} {e : StreamEntry α}
    (h : Ordered (pre ++ e :: post)) {last : StreamId} (hle : e.id ≤ last) :
    (pre ++ e :: post).filter (fun a => e.id ≤ a.id ∧ a.id ≤ last) =
      e :: post.filter fun a => a.id ≤ last := by
  obtain ⟨-, hrest, hpre⟩ := pairwise_append.mp h
  obtain ⟨hpost, -⟩ := pairwise_cons.mp hrest
  have hbefore : pre.filter (fun a => e.id ≤ a.id ∧ a.id ≤ last) = [] := by
    refine filter_eq_nil_iff.mpr fun a ha => ?_
    have := hpre a ha e mem_cons_self
    simp [not_le.mpr this]
  have hafter : post.filter (fun a => e.id ≤ a.id ∧ a.id ≤ last) =
      post.filter fun a => a.id ≤ last := by
    refine filter_congr fun a ha => ?_
    simp [(hpost a ha).le]
  rw [filter_append, hbefore, nil_append, filter_cons_of_pos (by simpa using hle),
    hafter]

/-- Two cuts of an ordered sequence at the same id are the same cut. -/
theorem Ordered.cut_unique {l pre pre' post post' : List (StreamEntry α)} {e e' : StreamEntry α}
    (h : Ordered l) (hl : l = pre ++ e :: post) (hl' : l = pre' ++ e' :: post')
    (hid : e.id = e'.id) : pre = pre' ∧ e = e' ∧ post = post' := by
  induction l generalizing pre pre' with
  | nil => simp at hl
  | cons a l ih =>
    obtain ⟨hlt, hrest⟩ := pairwise_cons.mp h
    cases pre with
    | nil =>
      obtain ⟨rfl, rfl⟩ : a = e ∧ l = post := by simpa using hl
      cases pre' with
      | nil =>
        obtain ⟨rfl, rfl⟩ : a = e' ∧ l = post' := by simpa using hl'
        exact ⟨rfl, rfl, rfl⟩
      | cons b pre' =>
        obtain ⟨rfl, rfl⟩ : a = b ∧ l = pre' ++ e' :: post' := by simpa using hl'
        have := hlt e' (by simp)
        exact absurd hid this.ne
    | cons b pre =>
      obtain ⟨rfl, hpre⟩ : a = b ∧ l = pre ++ e :: post := by simpa using hl
      cases pre' with
      | nil =>
        obtain ⟨rfl, rfl⟩ : a = e' ∧ l = post' := by simpa using hl'
        have := hlt e (by simp [hpre])
        exact absurd hid.symm this.ne
      | cons c pre' =>
        obtain ⟨rfl, hpre'⟩ : a = c ∧ l = pre' ++ e' :: post' := by simpa using hl'
        obtain ⟨rfl, rfl, rfl⟩ := ih hrest hpre hpre'
        exact ⟨rfl, rfl, rfl⟩

end AiPlatform.Foundation
