import Mathlib
import AiPlatform.Foundation.Json

/-!
# JSON texts

`dumps` writes a value the way a compact encoder does: no blanks, only the escapes the grammar
demands, characters outside ASCII as they are. `canonical` sorts the members of every object, so
that two values that differ in member order alone have one text.
-/
namespace AiPlatform.Foundation.Json

open List

/-! ## Visiting a value -/

/-- What is computed at each kind of node from what was computed below it. -/
structure Visitor (α : Type) where
  null : α
  bool : Bool → α
  int : Int → α
  float : List Char → α
  str : String → α
  arr : List α → α
  obj : List (String × α) → α

namespace Visitor

variable {α : Type}

mutual

def visit (v : Visitor α) : Json → α
  | .null => v.null
  | .bool b => v.bool b
  | .int n => v.int n
  | .float text => v.float text
  | .str s => v.str s
  | .arr items => v.arr (v.visitItems items)
  | .obj members => v.obj (v.visitMembers members)

def visitItems (v : Visitor α) : List Json → List α
  | [] => []
  | j :: rest => v.visit j :: v.visitItems rest

def visitMembers (v : Visitor α) : List (String × Json) → List (String × α)
  | [] => []
  | (key, j) :: rest => (key, v.visit j) :: v.visitMembers rest

end

theorem visitItems_eq (v : Visitor α) (items : List Json) :
    v.visitItems items = items.map v.visit := by
  induction items with
  | nil => rfl
  | cons j rest ih => simp [visitItems, ih]

theorem visitMembers_eq (v : Visitor α) (members : List (String × Json)) :
    v.visitMembers members = members.map fun m => (m.1, v.visit m.2) := by
  induction members with
  | nil => rfl
  | cons m rest ih =>
    obtain ⟨key, j⟩ := m
    simp [visitMembers, ih]

theorem visit_arr (v : Visitor α) (items : List Json) :
    v.visit (.arr items) = v.arr (items.map v.visit) := by
  rw [visit, visitItems_eq]

theorem visit_obj (v : Visitor α) (members : List (String × Json)) :
    v.visit (.obj members) = v.obj (members.map fun m => (m.1, v.visit m.2)) := by
  rw [visit, visitMembers_eq]

end Visitor

/-! ## Induction

The hypotheses below an array or an object are stated by membership, which is how lists of values
are reasoned about everywhere else.
-/

section Induction

variable {P : Json → Prop}

@[elab_as_elim]
theorem induct (null : P .null) (bool : ∀ b, P (.bool b)) (int : ∀ n, P (.int n))
    (float : ∀ text, P (.float text)) (str : ∀ s, P (.str s))
    (arr : ∀ items, (∀ j ∈ items, P j) → P (.arr items))
    (obj : ∀ members, (∀ m ∈ members, P m.2) → P (.obj members)) (j : Json) : P j := by
  refine @Json.rec P (fun items => ∀ j ∈ items, P j) (fun members => ∀ m ∈ members, P m.2)
    (fun m => P m.2) null bool int float str arr obj ?_ ?_ ?_ ?_ ?_ j
  · simp
  · intro head tail hhead htail j hj
    rcases mem_cons.mp hj with rfl | hj
    · exact hhead
    · exact htail j hj
  · simp
  · intro head tail hhead htail m hm
    rcases mem_cons.mp hm with rfl | hm
    · exact hhead
    · exact htail m hm
  · intro key j hj
    exact hj

end Induction

/-! ## Printing -/

def escape (c : Char) : List Char :=
  if c = '"' then ['\\', '"']
  else if c = '\\' then ['\\', '\\']
  else if c = '\n' then ['\\', 'n']
  else if c = '\r' then ['\\', 'r']
  else if c = '\t' then ['\\', 't']
  else if c = '\x0c' then ['\\', 'f']
  else if c = '\x08' then ['\\', 'b']
  else if c.toNat < 0x20 then
    ['\\', 'u', '0', '0', Nat.digitChar (c.toNat / 16), Nat.digitChar (c.toNat % 16)]
  else [c]

def quote (s : String) : List Char :=
  '"' :: (s.toList.flatMap escape ++ ['"'])

def intText : Int → List Char
  | .ofNat n => Nat.toDigits 10 n
  | .negSucc n => '-' :: Nat.toDigits 10 (n + 1)

def memberText (m : String × List Char) : List Char :=
  quote m.1 ++ ':' :: m.2

def printer : Visitor (List Char) where
  null := ['n', 'u', 'l', 'l']
  bool b := if b then ['t', 'r', 'u', 'e'] else ['f', 'a', 'l', 's', 'e']
  int := intText
  float text := text
  str := quote
  arr items := '[' :: ([','].intercalate items ++ [']'])
  obj members := '\x7b' :: ([','].intercalate (members.map memberText) ++ ['\x7d'])

/-- `json.dumps(value, ensure_ascii=False, separators=(",", ":"))` -/
def dumps (j : Json) : List Char :=
  printer.visit j

theorem dumps_arr (items : List Json) :
    dumps (.arr items) = '[' :: ([','].intercalate (items.map dumps) ++ [']']) := by
  simp only [dumps, Visitor.visit_arr]
  rfl

theorem dumps_obj (members : List (String × Json)) :
    dumps (.obj members) =
      '\x7b' :: ([','].intercalate (members.map fun m => memberText (m.1, dumps m.2)) ++
        ['\x7d']) := by
  simp only [dumps, Visitor.visit_obj, printer, map_map]
  rfl

/-- A printer that leaves a gap after every comma and colon. -/
def spacedPrinter (gap : List Char) : Visitor (List Char) :=
  { printer with
    arr := fun items => '[' :: ((',' :: gap).intercalate items ++ [']'])
    obj := fun members =>
      '\x7b' :: ((',' :: gap).intercalate (members.map fun m => quote m.1 ++ ':' :: (gap ++ m.2)) ++
        ['\x7d']) }

/-- `json.dumps(value, ensure_ascii=False)` for a gap of one blank. -/
def spacedDumps (gap : List Char) (j : Json) : List Char :=
  (spacedPrinter gap).visit j

theorem spacedDumps_arr (gap : List Char) (items : List Json) :
    spacedDumps gap (.arr items) =
      '[' :: ((',' :: gap).intercalate (items.map (spacedDumps gap)) ++ [']']) := by
  rw [spacedDumps, Visitor.visit_arr]
  rfl

theorem spacedDumps_obj (gap : List Char) (members : List (String × Json)) :
    spacedDumps gap (.obj members) =
      '\x7b' :: ((',' :: gap).intercalate
        (members.map fun m => quote m.1 ++ ':' :: (gap ++ spacedDumps gap m.2)) ++ ['\x7d']) := by
  simp only [spacedDumps, Visitor.visit_obj, spacedPrinter, map_map]
  rfl

/-! ## Sizes -/

/-- The length of `text.encode("utf-8")`. -/
def utf8Length (text : List Char) : Nat :=
  (text.map Char.utf8Size).sum

theorem utf8Length_append (a b : List Char) :
    utf8Length (a ++ b) = utf8Length a + utf8Length b := by
  simp [utf8Length]

theorem utf8Length_cons (c : Char) (a : List Char) :
    utf8Length (c :: a) = c.utf8Size + utf8Length a := by
  simp [utf8Length]

theorem utf8Length_intercalate (texts : List (List Char)) :
    utf8Length ([','].intercalate texts) =
      (texts.map utf8Length).sum + (texts.length - 1) := by
  induction texts with
  | nil => rfl
  | cons a rest ih =>
    cases rest with
    | nil => simp
    | cons b rest =>
      have hcomma : utf8Length [','] = 1 := by decide
      rw [intercalate_cons_cons, utf8Length_append, utf8Length_append, ih, hcomma]
      simp only [map_cons, sum_cons, length_cons]
      omega

/-- The size of the encoded text of a value. -/
def size (j : Json) : Nat :=
  utf8Length (dumps j)

theorem size_arr (items : List Json) :
    size (.arr items) = 2 + (items.map size).sum + (items.length - 1) := by
  have hopen : '['.utf8Size = 1 := by decide
  have hclose : utf8Length [']'] = 1 := by decide
  change utf8Length (dumps (.arr items)) = 2 + (items.map fun j => utf8Length (dumps j)).sum + _
  simp only [dumps_arr, utf8Length_cons, utf8Length_append, utf8Length_intercalate, hopen,
    hclose, map_map, length_map, Function.comp_def]
  omega

theorem size_obj (members : List (String × Json)) :
    size (.obj members) =
      2 + (members.map fun m => utf8Length (quote m.1) + 1 + size m.2).sum +
        (members.length - 1) := by
  have hopen : '\x7b'.utf8Size = 1 := by decide
  have hclose : utf8Length ['\x7d'] = 1 := by decide
  have hcolon : ':'.utf8Size = 1 := by decide
  simp only [size, dumps_obj, utf8Length_cons, utf8Length_append, utf8Length_intercalate, hopen,
    hclose, hcolon, memberText, map_map, length_map, Function.comp_def, Nat.add_assoc]
  omega

/-! ## Canonical order -/

def sorter : Visitor Json where
  null := .null
  bool := .bool
  int := .int
  float := .float
  str := .str
  arr := .arr
  obj members := .obj (members.insertionSort fun a b => a.1 ≤ b.1)

/-- The value with the members of every object sorted by key, as `sort_keys=True` prints them. -/
def canonical (j : Json) : Json :=
  sorter.visit j

def sortMembers (members : List (String × Json)) : List (String × Json) :=
  members.insertionSort fun a b => a.1 ≤ b.1

theorem canonical_str (s : String) : canonical (.str s) = .str s := rfl

theorem canonical_arr (items : List Json) :
    canonical (.arr items) = .arr (items.map canonical) := by
  simp only [canonical, Visitor.visit_arr]
  rfl

theorem canonical_obj (members : List (String × Json)) :
    canonical (.obj members) = .obj (sortMembers (members.map fun m => (m.1, canonical m.2))) := by
  simp only [canonical, Visitor.visit_obj]
  rfl

theorem sortMembers_perm (members : List (String × Json)) :
    (sortMembers members).Perm members :=
  perm_insertionSort _ members

theorem mem_sortMembers {m : String × Json} {members : List (String × Json)} :
    m ∈ sortMembers members ↔ m ∈ members :=
  (sortMembers_perm members).mem_iff

/-- Sorting looks at the keys alone, so changing values commutes with it. -/
theorem sortMembers_map (f : String × Json → Json) (members : List (String × Json)) :
    sortMembers (members.map fun m => (m.1, f m)) =
      (sortMembers members).map fun m => (m.1, f m) := by
  have hkeys := map_insertionSort (fun a b : String × Json => a.1 ≤ b.1)
    (fun a b : String × Json => a.1 ≤ b.1) (fun m => (m.1, f m)) members fun _ _ _ _ => Iff.rfl
  exact hkeys.symm

theorem sortMembers_sortMembers (members : List (String × Json)) :
    sortMembers (sortMembers members) = sortMembers members := by
  have hsorted : (sortMembers members).Pairwise fun a b => a.1 ≤ b.1 :=
    pairwise_insertionSort _ members
  exact hsorted.insertionSort_eq

theorem canonical_canonical (j : Json) : canonical (canonical j) = canonical j := by
  induction j using induct with
  | null | bool | int | float | str => rfl
  | arr items ih =>
    rw [canonical_arr, canonical_arr, map_map]
    exact congrArg Json.arr (map_congr_left ih)
  | obj members ih =>
    rw [canonical_obj, canonical_obj, ← sortMembers_map fun m => canonical m.2,
      sortMembers_sortMembers, map_map]
    exact congrArg (fun ms => Json.obj (sortMembers ms))
      (map_congr_left fun m hm => by simp [ih m hm])

theorem size_canonical (j : Json) : size (canonical j) = size j := by
  induction j using induct with
  | null | bool | int | float | str => rfl
  | arr items ih =>
    have hsizes : items.map (utf8Length ∘ dumps ∘ canonical) = items.map (utf8Length ∘ dumps) :=
      map_congr_left ih
    simp only [canonical_arr, size, dumps_arr, utf8Length_cons, utf8Length_append,
      utf8Length_intercalate, map_map, length_map, hsizes]
  | obj members ih =>
    simp only [canonical_obj, size, dumps_obj, utf8Length_cons, utf8Length_append,
      utf8Length_intercalate, map_map, length_map]
    have hperm := sortMembers_perm (members.map fun m => (m.1, canonical m.2))
    have hsizes : ∀ m ∈ members, utf8Length (memberText (m.1, dumps (canonical m.2))) =
        utf8Length (memberText (m.1, dumps m.2)) := by
      intro m hm
      simp only [memberText, utf8Length_append, utf8Length_cons]
      exact congrArg _ (congrArg _ (ih m hm))
    rw [(hperm.map _).sum_eq, hperm.length_eq, length_map, map_map]
    exact congrArg (fun sizes : List Nat => _ + (sizes.sum + _ + _)) (map_congr_left hsizes)

end AiPlatform.Foundation.Json
