import AiPlatform.Foundation.JsonText

/-!
# Reading JSON texts

`loads` reads what `dumps` writes, and everything else the grammar allows: blanks, every escape,
members given twice. Numbers that are not integers are left to a `FloatFormat`, which says what
text the runtime prints for the number a token denotes.
-/
namespace AiPlatform.Foundation

namespace Json

/-! ## Tokens -/

def isBlank (c : Char) : Bool :=
  c = ' ' || c = '\t' || c = '\n' || c = '\r'

def skip (text : List Char) : List Char :=
  text.dropWhile isBlank

def isNumberChar (c : Char) : Bool :=
  c.isDigit || c = '-' || c = '+' || c = '.' || c = 'e' || c = 'E'

def isNatural : List Char → Bool
  | [] => false
  | ['0'] => true
  | c :: rest => c != '0' && c.isDigit && rest.all Char.isDigit

def isExponent : List Char → Bool
  | e :: sign :: rest =>
    (e = 'e' || e = 'E') &&
      (if sign = '-' || sign = '+' then !rest.isEmpty && rest.all Char.isDigit
        else (sign :: rest).all Char.isDigit)
  | _ => false

/-- What follows the whole part of a number that is not an integer. -/
def isFraction : List Char → Bool
  | '.' :: rest =>
    !(rest.takeWhile Char.isDigit).isEmpty &&
      ((rest.dropWhile Char.isDigit).isEmpty || isExponent (rest.dropWhile Char.isDigit))
  | rest => isExponent rest

def isUnsignedFloat (token : List Char) : Bool :=
  isNatural (token.takeWhile Char.isDigit) && isFraction (token.dropWhile Char.isDigit)

def isFloat : List Char → Bool
  | '-' :: token => isUnsignedFloat token
  | token => isUnsignedFloat token

def integer? : List Char → Option Int
  | '-' :: token => if isNatural token then some (-(Nat.ofDigitChars 10 token 0 : Int)) else none
  | token => if isNatural token then some (Nat.ofDigitChars 10 token 0) else none

end Json

/-- How the runtime reads and prints the numbers that are not integers: `repr token` is the text
it prints for the number the token denotes, absent when the number is out of range. -/
structure FloatFormat where
  repr : List Char → Option (List Char)
  repr_isNumberChar : ∀ {token text}, repr token = some text → text.all Json.isNumberChar = true
  repr_isFloat : ∀ {token text}, repr token = some text → Json.isFloat text = true
  repr_repr : ∀ {token text}, repr token = some text → repr text = some text

/-- No number that is not an integer is ever printed. -/
def integersOnly : FloatFormat := ⟨fun _ => none, nofun, nofun, nofun⟩

namespace Json

/-! ## Values the runtime can hold -/

section Proper

variable (fmt : FloatFormat)

def properness : Visitor Prop where
  null := True
  bool _ := True
  int _ := True
  float text := fmt.repr text = some text
  str _ := True
  arr items := ∀ p ∈ items, p
  obj members := (members.map Prod.fst).Nodup ∧ ∀ m ∈ members, m.2

/-- Numbers are in printed form and no object holds a key twice. -/
def Proper (j : Json) : Prop :=
  (properness fmt).visit j

variable {fmt}

theorem proper_arr {items : List Json} : Proper fmt (.arr items) ↔ ∀ j ∈ items, Proper fmt j := by
  rw [Proper, Visitor.visit_arr]
  exact List.forall_mem_map

theorem proper_obj {members : List (String × Json)} :
    Proper fmt (.obj members) ↔
      (members.map Prod.fst).Nodup ∧ ∀ m ∈ members, Proper fmt m.2 := by
  rw [Proper, Visitor.visit_obj]
  simp only [properness, List.map_map, List.forall_mem_map]
  exact Iff.rfl

theorem Proper.canonical {j : Json} (h : Proper fmt j) : Proper fmt (canonical j) := by
  induction j using induct with
  | null | bool | int | float | str => exact h
  | arr items ih =>
    rw [canonical_arr, proper_arr]
    intro j hj
    obtain ⟨i, hi, rfl⟩ := List.mem_map.mp hj
    exact ih i hi (proper_arr.mp h i hi)
  | obj members ih =>
    obtain ⟨hkeys, hvalues⟩ := proper_obj.mp h
    rw [canonical_obj, proper_obj]
    constructor
    · rw [((sortMembers_perm _).map Prod.fst).nodup_iff, List.map_map]
      exact hkeys
    · intro m hm
      obtain ⟨i, hi, rfl⟩ := List.mem_map.mp (mem_sortMembers.mp hm)
      exact ih i hi (hvalues i hi)

end Proper

/-! ## The reader -/

def hexValue? (c : Char) : Option Nat :=
  if c.isDigit then some (c.toNat - '0'.toNat)
  else if 'a' ≤ c ∧ c ≤ 'f' then some (c.toNat - 'a'.toNat + 10)
  else if 'A' ≤ c ∧ c ≤ 'F' then some (c.toNat - 'A'.toNat + 10)
  else none

def hex4 : List Char → Option (Nat × List Char)
  | a :: b :: c :: d :: rest => do
    let a ← hexValue? a
    let b ← hexValue? b
    let c ← hexValue? c
    let d ← hexValue? d
    some (((a * 16 + b) * 16 + c) * 16 + d, rest)
  | _ => none

/-- The character after a reverse solidus. A lone surrogate is refused: the value that holds it
cannot be encoded again. -/
def unescape : List Char → Option (Char × List Char)
  | [] => none
  | e :: rest =>
    if e = '"' ∨ e = '\\' ∨ e = '/' then some (e, rest)
    else if e = 'b' then some ('\x08', rest)
    else if e = 'f' then some ('\x0c', rest)
    else if e = 'n' then some ('\n', rest)
    else if e = 'r' then some ('\r', rest)
    else if e = 't' then some ('\t', rest)
    else if e = 'u' then
      match hex4 rest with
      | none => none
      | some (high, rest) =>
        if high < 0xd800 ∨ 0xdfff < high then some (Char.ofNat high, rest)
        else if 0xdbff < high then none
        else
          match rest with
          | '\\' :: 'u' :: rest =>
            match hex4 rest with
            | none => none
            | some (low, rest) =>
              if 0xdc00 ≤ low ∧ low ≤ 0xdfff then
                some (Char.ofNat (0x10000 + (high - 0xd800) * 0x400 + (low - 0xdc00)), rest)
              else none
          | _ => none
    else none

/-- The characters of a string up to its closing quote. -/
def stringBody : Nat → List Char → Option (List Char × List Char)
  | 0, _ => none
  | _ + 1, [] => none
  | fuel + 1, c :: rest =>
    if c = '"' then some ([], rest)
    else if c = '\\' then
      match unescape rest with
      | none => none
      | some (e, rest) => (stringBody fuel rest).map fun body => (e :: body.1, body.2)
    else if c.toNat < 0x20 then none
    else (stringBody fuel rest).map fun body => (c :: body.1, body.2)

def readString (text : List Char) : Option (String × List Char) :=
  (stringBody (text.length + 1) text).map fun body => (String.ofList body.1, body.2)

def readNumber (fmt : FloatFormat) (text : List Char) : Option (Json × List Char) :=
  let token := text.takeWhile isNumberChar
  let rest := text.dropWhile isNumberChar
  match integer? token with
  | some n => some (.int n, rest)
  | none => if isFloat token then (fmt.repr token).map fun text => (.float text, rest) else none

def readWord (word : List Char) (j : Json) (text : List Char) : Option (Json × List Char) :=
  if word.isPrefixOf text then some (j, text.drop word.length) else none

/-- `members[key] = value`: a key that is there keeps its place. -/
def setMember (members : List (String × Json)) (key : String) (j : Json) : List (String × Json) :=
  if key ∈ members.map Prod.fst then members.map fun m => if m.1 = key then (key, j) else m
  else members ++ [(key, j)]

theorem lookup_setMember_of_ne {members : List (String × Json)} {key other : String} {j : Json}
    (hne : other ≠ key) : (setMember members key j).lookup other = members.lookup other := by
  have hmap : ∀ ms : List (String × Json),
      (ms.map fun m => if m.1 = key then (key, j) else m).lookup other = ms.lookup other := by
    intro ms
    induction ms with
    | nil => rfl
    | cons m ms ih =>
      obtain ⟨k, v⟩ := m
      by_cases hk : k = key
      · simp [List.lookup_cons, hk, ih, beq_eq_false_iff_ne.mpr hne]
      · simp [List.lookup_cons, hk, ih]
  unfold setMember
  split_ifs
  · exact hmap members
  · simp [List.lookup_append, List.lookup_cons, beq_eq_false_iff_ne.mpr hne]

/-- `dict(pairs)` -/
def ofPairs (pairs : List (String × Json)) : List (String × Json) :=
  pairs.foldl (fun members m => setMember members m.1 m.2) []

mutual

def readValue (fmt : FloatFormat) : Nat → List Char → Option (Json × List Char)
  | 0, _ => none
  | _ + 1, [] => none
  | fuel + 1, c :: rest =>
    if c = '"' then (readString rest).map fun s => (.str s.1, s.2)
    else if c = '[' then
      match skip rest with
      | ']' :: rest => some (.arr [], rest)
      | rest => (readItems fmt fuel rest).map fun items => (.arr items.1, items.2)
    else if c = '\x7b' then
      match skip rest with
      | '\x7d' :: rest => some (.obj [], rest)
      | rest => (readMembers fmt fuel rest).map fun members => (.obj (ofPairs members.1), members.2)
    else if c = 'n' then readWord ['u', 'l', 'l'] .null rest
    else if c = 't' then readWord ['r', 'u', 'e'] (.bool true) rest
    else if c = 'f' then readWord ['a', 'l', 's', 'e'] (.bool false) rest
    else readNumber fmt (c :: rest)

def readItems (fmt : FloatFormat) : Nat → List Char → Option (List Json × List Char)
  | 0, _ => none
  | fuel + 1, text =>
    match readValue fmt fuel text with
    | none => none
    | some (j, rest) =>
      match skip rest with
      | ',' :: rest => (readItems fmt fuel (skip rest)).map fun items => (j :: items.1, items.2)
      | ']' :: rest => some ([j], rest)
      | _ => none

def readMembers (fmt : FloatFormat) : Nat → List Char → Option (List (String × Json) × List Char)
  | 0, _ => none
  | fuel + 1, '"' :: text =>
    match readString text with
    | none => none
    | some (key, rest) =>
      match skip rest with
      | ':' :: rest =>
        match readValue fmt fuel (skip rest) with
        | none => none
        | some (j, rest) =>
          match skip rest with
          | ',' :: rest =>
            (readMembers fmt fuel (skip rest)).map fun members =>
              ((key, j) :: members.1, members.2)
          | '\x7d' :: rest => some ([(key, j)], rest)
          | _ => none
      | _ => none
  | _ + 1, _ => none

end

/-- `json.loads(text)`, absent when the text is refused. -/
def loads (fmt : FloatFormat) (text : List Char) : Option Json :=
  match readValue fmt (text.length + 1) (skip text) with
  | some (j, rest) => if skip rest = [] then some j else none
  | none => none

end Json

end AiPlatform.Foundation
