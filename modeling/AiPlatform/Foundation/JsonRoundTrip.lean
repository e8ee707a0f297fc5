import AiPlatform.Foundation.Decimals
import AiPlatform.Foundation.JsonParse
import Mathlib.Data.List.TakeWhile

/-!
# Reading back what was written

`loads_dumps`: the reader returns every proper value from its text. A value's text is followed in
an array or an object by a comma or a closing bracket, which no number can swallow; `Ends` says so
of the text that is left.
-/
namespace AiPlatform.Foundation.Json

open List

/-! ## Numbers -/

theorem isNumberChar_of_isDigit {c : Char} (h : c.isDigit = true) : isNumberChar c = true := by
  simp [isNumberChar, h]

theorem isNatural_cons {c : Char} {rest : List Char} (hne : c ≠ '0') (hc : c.isDigit = true)
    (hrest : rest.all Char.isDigit = true) : isNatural (c :: rest) = true := by
  rw [isNatural]
  · simp [hne, hc, hrest]
  · intro hzero
    simp [hne] at hzero

/-- A printed natural number starts with no zero, unless it is zero. -/
theorem isNatural_toDigits (n : Nat) : isNatural (Nat.toDigits 10 n) = true := by
  rcases Nat.eq_zero_or_pos n with rfl | hpos
  · rfl
  · obtain ⟨c, rest, heq, hc⟩ := exists_toDigits_eq_cons hpos.ne'
    have hdigits := toDigits_all_isDigit n
    rw [heq] at hdigits ⊢
    simp only [all_cons, Bool.and_eq_true] at hdigits
    exact isNatural_cons hc hdigits.1 hdigits.2

theorem integer?_intText (n : Int) : integer? (intText n) = some n := by
  cases n with
  | ofNat n =>
    rw [intText, integer?]
    · rw [if_pos (isNatural_toDigits n), Nat.ofDigitChars_ten_toDigits]
      rfl
    · intro rest heq
      have hminus := toDigits_all_isDigit n
      rw [heq] at hminus
      simp at hminus
  | negSucc n =>
    rw [intText, integer?, if_pos (isNatural_toDigits (n + 1)), Nat.ofDigitChars_ten_toDigits]
    rfl

theorem intText_all_isNumberChar (n : Int) : (intText n).all isNumberChar = true := by
  have hnat : ∀ n : Nat, (Nat.toDigits 10 n).all isNumberChar = true := fun n =>
    all_eq_true.mpr fun c hc =>
      isNumberChar_of_isDigit (all_eq_true.mp (toDigits_all_isDigit n) c hc)
  cases n with
  | ofNat n => exact hnat n
  | negSucc n => simp [intText, hnat, isNumberChar]

theorem intText_ne_nil (n : Int) : intText n ≠ [] := by
  cases n with
  | ofNat n => exact Nat.toDigits_ne_nil
  | negSucc n => simp [intText]

/-- What follows a value: nothing that could continue a number. -/
def Ends (text : List Char) : Prop :=
  ∀ c ∈ text.head?, isNumberChar c = false

theorem takeWhile_append_of_ends {token rest : List Char}
    (htoken : token.all isNumberChar = true) (hrest : Ends rest) :
    (token ++ rest).takeWhile isNumberChar = token := by
  rw [takeWhile_append_of_pos (all_eq_true.mp htoken)]
  cases rest with
  | nil => simp
  | cons c rest => simp [hrest c rfl]

theorem dropWhile_append_of_ends {token rest : List Char}
    (htoken : token.all isNumberChar = true) (hrest : Ends rest) :
    (token ++ rest).dropWhile isNumberChar = rest := by
  rw [dropWhile_append_of_pos (all_eq_true.mp htoken)]
  cases rest with
  | nil => simp
  | cons c rest => simp [hrest c rfl]

theorem isDigit_of_isNatural {token : List Char} (h : isNatural token = true) :
    ∀ c ∈ token, c.isDigit = true := by
  rw [isNatural.eq_def] at h
  split at h
  · contradiction
  · simp
  · simp only [Bool.and_eq_true, all_eq_true] at h
    intro c hc
    rcases mem_cons.mp hc with rfl | hc
    · exact h.1.2
    · exact h.2 c hc

/-- An integer leaves nothing after its whole part, where a float has more to read. -/
theorem isUnsignedFloat_of_isNatural {token : List Char} (h : isNatural token = true) :
    isUnsignedFloat token = false := by
  have hdrop : token.dropWhile Char.isDigit = [] :=
    dropWhile_eq_nil_iff.mpr (isDigit_of_isNatural h)
  simp [isUnsignedFloat, hdrop, isFraction, isExponent]

theorem integer?_of_isFloat {token : List Char} (h : isFloat token = true) :
    integer? token = none := by
  have hnot : ∀ {t}, isUnsignedFloat t = true → ¬ isNatural t = true := by
    intro t ht hn
    rw [isUnsignedFloat_of_isNatural hn] at ht
    contradiction
  rw [isFloat.eq_def] at h
  rw [integer?.eq_def]
  split at h <;> exact if_neg (hnot h)

section

variable {fmt : FloatFormat}

theorem readNumber_intText (n : Int) {rest : List Char} (hrest : Ends rest) :
    readNumber fmt (intText n ++ rest) = some (.int n, rest) := by
  simp only [readNumber, takeWhile_append_of_ends (intText_all_isNumberChar n) hrest,
    dropWhile_append_of_ends (intText_all_isNumberChar n) hrest, integer?_intText]

theorem readNumber_float {text rest : List Char} (htext : fmt.repr text = some text)
    (hrest : Ends rest) : readNumber fmt (text ++ rest) = some (.float text, rest) := by
  have hchars := fmt.repr_isNumberChar htext
  have hfloat := fmt.repr_isFloat htext
  simp only [readNumber, takeWhile_append_of_ends hchars hrest,
    dropWhile_append_of_ends hchars hrest, integer?_of_isFloat hfloat, hfloat, htext]
  rfl

end

/-! ## Strings -/

theorem hexValue?_digitChar : ∀ n < 16, hexValue? (Nat.digitChar n) = some n := by
  decide

/-- The escape of a control character is read back by its number. -/
theorem unescape_control {c : Char} (hc : c.toNat < 0x20) (rest : List Char) :
    unescape ('u' :: '0' :: '0' :: Nat.digitChar (c.toNat / 16) ::
      Nat.digitChar (c.toNat % 16) :: rest) = some (c, rest) := by
  have hhigh := hexValue?_digitChar (c.toNat / 16) (by omega)
  have hlow := hexValue?_digitChar (c.toNat % 16) (by omega)
  have hzero : hexValue? '0' = some 0 := by decide
  have hvalue : ((0 * 16 + 0) * 16 + c.toNat / 16) * 16 + c.toNat % 16 = c.toNat := by omega
  have hhex : hex4 ('0' :: '0' :: Nat.digitChar (c.toNat / 16) ::
      Nat.digitChar (c.toNat % 16) :: rest) = some (c.toNat, rest) := by
    simp only [hex4, hhigh, hlow, hzero, Option.bind_eq_bind, Option.bind_some, hvalue]
  have hrange : c.toNat < 0xd800 := by omega
  simp [unescape, hhex, hrange]

theorem stringBody_escape (c : Char) (fuel : Nat) (rest : List Char) :
    stringBody (fuel + 1) (escape c ++ rest) =
      (stringBody fuel rest).map fun body => (c :: body.1, body.2) := by
  unfold escape
  split_ifs with h1 h2 h3 h4 h5 h6 h7 h8
  all_goals try (subst c; simp [stringBody, unescape])
  · simp [stringBody, unescape_control h8]
  · simp [stringBody, h1, h2, h8]

theorem stringBody_flatMap (cs : List Char) (fuel : Nat) (rest : List Char)
    (hfuel : cs.length < fuel) :
    stringBody fuel (cs.flatMap escape ++ '"' :: rest) = some (cs, rest) := by
  induction cs generalizing fuel with
  | nil =>
    obtain ⟨fuel, rfl⟩ := Nat.exists_eq_add_of_lt hfuel
    simp [stringBody]
  | cons c cs ih =>
    obtain ⟨fuel, rfl⟩ : ∃ n, fuel = n + 1 := ⟨fuel - 1, by simp at hfuel; omega⟩
    rw [flatMap_cons, append_assoc, stringBody_escape, ih fuel (by simpa using hfuel)]
    rfl

theorem escape_ne_nil (c : Char) : 1 ≤ (escape c).length := by
  unfold escape
  split_ifs <;> simp

theorem length_le_flatMap_escape (cs : List Char) : cs.length ≤ (cs.flatMap escape).length := by
  induction cs with
  | nil => simp
  | cons c cs ih =>
    have hc := escape_ne_nil c
    simp only [flatMap_cons, length_append, length_cons]
    omega

theorem readString_quote (s : String) (rest : List Char) :
    readString (s.toList.flatMap escape ++ '"' :: rest) = some (s, rest) := by
  have hlength := length_le_flatMap_escape s.toList
  rw [readString, stringBody_flatMap]
  · simp
  · simp only [length_append, length_cons]
    omega

/-! ## Values -/

theorem ne_of_isNumberChar {c d : Char} (hc : isNumberChar c = true)
    (hd : isNumberChar d = false) : c ≠ d := by
  rintro rfl
  rw [hc] at hd
  contradiction

theorem skip_cons {c : Char} (hc : isBlank c = false) (rest : List Char) :
    skip (c :: rest) = c :: rest := by
  simp [skip, hc]

theorem isBlank_of_isNumberChar {c : Char} (hc : isNumberChar c = true) : isBlank c = false := by
  have hne : ∀ d, isNumberChar d = false → c ≠ d := fun d => ne_of_isNumberChar hc
  simp [isBlank, hne ' ' (by decide), hne '\t' (by decide), hne '\n' (by decide),
    hne '\r' (by decide)]

theorem cons_of_ne_nil_of_all {text : List Char} (hne : text ≠ [])
    (hall : text.all isNumberChar = true) :
    ∃ c rest, text = c :: rest ∧ isNumberChar c = true := by
  obtain ⟨c, rest, rfl⟩ := exists_cons_of_ne_nil hne
  exact ⟨c, rest, rfl, all_eq_true.mp hall c (mem_cons_self ..)⟩

theorem isFloat_ne_nil {token : List Char} (h : isFloat token = true) : token ≠ [] := by
  rintro rfl
  contradiction

section

variable {fmt : FloatFormat} {gap : List Char}

/-- A text starts with a character that is neither a blank nor closes an array. -/
theorem spacedDumps_cons {j : Json} (h : Proper fmt j) :
    ∃ c rest, spacedDumps gap j = c :: rest ∧ isBlank c = false ∧ c ≠ ']' := by
  have hnumber : ∀ text : List Char, text ≠ [] → text.all isNumberChar = true →
      ∃ c rest, text = c :: rest ∧ isBlank c = false ∧ c ≠ ']' := by
    intro text hne hall
    obtain ⟨c, rest, rfl, hc⟩ := cons_of_ne_nil_of_all hne hall
    exact ⟨c, rest, rfl, isBlank_of_isNumberChar hc, ne_of_isNumberChar hc (by decide)⟩
  cases j with
  | null => exact ⟨_, _, rfl, by decide, by decide⟩
  | bool b => cases b <;> exact ⟨_, _, rfl, by decide, by decide⟩
  | int n => exact hnumber _ (intText_ne_nil n) (intText_all_isNumberChar n)
  | float text =>
    exact hnumber text (isFloat_ne_nil (fmt.repr_isFloat h)) (fmt.repr_isNumberChar h)
  | str s => exact ⟨_, _, rfl, by decide, by decide⟩
  | arr items => exact ⟨_, _, spacedDumps_arr gap items, by decide, by decide⟩
  | obj members => exact ⟨_, _, spacedDumps_obj gap members, by decide, by decide⟩

theorem skip_gap (hgap : gap.all isBlank = true) (text : List Char) :
    skip (gap ++ text) = skip text := by
  unfold skip
  rw [dropWhile_append_of_pos fun c hc => all_eq_true.mp hgap c hc]

theorem skip_spacedDumps {j : Json} (h : Proper fmt j) (rest : List Char) :
    skip (spacedDumps gap j ++ rest) = spacedDumps gap j ++ rest := by
  obtain ⟨c, text, heq, hc, -⟩ := spacedDumps_cons h
  rw [heq]
  exact skip_cons hc _

theorem readValue_number {text : List Char} (fuel : Nat) (rest : List Char) (hne : text ≠ [])
    (hall : text.all isNumberChar = true) :
    readValue fmt (fuel + 1) (text ++ rest) = readNumber fmt (text ++ rest) := by
  obtain ⟨c, text, rfl, hc⟩ := cons_of_ne_nil_of_all hne hall
  have hne : ∀ d, isNumberChar d = false → c ≠ d := fun d => ne_of_isNumberChar hc
  rw [cons_append, readValue, if_neg (hne _ (by decide)), if_neg (hne _ (by decide)),
    if_neg (hne _ (by decide)), if_neg (hne _ (by decide)), if_neg (hne _ (by decide)),
    if_neg (hne _ (by decide))]

/-- What the reader owes a value: its text is read back, whatever ends it. -/
def ReadsBack (fmt : FloatFormat) (gap : List Char) (j : Json) : Prop :=
  ∀ fuel rest, (spacedDumps gap j).length ≤ fuel → Ends rest →
    readValue fmt fuel (spacedDumps gap j ++ rest) = some (j, rest)

theorem ends_cons {c : Char} (hc : isNumberChar c = false) (rest : List Char) :
    Ends (c :: rest) := by
  intro d hd
  obtain rfl : c = d := by simpa using hd
  exact hc

/-- A list of texts starts as its first text does. -/
theorem intercalate_head (separator : List Char) (c : Char) (text : List Char)
    (texts : List (List Char)) (rest : List Char) :
    ∃ tail, separator.intercalate ((c :: text) :: texts) ++ rest = c :: tail := by
  cases texts with
  | nil => exact ⟨text ++ rest, by simp⟩
  | cons next texts =>
    exact ⟨text ++ (separator ++ (separator.intercalate (next :: texts) ++ rest)),
      by simp [intercalate_cons_cons]⟩

theorem skip_intercalate (separator : List Char) {c : Char} (hc : isBlank c = false)
    (text : List Char) (texts : List (List Char)) (rest : List Char) :
    skip (separator.intercalate ((c :: text) :: texts) ++ rest) =
      separator.intercalate ((c :: text) :: texts) ++ rest := by
  obtain ⟨tail, htail⟩ := intercalate_head separator c text texts rest
  rw [htail, skip_cons hc]

section Gap

variable (hgap : gap.all isBlank = true)

include hgap

theorem readItems_dumps {items : List Json} (hne : items ≠ [])
    (hproper : ∀ j ∈ items, Proper fmt j) (hread : ∀ j ∈ items, ReadsBack fmt gap j) (fuel : Nat)
    (rest : List Char)
    (hfuel : ((',' :: gap).intercalate (items.map (spacedDumps gap))).length < fuel) :
    readItems fmt fuel ((',' :: gap).intercalate (items.map (spacedDumps gap)) ++ ']' :: rest) =
      some (items, rest) := by
  induction items generalizing fuel with
  | nil => contradiction
  | cons j items ih =>
    obtain ⟨fuel, rfl⟩ : ∃ n, fuel = n + 1 := ⟨fuel - 1, by omega⟩
    have hj := hread j (mem_cons_self ..)
    cases items with
    | nil =>
      simp only [map_cons, map_nil, intercalate_singleton] at hfuel ⊢
      rw [readItems, hj fuel _ (by omega) (ends_cons (by decide) rest)]
      simp only [skip_cons (show isBlank ']' = false by decide)]
    | cons i items =>
      have hi := hproper i (by simp)
      have hskip : skip (gap ++ ((',' :: gap).intercalate (spacedDumps gap i ::
            items.map (spacedDumps gap)) ++ ']' :: rest)) =
          (',' :: gap).intercalate (spacedDumps gap i :: items.map (spacedDumps gap)) ++
            ']' :: rest := by
        obtain ⟨c, text, heq, hc, -⟩ := spacedDumps_cons hi
        rw [skip_gap hgap, heq]
        exact skip_intercalate _ hc text _ _
      simp only [map_cons, intercalate_cons_cons, append_assoc, cons_append,
        length_append, length_cons] at hfuel ih ⊢
      rw [readItems, hj fuel _ (by omega) (ends_cons (by decide) _)]
      simp only [skip_cons (show isBlank ',' = false by decide), hskip]
      rw [ih (by simp) (fun k hk => hproper k (mem_cons_of_mem _ hk))
        (fun k hk => hread k (mem_cons_of_mem _ hk)) fuel (by omega)]
      rfl

theorem readMembers_dumps {members : List (String × Json)} (hne : members ≠ [])
    (hproper : ∀ m ∈ members, Proper fmt m.2) (hread : ∀ m ∈ members, ReadsBack fmt gap m.2)
    (fuel : Nat) (rest : List Char)
    (hfuel : ((',' :: gap).intercalate
      (members.map fun m => quote m.1 ++ ':' :: (gap ++ spacedDumps gap m.2))).length < fuel) :
    readMembers fmt fuel
        ((',' :: gap).intercalate
          (members.map fun m => quote m.1 ++ ':' :: (gap ++ spacedDumps gap m.2)) ++
            '\x7d' :: rest) =
      some (members, rest) := by
  induction members generalizing fuel with
  | nil => contradiction
  | cons m members ih =>
    obtain ⟨key, j⟩ := m
    obtain ⟨fuel, rfl⟩ : ∃ n, fuel = n + 1 := ⟨fuel - 1, by omega⟩
    have hj := hread (key, j) (mem_cons_self ..)
    have hjproper := hproper (key, j) (mem_cons_self ..)
    cases members with
    | nil =>
      simp only [map_cons, map_nil, intercalate_singleton, quote,
        cons_append, nil_append, append_assoc, length_append,
        length_cons] at hfuel ⊢
      rw [readMembers, readString_quote]
      simp only [skip_cons (show isBlank ':' = false by decide), skip_gap hgap,
        skip_spacedDumps hjproper]
      rw [hj fuel _ (by dsimp only; omega) (ends_cons (by decide) rest)]
      simp only [skip_cons (show isBlank '\x7d' = false by decide)]
    | cons m members =>
      have hskip := skip_intercalate (',' :: gap) (show isBlank '"' = false by decide)
        (m.1.toList.flatMap escape ++ ['"'] ++ ':' :: (gap ++ spacedDumps gap m.2))
        (members.map fun m => quote m.1 ++ ':' :: (gap ++ spacedDumps gap m.2)) ('\x7d' :: rest)
      simp only [map_cons, intercalate_cons_cons, quote, append_assoc,
        cons_append, nil_append, length_append,
        length_cons] at hfuel hskip ih ⊢
      rw [readMembers, readString_quote]
      simp only [skip_cons (show isBlank ':' = false by decide), skip_gap hgap,
        skip_spacedDumps hjproper]
      rw [hj fuel _ (by dsimp only; omega) (ends_cons (by decide) _)]
      simp only [skip_cons (show isBlank ',' = false by decide), skip_gap hgap, hskip]
      rw [ih (by simp) (fun k hk => hproper k (mem_cons_of_mem _ hk))
        (fun k hk => hread k (mem_cons_of_mem _ hk)) fuel (by omega)]
      rfl

end Gap

theorem ofPairs_of_nodup {members : List (String × Json)}
    (h : (members.map Prod.fst).Nodup) : ofPairs members = members := by
  have hgo : ∀ front back : List (String × Json), ((front ++ back).map Prod.fst).Nodup →
      back.foldl (fun members m => setMember members m.1 m.2) front = front ++ back := by
    intro front back
    induction back generalizing front with
    | nil => simp
    | cons m back ih =>
      intro hnodup
      have hfresh : m.1 ∉ front.map Prod.fst := by
        rw [map_append, map_cons] at hnodup
        intro hm
        exact (nodup_append.mp hnodup).2.2 _ hm _ (mem_cons_self ..) rfl
      rw [foldl_cons, setMember, if_neg hfresh, ih _ (by simpa using hnodup)]
      simp
  exact hgo [] members h

theorem exists_fuel {j : Json} {fuel : Nat} (h : Proper fmt j)
    (hfuel : (spacedDumps gap j).length ≤ fuel) : ∃ n, fuel = n + 1 := by
  obtain ⟨c, rest, heq, -⟩ := spacedDumps_cons h
  rw [heq, length_cons] at hfuel
  exact ⟨fuel - 1, by omega⟩

theorem readValue_arr {fuel : Nat} {c : Char} {text rest : List Char} (hc : c ≠ ']')
    (hskip : skip rest = c :: text) :
    readValue fmt (fuel + 1) ('[' :: rest) =
      (readItems fmt fuel (c :: text)).map fun items => (.arr items.1, items.2) := by
  simp only [readValue, hskip, if_true, if_false, Char.reduceEq]
  split
  · rename_i heq
    exact absurd (List.cons.inj heq).1 hc
  · rfl

theorem readValue_obj {fuel : Nat} {c : Char} {text rest : List Char} (hc : c ≠ '\x7d')
    (hskip : skip rest = c :: text) :
    readValue fmt (fuel + 1) ('\x7b' :: rest) =
      (readMembers fmt fuel (c :: text)).map fun members =>
        (.obj (ofPairs members.1), members.2) := by
  simp only [readValue, hskip, if_true, if_false, Char.reduceEq]
  split
  · rename_i heq
    exact absurd (List.cons.inj heq).1 hc
  · rfl

section Gap

variable (hgap : gap.all isBlank = true)

include hgap

/-- The closing bracket ends an array, whatever follows it. -/
theorem readValue_spacedDumps_arr {items : List Json} (hproper : ∀ j ∈ items, Proper fmt j)
    (hread : ∀ j ∈ items, ReadsBack fmt gap j) {fuel : Nat} (rest : List Char)
    (hfuel : (spacedDumps gap (.arr items)).length ≤ fuel) :
    readValue fmt fuel (spacedDumps gap (.arr items) ++ rest) = some (.arr items, rest) := by
  obtain ⟨fuel, rfl⟩ := exists_fuel (proper_arr.mpr hproper) hfuel
  rw [spacedDumps_arr] at hfuel ⊢
  simp only [length_cons, length_append, length_nil, cons_append,
    append_assoc, nil_append] at hfuel ⊢
  cases items with
  | nil => simp [readValue, skip_cons (show isBlank ']' = false by decide)]
  | cons j items =>
    have hitems := readItems_dumps hgap (by simp) hproper hread fuel rest (by omega)
    obtain ⟨c, text, heq, hc, hclose⟩ := spacedDumps_cons (hproper j (mem_cons_self ..))
    rw [map_cons, heq] at hitems ⊢
    obtain ⟨tail, htail⟩ := intercalate_head (',' :: gap) c text
      (items.map (spacedDumps gap)) (']' :: rest)
    rw [htail] at hitems ⊢
    rw [readValue_arr hclose (skip_cons hc tail), hitems]
    rfl

theorem readsBack_arr {items : List Json} (hproper : ∀ j ∈ items, Proper fmt j)
    (hread : ∀ j ∈ items, ReadsBack fmt gap j) : ReadsBack fmt gap (.arr items) :=
  fun _ rest hfuel _ => readValue_spacedDumps_arr hgap hproper hread rest hfuel

theorem readsBack_obj {members : List (String × Json)} (hproper : Proper fmt (.obj members))
    (hread : ∀ m ∈ members, ReadsBack fmt gap m.2) : ReadsBack fmt gap (.obj members) := by
  intro fuel rest hfuel hrest
  obtain ⟨fuel, rfl⟩ := exists_fuel hproper hfuel
  obtain ⟨hkeys, hvalues⟩ := proper_obj.mp hproper
  rw [spacedDumps_obj] at hfuel ⊢
  simp only [length_cons, length_append, length_nil, cons_append,
    append_assoc, nil_append] at hfuel ⊢
  cases members with
  | nil => simp [readValue, skip_cons (show isBlank '\x7d' = false by decide)]
  | cons m members =>
    have hmembers := readMembers_dumps hgap (by simp) hvalues hread fuel rest (by omega)
    obtain ⟨text, heq⟩ : ∃ text, quote m.1 ++ ':' :: (gap ++ spacedDumps gap m.2) = '"' :: text :=
      ⟨_, rfl⟩
    rw [map_cons, heq] at hmembers ⊢
    obtain ⟨tail, htail⟩ := intercalate_head (',' :: gap) '"' text
      (members.map fun m => quote m.1 ++ ':' :: (gap ++ spacedDumps gap m.2)) ('\x7d' :: rest)
    have hskip : skip ('"' :: tail) = '"' :: tail := skip_cons (by decide) tail
    rw [htail] at hmembers ⊢
    rw [readValue_obj (by decide) hskip, hmembers, Option.map_some, ofPairs_of_nodup hkeys]

theorem readsBack (j : Json) (h : Proper fmt j) : ReadsBack fmt gap j := by
  induction j using induct with
  | null =>
    intro fuel rest hfuel hrest
    obtain ⟨fuel, rfl⟩ := exists_fuel h hfuel
    simp [spacedDumps, spacedPrinter, Visitor.visit, printer, readValue, readWord]
  | bool b =>
    intro fuel rest hfuel hrest
    obtain ⟨fuel, rfl⟩ := exists_fuel h hfuel
    cases b <;> simp [spacedDumps, spacedPrinter, Visitor.visit, printer, readValue, readWord]
  | str s =>
    intro fuel rest hfuel hrest
    obtain ⟨fuel, rfl⟩ := exists_fuel h hfuel
    simp [spacedDumps, spacedPrinter, Visitor.visit, printer, quote, readValue, readString_quote]
  | int n =>
    intro fuel rest hfuel hrest
    obtain ⟨fuel, rfl⟩ := exists_fuel h hfuel
    exact (readValue_number fuel rest (intText_ne_nil n) (intText_all_isNumberChar n)).trans
      (readNumber_intText n hrest)
  | float text =>
    intro fuel rest hfuel hrest
    obtain ⟨fuel, rfl⟩ := exists_fuel h hfuel
    exact (readValue_number fuel rest (isFloat_ne_nil (fmt.repr_isFloat h))
      (fmt.repr_isNumberChar h)).trans (readNumber_float h hrest)
  | arr items ih =>
    exact readsBack_arr hgap (proper_arr.mp h) fun j hj => ih j hj (proper_arr.mp h j hj)
  | obj members ih =>
    exact readsBack_obj hgap h fun m hm => ih m hm ((proper_obj.mp h).2 m hm)

/-- The texts of two arrays that are followed by anything are told apart from what follows. -/
theorem spacedDumps_arr_inj {items items' : List Json} (hproper : Proper fmt (.arr items))
    (hproper' : Proper fmt (.arr items')) {rest rest' : List Char}
    (h : spacedDumps gap (.arr items) ++ rest = spacedDumps gap (.arr items') ++ rest') :
    items = items' ∧ rest = rest' := by
  have hread := readValue_spacedDumps_arr hgap (proper_arr.mp hproper)
    (fun j hj => readsBack hgap j (proper_arr.mp hproper j hj)) rest
    (Nat.le_add_right _ (spacedDumps gap (.arr items')).length)
  have hread' := readValue_spacedDumps_arr hgap (proper_arr.mp hproper')
    (fun j hj => readsBack hgap j (proper_arr.mp hproper' j hj)) rest'
    (Nat.le_add_left _ (spacedDumps gap (.arr items)).length)
  rw [h, hread'] at hread
  obtain ⟨hitems, hrest⟩ := Prod.mk.inj (Option.some.inj hread)
  exact ⟨(Json.arr.inj hitems).symm, hrest.symm⟩

/-- Reading the text of a proper value gives the value. -/
theorem loads_spacedDumps {j : Json} (h : Proper fmt j) :
    loads fmt (spacedDumps gap j) = some j := by
  have hskip : skip (spacedDumps gap j ++ []) = spacedDumps gap j ++ [] := skip_spacedDumps h []
  have hread := readsBack hgap j h ((spacedDumps gap j).length + 1) [] (by omega) (by simp [Ends])
  rw [append_nil] at hskip hread
  rw [loads, hskip, hread]
  rfl

end Gap

theorem loads_dumps {j : Json} (h : Proper fmt j) : loads fmt (dumps j) = some j :=
  loads_spacedDumps (by rfl) h

theorem dumps_injOn {i j : Json} (hi : Proper fmt i) (hj : Proper fmt j)
    (h : dumps i = dumps j) : i = j := by
  have hread := loads_dumps hi
  rw [h, loads_dumps hj] at hread
  exact (Option.some.inj hread).symm

end

end AiPlatform.Foundation.Json
