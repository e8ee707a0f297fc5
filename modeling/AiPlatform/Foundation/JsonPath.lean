import AiPlatform.Foundation.JsonRoundTrip

/-!
# Changing a string inside a value

A path leads through object keys and array positions to one place in a value. Sorting members moves
no place a path can name, so a replacement by path can be made before or after it.
-/
namespace AiPlatform.Foundation.Json

open List

inductive Part where
  | key (name : String)
  | index (position : Int)
  deriving DecidableEq, Repr

/-- `value[part]`, absent when the part names nothing. -/
def child : Part → Json → Option Json
  | .key name, .obj members => members.lookup name
  | .index position, .arr items => if 0 ≤ position then items[position.toNat]? else none
  | _, _ => none

/-- `value[part] = j`, for a part that is there. -/
def setChild (part : Part) (j : Json) (value : Json) : Json :=
  match part, value with
  | .key name, .obj members => .obj (members.map fun m => (m.1, if m.1 = name then j else m.2))
  | .index position, .arr items => .arr (items.set position.toNat j)
  | _, value => value

/-- The value with the string `expected` at the path replaced. -/
def replaceAt (expected replacement : String) : List Part → Json → Option Json
  | [], value => if value = .str expected then some (.str replacement) else none
  | part :: path, value =>
    match child part value with
    | none => none
    | some j => (replaceAt expected replacement path j).map fun j => setChild part j value

/-! ## Looking up a member -/

section Lookup

variable {α β : Type} {members others : List (String × α)} {key : String}

theorem mem_of_lookup {value : α} (h : members.lookup key = some value) :
    (key, value) ∈ members := by
  obtain ⟨before, after, rfl, -⟩ := lookup_eq_some_iff.mp h
  simp

theorem lookup_eq_some_iff_mem (h : (members.map Prod.fst).Nodup) {value : α} :
    members.lookup key = some value ↔ (key, value) ∈ members := by
  induction members with
  | nil => simp
  | cons m members ih =>
    obtain ⟨k, v⟩ := m
    simp only [map_cons, nodup_cons] at h
    rw [lookup_cons, mem_cons]
    by_cases hk : key = k
    · subst hk
      have hfresh : (key, value) ∉ members := fun hm => h.1 (mem_map_of_mem hm)
      simp [hfresh, eq_comm]
    · have hbeq : (key == k) = false := beq_false_of_ne hk
      simp [hk, hbeq, ih h.2]

theorem lookup_eq_of_perm (h : (members.map Prod.fst).Nodup) (hperm : members.Perm others) :
    members.lookup key = others.lookup key := by
  have hothers : (others.map Prod.fst).Nodup := ((hperm.map Prod.fst).nodup_iff).mp h
  ext value
  rw [lookup_eq_some_iff_mem h, lookup_eq_some_iff_mem hothers, hperm.mem_iff]

theorem lookup_map_snd (f : α → β) :
    (members.map fun m => (m.1, f m.2)).lookup key = (members.lookup key).map f := by
  induction members with
  | nil => rfl
  | cons m members ih =>
    rw [map_cons, lookup_cons, lookup_cons, ih]
    cases key == m.1 <;> rfl

end Lookup

/-! ## Sorted members -/

section Canonical

variable {fmt : FloatFormat}

theorem lookup_canonical {members : List (String × Json)} (h : (members.map Prod.fst).Nodup)
    (key : String) :
    (sortMembers (members.map fun m => (m.1, canonical m.2))).lookup key =
      (members.lookup key).map canonical := by
  have hkeys : ((members.map fun m => (m.1, canonical m.2)).map Prod.fst).Nodup := by
    rw [map_map]
    exact h
  rw [← lookup_eq_of_perm hkeys (sortMembers_perm _).symm, lookup_map_snd canonical]

variable {j value : Json}

theorem get?_canonical (h : Proper fmt j) (key : String) :
    (canonical j).get? key = (j.get? key).map canonical := by
  cases j with
  | obj members =>
    rw [canonical_obj]
    exact lookup_canonical (proper_obj.mp h).1 key
  | arr items =>
    rw [canonical_arr]
    rfl
  | _ => rfl

theorem child_canonical (h : Proper fmt value) (part : Part) :
    child part (canonical value) = (child part value).map canonical := by
  cases value with
  | obj members =>
    rw [canonical_obj]
    cases part with
    | key name => exact lookup_canonical (proper_obj.mp h).1 name
    | index position => rfl
  | arr items =>
    rw [canonical_arr]
    cases part with
    | key name => rfl
    | index position =>
      simp only [child, getElem?_map]
      split_ifs <;> rfl
  | _ => cases part <;> rfl

theorem setChild_canonical (part : Part) (j value : Json) :
    setChild part (canonical j) (canonical value) = canonical (setChild part j value) := by
  cases value with
  | obj members =>
    rw [canonical_obj]
    cases part with
    | key name =>
      have hset := sortMembers_map (fun m => if m.1 = name then canonical j else m.2)
        (members.map fun m => (m.1, canonical m.2))
      simp only [setChild, canonical_obj, map_map]
      rw [← hset, map_map]
      congr 2
      apply map_congr_left
      intro m _
      simp only [Function.comp]
      split_ifs <;> rfl
    | index position => exact (canonical_obj members).symm
  | arr items =>
    rw [canonical_arr]
    cases part with
    | key name => exact (canonical_arr items).symm
    | index position => simp only [setChild, canonical_arr, map_set]
  | _ => cases part <;> rfl

theorem Proper.child {part : Part} (h : Proper fmt value) (hchild : child part value = some j) :
    Proper fmt j := by
  cases value with
  | obj members =>
    cases part with
    | key name =>
      obtain ⟨hkeys, hvalues⟩ := proper_obj.mp h
      exact hvalues (name, j) ((lookup_eq_some_iff_mem hkeys).mp hchild)
    | index position => contradiction
  | arr items =>
    cases part with
    | key name => contradiction
    | index position =>
      simp only [Json.child] at hchild
      split_ifs at hchild
      exact proper_arr.mp h j (mem_of_getElem? hchild)
  | _ => cases part <;> contradiction

theorem Proper.setChild (hvalue : Proper fmt value) (hj : Proper fmt j) (part : Part) :
    Proper fmt (setChild part j value) := by
  cases value with
  | obj members =>
    cases part with
    | key name =>
      obtain ⟨hkeys, hvalues⟩ := proper_obj.mp hvalue
      refine proper_obj.mpr ⟨?_, ?_⟩
      · rw [map_map]
        exact hkeys
      · intro m hm
        obtain ⟨i, hi, rfl⟩ := mem_map.mp hm
        dsimp only
        split_ifs
        · exact hj
        · exact hvalues i hi
    | index position => exact hvalue
  | arr items =>
    cases part with
    | key name => exact hvalue
    | index position =>
      refine proper_arr.mpr fun i hi => ?_
      rcases mem_or_eq_of_mem_set hi with hi | rfl
      · exact proper_arr.mp hvalue i hi
      · exact hj
  | _ => cases part <;> exact hvalue

variable {expected replacement : String}

theorem canonical_eq_str {s : String} : canonical j = .str s ↔ j = .str s := by
  cases j with
  | arr items => simp [canonical_arr]
  | obj members => simp [canonical_obj]
  | _ => exact Iff.rfl

theorem replaceAt_canonical {path : List Part} (h : Proper fmt value) :
    replaceAt expected replacement path (canonical value) =
      (replaceAt expected replacement path value).map canonical := by
  induction path generalizing value with
  | nil =>
    simp only [replaceAt, canonical_eq_str]
    split_ifs <;> rfl
  | cons part path ih =>
    rw [replaceAt, replaceAt, child_canonical h]
    cases hchild : child part value with
    | none => rfl
    | some j =>
      simp only [Option.map_some, ih (h.child hchild), Option.map_map]
      congr 1
      funext j
      exact setChild_canonical part j value

theorem Proper.replaceAt {path : List Part} {result : Json} (h : Proper fmt value)
    (hresult : replaceAt expected replacement path value = some result) : Proper fmt result := by
  induction path generalizing value result with
  | nil =>
    rw [Json.replaceAt] at hresult
    split_ifs at hresult
    obtain rfl := Option.some.inj hresult
    exact trivial
  | cons part path ih =>
    rw [Json.replaceAt] at hresult
    cases hchild : Json.child part value with
    | none => simp [hchild] at hresult
    | some j =>
      simp only [hchild, Option.map_eq_some_iff] at hresult
      obtain ⟨j', hj', rfl⟩ := hresult
      exact h.setChild (ih (h.child hchild) hj') part

end Canonical

/-! ## Independent places -/

section Places

variable {fmt : FloatFormat} {part other : Part} {value j k : Json}

theorem lookup_set {members : List (String × Json)} {name key : String} :
    (members.map fun m => (m.1, if m.1 = name then j else m.2)).lookup key =
      if key = name then (members.lookup key).map fun _ => j else members.lookup key := by
  induction members with
  | nil => simp
  | cons m members ih =>
    rw [List.map_cons, List.lookup_cons, List.lookup_cons, ih]
    by_cases hkey : key = m.1
    · subst hkey
      simp only [beq_self_eq_true]
      split_ifs <;> rfl
    · rw [beq_false_of_ne hkey]

/-- A part names something in an object or in an array only. -/
theorem child_eq_some (h : child part value = some j) :
    (∃ name members, part = .key name ∧ value = .obj members ∧ members.lookup name = some j) ∨
      ∃ position items, part = .index position ∧ value = .arr items ∧ 0 ≤ position ∧
        items[position.toNat]? = some j := by
  cases part with
  | key name =>
    cases value with
    | obj members => exact .inl ⟨name, members, rfl, rfl, h⟩
    | _ => contradiction
  | index position =>
    cases value with
    | arr items =>
      simp only [child] at h
      split_ifs at h with hpos
      exact .inr ⟨position, items, rfl, rfl, hpos, h⟩
    | _ => contradiction

theorem child_setChild (h : child part value = some j) :
    child part (setChild part k value) = some k := by
  obtain ⟨name, members, rfl, rfl, hlookup⟩ | ⟨position, items, rfl, rfl, hpos, hget⟩ :=
    child_eq_some h
  · simp [child, setChild, lookup_set, hlookup]
  · obtain ⟨hlt, -⟩ := List.getElem?_eq_some_iff.mp hget
    simp [child, setChild, hpos, hlt]

theorem child_setChild_of_ne (hchild : child part value = some j) (h : part ≠ other) :
    child other (setChild part k value) = child other value := by
  obtain ⟨name, members, rfl, rfl, -⟩ | ⟨position, items, rfl, rfl, hpos, -⟩ :=
    child_eq_some hchild
  · cases other with
    | index position => rfl
    | key name' =>
      have hne : name' ≠ name := fun heq => h (heq ▸ rfl)
      simp [child, setChild, lookup_set, hne]
  · cases other with
    | key name => rfl
    | index position' =>
      have hne : position ≠ position' := fun heq => h (heq ▸ rfl)
      simp only [child, setChild]
      split_ifs
      · rw [List.getElem?_set_ne (by omega)]
      · rfl

theorem setChild_setChild (part : Part) (j k value : Json) :
    setChild part k (setChild part j value) = setChild part k value := by
  cases value with
  | obj members =>
    cases part with
    | key name =>
      simp only [setChild, List.map_map, obj.injEq]
      refine List.map_congr_left fun m _ => ?_
      simp only [Function.comp]
      split_ifs <;> rfl
    | index position => rfl
  | arr items => cases part <;> simp [setChild]
  | _ => cases part <;> rfl

theorem setChild_comm {j' k' : Json} (hpart : child part value = some j)
    (hother : child other value = some k) (h : part ≠ other) :
    setChild other k' (setChild part j' value) = setChild part j' (setChild other k' value) := by
  obtain ⟨name, members, rfl, rfl, -⟩ | ⟨position, items, rfl, rfl, hpos, -⟩ :=
    child_eq_some hpart
  · cases other with
    | index position => rfl
    | key name' =>
      have hne : name ≠ name' := fun heq => h (heq ▸ rfl)
      simp only [setChild, List.map_map, obj.injEq]
      refine List.map_congr_left fun m _ => ?_
      simp only [Function.comp]
      grind
  · cases other with
    | key name => rfl
    | index position' =>
      have hne : position ≠ position' := fun heq => h (heq ▸ rfl)
      have hpos' : 0 ≤ position' := by
        simp only [child] at hother
        split_ifs at hother
        assumption
      simp only [setChild, arr.injEq]
      exact List.set_comm _ _ (by omega)

theorem setChild_self (hproper : Proper fmt value) (h : child part value = some j) :
    setChild part j value = value := by
  obtain ⟨name, members, rfl, rfl, hlookup⟩ | ⟨position, items, rfl, rfl, -, hget⟩ :=
    child_eq_some h
  · obtain ⟨hkeys, -⟩ := proper_obj.mp hproper
    have hmember : ∀ m ∈ members, m.1 = name → m.2 = j := by
      rintro ⟨key, old⟩ hm rfl
      rw [(lookup_eq_some_iff_mem hkeys).mpr hm] at hlookup
      exact Option.some.inj hlookup
    simp only [setChild, obj.injEq]
    refine (List.map_congr_left fun m hm => ?_).trans (List.map_id members)
    by_cases hname : m.1 = name
    · rw [if_pos hname, ← hmember m hm hname]
      rfl
    · rw [if_neg hname]
      rfl
  · obtain ⟨hlt, rfl⟩ := List.getElem?_eq_some_iff.mp hget
    simp [setChild]

/-! ## Replacing strings -/

variable {expected replacement expected' replacement' : String} {path path' : List Part}

theorem replaceAt_cons {result : Json} :
    replaceAt expected replacement (part :: path) value = some result ↔
      ∃ j j', child part value = some j ∧ replaceAt expected replacement path j = some j' ∧
        result = setChild part j' value := by
  rw [replaceAt]
  cases child part value with
  | none => simp
  | some j => simp [eq_comm]

theorem replaceAt_nil {result : Json} :
    replaceAt expected replacement [] value = some result ↔
      value = .str expected ∧ result = .str replacement := by
  simp [replaceAt, eq_comm]

theorem replaceAt_cons_ne_str {s : String} {result : Json}
    (h : replaceAt expected replacement (part :: path) value = some result) : result ≠ .str s := by
  obtain ⟨j, j', hchild, -, rfl⟩ := replaceAt_cons.mp h
  obtain ⟨name, members, rfl, rfl, -⟩ | ⟨position, items, rfl, rfl, -⟩ := child_eq_some hchild
  · exact nofun
  · exact nofun

/-- A replacement can be taken back. -/
theorem replaceAt_undo {result : Json} (hproper : Proper fmt value)
    (h : replaceAt expected replacement path value = some result) :
    replaceAt replacement expected path result = some value := by
  induction path generalizing value result with
  | nil =>
    obtain ⟨rfl, rfl⟩ := replaceAt_nil.mp h
    exact replaceAt_nil.mpr ⟨rfl, rfl⟩
  | cons part path ih =>
    obtain ⟨j, j', hchild, hreplace, rfl⟩ := replaceAt_cons.mp h
    refine replaceAt_cons.mpr ⟨j', j, child_setChild hchild, ih (hproper.child hchild) hreplace, ?_⟩
    rw [setChild_setChild, setChild_self hproper hchild]

/-- Two replacements, of which the second does not change what the first has put there, can be made
in either order. -/
theorem replaceAt_comm {first second : Json} (hne : expected' ≠ replacement)
    (h : replaceAt expected replacement path value = some first)
    (h' : replaceAt expected' replacement' path' first = some second) :
    ∃ between, replaceAt expected' replacement' path' value = some between ∧
      replaceAt expected replacement path between = some second := by
  induction path generalizing path' value first second with
  | nil =>
    obtain ⟨rfl, rfl⟩ := replaceAt_nil.mp h
    cases path' with
    | nil =>
      obtain ⟨heq, -⟩ := replaceAt_nil.mp h'
      exact absurd (str.inj heq).symm hne
    | cons part path' =>
      obtain ⟨j, -, hchild, -⟩ := replaceAt_cons.mp h'
      cases part <;> contradiction
  | cons part path ih =>
    cases path' with
    | nil =>
      obtain ⟨rfl, -⟩ := replaceAt_nil.mp h'
      exact absurd rfl (replaceAt_cons_ne_str h)
    | cons part' path' =>
      obtain ⟨j, j', hchild, hreplace, rfl⟩ := replaceAt_cons.mp h
      obtain ⟨k, k', hchild', hreplace', rfl⟩ := replaceAt_cons.mp h'
      by_cases hpart : part = part'
      · subst hpart
        rw [child_setChild hchild] at hchild'
        obtain rfl := Option.some.inj hchild'
        obtain ⟨between, hbetween, hlast⟩ := ih hreplace hreplace'
        refine ⟨setChild part between value,
          replaceAt_cons.mpr ⟨j, between, hchild, hbetween, rfl⟩,
          replaceAt_cons.mpr ⟨between, k', child_setChild hchild, hlast, ?_⟩⟩
        rw [setChild_setChild, setChild_setChild]
      · rw [child_setChild_of_ne hchild hpart] at hchild'
        refine ⟨setChild part' k' value, replaceAt_cons.mpr ⟨k, k', hchild', hreplace', rfl⟩,
          replaceAt_cons.mpr ⟨j, j', ?_, hreplace, setChild_comm hchild hchild' hpart⟩⟩
        rw [child_setChild_of_ne hchild' (Ne.symm hpart), hchild]

/-! ## Reading -/

/-- The value at a path. -/
def readAt : List Part → Json → Option Json
  | [], value => some value
  | part :: path, value => (child part value).bind (readAt path)

/-- What is replaced reads as its replacement. -/
theorem readAt_of_replaceAt {result : Json}
    (h : replaceAt expected replacement path value = some result) :
    readAt path result = some (.str replacement) := by
  induction path generalizing value result with
  | nil =>
    obtain ⟨-, rfl⟩ := replaceAt_nil.mp h
    rfl
  | cons part path ih =>
    obtain ⟨j, j', hchild, hreplace, rfl⟩ := replaceAt_cons.mp h
    rw [readAt, child_setChild hchild]
    exact ih hreplace

/-- A replacement leaves places that already hold it. -/
theorem readAt_replacement {result : Json}
    (h : replaceAt expected replacement path value = some result)
    (hread : readAt path' value = some (.str replacement)) :
    readAt path' result = some (.str replacement) := by
  induction path generalizing path' value result with
  | nil =>
    obtain ⟨rfl, rfl⟩ := replaceAt_nil.mp h
    cases path' with
    | nil => rfl
    | cons part path' => cases part <;> contradiction
  | cons part path ih =>
    obtain ⟨j, j', hchild, hreplace, rfl⟩ := replaceAt_cons.mp h
    cases path' with
    | nil =>
      obtain rfl := Option.some.inj hread
      cases part <;> contradiction
    | cons part' path' =>
      by_cases hpart : part = part'
      · subst hpart
        rw [readAt, hchild] at hread
        rw [readAt, child_setChild hchild]
        exact ih hreplace hread
      · rw [readAt] at hread ⊢
        rwa [child_setChild_of_ne hchild hpart]

end Places

end AiPlatform.Foundation.Json
