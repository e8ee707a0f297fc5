import Mathlib.Data.List.AList
import Mathlib.Data.List.Nodup
import Mathlib.Data.List.ReduceOption
import Mathlib.Data.String.Basic
import Mathlib.Tactic.Tauto

/-!
# Keys of an in-memory data store: lists, hashes and sorted sets

The commands of a Redis-like store as pure functions on the value of one key. A hash is a finite
map, a sorted set is a finite map from members to scores whose ranks order members by score and
then by name. Every hash command has one lemma that says what a later read sees, and proofs
about scripts use only those.
-/
namespace AiPlatform.Foundation

open List

variable {α κ ν : Type}

/-! ## Hashes -/

abbrev Hash (κ ν : Type) : Type := AList (fun _ : κ => ν)

namespace Hash

variable [DecidableEq κ]

def hget (h : Hash κ ν) (k : κ) : Option ν := h.lookup k

def hset (h : Hash κ ν) (k : κ) (v : ν) : Hash κ ν := h.insert k v

def hdel (h : Hash κ ν) (k : κ) : Hash κ ν := h.erase k

def hexists (h : Hash κ ν) (k : κ) : Bool := (hget h k).isSome

def hgetall (h : Hash κ ν) : List (κ × ν) := h.entries.map fun e => (e.1, e.2)

def hlen (h : Hash κ ν) : Nat := h.entries.length

/-- Replace every value; the keys stay. -/
def hmap {ν' : Type} (f : κ → ν → ν') (h : Hash κ ν) : Hash κ ν' :=
  ⟨h.entries.map fun e => ⟨e.1, f e.1 e.2⟩, h.nodupKeys.map₂ f h.entries⟩

@[simp] theorem hget_empty (k : κ) : hget (∅ : Hash κ ν) k = none := AList.lookup_empty k

@[simp] theorem hget_hset_self (h : Hash κ ν) (k : κ) (v : ν) : hget (hset h k v) k = some v :=
  AList.lookup_insert h

variable {k k' : κ} {h : Hash κ ν}

theorem hget_hset_ne (h : Hash κ ν) (v : ν) (hne : k' ≠ k) :
    hget (hset h k v) k' = hget h k' :=
  AList.lookup_insert_ne hne

@[simp] theorem hget_hset (h : Hash κ ν) (k k' : κ) (v : ν) :
    hget (hset h k v) k' = if k' = k then some v else hget h k' := by
  split
  · subst k'; exact hget_hset_self h k v
  · exact hget_hset_ne h v ‹_›

@[simp] theorem hget_hdel (h : Hash κ ν) (k k' : κ) :
    hget (hdel h k) k' = if k' = k then none else hget h k' := by
  split
  · subst k'; exact AList.lookup_erase k h
  · exact AList.lookup_erase_ne ‹_›

theorem hget_hdel_some {v : ν} (hv : hget (hdel h k) k' = some v) :
    hget h k' = some v := by
  rw [hget_hdel] at hv
  split at hv
  · simp at hv
  · exact hv

/-- What holds of every row and of a new one holds of every row afterwards. -/
theorem forall_hset {P : κ → ν → Prop} {v : ν} (rows : ∀ k' v', hget h k' = some v' → P k' v')
    (hv : P k v) :
    ∀ k' v', hget (hset h k v) k' = some v' → P k' v' := by
  intro k' v' hrow
  rw [hget_hset] at hrow
  split at hrow
  · subst k'
    exact Option.some.inj hrow ▸ hv
  · exact rows k' v' hrow

theorem hexists_eq_true (h : Hash κ ν) (k : κ) : hexists h k = true ↔ ∃ v, hget h k = some v := by
  simp [hexists, Option.isSome_iff_exists]

theorem hexists_eq_false (h : Hash κ ν) (k : κ) : hexists h k = false ↔ hget h k = none := by
  simp [hexists]

@[simp] theorem hexists_hset (h : Hash κ ν) (k k' : κ) (v : ν) :
    hexists (hset h k v) k' = (decide (k' = k) || hexists h k') := by
  by_cases hk : k' = k <;> simp [hexists, hk]

@[simp] theorem hexists_hdel (h : Hash κ ν) (k k' : κ) :
    hexists (hdel h k) k' = (decide (k' ≠ k) && hexists h k') := by
  by_cases hk : k' = k <;> simp [hexists, hk]

theorem hexists_of_hdel (hk : hexists (hdel h k) k' = true) :
    hexists h k' = true := by
  rw [hexists_hdel, Bool.and_eq_true] at hk
  exact hk.2

theorem mem_hgetall (h : Hash κ ν) (k : κ) (v : ν) : (k, v) ∈ hgetall h ↔ hget h k = some v := by
  simp only [hgetall, mem_map, hget]
  constructor
  · rintro ⟨⟨k', v'⟩, hm, he⟩
    simp only [Prod.mk.injEq] at he
    obtain ⟨rfl, rfl⟩ := he
    exact AList.mem_lookup_iff.mpr hm
  · intro hl
    exact ⟨⟨k, v⟩, AList.mem_lookup_iff.mp hl, rfl⟩

omit [DecidableEq κ] in
theorem nodup_hgetall (h : Hash κ ν) : ((hgetall h).map Prod.fst).Nodup := by
  have hkeys : (hgetall h).map Prod.fst = h.entries.keys := by simp [hgetall, List.keys]
  rw [hkeys]
  exact h.keys_nodup

theorem lookup_hgetall (h : Hash κ ν) (k : κ) : (hgetall h).lookup k = hget h k := by
  obtain ⟨entries, hnd⟩ := h
  change (entries.map fun e => (e.1, e.2)).lookup k = entries.dlookup k
  clear hnd
  induction entries with
  | nil => rfl
  | cons e entries ih =>
    obtain ⟨key, value⟩ := e
    by_cases hk : k = key
    · subst hk
      simp
    · have hk' : (k == key) = false := by simpa using hk
      simp [lookup_cons, hk', hk, ih]

theorem hlen_eq_zero (h : Hash κ ν) : hlen h = 0 ↔ ∀ k, hget h k = none := by
  constructor
  · intro hz k
    have he : h = ∅ := AList.ext (length_eq_zero_iff.mp hz)
    rw [he, hget_empty]
  · intro hall
    refine length_eq_zero_iff.mpr (eq_nil_iff_forall_not_mem.mpr fun e he => ?_)
    simpa [hget] using (AList.mem_lookup_iff.mpr he).symm.trans (hall e.1)

@[simp] theorem hget_hmap {ν' : Type} (f : κ → ν → ν') (h : Hash κ ν) (k : κ) :
    hget (hmap f h) k = (hget h k).map (f k) :=
  dlookup_map₂ k

@[simp] theorem hset_hset (h : Hash κ ν) (k : κ) (v v' : ν) :
    hset (hset h k v) k v' = hset h k v' :=
  AList.insert_insert h

end Hash

/-! ## Sorted sets -/

abbrev SortedSet : Type := Hash String Nat

namespace SortedSet

def zadd (z : SortedSet) (score : Nat) (member : String) : SortedSet := Hash.hset z member score

def zrem (z : SortedSet) (member : String) : SortedSet := Hash.hdel z member

def zscore (z : SortedSet) (member : String) : Option Nat := Hash.hget z member

/-- Members with a smaller score come first; equal scores are ordered by name. -/
def before (score : Nat) (member : String) (entry : String × Nat) : Bool :=
  entry.2 < score || (entry.2 == score && entry.1 < member)

def zrank (z : SortedSet) (member : String) : Option Nat :=
  (zscore z member).map fun score => (Hash.hgetall z).countP (before score member)

@[simp] theorem zscore_zadd (z : SortedSet) (score : Nat) (member other : String) :
    zscore (zadd z score member) other = if other = member then some score else zscore z other :=
  Hash.hget_hset z member other score

@[simp] theorem zscore_zrem (z : SortedSet) (member other : String) :
    zscore (zrem z member) other = if other = member then none else zscore z other :=
  Hash.hget_hdel z member other

theorem zrank_isSome (z : SortedSet) (member : String) :
    (zrank z member).isSome = (zscore z member).isSome := by
  simp [zrank]

/-- The list names the members in the order of their scores, which are all different. -/
structure Lists (z : SortedSet) (members : List String) : Prop where
  mem : ∀ member, (zscore z member).isSome = true ↔ member ∈ members
  sorted : members.Pairwise fun a b =>
    ∀ x y, zscore z a = some x → zscore z b = some y → x < y

variable {members : List String} {z : SortedSet}

theorem Lists.nodup (h : Lists z members) :
    members.Nodup := by
  apply h.sorted.imp_of_mem
  rintro a b ha _ hlt rfl
  obtain ⟨x, hx⟩ := Option.isSome_iff_exists.mp ((h.mem a).mpr ha)
  exact absurd (hlt x x hx hx) (lt_irrefl x)

/-- The entries of the set are the listed members with their scores. -/
theorem Lists.perm_hgetall (h : Lists z members) :
    (Hash.hgetall z).Perm (members.map fun m => (m, (zscore z m).getD 0)) := by
  have hkeys : (Hash.hgetall z).Nodup := (Hash.nodup_hgetall z).of_map _
  have hmembers : (members.map fun m => (m, (zscore z m).getD 0)).Nodup :=
    h.nodup.map fun a b hab => (Prod.mk.inj hab).1
  rw [perm_ext_iff_of_nodup hkeys hmembers]
  rintro ⟨member, score⟩
  simp only [Hash.mem_hgetall, mem_map, Prod.mk.injEq]
  constructor
  · intro hscore
    exact ⟨member, (h.mem member).mp (by simp [zscore, hscore]), rfl, by simp [zscore, hscore]⟩
  · rintro ⟨m, hm, rfl, rfl⟩
    obtain ⟨x, hx⟩ := Option.isSome_iff_exists.mp ((h.mem m).mpr hm)
    rw [hx, Option.getD_some]
    exact hx

/-- The rank of a member is its place in the list. -/
theorem Lists.zrank_append {older newer : List String} {member : String}
    (h : Lists z (older ++ member :: newer)) : zrank z member = some older.length := by
  obtain ⟨x, hx⟩ := Option.isSome_iff_exists.mp ((h.mem member).mpr (by simp))
  obtain ⟨-, hmember, holder⟩ := pairwise_append.mp h.sorted
  have hnewer := (pairwise_cons.mp hmember).1
  have hscore : ∀ m, m ∈ older ++ member :: newer →
      zscore z m = some ((zscore z m).getD 0) := by
    intro m hm
    obtain ⟨y, hy⟩ := Option.isSome_iff_exists.mp ((h.mem m).mpr hm)
    rw [hy, Option.getD_some]
  have hbefore : older.countP (before x member ∘ fun m => (m, (zscore z m).getD 0)) =
      older.length := by
    apply countP_eq_length.mpr
    intro m hm
    have := holder m hm member (by simp) _ x (hscore m (by simp [hm])) hx
    simp [before, this]
  have hafter : (member :: newer).countP (before x member ∘ fun m => (m, (zscore z m).getD 0)) =
      0 := by
    apply countP_eq_zero.mpr
    intro m hm
    obtain rfl | hm := mem_cons.mp hm
    · simp [before, hx]
    · have := hnewer m hm x _ hx (hscore m (by simp [hm]))
      simp only [Function.comp_apply, before, Bool.or_eq_true, decide_eq_true_eq, beq_iff_eq,
        Bool.and_eq_true]
      omega
  rw [zrank, hx, Option.map_some, h.perm_hgetall.countP_eq, countP_map, countP_append,
    hbefore, hafter, Nat.add_zero]

theorem Lists.zrank_eq_some_iff (h : Lists z members) {member : String} {i : Nat} :
    zrank z member = some i ↔ members[i]? = some member := by
  have hplace : ∀ j, members[j]? = some member → zrank z member = some j := by
    intro j hj
    obtain ⟨hlt, hj⟩ := List.getElem?_eq_some_iff.mp hj
    have hsplit : members = members.take j ++ member :: members.drop (j + 1) := by
      rw [← hj, List.getElem_cons_drop, List.take_append_drop]
    rw [hsplit] at h
    have hrank := h.zrank_append
    rwa [length_take, min_eq_left hlt.le] at hrank
  constructor
  · intro hrank
    have hmem : member ∈ members := by
      rw [← h.mem, ← zrank_isSome, hrank]
      rfl
    obtain ⟨j, hj⟩ := mem_iff_getElem?.mp hmem
    have := hplace j hj
    rw [hrank, Option.some.injEq] at this
    rwa [this]
  · exact hplace i

end SortedSet

/-! ## Lists -/

variable [DecidableEq α]

/-- `LREM key 1 value`. -/
def lremFirst (l : List α) (a : α) : List α := l.erase a

/-- `LREM key 0 value`. -/
def lremAll (l : List α) (a : α) : List α := l.filter (· ≠ a)

/-- `LINDEX` for the indexes the callers pass: a negative or too large index reads nothing. -/
def lindex (l : List α) (i : Int) : Option α := if i < 0 then none else l[i.toNat]?

/-- `LRANGE key start stop` for indexes that are not negative: both ends belong to the range. -/
def lrange (l : List α) (start stop : Nat) : List α := (l.drop start).take (stop + 1 - start)

/-- `LRANGE key -n -1` with `0 < n`. -/
def lrangeLast (l : List α) (n : Nat) : List α := l.drop (l.length - n)

/-- Overwrite position `i` with a marker that no element equals, then remove the marker. -/
def removeAt (l : List α) (i : Nat) : List α :=
  (((l.map some).set i none).erase none).reduceOption

/-- The marker is found where it was written, so exactly the `i`-th element is gone. -/
theorem removeAt_eq_eraseIdx (l : List α) (i : Nat) : removeAt l i = l.eraseIdx i := by
  induction l generalizing i with
  | nil => simp [removeAt]
  | cons a l ih =>
    cases i with
    | zero =>
      have hsome : ∀ l : List α, (l.map some).reduceOption = l := by
        intro l
        induction l with
        | nil => rfl
        | cons a l ih => rw [map_cons, reduceOption_cons_of_some, ih]
      simp [removeAt, hsome]
    | succ i =>
      have h := ih i
      simp only [removeAt] at h ⊢
      simpa [erase_cons] using h

variable {l : List α} {a b : α}

theorem mem_lremAll : b ∈ lremAll l a ↔ b ∈ l ∧ b ≠ a := by
  simp [lremAll]

theorem mem_lremFirst_of_nodup (h : l.Nodup) :
    b ∈ lremFirst l a ↔ b ≠ a ∧ b ∈ l :=
  h.mem_erase_iff

omit [DecidableEq α] in
@[simp] theorem lindex_natCast (l : List α) (i : Nat) : lindex l i = l[i]? := by
  simp [lindex]

omit [DecidableEq α] in
theorem getElem?_of_lindex {i : Int} (h : lindex l i = some a) :
    l[i.toNat]? = some a := by
  unfold lindex at h
  split at h
  · simp at h
  · exact h

omit [DecidableEq α] in
theorem mem_of_lindex {i : Int} (h : lindex l i = some a) : a ∈ l :=
  mem_of_getElem? (getElem?_of_lindex h)

omit [DecidableEq α] in
/-- Taking out the element an index reads leaves the others, each once. -/
theorem mem_eraseIdx_of_nodup (hn : l.Nodup) {i : Nat} (h : l[i]? = some a) :
    b ∈ l.eraseIdx i ↔ b ∈ l ∧ b ≠ a := by
  classical
  obtain ⟨hi, rfl⟩ := List.getElem?_eq_some_iff.mp h
  rw [← List.Nodup.erase_getElem hn i hi, hn.mem_erase_iff]
  tauto

/-! ## Composite key names -/

/-- A name joined from two parts that avoid the separator determines both parts. -/
theorem append_separator_inj {a b c d : String} {sep : Char} (ha : sep ∉ a.toList)
    (hb : sep ∉ b.toList) (h : a ++ String.singleton sep ++ b = c ++ String.singleton sep ++ d) :
    a = c ∧ b = d := by
  have hl := congrArg String.toList h
  simp only [String.toList_append, String.toList_singleton, append_assoc,
    singleton_append] at hl
  obtain ⟨hac, -, hbd⟩ := (append_cons_inj_of_notMem ha hb).mp hl
  exact ⟨String.toList_inj.mp hac, String.toList_inj.mp hbd⟩

end AiPlatform.Foundation
