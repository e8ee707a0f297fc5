import Mathlib
import AiPlatform.Foundation.Keyspace

/-!
# Scripts over expiring keys

What a server-side script works with: values decoded from JSON, whose numbers are computed with,
and keys that carry a deadline. The encoder of the scripting language cannot tell an empty array
from an empty object, so a value that went through a script is its `recode`.
-/
namespace AiPlatform.Foundation

/-- A decoded JSON text. Numbers are exact. -/
inductive Value where
  | null
  | bool (value : Bool)
  | number (value : ℚ)
  | str (value : String)
  | arr (items : List Value)
  | obj (members : List (String × Value))
  deriving Inhabited

namespace Value

/-! ## Equality -/

mutual

def beq : Value → Value → Bool
  | .null, .null => true
  | .bool a, .bool b => a == b
  | .number a, .number b => a == b
  | .str a, .str b => a == b
  | .arr as, .arr bs => beqItems as bs
  | .obj as, .obj bs => beqMembers as bs
  | _, _ => false

def beqItems : List Value → List Value → Bool
  | [], [] => true
  | a :: as, b :: bs => beq a b && beqItems as bs
  | _, _ => false

def beqMembers : List (String × Value) → List (String × Value) → Bool
  | [], [] => true
  | (k, a) :: as, (l, b) :: bs => k == l && beq a b && beqMembers as bs
  | _, _ => false

end

mutual

theorem beq_iff : ∀ a b : Value, beq a b = true ↔ a = b
  | .null, b => by cases b <;> simp [beq]
  | .bool _, b => by cases b <;> simp [beq]
  | .number _, b => by cases b <;> simp [beq]
  | .str _, b => by cases b <;> simp [beq]
  | .arr as, b => by
    cases b with
    | arr bs => simp [beq, beqItems_iff as bs]
    | _ => simp [beq]
  | .obj as, b => by
    cases b with
    | obj bs => simp [beq, beqMembers_iff as bs]
    | _ => simp [beq]

theorem beqItems_iff : ∀ as bs : List Value, beqItems as bs = true ↔ as = bs
  | [], bs => by cases bs <;> simp [beqItems]
  | a :: as, bs => by
    cases bs with
    | nil => simp [beqItems]
    | cons b bs => simp [beqItems, beq_iff a b, beqItems_iff as bs]

theorem beqMembers_iff : ∀ as bs : List (String × Value), beqMembers as bs = true ↔ as = bs
  | [], bs => by cases bs <;> simp [beqMembers]
  | (k, a) :: as, bs => by
    cases bs with
    | nil => simp [beqMembers]
    | cons b bs =>
      obtain ⟨l, b⟩ := b
      simp [beqMembers, beq_iff a b, beqMembers_iff as bs]

end

instance : DecidableEq Value := fun a b => decidable_of_iff (beq a b = true) (beq_iff a b)

/-! ## Fields -/

/-- `value[key]`. What is not an object has no fields. -/
def get (v : Value) (key : String) : Option Value :=
  match v with
  | .obj members => members.lookup key
  | _ => none

/-- `value[key] = x`. -/
def set (v : Value) (key : String) (x : Value) : Value :=
  match v with
  | .obj members => .obj ((key, x) :: members.filter (·.1 ≠ key))
  | _ => .obj [(key, x)]

variable {key : String} {v : Value}

theorem lookup_filter_ne (members : List (String × Value)) {key' : String} (h : key' ≠ key) :
    (members.filter (·.1 ≠ key)).lookup key' = members.lookup key' := by
  induction members with
  | nil => rfl
  | cons m members ih =>
    obtain ⟨name, v⟩ := m
    by_cases hname : name = key
    · subst hname
      have hne : (key' == name) = false := by simpa using h
      simpa [List.filter_cons, List.lookup_cons, hne] using ih
    · by_cases hkey : key' = name
      · simp [hname, hkey]
      · have hne : (key' == name) = false := by simpa using hkey
        simpa [List.filter_cons, hname, List.lookup_cons, hne] using ih

@[simp] theorem get_set (v : Value) (key key' : String) (x : Value) :
    (v.set key x).get key' = if key' = key then some x else v.get key' := by
  by_cases h : key' = key
  · subst h
    cases v <;> simp [set, get]
  · have hne : (key' == key) = false := by simpa using h
    cases v with
    | obj members => simpa [set, get, List.lookup_cons, hne, h] using lookup_filter_ne members h
    | _ => simp [set, get, List.lookup_cons, hne, h]

@[simp] theorem get_obj_nil (key : String) : (obj []).get key = none := rfl

@[simp] theorem get_obj_cons (name : String) (x : Value) (members : List (String × Value))
    (key : String) :
    (obj ((name, x) :: members)).get key = if key = name then some x
      else (obj members).get key := by
  by_cases h : key = name
  · simp [get, h]
  · have hne : (key == name) = false := by simpa using h
    simp [get, List.lookup_cons, hne, h]

/-- The number a field holds, where it holds one. -/
def num (v : Value) (key : String) : ℚ :=
  match v.get key with
  | some (.number q) => q
  | _ => 0

theorem num_of_get {q : ℚ} (h : v.get key = some (.number q)) :
    v.num key = q := by
  rw [num, h]

@[simp] theorem num_set_self (v : Value) (key : String) (q : ℚ) :
    (v.set key (.number q)).num key = q :=
  num_of_get (by simp)

theorem num_set_of_ne (v : Value) {key' : String} (h : key' ≠ key) (x : Value) :
    (v.set key x).num key' = v.num key' := by
  rw [num, num, get_set, if_neg h]

def isString : Option Value → Bool
  | some (.str _) => true
  | _ => false

def isNumber : Option Value → Bool
  | some (.number _) => true
  | _ => false

/-- `type(value) == "table"`. -/
def isTable : Option Value → Bool
  | some (.arr _) => true
  | some (.obj _) => true
  | _ => false

@[simp] theorem isString_str (s : String) : isString (some (.str s)) = true := rfl

theorem isString_iff (v : Option Value) : isString v = true ↔ ∃ s, v = some (.str s) := by
  rcases v with _ | v
  · simp [isString]
  · cases v <;> simp [isString]

/-! ## Decoding and encoding again -/

mutual

def recode : Value → Value
  | .null => .null
  | .bool b => .bool b
  | .number q => .number q
  | .str s => .str s
  | .arr [] => .obj []
  | .arr (v :: items) => .arr (recode v :: recodeItems items)
  | .obj members => .obj (recodeMembers members)

def recodeItems : List Value → List Value
  | [] => []
  | v :: items => recode v :: recodeItems items

def recodeMembers : List (String × Value) → List (String × Value)
  | [] => []
  | (key, v) :: members => (key, recode v) :: recodeMembers members

end

mutual

theorem recode_recode : ∀ v : Value, v.recode.recode = v.recode
  | .null => rfl
  | .bool _ => rfl
  | .number _ => rfl
  | .str _ => rfl
  | .arr [] => rfl
  | .arr (v :: items) => by
    simp only [recode]
    rw [recode_recode v, recodeItems_recodeItems items]
  | .obj members => by
    simp only [recode]
    rw [recodeMembers_recodeMembers members]

theorem recodeItems_recodeItems : ∀ items : List Value,
    recodeItems (recodeItems items) = recodeItems items
  | [] => rfl
  | v :: items => by
    simp only [recodeItems]
    rw [recode_recode v, recodeItems_recodeItems items]

theorem recodeMembers_recodeMembers : ∀ members : List (String × Value),
    recodeMembers (recodeMembers members) = recodeMembers members
  | [] => rfl
  | (_, v) :: members => by
    simp only [recodeMembers]
    rw [recode_recode v, recodeMembers_recodeMembers members]

end

theorem recodeItems_eq_map (items : List Value) : recodeItems items = items.map recode := by
  induction items with
  | nil => rfl
  | cons v items ih => simp [recodeItems, ih]

theorem lookup_recodeMembers (members : List (String × Value)) (key : String) :
    (recodeMembers members).lookup key = (members.lookup key).map recode := by
  induction members with
  | nil => rfl
  | cons m members ih =>
    obtain ⟨name, v⟩ := m
    by_cases h : key = name
    · simp [recodeMembers, h]
    · have hne : (key == name) = false := by simpa using h
      simpa [recodeMembers, List.lookup_cons, hne] using ih

@[simp] theorem get_recode (v : Value) (key : String) :
    v.recode.get key = (v.get key).map recode := by
  cases v with
  | arr items => cases items <;> rfl
  | obj members => exact lookup_recodeMembers members key
  | _ => rfl

/-- Scalars, and whatever already went through a script, pass unchanged. -/
def Settled (v : Value) : Prop := v.recode = v

theorem settled_recode (v : Value) : v.recode.Settled := recode_recode v

theorem Settled.get {x : Value} (hv : v.Settled) (h : v.get key = some x) :
    x.recode = x := by
  have hrec := get_recode v key
  rw [hv, h] at hrec
  exact (Option.some.inj hrec).symm

@[simp] theorem recode_null : recode .null = .null := rfl

@[simp] theorem recode_number (q : ℚ) : recode (.number q) = .number q := rfl

@[simp] theorem recode_str (s : String) : recode (.str s) = .str s := rfl

@[simp] theorem isString_map_recode (v : Option Value) : isString (v.map recode) = isString v := by
  rcases v with _ | v
  · rfl
  · cases v with
    | arr items => cases items <;> rfl
    | _ => rfl

@[simp] theorem isTable_map_recode (v : Option Value) : isTable (v.map recode) = isTable v := by
  rcases v with _ | v
  · rfl
  · cases v with
    | arr items => cases items <;> rfl
    | _ => rfl

theorem recode_eq_number {q : ℚ} : v.recode = .number q ↔ v = .number q := by
  cases v with
  | arr items => cases items <;> simp [recode]
  | _ => simp [recode]

theorem recode_eq_null : v.recode = .null ↔ v = .null := by
  cases v with
  | arr items => cases items <;> simp [recode]
  | _ => simp [recode]

@[simp] theorem num_recode (v : Value) (key : String) : v.recode.num key = v.num key := by
  rw [num, num, get_recode]
  rcases v.get key with _ | x
  · rfl
  · cases x with
    | arr items => cases items <;> rfl
    | _ => rfl

/-- A list of scalars keeps its items; only the empty list turns into an object. -/
theorem recode_arr_of_settled {items : List Value} (hne : items ≠ [])
    (h : ∀ v ∈ items, v.recode = v) : recode (.arr items) = .arr items := by
  cases items with
  | nil => exact absurd rfl hne
  | cons v items =>
    have htail : items.map recode = items := by
      conv_rhs => rw [← List.map_id items]
      exact List.map_congr_left fun x hx => h x (List.mem_cons_of_mem v hx)
    rw [recode, h v List.mem_cons_self, recodeItems_eq_map, htail]

end Value

/-! ## Keys with a deadline -/

structure Entry (ν : Type) where
  value : ν
  expiresAt : ℕ

/-- Deadlines are in milliseconds, the clock is in microseconds. -/
structure ExpiringStore (κ ν : Type) [DecidableEq κ] where
  entries : Hash κ (Entry ν)
  clock : ℕ

namespace ExpiringStore

variable {κ ν : Type} [DecidableEq κ]

def now (s : ExpiringStore κ ν) : ℕ := s.clock / 1000

/-- `TIME`, in seconds. -/
def time (s : ExpiringStore κ ν) : ℚ := s.clock / 1000000

def wait (s : ExpiringStore κ ν) (elapsed : ℕ) : ExpiringStore κ ν :=
  { s with clock := s.clock + elapsed }

def find (s : ExpiringStore κ ν) (key : κ) : Option (Entry ν) :=
  (Hash.hget s.entries key).filter fun entry => s.now ≤ entry.expiresAt

def get (s : ExpiringStore κ ν) (key : κ) : Option ν := (s.find key).map Entry.value

/-- `PEXPIRETIME`. -/
def expireTime (s : ExpiringStore κ ν) (key : κ) : Option ℕ := (s.find key).map Entry.expiresAt

/-- `PTTL`, where it is positive. -/
def remaining (s : ExpiringStore κ ν) (key : κ) : Option ℕ :=
  ((s.expireTime key).map (· - s.now)).filter (0 < ·)

/-- `SET key value PX ttl`. -/
def put (s : ExpiringStore κ ν) (key : κ) (value : ν) (ttl : ℕ) : ExpiringStore κ ν :=
  { s with entries := Hash.hset s.entries key ⟨value, s.now + ttl⟩ }

def del (s : ExpiringStore κ ν) (key : κ) : ExpiringStore κ ν :=
  { s with entries := Hash.hdel s.entries key }

variable (s : ExpiringStore κ ν)

@[simp] theorem clock_put (key : κ) (value : ν) (ttl : ℕ) : (s.put key value ttl).clock = s.clock :=
  rfl

@[simp] theorem now_put (key : κ) (value : ν) (ttl : ℕ) : (s.put key value ttl).now = s.now := rfl

@[simp] theorem time_put (key : κ) (value : ν) (ttl : ℕ) :
    (s.put key value ttl).time = s.time := rfl

theorem hget_put (key key' : κ) (value : ν) (ttl : ℕ) :
    Hash.hget (s.put key value ttl).entries key' =
      if key' = key then some ⟨value, s.now + ttl⟩ else Hash.hget s.entries key' :=
  Hash.hget_hset s.entries key key' _

theorem hget_put_self (key : κ) (value : ν) (ttl : ℕ) :
    Hash.hget (s.put key value ttl).entries key = some ⟨value, s.now + ttl⟩ := by
  rw [hget_put, if_pos rfl]

variable {key : κ}

theorem hget_put_of_ne {key' : κ} (h : key' ≠ key) (value : ν) (ttl : ℕ) :
    Hash.hget (s.put key value ttl).entries key' = Hash.hget s.entries key' := by
  rw [hget_put, if_neg h]

theorem remaining_eq_some {s : ExpiringStore κ ν} {ttl : ℕ} (h : s.remaining key = some ttl) :
    ∃ value, Hash.hget s.entries key = some ⟨value, s.now + ttl⟩ := by
  obtain ⟨h, hpos⟩ := Option.filter_eq_some_iff.mp h
  obtain ⟨expiry, hexpiry, rfl⟩ := Option.map_eq_some_iff.mp h
  obtain ⟨entry, hentry, rfl⟩ := Option.map_eq_some_iff.mp hexpiry
  obtain ⟨hget, -⟩ := Option.filter_eq_some_iff.mp hentry
  refine ⟨entry.value, hget.trans ?_⟩
  have heq : s.now + (entry.expiresAt - s.now) = entry.expiresAt := by
    simp only [decide_eq_true_eq] at hpos
    omega
  simp only [heq]

theorem get_isSome_of_remaining {s : ExpiringStore κ ν} {ttl : ℕ} (h : s.remaining key = some ttl) :
    (s.get key).isSome = true := by
  obtain ⟨h, -⟩ := Option.filter_eq_some_iff.mp h
  obtain ⟨expiry, hexpiry, rfl⟩ := Option.map_eq_some_iff.mp h
  obtain ⟨entry, hentry, -⟩ := Option.map_eq_some_iff.mp hexpiry
  simp [get, hentry]

end ExpiringStore

end AiPlatform.Foundation
