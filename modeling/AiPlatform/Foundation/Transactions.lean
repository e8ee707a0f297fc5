import AiPlatform.Foundation.Runs
import Mathlib.Logic.Function.Basic

/-!
# Transactions under row locks

A transaction is a program of statements on the rows of a store. Statements of different
transactions interleave; a transaction sees its own writes and what others have committed. A
statement that locks or writes a row waits while another transaction holds it, and a row once held
is held until the transaction ends. The journal lists the committed writes.

`run_serial` says that this is enough to think of the writes as made one after the other: replaying
the journal gives the committed rows, and at each write the replayed rows are the ones the writer
had locked. `wp` is the rule for programs: what a program guarantees about every write it makes,
from the rows it holds at that point, holds of every write in the journal. A row that was read and
not locked may have changed since; only an attribute that no write changes is then known of it.
-/
namespace AiPlatform.Foundation

open List

variable {κ : Type}

abbrev RowStore (V : κ → Type) := ∀ k, Option (V k)

/-- The rows a transaction holds, as it sees them. A row it holds may be absent: one that it is
about to insert. -/
abbrev RowView (V : κ → Type) := ∀ k, Option (Option (V k))

/-- A write of one row: the statement that made it, the row it left, and the rows the transaction
held just before, among them the one written. -/
structure RowWrite (V : κ → Type) (τ : Type) where
  tag : τ
  key : κ
  after : V key
  view : RowView V

inductive Txn (V : κ → Type) (τ ε α : Type) where
  | done (a : α)
  | fail (e : ε)
  | read (k : κ) (p : V k → Bool) (next : Option (V k) → Txn V τ ε α)
  | lock (k : κ) (p : V k → Bool) (next : Option (V k) → Txn V τ ε α)
  | update (tag : τ) (k : κ) (p : V k → Bool) (f : V k → V k) (next : Option (V k) → Txn V τ ε α)
  | insert (tag : τ) (k : κ) (v : V k) (next : Bool → Txn V τ ε α)

/-! ## Programs -/

namespace Txn

variable {V : κ → Type} {τ ε α β : Type}

def bind : Txn V τ ε α → (α → Txn V τ ε β) → Txn V τ ε β
  | .done a, f => f a
  | .fail e, _ => .fail e
  | .read k p next, f => .read k p fun row => (next row).bind f
  | .lock k p next, f => .lock k p fun row => (next row).bind f
  | .update tag k p g next, f => .update tag k p g fun row => (next row).bind f
  | .insert tag k v next, f => .insert tag k v fun inserted => (next inserted).bind f

instance : Monad (Txn V τ ε) where
  pure := .done
  bind := Txn.bind

/-- `select … where p` -/
def readRow (k : κ) (p : V k → Bool) : Txn V τ ε (Option (V k)) :=
  .read k p .done

/-- `select … where p for update` -/
def lockRow (k : κ) (p : V k → Bool) : Txn V τ ε (Option (V k)) :=
  .lock k p .done

/-- `update … set f where p returning *` -/
def updateRow (tag : τ) (k : κ) (p : V k → Bool) (f : V k → V k) : Txn V τ ε (Option (V k)) :=
  .update tag k p f .done

/-- `insert … on conflict do nothing`; the result says whether the row was inserted. -/
def insertRow (tag : τ) (k : κ) (v : V k) : Txn V τ ε Bool :=
  .insert tag k v .done

/-- `if not condition: raise refusal` -/
def ensure (condition : Prop) [Decidable condition] (refusal : ε) : Txn V τ ε Unit :=
  if condition then .done () else .fail refusal

/-- `if value is None: raise refusal` -/
def require (value : Option α) (refusal : ε) : Txn V τ ε α :=
  match value with
  | some a => .done a
  | none => .fail refusal

end Txn

/-! ## Sessions -/

/-- A transaction under way: what is left of its program, the rows it holds and what it wrote. -/
structure TxnSession (V : κ → Type) (τ ε α : Type) where
  rest : Txn V τ ε α
  view : RowView V
  writes : List (RowWrite V τ)

inductive TxnProgress (V : κ → Type) (τ ε α : Type) where
  | waits
  | moves (t : TxnSession V τ ε α)
  | commits (a : α)
  | fails (e : ε)

section Sessions

variable [DecidableEq κ] {V : κ → Type} {τ ε α : Type}

def RowView.hold (view : RowView V) (k : κ) (row : Option (V k)) : RowView V :=
  Function.update view k (some row)

namespace TxnSession

def begin (program : Txn V τ ε α) : TxnSession V τ ε α :=
  ⟨program, fun _ => none, []⟩

/-- The row as the transaction sees it: its own version, or else what is committed. -/
def visible (t : TxnSession V τ ε α) (store : RowStore V) (k : κ) : Option (V k) :=
  (t.view k).getD (store k)

def lockRow (t : TxnSession V τ ε α) (k : κ) (row : V k) (rest : Txn V τ ε α) :
    TxnSession V τ ε α :=
  ⟨rest, t.view.hold k (some row), t.writes⟩

def writeRow (t : TxnSession V τ ε α) (tag : τ) (k : κ) (before : Option (V k)) (after : V k)
    (rest : Txn V τ ε α) : TxnSession V τ ε α :=
  ⟨rest, t.view.hold k (some after), t.writes ++ [⟨tag, k, after, t.view.hold k before⟩]⟩

/-- The next statement. A row that does not meet the condition is not waited for. -/
def execute (t : TxnSession V τ ε α) (store : RowStore V) (free : κ → Bool) :
    TxnProgress V τ ε α :=
  match t.rest with
  | .done a => .commits a
  | .fail e => .fails e
  | .read k p next => .moves { t with rest := next ((t.visible store k).filter p) }
  | .lock k p next =>
    match (t.visible store k).filter p with
    | none => .moves { t with rest := next none }
    | some row => if free k then .moves (t.lockRow k row (next (some row))) else .waits
  | .update tag k p f next =>
    match (t.visible store k).filter p with
    | none => .moves { t with rest := next none }
    | some row =>
      if free k then .moves (t.writeRow tag k (some row) (f row) (next (some (f row)))) else .waits
  | .insert tag k v next =>
    match t.visible store k with
    | some _ => .moves { t with rest := next false }
    | none => if free k then .moves (t.writeRow tag k none v (next true)) else .waits

end TxnSession

/-! ## The database -/

structure Database (V : κ → Type) (τ ε α : Type) where
  store : RowStore V
  /-- The transaction that holds a row. -/
  owner : κ → Option Nat
  sessions : Nat → Option (TxnSession V τ ε α)
  journal : List (RowWrite V τ)

inductive TxnLabel (χ : Type) where
  | begins (i : Nat) (call : χ)
  | advances (i : Nat)
  | aborts (i : Nat)

def RowWrite.apply (store : RowStore V) (w : RowWrite V τ) : RowStore V :=
  Function.update store w.key (some w.after)

def replay (store : RowStore V) (writes : List (RowWrite V τ)) : RowStore V :=
  writes.foldl RowWrite.apply store

namespace Database

def isFree (d : Database V τ ε α) (i : Nat) (k : κ) : Bool :=
  d.owner k == none || d.owner k == some i

/-- The session goes on and holds what it has locked. -/
def keep (d : Database V τ ε α) (i : Nat) (t : TxnSession V τ ε α) : Database V τ ε α :=
  { d with
    owner := fun k => if (t.view k).isSome then some i else d.owner k
    sessions := Function.update d.sessions i (some t) }

/-- The session is over and its locks are given back. -/
def release (d : Database V τ ε α) (i : Nat) : Database V τ ε α :=
  { d with
    owner := fun k => if d.owner k = some i then none else d.owner k
    sessions := Function.update d.sessions i none }

def commit (d : Database V τ ε α) (t : TxnSession V τ ε α) : Database V τ ε α :=
  { d with store := replay d.store t.writes, journal := d.journal ++ t.writes }

def step {χ : Type} (program : χ → Txn V τ ε α) (d : Database V τ ε α) :
    TxnLabel χ → Database V τ ε α
  | .begins i call =>
    match d.sessions i with
    | none => d.keep i (.begin (program call))
    | some _ => d
  | .advances i =>
    match d.sessions i with
    | none => d
    | some t =>
      match t.execute d.store (d.isFree i) with
      | .waits => d
      | .moves t' => d.keep i t'
      | .commits _ => (d.commit t).release i
      | .fails _ => d.release i
  | .aborts i =>
    match d.sessions i with
    | none => d
    | some _ => d.release i

end Database

def transactions {χ : Type} (program : χ → Txn V τ ε α) (store : RowStore V) :
    Machine (Database V τ ε α) (TxnLabel χ) where
  start := ⟨store, fun _ => none, fun _ => none, []⟩
  step := Database.step program

end Sessions

/-! ## Guarantees of a program -/

/-- What a transaction knows: the rows it holds, and of rows it has read the attribute that no
write changes. -/
structure Known (V : κ → Type) (ι : Type) where
  view : RowView V
  seen : κ → Option ι

section Known

variable [DecidableEq κ] {V : κ → Type} {ι : Type}

def Known.nothing : Known V ι :=
  ⟨fun _ => none, fun _ => none⟩

def Known.hold (known : Known V ι) (k : κ) (row : Option (V k)) : Known V ι :=
  { known with view := known.view.hold k row }

def Known.see (known : Known V ι) (attr : ∀ k, V k → ι) (k : κ) (row : Option (V k)) :
    Known V ι :=
  match row with
  | none => known
  | some r => { known with seen := Function.update known.seen k (some (attr k r)) }

@[simp] theorem Known.hold_view (known : Known V ι) (k : κ) (row : Option (V k)) :
    (known.hold k row).view = known.view.hold k row := rfl

@[simp] theorem Known.hold_seen (known : Known V ι) (k : κ) (row : Option (V k)) :
    (known.hold k row).seen = known.seen := rfl

@[simp] theorem Known.see_view (known : Known V ι) (attr : ∀ k, V k → ι) (k : κ)
    (row : Option (V k)) : (known.see attr k row).view = known.view := by
  cases row <;> rfl

@[simp] theorem Known.see_some (known : Known V ι) (attr : ∀ k, V k → ι) (k : κ) (row : V k) :
    (known.see attr k (some row)).seen k = some (attr k row) :=
  Function.update_self ..

@[simp] theorem RowView.hold_self (view : RowView V) (k : κ) (row : Option (V k)) :
    view.hold k row k = some row :=
  Function.update_self ..

theorem RowView.hold_of_ne {view : RowView V} {k k' : κ} (h : k' ≠ k) (row : Option (V k)) :
    view.hold k row k' = view k' :=
  Function.update_of_ne h ..

end Known

namespace Txn

variable [DecidableEq κ] {V : κ → Type} {τ ε α β ι : Type}

/-- What a statement with the condition `p` can find at `k`: a row that is held is found as it is,
a row that was seen still has its attribute. -/
def Finds (attr : ∀ k, V k → ι) (known : Known V ι) (k : κ) (p : V k → Bool)
    (row : Option (V k)) : Prop :=
  (∀ held, known.view k = some held → row = held.filter p) ∧
    ∀ r ∈ row, p r ∧ ∀ a, known.seen k = some a → attr k r = a

omit [DecidableEq κ] in
theorem Finds.eq_of_held {attr : ∀ k, V k → ι} {known : Known V ι} {k : κ} {p : V k → Bool}
    {row held : V k} (h : Finds attr known k p (some row))
    (hheld : known.view k = some (some held)) :
    row = held :=
  Option.some_inj.mp (Option.mem_filter_iff.mp (h.1 (some held) hheld).symm).1.symm

/-- From what is known, the program makes only writes that satisfy `G`, and where it comes to an
end, what it returns and what is then known satisfy `Q`. -/
def wp (attr : ∀ k, V k → ι) (G : RowWrite V τ → Prop) (Q : Known V ι → α → Prop) :
    Known V ι → Txn V τ ε α → Prop
  | known, .done a => Q known a
  | _, .fail _ => True
  | known, .read k p next =>
    ∀ row, Finds attr known k p row → wp attr G Q (known.see attr k row) (next row)
  | known, .lock k p next =>
    (Finds attr known k p none → wp attr G Q known (next none)) ∧
      ∀ row, Finds attr known k p (some row) →
        wp attr G Q (known.hold k (some row)) (next (some row))
  | known, .update tag k p f next =>
    (Finds attr known k p none → wp attr G Q known (next none)) ∧
      ∀ row, Finds attr known k p (some row) →
        G ⟨tag, k, f row, known.view.hold k (some row)⟩ ∧
          wp attr G Q (known.hold k (some (f row))) (next (some (f row)))
  | known, .insert tag k v next =>
    wp attr G Q known (next false) ∧
      ((∀ held, known.view k = some held → held = none) →
        G ⟨tag, k, v, known.view.hold k none⟩ ∧ wp attr G Q (known.hold k (some v)) (next true))

section Rules

variable {attr : ∀ k, V k → ι} {G : RowWrite V τ → Prop} {known : Known V ι}

variable {Q : Known V ι → α → Prop} {k : κ}

@[simp] theorem wp_pure (a : α) :
    wp attr G Q known (pure a : Txn V τ ε α) ↔ Q known a :=
  Iff.rfl

@[simp] theorem wp_done (a : α) :
    wp attr G Q known (.done a : Txn V τ ε α) ↔ Q known a :=
  Iff.rfl

@[simp] theorem wp_fail (e : ε) :
    wp attr G Q known (.fail e : Txn V τ ε α) ↔ True :=
  Iff.rfl

@[simp] theorem wp_ensure {Q : Known V ι → Unit → Prop} (c : Prop) [Decidable c] (e : ε) :
    wp attr G Q known (ensure c e : Txn V τ ε Unit) ↔ (c → Q known ()) := by
  unfold ensure
  split_ifs with h <;> simp [h]

@[simp] theorem wp_require (value : Option α) (e : ε) :
    wp attr G Q known (require value e : Txn V τ ε α) ↔ ∀ a, value = some a → Q known a := by
  cases value <;> simp [require]

@[simp] theorem wp_readRow {p : V k → Bool} {Q : Known V ι → Option (V k) → Prop} :
    wp attr G Q known (readRow k p : Txn V τ ε _) ↔
      ∀ row, Finds attr known k p row → Q (known.see attr k row) row :=
  Iff.rfl

@[simp] theorem wp_lockRow {p : V k → Bool} {Q : Known V ι → Option (V k) → Prop} :
    wp attr G Q known (lockRow k p : Txn V τ ε _) ↔
      (Finds attr known k p none → Q known none) ∧
        ∀ row, Finds attr known k p (some row) → Q (known.hold k (some row)) (some row) :=
  Iff.rfl

@[simp] theorem wp_updateRow {tag : τ} {p : V k → Bool} {f : V k → V k}
    {Q : Known V ι → Option (V k) → Prop} :
    wp attr G Q known (updateRow tag k p f : Txn V τ ε _) ↔
      (Finds attr known k p none → Q known none) ∧
        ∀ row, Finds attr known k p (some row) →
          G ⟨tag, k, f row, known.view.hold k (some row)⟩ ∧
            Q (known.hold k (some (f row))) (some (f row)) :=
  Iff.rfl

@[simp] theorem wp_insertRow {tag : τ} {v : V k} {Q : Known V ι → Bool → Prop} :
    wp attr G Q known (insertRow tag k v : Txn V τ ε _) ↔
      Q known false ∧
        ((∀ held, known.view k = some held → held = none) →
          G ⟨tag, k, v, known.view.hold k none⟩ ∧ Q (known.hold k (some v)) true) :=
  Iff.rfl

@[simp] theorem wp_bind {Q : Known V ι → β → Prop} (p : Txn V τ ε α) (f : α → Txn V τ ε β) :
    wp attr G Q known (p >>= f) ↔
      wp attr G (fun then_ a => wp attr G Q then_ (f a)) known p := by
  change wp attr G Q known (p.bind f) ↔ _
  induction p generalizing known with
  | done a => rfl
  | fail e => rfl
  | read k p next ih => simp only [Txn.bind, wp, ih]
  | lock k p next ih => simp only [Txn.bind, wp, ih]
  | update tag k p g next ih => simp only [Txn.bind, wp, ih]
  | insert tag k v next ih => simp only [Txn.bind, wp, ih]

theorem wp_mono {R : Known V ι → α → Prop} {p : Txn V τ ε α} (h : wp attr G Q known p)
    (hQR : ∀ known a, Q known a → R known a) : wp attr G R known p := by
  induction p generalizing known with
  | done a => exact hQR _ _ h
  | fail e => trivial
  | read k p next ih => exact fun row hrow => ih row (h row hrow)
  | lock k p next ih =>
    exact ⟨fun hnone => ih none (h.1 hnone), fun row hrow => ih (some row) (h.2 row hrow)⟩
  | update tag k p g next ih =>
    refine ⟨fun hnone => ih none (h.1 hnone), fun row hrow => ?_⟩
    exact ⟨(h.2 row hrow).1, ih _ (h.2 row hrow).2⟩
  | insert tag k v next ih =>
    refine ⟨ih false h.1, fun habsent => ?_⟩
    exact ⟨(h.2 habsent).1, ih true (h.2 habsent).2⟩

end Rules

end Txn

/-! ## Serial replay -/

section Serial

variable [DecidableEq κ] {V : κ → Type} {τ ε α : Type}

/-- The store has the rows that the writer held, and the row written was one of them. -/
def RowWrite.Fits (w : RowWrite V τ) (store : RowStore V) : Prop :=
  (w.view w.key).isSome ∧ ∀ k held, w.view k = some held → store k = held

def Serial : RowStore V → List (RowWrite V τ) → Prop
  | _, [] => True
  | store, w :: rest => w.Fits store ∧ Serial (w.apply store) rest

@[simp] theorem apply_self (w : RowWrite V τ) (store : RowStore V) :
    w.apply store w.key = some w.after :=
  Function.update_self ..

theorem apply_of_ne {w : RowWrite V τ} {k : κ} (h : k ≠ w.key) (store : RowStore V) :
    w.apply store k = store k :=
  Function.update_of_ne h ..

@[simp] theorem replay_nil (store : RowStore V) : replay store ([] : List (RowWrite V τ)) = store :=
  rfl

theorem replay_append (store : RowStore V) (ws more : List (RowWrite V τ)) :
    replay store (ws ++ more) = replay (replay store ws) more :=
  foldl_append

@[simp] theorem replay_concat (store : RowStore V) (ws : List (RowWrite V τ)) (w : RowWrite V τ) :
    replay store (ws ++ [w]) = w.apply (replay store ws) :=
  replay_append store ws [w]

variable {ws : List (RowWrite V τ)}

/-- A row that no write is about keeps what it had. -/
theorem replay_of_forall_ne {k : κ} (h : ∀ w ∈ ws, k ≠ w.key) (store : RowStore V) :
    replay store ws k = store k := by
  induction ws generalizing store with
  | nil => rfl
  | cons w rest ih =>
    have hrest := ih (fun w' hw' => h w' (mem_cons_of_mem w hw')) (w.apply store)
    exact hrest.trans (apply_of_ne (h w (mem_cons_self ..)) store)

theorem serial_append {store : RowStore V} {more : List (RowWrite V τ)} :
    Serial store (ws ++ more) ↔ Serial store ws ∧ Serial (replay store ws) more := by
  induction ws generalizing store with
  | nil => simp [Serial]
  | cons w rest ih =>
    simp only [cons_append, Serial, ih, and_assoc]
    rfl

/-- The writes of one transaction read and write only the rows it holds. -/
def Within (view : RowView V) (ws : List (RowWrite V τ)) : Prop :=
  ∀ w ∈ ws, (view w.key).isSome ∧ ∀ k, (w.view k).isSome → (view k).isSome

/-- Two stores that agree on the rows held agree on them after the writes too. -/
theorem replay_agree {view : RowView V} {store store' : RowStore V}
    (hagree : ∀ k, (view k).isSome → store' k = store k) {k : κ} (hk : (view k).isSome) :
    replay store' ws k = replay store ws k := by
  induction ws generalizing store store' with
  | nil => exact hagree k hk
  | cons w rest ih =>
    refine ih fun k' hk' => ?_
    by_cases heq : k' = w.key
    · subst heq
      simp
    · rw [apply_of_ne heq, apply_of_ne heq]
      exact hagree k' hk'

theorem Serial.agree {view : RowView V} {store store' : RowStore V} (h : Serial store ws)
    (hwithin : Within view ws) (hagree : ∀ k, (view k).isSome → store' k = store k) :
    Serial store' ws := by
  induction ws generalizing store store' with
  | nil => trivial
  | cons w rest ih =>
    refine ⟨⟨h.1.1, fun k held hheld => ?_⟩, ?_⟩
    · have hk : (view k).isSome :=
        (hwithin w (mem_cons_self ..)).2 k (by rw [hheld]; rfl)
      exact (hagree k hk).trans (h.1.2 k held hheld)
    · refine ih h.2 (fun w' hw' => hwithin w' (mem_cons_of_mem w hw')) fun k hk => ?_
      change replay store' [w] k = replay store [w] k
      exact replay_agree hagree hk

section Attribute

variable {ι : Type} {attr : ∀ k, V k → ι}

def Keeps (attr : ∀ k, V k → ι) (w : RowWrite V τ) : Prop :=
  ∀ row, w.view w.key = some (some row) → attr w.key w.after = attr w.key row

/-- A row that is there stays there, with its attribute, whatever is written. -/
theorem Serial.attr_eq {store : RowStore V} {ws : List (RowWrite V τ)} (h : Serial store ws)
    (hkeeps : ∀ w ∈ ws, Keeps attr w) {k : κ} {row : V k} (hrow : store k = some row) :
    ∃ now, replay store ws k = some now ∧ attr k now = attr k row := by
  induction ws generalizing store row with
  | nil => exact ⟨row, hrow, rfl⟩
  | cons w rest ih =>
    have hrest := fun w' hw' => hkeeps w' (mem_cons_of_mem w hw')
    by_cases heq : k = w.key
    · subst heq
      obtain ⟨held, hview⟩ := Option.isSome_iff_exists.mp h.1.1
      have hsame : held = some row := (h.1.2 _ _ hview).symm.trans hrow
      have hafter := hkeeps w (mem_cons_self ..) row (hsame ▸ hview)
      obtain ⟨now, hnow, hattr⟩ := ih h.2 hrest (apply_self w store)
      exact ⟨now, hnow, hattr.trans hafter⟩
    · exact ih h.2 hrest ((apply_of_ne heq store).trans hrow)

end Attribute

end Serial

/-! ## Sessions keep their guarantees -/

section Soundness

variable [DecidableEq κ] {V : κ → Type} {τ ε α ι : Type}

/-- The writes so far can be replayed from the committed rows and lead to what the session sees;
what it has seen of other rows still holds of them. -/
structure TxnSession.Sound (attr : ∀ k, V k → ι) (G : RowWrite V τ → Prop) (store : RowStore V)
    (t : TxnSession V τ ε α) (seen : κ → Option ι) : Prop where
  serial : Serial store t.writes
  current : ∀ k held, t.view k = some held → replay store t.writes k = held
  within : Within t.view t.writes
  remembered : ∀ k a, seen k = some a →
    ∃ row, replay store t.writes k = some row ∧ attr k row = a
  ahead : t.rest.wp attr G (fun _ _ => True) ⟨t.view, seen⟩
  behind : ∀ w ∈ t.writes, G w

theorem isSome_hold {view : RowView V} {k k' : κ} (row : Option (V k)) (h : (view k').isSome) :
    (view.hold k row k').isSome := by
  by_cases heq : k' = k
  · subst heq
    simp
  · rwa [RowView.hold_of_ne heq]

namespace TxnSession.Sound

variable {attr : ∀ k, V k → ι} {G : RowWrite V τ → Prop} {store store' : RowStore V}
  {t : TxnSession V τ ε α} {seen : κ → Option ι}

variable {k : κ}

section

variable (h : t.Sound attr G store seen)
include h

theorem replay_of_not_held (hk : t.view k = none) (store' : RowStore V) :
    replay store' t.writes k = store' k := by
  refine replay_of_forall_ne (fun w hw heq => ?_) store'
  have hheld := (h.within w hw).1
  rw [← heq, hk] at hheld
  exact absurd hheld (by simp)

/-- What others commit does not concern the rows held, and keeps the attribute of the others. -/
theorem agree (hagree : ∀ k, (t.view k).isSome → store' k = store k)
    (hattr : ∀ k row, store k = some row → ∃ now, store' k = some now ∧ attr k now = attr k row) :
    t.Sound attr G store' seen where
  serial := h.serial.agree h.within hagree
  current k held hheld :=
    (replay_agree hagree (by rw [hheld]; rfl)).trans (h.current k held hheld)
  within := h.within
  remembered k a ha := by
    obtain ⟨row, hrow, rfl⟩ := h.remembered k a ha
    cases hk : t.view k with
    | some held => exact ⟨row, (replay_agree hagree (by rw [hk]; rfl)).trans hrow, rfl⟩
    | none =>
      rw [h.replay_of_not_held hk] at hrow ⊢
      exact hattr k row hrow
  ahead := h.ahead
  behind := h.behind

theorem visible_eq (k : κ) : t.visible store k = replay store t.writes k := by
  unfold TxnSession.visible
  cases hview : t.view k with
  | some held => exact (h.current k held hview).symm
  | none => exact (h.replay_of_not_held hview store).symm

theorem finds (k : κ) (p : V k → Bool) :
    Txn.Finds attr ⟨t.view, seen⟩ k p ((t.visible store k).filter p) := by
  refine ⟨fun held hheld => ?_, fun r hr => ?_⟩
  · rw [h.visible_eq, h.current k held hheld]
  · obtain ⟨hrow, hp⟩ := Option.mem_filter_iff.mp hr
    refine ⟨hp, fun a ha => ?_⟩
    obtain ⟨row, hseen, rfl⟩ := h.remembered k a ha
    rw [Option.mem_def, h.visible_eq, hseen, Option.some_inj] at hrow
    rw [hrow]

theorem readRow {row : Option (V k)} {rest : Txn V τ ε α}
    (hrow : ∀ r ∈ row, t.visible store k = some r)
    (hrest : rest.wp attr G (fun _ _ => True) (Known.see ⟨t.view, seen⟩ attr k row)) :
    ∃ seen', TxnSession.Sound attr G store { t with rest } seen' := by
  cases row with
  | none => exact ⟨seen, { h with ahead := hrest }⟩
  | some r =>
    refine ⟨Function.update seen k (some (attr k r)), { h with remembered := ?_, ahead := hrest }⟩
    intro k' a ha
    by_cases heq : k' = k
    · subst heq
      rw [Function.update_self, Option.some_inj] at ha
      exact ⟨r, (h.visible_eq k').symm.trans (hrow r rfl), ha⟩
    · rw [Function.update_of_ne heq] at ha
      exact h.remembered k' a ha

/-- The rows held once a further one is locked are still the replayed ones. -/
theorem current_hold {row : Option (V k)} (hrow : t.visible store k = row) :
    ∀ k' held, t.view.hold k row k' = some held → replay store t.writes k' = held := by
  intro k' held hheld
  by_cases heq : k' = k
  · subst heq
    rw [RowView.hold_self, Option.some_inj] at hheld
    rw [← h.visible_eq, hrow, hheld]
  · rw [RowView.hold_of_ne heq] at hheld
    exact h.current k' held hheld

theorem lockRow {row : V k} {rest : Txn V τ ε α} (hrow : t.visible store k = some row)
    (hrest : rest.wp attr G (fun _ _ => True) ⟨t.view.hold k (some row), seen⟩) :
    (t.lockRow k row rest).Sound attr G store seen where
  serial := h.serial
  current := h.current_hold hrow
  within w hw :=
    ⟨isSome_hold _ (h.within w hw).1, fun k' hk' => isSome_hold _ ((h.within w hw).2 k' hk')⟩
  remembered := h.remembered
  ahead := hrest
  behind := h.behind

end

theorem writeRow (hkeeps : ∀ w, G w → Keeps attr w) (h : t.Sound attr G store seen) {tag : τ}
    {before : Option (V k)} {after : V k} {rest : Txn V τ ε α}
    (hbefore : t.visible store k = before) (hwrite : G ⟨tag, k, after, t.view.hold k before⟩)
    (hrest : rest.wp attr G (fun _ _ => True) ⟨t.view.hold k (some after), seen⟩) :
    (t.writeRow tag k before after rest).Sound attr G store seen where
  serial :=
    serial_append.mpr ⟨h.serial, ⟨by simp, h.current_hold hbefore⟩, trivial⟩
  current k' held hheld := by
    simp only [TxnSession.writeRow, replay_concat] at hheld ⊢
    by_cases heq : k' = k
    · subst heq
      rw [RowView.hold_self, Option.some_inj] at hheld
      exact (apply_self ..).trans hheld
    · rw [RowView.hold_of_ne heq] at hheld
      exact (apply_of_ne heq _).trans (h.current k' held hheld)
  within w hw := by
    rcases mem_append.mp hw with hw | hw
    · exact ⟨isSome_hold _ (h.within w hw).1,
        fun k' hk' => isSome_hold _ ((h.within w hw).2 k' hk')⟩
    · obtain rfl := mem_singleton.mp hw
      refine ⟨by simp [TxnSession.writeRow], fun k' hk' => ?_⟩
      by_cases heq : k' = k
      · subst heq
        simp [TxnSession.writeRow]
      · simp only [TxnSession.writeRow, RowView.hold_of_ne heq] at hk' ⊢
        exact hk'
  remembered k' a ha := by
    obtain ⟨row, hrow, hattr⟩ := h.remembered k' a ha
    simp only [TxnSession.writeRow, replay_concat]
    by_cases heq : k' = k
    · subst heq
      have hsome : before = some row := by rw [← hbefore, h.visible_eq, hrow]
      have hkept := hkeeps _ hwrite row (by simp [hsome])
      exact ⟨after, apply_self .., hkept.trans hattr⟩
    · exact ⟨row, (apply_of_ne heq _).trans hrow, hattr⟩
  ahead := hrest
  behind := forall_mem_append.mpr ⟨h.behind, forall_mem_singleton.mpr hwrite⟩

/-- One statement keeps the guarantees, and a row newly held was free. -/
theorem execute (hkeeps : ∀ w, G w → Keeps attr w) (h : t.Sound attr G store seen)
    {free : κ → Bool} {t' : TxnSession V τ ε α} (hmove : t.execute store free = .moves t') :
    (∃ seen', t'.Sound attr G store seen') ∧
      ∀ k, (t'.view k).isSome → (t.view k).isSome ∨ free k := by
  have hahead := h.ahead
  have hheld : ∀ (k : κ) (row : Option (V k)) (k' : κ), free k →
      (t.view.hold k row k').isSome → (t.view k').isSome ∨ free k' := by
    intro k row k' hfree hk'
    by_cases heq : k' = k
    · exact .inr (heq ▸ hfree)
    · rw [RowView.hold_of_ne heq] at hk'
      exact .inl hk'
  unfold TxnSession.execute at hmove
  split at hmove
  case h_1 => cases hmove
  case h_2 => cases hmove
  case h_3 k p next hrest =>
    cases hmove
    rw [hrest] at hahead
    refine ⟨h.readRow (fun r hr => ?_) (hahead _ (h.finds k p)), fun _ hk => .inl hk⟩
    exact (Option.mem_filter_iff.mp hr).1
  case h_4 k p next hrest =>
    rw [hrest] at hahead
    have hfinds := h.finds k p
    split at hmove
    case h_1 hnone =>
      cases hmove
      rw [hnone] at hfinds
      exact ⟨⟨seen, { h with ahead := hahead.1 hfinds }⟩, fun _ hk => .inl hk⟩
    case h_2 row hsome =>
      split_ifs at hmove with hfree
      cases hmove
      rw [hsome] at hfinds
      exact ⟨⟨seen, h.lockRow (Option.mem_filter_iff.mp hsome).1 (hahead.2 row hfinds)⟩,
        fun k' => hheld k (some row) k' hfree⟩
  case h_5 tag k p f next hrest =>
    rw [hrest] at hahead
    have hfinds := h.finds k p
    split at hmove
    case h_1 hnone =>
      cases hmove
      rw [hnone] at hfinds
      exact ⟨⟨seen, { h with ahead := hahead.1 hfinds }⟩, fun _ hk => .inl hk⟩
    case h_2 row hsome =>
      split_ifs at hmove with hfree
      cases hmove
      rw [hsome] at hfinds
      obtain ⟨hwrite, hnext⟩ := hahead.2 row hfinds
      exact ⟨⟨seen, h.writeRow hkeeps (Option.mem_filter_iff.mp hsome).1 hwrite hnext⟩,
        fun k' => hheld k (some (f row)) k' hfree⟩
  case h_6 tag k v next hrest =>
    rw [hrest] at hahead
    split at hmove
    case h_1 row hsome =>
      cases hmove
      exact ⟨⟨seen, { h with ahead := hahead.1 }⟩, fun _ hk => .inl hk⟩
    case h_2 hnone =>
      split_ifs at hmove with hfree
      cases hmove
      have habsent : ∀ held, t.view k = some held → held = none := by
        intro held hheld
        rw [← h.current k held hheld, ← h.visible_eq, hnone]
      obtain ⟨hwrite, hnext⟩ := hahead.2 habsent
      exact ⟨⟨seen, h.writeRow hkeeps hnone hwrite hnext⟩,
        fun k' => hheld k (some v) k' hfree⟩

end TxnSession.Sound

/-! ## Every run is serial -/

structure Database.Sound (attr : ∀ k, V k → ι) (G : RowWrite V τ → Prop) (init : RowStore V)
    (d : Database V τ ε α) : Prop where
  session : ∀ i t, d.sessions i = some t → ∃ seen, t.Sound attr G d.store seen
  owned : ∀ i t k, d.sessions i = some t → (t.view k).isSome → d.owner k = some i
  serial : Serial init d.journal
  store : d.store = replay init d.journal
  journal : ∀ w ∈ d.journal, G w

namespace Database.Sound

variable {attr : ∀ k, V k → ι} {G : RowWrite V τ → Prop} {init : RowStore V}
  {d : Database V τ ε α}

theorem keep (h : d.Sound attr G init) {i : Nat} {t : TxnSession V τ ε α} {seen : κ → Option ι}
    (ht : t.Sound attr G d.store seen) (hfree : ∀ k, (t.view k).isSome → d.isFree i k) :
    (d.keep i t).Sound attr G init := by
  refine { h with session := ?_, owned := ?_ }
  · intro j t' hj
    by_cases heq : j = i
    · subst heq
      simp only [Database.keep, Function.update_self, Option.some_inj] at hj
      exact hj ▸ ⟨seen, ht⟩
    · exact h.session j t' (by simpa [Database.keep, heq] using hj)
  · intro j t' k hj hk
    by_cases heq : j = i
    · subst heq
      simp only [Database.keep, Function.update_self, Option.some_inj] at hj
      subst hj
      simp [Database.keep, hk]
    · have howner := h.owned j t' k (by simpa [Database.keep, heq] using hj) hk
      have hother : (t.view k).isSome = false := by
        by_contra hheld
        have hcan := hfree k (by simpa [Option.isSome_iff_ne_none] using hheld)
        simp [Database.isFree, howner, heq] at hcan
      simp [Database.keep, hother, howner]

theorem release (h : d.Sound attr G init) (i : Nat) : (d.release i).Sound attr G init := by
  refine { h with session := ?_, owned := ?_ }
  · intro j t hj
    by_cases heq : j = i
    · subst heq
      simp [Database.release] at hj
    · exact h.session j t (by simpa [Database.release, heq] using hj)
  · intro j t k hj hk
    by_cases heq : j = i
    · subst heq
      simp [Database.release] at hj
    · have howner := h.owned j t k (by simpa [Database.release, heq] using hj) hk
      simp [Database.release, howner, heq]

/-- What a session commits are rows no other session holds. -/
theorem commit (hkeeps : ∀ w, G w → Keeps attr w) (h : d.Sound attr G init) {i : Nat}
    {t : TxnSession V τ ε α} (hi : d.sessions i = some t) :
    ((d.commit t).release i).Sound attr G init := by
  obtain ⟨seen, ht⟩ := h.session i t hi
  have hstore : replay d.store t.writes = replay init (d.journal ++ t.writes) := by
    rw [replay_append, ← h.store]
  refine ⟨?_, (h.release i).owned, ?_, hstore, ?_⟩
  · intro j t' hj
    have hne : j ≠ i := by
      rintro rfl
      simp [Database.release] at hj
    have hj' : d.sessions j = some t' := by
      simpa [Database.release, Database.commit, hne] using hj
    obtain ⟨seen', ht'⟩ := h.session j t' hj'
    refine ⟨seen', ht'.agree (fun k hk => ?_) fun k row hrow => ?_⟩
    · refine replay_of_forall_ne (fun w hw heq => ?_) d.store
      have howner := h.owned i t k hi (heq ▸ (ht.within w hw).1)
      rw [h.owned j t' k hj' hk, Option.some_inj] at howner
      exact hne howner
    · exact ht.serial.attr_eq (fun w hw => hkeeps w (ht.behind w hw)) hrow
  · exact serial_append.mpr ⟨h.serial, h.store ▸ ht.serial⟩
  · exact forall_mem_append.mpr ⟨h.journal, ht.behind⟩

theorem step {χ : Type} {program : χ → Txn V τ ε α} (hkeeps : ∀ w, G w → Keeps attr w)
    (hprogram : ∀ call, (program call).wp attr G (fun _ _ => True) .nothing)
    (h : d.Sound attr G init) (l : TxnLabel χ) : (d.step program l).Sound attr G init := by
  cases l with
  | begins i call =>
    simp only [Database.step]
    split
    · have hbegin : (TxnSession.begin (program call)).Sound attr G d.store fun _ => none := by
        refine ⟨trivial, ?_, ?_, ?_, hprogram call, ?_⟩ <;> simp [TxnSession.begin, Within]
      exact h.keep hbegin (by simp [TxnSession.begin])
    · exact h
  | advances i =>
    simp only [Database.step]
    split
    · exact h
    · rename_i t hi
      split
      · exact h
      · rename_i t' hmove
        obtain ⟨seen, ht⟩ := h.session i t hi
        obtain ⟨⟨seen', ht'⟩, hheld⟩ := ht.execute hkeeps hmove
        refine h.keep ht' fun k hk => ?_
        rcases hheld k hk with hk | hk
        · simp [Database.isFree, h.owned i t k hi hk]
        · exact hk
      · exact h.commit hkeeps hi
      · exact h.release i
  | aborts i =>
    simp only [Database.step]
    split
    · exact h
    · exact h.release i

end Database.Sound

section Runs

variable {χ : Type} {program : χ → Txn V τ ε α} {init : RowStore V}

/-- Every interleaving is as good as a serial replay of its journal, and every write in it is one
that the programs guarantee. -/
theorem run_serial {attr : ∀ k, V k → ι} {G : RowWrite V τ → Prop}
    (hkeeps : ∀ w, G w → Keeps attr w)
    (hprogram : ∀ call, (program call).wp attr G (fun _ _ => True) .nothing)
    (ls : List (TxnLabel χ)) : ((transactions program init).run ls).Sound attr G init := by
  refine Machine.invariant_reachable (I := Database.Sound attr G init) ?_
    (fun d l hd => hd.step hkeeps hprogram l) ls
  exact ⟨nofun, nofun, trivial, rfl, nofun⟩

theorem journal_step (program : χ → Txn V τ ε α) (d : Database V τ ε α) (l : TxnLabel χ) :
    ∃ more, (d.step program l).journal = d.journal ++ more := by
  have hsame : ∃ more, d.journal = d.journal ++ more := ⟨[], (append_nil _).symm⟩
  cases l with
  | begins i call =>
    simp only [Database.step]
    split <;> exact hsame
  | advances i =>
    simp only [Database.step]
    split
    · exact hsame
    · rename_i t _
      split
      · exact hsame
      · exact hsame
      · exact ⟨t.writes, rfl⟩
      · exact hsame
  | aborts i =>
    simp only [Database.step]
    split <;> exact hsame

/-- The journal only grows. -/
theorem journal_runFrom (d : Database V τ ε α) (later : List (TxnLabel χ)) :
    ∃ more, ((transactions program init).runFrom d later).journal = d.journal ++ more := by
  induction later generalizing d with
  | nil => exact ⟨[], (append_nil _).symm⟩
  | cons l later ih =>
    obtain ⟨first, hfirst⟩ := journal_step program d l
    obtain ⟨rest, hrest⟩ := ih (d.step program l)
    refine ⟨first ++ rest, ?_⟩
    rw [← append_assoc, ← hfirst]
    exact hrest

end Runs

end Soundness

end AiPlatform.Foundation
