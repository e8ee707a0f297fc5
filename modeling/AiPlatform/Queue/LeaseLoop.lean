import AiPlatform.Queue.System

/-!
# The scan for a lease

`_lease_run_with_quota` reads the queued list window by window from its oldest end and sends one
script for every entry. An entry that does not validate is taken out, after which the same window
is read again, since the entries behind it have moved up. The loop is run alone here: between two
of its commands nothing else happens. `leaseLoop` has fuel and answers `none` when it runs out.
-/
namespace AiPlatform.Queue

open AiPlatform.Foundation Hash SortedSet List

/-- The arguments of a call and what it reads from its surroundings: the clock at each script, the
text of a validation error and the retention of dead letters. -/
structure LeaseCall where
  workerId : String
  maxProcessingRuns : Option Int
  tenantProcessingLimit : Int
  userProcessingLimit : Int
  leaseScanLimit : Int
  clock : Nat → Time
  validationError : RunPayload → String
  deadLetterMaxEntries : Nat

def LeaseCall.limits (call : LeaseCall) : QuotaLimits :=
  ⟨call.maxProcessingRuns.getD 0, call.tenantProcessingLimit, call.userProcessingLimit⟩

structure QueueMessage where
  raw : RunPayload
  handle : LeaseHandle
  leasedAt : Time
  deliveryAttempt : Int
  deriving DecidableEq, Repr

/-- The queue and the number of scripts the call has sent. -/
structure LeaseScan where
  sys : System
  scripts : Nat

/-- What the scan does after one entry. -/
inductive Candidate where
  | leased (message : QueueMessage)
  | full
  | removed
  | passed
  deriving DecidableEq, Repr

def LeaseCall.candidate (call : LeaseCall) (scripts : Nat) (raw : RunPayload) (index : Nat) :
    Label :=
  .leaseCandidate raw index call.workerId call.limits (call.clock scripts)
    (call.validationError raw)

def LeaseScan.offer (env : Environment) (call : LeaseCall) (scan : LeaseScan) (raw : RunPayload)
    (index : Nat) : LeaseScan × Candidate :=
  let now := call.clock scan.scripts
  let req := scan.sys.leaseRequest env raw index call.workerId call.limits
  let after := scan.sys.step env (call.candidate scan.scripts raw index)
  if env.acceptsRaw raw then
    match (leaseQuota env scan.sys.store req now).2 with
    | .capacityFull => (⟨after, scan.scripts + 1⟩, .full)
    | .reconciliationFenced | .conflict | .quotaBlocked _ _ => (⟨after, scan.scripts + 1⟩, .passed)
    | .leased attempts leasedAt _ _ =>
      if attempts < 1 ∨ leasedAt ≤ 0 then (⟨after, scan.scripts + 1⟩, .passed)
      else (⟨after, scan.scripts + 1⟩, .leased ⟨raw, req.handle env, leasedAt, attempts⟩)
  else
    match (deadLetterInvalidQuota env scan.sys.store raw index call.workerId now
      (call.validationError raw)).2 with
    | .deadLettered _ =>
      (⟨after.step env (.trimDeadLetters call.deadLetterMaxEntries), scan.scripts + 1⟩, .removed)
    | .conflict => (⟨after, scan.scripts + 1⟩, .passed)

/-- The entries of one `LRANGE` snapshot, the first of them at `index`. -/
def scanWindow (env : Environment) (call : LeaseCall) :
    List RunPayload → Nat → LeaseScan → LeaseScan × Candidate
  | [], _, scan => (scan, .passed)
  | raw :: items, index, scan =>
    match scan.offer env call raw index with
    | (scan', .passed) => scanWindow env call items (index + 1) scan'
    | result => result

def leaseLoop (env : Environment) (call : LeaseCall) :
    Nat → Nat → Nat → LeaseScan → Option (System × Option QueueMessage)
  | 0, _, _, _ => none
  | fuel + 1, scanned, queuedDepth, scan =>
    if scanned < queuedDepth then
      let windowSize := (max call.leaseScanLimit 1).toNat
      let items := lrange scan.sys.store.queued scanned
        (min (scanned + windowSize - 1) (queuedDepth - 1))
      if items = [] then some (scan.sys, none)
      else
        match scanWindow env call items scanned scan with
        | (scan', .removed) => leaseLoop env call fuel scanned scan'.sys.store.queued.length scan'
        | (scan', .passed) => leaseLoop env call fuel (scanned + items.length) queuedDepth scan'
        | (scan', .full) => some (scan'.sys, none)
        | (scan', .leased message) => some (scan'.sys, some message)
    else some (scan.sys, none)

def LeaseCall.CapacityFull (call : LeaseCall) (s : Store) : Prop :=
  limitReached call.limits.maxProcessingRuns s.processing.length = true

instance (call : LeaseCall) (s : Store) : Decidable (call.CapacityFull s) :=
  inferInstanceAs (Decidable (_ = true))

def leaseRunWithQuota (env : Environment) (call : LeaseCall) (fuel : Nat) (sys : System) :
    Option (System × Option QueueMessage) :=
  if call.CapacityFull sys.store then some (sys, none)
  else if call.leaseScanLimit ≤ 0 then some (sys, none)
  else if sys.store.queued.length = 0 then some (sys, none)
  else leaseLoop env call fuel 0 sys.store.queued.length ⟨sys, 0⟩

/-! ## What the scan is for -/

/-- The entry validates, its run has no fence and neither quota blocks it. -/
structure Eligible (env : Environment) (call : LeaseCall) (s : Store) (raw : RunPayload) :
    Prop where
  accepted : env.acceptsRaw raw = true
  unfenced : hexists s.fences (raw.fenceKey env) = false
  tenant : limitReached call.tenantProcessingLimit (tenantProcessing s raw.tenantId) = false
  user : limitReached call.userProcessingLimit (userProcessing s raw.tenantId raw.userId) = false

/-- The dead-letter list after one more entry and the trim that follows it. -/
def LeaseCall.bury (call : LeaseCall) (letters : List DeadLetter) (letter : DeadLetter) :
    List DeadLetter :=
  lrangeLast (letters ++ [letter]) (max call.deadLetterMaxEntries 1)

/-- The listed payloads have become dead letters, in this order. -/
def DeadLettered (call : LeaseCall) (s s' : Store) (invalid : List RunPayload) : Prop :=
  ∃ letters : List DeadLetter, letters.map DeadLetter.raw = invalid ∧
    (∀ letter ∈ letters, letter.errorCode = "invalid_queue_payload" ∧
      letter.errorMessage = call.validationError letter.raw ∧
      letter.workerId = some call.workerId) ∧
    s'.deadLetter = letters.foldl call.bury s.deadLetter

/-- The oldest eligible entry is leased and the invalid entries older than it are dead letters;
without such an entry every invalid one is a dead letter. -/
structure LeasesOldest (env : Environment) (call : LeaseCall) (sys sys' : System)
    (reply : Option QueueMessage) : Prop where
  reached : ∃ labels, sys' = (machine env).runFrom sys labels
  none_iff : reply = none ↔
    call.CapacityFull sys.store ∨ ∀ raw ∈ sys.store.queued, ¬ Eligible env call sys.store raw
  full : call.CapacityFull sys.store → sys' = sys
  exhausted : ¬ call.CapacityFull sys.store → reply = none →
    sys'.store.queued = sys.store.queued.filter (fun raw => env.acceptsRaw raw) ∧
    sys'.store.processing = sys.store.processing ∧
    DeadLettered call sys.store sys'.store
      (sys.store.queued.filter fun raw => !env.acceptsRaw raw)
  leased : ∀ message, reply = some message → ∃ older newer,
    sys.store.queued = older ++ message.raw :: newer ∧
    (∀ raw ∈ older, ¬ Eligible env call sys.store raw) ∧
    Eligible env call sys.store message.raw ∧
    sys'.store.queued = older.filter (fun raw => env.acceptsRaw raw) ++ newer ∧
    sys'.store.processing = message.raw :: sys.store.processing ∧
    DeadLettered call sys.store sys'.store (older.filter fun raw => !env.acceptsRaw raw) ∧
    ∃ row, hget sys'.store.processingMeta (env.messageIdForRaw message.raw) = some (.table row) ∧
      row.IsHeldBy message.handle ∧ row.raw = some message.raw ∧
      row.attempts = some message.deliveryAttempt

section

variable {env : Environment} {call : LeaseCall}

theorem one_le_nextAttempt (s : Store) (messageId : String) : 1 ≤ nextAttempt s messageId := by
  unfold nextAttempt
  split <;> omega

/-! ## Clearing invalid entries -/

/-- Invalid payloads have become dead letters; nothing that decides about other entries has
changed. -/
structure Cleared (env : Environment) (call : LeaseCall) (sys sys' : System)
    (invalid : List RunPayload) : Prop where
  reached : ∃ labels, sys' = (machine env).runFrom sys labels
  processing : sys'.store.processing = sys.store.processing
  fences : sys'.store.fences = sys.store.fences
  letters : DeadLettered call sys.store sys'.store invalid

variable {sys sys' : System} {raw : RunPayload} {scan : LeaseScan} {index : Nat}

theorem Cleared.of_store (reached : ∃ labels, sys' = (machine env).runFrom sys labels)
    (h : sys'.store = sys.store) : Cleared env call sys sys' [] :=
  ⟨reached, by rw [h], by rw [h], [], rfl, by simp, by rw [h]; rfl⟩

variable {invalid items : List RunPayload} {s : Store} {mid : System} {reply : Option QueueMessage}

theorem Cleared.trans {sys'' : System} {invalid' : List RunPayload}
    (h : Cleared env call sys sys' invalid) (h' : Cleared env call sys' sys'' invalid') :
    Cleared env call sys sys'' (invalid ++ invalid') := by
  obtain ⟨labels, hlabels⟩ := h.reached
  obtain ⟨labels', hlabels'⟩ := h'.reached
  obtain ⟨letters, hraw, hentry, hdead⟩ := h.letters
  obtain ⟨letters', hraw', hentry', hdead'⟩ := h'.letters
  refine ⟨⟨labels ++ labels', ?_⟩, h'.processing.trans h.processing, h'.fences.trans h.fences,
    letters ++ letters', ?_, ?_, ?_⟩
  · rw [hlabels', hlabels]
    exact foldl_append.symm
  · rw [map_append, hraw, hraw']
  · exact forall_mem_append.mpr ⟨hentry, hentry'⟩
  · rw [hdead', hdead, foldl_append]

theorem Cleared.eligible (h : Cleared env call sys sys' invalid) (raw : RunPayload) :
    Eligible env call sys'.store raw ↔ Eligible env call sys.store raw := by
  constructor <;> intro e <;>
    exact ⟨e.accepted, by simpa [h.fences] using e.unfenced,
      by simpa [tenantProcessing, h.processing] using e.tenant,
      by simpa [userProcessing, h.processing] using e.user⟩

theorem Cleared.full (h : Cleared env call sys sys' invalid) :
    call.CapacityFull sys'.store ↔ call.CapacityFull sys.store := by
  rw [LeaseCall.CapacityFull, h.processing, LeaseCall.CapacityFull]

/-! ## One entry -/

theorem runFrom_one (sys : System) (l : Label) :
    ∃ labels, sys.step env l = (machine env).runFrom sys labels :=
  ⟨[l], rfl⟩

/-- An entry that validates goes to the lease script, any other to the script that drops it. -/
theorem candidate_store_of_accepted (scan : LeaseScan) (index : Nat)
    (accepted : env.acceptsRaw raw = true) :
    (scan.sys.step env (call.candidate scan.scripts raw index)).store =
      (leaseQuota env scan.sys.store
        (scan.sys.leaseRequest env raw index call.workerId call.limits)
        (call.clock scan.scripts)).1 :=
  congrArg Prod.fst (if_pos accepted)

theorem candidate_store_of_invalid (scan : LeaseScan) (index : Nat)
    (invalid : env.acceptsRaw raw = false) :
    (scan.sys.step env (call.candidate scan.scripts raw index)).store =
      (deadLetterInvalidQuota env scan.sys.store raw index call.workerId (call.clock scan.scripts)
        (call.validationError raw)).1 :=
  congrArg Prod.fst (if_neg (Bool.eq_false_iff.mp invalid))

/-- The script grants a lease to an eligible entry that is where the caller says. -/
theorem leaseQuota_eligible (req : LeaseRequest) (now : Time) (limits : req.limits = call.limits)
    (room : ¬ call.CapacityFull s) (at_index : lindex s.queued req.absoluteIndex = some req.raw)
    (eligible : Eligible env call s req.raw) :
    leaseQuota env s req now = (s.grantLease env req now,
      .leased (nextAttempt s (env.messageIdForRaw req.raw)) (env.numberText now)
        (tenantProcessing s req.raw.tenantId)
        (userProcessing s req.raw.tenantId req.raw.userId)) := by
  have room' : ¬ limitReached call.limits.maxProcessingRuns s.processing.length = true := room
  unfold leaseQuota
  rw [limits, if_neg (by simp [eligible.unfenced]), if_neg room', if_neg (by simp [at_index])]
  dsimp only
  rw [if_neg (by simp [LeaseCall.limits, eligible.tenant]),
    if_neg (by simp [LeaseCall.limits, eligible.user])]

/-- The script leaves the store alone when a fence or a quota stands against the entry. -/
theorem leaseQuota_ineligible (req : LeaseRequest) (now : Time) (limits : req.limits = call.limits)
    (room : ¬ call.CapacityFull s) (accepted : env.acceptsRaw req.raw = true)
    (ineligible : ¬ Eligible env call s req.raw) :
    ∃ reply, leaseQuota env s req now = (s, reply) ∧
      (reply = .reconciliationFenced ∨ reply = .conflict ∨
        ∃ tenant user, reply = .quotaBlocked tenant user) := by
  unfold leaseQuota
  rw [limits]
  dsimp only
  split
  · exact ⟨_, rfl, .inl rfl⟩
  rename_i unfenced
  split
  · exact absurd ‹_› room
  split
  · exact ⟨_, rfl, .inr (.inl rfl)⟩
  split
  · exact ⟨_, rfl, .inr (.inr ⟨_, _, rfl⟩)⟩
  rename_i tenant
  split
  · exact ⟨_, rfl, .inr (.inr ⟨_, _, rfl⟩)⟩
  rename_i user
  exact absurd ⟨accepted, Bool.eq_false_iff.mpr unfenced, Bool.eq_false_iff.mpr tenant,
    Bool.eq_false_iff.mpr user⟩ ineligible

/-- A valid entry that is fenced or over a quota is passed by. -/
theorem offer_passed (index : Nat) (accepted : env.acceptsRaw raw = true)
    (room : ¬ call.CapacityFull scan.sys.store)
    (ineligible : ¬ Eligible env call scan.sys.store raw) :
    ∃ scan', scan.offer env call raw index = (scan', .passed) ∧
      Cleared env call scan.sys scan'.sys [] ∧ scan'.sys.store = scan.sys.store := by
  obtain ⟨reply, hlease, hreply⟩ :=
    leaseQuota_ineligible (scan.sys.leaseRequest env raw index call.workerId call.limits)
      (call.clock scan.scripts) rfl room accepted ineligible
  have hstore : (scan.sys.step env (call.candidate scan.scripts raw index)).store =
      scan.sys.store := by
    rw [candidate_store_of_accepted scan index accepted, hlease]
  refine ⟨⟨scan.sys.step env (call.candidate scan.scripts raw index), scan.scripts + 1⟩, ?_,
    .of_store (runFrom_one _ _) hstore, hstore⟩
  unfold LeaseScan.offer
  rw [if_pos accepted, hlease]
  obtain rfl | rfl | ⟨tenant, user, rfl⟩ := hreply <;> rfl

/-- An entry that does not validate leaves the list and becomes a dead letter. -/
theorem offer_removed (call : LeaseCall) (invalid : env.acceptsRaw raw = false)
    (at_index : scan.sys.store.queued[index]? = some raw) :
    ∃ scan', scan.offer env call raw index = (scan', .removed) ∧
      Cleared env call scan.sys scan'.sys [raw] ∧
      scan'.sys.store.queued = scan.sys.store.queued.eraseIdx index := by
  have hcall : deadLetterInvalidQuota env scan.sys.store raw index call.workerId
      (call.clock scan.scripts) (call.validationError raw) = _ :=
    if_neg (by simp [at_index])
  have hstore : (scan.sys.step env (call.candidate scan.scripts raw index)).store = _ :=
    candidate_store_of_invalid scan index invalid
  rw [hcall] at hstore
  refine ⟨⟨(scan.sys.step env (call.candidate scan.scripts raw index)).step env
    (.trimDeadLetters call.deadLetterMaxEntries), scan.scripts + 1⟩, ?_, ⟨⟨[_, _], rfl⟩, ?_, ?_,
    [⟨"invalid_queue_payload", call.validationError raw,
      some (nextAttempt scan.sys.store (env.messageIdForRaw raw)), some call.workerId, raw,
      env.numberText (call.clock scan.scripts)⟩], rfl, by simp, ?_⟩, ?_⟩
  · unfold LeaseScan.offer
    rw [if_neg (Bool.eq_false_iff.mp invalid), hcall]
  · change (trimDeadLetters _ _).processing = _
    rw [hstore]
    rfl
  · change (trimDeadLetters _ _).fences = _
    rw [hstore]
    rfl
  · change (trimDeadLetters _ _).deadLetter = _
    rw [hstore]
    rfl
  · change (trimDeadLetters _ _).queued = _
    rw [hstore]
    exact removeAt_eq_eraseIdx _ _

/-- What a granted lease leaves behind. -/
structure Granted (env : Environment) (sys sys' : System) (index : Nat) (message : QueueMessage) :
    Prop where
  reached : ∃ labels, sys' = (machine env).runFrom sys labels
  queued : sys'.store.queued = sys.store.queued.eraseIdx index
  processing : sys'.store.processing = message.raw :: sys.store.processing
  deadLetter : sys'.store.deadLetter = sys.store.deadLetter
  held : ∃ row, hget sys'.store.processingMeta (env.messageIdForRaw message.raw) =
      some (.table row) ∧ row.IsHeldBy message.handle ∧ row.raw = some message.raw ∧
      row.attempts = some message.deliveryAttempt

theorem offer_leased (clock : ∀ n, 0 < env.numberText (call.clock n))
    (at_index : scan.sys.store.queued[index]? = some raw)
    (room : ¬ call.CapacityFull scan.sys.store) (eligible : Eligible env call scan.sys.store raw) :
    ∃ scan' message, scan.offer env call raw index = (scan', .leased message) ∧
      message.raw = raw ∧ Granted env scan.sys scan'.sys index message := by
  have hlease := leaseQuota_eligible
    (scan.sys.leaseRequest env raw index call.workerId call.limits)
    (call.clock scan.scripts) rfl room ((lindex_natCast _ _).trans at_index) eligible
  have hattempt := one_le_nextAttempt scan.sys.store (env.messageIdForRaw raw)
  have hnow := clock scan.scripts
  have hstore : (scan.sys.step env (call.candidate scan.scripts raw index)).store =
      scan.sys.store.grantLease env
        (scan.sys.leaseRequest env raw index call.workerId call.limits)
        (call.clock scan.scripts) := by
    rw [candidate_store_of_accepted scan index eligible.accepted, hlease]
  refine ⟨⟨scan.sys.step env (call.candidate scan.scripts raw index), scan.scripts + 1⟩,
    ⟨raw, (scan.sys.leaseRequest env raw index call.workerId call.limits).handle env,
      env.numberText (call.clock scan.scripts),
      nextAttempt scan.sys.store (env.messageIdForRaw raw)⟩, ?_, rfl, ?_⟩
  · unfold LeaseScan.offer
    rw [if_pos eligible.accepted, hlease]
    exact if_neg (not_or.mpr ⟨not_lt.mpr hattempt, not_le.mpr hnow⟩)
  · constructor
    · exact runFrom_one _ _
    · rw [hstore]
      exact removeAt_eq_eraseIdx _ _
    · rw [hstore]
      rfl
    · rw [hstore]
      rfl
    · rw [hstore]
      exact ⟨leaseMetadata env scan.sys.store
        (scan.sys.leaseRequest env raw index call.workerId call.limits) (call.clock scan.scripts),
        hget_hset_self _ _ _, ⟨rfl, rfl, rfl⟩, rfl, rfl⟩

theorem Granted.of_cleared {message : QueueMessage} (cleared : Cleared env call sys mid [])
    (same : mid.store = sys.store) (h : Granted env mid sys' index message) :
    Granted env sys sys' index message := by
  obtain ⟨labels, hlabels⟩ := cleared.reached
  obtain ⟨labels', hlabels'⟩ := h.reached
  refine ⟨⟨labels ++ labels', ?_⟩, same ▸ h.queued, same ▸ h.processing, same ▸ h.deadLetter,
    h.held⟩
  rw [hlabels', hlabels]
  exact foldl_append.symm

/-! ## One window -/

/-- The entry stays where it is when the scan meets it. -/
def Blocked (env : Environment) (call : LeaseCall) (s : Store) (raw : RunPayload) : Prop :=
  env.acceptsRaw raw = true ∧ ¬ Eligible env call s raw

inductive WindowResult (env : Environment) (call : LeaseCall) (scan : LeaseScan)
    (items : List RunPayload) (index : Nat) : LeaseScan × Candidate → Prop
  | passed {scan' : LeaseScan} (blocked : ∀ raw ∈ items, Blocked env call scan.sys.store raw)
      (cleared : Cleared env call scan.sys scan'.sys [])
      (same : scan'.sys.store = scan.sys.store) :
        WindowResult env call scan items index (scan', .passed)
  | removed {scan' : LeaseScan} (older newer : List RunPayload) {raw : RunPayload}
      (split : items = older ++ raw :: newer)
      (blocked : ∀ raw ∈ older, Blocked env call scan.sys.store raw)
      (invalid : env.acceptsRaw raw = false) (cleared : Cleared env call scan.sys scan'.sys [raw])
      (queued : scan'.sys.store.queued = scan.sys.store.queued.eraseIdx (index + older.length)) :
      WindowResult env call scan items index (scan', .removed)
  | leased {scan' : LeaseScan} (older newer : List RunPayload) {message : QueueMessage}
      (split : items = older ++ message.raw :: newer)
      (blocked : ∀ raw ∈ older, Blocked env call scan.sys.store raw)
      (eligible : Eligible env call scan.sys.store message.raw)
      (granted : Granted env scan.sys scan'.sys (index + older.length) message) :
      WindowResult env call scan items index (scan', .leased message)

/-- A blocked entry in front changes nothing but the index. -/
theorem WindowResult.cons {mid : LeaseScan} {result : LeaseScan × Candidate}
    (blocked : Blocked env call scan.sys.store raw) (cleared : Cleared env call scan.sys mid.sys [])
    (same : mid.sys.store = scan.sys.store)
    (h : WindowResult env call mid items (index + 1) result) :
    WindowResult env call scan (raw :: items) index result := by
  cases h with
  | passed hitems hcleared hsame =>
    refine .passed ?_ (cleared.trans hcleared) (hsame.trans same)
    rw [same] at hitems
    exact forall_mem_cons.mpr ⟨blocked, hitems⟩
  | removed older newer split holder invalid hcleared queued =>
    rw [same] at holder queued
    refine .removed (raw :: older) newer (congrArg (raw :: ·) split)
      (forall_mem_cons.mpr ⟨blocked, holder⟩) invalid (cleared.trans hcleared) ?_
    rw [queued, length_cons, Nat.add_right_comm, Nat.add_assoc]
  | leased older newer split holder eligible granted =>
    rw [same] at holder eligible
    refine .leased (raw :: older) newer (congrArg (raw :: ·) split)
      (forall_mem_cons.mpr ⟨blocked, holder⟩) eligible (.of_cleared cleared same ?_)
    rwa [length_cons, ← Nat.add_assoc, Nat.add_right_comm]

theorem scanWindow_result (clock : ∀ n, 0 < env.numberText (call.clock n))
    (items : List RunPayload) (index : Nat) (scan : LeaseScan)
    (room : ¬ call.CapacityFull scan.sys.store)
    (window : items <+: scan.sys.store.queued.drop index) :
    WindowResult env call scan items index (scanWindow env call items index scan) := by
  induction items generalizing index scan with
  | nil => exact .passed (by simp) (.of_store ⟨[], rfl⟩ rfl) rfl
  | cons raw items ih =>
    obtain ⟨tail, htail⟩ := window
    have hindex : scan.sys.store.queued[index]? = some raw := by
      rw [← Nat.add_zero index, ← getElem?_drop, ← htail]
      rfl
    unfold scanWindow
    cases accepted : env.acceptsRaw raw with
    | false =>
      obtain ⟨scan', hoffer, cleared, queued⟩ := offer_removed call accepted hindex
      rw [hoffer]
      exact .removed [] items rfl (by simp) accepted cleared queued
    | true =>
      by_cases eligible : Eligible env call scan.sys.store raw
      · obtain ⟨scan', message, hoffer, rfl, granted⟩ := offer_leased clock hindex room eligible
        rw [hoffer]
        exact .leased [] items rfl (by simp) eligible granted
      · obtain ⟨scan', hoffer, cleared, same⟩ := offer_passed index accepted room eligible
        rw [hoffer]
        refine .cons ⟨accepted, eligible⟩ cleared same (ih (index + 1) scan' ?_ ?_)
        · rwa [same]
        · rw [same, ← drop_drop, ← htail]
          exact ⟨tail, rfl⟩

/-! ## The loop -/

/-- The scan from a place in the queue: `kept` is what it has passed, `rest` what is still ahead. -/
inductive Scanned (env : Environment) (call : LeaseCall) (sys : System)
    (kept rest : List RunPayload) : System → Option QueueMessage → Prop
  | exhausted {sys' : System} (blocked : ∀ raw ∈ rest, ¬ Eligible env call sys.store raw)
      (cleared : Cleared env call sys sys' (rest.filter fun raw => !env.acceptsRaw raw))
      (queued : sys'.store.queued = kept ++ rest.filter fun raw => env.acceptsRaw raw) :
      Scanned env call sys kept rest sys' none
  | leased {mid sys' : System} (older newer : List RunPayload) {message : QueueMessage}
      (split : rest = older ++ message.raw :: newer)
      (blocked : ∀ raw ∈ older, ¬ Eligible env call sys.store raw)
      (eligible : Eligible env call sys.store message.raw)
      (cleared : Cleared env call sys mid (older.filter fun raw => !env.acceptsRaw raw))
      (queued : mid.store.queued =
        kept ++ older.filter (fun raw => env.acceptsRaw raw) ++ message.raw :: newer)
      (granted : Granted env mid sys'
        (kept ++ older.filter fun raw => env.acceptsRaw raw).length message) :
      Scanned env call sys kept rest sys' (some message)

theorem filter_blocked (blocked : ∀ raw ∈ items, Blocked env call s raw) :
    items.filter (fun raw => env.acceptsRaw raw) = items ∧
      items.filter (fun raw => !env.acceptsRaw raw) = [] := by
  constructor
  · exact filter_eq_self.mpr fun raw hraw => (blocked raw hraw).1
  · exact filter_eq_nil_iff.mpr fun raw hraw => by simp [(blocked raw hraw).1]

/-- A window of blocked entries is passed. -/
theorem Scanned.skip {kept rest : List RunPayload}
    (blocked : ∀ raw ∈ items, Blocked env call sys.store raw)
    (cleared : Cleared env call sys mid [])
    (h : Scanned env call mid (kept ++ items) rest sys' reply) :
    Scanned env call sys kept (items ++ rest) sys' reply := by
  obtain ⟨haccepted, hinvalid⟩ := filter_blocked blocked
  have hpassed : ∀ rest, (∀ raw ∈ rest, ¬ Eligible env call mid.store raw) →
      ∀ raw ∈ items ++ rest, ¬ Eligible env call sys.store raw := fun rest hrest =>
    forall_mem_append.mpr ⟨fun raw hraw => (blocked raw hraw).2,
      fun raw hraw e => hrest raw hraw ((cleared.eligible raw).mpr e)⟩
  have hkept : ∀ rest, kept ++ (items ++ rest).filter (fun raw => env.acceptsRaw raw) =
      kept ++ items ++ rest.filter fun raw => env.acceptsRaw raw := by
    simp [haccepted]
  have hcleared : ∀ rest, (items ++ rest).filter (fun raw => !env.acceptsRaw raw) =
      rest.filter fun raw => !env.acceptsRaw raw := by
    simp [hinvalid]
  cases h with
  | exhausted hrest hclears queued =>
    exact .exhausted (hpassed _ hrest) ((hcleared _).symm ▸ cleared.trans hclears)
      ((hkept _).symm ▸ queued)
  | @leased mid' _ older newer message split holder eligible hclears queued granted =>
    rw [← hkept] at queued granted
    refine .leased (items ++ older) newer ?_ (hpassed _ holder) ((cleared.eligible _).mp eligible)
      ((hcleared _).symm ▸ cleared.trans hclears) queued granted
    rw [split, append_assoc]

/-- An invalid entry behind blocked ones is taken out before the scan goes on. -/
theorem Scanned.remove {kept older newer : List RunPayload}
    (blocked : ∀ raw ∈ older, Blocked env call sys.store raw) (invalid : env.acceptsRaw raw = false)
    (cleared : Cleared env call sys mid [raw])
    (h : Scanned env call mid kept (older ++ newer) sys' reply) :
    Scanned env call sys kept (older ++ raw :: newer) sys' reply := by
  obtain ⟨-, hinvalid⟩ := filter_blocked blocked
  have hpassed : ∀ between, (∀ other ∈ older ++ between, ¬ Eligible env call mid.store other) →
      ∀ other ∈ older ++ raw :: between, ¬ Eligible env call sys.store other := by
    intro between hrest
    refine forall_mem_append.mpr ⟨fun other hother => (blocked other hother).2,
      forall_mem_cons.mpr ⟨fun e => absurd e.accepted (Bool.eq_false_iff.mp invalid), ?_⟩⟩
    intro other hother e
    exact hrest other (mem_append_right _ hother) ((cleared.eligible other).mpr e)
  have hkept : ∀ between, (older ++ raw :: between).filter (fun raw => env.acceptsRaw raw) =
      (older ++ between).filter fun raw => env.acceptsRaw raw := by
    simp [invalid]
  have hcleared : ∀ between, (older ++ raw :: between).filter (fun raw => !env.acceptsRaw raw) =
      [raw] ++ (older ++ between).filter fun raw => !env.acceptsRaw raw := by
    simp [invalid, hinvalid]
  cases h with
  | exhausted hrest hclears queued =>
    exact .exhausted (hpassed _ hrest) ((hcleared _).symm ▸ cleared.trans hclears)
      ((hkept _).symm ▸ queued)
  | @leased mid' _ first last message split hfirst eligible hclears queued granted =>
    -- the leased entry is none of the blocked ones, so it is behind the invalid one
    obtain ⟨between, rfl, hnewer⟩ : ∃ between, first = older ++ between ∧
        newer = between ++ message.raw :: last := by
      obtain ⟨between, hfst, hnew⟩ | ⟨between, holder, hlast⟩ := append_eq_append_iff.mp split
      · exact ⟨between, hfst, hnew⟩
      · cases between with
        | nil => exact ⟨[], by simpa using holder.symm, by simpa using hlast.symm⟩
        | cons other between =>
          obtain ⟨rfl, -⟩ := List.cons.inj hlast
          exact absurd ((cleared.eligible _).mp eligible) (blocked _ (by simp [holder])).2
    rw [← hkept] at queued granted
    refine .leased (older ++ raw :: between) last ?_ (hpassed _ hfirst)
      ((cleared.eligible _).mp eligible) ((hcleared _).symm ▸ cleared.trans hclears) queued granted
    rw [hnewer, append_assoc, cons_append]

theorem eraseIdx_middle (kept older : List RunPayload) (raw : RunPayload)
    (newer : List RunPayload) :
    (kept ++ (older ++ raw :: newer)).eraseIdx (kept.length + older.length) =
      kept ++ (older ++ newer) := by
  rw [eraseIdx_append_of_length_le (by omega), Nat.add_sub_cancel_left,
    eraseIdx_append_of_length_le le_rfl, Nat.sub_self, eraseIdx_cons_zero]

/-- The snapshot that a turn of the loop reads is a nonempty initial part of what is ahead. -/
theorem lrange_window (kept : List RunPayload) {rest : List RunPayload} {windowSize : Nat}
    (hrest : rest ≠ []) (hwindow : 0 < windowSize) :
    lrange (kept ++ rest) kept.length
        (min (kept.length + windowSize - 1) ((kept ++ rest).length - 1)) <+: rest ∧
      lrange (kept ++ rest) kept.length
        (min (kept.length + windowSize - 1) ((kept ++ rest).length - 1)) ≠ [] := by
  have hlength := length_pos_iff.mpr hrest
  rw [lrange, drop_left]
  constructor
  · exact take_prefix _ _
  intro hnil
  obtain hzero | hnil := take_eq_nil_iff.mp hnil
  · rw [length_append] at hzero
    omega
  · exact hrest hnil

theorem leaseLoop_scanned (clock : ∀ n, 0 < env.numberText (call.clock n)) (fuel : Nat)
    (scan : LeaseScan) (kept rest : List RunPayload) (room : ¬ call.CapacityFull scan.sys.store)
    (queued : scan.sys.store.queued = kept ++ rest) (enough : rest.length < fuel) :
    ∃ sys' reply, leaseLoop env call fuel kept.length (kept ++ rest).length scan =
        some (sys', reply) ∧
      Scanned env call scan.sys kept rest sys' reply := by
  -- each turn shortens what is ahead: a window of blocked entries is passed or an entry leaves
  induction fuel generalizing scan kept rest with
  | zero => exact absurd enough (Nat.not_lt_zero _)
  | succ fuel ih =>
    unfold leaseLoop
    by_cases hrest : rest = []
    · subst hrest
      rw [if_neg (by simp)]
      exact ⟨_, _, rfl, .exhausted (by simp) (.of_store ⟨[], rfl⟩ rfl) (by simpa using queued)⟩
    have hlength := length_pos_iff.mpr hrest
    rw [if_pos (by rw [length_append]; omega)]
    have hwindow : 0 < (max call.leaseScanLimit 1).toNat := by omega
    obtain ⟨hinitial, hitems⟩ := lrange_window kept hrest hwindow
    rw [queued]
    dsimp only
    generalize lrange (kept ++ rest) kept.length _ = items at hinitial hitems
    rw [if_neg hitems]
    have hresult := scanWindow_result clock items kept.length scan room
      (by rwa [queued, drop_left])
    obtain ⟨later, rfl⟩ := hinitial
    generalize scanWindow env call items kept.length scan = result at hresult
    cases hresult with
    | passed blocked cleared same =>
      obtain ⟨sys', reply, hloop, hscanned⟩ := ih _ (kept ++ items) later
        (by rwa [cleared.full]) (by rw [same, queued, append_assoc])
        (by have := length_pos_iff.mpr hitems; rw [length_append] at enough; omega)
      refine ⟨sys', reply, ?_, hscanned.skip blocked cleared⟩
      rwa [append_assoc, length_append] at hloop
    | @removed scan' older newer raw split blocked invalid cleared queued' =>
      have hqueued : scan'.sys.store.queued = kept ++ (older ++ (newer ++ later)) := by
        rw [queued', queued, split, append_assoc, cons_append]
        exact eraseIdx_middle kept older raw (newer ++ later)
      obtain ⟨sys', reply, hloop, hscanned⟩ := ih scan' kept (older ++ (newer ++ later))
        (by rwa [cleared.full]) hqueued (by simp [split] at enough ⊢; omega)
      refine ⟨sys', reply, ?_, ?_⟩
      · rwa [← hqueued] at hloop
      · rw [split, append_assoc]
        exact hscanned.remove blocked invalid cleared
    | leased older newer split blocked eligible granted =>
      obtain ⟨haccepted, hinvalid⟩ := filter_blocked blocked
      have hnothing : Cleared env call scan.sys scan.sys
          (older.filter fun raw => !env.acceptsRaw raw) := by
        rw [hinvalid]
        exact .of_store ⟨[], rfl⟩ rfl
      refine ⟨_, _, rfl, .leased older (newer ++ later) ?_ (fun raw hraw => (blocked raw hraw).2)
        eligible hnothing ?_ ?_⟩
      · rw [split, append_assoc, cons_append]
      · rw [queued, haccepted, split]
        simp
      · rwa [haccepted, length_append]

theorem Scanned.leasesOldest (room : ¬ call.CapacityFull sys.store)
    (h : Scanned env call sys [] sys.store.queued sys' reply) :
    LeasesOldest env call sys sys' reply := by
  cases h with
  | exhausted blocked cleared queued =>
    exact
      { reached := cleared.reached
        none_iff := ⟨fun _ => .inr blocked, fun _ => rfl⟩
        full := fun h => absurd h room
        exhausted := fun _ _ => ⟨queued, cleared.processing, cleared.letters⟩
        leased := fun _ h => absurd h (by simp) }
  | @leased mid _ older newer message split blocked eligible cleared queued granted =>
    obtain ⟨labels, hlabels⟩ := cleared.reached
    obtain ⟨labels', hlabels'⟩ := granted.reached
    refine
      { reached := ⟨labels ++ labels', ?_⟩
        none_iff := ⟨fun h => absurd h (by simp), ?_⟩
        full := fun h => absurd h room
        exhausted := fun _ h => absurd h (by simp)
        leased := ?_ }
    · rw [hlabels', hlabels]
      exact foldl_append.symm
    · rintro (h | h)
      · exact absurd h room
      · exact absurd eligible (h _ (by simp [split]))
    · rintro _ ⟨⟩
      refine ⟨older, newer, split, blocked, eligible, ?_, ?_, ?_, granted.held⟩
      · rw [granted.queued, queued, eraseIdx_append_of_length_le le_rfl]
        simp
      · rw [granted.processing, cleared.processing]
      · obtain ⟨letters, hraw, hentry, hdead⟩ := cleared.letters
        exact ⟨letters, hraw, hentry, granted.deadLetter.trans hdead⟩

end

/-- The call ends, and it leases the oldest entry that may be leased. -/
theorem leaseRunWithQuota_leasesOldest (env : Environment) (call : LeaseCall) (sys : System)
    (window : 0 < call.leaseScanLimit) (clock : ∀ n, 0 < env.numberText (call.clock n))
    (fuel : Nat) (enough : sys.store.queued.length < fuel) :
    ∃ sys' reply, leaseRunWithQuota env call fuel sys = some (sys', reply) ∧
      LeasesOldest env call sys sys' reply := by
  unfold leaseRunWithQuota
  by_cases room : call.CapacityFull sys.store
  · rw [if_pos room]
    exact ⟨sys, none, rfl, ⟨[], rfl⟩, ⟨fun _ => .inl room, fun _ => rfl⟩, fun _ => rfl,
      fun h => absurd room h, fun _ h => absurd h (by simp)⟩
  rw [if_neg room, if_neg (by omega)]
  split
  · rename_i hempty
    refine ⟨sys, none, rfl, Scanned.leasesOldest room ?_⟩
    rw [eq_nil_of_length_eq_zero hempty]
    exact .exhausted (by simp) (.of_store ⟨[], rfl⟩ rfl)
      (by simpa using eq_nil_of_length_eq_zero hempty)
  · obtain ⟨sys', reply, hloop, hscanned⟩ :=
      leaseLoop_scanned clock fuel ⟨sys, 0⟩ [] sys.store.queued room rfl enough
    exact ⟨sys', reply, hloop, hscanned.leasesOldest room⟩

/-- A worker that no longer accepts an older payload format. -/
def Environment.upgraded : Environment :=
  { Environment.plain with acceptsRaw := fun raw => raw.body ≠ "v1" }

/-- A run over its user's quota, a payload of the older format, and a run that may be leased. -/
def upgradedQueue : System :=
  (machine .upgraded).run
    [.enqueue ⟨"t", "w", "u", "leased", ""⟩ 0,
      .leaseCandidate ⟨"t", "w", "u", "leased", ""⟩ 0 "w1" .unlimited (seconds 1) "",
      .enqueue ⟨"t", "w", "u", "over", ""⟩ 2, .enqueue ⟨"t", "w", "v", "old", "v1"⟩ 3,
      .enqueue ⟨"t", "w", "v", "next", ""⟩ 4]

def upgradedCall : LeaseCall where
  workerId := "w2"
  maxProcessingRuns := none
  tenantProcessingLimit := 0
  userProcessingLimit := 1
  leaseScanLimit := 2
  clock n := seconds (n + 10)
  validationError _ := "unsupported format"
  deadLetterMaxEntries := 100

theorem leaseRunWithQuota_leasesOldest_upgradedQueue :
    upgradedQueue.store.queued.length = 3 ∧
      ∃ sys' reply, leaseRunWithQuota .upgraded upgradedCall 4 upgradedQueue = some (sys', reply) ∧
        LeasesOldest .upgraded upgradedCall upgradedQueue sys' reply :=
  ⟨by decide +kernel, leaseRunWithQuota_leasesOldest .upgraded upgradedCall upgradedQueue
    (by decide) (fun n => show (0 : Int) < (n + 10) * 1000000 by omega) 4 (by decide +kernel)⟩

example : (leaseRunWithQuota .upgraded upgradedCall 4 upgradedQueue).bind (fun result =>
    result.2.map fun message => (message.raw.runId, result.1.store.queued.map RunPayload.runId)) =
      some ("next", ["over"]) := by decide +kernel

end AiPlatform.Queue
