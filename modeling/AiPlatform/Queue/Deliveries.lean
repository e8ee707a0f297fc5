import AiPlatform.Queue.Ownership

/-!
# Delivery attempts

Every lease is logged with the attempt number its row carries, and lease handles are fresh, so two
rows of one lease agree on the attempt. From this the attempts of a message between two admissions
are counted: they are 1, 2, 3, … up to the limit that all passes share.
-/
namespace AiPlatform.Queue

open AiPlatform.Foundation Hash SortedSet

/-- The attempts logged for a message since it was last admitted, newest first. -/
def deliveries (messageId : String) : List Event → List Int
  | [] => []
  | .admitted id :: log => if id = messageId then [] else deliveries messageId log
  | .leased h a :: log =>
    if h.messageId = messageId then a :: deliveries messageId log else deliveries messageId log
  | _ :: log => deliveries messageId log

/-- The attempts `n, …, 2, 1`. -/
def countdown : Nat → List Int
  | 0 => []
  | n + 1 => (n + 1 : Int) :: countdown n

@[simp] theorem length_countdown (n : Nat) : (countdown n).length = n := by
  induction n with
  | zero => rfl
  | succ n ih => simp [countdown, ih]

/-! ## Rows and the log agree on attempts -/

/-- The lease of the row is logged with the row's attempt. -/
structure LeaseMeta.Logged (env : Environment) (log : List Event) (raw : RunPayload)
    (m : LeaseMeta) : Prop where
  describes : m.Describes env raw
  leased : ∃ a, m.attempts = some a ∧ .leased m.handle a ∈ log

variable {env : Environment}

theorem LeaseMeta.Logged.mono {log events : List Event} {raw : RunPayload} {m : LeaseMeta}
    (h : m.Logged env log raw) : m.Logged env (events ++ log) raw := by
  obtain ⟨a, ha, hmem⟩ := h.leased
  exact ⟨h.describes, a, ha, List.mem_append_right _ hmem⟩

theorem LeaseMeta.Logged.same {log : List Event} {raw : RunPayload} {m m' : LeaseMeta}
    (h : m.Logged env log raw) (same : SameLease m m') :
    m'.Logged env log raw := by
  obtain ⟨a, ha, hmem⟩ := h.leased
  exact ⟨same.describes h.describes, a, same.attempts.trans ha, same.handle ▸ hmem⟩

/-- Every row of the hash is logged. -/
def RowsLogged (env : Environment) (log : List Event)
    (h : Hash String (Encoded LeaseMeta)) : Prop :=
  ∀ raw m, hget h (env.messageIdForRaw raw) = some (.table m) → m.Logged env log raw

structure AttemptsLogged (env : Environment) (sys : System) : Prop where
  fresh : ∀ h a, .leased h a ∈ sys.log → ∃ k < sys.secretsDrawn, h.attemptId = attemptSecret env k
  unique : ∀ h a a', .leased h a ∈ sys.log → .leased h a' ∈ sys.log → a = a'
  processing : RowsLogged env sys.log sys.store.processingMeta
  retry : RowsLogged env sys.log sys.store.retryMeta
  passes : ∀ i, (sys.passes i).Knows env fun raw m => m.Logged env sys.log raw

section

variable {env : Environment} {sys : System} {l : Label} {s s' : Store} {events log : List Event}
  {h h' : Hash String (Encoded LeaseMeta)}

theorem RowsLogged.mono (rows : RowsLogged env log h) : RowsLogged env (events ++ log) h :=
  fun raw m hrow => (rows raw m hrow).mono

variable {m : LeaseMeta} {raw : RunPayload} {e : Event}

theorem RowsLogged.hset (rows : RowsLogged env log h) (hm : m.Logged env log raw) :
    RowsLogged env log (Hash.hset h (env.messageIdForRaw raw) (.table m)) := by
  intro other m' hrow
  rw [hget_hset] at hrow
  split at hrow
  · rename_i hid
    obtain rfl := env.messageIdForRaw_injective hid
    obtain rfl : m = m' := by simpa using hrow
    exact hm
  · exact rows other m' hrow

theorem RowsLogged.hdel (rows : RowsLogged env log h) (messageId : String) :
    RowsLogged env log (Hash.hdel h messageId) :=
  fun raw m hrow => rows raw m (hget_hdel_some hrow)

theorem RowsLogged.kept (rows : RowsLogged env log h)
    (kept : ∀ id, RowKept (hget h id) (hget h' id)) : RowsLogged env log h' := by
  intro raw m' hrow
  have hk := kept (env.messageIdForRaw raw)
  rw [hrow] at hk
  obtain ⟨m, hm, same⟩ := hk.source
  exact (rows raw m hm).same same

/-- The rows of both lease hashes stay logged. -/
theorem Change.rowsLogged (rows : Rows env s)
    (passes : ∀ i, (sys.passes i).Knows env fun raw m => m.Logged env log raw)
    (processing : RowsLogged env log s.processingMeta) (retry : RowsLogged env log s.retryMeta)
    (change : Change env sys l s events s') :
    RowsLogged env (events ++ log) s'.processingMeta ∧
      RowsLogged env (events ++ log) s'.retryMeta := by
  cases change with
  | quiet same => exact ⟨same.processingMeta ▸ processing, same.retryMeta ▸ retry⟩
  | claim | push => exact ⟨processing.mono, retry.mono⟩
  | remove removal =>
    have removes := removal.removes rows
    exact ⟨removes.processingMeta ▸ processing.mono, removes.retryMeta ▸ retry.mono⟩
  | grant request accepted =>
    subst request
    rename_i raw index worker limits now _ _ _ _ _ _
    have hm : (leaseMetadata env s (sys.leaseRequest env raw index worker limits) now).Logged env
        ([.leased ((sys.leaseRequest env raw index worker limits).handle env)
          (nextAttempt s (env.messageIdForRaw raw))] ++ log) raw :=
      ⟨leaseMetadata_describes s now accepted, _, rfl, List.mem_cons_self⟩
    exact ⟨processing.mono.hset hm, retry.mono.hset hm⟩
  | dropInvalid => exact ⟨processing.mono, retry.mono.hdel _⟩
  | heartbeat row held unfenced same =>
    obtain ⟨raw, m₀, hid, hm₀, -⟩ := rows.processing _ _ row
    rw [hid] at row
    have hm := (processing raw _ row).same (same.trans (.encoded env _))
    simp only [Store.recordHeartbeat, hid]
    exact ⟨processing.hset hm, retry.hset hm⟩
  | settle => exact ⟨processing.mono.hdel _, retry.mono.hdel _⟩
  | requeue phase =>
    obtain ⟨m, a, read, -, -, -, same⟩ := (passes _).requeue phase
    exact ⟨processing.mono.hdel _, retry.mono.hset (read.known.same same).mono⟩
  | deadLetter =>
    refine ⟨?_, retry.mono.hdel _⟩
    unfold Store.deadLettered
    dsimp only
    split
    · exact processing.mono.hdel _
    · exact processing.mono

theorem Change.leased_unique
    (fresh : ∀ h a, .leased h a ∈ log → ∃ k < sys.secretsDrawn, h.attemptId = attemptSecret env k)
    (unique : ∀ h a a', .leased h a ∈ log → .leased h a' ∈ log → a = a')
    (change : Change env sys l s events s') {h : LeaseHandle} {a a' : Int}
    (ha : .leased h a ∈ events ++ log) (ha' : .leased h a' ∈ events ++ log) : a = a' := by
  cases change with
  | grant request =>
    subst request
    rename_i raw index worker limits _ _ _ _ _ _ _ _
    -- The handle of this lease is new, so the two events are both the new one or both old.
    have hnew :
      ∀ a, .leased ((sys.leaseRequest env raw index worker limits).handle env) a ∉ log := by
      intro a hmem
      obtain ⟨k, hk, hid⟩ := fresh _ a hmem
      have := attemptSecret_injective env hid
      omega
    simp only [List.singleton_append, List.mem_cons, Event.leased.injEq] at ha ha'
    obtain ⟨rfl, rfl⟩ | ha := ha
    · obtain ⟨-, rfl⟩ | ha' := ha'
      · rfl
      · exact absurd ha' (hnew _)
    · obtain ⟨rfl, rfl⟩ | ha' := ha'
      · exact absurd ha (hnew _)
      · exact unique h a a' ha ha'
  | quiet | claim | push | remove | dropInvalid | heartbeat | settle | requeue | deadLetter =>
    simp only [List.nil_append, List.singleton_append, List.mem_cons, reduceCtorEq,
      false_or] at ha ha'
    exact unique h a a' ha ha'

theorem AttemptsLogged.step (logged : AttemptsLogged env sys)
    (wf : WellFormed env sys) (l : Label) :
    AttemptsLogged env (sys.step env l) := by
  obtain ⟨s₁, kept, change⟩ := sys.effect_change env l
  obtain ⟨processing, retry⟩ := change.rowsLogged (wf.rows.rewritten kept) logged.passes
    (logged.processing.kept kept.processingRow) (logged.retry.kept kept.retryRow)
  refine ⟨fun h a => change.leased_fresh logged.fresh,
    fun h a a' => change.leased_unique logged.fresh logged.unique, processing, retry, fun i => ?_⟩
  exact (System.passesAfter_knows l logged.processing logged.retry logged.passes i).mono
    fun raw m hm => hm.mono

/-! ## Counting the attempts -/

theorem deliveries_cons_other {messageId : String} (h : e.messageId ≠ some messageId)
    (log : List Event) : deliveries messageId (e :: log) = deliveries messageId log := by
  cases e with
  | admitted id => exact if_neg fun heq => h (congrArg some heq)
  | leased h' a => exact if_neg fun heq => h (congrArg some heq)
  | settled | droppedInvalid | removed | claimed => rfl

/-- The attempts are counted without gap, the next one of a queued message is within the limit, and
the processing row carries the last one. -/
structure Counted (env : Environment) (limit : Int) (s : Store) (log : List Event) : Prop where
  attempts : ∀ messageId, ∃ n : Nat, (n : Int) ≤ limit ∧ deliveries messageId log = countdown n
  queued : ∀ raw ∈ s.queued,
    nextAttempt s (env.messageIdForRaw raw) =
      (deliveries (env.messageIdForRaw raw) log).length + 1 ∧
      ((deliveries (env.messageIdForRaw raw) log).length : Int) + 1 ≤ limit
  processing : ∀ raw ∈ s.processing, ∀ m,
    hget s.processingMeta (env.messageIdForRaw raw) = some (.table m) →
      m.attempts = some ((deliveries (env.messageIdForRaw raw) log).length : Int)

theorem nextAttempt_congr {messageId : String}
    (hp : hget s'.processingMeta messageId = hget s.processingMeta messageId)
    (hr : hget s'.retryMeta messageId = hget s.retryMeta messageId) :
    nextAttempt s' messageId = nextAttempt s messageId := by
  simp only [nextAttempt, hp, hr]

variable {limit : Int}

/-- Lists shrink, rows stay, and the events are about no message. -/
theorem Counted.shrink (counted : Counted env limit s log)
    (hevents : ∀ e ∈ events, e.messageId = none) (hqueued : s'.queued ⊆ s.queued)
    (hprocessing : s'.processing ⊆ s.processing)
    (hrows : s'.processingMeta = s.processingMeta ∧ s'.retryMeta = s.retryMeta) :
    Counted env limit s' (events ++ log) := by
  have hdel : ∀ messageId, deliveries messageId (events ++ log) = deliveries messageId log := by
    intro messageId
    induction events with
    | nil => rfl
    | cons e events ih =>
      rw [List.cons_append, deliveries_cons_other (by simp [hevents e])]
      exact ih fun e he => hevents e (by simp [he])
  refine ⟨fun id => hdel id ▸ counted.attempts id, fun raw hraw => ?_, fun raw hraw => ?_⟩
  · rw [hdel, nextAttempt_congr (s := s) (by rw [hrows.1]) (by rw [hrows.2])]
    exact counted.queued raw (hqueued hraw)
  · rw [hdel, hrows.1]
    exact counted.processing raw (hprocessing hraw)

/-- One event about the message `raw`; the rows and places of all other messages stay. -/
theorem Counted.move (counted : Counted env limit s log)
    (hid : e.messageId = some (env.messageIdForRaw raw))
    (others : ∀ other, other ≠ raw → Untouched env s s' other)
    (rawAttempts : ∃ n : Nat, (n : Int) ≤ limit ∧
      deliveries (env.messageIdForRaw raw) (e :: log) = countdown n)
    (rawQueued : raw ∈ s'.queued → nextAttempt s' (env.messageIdForRaw raw) =
        (deliveries (env.messageIdForRaw raw) (e :: log)).length + 1 ∧
      ((deliveries (env.messageIdForRaw raw) (e :: log)).length : Int) + 1 ≤ limit)
    (rawProcessing : raw ∈ s'.processing → ∀ m,
      hget s'.processingMeta (env.messageIdForRaw raw) = some (.table m) →
        m.attempts = some ((deliveries (env.messageIdForRaw raw) (e :: log)).length : Int)) :
    Counted env limit s' (e :: log) := by
  have hother : ∀ other, other ≠ raw →
      deliveries (env.messageIdForRaw other) (e :: log) =
        deliveries (env.messageIdForRaw other) log := by
    intro other hne
    refine deliveries_cons_other ?_ log
    simpa [hid, env.messageIdForRaw_injective.eq_iff] using Ne.symm hne
  refine ⟨fun id => ?_, fun other hq => ?_, fun other hp => ?_⟩
  · by_cases heq : id = env.messageIdForRaw raw
    · exact heq ▸ rawAttempts
    · rw [deliveries_cons_other (by simpa [hid] using Ne.symm heq)]
      exact counted.attempts id
  · by_cases heq : other = raw
    · exact heq ▸ rawQueued (heq ▸ hq)
    · have same := others other heq
      rw [hother other heq, nextAttempt_congr same.processingMeta same.retryMeta]
      exact counted.queued other (same.mem_queued.mp hq)
  · by_cases heq : other = raw
    · exact heq ▸ rawProcessing (heq ▸ hp)
    · rw [hother other heq, (others other heq).processingMeta]
      exact counted.processing other ((others other heq).mem_processing.mp hp)

theorem ExpectedLease.ReadFrom.handle {K : RunPayload → LeaseMeta → Prop} {lease : ExpectedLease}
    (read : lease.ReadFrom K m) (hid : m.messageId = env.messageIdForRaw lease.raw) :
    m.handle = lease.handle env := by
  simp [LeaseMeta.handle, ExpectedLease.handle, hid, read.attemptId, read.ownerToken]

/-- Two logged rows of one lease carry the same attempt. -/
theorem LeaseMeta.Logged.attempts_eq {raw' : RunPayload} {m' : LeaseMeta}
    (unique : ∀ h a a', .leased h a ∈ log → .leased h a' ∈ log → a = a') (hm : m.Logged env log raw)
    (hm' : m'.Logged env log raw') (hh : m.handle = m'.handle) :
    m.attempts = m'.attempts := by
  obtain ⟨a, ha, hmem⟩ := hm.leased
  obtain ⟨a', ha', hmem'⟩ := hm'.leased
  rw [ha, ha', unique _ a a' hmem (hh ▸ hmem')]

section

variable (counted : Counted env limit s log)
include counted

/-- A heartbeat rewrites the rows of a leased message and keeps its attempt. -/
theorem Counted.recordHeartbeat (slots : Slots env s) {worker : String} {m' : LeaseMeta}
    (now : Time) (row : hget s.processingMeta (env.messageIdForRaw raw) = some (.table m))
    (same : SameLease m m') :
    Counted env limit (s.recordHeartbeat env (env.messageIdForRaw raw) worker m' now) log := by
  refine ⟨counted.attempts, fun other hq => ?_, fun other hp m₁ hrow => ?_⟩
  · have hne : other ≠ raw := by
      rintro rfl
      simp [slots.unleased other hq] at row
    have hid := env.messageIdForRaw_injective.ne hne
    rw [nextAttempt_congr (s := s) (by simp [Store.recordHeartbeat, hid])
      (by simp [Store.recordHeartbeat, hid])]
    exact counted.queued other hq
  · by_cases heq : other = raw
    · subst heq
      obtain rfl : m'.encoded env = m₁ := by simpa [Store.recordHeartbeat] using hrow
      exact same.attempts.trans (counted.processing other hp m row)
    · have hid := env.messageIdForRaw_injective.ne heq
      exact counted.processing other hp m₁ (by simpa [Store.recordHeartbeat, hid] using hrow)

theorem Counted.push (slots : Slots env s) (enqueuedAt : Time) (hlimit : 1 ≤ limit)
    (notProcessing : hget s.processingMeta (env.messageIdForRaw raw) = none)
    (notRetried : hget s.retryMeta (env.messageIdForRaw raw) = none) :
    Counted env limit (s.pushQueued raw (env.messageIdForRaw raw) (queuedMetadata raw enqueuedAt)
      ((decodeIndex (hget s.queuedRunIndex raw.indexField)).filter
        (· ≠ env.messageIdForRaw raw) ++ [env.messageIdForRaw raw]))
      (.admitted (env.messageIdForRaw raw) :: log) := by
  have hnil : deliveries (env.messageIdForRaw raw) (.admitted (env.messageIdForRaw raw) :: log) =
      [] := if_pos rfl
  refine counted.move rfl (fun _ hne => .push hne enqueuedAt) ⟨0, by omega, hnil⟩ (fun _ => ?_)
    fun hp => ?_
  · rw [hnil]
    exact ⟨by simp [nextAttempt, Store.pushQueued, notProcessing, notRetried],
      by simpa using hlimit⟩
  · have hrow := slots.leased _ hp
    simp [hexists, notProcessing] at hrow

theorem Counted.grantLease (slots : Slots env s) {req : LeaseRequest} (now : Time)
    (indexed : lindex s.queued req.absoluteIndex = some req.raw) :
    Counted env limit (s.grantLease env req now)
      (.leased (req.handle env) (nextAttempt s (env.messageIdForRaw req.raw)) :: log) := by
  obtain ⟨hnext, hle⟩ := counted.queued _ (mem_of_lindex indexed)
  obtain ⟨n, hn, hcount⟩ := counted.attempts (env.messageIdForRaw req.raw)
  rw [hcount, length_countdown] at hnext hle
  have hcons : deliveries (env.messageIdForRaw req.raw)
      (.leased (req.handle env) (nextAttempt s (env.messageIdForRaw req.raw)) :: log) =
        countdown (n + 1) := by
    simp [deliveries, LeaseRequest.handle, hnext, hcount, countdown]
  refine counted.move rfl (fun _ hne => .grant hne rfl now indexed)
    ⟨n + 1, by exact_mod_cast hle, hcons⟩ (fun hq => ?_) fun _ m hrow => ?_
  · exact absurd rfl ((slots.mem_takeQueued indexed _).mp hq).2
  · obtain rfl : leaseMetadata env s req now = m := by simpa [Store.grantLease] using hrow
    rw [hcons, length_countdown]
    simp [leaseMetadata, hnext]

/-- The message leaves a list for good: its attempts stay as they are. -/
theorem Counted.leave (hid : e.messageId = some (env.messageIdForRaw raw))
    (hdel : deliveries (env.messageIdForRaw raw) (e :: log) =
      deliveries (env.messageIdForRaw raw) log)
    (others : ∀ other, other ≠ raw → Untouched env s s' other) (hqueued : raw ∉ s'.queued)
    (hprocessing : raw ∉ s'.processing) : Counted env limit s' (e :: log) :=
  counted.move hid others (hdel ▸ counted.attempts _) (fun hq => absurd hq hqueued)
    fun hp => absurd hp hprocessing

theorem Counted.requeued (slots : Slots env s) {call : RequeueCall} (enqueuedAt : Time)
    (unique : ∀ h a a', .leased h a ∈ log → .leased h a' ∈ log → a = a')
    (processing : RowsLogged env log s.processingMeta)
    (row : leaseRow s (env.messageIdForRaw call.lease.raw) = some (.table m))
    (held : m.handle = call.lease.handle env) (hmem : call.lease.raw ∈ s.processing)
    {m₀ : LeaseMeta} {a : Int} (read : call.lease.ReadFrom (fun raw m => m.Logged env log raw) m₀)
    (ha : m₀.attempts = some a) (below : a < limit) (positive : 1 ≤ a)
    (same : SameLease m₀ call.retryMetadata) :
    Counted env limit (s.requeued env call enqueuedAt)
      (.settled (call.lease.handle env) .requeued :: log) := by
  rw [leaseRow_of_processing (slots.leased _ hmem)] at row
  -- The row read by the pass and the row found by the script belong to one lease.
  have hattempt : a = (deliveries (env.messageIdForRaw call.lease.raw) log).length := by
    have hhandle := read.handle read.known.describes.messageId
    have heq := read.known.attempts_eq unique (processing _ _ row) (hhandle.trans held.symm)
    rw [ha, counted.processing _ hmem _ row] at heq
    exact Option.some.inj heq
  refine counted.move rfl (fun _ hne => .requeue hne enqueuedAt) (counted.attempts _) (fun _ => ?_)
    fun hp => ?_
  · refine ⟨?_, ?_⟩
    · have hretry : call.retryMetadata.attempts = some a := same.attempts.trans ha
      simp only [nextAttempt, Store.requeued, Store.pushQueued, hget_hset, if_true, Option.some_or,
        hretry, Option.getD_some, deliveries, ← hattempt]
      omega
    · simp only [deliveries, ← hattempt]
      omega
  · exact absurd rfl (slots.mem_lremFirst hp).1

/-- With one limit for all passes no lease is both requeued and dead-lettered, so the message of a
dead-letter call is not in the queue. -/
theorem Counted.notQueued (slots : Slots env s) {call : DeadLetterCall}
    (unique : ∀ h a a', .leased h a ∈ log → .leased h a' ∈ log → a = a')
    (retry : RowsLogged env log s.retryMeta)
    (row : leaseRow s (env.messageIdForRaw call.lease.raw) = some (.table m))
    (held : m.handle = call.lease.handle env) {m₀ : LeaseMeta}
    (read : call.lease.ReadFrom (fun raw m => m.Logged env log raw) m₀)
    (ha : m₀.attempts = some call.attempts) (reached : limit ≤ call.attempts) :
    call.lease.raw ∉ s.queued := by
  intro hq
  have hnone := slots.unleased _ hq
  have hrow : hget s.retryMeta (env.messageIdForRaw call.lease.raw) = some (.table m) := by
    simpa [leaseRow, hnone] using row
  have hhandle := read.handle read.known.describes.messageId
  have heq := read.known.attempts_eq unique (retry _ _ hrow) (hhandle.trans held.symm)
  obtain ⟨hnext, hle⟩ := counted.queued _ hq
  simp only [nextAttempt, hrow, Option.some_or, ← heq, ha, Option.getD_some] at hnext
  omega

theorem Counted.change (rows : Rows env s) (slots : Slots env s) (hlimit : 1 ≤ limit)
    (unique : ∀ h a a', .leased h a ∈ log → .leased h a' ∈ log → a = a')
    (processing : RowsLogged env log s.processingMeta) (retry : RowsLogged env log s.retryMeta)
    (passes : ∀ i, (sys.passes i).Knows env fun raw m => m.Logged env log raw)
    (limits : ∀ i, (sys.passes i).maxAttempts = limit ∨ (sys.passes i).phase = .finished)
    (change : Change env sys l s events s') : Counted env limit s' (events ++ log) := by
  cases change with
  | quiet same =>
    exact counted.shrink (by simp) (same.queued ▸ fun _ h => h) (same.processing ▸ fun _ h => h)
      ⟨same.processingMeta, same.retryMeta⟩
  | claim =>
    exact counted.shrink (by simp [Event.messageId]) (fun _ h => h) (fun _ h => h) ⟨rfl, rfl⟩
  | remove removal =>
    have removes := removal.removes rows
    exact counted.shrink (by simp [Event.messageId]) removes.queued.subset
      (removes.processing ▸ fun _ h => h) ⟨removes.processingMeta, removes.retryMeta⟩
  | heartbeat row held unfenced same =>
    obtain ⟨raw, -, hid, -, -⟩ := rows.processing _ _ row
    rw [hid] at row ⊢
    exact counted.recordHeartbeat slots _ row same
  | push valid unfenced notIndexed notProcessing notRetried =>
    exact counted.push slots _ hlimit notProcessing notRetried
  | grant request accepted unfenced capacity indexed =>
    subst request
    exact counted.grantLease slots _ indexed
  | dropInvalid rejected indexed =>
    exact counted.leave rfl rfl (fun _ hne => .dropInvalid hne indexed _)
      (fun hq => absurd rfl ((slots.mem_takeQueued indexed _).mp hq).2)
      (slots.disjoint (mem_of_lindex indexed))
  | settle settles row held rawEq =>
    have hid := rows.settled_messageId row rawEq
    rw [hid] at row ⊢
    refine counted.leave (congrArg some hid) rfl (fun _ hne => .settle hne _) (fun hq => ?_)
      fun hp => absurd rfl (slots.mem_lremFirst hp).1
    simp [slots.unleased _ hq] at row
  | requeue phase unfenced row held hmem =>
    obtain ⟨m₀, a, read, ha, positive, below, same⟩ := (passes _).requeue phase
    obtain hmax | hfin := limits _
    · exact counted.requeued slots _ unique processing row held hmem read ha (hmax ▸ below) positive
        same
    · simp [phase] at hfin
  | deadLetter phase unfenced row held =>
    obtain ⟨m₀, read, ha, positive, reached⟩ := (passes _).deadLetter phase
    obtain hmax | hfin := limits _
    · exact counted.leave rfl rfl (fun _ hne => .deadLetter hne _)
        (counted.notQueued slots unique retry row held read ha (hmax ▸ reached))
        fun hp => absurd rfl (slots.mem_lremFirst hp).1
    · simp [phase] at hfin

end

theorem Rewritten.nextAttempt (kept : Rewritten s s') (messageId : String) :
    nextAttempt s' messageId = nextAttempt s messageId := by
  have hrow : RowKept ((hget s.retryMeta messageId).or (hget s.processingMeta messageId))
      ((hget s'.retryMeta messageId).or (hget s'.processingMeta messageId)) := by
    have hk := kept.retryRow messageId
    cases hretry : hget s.retryMeta messageId with
    | none =>
      rw [hk.eq_none.mpr hretry]
      simpa using kept.processingRow messageId
    | some row =>
      rw [hretry] at hk
      cases hretry' : hget s'.retryMeta messageId with
      | none => exact absurd (hk.eq_none.mp hretry') (by simp)
      | some row' => simpa [hretry'] using hk
  unfold Queue.nextAttempt
  generalize (hget s.retryMeta messageId).or (hget s.processingMeta messageId) = row at hrow
  generalize (hget s'.retryMeta messageId).or (hget s'.processingMeta messageId) = row' at hrow
  cases hrow with
  | same => rfl
  | rewritten same => simp [same.attempts]

theorem Counted.rewritten (counted : Counted env limit s log) (kept : Rewritten s s') :
    Counted env limit s' log := by
  refine ⟨counted.attempts, fun raw hq => ?_, fun raw hp m hrow => ?_⟩
  · rw [kept.nextAttempt]
    exact counted.queued raw (kept.queued ▸ hq)
  · have hk := kept.processingRow (env.messageIdForRaw raw)
    rw [hrow] at hk
    obtain ⟨m₀, hm₀, same⟩ := hk.source
    exact same.attempts.trans (counted.processing raw (kept.processing ▸ hp) m₀ hm₀)

theorem ReclaimPass.command_maxAttempts (p : ReclaimPass) (s : Store) (t : Tick) :
    (p.command env s t).2.maxAttempts = p.maxAttempts := by
  unfold ReclaimPass.command
  split
  all_goals try rfl
  split <;> rfl

theorem ReclaimPass.command_finished {p : ReclaimPass} (h : p.phase = .finished) (s : Store)
    (t : Tick) : (p.command env s t).2 = p := by
  simp [ReclaimPass.command, h]

/-- Every pass that the label starts has this limit. -/
def ReclaimsUnder (limit : Int) (_ : System) (l : Label) : Prop := ∀ n ∈ l.maxAttempts, n = limit

instance (limit : Int) (sys : System) (l : Label) : Decidable (ReclaimsUnder limit sys l) :=
  inferInstanceAs (Decidable (∀ n ∈ l.maxAttempts, n = limit))

theorem System.passesAfter_limit
    (limits : ∀ i, (sys.passes i).maxAttempts = limit ∨ (sys.passes i).phase = .finished)
    (under : ReclaimsUnder limit sys l) (i : Nat) :
    (sys.passesAfter env l i).maxAttempts = limit ∨
    (sys.passesAfter env l i).phase = .finished := by
  unfold System.passesAfter
  split
  · rename_i pass _ maxAttempts _
    by_cases hi : i = pass
    · subst hi
      exact .inl (by simpa using under maxAttempts rfl)
    · simpa [hi] using limits i
  · rename_i pass tick
    by_cases hi : i = pass
    · subst hi
      simp only [Function.update_self]
      obtain hmax | hfin := limits i
      · exact .inl (by rw [ReclaimPass.command_maxAttempts, hmax])
      · exact .inr (by rw [ReclaimPass.command_finished hfin, hfin])
    · simpa [hi] using limits i
  · exact limits i

end

structure CountingInvariant (env : Environment) (limit : Int) (sys : System) : Prop where
  wellFormed : WellFormed env sys
  slots : Slots env sys.store
  logged : AttemptsLogged env sys
  limits : ∀ i, (sys.passes i).maxAttempts = limit ∨ (sys.passes i).phase = .finished
  counted : Counted env limit sys.store sys.log

theorem CountingInvariant.initial (env : Environment) {limit : Int} (hlimit : 1 ≤ limit) :
    CountingInvariant env limit .initial where
  wellFormed := wellFormed_run env []
  slots := .empty env
  logged := ⟨by simp [System.initial], by simp [System.initial],
    fun _ _ h => by simp [System.initial, Store.empty] at h,
    fun _ _ h => by simp [System.initial, Store.empty] at h, fun _ => trivial⟩
  limits _ := .inr rfl
  counted := ⟨fun _ => ⟨0, by omega, rfl⟩, by simp [System.initial, Store.empty],
    by simp [System.initial, Store.empty]⟩

theorem CountingInvariant.step {limit : Int} {sys : System} {l : Label}
    (inv : CountingInvariant env limit sys) (hlimit : 1 ≤ limit) (under : ReclaimsUnder limit sys l)
    (own : OwnRemoval sys.store l) : CountingInvariant env limit (sys.step env l) where
  wellFormed := inv.wellFormed.step l
  slots := inv.slots.step inv.wellFormed own
  logged := inv.logged.step inv.wellFormed l
  limits := System.passesAfter_limit inv.limits under
  counted := by
    obtain ⟨s₁, kept, change⟩ := sys.effect_change env l
    exact (inv.counted.rewritten kept).change (inv.wellFormed.rows.rewritten kept)
      (inv.slots.rewritten kept) hlimit inv.logged.unique
      (inv.logged.processing.kept kept.processingRow) (inv.logged.retry.kept kept.retryRow)
      inv.logged.passes inv.limits change

/-- If all passes share a positive limit and removals meet only messages of their own run, then the
attempts of a message since its last admission are `1, 2, …, n` with `n` at most the limit. -/
theorem deliveries_run (env : Environment) (limit : Int) (hlimit : 1 ≤ limit) (labels : List Label)
    (under : (machine env).Meets (ReclaimsUnder limit) (machine env).start labels)
    (own : (machine env).Meets (fun sys => OwnRemoval sys.store) (machine env).start labels)
    (messageId : String) : ∃ n : Nat, (n : Int) ≤ limit ∧
      deliveries messageId ((machine env).run labels).log = countdown n := by
  have hrun : CountingInvariant env limit ((machine env).run labels) :=
    Machine.invariant_run (I := CountingInvariant env limit) (.initial env hlimit)
      (fun sys l inv h => inv.step hlimit h.1 h.2) (under.and own)
  exact hrun.counted.attempts messageId

theorem deliveries_run_retriedRun :
    deliveries (sampleHandle 0).messageId ((machine .plain).run retriedRun).log = [2, 1] ∧
      ∃ n : Nat, (n : Int) ≤ 2 ∧
        deliveries (sampleHandle 0).messageId ((machine .plain).run retriedRun).log = countdown n :=
  ⟨by decide, deliveries_run .plain 2 (by decide) retriedRun (by decide) (by decide) _⟩

/-- The removal is for the run `c` of tenant `a:b`, which shares its index field with the run `b:c`
of tenant `a`. It drops the field, and the second enqueue of the waiting message is admitted. -/
def sharedIndexFieldRun : List Label :=
  [.enqueue (.simple "a" "b:c") 0, .removeQueuedRun "a:b" "c" 100, .enqueue (.simple "a" "b:c") 1,
    .leaseCandidate (.simple "a" "b:c") 0 "w1" .unlimited (seconds 1) "",
    .leaseCandidate (.simple "a" "b:c") 0 "w2" .unlimited (seconds 2) ""]

/-- With one attempt allowed, the message is leased twice since its last admission. -/
theorem sharedIndexFieldRun_two_deliveries :
    (∀ l ∈ sharedIndexFieldRun, ∀ n ∈ l.maxAttempts, n = 1) ∧
      deliveries (Environment.plain.messageIdForRaw (.simple "a" "b:c"))
        ((machine .plain).run sharedIndexFieldRun).log = [2, 1] :=
  ⟨by decide, by decide⟩

end AiPlatform.Queue
