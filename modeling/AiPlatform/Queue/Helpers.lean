import AiPlatform.Queue.Admission

/-!
# Helpers that repair queue metadata command by command

`get_run_queue_position` and the cleanup of `_remove_queued_run_bounded_fallback` are client
programs that read and delete rows in separate commands. Each is a state machine over its next
command, as the reclaim pass is; scripts of other clients may run between any two commands.
-/
namespace AiPlatform.Queue

open AiPlatform.Foundation Hash SortedSet

/-! ## `get_run_queue_position` -/

structure PositionScan where
  messageIds : List String
  validMessageIds : List String
  bestRank : Option Nat
  deriving DecidableEq, Repr

inductive PositionPhase where
  | readIndex
  | readMetadata (messageId : String) (rest : List String) (scan : PositionScan)
  | dropMetadata (messageId : String) (rest : List String) (scan : PositionScan)
  | dropOrder (messageId : String) (rest : List String) (scan : PositionScan)
  | readRank (messageId : String) (rest : List String) (scan : PositionScan)
  | writeIndex (scan : PositionScan)
  | dropIndex
  | returned (position : Option Nat)
  deriving DecidableEq, Repr

def PositionScan.position (scan : PositionScan) : Nat := scan.bestRank.getD 0 + 1

/-- The loop over the ids read at the start, and what follows it. -/
def PositionScan.next (scan : PositionScan) : List String → PositionPhase
  | messageId :: rest => .readMetadata messageId rest scan
  | [] =>
    if scan.validMessageIds = [] then .dropIndex
    else if scan.validMessageIds ≠ scan.messageIds then .writeIndex scan
    else .returned (some scan.position)

def PositionScan.record (scan : PositionScan) (messageId : String) (rank : Nat) : PositionScan :=
  { scan with
    validMessageIds := scan.validMessageIds ++ [messageId]
    bestRank := some (match scan.bestRank with
      | some best => min best rank
      | none => rank) }

/-- After reading the run's index row. -/
def PositionPhase.onIndex : List String → PositionPhase
  | [] => .returned none
  | messageIds => PositionScan.next ⟨messageIds, [], none⟩ messageIds

/-- After reading the metadata row of one id. -/
def PositionScan.onMetadata (scan : PositionScan) (tenantId runId messageId : String)
    (rest : List String) : Option (Encoded QueuedMeta) → PositionPhase
  | none => .dropOrder messageId rest scan
  | some (.text value) =>
    if value = "" then .dropOrder messageId rest scan else .dropMetadata messageId rest scan
  | some (.table metadata) =>
    if metadata.tenantId ≠ tenantId ∨ metadata.runId ≠ runId then scan.next rest
    else .readRank messageId rest scan

/-- After reading the rank of one id. -/
def PositionScan.onRank (scan : PositionScan) (messageId : String) (rest : List String) :
    Option Nat → PositionPhase
  | none => scan.next rest
  | some rank => (scan.record messageId rank).next rest

def PositionPhase.command (tenantId runId : String) (s : Store) :
    PositionPhase → Store × PositionPhase
  | .readIndex =>
    (s, .onIndex (decodeIndex (hget s.queuedRunIndex (queuedRunIndexField tenantId runId))))
  | .readMetadata messageId rest scan =>
    (s, scan.onMetadata tenantId runId messageId rest (hget s.queuedMeta messageId))
  | .dropMetadata messageId rest scan =>
    ({ s with queuedMeta := hdel s.queuedMeta messageId }, .dropOrder messageId rest scan)
  | .dropOrder messageId rest scan =>
    ({ s with queuedOrder := zrem s.queuedOrder messageId }, scan.next rest)
  | .readRank messageId rest scan => (s, scan.onRank messageId rest (zrank s.queuedOrder messageId))
  | .writeIndex scan =>
    let index := hset s.queuedRunIndex (queuedRunIndexField tenantId runId)
      (.table scan.validMessageIds)
    ({ s with queuedRunIndex := index }, .returned (some scan.position))
  | .dropIndex =>
    ({ s with queuedRunIndex := hdel s.queuedRunIndex (queuedRunIndexField tenantId runId) },
      .returned none)
  | .returned position => (s, .returned position)

/-- The program run by itself for a number of commands. -/
def PositionPhase.runAlone (tenantId runId : String) :
    Nat → Store × PositionPhase → Store × PositionPhase
  | 0, state => state
  | n + 1, (s, phase) => runAlone tenantId runId n (phase.command tenantId runId s)

def PositionPhase.answer : PositionPhase → Option Nat
  | .returned position => position
  | _ => none

/-- `get_run_queue_position` without interference. -/
def getRunQueuePosition (s : Store) (tenantId runId : String) : Store × Option Nat :=
  let messageIds := decodeIndex (hget s.queuedRunIndex (queuedRunIndexField tenantId runId))
  let final := PositionPhase.runAlone tenantId runId (3 * messageIds.length + 2) (s, .readIndex)
  (final.1, final.2.answer)

/-! ## `_remove_queued_run_bounded_fallback` -/

inductive CleanupPhase where
  | readQueue
  | removeEntry (raw : RunPayload) (rest : List RunPayload)
  | dropMetadata (raw : RunPayload) (rest : List RunPayload)
  | readIndex (raw : RunPayload) (rest : List RunPayload)
  | writeIndex (raw : RunPayload) (rest : List RunPayload) (remaining : List String)
  | dropIndex (raw : RunPayload) (rest : List RunPayload)
  | dropOrder (raw : RunPayload) (rest : List RunPayload)
  | returned
  deriving DecidableEq, Repr

structure CleanupCall where
  tenantId : String
  runId : String
  scanLimit : Int
  removedTotal : Nat
  phase : CleanupPhase
  deriving DecidableEq, Repr

/-- The loop over the entries read at the start; entries of other runs take no command. -/
def CleanupPhase.next (env : Environment) (tenantId runId : String) : List RunPayload → CleanupPhase
  | [] => .returned
  | raw :: rest =>
    if env.acceptsRaw raw ∧ raw.IsFor tenantId runId then .removeEntry raw rest
    else next env tenantId runId rest

/-- `_remove_message_id_from_run_index` after its read. -/
def CleanupPhase.onIndex (raw : RunPayload) (rest : List RunPayload) (messageId : String)
    (messageIds : List String) : CleanupPhase :=
  let remaining := messageIds.filter (· ≠ messageId)
  if messageIds = [] then .dropOrder raw rest
  else if remaining = [] then .dropIndex raw rest
  else .writeIndex raw rest remaining

def CleanupCall.command (env : Environment) (s : Store) (c : CleanupCall) : Store × CleanupCall :=
  let field := queuedRunIndexField c.tenantId c.runId
  match c.phase with
  | .readQueue =>
    let items := if c.scanLimit ≤ 0 then [] else lrangeLast s.queued c.scanLimit.toNat
    (s, { c with phase := .next env c.tenantId c.runId items })
  | .removeEntry raw rest =>
    ({ s with queued := lremAll s.queued raw },
      { c with
        removedTotal := c.removedTotal + s.queued.count raw
        phase := .dropMetadata raw rest })
  | .dropMetadata raw rest =>
    ({ s with queuedMeta := hdel s.queuedMeta (env.messageIdForRaw raw) },
      { c with phase := .readIndex raw rest })
  | .readIndex raw rest =>
    let messageIds := decodeIndex (hget s.queuedRunIndex field)
    (s, { c with phase := .onIndex raw rest (env.messageIdForRaw raw) messageIds })
  | .writeIndex raw rest remaining =>
    ({ s with queuedRunIndex := hset s.queuedRunIndex field (.table remaining) },
      { c with phase := .dropOrder raw rest })
  | .dropIndex raw rest =>
    ({ s with queuedRunIndex := hdel s.queuedRunIndex field },
      { c with phase := .dropOrder raw rest })
  | .dropOrder raw rest =>
    ({ s with queuedOrder := zrem s.queuedOrder (env.messageIdForRaw raw) },
      { c with phase := .next env c.tenantId c.runId rest })
  | .returned => (s, c)

end AiPlatform.Queue
