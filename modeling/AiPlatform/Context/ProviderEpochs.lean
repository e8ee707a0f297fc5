import AiPlatform.Context.ProviderMedia
import AiPlatform.Foundation.Runs

/-!
# Provider epochs

The ledger of one native conversation: numbered entries, one receipt for each append that was
acknowledged, and counters. `callbackAppend` is the callback that extends a ledger,
`verifyProviderLedger` reads one back against its receipts, and `resumeProviderEpoch` starts a new
epoch with a copy of an acknowledged part of another.
-/
namespace AiPlatform.Context

open AiPlatform.Foundation AiPlatform.Kernel

/-! ## Tables -/

structure Owner where
  runId : String
  attemptId : String
  ownerGeneration : Nat
  deriving DecidableEq, Repr

/-- A row of `provider_session_entries`. Rows written before the canonical text was kept have
`entryJson` alone. -/
structure EntryRow where
  sequence : Nat
  subpath : String
  sdkEntryUuid : Option String
  entryJson : Option Json
  entryCanonicalJson : Option (List Char)
  imageReferences : List ImageReference
  imageFormat : Option String
  deriving DecidableEq

/-- The bytes of the stored text, or of the value where no text was kept. -/
def EntryRow.storedBytes (row : EntryRow) : Nat :=
  match row.entryCanonicalJson with
  | some text => Json.utf8Length text
  | none => (row.entryJson.getD .null).size

/-- A row of `provider_session_append_receipts`. -/
structure AppendReceipt where
  expectedSequence : Nat
  batchSha256 : String
  entryCount : Nat
  lastSequence : Nat
  owner : Owner
  deriving DecidableEq, Repr

structure Epoch where
  nextSequence : Nat
  entryCount : Nat
  transcriptBytes : Nat
  structuredBytes : Nat
  rows : List EntryRow
  receipts : List AppendReceipt
  deriving DecidableEq

/-- The row an `empty_start` inserts. -/
def Epoch.empty : Epoch where
  nextSequence := 1
  entryCount := 0
  transcriptBytes := 0
  structuredBytes := 0
  rows := []
  receipts := []

/-- `_canonical(value)` -/
def canonicalText (j : Json) : List Char :=
  Json.dumps (Json.canonical j)

def batchText (path : String) (entries : List Json) : List Char :=
  canonicalText (.arr [.str path, .arr entries])

def batchDigest (rt : Runtime) (path : String) (entries : List Json) : String :=
  rt.sha256 (batchText path entries)

/-! ## Verifying a ledger -/

/-- The two queries: ordered, and cut one above the limit. -/
def readProviderLedger (epoch : Epoch) : List EntryRow × List AppendReceipt :=
  ((epoch.rows.insertionSort fun a b => a.sequence ≤ b.sequence).take
      (maxProviderSessionEntries + 1),
    (epoch.receipts.insertionSort fun a b => a.expectedSequence ≤ b.expectedSequence).take
      (maxProviderSessionEntries + 1))

def ambiguousLegacyNumber : Json.Visitor Bool where
  null := false
  bool _ := false
  int n := 10 ^ 16 ≤ n.natAbs
  float text := text = ['0', '.', '0'] || text = ['-', '0', '.', '0']
  str _ := false
  arr items := items.any id
  obj members := members.any Prod.snd

def hasAmbiguousLegacyNumber (j : Json) : Bool :=
  ambiguousLegacyNumber.visit j

/-- `except (ValueError, KeyError, TypeError)` around the loop: what is no conflict becomes one. -/
def asMismatch {α : Type} : Except Refusal α → Except Refusal α
  | .error (.continuity _) => .error (.conflict .integrityMismatch)
  | result => result

section Verify

variable (rt : Runtime) (values : ImageValues)

def storedEntry (row : EntryRow) : Except Refusal Json :=
  match row.entryCanonicalJson with
  | none => .ok (row.entryJson.getD .null)
  | some original =>
    match Json.loads rt.floats original with
    | none => .error (.conflict .integrityMismatch)
    | some entry =>
      if canonicalText entry = original then .ok entry
      else .error (.conflict .integrityMismatch)

/-- The structured bytes of a row and its entry with the images put back. -/
def verifyRow (row : EntryRow) : Except Refusal (Nat × Json) := do
  let entry ← storedEntry rt row
  let bytes ← providerEntryJsonBytes entry
  if row.imageReferences = [] then .ok (bytes, entry)
  else do
    ensure (row.imageFormat = some providerMediaFormat ∧ row.entryCanonicalJson ≠ none)
      (.conflict .integrityMismatch)
    let entry ← restoreProviderImages rt values entry row.imageReferences
    .ok (bytes, entry)

def isNormalPath (path : String) : Bool :=
  match normalizeProviderSubpath rt.unicode (some path) with
  | .ok normalized => normalized.getD "" = path
  | .error _ => false

def ambiguousRows (rows : List EntryRow) : Bool :=
  rows.any fun row =>
    row.entryCanonicalJson = none && hasAmbiguousLegacyNumber (row.entryJson.getD .null)

/-- The rows a receipt covers, verified, with their transcript and structured bytes. -/
def verifyReceipt (nextSequence : Nat) (rows : List EntryRow) (expected : Nat)
    (receipt : AppendReceipt) : Except Refusal (List EntryRow × Nat × Nat) := do
  ensure (1 ≤ receipt.entryCount ∧ receipt.expectedSequence = expected ∧
    receipt.lastSequence = expected + receipt.entryCount - 1 ∧
    receipt.lastSequence < nextSequence) (.conflict .integrityMismatch)
  let batchRows := (rows.drop (expected - 1)).take receipt.entryCount
  let path := (batchRows.head?.map EntryRow.subpath).getD ""
  ensure (isNormalPath rt path = true ∧ ∀ row ∈ batchRows, row.subpath = path)
    (.conflict .integrityMismatch)
  let checked ← batchRows.mapM (verifyRow rt values)
  let entries := checked.map Prod.snd
  let (batch, batchBytes) ← normalizeProviderEntryBatch rt.unicode entries (some path)
  ensure (batch.map ProviderSessionEntry.entry = entries) (.conflict .integrityMismatch)
  ensure (batchDigest rt path (batch.map ProviderSessionEntry.entry) = receipt.batchSha256)
    (.conflict (if ambiguousRows batchRows then .integrityUnavailable else .integrityMismatch))
  .ok (batchRows.zipWith (fun row item => { row with entryJson := some item.entry }) batch,
    batchBytes, (checked.map Prod.fst).sum)

def verifyReceipts (nextSequence : Nat) (rows : List EntryRow) :
    Nat → List AppendReceipt → Except Refusal (List EntryRow × Nat × Nat × Nat)
  | expected, [] => .ok ([], expected, 0, 0)
  | expected, receipt :: receipts => do
    let (verified, bytes, structured) ← verifyReceipt rt values nextSequence rows expected receipt
    let (rest, expected, restBytes, restStructured) ←
      verifyReceipts nextSequence rows (expected + receipt.entryCount) receipts
    .ok (verified ++ rest, expected, bytes + restBytes, structured + restStructured)

/-- `verify_provider_ledger` on what `read_provider_ledger` returns. When it goes through the
receipts cover every row, so the rows it returns are those of all receipts in order. -/
def verifyProviderLedger (epoch : Epoch) : Except Refusal (List EntryRow) := do
  let (rows, receipts) := readProviderLedger epoch
  ensure (rows.length ≤ maxProviderSessionEntries) (.conflict .transcriptTooLarge)
  ensure (epoch.entryCount = rows.length ∧ epoch.nextSequence = rows.length + 1 ∧
    rows.map EntryRow.sequence = List.range' 1 rows.length) (.conflict .integrityMismatch)
  let (verified, expected, totalBytes, structuredBytes) ←
    asMismatch (verifyReceipts rt values epoch.nextSequence rows 1 receipts)
  ensure (expected = epoch.nextSequence) (.conflict .integrityUnavailable)
  ensure (structuredBytes = epoch.structuredBytes ∧ totalBytes = epoch.transcriptBytes)
    (.conflict .integrityMismatch)
  .ok verified

end Verify

/-! ## Appending -/

/-- The append callback as its contract lets it in. -/
structure AppendRequest (rt : Runtime) where
  subpath : Option String
  entries : List Json
  expectedSequence : Nat
  subpath_length : ∀ path ∈ subpath, path.length ≤ maxProviderSessionSubpathLength
  isObject : ∀ entry ∈ entries, ∃ members, entry = .obj members
  proper : ∀ entry ∈ entries, entry.Proper rt.floats
  ne_nil : entries ≠ []
  length_le : entries.length ≤ maxProviderSessionBatchCount
  expected_pos : 1 ≤ expectedSequence

/-- The entries without their images, and the references that stand for these. -/
structure ProviderMediaProjection (rt : Runtime) where
  entries : List Json
  references : List (List ImageReference)
  proper : ∀ entry ∈ entries, entry.Proper rt.floats

structure ProviderMediaTransfer (rt : Runtime) where
  projection : Option (ProviderMediaProjection rt)
  values : ImageValues

/-- One call of the callback. `owner` is what the checks on the caller conclude (session, head,
attempt, lease, writer, turn and media snapshot), absent when they raise; `commits` says whether the
database takes the transaction. -/
structure AppendCall (rt : Runtime) where
  owner : Option Owner
  request : AppendRequest rt
  media : Option (ProviderMediaTransfer rt)
  commits : Bool

structure AppendReply where
  entryCount : Nat
  lastSequence : Nat
  nextSequence : Nat
  deriving DecidableEq, Repr

def matchingAppendReceipt (epoch : Epoch) (expectedSequence : Nat) (digest : String) (count : Nat)
    (owner : Owner) : Except Refusal (Option AppendReceipt) :=
  if expectedSequence < 1 then .error (.conflict .appendSequenceInvalid)
  else if expectedSequence = epoch.nextSequence then .ok none
  else
    match epoch.receipts.find? fun receipt => receipt.expectedSequence = expectedSequence with
    | none => .error (.conflict .appendConflict)
    | some previous =>
      if previous.batchSha256 = digest ∧ previous.entryCount = count ∧ previous.owner = owner then
        .ok (some previous)
      else .error (.conflict .appendConflict)

def checkAppendCapacity (epoch : Epoch) (count batchBytes : Nat) : Except Refusal Unit :=
  ensure (epoch.entryCount + count ≤ maxProviderSessionEntries ∧
    epoch.transcriptBytes + batchBytes ≤ maxProviderSessionTranscriptBytes)
    (.conflict .transcriptTooLarge)

/-- `except ValueError as exc: raise ProviderSessionConflictError(str(exc))` -/
def asConflict {α : Type} : Except Refusal α → Except Refusal α
  | .error (.continuity code) => .error (.conflict code)
  | result => result

/-- An entry of the batch, what is stored of it, and its references. -/
structure StoredEntry where
  original : Json
  stored : Json
  references : List ImageReference
  deriving DecidableEq

def checkStoredEntry (rt : Runtime) (values : ImageValues) (item : StoredEntry) :
    Except Refusal Nat := do
  let restored ← restoreProviderImages rt values item.stored item.references
  ensure (canonicalText restored = canonicalText item.original) (.conflict .integrityMismatch)
  let size ← providerEntryJsonBytes item.stored
  ensure (size ≤ maxProviderSessionStructuredEntryBytes) (.conflict .entryTooLarge)
  .ok size

def StoredEntry.row (u : Unicode) (path : String) (sequence : Nat) (item : StoredEntry) :
    EntryRow where
  sequence := sequence
  subpath := path
  sdkEntryUuid := entryUuid u item.original
  entryJson := none
  entryCanonicalJson := some (canonicalText item.stored)
  imageReferences := item.references
  imageFormat := if item.references = [] then none else some providerMediaFormat

/-- The rows of the entries, each under its path, numbered from `sequence` on. -/
def entryRows (u : Unicode) : Nat → List (String × StoredEntry) → List EntryRow
  | _, [] => []
  | sequence, (path, item) :: rest => item.row u path sequence :: entryRows u (sequence + 1) rest

/-- `uq_provider_entry_sdk_uuid`: no id twice under one path. -/
def uniqueUuids (rows : List EntryRow) : Bool :=
  decide ((rows.filter fun row => row.sdkEntryUuid ≠ none).map
    fun row => (row.subpath, row.sdkEntryUuid)).Nodup

/-- The entries as they are to be stored, paired with the batch. -/
def storedEntries {rt : Runtime} (media : Option (ProviderMediaTransfer rt))
    (batch : List ProviderSessionEntry) : Except Refusal (List StoredEntry) := do
  let projection := media.bind ProviderMediaTransfer.projection
  let stored := (projection.map ProviderMediaProjection.entries).getD
    (batch.map ProviderSessionEntry.entry)
  let references := (projection.map ProviderMediaProjection.references).getD
    (batch.map fun _ => [])
  ensure (stored.length = batch.length ∧ references.length = batch.length)
    (.conflict .integrityMismatch)
  .ok ((batch.zip (stored.zip references)).map fun entry =>
    ⟨entry.1.entry, entry.2.1, entry.2.2⟩)

/-- `normalize_provider_subpath(subpath) or ""` -/
def requestPath (rt : Runtime) (subpath : Option String) : Except Refusal String := do
  let normalized ← normalizeProviderSubpath rt.unicode subpath
  .ok (normalized.getD "")

def mediaValues {rt : Runtime} (media : Option (ProviderMediaTransfer rt)) : ImageValues :=
  (media.map ProviderMediaTransfer.values).getD []

section Append

variable (rt : Runtime)

/-- The part of the callback that follows once no receipt matched. -/
def insertBatch (epoch : Epoch) (images : ImageValues) (owner : Owner) (call : AppendCall rt)
    (path : String) (batch : List ProviderSessionEntry) (batchBytes : Nat) :
    Except Refusal (AppendReply × Epoch × ImageValues) := do
  let items ← storedEntries call.media batch
  let sizes ← items.mapM (checkStoredEntry rt (mediaValues call.media))
  checkAppendCapacity epoch batch.length batchBytes
  let expected := call.request.expectedSequence
  let last := expected + batch.length - 1
  let rows := epoch.rows ++ entryRows rt.unicode expected (items.map fun item => (path, item))
  -- Image ids are primary keys, as are (epoch, sequence) and the ids of the SDK within a path.
  ensure (call.commits = true ∧ uniqueUuids rows = true ∧
    (∀ image ∈ mediaValues call.media, images.lookup image.1 = none)) (.conflict .aborted)
  .ok (⟨batch.length, last, last + 1⟩,
    { nextSequence := last + 1
      entryCount := epoch.entryCount + batch.length
      transcriptBytes := epoch.transcriptBytes + batchBytes
      structuredBytes := epoch.structuredBytes + sizes.sum
      rows := rows
      receipts := epoch.receipts ++ [⟨expected,
        batchDigest rt path (batch.map ProviderSessionEntry.entry), batch.length, last, owner⟩] },
    images ++ mediaValues call.media)

/-- `callback_provider_epoch` with the action `append`. -/
def callbackAppend (epoch : Epoch) (images : ImageValues) (call : AppendCall rt) :
    Except Refusal (AppendReply × Epoch × ImageValues) :=
  match call.owner with
  | none => .error (.conflict .fenced)
  | some owner => do
    let path ← requestPath rt call.request.subpath
    let (batch, batchBytes) ←
      asConflict (normalizeProviderEntryBatch rt.unicode call.request.entries (some path))
    let digest := batchDigest rt path (batch.map ProviderSessionEntry.entry)
    let previous ←
      matchingAppendReceipt epoch call.request.expectedSequence digest batch.length owner
    match previous with
    | some previous =>
      .ok (⟨batch.length, previous.lastSequence, epoch.nextSequence⟩, epoch, images)
    | none => insertBatch rt epoch images owner call path batch batchBytes

end Append

/-! ## Resuming natively -/

inductive RecoveryState where
  | resumable
  | recoveryCandidate
  | blocked
  deriving DecidableEq, Repr

/-- The recovery receipt of the source epoch, as far as the copy reads it. -/
structure Recovery where
  state : RecoveryState
  ofEpoch : Bool
  workspaceSaved : Bool
  finalSequence : Option Int
  confirmedEntryCount : Option Int
  confirmedTranscriptBytes : Option Int
  deriving DecidableEq, Repr

def providerRestoreSize (epoch : Epoch) (recovery : Option Recovery) : Int × Int :=
  match recovery with
  | some recovery =>
    if recovery.state = .resumable ∨ recovery.state = .recoveryCandidate then
      (recovery.confirmedEntryCount.getD epoch.entryCount,
        recovery.confirmedTranscriptBytes.getD epoch.transcriptBytes)
    else (epoch.entryCount, epoch.transcriptBytes)
  | none => (epoch.entryCount, epoch.transcriptBytes)

section Resume

variable (rt : Runtime)

/-- Restore only at a complete ACK boundary after verifying the whole ledger. Where rows refer to
images the verification was made just before, against the same rows; `proved` says that this proof
is at hand and still fits. -/
def verifiedProviderPrefix (images : ImageValues) (epoch : Epoch) (proved : Bool)
    (finalSequence : Int) : Except Refusal (List EntryRow × Nat) := do
  let (rows, receipts) := readProviderLedger epoch
  let hasImages := rows.any fun row => !row.imageReferences.isEmpty
  ensure (hasImages = true → proved = true) (.conflict .fenced)
  let verified ← verifyProviderLedger rt images epoch
  ensure (0 ≤ finalSequence ∧ finalSequence < epoch.nextSequence)
    (.conflict .terminalReceiptInvalid)
  ensure (finalSequence = 0 ∨ ∃ receipt ∈ receipts, (receipt.lastSequence : Int) = finalSequence)
    (.conflict .terminalReceiptInvalid)
  let entries := (verified.take finalSequence.toNat).map fun row => row.entryJson.getD .null
  let total := (entries.map fun entry =>
    if hasImages then entry.size else Json.utf8Length (canonicalText entry)).sum
  .ok (rows.take finalSequence.toNat, total)

/-- The copy `prepare_provider_epoch` makes when there is an epoch to go on from. `available` stands
for its checks on the head, the writer and the covered source. -/
def resumeProviderEpoch (images : ImageValues) (source : Epoch) (recovery : Option Recovery)
    (available proved : Bool) : Except Refusal Epoch := do
  let (restoreCount, restoreBytes) := providerRestoreSize source recovery
  ensure (available = true ∧ 0 ≤ restoreCount ∧
    restoreCount ≤ maxProviderSessionEntries - 128 ∧ 0 ≤ restoreBytes ∧
    restoreBytes ≤ maxProviderSessionTranscriptBytes -
      providerSessionNativeResumeTranscriptReserveBytes)
    (.conflict .requiresNewConversation)
  ensure (∀ receipt ∈ recovery, receipt.ofEpoch = true ∧ receipt.workspaceSaved = true)
    (.conflict .nativeUnavailable)
  let finalSequence :=
    (recovery.bind Recovery.finalSequence).getD ((source.nextSequence : Int) - 1)
  let (rows, bytes) ← verifiedProviderPrefix rt images source proved finalSequence
  ensure ((rows.length : Int) = restoreCount ∧ (bytes : Int) = restoreBytes)
    (.conflict .integrityMismatch)
  .ok
    { nextSequence := finalSequence.toNat + 1
      entryCount := rows.length
      transcriptBytes := bytes
      structuredBytes := (rows.map EntryRow.storedBytes).sum
      rows := source.rows.filter fun row => (row.sequence : Int) ≤ finalSequence
      receipts := source.receipts.filter fun receipt =>
        (receipt.lastSequence : Int) ≤ finalSequence }

end Resume

/-! ## Histories -/

/-- An append as it was acknowledged the first time. -/
structure Accepted where
  expectedSequence : Nat
  lastSequence : Nat
  path : String
  entries : List Json
  owner : Owner
  deriving DecidableEq

/-- An epoch, with the appends that were acknowledged in it or in the part it was copied from. -/
structure EpochRecord where
  epoch : Epoch
  accepted : List Accepted
  deriving DecidableEq

/-- What was acknowledged, in the order of acknowledgement. -/
def acknowledged (accepted : List Accepted) : List (String × Json) :=
  accepted.flatMap fun append => append.entries.map fun entry => (append.path, entry)

/-- The epochs of a scope in the order of their creation, and the images their rows refer to. -/
structure ProviderStore where
  epochs : List EpochRecord
  images : ImageValues
  deriving DecidableEq

inductive ProviderLabel (rt : Runtime) where
  /-- `empty_start` -/
  | start
  | append (epoch : Nat) (call : AppendCall rt)
  /-- `native_resume` -/
  | resume (source : Nat) (recovery : Option Recovery) (available proved : Bool)

section History

variable (rt : Runtime)

/-- An acknowledgement of a sequence that was acknowledged before records nothing. -/
def recordAccepted (accepted : List Accepted) (call : AppendCall rt) (reply : AppendReply) :
    List Accepted :=
  let request := call.request
  match call.owner, requestPath rt request.subpath with
  | some owner, .ok path =>
    if accepted.any fun append => append.expectedSequence = request.expectedSequence then accepted
    else accepted ++
      [⟨request.expectedSequence, reply.lastSequence, path, request.entries, owner⟩]
  | _, _ => accepted

namespace ProviderStore

/-- The callback on one epoch of the store: its answer, and the store it leaves. -/
def callback (store : ProviderStore) (epoch : Nat) (call : AppendCall rt) :
    Option (Except Refusal AppendReply) × ProviderStore :=
  match store.epochs[epoch]? with
  | none => (none, store)
  | some record =>
    match callbackAppend rt record.epoch store.images call with
    | .error refusal => (some (.error refusal), store)
    | .ok (reply, next, images) =>
      (some (.ok reply),
        { epochs := store.epochs.set epoch ⟨next, recordAccepted rt record.accepted call reply⟩
          images := images })

def resume (store : ProviderStore) (source : Nat) (recovery : Option Recovery)
    (available proved : Bool) : ProviderStore :=
  match store.epochs[source]? with
  | none => store
  | some record =>
    match resumeProviderEpoch rt store.images record.epoch recovery available proved with
    | .error _ => store
    | .ok copy =>
      { store with
        epochs := store.epochs ++
          [⟨copy, record.accepted.filter fun append => append.lastSequence < copy.nextSequence⟩] }

def step (store : ProviderStore) : ProviderLabel rt → ProviderStore
  | .start => { store with epochs := store.epochs ++ [⟨.empty, []⟩] }
  | .append epoch call => (store.callback rt epoch call).2
  | .resume source recovery available proved => store.resume rt source recovery available proved

end ProviderStore

def providerSessions : Machine ProviderStore (ProviderLabel rt) where
  start := ⟨[], []⟩
  step := ProviderStore.step rt

end History

end AiPlatform.Context
