import AiPlatform.Foundation.JsonRoundTrip
import AiPlatform.Foundation.Outcome
import AiPlatform.Kernel.Unicode

/-!
# Entries of a provider session

The checks an entry and a batch of entries pass before they are stored: their shape, their sizes,
the id the SDK gave them and the path they belong to. Sizes are those of the compact text.
-/
namespace AiPlatform.Context

open AiPlatform.Foundation AiPlatform.Kernel

def maxProviderSessionBatchCount : Nat := 128
def maxProviderSessionEntryBytes : Nat := 16 * 1024 * 1024
def maxProviderSessionBatchBytes : Nat := 32 * 1024 * 1024
def maxProviderSessionTranscriptBytes : Nat := 64 * 1024 * 1024
def providerSessionNativeResumeTranscriptReserveBytes : Nat := 16 * 1024 * 1024
def maxProviderSessionStructuredEntryBytes : Nat := 256 * 1024
def maxProviderSessionEntries : Nat := 4096
def maxProviderSessionSubpathLength : Nat := 512
def maxProviderSessionEntryUuidLength : Nat := 128

/-- The codes errors carry, each `provider_session_` and the name here. -/
inductive ErrorCode where
  | subpathTooLong
  | entryShapeInvalid
  | entryTooLarge
  | entryUuidTooLong
  | entryUuidInvalid
  | entryBatchInvalid
  | entryBatchTooLarge
  | imageUnavailable
  | integrityMismatch
  | integrityUnavailable
  | transcriptTooLarge
  | appendSequenceInvalid
  | appendConflict
  | terminalReceiptInvalid
  | requiresNewConversation
  | nativeUnavailable
  /-- Raised by the checks on the caller: session, head, writer, turn, media snapshot. -/
  | fenced
  /-- The transaction did not commit. -/
  | aborted
  deriving DecidableEq, Repr

/-- `ProviderSessionConflictError`, or its base class `ProviderSessionContinuityError`. -/
inductive Refusal where
  | conflict (code : ErrorCode)
  | continuity (code : ErrorCode)
  deriving DecidableEq, Repr

/-! ## Paths -/

section Normalization

variable (u : Unicode)

def normalizeProviderSubpath (subpath : Option String) : Except Refusal (Option String) :=
  match subpath with
  | none => .ok none
  | some subpath =>
    if strip u subpath = "" then .ok none
    else if maxProviderSessionSubpathLength < (strip u subpath).length then
      .error (.continuity .subpathTooLong)
    else .ok (some (strip u subpath))

/-! ## Entries -/

/-- A validated opaque SDK entry and its optional SDK id. -/
structure ProviderSessionEntry where
  entry : Json
  sdkEntryUuid : Option String
  subpath : Option String
  deriving DecidableEq

def providerEntryJsonBytes (entry : Json) : Except Refusal Nat :=
  match entry with
  | .obj members => .ok (Json.size (.obj members))
  | _ => .error (.continuity .entryShapeInvalid)

def sdkEntryUuid (entry : Json) : Except Refusal (Option String) :=
  match entry.get? "uuid" with
  | none | some .null => .ok none
  | some (.str raw) =>
    if raw = "" then .ok none
    else if strip u raw = "" then .error (.continuity .entryUuidInvalid)
    else if maxProviderSessionEntryUuidLength < (strip u raw).length then
      .error (.continuity .entryUuidTooLong)
    else .ok (some (strip u raw))
  | some _ => .error (.continuity .entryUuidInvalid)

def normalizeProviderEntry (subpath : Option String) (entry : Json) :
    Except Refusal ProviderSessionEntry := do
  let entryBytes ← providerEntryJsonBytes entry
  ensure (entryBytes ≤ maxProviderSessionEntryBytes) (.continuity .entryTooLarge)
  let uuid ← sdkEntryUuid u entry
  let subpath ← normalizeProviderSubpath u subpath
  .ok ⟨entry, uuid, subpath⟩

/-- The loop of `normalize_provider_entry_batch`, from the bytes counted so far. -/
def normalizeEntries (subpath : Option String) (totalBytes : Nat) :
    List Json → Except Refusal (List ProviderSessionEntry × Nat)
  | [] => .ok ([], totalBytes)
  | entry :: rest => do
    let item ← normalizeProviderEntry u subpath entry
    let entryBytes ← providerEntryJsonBytes item.entry
    ensure (totalBytes + entryBytes ≤ maxProviderSessionBatchBytes)
      (.continuity .entryBatchTooLarge)
    let (items, totalBytes) ← normalizeEntries subpath (totalBytes + entryBytes) rest
    .ok (item :: items, totalBytes)

def normalizeProviderEntryBatch (entries : List Json) (subpath : Option String) :
    Except Refusal (List ProviderSessionEntry × Nat) := do
  ensure (entries ≠ []) (.continuity .entryBatchInvalid)
  ensure (entries.length ≤ maxProviderSessionBatchCount) (.continuity .entryBatchTooLarge)
  let subpath ← normalizeProviderSubpath u subpath
  normalizeEntries u subpath 0 entries

end Normalization

/-! ## What the checks let through -/

section Specification

variable {u : Unicode}

/-- A path as the ledger keeps it: stripped, `""` for the main transcript. -/
structure NormalPath (u : Unicode) (path : String) : Prop where
  strip_eq : strip u path = path
  length_le : path.length ≤ maxProviderSessionSubpathLength

/-- `path or None` -/
def optionalPath (path : String) : Option String :=
  if path = "" then none else some path

variable {path : String} {subpath : Option String}

theorem NormalPath.normalize (h : NormalPath u path) :
    normalizeProviderSubpath u (some path) = .ok (optionalPath path) := by
  simp only [normalizeProviderSubpath, h.strip_eq, optionalPath, not_lt.mpr h.length_le, if_false]
  split_ifs <;> rfl

theorem NormalPath.normalize_optional (h : NormalPath u path) :
    normalizeProviderSubpath u (optionalPath path) = .ok (optionalPath path) := by
  by_cases hempty : path = ""
  · simp [optionalPath, hempty, normalizeProviderSubpath]
  · have hsome : optionalPath path = some path := if_neg hempty
    rw [hsome, h.normalize, hsome]

/-- `normalize_provider_subpath(subpath) or ""` is a path as the ledger keeps it. -/
theorem normalPath_of_normalize {normalized : Option String}
    (h : normalizeProviderSubpath u subpath = .ok normalized) :
    NormalPath u (normalized.getD "") := by
  have hempty : strip u "" = "" := by rfl
  unfold normalizeProviderSubpath at h
  split at h
  · obtain rfl := Except.ok.inj h
    exact ⟨hempty, by decide⟩
  · split_ifs at h with hblank hlong
    · obtain rfl := Except.ok.inj h
      exact ⟨hempty, by decide⟩
    · obtain rfl := Except.ok.inj h
      exact ⟨strip_strip _, not_lt.mp hlong⟩

structure ValidEntry (u : Unicode) (entry : Json) : Prop where
  isObject : ∃ members, entry = .obj members
  size_le : entry.size ≤ maxProviderSessionEntryBytes
  uuid : ∃ id, sdkEntryUuid u entry = .ok id

/-- The id a valid entry is stored under. -/
def entryUuid (u : Unicode) (entry : Json) : Option String :=
  match sdkEntryUuid u entry with
  | .ok id => id
  | .error _ => none

theorem providerEntryJsonBytes_eq_ok {entry : Json} {bytes : Nat} :
    providerEntryJsonBytes entry = .ok bytes ↔
      (∃ members, entry = .obj members) ∧ bytes = entry.size := by
  cases entry with
  | obj members => simp [providerEntryJsonBytes, eq_comm]
  | _ => simp [providerEntryJsonBytes]

theorem normalizeProviderEntry_eq_ok {entry : Json} {item : ProviderSessionEntry}
    (hpath : normalizeProviderSubpath u subpath = .ok subpath) :
    normalizeProviderEntry u subpath entry = .ok item ↔
      ValidEntry u entry ∧ item = ⟨entry, entryUuid u entry, subpath⟩ := by
  constructor
  · intro h
    obtain ⟨bytes, hbytes, h⟩ := bind_eq_ok.mp h
    obtain ⟨hobject, rfl⟩ := providerEntryJsonBytes_eq_ok.mp hbytes
    obtain ⟨hsize, h⟩ := ensure_bind_eq_ok.mp h
    obtain ⟨id, hid, h⟩ := bind_eq_ok.mp h
    rw [hpath, ok_bind] at h
    exact ⟨⟨hobject, hsize, id, hid⟩, by simpa [entryUuid, hid, eq_comm] using h⟩
  · rintro ⟨⟨hobject, hsize, id, hid⟩, rfl⟩
    have hbytes := providerEntryJsonBytes_eq_ok.mpr ⟨hobject, rfl⟩
    simp only [normalizeProviderEntry, hbytes, ok_bind, ensure_of hsize, hid, hpath, entryUuid]

theorem normalizeEntries_eq_ok {entries : List Json} {items : List ProviderSessionEntry}
    {before total : Nat} (hpath : normalizeProviderSubpath u subpath = .ok subpath)
    (hbefore : before ≤ maxProviderSessionBatchBytes) :
    normalizeEntries u subpath before entries = .ok (items, total) ↔
      (∀ entry ∈ entries, ValidEntry u entry) ∧ total ≤ maxProviderSessionBatchBytes ∧
        items = entries.map (fun entry => ⟨entry, entryUuid u entry, subpath⟩) ∧
        total = before + (entries.map Json.size).sum := by
  induction entries generalizing before items total with
  | nil =>
    simp only [normalizeEntries, Except.ok.injEq, Prod.mk.injEq]
    constructor
    · rintro ⟨rfl, rfl⟩
      exact ⟨by simp, hbefore, rfl, rfl⟩
    · rintro ⟨-, -, rfl, rfl⟩
      exact ⟨rfl, rfl⟩
  | cons entry rest ih =>
    constructor
    · intro h
      obtain ⟨item, hitem, h⟩ := bind_eq_ok.mp h
      obtain ⟨hentry, rfl⟩ := (normalizeProviderEntry_eq_ok hpath).mp hitem
      obtain ⟨bytes, hbytes, h⟩ := bind_eq_ok.mp h
      obtain ⟨-, rfl⟩ := providerEntryJsonBytes_eq_ok.mp hbytes
      obtain ⟨hfits, h⟩ := ensure_bind_eq_ok.mp h
      obtain ⟨⟨restItems, restTotal⟩, hrest, h⟩ := bind_eq_ok.mp h
      obtain ⟨rfl, rfl⟩ := Prod.mk.inj (Except.ok.inj h)
      obtain ⟨hvalid, htotal, rfl, rfl⟩ := (ih hfits).mp hrest
      exact ⟨List.forall_mem_cons.mpr ⟨hentry, hvalid⟩, htotal, rfl,
        by simp [Nat.add_assoc]⟩
    · rintro ⟨hvalid, htotal, rfl, rfl⟩
      obtain ⟨hentry, hvalid⟩ := List.forall_mem_cons.mp hvalid
      simp only [List.map_cons, List.sum_cons] at htotal
      have hfits : before + entry.size ≤ maxProviderSessionBatchBytes := by omega
      have hitem := (normalizeProviderEntry_eq_ok hpath).mpr ⟨hentry, rfl⟩
      have hbytes := providerEntryJsonBytes_eq_ok.mpr ⟨hentry.isObject, rfl⟩
      have hrest := (ih hfits).mpr ⟨hvalid, by omega, rfl, rfl⟩
      simp only [normalizeEntries, hitem, ok_bind, hbytes, ensure_of hfits, hrest, List.map_cons,
        List.sum_cons, Nat.add_assoc]

structure ValidBatch (u : Unicode) (entries : List Json) : Prop where
  ne_nil : entries ≠ []
  length_le : entries.length ≤ maxProviderSessionBatchCount
  valid : ∀ entry ∈ entries, ValidEntry u entry
  bytes_le : (entries.map Json.size).sum ≤ maxProviderSessionBatchBytes

theorem normalizeProviderEntryBatch_eq_ok {entries : List Json} {items : List ProviderSessionEntry}
    {total : Nat} (hpath : NormalPath u path) :
    normalizeProviderEntryBatch u entries (some path) = .ok (items, total) ↔
      ValidBatch u entries ∧
        items = entries.map (fun entry => ⟨entry, entryUuid u entry, optionalPath path⟩) ∧
        total = (entries.map Json.size).sum := by
  have hspec : normalizeEntries u (optionalPath path) 0 entries = .ok (items, total) ↔ _ :=
    normalizeEntries_eq_ok hpath.normalize_optional (Nat.zero_le _)
  constructor
  · intro h
    obtain ⟨hne, h⟩ := ensure_bind_eq_ok.mp h
    obtain ⟨hlength, h⟩ := ensure_bind_eq_ok.mp h
    rw [hpath.normalize, ok_bind] at h
    obtain ⟨hvalid, htotal, hitems, hsum⟩ := hspec.mp h
    rw [Nat.zero_add] at hsum
    exact ⟨⟨hne, hlength, hvalid, hsum ▸ htotal⟩, hitems, hsum⟩
  · rintro ⟨hbatch, hitems, htotal⟩
    have h := hspec.mpr ⟨hbatch.valid, htotal ▸ hbatch.bytes_le, hitems, by rw [htotal]; simp⟩
    rw [normalizeProviderEntryBatch, ensure_of hbatch.ne_nil, ok_bind,
      ensure_of hbatch.length_le, ok_bind, hpath.normalize, ok_bind, h]

end Specification

end AiPlatform.Context
