import AiPlatform.Context.ProviderEpochs

/-!
# Epochs as lists of acknowledged batches

Rows, receipts and counters of an epoch are three accounts of one thing: the batches that were
acknowledged, in order. `Represents` says that an epoch is the account of a list of batches, and
that every batch still restores to what was acknowledged. Such an epoch passes
`verifyProviderLedger` whatever the batches are, an append adds a batch to the list, and a copy of
an acknowledged part keeps the first batches of it.
-/
namespace AiPlatform.Context

open AiPlatform.Foundation AiPlatform.Kernel List

/-! ## Batches -/

structure Batch where
  path : String
  items : List StoredEntry
  owner : Owner

namespace Batch

def originals (b : Batch) : List Json :=
  b.items.map StoredEntry.original

def flat (batches : List Batch) : List (String × StoredEntry) :=
  batches.flatMap fun b => b.items.map fun item => (b.path, item)

def receipt (rt : Runtime) (start : Nat) (b : Batch) : AppendReceipt where
  expectedSequence := start
  batchSha256 := batchDigest rt b.path b.originals
  entryCount := b.items.length
  lastSequence := start + b.items.length - 1
  owner := b.owner

def append (start : Nat) (b : Batch) : Accepted where
  expectedSequence := start
  lastSequence := start + b.items.length - 1
  path := b.path
  entries := b.originals
  owner := b.owner

/-- Every batch with the sequence of its first entry. -/
def numbered : Nat → List Batch → List (Nat × Batch)
  | _, [] => []
  | start, b :: batches => (start, b) :: numbered (start + b.items.length) batches

def receipts (rt : Runtime) (start : Nat) (batches : List Batch) : List AppendReceipt :=
  (numbered start batches).map fun p => p.2.receipt rt p.1

def appends (start : Nat) (batches : List Batch) : List Accepted :=
  (numbered start batches).map fun p => p.2.append p.1

end Batch

structure StoredEntry.Restorable (rt : Runtime) (images : ImageValues) (item : StoredEntry) :
    Prop where
  original_proper : item.original.Proper rt.floats
  stored_proper : item.stored.Proper rt.floats
  stored_object : ∃ members, item.stored = .obj members
  restores : ∃ restored, restoreProviderImages rt images item.stored item.references =
    .ok restored ∧ Json.canonical restored = Json.canonical item.original

structure Batch.Valid (rt : Runtime) (images : ImageValues) (b : Batch) : Prop where
  path : NormalPath rt.unicode b.path
  entries : ValidBatch rt.unicode b.originals
  restorable : ∀ item ∈ b.items, item.Restorable rt images

/-- The epoch and its acknowledged appends are the account of these batches. -/
structure Represents (rt : Runtime) (images : ImageValues) (record : EpochRecord)
    (batches : List Batch) : Prop where
  valid : ∀ b ∈ batches, b.Valid rt images
  rows : record.epoch.rows = entryRows rt.unicode 1 (Batch.flat batches)
  receipts : record.epoch.receipts = Batch.receipts rt 1 batches
  accepted : record.accepted = Batch.appends 1 batches
  nextSequence : record.epoch.nextSequence = (Batch.flat batches).length + 1
  entryCount : record.epoch.entryCount = (Batch.flat batches).length
  transcriptBytes : record.epoch.transcriptBytes =
    ((Batch.flat batches).map fun e => e.2.original.size).sum
  structuredBytes : record.epoch.structuredBytes =
    ((Batch.flat batches).map fun e => e.2.stored.size).sum
  length_le : (Batch.flat batches).length ≤ maxProviderSessionEntries

/-! ## Rows -/

section Rows

variable {u : Unicode}

@[simp] theorem length_entryRows (start : Nat) (entries : List (String × StoredEntry)) :
    (entryRows u start entries).length = entries.length := by
  induction entries generalizing start with
  | nil => rfl
  | cons e entries ih => simp [entryRows, ih]

theorem entryRows_append (start : Nat) (entries more : List (String × StoredEntry)) :
    entryRows u start (entries ++ more) =
      entryRows u start entries ++ entryRows u (start + entries.length) more := by
  induction entries generalizing start with
  | nil => rfl
  | cons e entries ih =>
    simp only [cons_append, entryRows, ih, length_cons]
    rw [Nat.add_assoc, Nat.add_comm 1]

theorem map_sequence_entryRows (start : Nat) (entries : List (String × StoredEntry)) :
    (entryRows u start entries).map EntryRow.sequence = List.range' start entries.length := by
  induction entries generalizing start with
  | nil => rfl
  | cons e entries ih => simp [entryRows, ih, StoredEntry.row, range'_succ]

theorem map_subpath_entryRows (start : Nat) (entries : List (String × StoredEntry)) :
    (entryRows u start entries).map EntryRow.subpath = entries.map Prod.fst := by
  induction entries generalizing start with
  | nil => rfl
  | cons e entries ih => simp [entryRows, ih, StoredEntry.row]

end Rows

/-! ## Sorted entries pass the same checks -/

section Canonical

variable {rt : Runtime}

theorem canonicalText_canonical (j : Json) :
    canonicalText (Json.canonical j) = canonicalText j := by
  rw [canonicalText, Json.canonical_canonical, canonicalText]

theorem canonical_object {j : Json} (h : ∃ members, j = .obj members) :
    ∃ members, Json.canonical j = .obj members := by
  obtain ⟨members, rfl⟩ := h
  exact ⟨_, Json.canonical_obj members⟩

variable {u : Unicode} {fmt : FloatFormat}

theorem sdkEntryUuid_canonical {entry : Json} (h : entry.Proper fmt) :
    sdkEntryUuid u (Json.canonical entry) = sdkEntryUuid u entry := by
  rw [sdkEntryUuid, sdkEntryUuid, Json.get?_canonical h]
  cases entry.get? "uuid" with
  | none => rfl
  | some raw =>
    cases raw with
    | arr items => simp [Json.canonical_arr]
    | obj members => simp [Json.canonical_obj]
    | _ => rfl

theorem ValidEntry.canonical {entry : Json} (h : ValidEntry u entry) (hproper : entry.Proper fmt) :
    ValidEntry u (Json.canonical entry) where
  isObject := canonical_object h.isObject
  size_le := (Json.size_canonical entry).trans_le h.size_le
  uuid := by
    rw [sdkEntryUuid_canonical hproper]
    exact h.uuid

theorem map_size_canonical (entries : List Json) :
    (entries.map Json.canonical).map Json.size = entries.map Json.size := by
  rw [map_map]
  exact map_congr_left fun entry _ => Json.size_canonical entry

theorem ValidBatch.canonical {entries : List Json} (h : ValidBatch u entries)
    (hproper : ∀ entry ∈ entries, entry.Proper fmt) :
    ValidBatch u (entries.map Json.canonical) where
  ne_nil := by simpa using h.ne_nil
  length_le := by simpa using h.length_le
  valid := by
    intro entry hentry
    obtain ⟨original, horiginal, rfl⟩ := mem_map.mp hentry
    exact (h.valid original horiginal).canonical (hproper original horiginal)
  bytes_le := by
    rw [map_size_canonical]
    exact h.bytes_le

/-- Digests are of sorted texts. -/
theorem batchDigest_canonical (path : String) (entries : List Json) :
    batchDigest rt path (entries.map Json.canonical) = batchDigest rt path entries := by
  have hidem : Json.canonical ∘ Json.canonical = Json.canonical :=
    funext Json.canonical_canonical
  simp only [batchDigest, batchText, canonicalText, Json.canonical_arr, map_cons, map_nil,
    map_map, hidem]

end Canonical

/-! ## Verifying an account -/

section Verify

variable {rt : Runtime} {images : ImageValues}

theorem verifyRow_row {item : StoredEntry} (h : item.Restorable rt images) (path : String)
    (sequence : Nat) :
    verifyRow rt images (item.row rt.unicode path sequence) =
      .ok (item.stored.size, Json.canonical item.original) := by
  obtain ⟨restored, hrestored, hcanonical⟩ := h.restores
  have hloads : Json.loads rt.floats (canonicalText item.stored) =
      some (Json.canonical item.stored) := Json.loads_dumps h.stored_proper.canonical
  have hstored : storedEntry rt (item.row rt.unicode path sequence) =
      .ok (Json.canonical item.stored) := by
    simp only [storedEntry, StoredEntry.row, hloads, canonicalText_canonical, if_true]
  have hbytes : providerEntryJsonBytes (Json.canonical item.stored) = .ok item.stored.size :=
    providerEntryJsonBytes_eq_ok.mpr
      ⟨canonical_object h.stored_object, (Json.size_canonical _).symm⟩
  simp only [verifyRow, hstored, ok_bind, hbytes]
  by_cases hrefs : item.references = []
  · rw [hrefs, restoreProviderImages_nil] at hrestored
    obtain rfl := Except.ok.inj hrestored
    simp [StoredEntry.row, hrefs, hcanonical]
  · have hsorted := (restoreProviderImages_canonical h.stored_proper hrestored).1
    simp only [StoredEntry.row, hrefs, if_false, hsorted, ok_bind, hcanonical]
    rfl

theorem mapM_verifyRow {entries : List (String × StoredEntry)}
    (h : ∀ e ∈ entries, e.2.Restorable rt images) (start : Nat) :
    (entryRows rt.unicode start entries).mapM (verifyRow rt images) =
      .ok (entries.map fun e => (e.2.stored.size, Json.canonical e.2.original)) := by
  induction entries generalizing start with
  | nil => rfl
  | cons e entries ih =>
    obtain ⟨hitem, hentries⟩ := forall_mem_cons.mp h
    rw [entryRows, mapM_cons, verifyRow_row hitem, ok_bind, ih hentries, ok_bind]
    rfl

theorem isNormalPath_of_normalPath {path : String} (h : NormalPath rt.unicode path) :
    isNormalPath rt path = true := by
  rw [isNormalPath, h.normalize, optionalPath]
  split_ifs with hempty <;> simp [hempty]

/-- The rows with the entries the verifier writes into them. -/
def verifiedRows (u : Unicode) (start : Nat) (entries : List (String × StoredEntry)) :
    List EntryRow :=
  (entryRows u start entries).zipWith (fun row entry => { row with entryJson := some entry })
    (entries.map fun e => Json.canonical e.2.original)

theorem verifiedRows_append (u : Unicode) (start : Nat)
    (entries more : List (String × StoredEntry)) :
    verifiedRows u start (entries ++ more) =
      verifiedRows u start entries ++ verifiedRows u (start + entries.length) more := by
  rw [verifiedRows, entryRows_append, map_append, zipWith_append (by simp)]
  rfl

/-- A batch with its path at every entry. -/
def Batch.labelled (b : Batch) : List (String × StoredEntry) :=
  b.items.map fun item => (b.path, item)

variable {b : Batch} {start : Nat}

theorem Batch.Valid.originals_proper (h : b.Valid rt images) :
    ∀ entry ∈ b.originals, entry.Proper rt.floats := by
  intro entry hentry
  obtain ⟨item, hitem, rfl⟩ := mem_map.mp hentry
  exact (h.restorable item hitem).original_proper

theorem Batch.Valid.one_le_length (h : b.Valid rt images) : 1 ≤ b.items.length := by
  have hne : b.originals ≠ [] := h.entries.ne_nil
  exact length_pos_of_ne_nil fun hnil => hne (by simp [Batch.originals, hnil])

theorem Batch.Valid.normalize (h : b.Valid rt images) :
    normalizeProviderEntryBatch rt.unicode (b.originals.map Json.canonical) (some b.path) =
      .ok ((b.originals.map Json.canonical).map fun entry =>
          ⟨entry, entryUuid rt.unicode entry, optionalPath b.path⟩,
        (b.originals.map Json.size).sum) := by
  have hcanonical := h.entries.canonical h.originals_proper
  rw [← map_size_canonical]
  exact (normalizeProviderEntryBatch_eq_ok h.path).mpr ⟨hcanonical, rfl, rfl⟩

theorem subpath_labelled (u : Unicode) (b : Batch) (start : Nat) :
    ∀ row ∈ entryRows u start b.labelled, row.subpath = b.path := by
  intro row hrow
  have hmem := mem_map_of_mem (f := EntryRow.subpath) hrow
  rw [map_subpath_entryRows, Batch.labelled, map_map] at hmem
  obtain ⟨item, -, hitem⟩ := mem_map.mp hmem
  exact hitem.symm

theorem head_subpath_labelled (u : Unicode) (h : 1 ≤ b.items.length) (start : Nat) :
    ((entryRows u start b.labelled).head?.map EntryRow.subpath).getD "" = b.path := by
  rw [Batch.labelled]
  cases hitems : b.items with
  | nil => simp [hitems] at h
  | cons item items => rfl

/-- A receipt verifies against the rows of its batch, wherever in the ledger they stand. -/
theorem verifyReceipt_receipt (h : b.Valid rt images) {next : Nat} {rows more : List EntryRow}
    (hrows : rows.drop (start - 1) = entryRows rt.unicode start b.labelled ++ more)
    (hnext : start + b.items.length ≤ next) :
    verifyReceipt rt images next rows start (b.receipt rt start) =
      .ok (verifiedRows rt.unicode start b.labelled, (b.originals.map Json.size).sum,
        (b.items.map fun item => item.stored.size).sum) := by
  have hpos := h.one_le_length
  have hbatch : (rows.drop (start - 1)).take b.items.length =
      entryRows rt.unicode start b.labelled := by
    rw [hrows, take_left' (by simp [Batch.labelled])]
  have hchecked : (entryRows rt.unicode start b.labelled).mapM (verifyRow rt images) =
      .ok (b.labelled.map fun e => (e.2.stored.size, Json.canonical e.2.original)) :=
    mapM_verifyRow (by simpa [Batch.labelled] using h.restorable) start
  have hentries : (b.labelled.map fun e => (e.2.stored.size, Json.canonical e.2.original)).map
      Prod.snd = b.originals.map Json.canonical := by
    simp [Batch.labelled, Batch.originals]
  have hsizes : (b.labelled.map fun e => (e.2.stored.size, Json.canonical e.2.original)).map
      Prod.fst = b.items.map fun item => item.stored.size := by
    simp [Batch.labelled]
  have hlabelled : (b.labelled.map fun e => Json.canonical e.2.original) =
      b.originals.map Json.canonical := by
    simp [Batch.labelled, Batch.originals]
  have hitems : ((b.originals.map Json.canonical).map fun entry => (⟨entry,
      entryUuid rt.unicode entry, optionalPath b.path⟩ : ProviderSessionEntry)).map
        ProviderSessionEntry.entry = b.originals.map Json.canonical := by
    rw [map_map]
    exact map_id _
  refine ensure_bind_eq_ok.mpr ⟨⟨hpos, rfl, rfl, by simp only [Batch.receipt]; omega⟩, ?_⟩
  simp only [Batch.receipt, hbatch, head_subpath_labelled rt.unicode hpos]
  refine ensure_bind_eq_ok.mpr
    ⟨⟨isNormalPath_of_normalPath h.path, subpath_labelled rt.unicode b start⟩, ?_⟩
  refine bind_eq_ok.mpr ⟨_, hchecked, ?_⟩
  simp only [hentries, hsizes]
  refine bind_eq_ok.mpr ⟨_, h.normalize, ?_⟩
  refine ensure_bind_eq_ok.mpr ⟨hitems, ?_⟩
  rw [hitems]
  refine ensure_bind_eq_ok.mpr ⟨batchDigest_canonical b.path b.originals, ?_⟩
  rw [zipWith_map_right, verifiedRows, hlabelled]

theorem Batch.flat_cons (b : Batch) (batches : List Batch) :
    Batch.flat (b :: batches) = b.labelled ++ Batch.flat batches := rfl

theorem Batch.length_labelled (b : Batch) : b.labelled.length = b.items.length := by
  simp [Batch.labelled]

theorem Batch.sum_original_labelled (b : Batch) :
    (b.labelled.map fun e => e.2.original.size).sum = (b.originals.map Json.size).sum := by
  simp [Batch.labelled, Batch.originals, Function.comp_def]

theorem Batch.sum_stored_labelled (b : Batch) :
    (b.labelled.map fun e => e.2.stored.size).sum =
      (b.items.map fun item => item.stored.size).sum := by
  simp [Batch.labelled, Function.comp_def]

/-- The receipts from `start` on verify against the rows from `start` on. -/
theorem verifyReceipts_receipts {batches : List Batch} (h : ∀ b ∈ batches, b.Valid rt images)
    {next : Nat} {rows : List EntryRow} (hstart : 1 ≤ start)
    (hrows : rows.drop (start - 1) = entryRows rt.unicode start (Batch.flat batches))
    (hnext : next = start + (Batch.flat batches).length) :
    verifyReceipts rt images next rows start (Batch.receipts rt start batches) =
      .ok (verifiedRows rt.unicode start (Batch.flat batches), next,
        ((Batch.flat batches).map fun e => e.2.original.size).sum,
        ((Batch.flat batches).map fun e => e.2.stored.size).sum) := by
  induction batches generalizing start with
  | nil =>
    subst hnext
    rfl
  | cons b batches ih =>
    obtain ⟨hb, hbatches⟩ := forall_mem_cons.mp h
    rw [Batch.flat_cons] at hrows hnext ⊢
    rw [length_append, Batch.length_labelled] at hnext
    rw [entryRows_append, Batch.length_labelled] at hrows
    have hrest : rows.drop (start + b.items.length - 1) =
        entryRows rt.unicode (start + b.items.length) (Batch.flat batches) := by
      have hdrop : start + b.items.length - 1 = start - 1 + b.items.length := by omega
      rw [hdrop, ← drop_drop, hrows, drop_left' (by simp [Batch.labelled])]
    have hverified := ih hbatches (by omega) hrest (by omega)
    refine bind_eq_ok.mpr ⟨_, verifyReceipt_receipt hb hrows (by omega), ?_⟩
    refine bind_eq_ok.mpr ⟨_, hverified, ?_⟩
    rw [verifiedRows_append, Batch.length_labelled, map_append, sum_append,
      map_append, sum_append, Batch.sum_original_labelled, Batch.sum_stored_labelled]

/-! ## Reading in order -/

theorem Batch.le_of_mem_numbered {batches : List Batch} {p : Nat × Batch}
    (h : p ∈ Batch.numbered start batches) : start ≤ p.1 := by
  induction batches generalizing start with
  | nil => contradiction
  | cons b batches ih =>
    rcases mem_cons.mp h with rfl | h
    · exact le_rfl
    · exact (Nat.le_add_right _ _).trans (ih h)

theorem Batch.pairwise_numbered (batches : List Batch) (start : Nat) :
    (Batch.numbered start batches).Pairwise fun a b => a.1 + a.2.items.length ≤ b.1 := by
  induction batches generalizing start with
  | nil => exact .nil
  | cons b batches ih => exact .cons (fun p hp => Batch.le_of_mem_numbered hp) (ih _)

theorem Batch.pairwise_receipts (batches : List Batch) (start : Nat) :
    (Batch.receipts rt start batches).Pairwise
      fun a b => a.expectedSequence ≤ b.expectedSequence := by
  rw [Batch.receipts, pairwise_map]
  exact (Batch.pairwise_numbered batches start).imp fun h => (Nat.le_add_right _ _).trans h

theorem Batch.length_numbered (batches : List Batch) (start : Nat) :
    (Batch.numbered start batches).length = batches.length := by
  induction batches generalizing start with
  | nil => rfl
  | cons b batches ih => simp [Batch.numbered, ih]

theorem Batch.length_le_flat {batches : List Batch} (h : ∀ b ∈ batches, b.Valid rt images) :
    batches.length ≤ (Batch.flat batches).length := by
  induction batches with
  | nil => simp
  | cons b batches ih =>
    obtain ⟨hb, hbatches⟩ := forall_mem_cons.mp h
    have hpos := hb.one_le_length
    have hrest := ih hbatches
    rw [Batch.flat_cons, length_append, Batch.length_labelled, length_cons]
    omega

theorem pairwise_entryRows (u : Unicode) (start : Nat) (entries : List (String × StoredEntry)) :
    (entryRows u start entries).Pairwise fun a b => a.sequence ≤ b.sequence := by
  have hrange : (List.range' start entries.length).Pairwise (· ≤ ·) :=
    (pairwise_lt_range' ..).imp fun h => h.le
  rw [← map_sequence_entryRows (u := u), pairwise_map] at hrange
  exact hrange

variable {record : EpochRecord} {batches : List Batch}

theorem Represents.read (h : Represents rt images record batches) :
    readProviderLedger record.epoch = (record.epoch.rows, record.epoch.receipts) := by
  have hlength := h.length_le
  have hreceipts := (Batch.length_le_flat h.valid).trans hlength
  rw [readProviderLedger, h.rows, h.receipts, (pairwise_entryRows ..).insertionSort_eq,
    (Batch.pairwise_receipts ..).insertionSort_eq, take_of_length_le, take_of_length_le]
  · rw [Batch.receipts, length_map, Batch.length_numbered]
    omega
  · rw [length_entryRows]
    omega

/-- The account of a list of batches passes the verifier. -/
theorem Represents.verify (h : Represents rt images record batches) :
    verifyProviderLedger rt images record.epoch =
      .ok (verifiedRows rt.unicode 1 (Batch.flat batches)) := by
  have hlength : record.epoch.rows.length = (Batch.flat batches).length := by
    rw [h.rows, length_entryRows]
  have hnext : record.epoch.nextSequence = 1 + (Batch.flat batches).length := by
    rw [h.nextSequence, Nat.add_comm]
  have hreceipts := verifyReceipts_receipts h.valid le_rfl h.rows hnext
  rw [← h.receipts] at hreceipts
  simp only [verifyProviderLedger, h.read]
  refine ensure_bind_eq_ok.mpr ⟨hlength.trans_le h.length_le, ?_⟩
  refine ensure_bind_eq_ok.mpr ⟨⟨?_, ?_, ?_⟩, ?_⟩
  · rw [h.entryCount, hlength]
  · rw [h.nextSequence, hlength]
  · rw [hlength, h.rows, map_sequence_entryRows]
  refine bind_eq_ok.mpr ⟨_, by rw [hreceipts]; rfl, ?_⟩
  refine ensure_bind_eq_ok.mpr ⟨rfl, ?_⟩
  refine ensure_bind_eq_ok.mpr ⟨⟨h.structuredBytes.symm, h.transcriptBytes.symm⟩, rfl⟩

end Verify

end AiPlatform.Context
