import AiPlatform.Context.ProviderLedger

/-!
# What an append does to an account

A call at the next sequence adds one batch or changes nothing. A call at any other sequence changes
nothing; it is answered as the first acknowledgement was when it repeats that append exactly, and
refused otherwise.
-/
namespace AiPlatform.Context

open AiPlatform.Foundation AiPlatform.Kernel List

/-- The request repeats an acknowledged append: same sequence, same path, the same entries up to
member order, made by the same owner. -/
structure ExactRetry (rt : Runtime) (append : Accepted) (owner : Owner)
    (request : AppendRequest rt) : Prop where
  expectedSequence : append.expectedSequence = request.expectedSequence
  path : requestPath rt request.subpath = .ok append.path
  entries : append.entries.map Json.canonical = request.entries.map Json.canonical
  owner : append.owner = owner

/-- What is compared with the receipt of an acknowledged append: the digest stands for the path and
the entries. -/
structure ReceiptMatches (rt : Runtime) (append : Accepted) (owner : Owner)
    (request : AppendRequest rt) : Prop where
  expectedSequence : append.expectedSequence = request.expectedSequence
  digest : ∃ path, requestPath rt request.subpath = .ok path ∧
    batchDigest rt append.path append.entries = batchDigest rt path request.entries
  owner : append.owner = owner

/-- The digest tells the text of the request from those of the acknowledged appends. -/
def AppendRequest.Separated {rt : Runtime} (request : AppendRequest rt)
    (accepted : List Accepted) : Prop :=
  ∀ path, requestPath rt request.subpath = .ok path →
    rt.Separates (accepted.map fun append => batchText append.path append.entries)
      [batchText path request.entries]

/-! ## Checks on the request -/

section Request

variable {rt : Runtime}

theorem AppendRequest.requestPath_ok (request : AppendRequest rt) :
    ∃ path, requestPath rt request.subpath = .ok path ∧ NormalPath rt.unicode path := by
  have hnormal : ∃ normalized, normalizeProviderSubpath rt.unicode request.subpath =
      .ok normalized := by
    cases hsubpath : request.subpath with
    | none => exact ⟨none, rfl⟩
    | some subpath =>
      have hlength : (strip rt.unicode subpath).length ≤ maxProviderSessionSubpathLength :=
        (length_strip_le subpath).trans (request.subpath_length subpath hsubpath)
      simp only [normalizeProviderSubpath, not_lt.mpr hlength, if_false]
      split_ifs
      · exact ⟨none, rfl⟩
      · exact ⟨_, rfl⟩
  obtain ⟨normalized, h⟩ := hnormal
  exact ⟨normalized.getD "", by rw [requestPath, h, ok_bind], normalPath_of_normalize h⟩

theorem asConflict_eq_ok {α : Type} {x : Except Refusal α} {a : α} :
    asConflict x = .ok a ↔ x = .ok a := by
  cases x with
  | ok value => exact Iff.rfl
  | error refusal => cases refusal <;> simp [asConflict]

theorem conflict_or_ok {α : Type} (x : Except Refusal α) :
    (∃ a, x = .ok a) ∨ ∃ code, asConflict x = .error (.conflict code) := by
  cases x with
  | ok value => exact .inl ⟨value, rfl⟩
  | error refusal =>
    cases refusal with
    | conflict code => exact .inr ⟨code, rfl⟩
    | continuity code => exact .inr ⟨code, rfl⟩

theorem ValidEntry.of_canonical {u : Unicode} {fmt : FloatFormat} {entry : Json}
    (h : ValidEntry u (Json.canonical entry)) (hproper : entry.Proper fmt)
    (hobject : ∃ members, entry = .obj members) : ValidEntry u entry where
  isObject := hobject
  size_le := (Json.size_canonical entry).symm.trans_le h.size_le
  uuid := by
    rw [← sdkEntryUuid_canonical hproper]
    exact h.uuid

theorem ValidBatch.of_canonical {u : Unicode} {fmt : FloatFormat} {entries : List Json}
    (h : ValidBatch u (entries.map Json.canonical))
    (hproper : ∀ entry ∈ entries, entry.Proper fmt)
    (hobject : ∀ entry ∈ entries, ∃ members, entry = .obj members) : ValidBatch u entries where
  ne_nil := by simpa using h.ne_nil
  length_le := by simpa using h.length_le
  valid := fun entry hentry =>
    (h.valid _ (mem_map_of_mem hentry)).of_canonical (hproper entry hentry)
      (hobject entry hentry)
  bytes_le := by
    rw [← map_size_canonical]
    exact h.bytes_le

/-- The hashed text holds the path and the entries up to member order. -/
theorem eq_of_batchText_eq {path other : String} {entries others : List Json}
    (hentries : ∀ entry ∈ entries, entry.Proper rt.floats)
    (hothers : ∀ entry ∈ others, entry.Proper rt.floats)
    (h : batchText path entries = batchText other others) :
    path = other ∧ entries.map Json.canonical = others.map Json.canonical := by
  have hproper : ∀ (path : String) (entries : List Json), (∀ e ∈ entries, e.Proper rt.floats) →
      (Json.canonical (.arr [.str path, .arr entries])).Proper rt.floats := by
    intro path entries h
    apply Json.Proper.canonical
    simp only [Json.proper_arr, forall_mem_cons]
    exact ⟨trivial, h, by simp⟩
  have htexts :=
    Json.dumps_injOn (hproper path entries hentries) (hproper other others hothers) h
  simpa [Json.canonical_arr, Json.canonical_str] using htexts

end Request

/-! ## A sequence that was acknowledged before -/

section Covered

variable {rt : Runtime} {images : ImageValues} {record : EpochRecord} {batches : List Batch}

theorem Batch.lt_of_mem_numbered {start : Nat} {p : Nat × Batch}
    (h : ∀ b ∈ batches, b.Valid rt images) (hp : p ∈ Batch.numbered start batches) :
    p.2 ∈ batches ∧ p.1 < start + (Batch.flat batches).length := by
  induction batches generalizing start with
  | nil => contradiction
  | cons b batches ih =>
    obtain ⟨hb, hbatches⟩ := forall_mem_cons.mp h
    have hpos := hb.one_le_length
    rw [Batch.flat_cons, length_append, Batch.length_labelled]
    rcases mem_cons.mp hp with rfl | hp
    · exact ⟨mem_cons_self .., by dsimp only; omega⟩
    · obtain ⟨hmem, hlt⟩ := ih hbatches hp
      exact ⟨mem_cons_of_mem _ hmem, by omega⟩

/-- No two batches start at one sequence. -/
theorem Batch.eq_of_mem_numbered {start : Nat} {p q : Nat × Batch}
    (h : ∀ b ∈ batches, b.Valid rt images) (hp : p ∈ Batch.numbered start batches)
    (hq : q ∈ Batch.numbered start batches) (heq : p.1 = q.1) : p = q := by
  induction batches generalizing start with
  | nil => contradiction
  | cons b batches ih =>
    obtain ⟨hb, hbatches⟩ := forall_mem_cons.mp h
    have hpos := hb.one_le_length
    rcases mem_cons.mp hp with rfl | hp <;> rcases mem_cons.mp hq with rfl | hq
    · rfl
    · have hle := Batch.le_of_mem_numbered hq
      dsimp only at heq
      omega
    · have hle := Batch.le_of_mem_numbered hp
      dsimp only at heq
      omega
    · exact ih hbatches hp hq

theorem Represents.find_receipt (h : Represents rt images record batches) (expected : Nat) :
    (record.epoch.receipts.find? fun receipt => receipt.expectedSequence = expected) =
      ((Batch.numbered 1 batches).find? fun p => p.1 = expected).map
        fun p => p.2.receipt rt p.1 := by
  rw [h.receipts, Batch.receipts, find?_map]
  rfl

theorem Represents.mem_accepted (h : Represents rt images record batches) {append : Accepted} :
    append ∈ record.accepted ↔ ∃ p ∈ Batch.numbered 1 batches, p.2.append p.1 = append := by
  rw [h.accepted, Batch.appends, mem_map]

/-- No two acknowledged appends start at one sequence. -/
theorem Represents.accepted_eq (h : Represents rt images record batches) {append other : Accepted}
    (hmem : append ∈ record.accepted) (hother : other ∈ record.accepted)
    (heq : append.expectedSequence = other.expectedSequence) : append = other := by
  obtain ⟨p, hp, rfl⟩ := h.mem_accepted.mp hmem
  obtain ⟨q, hq, rfl⟩ := h.mem_accepted.mp hother
  rw [Batch.eq_of_mem_numbered h.valid hp hq heq]

variable {call : AppendCall rt} {owner : Owner}

/-- The request that repeats an acknowledged append passes the checks that append passed. -/
theorem ExactRetry.validBatch (h : Represents rt images record batches) {append : Accepted}
    (hmem : append ∈ record.accepted) (hretry : ExactRetry rt append owner call.request) :
    ValidBatch rt.unicode call.request.entries := by
  obtain ⟨p, hp, rfl⟩ := h.mem_accepted.mp hmem
  have hb := h.valid p.2 (Batch.lt_of_mem_numbered h.valid hp).1
  have hcanonical := hb.entries.canonical hb.originals_proper
  rw [show p.2.originals.map Json.canonical = call.request.entries.map Json.canonical from
    hretry.entries] at hcanonical
  exact hcanonical.of_canonical call.request.proper call.request.isObject

theorem ExactRetry.digest_eq {append : Accepted} {request : AppendRequest rt} {path : String}
    (h : ExactRetry rt append owner request) (hpath : requestPath rt request.subpath = .ok path) :
    batchDigest rt append.path append.entries = batchDigest rt path request.entries := by
  obtain rfl : append.path = path := Except.ok.inj (h.path.symm.trans hpath)
  rw [← batchDigest_canonical, h.entries, batchDigest_canonical]

/-- Where no two hashed texts have one digest, only the retries match a receipt. -/
theorem ReceiptMatches.exactRetry (h : Represents rt images record batches) {append : Accepted}
    {request : AppendRequest rt} (hmem : append ∈ record.accepted)
    (hmatch : ReceiptMatches rt append owner request)
    (separated : request.Separated record.accepted) : ExactRetry rt append owner request := by
  obtain ⟨path, hpath, hdigest⟩ := hmatch.digest
  have htext := separated path hpath _ (mem_map_of_mem hmem) _ (mem_singleton_self _) hdigest
  obtain ⟨p, hp, rfl⟩ := h.mem_accepted.mp hmem
  have hb := h.valid p.2 (Batch.lt_of_mem_numbered h.valid hp).1
  obtain ⟨hsame, hentries⟩ := eq_of_batchText_eq hb.originals_proper request.proper htext
  exact ⟨hmatch.expectedSequence, hsame ▸ hpath, hentries, hmatch.owner⟩

/-- The receipt kept at a sequence matches the request, or the request is no retry of the append
made there. -/
theorem Represents.matchingAppendReceipt (h : Represents rt images record batches) (owner : Owner)
    {request : AppendRequest rt} {path : String}
    (hpath : requestPath rt request.subpath = .ok path)
    (hcovered : request.expectedSequence ≠ record.epoch.nextSequence) :
    (∃ append ∈ record.accepted, ReceiptMatches rt append owner request ∧ ∃ previous,
      previous.lastSequence = append.lastSequence ∧
        matchingAppendReceipt record.epoch request.expectedSequence
          (batchDigest rt path request.entries) request.entries.length owner =
            .ok (some previous)) ∨
    ((∀ append ∈ record.accepted, ¬ ExactRetry rt append owner request) ∧
      matchingAppendReceipt record.epoch request.expectedSequence
        (batchDigest rt path request.entries) request.entries.length owner =
          .error (.conflict .appendConflict)) := by
  have hpos := not_lt.mpr request.expected_pos
  simp only [Context.matchingAppendReceipt, hpos, hcovered, if_false, h.find_receipt]
  cases hfind : (Batch.numbered 1 batches).find? fun p => p.1 = request.expectedSequence with
  | none =>
    refine .inr ⟨fun append hmem hretry => ?_, rfl⟩
    obtain ⟨p, hp, rfl⟩ := h.mem_accepted.mp hmem
    have hne := find?_eq_none.mp hfind p hp
    exact hne (decide_eq_true hretry.expectedSequence)
  | some p =>
    have hp : p ∈ Batch.numbered 1 batches := mem_of_find?_eq_some hfind
    have hstart : p.1 = request.expectedSequence := by simpa using find?_some hfind
    simp only [Option.map_some, Batch.receipt]
    by_cases hmatch : batchDigest rt p.2.path p.2.originals =
        batchDigest rt path request.entries ∧ p.2.items.length = request.entries.length ∧
          p.2.owner = owner
    · refine .inl ⟨p.2.append p.1, h.mem_accepted.mpr ⟨p, hp, rfl⟩,
        ⟨hstart, ⟨path, hpath, hmatch.1⟩, hmatch.2.2⟩, p.2.receipt rt p.1, rfl, ?_⟩
      rw [if_pos hmatch]
      rfl
    · refine .inr ⟨fun append hmem hretry => hmatch ?_, if_neg hmatch⟩
      obtain ⟨q, hq, rfl⟩ := h.mem_accepted.mp hmem
      obtain rfl : q = p :=
        Batch.eq_of_mem_numbered h.valid hq hp (hretry.expectedSequence.trans hstart.symm)
      have hlength := congrArg List.length hretry.entries
      simp only [Batch.append, Batch.originals, length_map] at hlength
      exact ⟨hretry.digest_eq hpath, hlength, hretry.owner⟩

/-- A call at a sequence that is not the next one, by an owner the fence lets through. -/
theorem Represents.callbackAppend_covered (h : Represents rt images record batches)
    (howner : call.owner = some owner)
    (hcovered : call.request.expectedSequence ≠ record.epoch.nextSequence) :
    (∃ append ∈ record.accepted, ReceiptMatches rt append owner call.request ∧
      callbackAppend rt record.epoch images call =
        .ok (⟨call.request.entries.length, append.lastSequence, record.epoch.nextSequence⟩,
          record.epoch, images)) ∨
    ((∀ append ∈ record.accepted, ¬ ExactRetry rt append owner call.request) ∧
      ∃ code, callbackAppend rt record.epoch images call = .error (.conflict code)) := by
  obtain ⟨path, hpath, hnormal⟩ := call.request.requestPath_ok
  have hpos := call.request.expected_pos
  simp only [callbackAppend, howner, hpath, ok_bind]
  rcases conflict_or_ok
    (normalizeProviderEntryBatch rt.unicode call.request.entries (some path)) with hok | herror
  · obtain ⟨⟨batch, bytes⟩, hok⟩ := hok
    obtain ⟨-, rfl, rfl⟩ := (normalizeProviderEntryBatch_eq_ok hnormal).mp hok
    rw [asConflict_eq_ok.mpr hok, ok_bind]
    have hentries : (call.request.entries.map fun entry => (⟨entry, entryUuid rt.unicode entry,
        optionalPath path⟩ : ProviderSessionEntry)).map ProviderSessionEntry.entry =
          call.request.entries := by
      rw [map_map]
      exact map_id _
    simp only [hentries, length_map]
    rcases h.matchingAppendReceipt owner hpath hcovered with
      ⟨append, hmem, hmatches, previous, hlast, hmatch⟩ | ⟨hnone, hmatch⟩
    · refine .inl ⟨append, hmem, hmatches, ?_⟩
      rw [hmatch, ok_bind]
      simp only [hlast]
    · exact .inr ⟨hnone, .appendConflict, by rw [hmatch]; rfl⟩
  · right
    obtain ⟨code, herror⟩ := herror
    refine ⟨fun append hmem hretry => ?_, code, by rw [herror]; rfl⟩
    have hvalid := hretry.validBatch h hmem
    have hok := (normalizeProviderEntryBatch_eq_ok hnormal).mpr ⟨hvalid, rfl, rfl⟩
    rw [asConflict_eq_ok.mpr hok] at herror
    contradiction

end Covered

/-! ## The next sequence -/

section Fresh

variable {rt : Runtime} {images : ImageValues} {record : EpochRecord} {batches : List Batch}

theorem map_fst_zip_zip {α β γ : Type} {as : List α} {bs : List β} {cs : List γ}
    (hb : bs.length = as.length) (hc : cs.length = as.length) :
    (as.zip (bs.zip cs)).map Prod.fst = as := by
  apply map_fst_zip
  rw [length_zip, hb, hc, Nat.min_self]

theorem storedEntries_eq_ok {media : Option (ProviderMediaTransfer rt)}
    {batch : List ProviderSessionEntry} {items : List StoredEntry}
    (hproper : ∀ entry ∈ batch, entry.entry.Proper rt.floats)
    (h : storedEntries media batch = .ok items) :
    items.map StoredEntry.original = batch.map ProviderSessionEntry.entry ∧
      ∀ item ∈ items, item.stored.Proper rt.floats := by
  obtain ⟨hlengths, h⟩ := ensure_bind_eq_ok.mp h
  obtain rfl := Except.ok.inj h
  constructor
  · have hfst := map_fst_zip_zip hlengths.1 hlengths.2
    have hentries := congrArg (List.map ProviderSessionEntry.entry) hfst
    rw [map_map] at hentries ⊢
    exact hentries
  · intro item hitem
    obtain ⟨entry, hentry, rfl⟩ := mem_map.mp hitem
    have hstored := (of_mem_zip (of_mem_zip hentry).2).1
    cases hprojection : media.bind ProviderMediaTransfer.projection with
    | none =>
      simp only [hprojection, Option.map_none, Option.getD_none] at hstored
      obtain ⟨original, horiginal, heq⟩ := mem_map.mp hstored
      exact heq ▸ hproper original horiginal
    | some projection =>
      simp only [hprojection, Option.map_some, Option.getD_some] at hstored
      exact projection.proper _ hstored

variable {values others : ImageValues}

theorem restorable_of_check {item : StoredEntry} {size : Nat}
    (horiginal : item.original.Proper rt.floats) (hstored : item.stored.Proper rt.floats)
    (h : checkStoredEntry rt values item = .ok size) :
    item.Restorable rt values ∧ size = item.stored.size := by
  obtain ⟨restored, hrestored, h⟩ := bind_eq_ok.mp h
  obtain ⟨htext, h⟩ := ensure_bind_eq_ok.mp h
  obtain ⟨bytes, hbytes, h⟩ := bind_eq_ok.mp h
  obtain ⟨-, h⟩ := ensure_bind_eq_ok.mp h
  obtain ⟨hobject, rfl⟩ := providerEntryJsonBytes_eq_ok.mp hbytes
  have hproper := (restoreProviderImages_canonical hstored hrestored).2
  have hcanonical := Json.dumps_injOn hproper.canonical horiginal.canonical htext
  exact ⟨⟨horiginal, hstored, hobject, restored, hrestored, hcanonical⟩, (Except.ok.inj h).symm⟩

theorem StoredEntry.Restorable.extends {item : StoredEntry} (h : item.Restorable rt values)
    (hmore : values.Extends others) :
    item.Restorable rt others := by
  obtain ⟨restored, hrestored, hcanonical⟩ := h.restores
  exact { h with
    restores := ⟨restored, restoreProviderImages_extends hmore hrestored, hcanonical⟩ }

theorem Batch.Valid.extends {b : Batch} (h : b.Valid rt values) (hmore : values.Extends others) :
    b.Valid rt others :=
  { h with restorable := fun item hitem => (h.restorable item hitem).extends hmore }

theorem Represents.extends (h : Represents rt values record batches)
    (hmore : values.Extends others) : Represents rt others record batches :=
  { h with valid := fun b hb => (h.valid b hb).extends hmore }

theorem extends_append (values others : ImageValues) : values.Extends (values ++ others) := by
  intro id value hvalue
  rw [lookup_append, hvalue, Option.some_or]

/-- New ids do not hide the images under them. -/
theorem extends_append_of_fresh (hfresh : ∀ image ∈ others, values.lookup image.1 = none) :
    ImageValues.Extends others (values ++ others) := by
  intro id value hvalue
  have hnone : values.lookup id = none := hfresh (id, value) (Json.mem_of_lookup hvalue)
  rw [lookup_append, hnone, Option.none_or, hvalue]

theorem Batch.flat_append (batches more : List Batch) :
    Batch.flat (batches ++ more) = Batch.flat batches ++ Batch.flat more :=
  flatMap_append

theorem Batch.flat_singleton (b : Batch) : Batch.flat [b] = b.labelled := by
  simp [Batch.flat, Batch.labelled]

theorem Batch.numbered_append (start : Nat) (batches more : List Batch) :
    Batch.numbered start (batches ++ more) =
      Batch.numbered start batches ++
        Batch.numbered (start + (Batch.flat batches).length) more := by
  induction batches generalizing start with
  | nil => rfl
  | cons c batches ih =>
    simp only [cons_append, Batch.numbered, ih, Batch.flat_cons, length_append,
      Batch.length_labelled, Nat.add_assoc]

/-- The epoch with one more batch, as `insertBatch` writes it. -/
def Epoch.extend (rt : Runtime) (epoch : Epoch) (b : Batch) : Epoch where
  nextSequence := epoch.nextSequence + b.items.length
  entryCount := epoch.entryCount + b.items.length
  transcriptBytes := epoch.transcriptBytes + (b.originals.map Json.size).sum
  structuredBytes := epoch.structuredBytes + (b.items.map fun item => item.stored.size).sum
  rows := epoch.rows ++ entryRows rt.unicode epoch.nextSequence b.labelled
  receipts := epoch.receipts ++ [b.receipt rt epoch.nextSequence]

theorem Represents.extend (h : Represents rt images record batches) {b : Batch}
    (hb : b.Valid rt images)
    (hcapacity : record.epoch.entryCount + b.items.length ≤ maxProviderSessionEntries) :
    Represents rt images
      ⟨record.epoch.extend rt b, record.accepted ++ [b.append record.epoch.nextSequence]⟩
      (batches ++ [b]) := by
  have hnext : record.epoch.nextSequence = 1 + (Batch.flat batches).length := by
    rw [h.nextSequence, Nat.add_comm]
  have hlength : (Batch.flat (batches ++ [b])).length =
      (Batch.flat batches).length + b.items.length := by
    rw [Batch.flat_append, Batch.flat_singleton, length_append, Batch.length_labelled]
  refine ⟨?_, ?_, ?_, ?_, ?_, ?_, ?_, ?_, ?_⟩
  · intro c hc
    rcases mem_append.mp hc with hc | hc
    · exact h.valid c hc
    · exact mem_singleton.mp hc ▸ hb
  · rw [Batch.flat_append, Batch.flat_singleton, entryRows_append, ← hnext, ← h.rows]
    rfl
  · rw [Batch.receipts, Batch.numbered_append, map_append, ← hnext]
    exact congrArg (· ++ _) h.receipts
  · rw [Batch.appends, Batch.numbered_append, map_append, ← hnext]
    exact congrArg (· ++ _) h.accepted
  · rw [hlength]
    simp only [Epoch.extend, h.nextSequence]
    omega
  · rw [hlength]
    simp only [Epoch.extend, h.entryCount]
  · rw [Batch.flat_append, Batch.flat_singleton, map_append, sum_append,
      Batch.sum_original_labelled, ← h.transcriptBytes]
    rfl
  · rw [Batch.flat_append, Batch.flat_singleton, map_append, sum_append,
      Batch.sum_stored_labelled, ← h.structuredBytes]
    rfl
  · rw [hlength, ← h.entryCount]
    exact hcapacity

theorem sizes_of_forall₂ {items : List StoredEntry} {sizes : List Nat}
    (horiginal : ∀ item ∈ items, item.original.Proper rt.floats)
    (hstored : ∀ item ∈ items, item.stored.Proper rt.floats)
    (h : List.Forall₂ (fun item size => checkStoredEntry rt values item = .ok size) items sizes) :
    (∀ item ∈ items, item.Restorable rt values) ∧
      sizes = items.map fun item => item.stored.size := by
  induction h with
  | nil => simp
  | cons hitem hrest ih =>
    obtain ⟨ho, horiginal⟩ := forall_mem_cons.mp horiginal
    obtain ⟨hs, hstored⟩ := forall_mem_cons.mp hstored
    obtain ⟨hrestorable, rfl⟩ := restorable_of_check ho hs hitem
    obtain ⟨hall, rfl⟩ := ih horiginal hstored
    exact ⟨forall_mem_cons.mpr ⟨hrestorable, hall⟩, rfl⟩

variable {call : AppendCall rt} {owner : Owner}

/-- What a call at the next sequence inserts, when it is acknowledged. -/
theorem insertBatch_eq_ok {epoch next : Epoch} {images more : ImageValues} {path : String}
    {reply : AppendReply} (hpath : NormalPath rt.unicode path)
    (hvalid : ValidBatch rt.unicode call.request.entries)
    (hexpected : call.request.expectedSequence = epoch.nextSequence)
    (h : insertBatch rt epoch images owner call path
      (call.request.entries.map fun entry =>
        ⟨entry, entryUuid rt.unicode entry, optionalPath path⟩)
      (call.request.entries.map Json.size).sum = .ok (reply, next, more)) :
    ∃ b : Batch, b.Valid rt more ∧ b.path = path ∧ b.originals = call.request.entries ∧
      b.owner = owner ∧ epoch.entryCount + b.items.length ≤ maxProviderSessionEntries ∧
      images.Extends more ∧ next = epoch.extend rt b ∧
      reply = ⟨b.items.length, epoch.nextSequence + b.items.length - 1,
        epoch.nextSequence + b.items.length⟩ := by
  have hentries : (call.request.entries.map fun entry => (⟨entry, entryUuid rt.unicode entry,
      optionalPath path⟩ : ProviderSessionEntry)).map ProviderSessionEntry.entry =
        call.request.entries := by
    rw [map_map]
    exact map_id _
  obtain ⟨items, hitems, h⟩ := bind_eq_ok.mp h
  obtain ⟨sizes, hsizes, h⟩ := bind_eq_ok.mp h
  obtain ⟨⟨⟩, hcapacity, h⟩ := bind_eq_ok.mp h
  obtain ⟨⟨-, -, hfresh⟩, h⟩ := ensure_bind_eq_ok.mp h
  obtain ⟨horiginals, hstored⟩ := storedEntries_eq_ok
    (by simpa using call.request.proper) hitems
  rw [hentries] at horiginals
  have hlength : items.length = call.request.entries.length := by
    rw [← horiginals, length_map]
  have hproper : ∀ item ∈ items, item.original.Proper rt.floats := by
    intro item hitem
    exact call.request.proper _ (horiginals ▸ mem_map_of_mem hitem)
  obtain ⟨hrestorable, rfl⟩ := sizes_of_forall₂ hproper hstored (mapM_eq_ok.mp hsizes)
  have hfits : epoch.entryCount + items.length ≤ maxProviderSessionEntries := by
    have hcount := (ensure_eq_ok.mp hcapacity).1
    rwa [length_map, ← hlength] at hcount
  have hpos := length_pos_of_ne_nil hvalid.ne_nil
  have hlast : epoch.nextSequence + call.request.entries.length - 1 + 1 =
      epoch.nextSequence + call.request.entries.length := by omega
  obtain ⟨hreply, hrest⟩ := Prod.mk.inj (Except.ok.inj h)
  obtain ⟨hnext, hmore⟩ := Prod.mk.inj hrest
  subst hmore
  refine ⟨⟨path, items, owner⟩, ⟨hpath, ?_, ?_⟩, rfl, horiginals, rfl, hfits,
    extends_append images _, ?_, ?_⟩
  · rw [Batch.originals, horiginals]
    exact hvalid
  · exact fun item hitem => (hrestorable item hitem).extends (extends_append_of_fresh hfresh)
  · rw [← hnext]
    simp only [hentries, length_map, hexpected, hlast, Epoch.extend, Batch.receipt,
      Batch.originals, horiginals, hlength, Batch.labelled]
  · rw [← hreply]
    simp only [length_map, hexpected, hlast, hlength]

/-- An acknowledged call at the next sequence adds the batch it brought. -/
theorem callbackAppend_fresh {epoch next : Epoch} {more : ImageValues} {reply : AppendReply}
    (hexpected : call.request.expectedSequence = epoch.nextSequence)
    (h : callbackAppend rt epoch images call = .ok (reply, next, more)) :
    ∃ b : Batch, call.owner = some b.owner ∧
      requestPath rt call.request.subpath = .ok b.path ∧ b.originals = call.request.entries ∧
      b.Valid rt more ∧ epoch.entryCount + b.items.length ≤ maxProviderSessionEntries ∧
      images.Extends more ∧ next = epoch.extend rt b ∧
      reply = ⟨b.items.length, epoch.nextSequence + b.items.length - 1,
        epoch.nextSequence + b.items.length⟩ := by
  have hpos : ¬ epoch.nextSequence < 1 := hexpected ▸ not_lt.mpr call.request.expected_pos
  obtain ⟨path, hpath, hnormal⟩ := call.request.requestPath_ok
  unfold callbackAppend at h
  split at h
  · contradiction
  · rename_i owner howner
    rw [hpath, ok_bind] at h
    obtain ⟨⟨batch, bytes⟩, hbatch, h⟩ := bind_eq_ok.mp h
    obtain ⟨hvalid, rfl, rfl⟩ :=
      (normalizeProviderEntryBatch_eq_ok hnormal).mp (asConflict_eq_ok.mp hbatch)
    simp only [matchingAppendReceipt, hpos, hexpected, if_false, if_true, ok_bind] at h
    obtain ⟨b, hb, rfl, horiginals, rfl, hfits, hmore, hnext, hreply⟩ :=
      insertBatch_eq_ok hnormal hvalid hexpected h
    exact ⟨b, howner, hpath, horiginals, hb, hfits, hmore, hnext, hreply⟩

end Fresh

end AiPlatform.Context
