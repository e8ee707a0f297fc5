import AiPlatform.Context.ProviderResume

/-!
# Every epoch verifies

Over any history of appends, retries and resumes, every epoch is the account of the batches that
were acknowledged in it; so it passes the verifier, and a sequence that was acknowledged once is
never answered differently.
-/
namespace AiPlatform.Context

open AiPlatform.Foundation AiPlatform.Kernel List

/-- The receipts cover the sequences from `expected` up to `next`, without a gap. -/
def Contiguous : Nat → List AppendReceipt → Nat → Prop
  | expected, [], next => expected = next
  | expected, receipt :: receipts, next =>
    receipt.expectedSequence = expected ∧ 1 ≤ receipt.entryCount ∧
      receipt.lastSequence = expected + receipt.entryCount - 1 ∧
      Contiguous (expected + receipt.entryCount) receipts next

/-- An epoch in order: it verifies, with the acknowledged entries as its rows, and its numbers are
those of the entries. -/
structure EpochRecord.InOrder (rt : Runtime) (images : ImageValues) (record : EpochRecord)
    (rows : List EntryRow) : Prop where
  verifies : verifyProviderLedger rt images record.epoch = .ok rows
  acknowledged : rows.map (fun row => (row.subpath, row.entryJson)) =
    (acknowledged record.accepted).map fun entry => (entry.1, some (Json.canonical entry.2))
  sequences : rows.map EntryRow.sequence = List.range' 1 rows.length
  receipts : Contiguous 1 record.epoch.receipts record.epoch.nextSequence
  entryCount : record.epoch.entryCount = rows.length
  transcriptBytes : record.epoch.transcriptBytes =
    ((Context.acknowledged record.accepted).map fun entry => entry.2.size).sum
  structuredBytes : record.epoch.structuredBytes =
    (record.epoch.rows.map EntryRow.storedBytes).sum

/-! ## Accounts are in order -/

section InOrder

variable {rt : Runtime} {images : ImageValues} {record : EpochRecord} {batches : List Batch}

theorem acknowledged_appends (start : Nat) (batches : List Batch) :
    acknowledged (Batch.appends start batches) =
      (Batch.flat batches).map fun e => (e.1, e.2.original) := by
  induction batches generalizing start with
  | nil => rfl
  | cons b batches ih =>
    have htail := ih (start + b.items.length)
    rw [Batch.flat_cons, map_append, ← htail]
    simp only [acknowledged, Batch.appends, Batch.numbered, map_cons, flatMap_cons]
    simp [Batch.append, Batch.originals, Batch.labelled]

theorem Represents.nextSequence_eq (h : Represents rt images record batches) :
    record.epoch.nextSequence = (acknowledged record.accepted).length + 1 := by
  rw [h.nextSequence, h.accepted, acknowledged_appends, length_map]

theorem Represents.acknowledged_concat {more : ImageValues} {next : EpochRecord} {b : Batch}
    (h : Represents rt images record batches) (hnext : Represents rt more next (batches ++ [b])) :
    acknowledged next.accepted =
      acknowledged record.accepted ++ b.originals.map fun entry => (b.path, entry) := by
  rw [hnext.accepted, h.accepted, acknowledged_appends, acknowledged_appends, Batch.flat_append,
    Batch.flat_singleton, map_append]
  simp [Batch.labelled, Batch.originals]

theorem Represents.nextSequence_lt_concat {more : ImageValues} {next : EpochRecord} {b : Batch}
    (h : Represents rt images record batches) (hnext : Represents rt more next (batches ++ [b])) :
    record.epoch.nextSequence < next.epoch.nextSequence := by
  have hpos := (hnext.valid b (mem_append_right _ (mem_singleton_self b))).one_le_length
  rw [h.nextSequence_eq, hnext.nextSequence_eq, h.acknowledged_concat hnext, length_append,
    length_map, Batch.originals, length_map]
  omega

theorem contiguous_receipts {start : Nat} (h : ∀ b ∈ batches, b.Valid rt images) :
    Contiguous start (Batch.receipts rt start batches)
      (start + (Batch.flat batches).length) := by
  induction batches generalizing start with
  | nil => rfl
  | cons b batches ih =>
    obtain ⟨hb, hbatches⟩ := forall_mem_cons.mp h
    refine ⟨rfl, hb.one_le_length, rfl, ?_⟩
    rw [Batch.flat_cons, length_append, Batch.length_labelled, ← Nat.add_assoc]
    exact ih hbatches

theorem map_verifiedRows (u : Unicode) (start : Nat) (entries : List (String × StoredEntry)) :
    (verifiedRows u start entries).map (fun row => (row.sequence, row.subpath, row.entryJson)) =
      (List.range' start entries.length).zip
        (entries.map fun e => (e.1, some (Json.canonical e.2.original))) := by
  induction entries generalizing start with
  | nil => rfl
  | cons e entries ih =>
    have htail := ih (start + 1)
    simp only [verifiedRows, entryRows, map_cons, zipWith_cons_cons, length_cons,
      range'_succ, zip_cons_cons] at htail ⊢
    rw [htail]
    rfl

theorem Represents.inOrder (h : Represents rt images record batches) :
    record.InOrder rt images (verifiedRows rt.unicode 1 (Batch.flat batches)) := by
  have hlength : (verifiedRows rt.unicode 1 (Batch.flat batches)).length =
      (Batch.flat batches).length := by
    simp [verifiedRows]
  have hrows := map_verifiedRows rt.unicode 1 (Batch.flat batches)
  refine ⟨h.verify, ?_, ?_, ?_, ?_, ?_, ?_⟩
  · rw [h.accepted, acknowledged_appends, map_map]
    have hsnd := congrArg (List.map Prod.snd) hrows
    rw [map_map, map_snd_zip (by simp)] at hsnd
    exact hsnd
  · have hfst := congrArg (List.map Prod.fst) hrows
    rw [map_map, map_fst_zip (by simp), ← hlength] at hfst
    exact hfst
  · rw [h.receipts, h.nextSequence, Nat.add_comm]
    exact contiguous_receipts h.valid
  · rw [h.entryCount, hlength]
  · rw [h.transcriptBytes, h.accepted, acknowledged_appends, map_map]
    rfl
  · rw [h.structuredBytes, h.rows, sum_structured]

end InOrder

/-! ## One callback -/

section Callback

variable {rt : Runtime} {images more : ImageValues} {record : EpochRecord} {batches : List Batch}
variable {call : AppendCall rt} {reply : AppendReply} {next : Epoch}

theorem Represents.expectedSequence_lt (h : Represents rt images record batches)
    {append : Accepted} (hmem : append ∈ record.accepted) :
    append.expectedSequence < record.epoch.nextSequence := by
  obtain ⟨p, hp, rfl⟩ := h.mem_accepted.mp hmem
  have hlt := (Batch.lt_of_mem_numbered h.valid hp).2
  rw [h.nextSequence, Nat.add_comm]
  exact hlt

theorem ReceiptMatches.recordAccepted_eq {accepted : List Accepted} {append : Accepted}
    {owner : Owner} (hmem : append ∈ accepted)
    (hmatch : ReceiptMatches rt append owner call.request) :
    recordAccepted rt accepted call reply = accepted := by
  have hany : (accepted.any fun other =>
      other.expectedSequence = call.request.expectedSequence) = true :=
    any_eq_true.mpr ⟨append, hmem, decide_eq_true hmatch.expectedSequence⟩
  simp only [recordAccepted]
  split
  · rw [if_pos hany]
  · rfl

/-- What an acknowledged callback did: it found the append again, or it stored one more batch. -/
theorem Represents.callback_cases (h : Represents rt images record batches)
    (hok : callbackAppend rt record.epoch images call = .ok (reply, next, more)) :
    (∃ append ∈ record.accepted, ∃ owner, call.owner = some owner ∧
      ReceiptMatches rt append owner call.request ∧
      reply = ⟨call.request.entries.length, append.lastSequence, record.epoch.nextSequence⟩ ∧
      next = record.epoch ∧ more = images ∧
      recordAccepted rt record.accepted call reply = record.accepted) ∨
    (∃ b : Batch, call.request.expectedSequence = record.epoch.nextSequence ∧
      call.owner = some b.owner ∧ requestPath rt call.request.subpath = .ok b.path ∧
      b.originals = call.request.entries ∧ images.Extends more ∧
      reply = ⟨b.items.length, record.epoch.nextSequence + b.items.length - 1,
        record.epoch.nextSequence + b.items.length⟩ ∧
      Represents rt more ⟨next, recordAccepted rt record.accepted call reply⟩
        (batches ++ [b])) := by
  by_cases hexpected : call.request.expectedSequence = record.epoch.nextSequence
  · right
    obtain ⟨b, howner, hpath, horiginals, hvalid, hcapacity, hmore, rfl, rfl⟩ :=
      callbackAppend_fresh hexpected hok
    refine ⟨b, hexpected, howner, hpath, horiginals, hmore, rfl, ?_⟩
    have hnew : (record.accepted.any fun append =>
        append.expectedSequence = record.epoch.nextSequence) = false := by
      rw [any_eq_false]
      intro append hmem
      have hlt := h.expectedSequence_lt hmem
      simp only [decide_eq_true_eq]
      omega
    have hrecord : recordAccepted rt record.accepted call
        ⟨b.items.length, record.epoch.nextSequence + b.items.length - 1,
          record.epoch.nextSequence + b.items.length⟩ =
        record.accepted ++ [b.append record.epoch.nextSequence] := by
      simp only [recordAccepted, howner, hpath, hexpected, hnew, Bool.false_eq_true, if_false,
        ← horiginals]
      rfl
    rw [hrecord]
    exact (h.extends hmore).extend hvalid hcapacity
  · left
    cases howner : call.owner with
    | none => simp [callbackAppend, howner] at hok
    | some owner =>
      rcases h.callbackAppend_covered howner hexpected with
        ⟨append, hmem, hmatch, heq⟩ | ⟨-, code, herror⟩
      · obtain ⟨rfl, rfl, rfl⟩ := by simpa using heq.symm.trans hok
        exact ⟨append, hmem, owner, rfl, hmatch, rfl, rfl, rfl, hmatch.recordAccepted_eq hmem⟩
      · rw [hok] at herror
        contradiction

end Callback

/-! ## Histories -/

section Histories

variable {rt : Runtime} {store : ProviderStore}

/-- Every epoch of the store is the account of some batches. -/
def ProviderStore.Accounted (rt : Runtime) (store : ProviderStore) : Prop :=
  ∀ record ∈ store.epochs, ∃ batches, Represents rt store.images record batches

theorem represents_empty (images : ImageValues) : Represents rt images ⟨.empty, []⟩ [] := by
  refine ⟨?_, rfl, rfl, rfl, rfl, rfl, rfl, rfl, Nat.zero_le _⟩
  simp

section

variable (h : store.Accounted rt)
include h

theorem ProviderStore.Accounted.add {record : EpochRecord} {batches : List Batch}
    (hrecord : Represents rt store.images record batches) :
    ProviderStore.Accounted rt { store with epochs := store.epochs ++ [record] } := by
  intro other hother
  rcases mem_append.mp hother with hold | hnew
  · exact h other hold
  · obtain rfl := mem_singleton.mp hnew
    exact ⟨batches, hrecord⟩

theorem ProviderStore.Accounted.set {record : EpochRecord} {images : ImageValues}
    {batches : List Batch} (i : Nat) (hmore : store.images.Extends images)
    (hrecord : Represents rt images record batches) :
    ProviderStore.Accounted rt ⟨store.epochs.set i record, images⟩ := by
  intro other hother
  rcases mem_or_eq_of_mem_set hother with hold | rfl
  · obtain ⟨others, hothers⟩ := h other hold
    exact ⟨others, hothers.extends hmore⟩
  · exact ⟨batches, hrecord⟩

theorem ProviderStore.Accounted.callback (i : Nat) (call : AppendCall rt) :
    (store.callback rt i call).2.Accounted rt := by
  unfold ProviderStore.callback
  split
  · exact h
  · rename_i record hrecord
    obtain ⟨batches, hbatches⟩ := h record (mem_of_getElem? hrecord)
    split
    · exact h
    · rename_i reply next images hok
      rcases hbatches.callback_cases hok with
        ⟨append, -, owner, -, -, -, rfl, rfl, haccepted⟩ | ⟨b, -, -, -, -, hmore, -, hextended⟩
      · rw [haccepted]
        exact h.set i (fun _ _ hvalue => hvalue) hbatches
      · exact h.set i hmore hextended

theorem ProviderStore.Accounted.resume (source : Nat) (recovery : Option Recovery)
    (available proved : Bool) :
    (store.resume rt source recovery available proved).Accounted rt := by
  unfold ProviderStore.resume
  split
  · exact h
  · rename_i record hrecord
    obtain ⟨batches, hbatches⟩ := h record (mem_of_getElem? hrecord)
    split
    · exact h
    · rename_i copy hcopy
      obtain ⟨k, htaken⟩ := hbatches.resume hcopy
      exact h.add htaken

theorem ProviderStore.Accounted.step (label : ProviderLabel rt) :
    (store.step rt label).Accounted rt := by
  cases label with
  | start => exact h.add (represents_empty store.images)
  | append epoch call => exact h.callback epoch call
  | resume source recovery available proved => exact h.resume source recovery available proved

end

theorem accounted_run (labels : List (ProviderLabel rt)) :
    ((providerSessions rt).run labels).Accounted rt :=
  Machine.invariant_reachable (I := ProviderStore.Accounted rt)
    (fun _ hrecord => absurd hrecord not_mem_nil) (fun _ label h => h.step label) labels

/-- Away from the next sequence a callback leaves the store as it is; it is answered if it repeats
an append, and refused otherwise. -/
theorem Represents.callback_covered {record : EpochRecord} {batches : List Batch} {i : Nat}
    (h : Represents rt store.images record batches) (hrecord : store.epochs[i]? = some record)
    {call : AppendCall rt}
    (hcovered : call.request.expectedSequence ≠ record.epoch.nextSequence) :
    (store.callback rt i call).2 = store ∧
    (∀ append ∈ record.accepted, ∀ owner, call.owner = some owner →
      ExactRetry rt append owner call.request →
      ∃ reply, (store.callback rt i call).1 = some (.ok reply) ∧
        reply.lastSequence = append.lastSequence) ∧
    (call.request.Separated record.accepted →
      (∀ append ∈ record.accepted, ∀ owner, call.owner = some owner →
        ¬ ExactRetry rt append owner call.request) →
      ∃ code, (store.callback rt i call).1 = some (.error (.conflict code))) := by
  unfold ProviderStore.callback
  rw [hrecord]
  cases howner : call.owner with
  | none =>
    have hfenced : callbackAppend rt record.epoch store.images call =
        .error (.conflict .fenced) := by
      simp only [callbackAppend, howner]
    simp only [hfenced]
    exact ⟨trivial, fun _ _ _ h => (Option.some_ne_none _ h.symm).elim, fun _ _ => ⟨.fenced, rfl⟩⟩
  | some owner =>
    rcases h.callbackAppend_covered howner hcovered with
      ⟨append, hmem, hmatch, hok⟩ | ⟨hnone, code, herror⟩
    · simp only [hok, hmatch.recordAccepted_eq hmem]
      refine ⟨?_, fun other hother _ _ hretry => ?_, fun separated hnone => ?_⟩
      · have hsame : store.epochs.set i record = store.epochs := by
          obtain ⟨hi, rfl⟩ := List.getElem?_eq_some_iff.mp hrecord
          exact List.set_getElem_self hi
        rw [hsame]
      · obtain rfl : append = other := h.accepted_eq hmem hother
          (hmatch.expectedSequence.trans hretry.expectedSequence.symm)
        exact ⟨_, rfl, rfl⟩
      · exact absurd (hmatch.exactRetry h hmem separated) (hnone append hmem owner rfl)
    · simp only [herror]
      refine ⟨trivial, fun append hmem other hother hretry => ?_, fun _ _ => ⟨code, rfl⟩⟩
      obtain rfl := Option.some.inj hother
      exact absurd hretry (hnone append hmem)

/-- After any history, every epoch passes the verifier with the acknowledged entries as its rows,
and a callback away from its next sequence changes nothing. One that repeats an acknowledged append
is answered with that append's last sequence; any other is refused, where the digest tells its text
from the acknowledged ones. -/
theorem provider_epochs_verify (rt : Runtime) (labels : List (ProviderLabel rt)) (i : Nat)
    (record : EpochRecord)
    (hrecord : ((providerSessions rt).run labels).epochs[i]? = some record) :
    (∃ rows, record.InOrder rt ((providerSessions rt).run labels).images rows) ∧
    ∀ call : AppendCall rt, call.request.expectedSequence ≠ record.epoch.nextSequence →
      (((providerSessions rt).run labels).callback rt i call).2 =
        (providerSessions rt).run labels ∧
      (∀ append ∈ record.accepted, ∀ owner, call.owner = some owner →
        ExactRetry rt append owner call.request →
        ∃ reply, (((providerSessions rt).run labels).callback rt i call).1 = some (.ok reply) ∧
          reply.lastSequence = append.lastSequence) ∧
      (call.request.Separated record.accepted →
        (∀ append ∈ record.accepted, ∀ owner, call.owner = some owner →
          ¬ ExactRetry rt append owner call.request) →
        ∃ code, (((providerSessions rt).run labels).callback rt i call).1 =
          some (.error (.conflict code))) := by
  obtain ⟨batches, hbatches⟩ := accounted_run labels record (mem_of_getElem? hrecord)
  exact ⟨⟨_, hbatches.inOrder⟩, fun call hcovered => hbatches.callback_covered hrecord hcovered⟩

/-- A runtime with the ASCII tables, no numbers but integers, and the text as its own digest. -/
def Runtime.plain : Runtime where
  unicode := .ascii
  floats := integersOnly
  sha256 := String.ofList

/-- An append of one entry at the sequence, with nothing in the way. -/
def AppendCall.single (expectedSequence : Nat) (hpos : 1 ≤ expectedSequence) (kind : String) :
    AppendCall .plain where
  owner := some ⟨"run", "attempt", 1⟩
  request :=
    { subpath := none
      entries := [.obj [("type", .str kind)]]
      expectedSequence := expectedSequence
      subpath_length := nofun
      isObject := fun _ h => ⟨_, mem_singleton.mp h⟩
      proper := fun _ h => by
        obtain rfl := mem_singleton.mp h
        exact Json.proper_obj.mpr ⟨nodup_singleton _, forall_mem_singleton.mpr trivial⟩
      ne_nil := cons_ne_nil _ _
      length_le := by simp [maxProviderSessionBatchCount]
      expected_pos := hpos }
  media := none
  commits := true

theorem Runtime.plain_separated (request : AppendRequest .plain) (accepted : List Accepted) :
    request.Separated accepted :=
  fun _ _ _ _ _ _ heq => String.ofList_injective heq

/-- Two appends, and an epoch that resumes from them. -/
def twoAppends : List (ProviderLabel .plain) :=
  [.start, .append 0 (.single 1 le_rfl "user"), .append 0 (.single 2 (by decide) "summary"),
    .resume 0 none true true]

/-- The resumed epoch has both entries, and repeating the first append on it changes nothing. -/
theorem provider_epochs_verify_two_appends :
    ∃ record, ((providerSessions .plain).run twoAppends).epochs[1]? = some record ∧
      record.epoch.entryCount = 2 ∧
      (∃ rows, record.InOrder .plain ((providerSessions .plain).run twoAppends).images rows) ∧
      (AppendCall.single 1 le_rfl "user").request.Separated record.accepted ∧
      (((providerSessions .plain).run twoAppends).callback .plain 1 (.single 1 le_rfl "user")).2 =
        (providerSessions .plain).run twoAppends := by
  have hcount : (((providerSessions .plain).run twoAppends).epochs[1]?.map fun record =>
      (record.epoch.entryCount, record.epoch.nextSequence)) = some (2, 3) := by
    decide +kernel
  obtain ⟨record, hrecord, hcount⟩ := Option.map_eq_some_iff.mp hcount
  obtain ⟨hentries, hnext⟩ := Prod.mk.inj hcount
  obtain ⟨hrows, hcovered⟩ := provider_epochs_verify .plain twoAppends 1 record hrecord
  refine ⟨record, hrecord, hentries, hrows, Runtime.plain_separated _ _, (hcovered _ ?_).1⟩
  rw [hnext]
  decide

end Histories

section Kept

variable {rt : Runtime} {store : ProviderStore}

theorem prefix_recordAccepted (accepted : List Accepted) (call : AppendCall rt)
    (reply : AppendReply) : accepted <+: recordAccepted rt accepted call reply := by
  dsimp only [recordAccepted]
  split
  · split_ifs
    · exact prefix_rfl
    · exact prefix_append _ _
  · exact prefix_rfl

/-- Epochs keep their place, and nothing acknowledged in them is taken back. -/
theorem ProviderStore.step_keeps (label : ProviderLabel rt) {i : Nat} {record : EpochRecord}
    (h : store.epochs[i]? = some record) :
    ∃ next, (store.step rt label).epochs[i]? = some next ∧ record.accepted <+: next.accepted := by
  have hlt : i < store.epochs.length := (List.getElem?_eq_some_iff.mp h).1
  have hadded : ∀ more, (store.epochs ++ more)[i]? = some record := fun more =>
    (getElem?_append_left hlt).trans h
  cases label with
  | start => exact ⟨record, hadded _, prefix_rfl⟩
  | append epoch call =>
    dsimp only [ProviderStore.step, ProviderStore.callback]
    split
    · exact ⟨record, h, prefix_rfl⟩
    · rename_i found hfound
      split
      · exact ⟨record, h, prefix_rfl⟩
      · by_cases heq : epoch = i
        · subst heq
          obtain rfl := Option.some.inj (hfound.symm.trans h)
          exact ⟨_, getElem?_set_self hlt, prefix_recordAccepted ..⟩
        · exact ⟨record, (getElem?_set_ne heq).trans h, prefix_rfl⟩
  | resume source recovery available proved =>
    dsimp only [ProviderStore.step, ProviderStore.resume]
    split
    · exact ⟨record, h, prefix_rfl⟩
    · split
      · exact ⟨record, h, prefix_rfl⟩
      · exact ⟨record, hadded _, prefix_rfl⟩

theorem ProviderStore.runFrom_keeps (later : List (ProviderLabel rt)) {i : Nat}
    {record : EpochRecord} (h : store.epochs[i]? = some record) :
    ∃ next, ((providerSessions rt).runFrom store later).epochs[i]? = some next ∧
      record.accepted <+: next.accepted := by
  induction later generalizing store record with
  | nil => exact ⟨record, h, prefix_rfl⟩
  | cons label later ih =>
    obtain ⟨first, hfirst, hkept⟩ := step_keeps label h
    obtain ⟨next, hnext, hrest⟩ := ih hfirst
    exact ⟨next, hnext, hkept.trans hrest⟩

end Kept

/-- What was acknowledged in an epoch is read back, in its place, by every later verification. -/
theorem acknowledged_entries_stay (rt : Runtime) (labels later : List (ProviderLabel rt))
    (i : Nat) :
    let store := (providerSessions rt).run labels
    let last := (providerSessions rt).run (labels ++ later)
    store.epochs[i]? = none ∨ ∃ record next rows, store.epochs[i]? = some record ∧
      last.epochs[i]? = some next ∧ verifyProviderLedger rt last.images next.epoch = .ok rows ∧
      (acknowledged record.accepted).map (fun entry => (entry.1, some (Json.canonical entry.2))) <+:
        rows.map fun row => (row.subpath, row.entryJson) := by
  intro store last
  cases hrecord : store.epochs[i]? with
  | none => exact .inl rfl
  | some record =>
    obtain ⟨next, hnext, hkept⟩ := ProviderStore.runFrom_keeps later hrecord
    rw [← Machine.run_append] at hnext
    obtain ⟨batches, hrepresents⟩ := accounted_run (labels ++ later) next (mem_of_getElem? hnext)
    have horder := hrepresents.inOrder
    refine .inr ⟨record, next, _, rfl, hnext, horder.verifies, ?_⟩
    rw [horder.acknowledged]
    exact (hkept.flatMap _).map _

end AiPlatform.Context
