import AiPlatform.Context.ProviderAppends

/-!
# A copy of an acknowledged part

A resumed epoch starts with the rows and receipts of its source up to a sequence that ends a
receipt. Receipts end where batches end, so the copy is the account of the first batches of the
source.
-/
namespace AiPlatform.Context

open AiPlatform.Foundation AiPlatform.Kernel List

/-! ## Cutting at a batch -/

section Cut

variable {rt : Runtime} {images : ImageValues} {batches : List Batch}

theorem Batch.end_of_mem_numbered {start : Nat} {p : Nat × Batch}
    (hp : p ∈ Batch.numbered start batches) :
    ∃ k, p.1 + p.2.items.length = start + (Batch.flat (batches.take k)).length := by
  induction batches generalizing start with
  | nil => contradiction
  | cons b batches ih =>
    rcases mem_cons.mp hp with rfl | hp
    · exact ⟨1, by simp [Batch.flat_singleton, Batch.length_labelled]⟩
    · obtain ⟨k, hk⟩ := ih hp
      refine ⟨k + 1, ?_⟩
      rw [hk, take_succ_cons, Batch.flat_cons, length_append, Batch.length_labelled,
        Nat.add_assoc]

theorem Batch.end_le_of_mem_numbered {start : Nat} {p : Nat × Batch}
    (hp : p ∈ Batch.numbered start batches) :
    p.1 + p.2.items.length ≤ start + (Batch.flat batches).length := by
  obtain ⟨k, hk⟩ := Batch.end_of_mem_numbered hp
  have hflat := Batch.flat_append (batches.take k) (batches.drop k)
  rw [take_append_drop] at hflat
  rw [hk, hflat, length_append]
  omega

theorem sequence_mem_entryRows {u : Unicode} {start : Nat} {entries : List (String × StoredEntry)}
    {row : EntryRow} (h : row ∈ entryRows u start entries) :
    start ≤ row.sequence ∧ row.sequence < start + entries.length := by
  have hmem := mem_map_of_mem (f := EntryRow.sequence) h
  rw [map_sequence_entryRows, mem_range'_1] at hmem
  exact hmem

theorem filter_entryRows (u : Unicode) (front back : List (String × StoredEntry)) :
    ((entryRows u 1 (front ++ back)).filter fun row => (row.sequence : Int) ≤ front.length) =
      entryRows u 1 front := by
  rw [entryRows_append, filter_append, filter_eq_self.mpr, filter_eq_nil_iff.mpr,
    append_nil]
  · intro row hrow
    have hbounds := sequence_mem_entryRows hrow
    simp only [decide_eq_true_eq]
    omega
  · intro row hrow
    have hbounds := sequence_mem_entryRows hrow
    simp only [decide_eq_true_eq]
    omega

section

variable {front back : List Batch} (h : ∀ b ∈ front ++ back, b.Valid rt images)
include h

/-- What is kept of the numbered batches when those that end within the first are kept. -/
theorem filter_numbered :
    ((Batch.numbered 1 (front ++ back)).filter fun p =>
      p.1 + p.2.items.length - 1 ≤ (Batch.flat front).length) = Batch.numbered 1 front := by
  rw [Batch.numbered_append, filter_append, filter_eq_self.mpr,
    filter_eq_nil_iff.mpr, append_nil]
  · intro p hp
    have hle := Batch.le_of_mem_numbered hp
    have hback : ∀ b ∈ back, b.Valid rt images := fun b hb => h b (mem_append_right _ hb)
    have hpos := (hback p.2 (Batch.lt_of_mem_numbered hback hp).1).one_le_length
    simp only [decide_eq_true_eq]
    omega
  · intro p hp
    have hle := Batch.end_le_of_mem_numbered hp
    simp only [decide_eq_true_eq]
    omega

theorem filter_receipts :
    ((Batch.receipts rt 1 (front ++ back)).filter fun receipt =>
      (receipt.lastSequence : Int) ≤ (Batch.flat front).length) = Batch.receipts rt 1 front := by
  rw [Batch.receipts, filter_map, Batch.receipts, ← filter_numbered h]
  congr 1
  apply filter_congr
  intro p _
  simp only [Function.comp, Batch.receipt, Int.ofNat_le]

theorem filter_appends :
    ((Batch.appends 1 (front ++ back)).filter fun append =>
      append.lastSequence < (Batch.flat front).length + 1) = Batch.appends 1 front := by
  rw [Batch.appends, filter_map, Batch.appends, ← filter_numbered h]
  congr 1
  apply filter_congr
  intro p _
  simp only [Function.comp, Batch.append, Nat.lt_succ_iff]

end

theorem verifiedRows_take (u : Unicode) (front back : List (String × StoredEntry)) :
    (verifiedRows u 1 (front ++ back)).take front.length = verifiedRows u 1 front := by
  rw [verifiedRows_append, take_left']
  simp [verifiedRows]

theorem entryRows_take (u : Unicode) (front back : List (String × StoredEntry)) :
    (entryRows u 1 (front ++ back)).take front.length = entryRows u 1 front := by
  rw [entryRows_append, take_left' (by simp)]

theorem map_entryJson_verifiedRows (u : Unicode) (start : Nat)
    (entries : List (String × StoredEntry)) :
    (verifiedRows u start entries).map EntryRow.entryJson =
      entries.map fun e => some (Json.canonical e.2.original) := by
  induction entries generalizing start with
  | nil => rfl
  | cons e entries ih =>
    have htail := ih (start + 1)
    simp only [verifiedRows, entryRows, map_cons, zipWith_cons_cons] at htail ⊢
    rw [htail]

end Cut

/-! ## The copy -/

section Copy

variable {rt : Runtime} {images : ImageValues} {record : EpochRecord} {batches : List Batch}

theorem utf8Length_canonicalText (j : Json) : Json.utf8Length (canonicalText j) = j.size :=
  Json.size_canonical j

/-- A sequence a resume may end at is where some batch ends. -/
theorem Represents.exists_cut (h : Represents rt images record batches) {final : Int}
    (hfinal : 0 ≤ final)
    (hboundary : final = 0 ∨
      ∃ receipt ∈ record.epoch.receipts, (receipt.lastSequence : Int) = final) :
    ∃ k, final = (Batch.flat (batches.take k)).length := by
  rcases hboundary with rfl | ⟨receipt, hreceipt, hlast⟩
  · exact ⟨0, rfl⟩
  · rw [h.receipts, Batch.receipts] at hreceipt
    obtain ⟨p, hp, rfl⟩ := mem_map.mp hreceipt
    have hpos := (h.valid p.2 (Batch.lt_of_mem_numbered h.valid hp).1).one_le_length
    obtain ⟨k, hk⟩ := Batch.end_of_mem_numbered hp
    refine ⟨k, ?_⟩
    simp only [Batch.receipt] at hlast
    omega

theorem sum_transcript (u : Unicode) (entries : List (String × StoredEntry)) (images : Bool) :
    ((((verifiedRows u 1 entries).map fun row => row.entryJson.getD .null).map fun entry =>
      if images then entry.size else Json.utf8Length (canonicalText entry)).sum) =
        (entries.map fun e => e.2.original.size).sum := by
  have hentries : (verifiedRows u 1 entries).map (fun row => row.entryJson.getD .null) =
      entries.map fun e => Json.canonical e.2.original := by
    have hjson := congrArg (List.map fun j : Option Json => j.getD .null)
      (map_entryJson_verifiedRows u 1 entries)
    simpa [map_map, Function.comp_def] using hjson
  rw [hentries, map_map]
  congr 1
  apply map_congr_left
  intro e _
  simp only [Function.comp, utf8Length_canonicalText, Json.size_canonical, ite_self]

theorem sum_structured (u : Unicode) (start : Nat) (entries : List (String × StoredEntry)) :
    ((entryRows u start entries).map EntryRow.storedBytes).sum =
      (entries.map fun e => e.2.stored.size).sum := by
  induction entries generalizing start with
  | nil => rfl
  | cons e entries ih =>
    simp only [entryRows, map_cons, sum_cons, ih]
    simp only [EntryRow.storedBytes, StoredEntry.row, utf8Length_canonicalText]

/-- A resumed epoch is the account of the first batches of its source. -/
theorem Represents.resume (h : Represents rt images record batches) {recovery : Option Recovery}
    {available proved : Bool} {copy : Epoch}
    (hcopy : resumeProviderEpoch rt images record.epoch recovery available proved = .ok copy) :
    ∃ k, Represents rt images
      ⟨copy, record.accepted.filter fun append => append.lastSequence < copy.nextSequence⟩
      (batches.take k) := by
  obtain ⟨-, hcopy⟩ := ensure_bind_eq_ok.mp hcopy
  obtain ⟨-, hcopy⟩ := ensure_bind_eq_ok.mp hcopy
  obtain ⟨⟨rows, bytes⟩, hrows, hcopy⟩ := bind_eq_ok.mp hcopy
  obtain ⟨-, hcopy⟩ := ensure_bind_eq_ok.mp hcopy
  obtain rfl := Except.ok.inj hcopy
  unfold verifiedProviderPrefix at hrows
  rw [h.read] at hrows
  obtain ⟨-, hrows⟩ := ensure_bind_eq_ok.mp hrows
  rw [h.verify, ok_bind] at hrows
  obtain ⟨⟨hnonneg, hlt⟩, hrows⟩ := ensure_bind_eq_ok.mp hrows
  obtain ⟨hboundary, hrows⟩ := ensure_bind_eq_ok.mp hrows
  obtain ⟨k, hk⟩ := h.exists_cut hnonneg hboundary
  have hflat := Batch.flat_append (batches.take k) (batches.drop k)
  rw [take_append_drop] at hflat
  have hvalid : ∀ b ∈ batches.take k ++ batches.drop k, b.Valid rt images := by
    rw [take_append_drop]
    exact h.valid
  generalize (recovery.bind Recovery.finalSequence).getD ((record.epoch.nextSequence : Int) - 1) =
    final at hrows hk ⊢
  subst hk
  obtain ⟨hkept, hbytes⟩ := Prod.mk.inj (Except.ok.inj hrows)
  rw [Int.toNat_natCast, h.rows, hflat, entryRows_take] at hkept
  rw [Int.toNat_natCast, hflat, verifiedRows_take, sum_transcript] at hbytes
  subst hkept hbytes
  refine ⟨k, fun b hb => h.valid b (mem_of_mem_take hb), ?_, ?_, ?_, rfl, ?_, rfl, ?_, ?_⟩
  · rw [h.rows, hflat]
    exact filter_entryRows rt.unicode _ _
  · have hreceipts := filter_receipts hvalid
    rw [take_append_drop, ← h.receipts] at hreceipts
    exact hreceipts
  · have happends := filter_appends hvalid
    rw [take_append_drop, ← h.accepted] at happends
    exact happends
  · exact length_entryRows ..
  · exact sum_structured ..
  · have hle := h.length_le
    rw [hflat, length_append] at hle
    omega

end Copy

end AiPlatform.Context
