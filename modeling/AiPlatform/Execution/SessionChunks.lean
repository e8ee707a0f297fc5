import AiPlatform.Execution.SessionStore

/-!
# The requests of a batch

`_append_chunks` never measures a request it is filling: it measures the empty envelope once and
adds the size of every entry and comma. The size it tracks is the size of the request, so a batch
fails only where an entry is too large for a request of its own.
-/
namespace AiPlatform.Execution

open AiPlatform.Foundation AiPlatform.Kernel AiPlatform.Context List

section Chunks

variable {u : Unicode} {cfg : StoreConfig} {key : SessionKey} {id : String} {path : Option String}

/-- The request of some entries at a sequence number. -/
def appendRequest (id : String) (path : Option String) (entries : List Json) (sequence : Nat) :
    Payload :=
  ⟨.append, id, path, entries, some sequence⟩

/-- An entry adds its size, and a comma unless it is the first. -/
theorem size_appendRequest_concat (cfg : StoreConfig) (id : String) (path : Option String)
    (entries : List Json) (entry : Json) (sequence : Nat) :
    (appendRequest id path (entries ++ [entry]) sequence).size cfg =
      (appendRequest id path entries sequence).size cfg + entry.size +
        if entries = [] then 0 else 1 := by
  have harr : Json.size (.arr (entries ++ [entry])) =
      Json.size (.arr entries) + entry.size + if entries = [] then 0 else 1 := by
    rw [Json.size_arr, Json.size_arr, map_append, sum_append, length_append]
    cases entries with
    | nil => simp
    | cons first entries =>
      simp only [map_cons, sum_cons, length_cons, map_nil, sum_nil,
        length_nil, reduceCtorEq, if_false]
      omega
  simp only [Payload.size, Payload.json, appendRequest, Json.size_obj, map_append,
    map_cons, sum_append, sum_cons, length_append, length_cons, harr]
  omega

theorem payload_append (hid : sessionId u cfg key = .ok id) (hpath : subpath u key = .ok path)
    {entries : List Json} (hentries : entries.all isMapping = true) (sequence : Nat) :
    payload u cfg .append key entries (some sequence) =
      if (appendRequest id path entries sequence).size cfg ≤ cfg.maxRequestBytes then
        .ok (appendRequest id path entries sequence)
      else .error .requestTooLarge := by
  unfold payload
  rw [hid, hpath, ok_bind, ensure_of fun _ => hentries, ok_bind, ok_bind, if_pos rfl]
  unfold ensure appendRequest
  dsimp only
  split_ifs
  · rfl
  · rfl

/-! ## The loop -/

/-- The chunk being filled: what is tracked is the size of its request. -/
structure ChunkState.Tracks (cfg : StoreConfig) (id : String) (path : Option String)
    (st : ChunkState) : Prop where
  mappings : st.chunk.all isMapping = true
  length : st.chunk.length ≤ maxProviderSessionBatchCount
  bytes : st.chunk ≠ [] → st.chunkBytes = (appendRequest id path st.chunk st.start).size cfg
  fits : st.chunk ≠ [] → st.chunkBytes ≤ cfg.maxRequestBytes

/-- The requests so far keep both limits. -/
def WithinLimits (cfg : StoreConfig) (payloads : List Payload) : Prop :=
  ∀ p ∈ payloads, p.entries.length ≤ maxProviderSessionBatchCount ∧
    p.size cfg ≤ cfg.maxRequestBytes

/-- An invariant of the loop after it has taken some entries. -/
structure ChunkState.Good (cfg : StoreConfig) (id : String) (path : Option String) (start : Nat)
    (taken : List Json) (st : ChunkState) : Prop where
  holds : st.Holds start path taken
  tracks : st.Tracks cfg id path
  limits : WithinLimits cfg st.payloads

/-- The entry does not fit in a request of its own at its place in the batch. -/
def TooLarge (cfg : StoreConfig) (id : String) (path : Option String) (sequence : Nat)
    (entry : Json) : Prop :=
  cfg.maxRequestBytes < (appendRequest id path [entry] sequence).size cfg

theorem WithinLimits.concat {st : ChunkState} (h : WithinLimits cfg st.payloads)
    (tracks : st.Tracks cfg id path) (hne : st.chunk ≠ []) :
    WithinLimits cfg (st.payloads ++ [appendRequest id path st.chunk st.start]) := by
  refine forall_mem_append.mpr ⟨h, forall_mem_singleton.mpr ⟨tracks.length, ?_⟩⟩
  exact tracks.bytes hne ▸ tracks.fits hne

section Loop

variable (hid : sessionId u cfg key = .ok id) (hpath : subpath u key = .ok path)

include hid hpath

variable {st : ChunkState} {start : Nat} {taken : List Json}

/-- A request of the filled chunk is never refused. -/
theorem ChunkState.Tracks.payload (h : st.Tracks cfg id path) (hne : st.chunk ≠ []) :
    payload u cfg .append key st.chunk (some st.start) =
      .ok (appendRequest id path st.chunk st.start) := by
  rw [payload_append hid hpath h.mappings, if_pos (h.bytes hne ▸ h.fits hne)]

/-- After the flush there is room for another entry, or the chunk is empty. -/
theorem ChunkState.Good.flush (h : st.Good cfg id path start taken) (entryBytes : Nat) :
    ∃ next, st.flush u cfg key entryBytes = .ok next ∧ next.Good cfg id path start taken ∧
      (next.chunk ≠ [] → next.chunk.length < maxProviderSessionBatchCount ∧
        next.chunkBytes + entryBytes + 1 ≤ cfg.maxRequestBytes) := by
  by_cases hfull : st.chunk ≠ [] ∧ (st.chunk.length = maxProviderSessionBatchCount ∨
      cfg.maxRequestBytes < st.chunkBytes + entryBytes + 1)
  · have hflush : st.flush u cfg key entryBytes = .ok { st with
        payloads := st.payloads ++ [appendRequest id path st.chunk st.start]
        start := st.start + st.chunk.length
        chunk := [] } := by
      unfold ChunkState.flush
      rw [if_pos hfull, h.tracks.payload hid hpath hfull.1, ok_bind]
    refine ⟨_, hflush, ⟨h.holds.flush hpath hflush, ⟨rfl, Nat.zero_le _, nofun, nofun⟩, ?_⟩, nofun⟩
    exact h.limits.concat h.tracks hfull.1
  · have hflush : st.flush u cfg key entryBytes = .ok st := if_neg hfull
    refine ⟨st, hflush, h, fun hne => ?_⟩
    have hroom := not_or.mp fun hor => hfull ⟨hne, hor⟩
    exact ⟨lt_of_le_of_ne h.tracks.length hroom.1, not_lt.mp hroom.2⟩

/-- The envelope of an empty chunk is measured where the entry will stand. -/
theorem ChunkState.openBytes_eq (hempty : st.chunk = []) :
    st.openBytes u cfg key =
      if (appendRequest id path [] st.start).size cfg ≤ cfg.maxRequestBytes then
        .ok ((appendRequest id path [] st.start).size cfg)
      else .error .requestTooLarge := by
  unfold ChunkState.openBytes
  rw [if_pos hempty, payload_append hid hpath rfl]
  split_ifs
  · rfl
  · rfl

omit hid hpath in
/-- An entry whose request fits joins the chunk. -/
theorem ChunkState.Good.put (h : st.Good cfg id path start taken) {entry : Json}
    (hentry : isMapping entry = true) {bytes : Nat}
    (hbytes : bytes = (appendRequest id path (st.chunk ++ [entry]) st.start).size cfg)
    (hlength : st.chunk.length < maxProviderSessionBatchCount)
    (hfits : bytes ≤ cfg.maxRequestBytes) :
    ({ st with chunk := st.chunk ++ [entry], chunkBytes := bytes } : ChunkState).Good cfg id path
      start (taken ++ [entry]) := by
  obtain ⟨done, hchunks, hstart, rfl⟩ := h.holds.chunks
  refine ⟨⟨done, hchunks, hstart, (append_assoc ..).symm⟩,
    ⟨?_, ?_, fun _ => hbytes, fun _ => hfits⟩, h.limits⟩
  · rw [all_append, h.tracks.mappings, all_cons, hentry]
    rfl
  · rw [length_append, length_singleton]
    exact hlength

/-- One turn of the loop. -/
theorem ChunkState.Good.add (h : st.Good cfg id path start taken) {entry : Json}
    (hentry : isMapping entry = true) :
    (∃ next, st.add u cfg key (entry, entry.size) = .ok next ∧
        next.Good cfg id path start (taken ++ [entry])) ∨
      st.add u cfg key (entry, entry.size) = .error .requestTooLarge ∧
        TooLarge cfg id path (start + taken.length) entry := by
  obtain ⟨mid, hmid, good, hroom⟩ := h.flush hid hpath entry.size
  have hsize := size_appendRequest_concat cfg id path mid.chunk entry mid.start
  unfold ChunkState.add
  rw [hmid, ok_bind]
  by_cases hempty : mid.chunk = []
  · -- the entry is the first of its request
    obtain ⟨done, -, hstart, htaken⟩ := good.holds.chunks
    rw [hempty, append_nil] at htaken
    rw [hempty, if_pos rfl, Nat.add_zero, nil_append] at hsize
    have hnumber : mid.start = start + taken.length := by rw [hstart, htaken]
    rw [ChunkState.openBytes_eq hid hpath hempty]
    split_ifs with henvelope
    · rw [ok_bind, Nat.add_zero, ← hsize]
      unfold ensure
      dsimp only
      split_ifs with hfits
      · refine .inl ⟨_, rfl, good.put hentry ?_ ?_ hfits⟩
        · rw [hempty, nil_append]
        · rw [hempty]
          decide
      · refine .inr ⟨rfl, ?_⟩
        unfold TooLarge
        rw [← hnumber]
        exact not_le.mp hfits
    · refine .inr ⟨rfl, ?_⟩
      unfold TooLarge
      rw [← hnumber]
      omega
  · -- the chunk was left open because the entry fits
    obtain ⟨hlength, hbytes⟩ := hroom hempty
    have hopen : mid.openBytes u cfg key = .ok mid.chunkBytes := if_neg hempty
    rw [if_neg hempty, ← good.tracks.bytes hempty] at hsize
    rw [hopen, ok_bind, if_neg hempty]
    dsimp only
    rw [ensure_of hbytes, ok_bind]
    exact .inl ⟨_, rfl, good.put hentry hsize.symm hlength hbytes⟩

/-- The loop over the entries that are left. -/
theorem ChunkState.Good.foldlM {entries : List Json} (h : st.Good cfg id path start taken)
    (hentries : entries.all isMapping = true) :
    (∃ last, (entries.zip (entries.map Json.size)).foldlM (ChunkState.add u cfg key) st = .ok last ∧
        last.Good cfg id path start (taken ++ entries)) ∨
      (entries.zip (entries.map Json.size)).foldlM (ChunkState.add u cfg key) st =
          .error .requestTooLarge ∧
        ∃ before entry after, entries = before ++ entry :: after ∧
          TooLarge cfg id path (start + (taken ++ before).length) entry := by
  induction entries generalizing taken st with
  | nil => exact .inl ⟨st, rfl, by rwa [append_nil]⟩
  | cons entry entries ih =>
    obtain ⟨hentry, hrest⟩ := Bool.and_eq_true_iff.mp (all_cons ▸ hentries)
    rw [map_cons, zip_cons_cons, foldlM_cons]
    obtain ⟨next, hnext, good⟩ | ⟨herror, hlarge⟩ := h.add hid hpath hentry
    · rw [hnext, ok_bind]
      obtain ⟨last, hlast, good⟩ | ⟨herror, before, large, after, hsplit, hlarge⟩ := ih good hrest
      · exact .inl ⟨last, hlast, by rwa [append_assoc, singleton_append] at good⟩
      · refine .inr ⟨herror, entry :: before, large, after, by rw [hsplit, cons_append], ?_⟩
        rwa [append_assoc, singleton_append] at hlarge
    · rw [herror]
      exact .inr ⟨rfl, [], entry, entries, rfl, by rwa [append_nil]⟩

end Loop

theorem ChunkState.good_initial (cfg : StoreConfig) (id : String) (path : Option String)
    (start : Nat) : (⟨[], start, [], 0⟩ : ChunkState).Good cfg id path start [] :=
  ⟨⟨[], chunksOf_nil start path, rfl, rfl⟩, ⟨rfl, Nat.zero_le _, nofun, nofun⟩, nofun⟩

/-- A batch is refused only for an entry that does not fit alone at its place; otherwise its
requests follow one another and keep both limits, and the size tracked on the way is always the
size of the request being filled. -/
theorem appendChunks_requests (hid : sessionId u cfg key = .ok id)
    (hpath : subpath u key = .ok path) {entries : List Json}
    (hentries : entries.all isMapping = true) (start : Nat) :
    ((∃ payloads, appendChunks u cfg key entries (entries.map Json.size) start = .ok payloads ∧
          ChunksOf start path entries payloads ∧ WithinLimits cfg payloads) ∨
        appendChunks u cfg key entries (entries.map Json.size) start = .error .requestTooLarge ∧
          ∃ before entry after, entries = before ++ entry :: after ∧
            TooLarge cfg id path (start + before.length) entry) ∧
      ∀ before after st, entries = before ++ after →
        (before.zip (before.map Json.size)).foldlM (ChunkState.add u cfg key) ⟨[], start, [], 0⟩ =
            .ok st →
          st.chunk ≠ [] → st.chunkBytes = (appendRequest id path st.chunk st.start).size cfg := by
  have initial := ChunkState.good_initial cfg id path start
  refine ⟨?_, ?_⟩
  · unfold appendChunks
    obtain ⟨last, hlast, good⟩ | ⟨herror, before, entry, after, hsplit, hlarge⟩ :=
      initial.foldlM hid hpath hentries
    · left
      obtain ⟨done, hchunks, hstart, htaken⟩ := good.holds.chunks
      rw [nil_append] at htaken
      rw [hlast, ok_bind]
      split_ifs with hempty
      · rw [hempty, append_nil] at htaken
        exact ⟨_, rfl, htaken ▸ hchunks, good.limits⟩
      · have hpayload := good.tracks.payload hid hpath hempty
        rw [hpayload, ok_bind]
        refine ⟨_, rfl, ?_, good.limits.concat good.tracks hempty⟩
        rw [hstart] at hpayload ⊢
        exact htaken ▸ hchunks.snoc hpath hempty hpayload
    · right
      rw [herror]
      exact ⟨rfl, before, entry, after, hsplit, hlarge⟩
  · intro before after st hsplit hst hne
    have hbefore : before.all isMapping = true := by
      rw [hsplit, all_append] at hentries
      exact (Bool.and_eq_true_iff.mp hentries).1
    obtain ⟨last, hlast, good⟩ | ⟨herror, -⟩ := initial.foldlM hid hpath hbefore
    · obtain rfl := Except.ok.inj (hlast.symm.trans hst)
      exact good.tracks.bytes hne
    · exact absurd (herror.symm.trans hst) nofun

end Chunks

/-- Room for one small entry beside the envelope. -/
def narrowStore : StoreConfig := ⟨"r", "a", "t", none, none, 170⟩

theorem appendChunks_requests_narrowStore :
    sessionId .ascii narrowStore (.text "s") = .ok "s" ∧
      ∀ before after st, [Json.obj [("n", .int 1)], .obj [("n", .int 2)]] = before ++ after →
        (before.zip (before.map Json.size)).foldlM
            (ChunkState.add .ascii narrowStore (.text "s")) ⟨[], 9, [], 0⟩ = .ok st →
          st.chunk ≠ [] →
            st.chunkBytes = (appendRequest "s" none st.chunk st.start).size narrowStore :=
  ⟨by decide +kernel, (appendChunks_requests (by decide +kernel) (by decide +kernel) rfl 9).2⟩

end AiPlatform.Execution
