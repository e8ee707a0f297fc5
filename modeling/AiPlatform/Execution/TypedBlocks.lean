import Mathlib.Data.List.Induction
import AiPlatform.Foundation.Bytes
import AiPlatform.Foundation.Keyspace
import AiPlatform.Foundation.Outcome
import AiPlatform.Foundation.Runs

/-!
# Observations of assistant messages

`ClaudeTypedBlockObservations` keeps one digest for every observation it has accepted. The digest is
over JSON arrays, raw lengths and texts with nothing around them; the bytes can still be taken
apart, because an array ends at its bracket and the length of a text starts with a zero byte.
-/
namespace AiPlatform.Execution.TypedBlocks

open AiPlatform.Foundation Hash List

/-- The four components of a block; `text` is null where the block has none. -/
structure Block where
  kind : Json
  identity : Json
  name : Json
  text : Json
  deriving DecidableEq

structure Observation where
  messageId : Json
  uuid : Json
  stopReason : Json
  blocks : List Block
  deriving DecidableEq

inductive ObservationError where
  | observationInvalid
  | textBlockInvalid
  /-- `to_bytes` raises `OverflowError`. -/
  | textTooLong
  deriving DecidableEq, Repr

/-- `isinstance(value, str) and 0 < len(value) <= 1024` -/
def shortText : Json → Option String
  | .str value => if 0 < value.length ∧ value.length ≤ 1024 then some value else none
  | _ => none

/-- `json.dumps(values, ensure_ascii=False).encode()` -/
def jsonBytes (values : List Json) : Bytes := utf8 (Json.spacedDumps [' '] (.arr values))

/-- `len(text).to_bytes(8, "big")` and the text. -/
def textBytes (text : String) : Bytes := bigEndian 8 text.length ++ utf8 text.toList

/-- What a block adds to the digest. -/
def blockBytes (block : Block) : Except ObservationError Bytes :=
  match block.text with
  | .str text => do
    ensure (text.length < 256 ^ 8) .textTooLong
    pure (jsonBytes [block.kind, block.identity, block.name] ++ textBytes text)
  | .null => do
    ensure (block.kind ≠ .str "TextBlock") .textBlockInvalid
    pure (jsonBytes [block.kind, block.identity, block.name])
  | _ => .error .textBlockInvalid

/-- Everything that is hashed for an observation. -/
def observationBytes (o : Observation) : Except ObservationError Bytes := do
  let blocks ← o.blocks.mapM blockBytes
  pure (jsonBytes [o.messageId, o.stopReason] ++ blocks.flatten)

structure Observations where
  recent : Hash String (String × String)
  currentMessage : Option String
  retiredMessages : List String

def Observations.initial : Observations := ⟨∅, none, []⟩

/-- Both ids are texts of an allowed length. -/
def identities (o : Observation) : Except ObservationError (String × String) := do
  let messageId ← expect (shortText o.messageId) .observationInvalid
  let uuid ← expect (shortText o.uuid) .observationInvalid
  pure (messageId, uuid)

section Accept

variable (sha : Sha256)

/-- The part of `accept` after the digest. -/
def Observations.file (s : Observations) (messageId uuid digest : String) :
    Except ObservationError (Observations × Bool) :=
  match hget s.recent uuid with
  | some previous =>
    if previous = (messageId, digest) then .ok (s, false) else .error .observationInvalid
  | none =>
    if messageId ∈ s.retiredMessages then .error .observationInvalid
    else
      .ok
        ({ recent := hset s.recent uuid (messageId, digest)
           currentMessage := some messageId
           retiredMessages :=
            match s.currentMessage with
            | some current =>
              if current = messageId then s.retiredMessages else current :: s.retiredMessages
            | none => s.retiredMessages },
          true)

def Observations.accept (s : Observations) (o : Observation) :
    Except ObservationError (Observations × Bool) := do
  let (messageId, uuid) ← identities o
  let bytes ← observationBytes o
  s.file messageId uuid (toHex (sha.digest bytes))

end Accept

/-! ## Taking the bytes apart -/

section Bytes

variable {fmt : FloatFormat}

theorem jsonBytes_cons (values : List Json) : ∃ rest, jsonBytes values = 0x5b :: rest := by
  unfold jsonBytes
  rw [Json.spacedDumps_arr, utf8_cons]
  exact ⟨_, rfl⟩

variable {rest bytes : Bytes} {text : String} {block : Block} {pieces : List Bytes}
  {blocks : List Block}

/-- An array ends at its bracket. -/
theorem jsonBytes_append_inj {values values' : List Json} {rest' : Bytes}
    (hvalues : ∀ j ∈ values, Json.Proper fmt j) (hvalues' : ∀ j ∈ values', Json.Proper fmt j)
    (h : jsonBytes values ++ rest = jsonBytes values' ++ rest') :
    values = values' ∧ rest = rest' := by
  have hinj : ∀ {a b : List Json} {more : List Char}, (∀ j ∈ a, Json.Proper fmt j) →
      (∀ j ∈ b, Json.Proper fmt j) →
      Json.spacedDumps [' '] (.arr b) = Json.spacedDumps [' '] (.arr a) ++ more →
      a = b ∧ more = [] := by
    intro a b more ha hb heq
    rw [← append_nil (Json.spacedDumps [' '] (.arr b))] at heq
    obtain ⟨hitems, hmore⟩ := Json.spacedDumps_arr_inj (by rfl) (Json.proper_arr.mpr hb)
      (Json.proper_arr.mpr ha) heq
    exact ⟨hitems.symm, hmore.symm⟩
  obtain ⟨more, htext, hrest⟩ | ⟨more, htext, hrest⟩ := utf8_append_cases h
  · obtain ⟨rfl, rfl⟩ := hinj hvalues hvalues' htext
    exact ⟨rfl, hrest⟩
  · obtain ⟨rfl, rfl⟩ := hinj hvalues' hvalues htext
    exact ⟨rfl, hrest.symm⟩

theorem textBytes_cons (h : text.length < 256 ^ 7) :
    ∃ rest, textBytes text = 0 :: rest := by
  obtain ⟨rest, hrest⟩ := bigEndian_eq_cons_zero h
  exact ⟨rest ++ utf8 text.toList, by rw [textBytes, hrest, cons_append]⟩

theorem textBytes_append_inj {text' : String} (htext : text.length < 256 ^ 7)
    (htext' : text'.length < 256 ^ 7) {rest' : Bytes}
    (h : textBytes text ++ rest = textBytes text' ++ rest') : text = text' ∧ rest = rest' := by
  unfold textBytes at h
  rw [append_assoc, append_assoc] at h
  obtain ⟨hlengths, hrest⟩ := append_inj h (by simp)
  have hlength : text.length = text'.length := by
    refine bigEndian_inj ?_ ?_ hlengths
    · exact htext.trans (by decide)
    · exact htext'.trans (by decide)
  rw [← String.length_toList, ← String.length_toList] at hlength
  obtain ⟨htexts, hrest⟩ := utf8_append_inj hlength hrest
  exact ⟨String.toList_inj.mp htexts, hrest⟩

/-- A block that is hashed is its array, followed by its text if it has one. -/
theorem blockBytes_eq_ok (h : blockBytes block = .ok bytes) :
    block.text = .null ∧ bytes = jsonBytes [block.kind, block.identity, block.name] ∨
      ∃ text, block.text = .str text ∧
        bytes = jsonBytes [block.kind, block.identity, block.name] ++ textBytes text := by
  unfold blockBytes at h
  split at h
  · rename_i text htext
    obtain ⟨-, h⟩ := ensure_bind_eq_ok.mp h
    exact .inr ⟨text, htext, (Except.ok.inj h).symm⟩
  · rename_i htext
    obtain ⟨-, h⟩ := ensure_bind_eq_ok.mp h
    exact .inl ⟨htext, (Except.ok.inj h).symm⟩
  · cases h

/-- The bytes of blocks are empty or start with a bracket. -/
theorem flatten_blockBytes_head
    (h : List.Forall₂ (fun block bytes => blockBytes block = .ok bytes) blocks pieces) :
    pieces.flatten = [] ∨ ∃ rest, pieces.flatten = 0x5b :: rest := by
  cases h with
  | nil => exact .inl rfl
  | @cons block bytes blocks pieces hblock _ =>
    obtain ⟨rest, hrest⟩ := jsonBytes_cons [block.kind, block.identity, block.name]
    right
    obtain ⟨-, rfl⟩ | ⟨text, -, rfl⟩ := blockBytes_eq_ok hblock
    · exact ⟨rest ++ pieces.flatten, by rw [flatten_cons, hrest, cons_append]⟩
    · exact ⟨rest ++ textBytes text ++ pieces.flatten,
        by rw [flatten_cons, hrest, cons_append, cons_append]⟩

/-- A text cannot be taken for the blocks that follow. -/
theorem textBytes_ne_blocks (htext : text.length < 256 ^ 7)
    (h : List.Forall₂ (fun block bytes => blockBytes block = .ok bytes) blocks pieces) :
    textBytes text ++ rest ≠ pieces.flatten := by
  intro heq
  obtain ⟨tail, htail⟩ := textBytes_cons htext
  rw [htail, cons_append] at heq
  obtain hnil | ⟨more, hmore⟩ := flatten_blockBytes_head h
  · rw [hnil] at heq
    cases heq
  · rw [hmore] at heq
    exact absurd (List.cons.inj heq).1 (by decide)

/-- The values of a block are JSON values and its text is short. -/
def Block.WellFormed (fmt : FloatFormat) (block : Block) : Prop :=
  (Json.Proper fmt block.kind ∧ Json.Proper fmt block.identity ∧ Json.Proper fmt block.name) ∧
    ∀ text, block.text = .str text → text.length < 256 ^ 7

theorem Block.WellFormed.values (h : block.WellFormed fmt) :
    ∀ j ∈ [block.kind, block.identity, block.name], Json.Proper fmt j := by
  obtain ⟨⟨hkind, hidentity, hname⟩, -⟩ := h
  simp [hkind, hidentity, hname]

theorem blockBytes_ne_nil (h : blockBytes block = .ok bytes) (rest : Bytes) :
    bytes ++ rest ≠ [] := by
  obtain ⟨tail, htail⟩ := jsonBytes_cons [block.kind, block.identity, block.name]
  obtain ⟨-, rfl⟩ | ⟨text, -, rfl⟩ := blockBytes_eq_ok h
  · simp [htail]
  · simp [htail]

/-- The first block can be taken off the bytes of a list of blocks. -/
theorem blockBytes_append_inj {block' : Block} {bytes' : Bytes} {blocks' : List Block}
    {pieces' : List Bytes} (hb : block.WellFormed fmt) (hb' : block'.WellFormed fmt)
    (hblock : blockBytes block = .ok bytes) (hblock' : blockBytes block' = .ok bytes')
    (h : List.Forall₂ (fun block bytes => blockBytes block = .ok bytes) blocks pieces)
    (h' : List.Forall₂ (fun block bytes => blockBytes block = .ok bytes) blocks' pieces')
    (heq : bytes ++ pieces.flatten = bytes' ++ pieces'.flatten) :
    block = block' ∧ pieces.flatten = pieces'.flatten := by
  obtain ⟨kind, identity, name, text⟩ := block
  obtain ⟨kind', identity', name', text'⟩ := block'
  obtain ⟨rfl, rfl⟩ | ⟨value, rfl, rfl⟩ := blockBytes_eq_ok hblock
  all_goals
    obtain ⟨rfl, rfl⟩ | ⟨value', rfl, rfl⟩ := blockBytes_eq_ok hblock'
  · obtain ⟨hvalues, hrest⟩ := jsonBytes_append_inj hb.values hb'.values heq
    simp only [List.cons.injEq, and_true] at hvalues
    obtain ⟨rfl, rfl, rfl⟩ := hvalues
    exact ⟨rfl, hrest⟩
  · rw [append_assoc] at heq
    obtain ⟨-, hrest⟩ := jsonBytes_append_inj hb.values hb'.values heq
    exact absurd hrest.symm (textBytes_ne_blocks (hb'.2 value' rfl) h)
  · rw [append_assoc] at heq
    obtain ⟨-, hrest⟩ := jsonBytes_append_inj hb.values hb'.values heq
    exact absurd hrest (textBytes_ne_blocks (hb.2 value rfl) h')
  · rw [append_assoc, append_assoc] at heq
    obtain ⟨hvalues, hrest⟩ := jsonBytes_append_inj hb.values hb'.values heq
    obtain ⟨rfl, hpieces⟩ := textBytes_append_inj (hb.2 value rfl) (hb'.2 value' rfl) hrest
    simp only [List.cons.injEq, and_true] at hvalues
    obtain ⟨rfl, rfl, rfl⟩ := hvalues
    exact ⟨rfl, hpieces⟩

theorem blocks_inj {blocks' : List Block} {pieces' : List Bytes}
    (hblocks : ∀ block ∈ blocks, block.WellFormed fmt)
    (hblocks' : ∀ block ∈ blocks', block.WellFormed fmt)
    (h : List.Forall₂ (fun block bytes => blockBytes block = .ok bytes) blocks pieces)
    (h' : List.Forall₂ (fun block bytes => blockBytes block = .ok bytes) blocks' pieces')
    (heq : pieces.flatten = pieces'.flatten) : blocks = blocks' := by
  induction h generalizing blocks' pieces' with
  | nil =>
    cases h' with
    | nil => rfl
    | cons hblock _ => exact absurd heq.symm (blockBytes_ne_nil hblock _)
  | cons hblock hrest ih =>
    cases h' with
    | nil => exact absurd heq (blockBytes_ne_nil hblock _)
    | cons hblock' hrest' =>
      obtain ⟨hb, hbs⟩ := forall_mem_cons.mp hblocks
      obtain ⟨hb', hbs'⟩ := forall_mem_cons.mp hblocks'
      obtain ⟨rfl, heq⟩ := blockBytes_append_inj hb hb' hblock hblock' hrest hrest' heq
      rw [ih hbs hbs' hrest' heq]

/-- The values of an observation are JSON values and its texts are short. -/
structure Observation.WellFormed (fmt : FloatFormat) (o : Observation) : Prop where
  messageId : Json.Proper fmt o.messageId
  stopReason : Json.Proper fmt o.stopReason
  blocks : ∀ block ∈ o.blocks, block.WellFormed fmt

/-- The hashed bytes determine the message, the stop reason and the blocks. -/
theorem observationBytes_inj {o o' : Observation} (ho : o.WellFormed fmt) (ho' : o'.WellFormed fmt)
    (h : observationBytes o = .ok bytes) (h' : observationBytes o' = .ok bytes) :
    o.messageId = o'.messageId ∧ o.stopReason = o'.stopReason ∧ o.blocks = o'.blocks := by
  obtain ⟨pieces, hpieces, h⟩ := bind_eq_ok.mp h
  obtain ⟨pieces', hpieces', h'⟩ := bind_eq_ok.mp h'
  obtain rfl := Except.ok.inj h
  have hvalues : ∀ p : Observation, p.WellFormed fmt →
      ∀ j ∈ [p.messageId, p.stopReason], Json.Proper fmt j := by
    intro p hp
    simp [hp.messageId, hp.stopReason]
  obtain ⟨hheader, hrest⟩ := jsonBytes_append_inj (hvalues o' ho') (hvalues o ho) (Except.ok.inj h')
  simp only [List.cons.injEq, and_true] at hheader
  have hblocks := blocks_inj ho.blocks ho'.blocks (mapM_eq_ok.mp hpieces) (mapM_eq_ok.mp hpieces')
    hrest.symm
  exact ⟨hheader.1.symm, hheader.2.symm, hblocks⟩

end Bytes

/-! ## Runs -/

/-- The observations and those that were accepted so far. -/
structure ObservedRun where
  observations : Observations
  accepted : List Observation

section Runs

variable (sha : Sha256)

def ObservedRun.step (s : ObservedRun) (o : Observation) : ObservedRun :=
  match s.observations.accept sha o with
  | .ok (next, true) => ⟨next, s.accepted ++ [o]⟩
  | .ok (next, false) => ⟨next, s.accepted⟩
  | .error _ => s

def observationMachine : Machine ObservedRun Observation := ⟨⟨.initial, []⟩, ObservedRun.step sha⟩

end Runs

/-- No message comes back after another one has started. -/
def Contiguous (ids : List Json) : Prop :=
  ∀ before id middle after, ids = before ++ id :: (middle ++ id :: after) →
    ∀ other ∈ middle, other = id

theorem Contiguous.concat {ids : List Json} {id : Json} (h : Contiguous ids)
    (hlast : id ∈ ids → ids.getLast? = some id) : Contiguous (ids ++ [id]) := by
  intro before first middle after heq
  rcases eq_nil_or_concat after with rfl | ⟨later, last, rfl⟩
  · -- the new id closes the run
    rw [← cons_append, ← append_assoc] at heq
    obtain ⟨hids, hid⟩ := append_inj' heq rfl
    obtain rfl := (List.cons.inj hid).1
    have hmem : id ∈ ids := by
      rw [hids]
      simp
    rcases eq_nil_or_concat middle with rfl | ⟨earlier, last, rfl⟩
    · simp
    · have hsplit : ids = (before ++ id :: earlier) ++ [last] := by
        rw [hids, concat_eq_append, append_assoc, cons_append]
      have hid := hlast hmem
      rw [hsplit, getLast?_concat] at hid
      obtain rfl := Option.some.inj hid
      rw [append_assoc, cons_append] at hsplit
      have hearlier := h before last earlier [] hsplit
      rw [concat_eq_append]
      exact forall_mem_append.mpr ⟨hearlier, forall_mem_singleton.mpr rfl⟩
  · have hsplit : ids ++ [id] = (before ++ first :: (middle ++ first :: later)) ++ [last] := by
      rw [heq, concat_eq_append]
      simp
    exact h before first middle later (append_inj' hsplit rfl).1

/-! ## The invariant -/

/-- An accepted observation is filed under its uuid. -/
def Filed (sha : Sha256) (s : Observations) (o : Observation) : Prop :=
  ∃ messageId uuid bytes, identities o = .ok (messageId, uuid) ∧
    observationBytes o = .ok bytes ∧
    hget s.recent uuid = some (messageId, toHex (sha.digest bytes))

structure ObservedRun.Invariant (sha : Sha256) (s : ObservedRun) : Prop where
  filed : ∀ o ∈ s.accepted, Filed sha s.observations o
  known : ∀ uuid entry, hget s.observations.recent uuid = some entry →
    ∃ o ∈ s.accepted, o.uuid = .str uuid
  current : s.observations.currentMessage.map Json.str =
    (s.accepted.map Observation.messageId).getLast?
  retired : ∀ id, .str id ∈ s.accepted.map Observation.messageId →
    s.observations.currentMessage = some id ∨ id ∈ s.observations.retiredMessages
  contiguous : Contiguous (s.accepted.map Observation.messageId)

theorem ObservedRun.invariant_initial (sha : Sha256) :
    (observationMachine sha).start.Invariant sha :=
  ⟨nofun, fun uuid entry h => by simp [observationMachine, Observations.initial] at h, rfl, nofun,
    fun before id middle after h => by simp [observationMachine] at h⟩

theorem shortText_eq_some {value : Json} {text : String} (h : shortText value = some text) :
    value = .str text := by
  unfold shortText at h
  split at h
  · split_ifs at h
    rw [Option.some.inj h]
  · cases h

variable {uuid messageId : String} {o : Observation} {next s : Observations}

theorem identities_eq_ok (h : identities o = .ok (messageId, uuid)) :
    o.messageId = .str messageId ∧ o.uuid = .str uuid := by
  obtain ⟨m, hm, h⟩ := expect_bind_eq_ok.mp h
  obtain ⟨u, hu, h⟩ := expect_bind_eq_ok.mp h
  obtain ⟨rfl, rfl⟩ := Prod.mk.inj (Except.ok.inj h)
  exact ⟨shortText_eq_some hm, shortText_eq_some hu⟩

/-- What an answer of `accept` says. -/
theorem accept_eq_ok {sha : Sha256} {fresh : Bool} (h : s.accept sha o = .ok (next, fresh)) :
    ∃ messageId uuid bytes, identities o = .ok (messageId, uuid) ∧
      observationBytes o = .ok bytes ∧
      s.file messageId uuid (toHex (sha.digest bytes)) = .ok (next, fresh) := by
  obtain ⟨⟨messageId, uuid⟩, hids, h⟩ := bind_eq_ok.mp h
  obtain ⟨bytes, hbytes, h⟩ := bind_eq_ok.mp h
  exact ⟨messageId, uuid, bytes, hids, hbytes, h⟩

theorem file_eq_ok_true {digest : String} (h : s.file messageId uuid digest = .ok (next, true)) :
    hget s.recent uuid = none ∧ messageId ∉ s.retiredMessages ∧
      next.recent = hset s.recent uuid (messageId, digest) ∧
      next.currentMessage = some messageId ∧
      (∀ id, s.currentMessage = some id ∨ id ∈ s.retiredMessages →
        id = messageId ∨ id ∈ next.retiredMessages) := by
  unfold Observations.file at h
  split at h
  · split_ifs at h
    · simp at h
  · rename_i hnone
    split_ifs at h with hretired
    obtain ⟨rfl, -⟩ := Prod.mk.inj (Except.ok.inj h)
    refine ⟨hnone, hretired, rfl, rfl, ?_⟩
    rintro id (hcurrent | hid)
    · simp only [hcurrent]
      split_ifs with heq
      · exact .inl heq
      · exact .inr mem_cons_self
    · right
      dsimp only
      split
      · split_ifs
        · exact hid
        · exact mem_cons_of_mem _ hid
      · exact hid

theorem file_eq_ok_false {digest : String} (h : s.file messageId uuid digest = .ok (next, false)) :
    hget s.recent uuid = some (messageId, digest) ∧ next = s := by
  unfold Observations.file at h
  split at h
  · rename_i previous hprevious
    split_ifs at h with heq
    · obtain ⟨rfl, -⟩ := Prod.mk.inj (Except.ok.inj h)
      exact ⟨heq ▸ hprevious, rfl⟩
  · split_ifs at h
    simp at h

/-- One observation keeps the invariant. -/
theorem ObservedRun.Invariant.step {sha : Sha256} {s : ObservedRun} (h : s.Invariant sha)
    (o : Observation) : (s.step sha o).Invariant sha := by
  unfold ObservedRun.step
  split
  · rename_i next haccept
    obtain ⟨messageId, uuid, bytes, hidentities, hbytes, hfile⟩ := accept_eq_ok haccept
    obtain ⟨hmessage, huuid⟩ := identities_eq_ok hidentities
    obtain ⟨hnone, hretired, hrecent, hcurrent, hnext⟩ := file_eq_ok_true hfile
    have hids : (s.accepted ++ [o]).map Observation.messageId =
        s.accepted.map Observation.messageId ++ [.str messageId] := by
      rw [map_append, map_singleton, hmessage]
    refine ⟨?_, ?_, ?_, ?_, ?_⟩
    · refine forall_mem_append.mpr ⟨fun p hp => ?_, forall_mem_singleton.mpr ?_⟩
      · obtain ⟨m, u, b, hmu, hb, hfiled⟩ := h.filed p hp
        refine ⟨m, u, b, hmu, hb, ?_⟩
        have hne : u ≠ uuid := by
          rintro rfl
          rw [hnone] at hfiled
          cases hfiled
        rw [hrecent, hget_hset_ne _ _ hne, hfiled]
      · exact ⟨messageId, uuid, bytes, hidentities, hbytes, by rw [hrecent, hget_hset_self]⟩
    · intro u entry hentry
      rw [hrecent, hget_hset] at hentry
      split_ifs at hentry with heq
      · exact ⟨o, mem_append_right _ (mem_singleton_self o), heq ▸ huuid⟩
      · obtain ⟨p, hp, hu⟩ := h.known u entry hentry
        exact ⟨p, mem_append_left _ hp, hu⟩
    · rw [hids, hcurrent, getLast?_concat]
      rfl
    · intro id hid
      rw [hids] at hid
      rw [hcurrent]
      rcases mem_append.mp hid with hid | hid
      · exact (hnext id (h.retired id hid)).imp (fun heq => by rw [heq]) fun hmem => hmem
      · exact .inl (congrArg some (Json.str.inj (mem_singleton.mp hid)).symm)
    · rw [hids]
      refine h.contiguous.concat fun hmem => ?_
      have hcurrent := (h.retired messageId hmem).resolve_right hretired
      rw [← h.current, hcurrent]
      rfl
  · rename_i next haccept
    obtain ⟨messageId, uuid, bytes, -, -, hfile⟩ := accept_eq_ok haccept
    rw [(file_eq_ok_false hfile).2]
    exact h
  · exact h

theorem invariant_run (sha : Sha256) (os : List Observation) :
    ((observationMachine sha).run os).Invariant sha :=
  Machine.invariant_reachable (ObservedRun.invariant_initial sha) (fun _ o h => h.step o) os

theorem accepted_subset (sha : Sha256) (os : List Observation) :
    ((observationMachine sha).run os).accepted ⊆ os := by
  induction os using List.reverseRecOn with
  | nil => exact nil_subset _
  | append_singleton os o ih =>
    rw [Machine.run_append, Machine.runFrom_cons, Machine.runFrom_nil]
    change (ObservedRun.step sha _ o).accepted ⊆ _
    unfold ObservedRun.step
    split
    · exact append_subset.mpr ⟨subset_append_of_subset_left _ ih, by simp⟩
    · exact subset_append_of_subset_left _ ih
    · exact subset_append_of_subset_left _ ih

/-- What is hashed for some observations. -/
def hashedObservations (os : List Observation) : List Bytes :=
  os.filterMap fun o => (observationBytes o).toOption

theorem mem_hashedObservations {os : List Observation} {bytes : Bytes} (ho : o ∈ os)
    (hbytes : observationBytes o = .ok bytes) : bytes ∈ hashedObservations os :=
  mem_filterMap.mpr ⟨o, ho, by rw [hbytes]; rfl⟩

theorem toHex_injective : Function.Injective toHex :=
  fun x y h => Option.some.inj (by rw [← fromHex_toHex x, h, fromHex_toHex])

section Exact

variable {sha : Sha256} {fmt : FloatFormat} {os : List Observation} {o : Observation}

variable {s : Observations}

/-- A filed observation that gives the same entry is the same observation. -/
theorem eq_of_filed {p : Observation} {messageId uuid : String} {bytes : Bytes}
    (formed : ∀ p ∈ o :: os, p.WellFormed fmt)
    (separates : sha.Separates (hashedObservations (o :: os)) (hashedObservations (o :: os)))
    (hp : p ∈ os) (hfiled : Filed sha s p) (hids : identities o = .ok (messageId, uuid))
    (hbytes : observationBytes o = .ok bytes) (huuid : p.uuid = o.uuid)
    (hget : hget s.recent uuid = some (messageId, toHex (sha.digest bytes))) : p = o := by
  obtain ⟨m, u, b, hmu, hb, hentry⟩ := hfiled
  obtain rfl : u = uuid := by
    rw [(identities_eq_ok hmu).2, (identities_eq_ok hids).2] at huuid
    exact Json.str.inj huuid
  rw [hentry] at hget
  have hdigest := toHex_injective (Prod.mk.inj (Option.some.inj hget)).2
  have hos : p ∈ o :: os := mem_cons_of_mem _ hp
  have ho : o ∈ o :: os := mem_cons_self
  obtain rfl := separates b (mem_hashedObservations hos hb) bytes (mem_hashedObservations ho hbytes)
    hdigest
  obtain ⟨hmessage, hstop, hblocks⟩ := observationBytes_inj (formed p hos) (formed o ho) hb hbytes
  cases p
  cases o
  simp_all

theorem accept_of_filed (h : Filed sha s o) : s.accept sha o = .ok (s, false) := by
  obtain ⟨messageId, uuid, bytes, hids, hbytes, hentry⟩ := h
  unfold Observations.accept Observations.file
  rw [hids, ok_bind]
  dsimp only
  rw [hbytes, ok_bind, hentry]
  exact if_pos rfl

/-- A new observation whose uuid is filed is not accepted. -/
theorem accept_ne_true {next : Observations} {p : Observation} (h : Filed sha s p)
    (huuid : p.uuid = o.uuid) : s.accept sha o ≠ .ok (next, true) := by
  intro haccept
  obtain ⟨messageId, uuid, bytes, hids, -, hfile⟩ := accept_eq_ok haccept
  obtain ⟨m, u, b, hmu, -, hentry⟩ := h
  rw [(identities_eq_ok hmu).2, (identities_eq_ok hids).2] at huuid
  obtain rfl := Json.str.inj huuid
  rw [(file_eq_ok_true hfile).1] at hentry
  cases hentry

/-- `accept` answers `False` only to an observation it has accepted. -/
theorem mem_accepted_of_accept {next : Observations} (formed : ∀ p ∈ o :: os, p.WellFormed fmt)
    (separates : sha.Separates (hashedObservations (o :: os)) (hashedObservations (o :: os)))
    (h : ((observationMachine sha).run os).observations.accept sha o = .ok (next, false)) :
    o ∈ ((observationMachine sha).run os).accepted := by
  have hinv := invariant_run sha os
  obtain ⟨messageId, uuid, bytes, hids, hbytes, hfile⟩ := accept_eq_ok h
  have hentry := (file_eq_ok_false hfile).1
  obtain ⟨p, hp, hu⟩ := hinv.known _ _ hentry
  have huuid : p.uuid = o.uuid := hu.trans (identities_eq_ok hids).2.symm
  have heq := eq_of_filed formed separates (accepted_subset sha os hp) (hinv.filed p hp) hids hbytes
    huuid hentry
  exact heq ▸ hp

end Exact

/-- After any observations, a repeated one is answered with `False`, one that differs from an
accepted one with its uuid is refused, and no message comes back after another one. -/
theorem observations_exact (sha : Sha256) (fmt : FloatFormat) (os : List Observation)
    (o : Observation) (formed : ∀ p ∈ o :: os, p.WellFormed fmt)
    (separates : sha.Separates (hashedObservations (o :: os)) (hashedObservations (o :: os))) :
    ((∃ next, ((observationMachine sha).run os).observations.accept sha o = .ok (next, false)) ↔
        o ∈ ((observationMachine sha).run os).accepted) ∧
      (∀ p ∈ ((observationMachine sha).run os).accepted, p.uuid = o.uuid → p ≠ o →
        ∃ refusal, ((observationMachine sha).run os).observations.accept sha o = .error refusal) ∧
      Contiguous (((observationMachine sha).run os).accepted.map Observation.messageId) := by
  have hinv := invariant_run sha os
  refine ⟨⟨fun ⟨next, h⟩ => mem_accepted_of_accept formed separates h,
    fun ho => ⟨_, accept_of_filed (hinv.filed o ho)⟩⟩, fun p hp huuid hne => ?_, hinv.contiguous⟩
  have hfiled := hinv.filed p hp
  rcases haccept : ((observationMachine sha).run os).observations.accept sha o with
    refusal | ⟨next, _ | _⟩
  · exact ⟨refusal, rfl⟩
  · obtain ⟨messageId, uuid, bytes, hids, hbytes, hfile⟩ := accept_eq_ok haccept
    exact absurd (eq_of_filed formed separates (accepted_subset sha os hp) hfiled hids hbytes huuid
      (file_eq_ok_false hfile).1) hne
  · exact absurd haccept (accept_ne_true hfiled huuid)

def textObservation (text : String) : Observation :=
  ⟨.str "m1", .str "u1", .null, [⟨.str "TextBlock", .null, .null, .str text⟩]⟩

/-- Two blocks of one message and a second message without blocks. -/
def sampleObservations : List Observation :=
  [textObservation "a",
    ⟨.str "m1", .str "u2", .null, [⟨.str "ToolUseBlock", .str "t1", .str "read", .null⟩]⟩,
    ⟨.str "m2", .str "u3", .str "end_turn", []⟩]

theorem observations_exact_sampleObservations :
    textObservation "b" ∉ ((observationMachine tailDigest).run sampleObservations).accepted ∧
      ∃ refusal,
        ((observationMachine tailDigest).run sampleObservations).observations.accept tailDigest
        (textObservation "b") = .error refusal := by
  have htext : ∀ text : String, Json.Proper integersOnly (.str text) := fun _ => trivial
  have hnull : Json.Proper integersOnly .null := trivial
  have hblock : ∀ text : String, text.length < 256 ^ 7 →
      (textObservation text).WellFormed integersOnly := fun text h =>
    ⟨htext _, hnull, by simpa [textObservation, Block.WellFormed, htext, hnull] using h⟩
  have hformed : ∀ p ∈ textObservation "b" :: sampleObservations, p.WellFormed integersOnly := by
    simp only [sampleObservations, forall_mem_cons, not_mem_nil]
    refine ⟨hblock _ (by decide), hblock _ (by decide), ⟨htext _, hnull, ?_⟩,
      ⟨htext _, htext _, ?_⟩, ?_⟩
    all_goals simp [Block.WellFormed, htext]
  obtain ⟨-, hrefused, -⟩ := observations_exact tailDigest integersOnly sampleObservations
    (textObservation "b") hformed (by unfold Sha256.Separates; decide +kernel)
  have hfirst : textObservation "a" ∈
      ((observationMachine tailDigest).run sampleObservations).accepted := by decide +kernel
  exact ⟨by decide +kernel, hrefused _ hfirst rfl (by decide +kernel)⟩

end AiPlatform.Execution.TypedBlocks
