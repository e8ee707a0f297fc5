import Mathlib.Data.List.Induction
import AiPlatform.Execution.AgentEffects

/-!
# The answer parts against the emitted ledger

The adapter counts where the ledger keeps texts. `Tracks` says that its counters are those of the
candidates it has emitted; a receipt of the parts is then a fact about the ledger.
-/
namespace AiPlatform.Execution.AgentEvents

open AiPlatform.Foundation AiPlatform.Kernel AiPlatform.Streaming Hash List

/-! ## The ledger of the emitted candidates -/

/-- The part whose text a payload extends. -/
def Payload.deltaPart : Payload → Option String
  | .partDelta partId _ => some partId
  | _ => none

def ledgerStep (parts : List LedgerPart) (c : Candidate) : List LedgerPart :=
  match c.payload with
  | .partDelta partId delta => addDelta parts partId delta
  | .partClassified partId role => setRole parts partId role.partRole
  | _ => parts

def ledgerParts (emitted : List Candidate) : List LedgerPart := emitted.foldl ledgerStep []

def partDeltas (emitted : List Candidate) : List Candidate :=
  emitted.filter fun c => c.payload.deltaPart.isSome

/-- The deltas of the parts that are answers by now. -/
def answerDeltas (emitted : List Candidate) : List Candidate :=
  emitted.filter fun c =>
    c.payload.deltaPart.any fun partId => roleOf (ledgerParts emitted) partId = some .answer

section Ledger

variable {emitted out : List Candidate}

theorem ledgerParts_append (emitted out : List Candidate) :
    ledgerParts (emitted ++ out) = out.foldl ledgerStep (ledgerParts emitted) :=
  foldl_append

theorem ledgerParts_concat (emitted : List Candidate) (c : Candidate) :
    ledgerParts (emitted ++ [c]) = ledgerStep (ledgerParts emitted) c :=
  ledgerParts_append emitted [c]

theorem partDeltas_append (emitted out : List Candidate) :
    partDeltas (emitted ++ out) = partDeltas emitted ++ partDeltas out :=
  filter_append emitted out

theorem ledgerStep_other {parts : List LedgerPart} {c : Candidate}
    (h : isPartFact c.payload.eventType = false) : ledgerStep parts c = parts := by
  unfold ledgerStep
  split
  · simp_all [Payload.eventType, isPartFact]
  · simp_all [Payload.eventType, isPartFact]
  · rfl

theorem deltaPart_other {payload : Payload} (h : isPartFact payload.eventType = false) :
    payload.deltaPart = none := by
  cases payload <;> simp_all [Payload.eventType, isPartFact, Payload.deltaPart]

section

variable (h : ∀ c ∈ out, isPartFact c.payload.eventType = false)
include h

theorem foldl_ledgerStep_others (parts : List LedgerPart) : out.foldl ledgerStep parts = parts := by
  induction out with
  | nil => rfl
  | cons c out ih =>
    obtain ⟨hc, hout⟩ := forall_mem_cons.mp h
    rw [foldl_cons, ledgerStep_other hc, ih hout]

theorem ledgerParts_append_others (emitted : List Candidate) :
    ledgerParts (emitted ++ out) = ledgerParts emitted := by
  rw [ledgerParts_append, foldl_ledgerStep_others h]

theorem partDeltas_others : partDeltas out = [] := by
  refine filter_eq_nil_iff.mpr fun c hc => ?_
  rw [deltaPart_other (h c hc)]
  exact Bool.false_ne_true

end

theorem nodup_ledgerParts (emitted : List Candidate) :
    ((ledgerParts emitted).map LedgerPart.partId).Nodup := by
  induction emitted using List.reverseRecOn with
  | nil => exact nodup_nil
  | append_singleton emitted c ih =>
    rw [ledgerParts_concat]
    unfold ledgerStep
    split
    · exact nodup_addDelta ih _ _
    · rw [setRole_partIds]
      exact ih
    · exact ih

theorem sum_addDelta (P : String → Bool) {parts : List LedgerPart}
    (h : (parts.map LedgerPart.partId).Nodup) (partId delta : String) :
    (((addDelta parts partId delta).filter fun part => P part.partId).map
        fun part => part.deltas.length).sum =
      ((parts.filter fun part => P part.partId).map fun part => part.deltas.length).sum +
        if P partId then 1 else 0 :=
  sum_upsert h P (fun _ => rfl) rfl (fun _ => length_append) rfl

theorem sum_setRole (P : String → Bool) (parts : List LedgerPart) (partId : String)
    (role : PartRole) :
    (((setRole parts partId role).filter fun part => P part.partId).map
        fun part => part.deltas.length).sum =
      ((parts.filter fun part => P part.partId).map fun part => part.deltas.length).sum := by
  unfold setRole
  rw [filter_map, map_map]
  congr 1
  have hfilter : (parts.filter ((fun part : LedgerPart => P part.partId) ∘
      fun part => if part.partId = partId then { part with role } else part)) =
        parts.filter fun part => P part.partId := by
    refine filter_congr fun part _ => ?_
    dsimp only [Function.comp_apply]
    split_ifs <;> rfl
  rw [hfilter]
  refine map_congr_left fun part _ => ?_
  dsimp only [Function.comp_apply]
  split_ifs <;> rfl

/-- Every delta of some parts is counted in the part it belongs to. -/
theorem sum_ledgerParts (P : String → Bool) (emitted : List Candidate) :
    (((ledgerParts emitted).filter fun part => P part.partId).map
        fun part => part.deltas.length).sum =
      (emitted.filter fun c => c.payload.deltaPart.any P).length := by
  induction emitted using List.reverseRecOn with
  | nil => rfl
  | append_singleton emitted c ih =>
    rw [ledgerParts_concat, filter_append, length_append, ← ih]
    obtain ⟨eventId, messageId, causation, payload⟩ := c
    cases payload with
    | partDelta partId delta =>
      refine (sum_addDelta P (nodup_ledgerParts emitted) partId delta).trans ?_
      rw [filter_singleton]
      dsimp only [Payload.deltaPart, Option.any_some]
      cases P partId <;> rfl
    | partClassified partId role => exact sum_setRole P _ partId role.partRole
    | _ => rfl

theorem length_answerDeltas (emitted : List Candidate) :
    (answerDeltas emitted).length =
      ((selectedParts (ledgerParts emitted)).map fun part => part.deltas.length).sum := by
  rw [selectedParts_eq_filter (nodup_ledgerParts emitted)]
  exact (sum_ledgerParts (fun partId => roleOf (ledgerParts emitted) partId = some .answer)
    emitted).symm

theorem answerDeltas_eq_filter (emitted : List Candidate) :
    answerDeltas emitted = (partDeltas emitted).filter fun c =>
      c.payload.deltaPart.any fun partId => roleOf (ledgerParts emitted) partId = some .answer := by
  unfold answerDeltas partDeltas
  rw [filter_filter]
  refine filter_congr fun c _ => ?_
  cases c.payload.deltaPart <;> simp

end Ledger

/-! ## Counters -/

/-- What the adapter counts of a part. -/
structure PartView where
  partId : String
  deltaCount : Nat
  textLength : Nat
  role : PartRole

def TextPart.view (part : TextPart) : PartView :=
  ⟨part.partId, part.deltaCount, part.textLength, part.role.elim .pending Role.partRole⟩

def ledgerView (part : LedgerPart) : PartView :=
  ⟨part.partId, part.deltas.length, part.text.length, part.role⟩

theorem view_role_answer (part : TextPart) : part.view.role = .answer ↔
    part.role = some .answer := by
  unfold TextPart.view
  rcases part.role with _ | role
  · simp
  · cases role <;> simp [Role.partRole]

section Views

variable {a : Adapter} {parts : List LedgerPart}
  (views : a.textParts.map TextPart.view = parts.map ledgerView)

include views

theorem answerParts_view :
    a.answerParts.map TextPart.view = (selectedParts parts).map ledgerView := by
  have hleft : a.answerParts.map TextPart.view =
      (a.textParts.map TextPart.view).filter (·.role = .answer) := by
    rw [filter_map]
    unfold Adapter.answerParts
    congr 1
    refine filter_congr fun part _ => ?_
    exact decide_eq_decide.mpr (view_role_answer part).symm
  rw [hleft, views, filter_map]
  rfl

theorem answerDeltaTotal_eq :
    a.answerDeltaTotal = ((selectedParts parts).map fun part => part.deltas.length).sum := by
  have h := congrArg (List.map PartView.deltaCount) (answerParts_view views)
  rw [map_map, map_map] at h
  exact congrArg List.sum h

theorem answerTextTotal_eq : a.answerTextTotal = (answerText parts).length := by
  have hview := answerParts_view views
  have h := congrArg (List.map PartView.textLength) hview
  rw [map_map, map_map] at h
  have hlength := congrArg List.length hview
  rw [length_map, length_map] at hlength
  rw [answerText_length, ← hlength]
  exact congrArg (List.sum · + _) h

end Views

/-- Deltas of a part, in the views. -/
def growViews (partId : String) (count length : Nat) (views : List PartView) : List PartView :=
  upsert PartView.partId partId
    (fun view => { view with
      deltaCount := view.deltaCount + count
      textLength := view.textLength + length }) ⟨partId, count, length, .pending⟩ views

theorem view_foldl_addDelta (parts : List LedgerPart) (partId : String) {deltas : List String}
    (h : deltas ≠ []) :
    (deltas.foldl (fun parts delta => addDelta parts partId delta) parts).map ledgerView =
      growViews partId deltas.length (String.join deltas).length (parts.map ledgerView) := by
  rw [foldl_addDelta parts partId h]
  refine map_upsert (fun _ => rfl) fun part _ _ => ?_
  simp only [ledgerView, LedgerPart.text, length_append, String.join_append,
    String.length_append]

/-! ## Pieces of text -/

theorem flatten_slices {size : Nat} (hsize : 0 < size) {fuel : Nat} {cs : List Char}
    (h : cs.length ≤ fuel) : (slices size fuel cs).flatten = cs := by
  induction fuel generalizing cs with
  | zero =>
    have hcs : cs = [] := length_eq_zero_iff.mp (Nat.le_zero.mp h)
    subst hcs
    rfl
  | succ fuel ih =>
    cases cs with
    | nil => rfl
    | cons c cs =>
      have hdrop : ((c :: cs).drop size).length ≤ fuel := by
        rw [length_drop]
        omega
      unfold slices
      rw [flatten_cons, ih hdrop, take_append_drop]

theorem join_chunks (value : String) : String.join (chunks value) = value := by
  rw [← String.toList_inj, String.toList_join]
  unfold chunks
  rw [flatMap_map]
  simp only [String.toList_ofList, flatMap_id']
  exact flatten_slices (show 0 < maxDelta by decide) (le_of_eq String.length_toList)

theorem chunks_ne_nil {value : String} (h : value ≠ "") : chunks value ≠ [] := by
  intro hchunks
  have hjoin := join_chunks value
  rw [hchunks] at hjoin
  exact h hjoin.symm

section TextCandidates

variable (env : AdapterEnvironment)

/-- The deltas of a text end with the one that has the greatest number. -/
theorem deltaCandidates_concat (payload : String → Payload) (identity : Nat → Identity)
    (count : Nat) {texts : List String} (h : texts ≠ []) :
    ∃ earlier last text, deltaCandidates env payload identity count texts =
        earlier ++ [(identity (count + texts.length), last)] ∧
      earlier.length + 1 = texts.length ∧
      last = candidateFor env (payload text) (identity (count + texts.length)) none := by
  induction texts generalizing count with
  | nil => exact absurd rfl h
  | cons text texts ih =>
    by_cases htexts : texts = []
    · subst htexts
      exact ⟨[], _, text, rfl, rfl, rfl⟩
    · obtain ⟨earlier, last, text', hdeltas, hcount, hlast⟩ := ih (count + 1) htexts
      have hnumber : count + (text :: texts).length = count + 1 + texts.length := by
        rw [length_cons]
        omega
      refine ⟨(identity (count + 1), candidateFor env (payload text) (identity (count + 1)) none) ::
        earlier, last, text', ?_, congrArg (· + 1) hcount, hnumber ▸ hlast⟩
      rw [deltaCandidates, hdeltas, hnumber]
      rfl

theorem startCandidates_others (a : Adapter) :
    ∀ c ∈ (startCandidates env a).map Prod.snd, isPartFact c.payload.eventType = false := by
  unfold startCandidates
  split_ifs <;> simp [candidateFor, Payload.eventType, isPartFact]

theorem foldl_textCandidates (a : Adapter) (partId : String) (identity : Nat → Identity)
    (count : Nat) (value : String) (parts : List LedgerPart) :
    ((textCandidates env a (.partDelta partId) identity count value).map Prod.snd).foldl ledgerStep
        parts =
      (chunks value).foldl (fun parts delta => addDelta parts partId delta) parts := by
  unfold textCandidates
  rw [map_append, foldl_append, foldl_ledgerStep_others (startCandidates_others env a)]
  generalize chunks value = texts
  induction texts generalizing count parts with
  | nil => rfl
  | cons text texts ih => exact ih (count + 1) (addDelta parts partId text)

theorem partDeltas_textCandidates (a : Adapter) (partId : String) (identity : Nat → Identity)
    (count : Nat) (value : String) :
    partDeltas ((textCandidates env a (.partDelta partId) identity count value).map Prod.snd) =
      (deltaCandidates env (.partDelta partId) identity count (chunks value)).map Prod.snd := by
  unfold textCandidates
  rw [map_append, partDeltas_append, partDeltas_others (startCandidates_others env a),
    nil_append]
  refine filter_eq_self.mpr fun c hc => ?_
  obtain ⟨entry, hentry, rfl⟩ := mem_map.mp hc
  obtain ⟨n, text, -, rfl⟩ := mem_deltaCandidates hentry
  rfl

end TextCandidates

/-- The last delta of a part is the one the part names, and it is filed under its identity. -/
structure LastDelta (a : Adapter) (emitted : List Candidate) (part : TextPart) (c : Candidate)
    (before after : List Candidate) : Prop where
  split : partDeltas emitted = before ++ c :: after
  sequence : before.length + 1 = part.lastDeltaSequence
  owner : c.payload.deltaPart = some part.partId
  later : ∀ c' ∈ after, c'.payload.deltaPart ≠ some part.partId
  identity : part.lastDeltaIdentity = some (.partDelta part.partId part.deltaCount)
  eventId : part.lastDeltaEventId = some c.eventId
  filed : hget a.acceptedEventIds (.partDelta part.partId part.deltaCount) = some c.eventId

structure Tracks (a : Adapter) (emitted : List Candidate) : Prop where
  views : a.textParts.map TextPart.view = (ledgerParts emitted).map ledgerView
  sequence : a.nextPartDeltaSequence = (partDeltas emitted).length
  lastDelta : ∀ part ∈ a.textParts, ∃ c before after, LastDelta a emitted part c before after

theorem tracks_initial : Tracks .initial [] := ⟨rfl, rfl, by simp [Adapter.initial]⟩

theorem lastPart_eq_none {parts : List TextPart} (h : Adapter.lastPart parts = none) :
    parts = [] := by
  cases parts with
  | nil => rfl
  | cons first parts =>
    unfold Adapter.lastPart at h
    split at h
    · cases h
    · split_ifs at h

theorem textPart_partId (a : Adapter) (partId : String) : (a.textPart partId).partId = partId := by
  unfold Adapter.textPart
  cases hfind : a.textParts.find? (·.partId = partId) with
  | none => rfl
  | some part => simpa using find?_some hfind

theorem putTextPart_eq_upsert (parts : List TextPart) (part : TextPart) :
    Adapter.putTextPart parts part =
      upsert TextPart.partId part.partId (fun _ => part) part parts :=
  rfl

theorem view_recordPartText {a : Adapter} (nodup : (a.textParts.map TextPart.partId).Nodup)
    (partId value : String) (pending : List (Identity × Candidate)) :
    (a.recordPartText partId value pending).textParts.map TextPart.view =
      growViews partId (chunks value).length value.length (a.textParts.map TextPart.view) := by
  unfold Adapter.recordPartText growViews
  dsimp only
  rw [putTextPart_eq_upsert]
  dsimp only
  rw [textPart_partId]
  symm
  refine (upsert_congr_new fun hnew => ?_).trans
    (map_upsert (fun _ => rfl) fun part hpart heq => ?_).symm
  · have hnone : a.textParts.find? (·.partId = partId) = none := by
      refine find?_eq_none.mpr fun part hpart heq => hnew ?_
      rw [map_map]
      exact mem_map.mpr ⟨part, hpart, of_decide_eq_true heq⟩
    unfold Adapter.textPart
    rw [hnone]
    simp [TextPart.view]
  · change part.partId = partId at heq
    subst heq
    unfold Adapter.textPart
    rw [find?_key nodup hpart]
    rfl

/-- The greatest number is taken. -/
theorem lastPart_spec {parts : List TextPart} {part : TextPart}
    (h : Adapter.lastPart parts = some part) :
    part ∈ parts ∧ ∀ other ∈ parts, other.lastDeltaSequence ≤ part.lastDeltaSequence := by
  induction parts generalizing part with
  | nil => cases h
  | cons first parts ih =>
    unfold Adapter.lastPart at h
    cases hlater : Adapter.lastPart parts with
    | none =>
      rw [hlater] at h
      obtain rfl := Option.some.inj h
      have hparts : parts = [] := lastPart_eq_none hlater
      subst hparts
      simp
    | some later =>
      rw [hlater] at h
      obtain ⟨hmem, hle⟩ := ih hlater
      dsimp only at h
      split_ifs at h with hlt
      · obtain rfl := Option.some.inj h
        exact ⟨mem_cons_of_mem first hmem, forall_mem_cons.mpr ⟨hlt.le, hle⟩⟩
      · obtain rfl := Option.some.inj h
        refine ⟨mem_cons_self, forall_mem_cons.mpr ⟨le_refl _, fun other hother => ?_⟩⟩
        exact (hle other hother).trans (not_lt.mp hlt)

namespace Tracks

variable {a : Adapter} {emitted : List Candidate} (h : Tracks a emitted)

include h

theorem nodup : (a.textParts.map TextPart.partId).Nodup := by
  have hids := congrArg (List.map PartView.partId) h.views
  rw [map_map, map_map] at hids
  change a.textParts.map TextPart.partId = (ledgerParts emitted).map LedgerPart.partId at hids
  rw [hids]
  exact nodup_ledgerParts emitted

/-- Facts of other kinds, while the parts stay as they are. -/
theorem others {a' : Adapter} {out : List Candidate} (textParts : a'.textParts = a.textParts)
    (sequence : a'.nextPartDeltaSequence = a.nextPartDeltaSequence)
    (filed : ∀ partId count, hget a'.acceptedEventIds (.partDelta partId count) =
      hget a.acceptedEventIds (.partDelta partId count))
    (hout : ∀ c ∈ out, isPartFact c.payload.eventType = false) : Tracks a' (emitted ++ out) := by
  have hdeltas : partDeltas (emitted ++ out) = partDeltas emitted := by
    rw [partDeltas_append, partDeltas_others hout, append_nil]
  refine ⟨?_, ?_, ?_⟩
  · rw [textParts, ledgerParts_append_others hout, h.views]
  · rw [sequence, hdeltas, h.sequence]
  · rw [textParts]
    intro part hpart
    obtain ⟨c, before, after, hlast⟩ := h.lastDelta part hpart
    exact ⟨c, before, after, { hlast with
      split := hdeltas.trans hlast.split
      filed := (filed _ _).trans hlast.filed }⟩

theorem roleOf_eq_answer {partId : String} :
    roleOf (ledgerParts emitted) partId = some .answer ↔ ∃ part ∈ a.answerParts,
      part.partId = partId := by
  have hviews := answerParts_view h.views
  constructor
  · intro hrole
    obtain ⟨found, hfound, hanswer⟩ := Option.map_eq_some_iff.mp hrole
    have hid : found.partId = partId := by simpa using find?_some hfound
    have hselected : found ∈ selectedParts (ledgerParts emitted) :=
      mem_filter.mpr ⟨mem_of_find?_eq_some hfound, by simpa using hanswer⟩
    obtain ⟨part, hpart, hview⟩ := mem_map.mp (hviews ▸ mem_map_of_mem hselected)
    exact ⟨part, hpart, (congrArg PartView.partId hview).trans hid⟩
  · rintro ⟨part, hpart, rfl⟩
    obtain ⟨found, hfound, hview⟩ := mem_map.mp (hviews ▸ mem_map_of_mem hpart)
    obtain ⟨hmem, hanswer⟩ := mem_filter.mp hfound
    have hid : found.partId = part.partId := congrArg PartView.partId hview
    rw [← hid, roleOf_eq_some (nodup_ledgerParts emitted) hmem]
    simpa using hanswer

/-- The last delta of the answer is the last delta of the part with the greatest number. -/
theorem last_answerDelta {part : TextPart} (hlast : Adapter.lastPart a.answerParts = some part) :
    ∃ c, (answerDeltas emitted).getLast? = some c ∧ part.lastDeltaEventId = some c.eventId ∧
      part.lastDeltaIdentity.bind (hget a.acceptedEventIds) = some c.eventId := by
  obtain ⟨hpart, hgreatest⟩ := lastPart_spec hlast
  obtain ⟨c, before, after, hc⟩ := h.lastDelta part (mem_of_mem_filter hpart)
  refine ⟨c, ?_, hc.eventId, by rw [hc.identity, Option.bind_some, hc.filed]⟩
  rw [answerDeltas_eq_filter, hc.split, filter_append, filter_cons_of_pos]
  swap
  · rw [hc.owner, Option.any_some, decide_eq_true_eq]
    exact h.roleOf_eq_answer.mpr ⟨part, hpart, rfl⟩
  have hnone : after.filter (fun c => c.payload.deltaPart.any fun partId =>
      roleOf (ledgerParts emitted) partId = some .answer) = [] := by
    refine filter_eq_nil_iff.mpr fun c' hc' hanswer => ?_
    obtain ⟨partId, howner, hrole⟩ : ∃ partId, c'.payload.deltaPart = some partId ∧
        roleOf (ledgerParts emitted) partId = some .answer := by
      cases howner : c'.payload.deltaPart <;> simp_all
    obtain ⟨other, hother, rfl⟩ := h.roleOf_eq_answer.mp hrole
    obtain ⟨d, before', after', hd⟩ := h.lastDelta other (mem_of_mem_filter hother)
    -- what comes after the greatest number also comes after every smaller one
    have hdrop : after = (partDeltas emitted).drop part.lastDeltaSequence := by
      rw [hc.split, ← hc.sequence]
      simp
    have hdrop' : after' = (partDeltas emitted).drop other.lastDeltaSequence := by
      rw [hd.split, ← hd.sequence]
      simp
    have hsubset : after ⊆ after' := by
      rw [hdrop, hdrop']
      exact (drop_sublist_drop_left _ (hgreatest other hother)).subset
    exact hd.later c' (hsubset hc') howner
  rw [hnone, getLast?_concat]

/-- Text of a part is accepted. -/
theorem partText {env : AdapterEnvironment} (partId value : String)
    {pending : List (Identity × Candidate)} (nonempty : value ≠ "")
    (built : pending = textCandidates env a (.partDelta partId) (.partDelta partId)
      (a.textPart partId).deltaCount value) :
    Tracks ((({ a with partMode := true } : Adapter).committed pending).recordPartText partId value
      pending) (emitted ++ pending.map Prod.snd) := by
  have hchunks := chunks_ne_nil nonempty
  obtain ⟨earlier, last, text, hdeltas, hcount, hlast⟩ := deltaCandidates_concat env
    (.partDelta partId) (.partDelta partId) (a.textPart partId).deltaCount hchunks
  have hpending : pending = (startCandidates env a ++ earlier) ++
      [(.partDelta partId ((a.textPart partId).deltaCount + (chunks value).length), last)] := by
    rw [built, textCandidates, hdeltas, append_assoc]
  have hpart : partDeltas (pending.map Prod.snd) = earlier.map Prod.snd ++ [last] := by
    rw [built, partDeltas_textCandidates, hdeltas, map_append, map_singleton]
  have hsequence : (partDeltas emitted).length + (chunks value).length =
      a.nextPartDeltaSequence + (chunks value).length := by
    rw [h.sequence]
  refine ⟨?_, ?_, ?_⟩
  · refine (view_recordPartText (by exact h.nodup) partId value pending).trans ?_
    rw [ledgerParts_append, built, foldl_textCandidates, view_foldl_addDelta _ _ hchunks,
      join_chunks, ← h.views]
    rfl
  · rw [partDeltas_append, hpart, length_append, length_append, length_map,
      length_singleton, hcount, hsequence]
    rfl
  · intro part hmem
    by_cases howner : part.partId = partId
    · -- the part of this text ends with its last piece
      have hnew : part.lastDeltaSequence = a.nextPartDeltaSequence + (chunks value).length ∧
          part.deltaCount = (a.textPart partId).deltaCount + (chunks value).length ∧
          part.lastDeltaIdentity = pending.getLast?.map Prod.fst ∧
          part.lastDeltaEventId = pending.getLast?.map fun entry => entry.2.eventId := by
        obtain ⟨rfl, -⟩ | ⟨-, -, -, rfl⟩ | ⟨-, hne⟩ := mem_upsert hmem
        · exact ⟨rfl, rfl, rfl, rfl⟩
        · exact ⟨rfl, rfl, rfl, rfl⟩
        · exact absurd (howner.trans (textPart_partId _ partId).symm) hne
      obtain ⟨hnumber, hdeltaCount, hidentity, heventId⟩ := hnew
      rw [hpending, getLast?_concat] at hidentity heventId
      refine ⟨last, partDeltas emitted ++ earlier.map Prod.snd, [], ?_⟩
      refine ⟨?_, ?_, ?_, by simp, ?_, heventId, ?_⟩
      · rw [partDeltas_append, hpart, append_assoc]
      · rw [hnumber, length_append, length_map, Nat.add_assoc, hcount, hsequence]
      · rw [hlast, howner]
        rfl
      · rw [hidentity, howner, hdeltaCount]
        rfl
      · rw [howner, hdeltaCount]
        exact hpending ▸ committed_hget_last _ _ _ _
    · have hold : part ∈ a.textParts := by
        obtain ⟨rfl, -⟩ | ⟨-, -, -, rfl⟩ | ⟨hold, -⟩ := mem_upsert hmem
        · exact absurd (textPart_partId _ partId) howner
        · exact absurd (textPart_partId _ partId) howner
        · exact hold
      obtain ⟨c, before, after, hc⟩ := h.lastDelta part hold
      refine ⟨c, before, after ++ partDeltas (pending.map Prod.snd), { hc with
        split := by rw [partDeltas_append, hc.split, append_assoc, cons_append]
        later := ?_
        filed := ?_ }⟩
      · intro c' hc'
        rcases mem_append.mp hc' with hc' | hc'
        · exact hc.later c' hc'
        · rw [built, partDeltas_textCandidates] at hc'
          obtain ⟨entry, hentry, rfl⟩ := mem_map.mp hc'
          obtain ⟨n, text', -, rfl⟩ := mem_deltaCandidates hentry
          exact fun heq => howner (Option.some.inj heq).symm
      · refine (committed_hget fun entry hentry heq => ?_).trans hc.filed
        rw [built] at hentry
        obtain rfl | ⟨n, text', -, rfl⟩ := mem_textCandidates hentry
        · cases heq
        · exact howner (Identity.partDelta.inj heq).1.symm

/-- A part is classified. -/
theorem classified {env : AdapterEnvironment} {part : TextPart} {role : Role} {built : Candidate}
    (filed : a.textParts.find? (·.partId = part.partId) = some part)
    (candidate : built = candidateFor env (.partClassified part.partId role)
      (.partClassified part.partId role) none) :
    Tracks { a.committed [(.partClassified part.partId role, built)] with
      textParts := Adapter.putTextPart a.textParts { part with role := some role } }
      (emitted ++ [built]) := by
  have hpart := mem_of_find?_eq_some filed
  have hdeltas : partDeltas (emitted ++ [built]) = partDeltas emitted := by
    rw [partDeltas_append, candidate]
    exact append_nil _
  have hids : ∀ partId count,
    hget (a.committed [(.partClassified part.partId role, built)]).acceptedEventIds
      (.partDelta partId count) = hget a.acceptedEventIds (.partDelta partId count) :=
    fun partId count => committed_hget (by simp)
  refine ⟨?_, ?_, ?_⟩
  · let classify (view : PartView) : PartView := { view with role := role.partRole }
    have hledger : (ledgerParts (emitted ++ [built])).map ledgerView =
        ((ledgerParts emitted).map ledgerView).map fun view =>
          if view.partId = part.partId then classify view else view := by
      rw [ledgerParts_concat, candidate]
      exact map_update (fun _ => rfl) fun _ _ _ => rfl
    have hadapter : (a.textParts.map fun other => if other.partId = part.partId then
          { part with role := some role } else other).map TextPart.view =
        (a.textParts.map TextPart.view).map fun view =>
          if view.partId = part.partId then classify view else view := by
      refine map_update (fun _ => rfl) fun other hother heq => ?_
      have hfind := find?_key h.nodup hother
      rw [heq, filed] at hfind
      rw [Option.some.inj hfind]
      rfl
    have hknown : part.partId ∈ a.textParts.map TextPart.partId := mem_map_of_mem hpart
    rw [hledger, ← h.views, ← hadapter]
    exact congrArg (List.map TextPart.view) (upsert_of_mem hknown)
  · rw [hdeltas, ← h.sequence]
    rfl
  · intro other hother
    have hlast : ∃ old ∈ a.textParts, other = { old with role := other.role } := by
      obtain ⟨rfl, -⟩ | ⟨-, -, -, rfl⟩ | ⟨hold, -⟩ := mem_upsert hother
      · exact ⟨part, hpart, rfl⟩
      · exact ⟨part, hpart, rfl⟩
      · exact ⟨other, hold, rfl⟩
    obtain ⟨old, hold, hother⟩ := hlast
    obtain ⟨c, before, after, hc⟩ := h.lastDelta old hold
    rw [hother]
    exact ⟨c, before, after, { hc with
      split := hdeltas.trans hc.split
      filed := (hids _ _).trans hc.filed }⟩

end Tracks

/-! ## Receipts -/

/-- A completion and a receipt that describe the answer of the facts before them. -/
structure Describes (before : List Candidate) (receipt : AnswerReceipt) (c : Candidate) : Prop where
  payload : c.payload = .completed receipt.deltaCount receipt.textLength
  messageId : c.messageId = receipt.messageId
  causation : c.causationEventId = some receipt.lastDeltaEventId
  deltaCount : (answerDeltas before).length = receipt.deltaCount
  textLength : (answerText (ledgerParts before)).length = receipt.textLength
  lastDelta : (answerDeltas before).getLast?.map Candidate.eventId = some receipt.lastDeltaEventId

/-- The completion of a receipt was emitted, after everything the receipt counts. -/
def Backed (emitted : List Candidate) (receipt : AnswerReceipt) : Prop :=
  ∃ before c after, emitted = before ++ c :: after ∧ Describes before receipt c

theorem Backed.append {emitted : List Candidate} {receipt : AnswerReceipt}
    (h : Backed emitted receipt) (out : List Candidate) : Backed (emitted ++ out) receipt := by
  obtain ⟨before, c, after, rfl, hc⟩ := h
  exact ⟨before, c, after ++ out, by rw [append_assoc, cons_append], hc⟩

theorem Tracks.describes {env : AdapterEnvironment} {a : Adapter} {emitted : List Candidate}
    (h : Tracks a emitted) {part : TextPart} {identity : Identity} {eventId : String}
    (completes : Completes a part identity eventId) :
    Describes emitted (a.partReceipt env eventId) (a.partCompletion env identity) := by
  obtain ⟨c, hlast, heventId, hfiled⟩ := h.last_answerDelta completes.last
  rw [completes.eventId] at heventId
  rw [completes.identity, Option.bind_some] at hfiled
  obtain rfl := Option.some.inj heventId
  exact
    { payload := rfl
      messageId := rfl
      causation := hfiled
      deltaCount := by rw [length_answerDeltas]; exact (answerDeltaTotal_eq h.views).symm
      textLength := (answerTextTotal_eq h.views).symm
      lastDelta := by rw [hlast]; rfl }

structure ReceiptBacked (s : AdapterRun) : Prop where
  tracks : Tracks s.adapter s.emitted
  backed : ∀ receipt, s.adapter.partAnswerReceipt = some receipt → Backed s.emitted receipt

/-- The parts are classified, one of them is an answer, and the answer is open. -/
def Adapter.completesParts (a : Adapter) : Bool :=
  a.partMode && !a.sealed && a.answerStarted && !a.answerCompleted &&
    !a.hasUnclassifiedTextParts && !a.answerParts.isEmpty

/-- A result that gets to the completion of the parts can also be reported itself: it is the first
result of the adapter and the sanitizers accept its event. -/
def ResultDelivered (env : AdapterEnvironment) (s : AdapterRun) (call : Call) : Prop :=
  match call.action with
  | .result result false =>
    s.adapter.completesParts = true → ¬ ResultRaises env s.adapter result call.accepts
  | _ => True

theorem Completes.completesParts {a : Adapter} {part : TextPart} {identity : Identity}
    {eventId : String} (h : Completes a part identity eventId) : a.completesParts = true := by
  have hparts : a.answerParts.isEmpty = false := by
    rw [isEmpty_eq_false_iff]
    exact ne_nil_of_mem (lastPart_spec h.last).1
  unfold Adapter.completesParts
  rw [h.partMode, h.unsealed, h.started, h.open_, h.classified, hparts]
  rfl

theorem isPartFact_of_isAnswerFact {type : EventType} (h : isAnswerFact type = false) :
    isPartFact type = false := by
  cases type <;> simp_all [isAnswerFact, isPartFact]

section Later

variable {later : List (Identity × Candidate)}
  (others : ∀ entry ∈ later, entry.1 = .modelCompleted ∧
    entry.2.payload.eventType = .modelCompleted)

include others

theorem completion_identity {c : Candidate} {partId : String} {count : Nat} :
    ∀ entry ∈ (Identity.messageCompleted, c) :: later, entry.1 ≠ .partDelta partId count := by
  refine forall_mem_cons.mpr ⟨by simp, fun entry hentry => ?_⟩
  rw [(others entry hentry).1]
  simp

theorem completion_later : ∀ c ∈ later.map Prod.snd, isPartFact c.payload.eventType = false := by
  intro c hc
  obtain ⟨entry, hentry, rfl⟩ := mem_map.mp hc
  rw [(others entry hentry).2]
  rfl

end Later

namespace ReceiptBacked

variable {env : AdapterEnvironment} {a a' : Adapter} {emitted out : List Candidate} {call : Call}
  (h : ReceiptBacked ⟨a, emitted⟩)

include h

theorem others (textParts : a'.textParts = a.textParts)
    (sequence : a'.nextPartDeltaSequence = a.nextPartDeltaSequence)
    (receipt : a'.partAnswerReceipt = a.partAnswerReceipt)
    (filed : ∀ partId count, hget a'.acceptedEventIds (.partDelta partId count) =
      hget a.acceptedEventIds (.partDelta partId count))
    (hout : ∀ c ∈ out, isPartFact c.payload.eventType = false) :
    ReceiptBacked ⟨a', emitted ++ out⟩ :=
  ⟨h.tracks.others textParts sequence filed hout,
    fun r hr => (h.backed r (receipt.symm.trans hr)).append out⟩

theorem same (same : SameAnswer a a')
    (hout : ∀ c ∈ out, isAnswerFact c.payload.eventType = false) :
    ReceiptBacked ⟨a', emitted ++ out⟩ :=
  h.others same.textParts same.nextPartDeltaSequence same.partAnswerReceipt same.partDeltaIds
    fun c hc => isPartFact_of_isAnswerFact (hout c hc)

/-- A completion of the parts is emitted, perhaps with other events after it. -/
theorem completed {part : TextPart} {identity : Identity} {eventId : String}
    (completes : Completes a part identity eventId) {later : List Candidate}
    (textParts : a'.textParts = a.textParts)
    (sequence : a'.nextPartDeltaSequence = a.nextPartDeltaSequence)
    (receipt : a'.partAnswerReceipt = some (a.partReceipt env eventId))
    (filed : ∀ partId count, hget a'.acceptedEventIds (.partDelta partId count) =
      hget a.acceptedEventIds (.partDelta partId count))
    (hlater : ∀ c ∈ later, isPartFact c.payload.eventType = false) :
    ReceiptBacked ⟨a', emitted ++ a.partCompletion env identity :: later⟩ := by
  refine ⟨h.tracks.others textParts sequence filed (forall_mem_cons.mpr ⟨rfl, hlater⟩), ?_⟩
  intro r hr
  obtain rfl := Option.some.inj (receipt.symm.trans hr)
  exact ⟨emitted, _, later, rfl, h.tracks.describes completes⟩

theorem effect (effect : Effect env a call a' out)
    (delivered : ResultDelivered env ⟨a, emitted⟩ call) : ReceiptBacked ⟨a', emitted ++ out⟩ := by
  cases effect with
  | quiet same others => exact h.same same others
  | refusedPart legacy same =>
    exact h.others same.textParts same.nextPartDeltaSequence same.partAnswerReceipt
      same.partDeltaIds (by simp)
  | refusedLegacy parts same =>
    exact h.others same.textParts same.nextPartDeltaSequence same.partAnswerReceipt
      same.partDeltaIds (by simp)
  | partText partId value nonempty legacy open_ safe valid built fresh =>
    exact ⟨h.tracks.partText partId value nonempty built, fun r hr => (h.backed r hr).append _⟩
  | classified part role legacy open_ filed safe differs monotone candidate fresh =>
    exact ⟨h.tracks.classified filed candidate, fun r hr => (h.backed r hr).append _⟩
  | handedOut action completes valid =>
    exact h.completed completes rfl rfl rfl (fun _ _ => rfl) (by simp)
  | completedPart later completes valid others =>
    refine h.completed completes rfl rfl rfl (fun partId count => committed_hget ?_) ?_
    · exact completion_identity others
    · exact completion_later others
  | raisedPart action completes raises =>
    unfold ResultDelivered at delivered
    rw [action] at delivered
    exact absurd raises (delivered completes.completesParts)
  | closed same parts others =>
    refine h.others ?_ ?_ ?_ ?_ fun c hc => isPartFact_of_isAnswerFact (others c hc)
    · exact same.textParts
    · exact same.nextPartDeltaSequence
    · exact same.partAnswerReceipt
    · exact same.partDeltaIds
  | legacyText value nonempty parts valid built fresh =>
    refine h.others rfl rfl rfl (fun partId count => committed_hget ?_) ?_
    · intro entry hentry
      rw [built] at hentry
      obtain rfl | ⟨n, text, -, rfl⟩ := mem_textCandidates hentry <;> simp
    · intro c hc
      obtain ⟨entry, hentry, rfl⟩ := mem_map.mp hc
      rw [built] at hentry
      obtain rfl | ⟨n, text, -, rfl⟩ := mem_textCandidates hentry <;> rfl
  | handedOutLegacy action parts started open_ =>
    exact h.others rfl rfl rfl (fun _ _ => rfl) (forall_mem_singleton.mpr rfl)
  | completedLegacy later parts started open_ valid others =>
    refine h.others rfl rfl rfl (fun partId count => committed_hget ?_) ?_
    · exact completion_identity others
    · exact forall_mem_cons.mpr ⟨rfl, completion_later others⟩

end ReceiptBacked

theorem receiptBacked_run (env : AdapterEnvironment) {calls : List Call}
    (delivered : (adapterMachine env).Meets (ResultDelivered env)
      (adapterMachine env).start calls) :
    ReceiptBacked ((adapterMachine env).run calls) := by
  refine Machine.invariant_run (C := ResultDelivered env) ⟨tracks_initial, nofun⟩ ?_ delivered
  intro s call h hcall
  exact h.effect (perform_effect s.adapter call) hcall

/-- In part mode a receipt is reported only after its completion and all it counts were emitted. -/
theorem answerReceipt_backed (env : AdapterEnvironment) {calls : List Call}
    (delivered : (adapterMachine env).Meets (ResultDelivered env) (adapterMachine env).start calls)
    (parts : ((adapterMachine env).run calls).adapter.partMode = true) {receipt : AnswerReceipt}
    (reported : ((adapterMachine env).run calls).adapter.answerReceipt env = some receipt) :
    Backed ((adapterMachine env).run calls).emitted receipt := by
  unfold Adapter.answerReceipt at reported
  rw [if_pos parts] at reported
  exact (receiptBacked_run env delivered).backed receipt reported

/-- Short texts in place of the digests. -/
def sampleEnvironment : AdapterEnvironment where
  messageId := "msg_1"
  messageId_safe := by decide
  eventId _ identity :=
    match identity with
    | .message => "evt_started"
    | .delta 1 => "evt_delta_1"
    | .delta _ => "evt_delta_2"
    | .partDelta _ 1 => "evt_part_delta_1"
    | .partDelta _ _ => "evt_part_delta_2"
    | .partClassified _ _ => "evt_classified"
    | .messageCompleted => "evt_completed"
    | .modelCompleted => "evt_result"
    | _ => "evt_other"
  completed_ne_result := by decide
  eventId_safe _ identity := by split <;> decide
  partId _ _ := "part_1"
  partId_safe _ _ := by decide
  summaryId _ := "summary_1"

/-- A part is written and classified as the answer. -/
def answeredCalls (text : String) : List Call :=
  [⟨.partText (.key "m" none) text, fun _ => true⟩,
    ⟨.classify (.key "m" none) (some .answer), fun _ => true⟩]

/-- A turn that reports its result. -/
def resultCall : Call := ⟨.result ⟨12, 1, .completed⟩ false, fun _ => true⟩

theorem answerReceipt_backed_answeredRun :
    Backed ((adapterMachine sampleEnvironment).run (answeredCalls "hi" ++ [resultCall])).emitted
      ⟨"msg_1", 1, 2, "evt_part_delta_1"⟩ := by
  have delivered : (adapterMachine sampleEnvironment).Meets (ResultDelivered sampleEnvironment)
      (adapterMachine sampleEnvironment).start (answeredCalls "hi" ++ [resultCall]) := by
    refine ⟨trivial, trivial, fun _ => ?_, trivial⟩
    unfold ResultRaises
    decide +kernel
  exact answerReceipt_backed sampleEnvironment delivered (by decide +kernel) (by decide +kernel)

/-- A first result without any text makes the second one raise, after its receipt is written. -/
theorem repeatedResult_receipt_without_completion :
    ((adapterMachine sampleEnvironment).run
        (resultCall :: answeredCalls "hi" ++ [resultCall])).adapter.partMode = true ∧
      ((adapterMachine sampleEnvironment).run
        (resultCall :: answeredCalls "hi" ++ [resultCall])).adapter.answerReceipt
          sampleEnvironment =
        some ⟨"msg_1", 1, 2, "evt_part_delta_1"⟩ ∧
      ∀ c ∈ ((adapterMachine sampleEnvironment).run
        (resultCall :: answeredCalls "hi" ++ [resultCall])).emitted,
        c.payload.eventType ≠ .messageCompleted := by
  refine ⟨by decide +kernel, by decide +kernel, by decide +kernel⟩

end AiPlatform.Execution.AgentEvents
