import AiPlatform.Execution.TextCheckpoints
import Mathlib.Data.List.DropRight

/-!
# Evidence of a model's response

`observe_anthropic_text` forwards the chunks of a response and, on the way, cuts their bytes into
lines, collects the data lines of each server-sent event and hands the event to a checkpoint. What
is kept of a line that has not ended, and of an event, is bounded; past the bound the observer stops
and marks the evidence as partial.
-/
namespace AiPlatform.Execution.ModelEvidence

open AiPlatform.Foundation TextCheckpoints List

/-! ## The observer -/

def maxLineBytes : Nat := 64 * 1024

def newline : UInt8 := 10

/-- `line.removesuffix(b"\r")` -/
def removeReturn (line : Bytes) : Bytes :=
  if line.getLast? = some 13 then line.dropLast else line

/-- `b"data:"` -/
def dataField : Bytes := [100, 97, 116, 97, 58]

structure Observer where
  pending : Bytes
  dataLines : List Bytes
  dataSize : Nat
  observing : Bool
  checkpoint : Checkpoint

namespace Observer

def initial : Observer := ⟨[], [], 0, true, .initial⟩

/-- `observer.partial(coverage)` -/
def mark (o : Observer) (coverage : Coverage) : Observer :=
  { o with checkpoint := o.checkpoint.markPartial coverage }

def clear (o : Observer) : Observer := { o with pending := [], dataLines := [] }

end Observer

section Observe

-- `loads` is `json.loads` of a payload, absent where it raises
variable (cfg : Config) (loads : Bytes → Option Value)

namespace Observer

/-- `accept_event` -/
def acceptEvent (o : Observer) : Observer :=
  if !o.observing || o.dataLines.isEmpty then o
  else
    let payload := [newline].intercalate o.dataLines
    let o := { o with dataLines := [], dataSize := 0 }
    match loads payload with
    | some (.dict members) => { o with checkpoint := o.checkpoint.accept cfg (.dict members) }
    | _ => o.mark .invalidEvent

/-- One more data line of the event. -/
def acceptData (o : Observer) (data : Bytes) : Observer :=
  let o := { o with dataSize := o.dataSize + data.length }
  if maxLineBytes < o.dataSize then { o with observing := false }.mark .oversizedEvent
  else { o with dataLines := o.dataLines ++ [data] }

/-- One line, without its end. -/
def acceptLine (o : Observer) (line : Bytes) : Observer :=
  if line.isEmpty then o.acceptEvent cfg loads
  else if dataField.isPrefixOf line then o.acceptData ((line.drop 5).dropWhile (· == 32))
  else o

theorem acceptEvent_withPending (o : Observer) (rest : Bytes) :
    { o with pending := rest }.acceptEvent cfg loads =
      { o.acceptEvent cfg loads with pending := rest } := by
  unfold acceptEvent
  split_ifs
  · rfl
  · dsimp only
    split <;> rfl

theorem acceptData_withPending (o : Observer) (data rest : Bytes) :
    { o with pending := rest }.acceptData data = { o.acceptData data with pending := rest } := by
  unfold acceptData
  dsimp only
  split_ifs <;> rfl

/-- A line is handled in the same way whatever bytes wait behind it. -/
theorem acceptLine_withPending (o : Observer) (line rest : Bytes) :
    { o with pending := rest }.acceptLine cfg loads line =
      { o.acceptLine cfg loads line with pending := rest } := by
  unfold acceptLine
  split_ifs
  · exact acceptEvent_withPending cfg loads o rest
  · exact acceptData_withPending o _ rest
  · rfl

/-- The lines that have ended, until an event is too large. -/
def drain (o : Observer) : Observer :=
  match h : o.pending.findIdx? (· == newline) with
  | none => o
  | some i =>
    let line := removeReturn (o.pending.take i)
    let o' := { o with pending := o.pending.drop (i + 1) }.acceptLine cfg loads line
    if o'.observing then o'.drain else o'
termination_by o.pending.length
decreasing_by
  have hlt := (findIdx?_eq_some_iff_getElem.mp h).1
  rw [acceptLine_withPending, length_drop]
  omega

/-- What is left of a line may not grow past the bound. -/
def settle (o : Observer) : Observer :=
  let o :=
    if maxLineBytes < o.pending.length then { o with observing := false }.mark .oversizedLine
    else o
  if !o.observing then o.clear else o

/-- The loop's body, up to `yield chunk`. -/
def acceptChunk (o : Observer) (chunk : Bytes) : Observer :=
  if o.observing then ({ o with pending := o.pending ++ chunk }.drain cfg loads).settle else o

/-- The loop: what is yielded, and the observer after it. -/
def forward (o : Observer) : List Bytes → List Bytes × Observer
  | [] => ([], o)
  | chunk :: body =>
    let (yielded, last) := (o.acceptChunk cfg loads chunk).forward body
    (chunk :: yielded, last)

/-- After the loop. -/
def close (o : Observer) : Checkpoint :=
  let o := if !o.pending.isEmpty || !o.dataLines.isEmpty then o.mark .unfinishedEvent else o
  o.checkpoint.finish cfg false

end Observer

/-- `observe_anthropic_text`: the chunks it yields and the receipts it records. -/
def observeAnthropicText (body : List Bytes) : List Bytes × List Receipt :=
  let (yielded, last) := Observer.initial.forward cfg loads body
  (yielded, (last.close cfg).receipts)

end Observe

/-! ## One byte at a time -/

section Steps

variable (cfg : Config) (loads : Bytes → Option Value)

namespace Observer

/-- The observer without its bound on lines that have not ended. -/
def step (o : Observer) (byte : UInt8) : Observer :=
  if o.observing then
    if byte = newline then
      let o := { o with pending := [] }.acceptLine cfg loads (removeReturn o.pending)
      if o.observing then o else o.clear
    else { o with pending := o.pending ++ [byte] }
  else o

/-- The bound. -/
def bounded (o : Observer) : Observer :=
  if o.observing ∧ maxLineBytes < o.pending.length then
    { o with observing := false }.mark .oversizedLine |>.clear
  else o

variable {cfg loads} {o : Observer}

theorem step_of_not_observing (h : o.observing = false) (byte : UInt8) :
    o.step cfg loads byte = o := by
  simp [step, h]

theorem foldl_step_of_not_observing (h : o.observing = false) (bytes : Bytes) :
    bytes.foldl (step cfg loads) o = o := by
  induction bytes with
  | nil => rfl
  | cons byte bytes ih => rw [foldl_cons, step_of_not_observing h, ih]

theorem step_of_ne (h : o.observing = true) {byte : UInt8} (hbyte : byte ≠ newline) :
    o.step cfg loads byte = { o with pending := o.pending ++ [byte] } := by
  simp [step, h, hbyte]

theorem step_newline (h : o.observing = true) :
    o.step cfg loads newline =
      if (o.acceptLine cfg loads (removeReturn o.pending)).observing then
        { o.acceptLine cfg loads (removeReturn o.pending) with pending := [] }
      else (o.acceptLine cfg loads (removeReturn o.pending)).clear := by
  rw [step, if_pos h, if_pos rfl]
  simp only [acceptLine_withPending]
  rfl

theorem foldl_step_of_not_mem (h : o.observing = true) {bytes : Bytes} (hbytes : newline ∉ bytes) :
    bytes.foldl (step cfg loads) o = { o with pending := o.pending ++ bytes } := by
  induction bytes generalizing o with
  | nil => simp
  | cons byte bytes ih =>
    rw [mem_cons, not_or] at hbytes
    rw [foldl_cons, step_of_ne h (Ne.symm hbytes.1),
      ih (o := { o with pending := o.pending ++ [byte] }) h hbytes.2]
    simp

theorem bounded_of_not_observing (h : o.observing = false) : o.bounded = o := by
  simp [bounded, h]

/-- Once the size of an event has stopped the observer, the size of a line adds nothing. -/
theorem mark_oversizedLine (o : Observer) (line : Bytes) (h : o.observing = true)
    (hoff : (o.acceptLine cfg loads line).observing = false) :
    (o.acceptLine cfg loads line).mark .oversizedLine = o.acceptLine cfg loads line := by
  unfold acceptLine at hoff ⊢
  split_ifs at hoff ⊢ with hempty hdata
  · exfalso
    unfold acceptEvent at hoff
    dsimp only at hoff
    split_ifs at hoff
    · simp [h] at hoff
    · split at hoff <;> simp [mark, h] at hoff
  · unfold acceptData at hoff ⊢
    dsimp only at hoff ⊢
    split_ifs at hoff ⊢
    · simp only [mark, Checkpoint.markPartial]
      grind
    · simp [h] at hoff
  · simp [h] at hoff

theorem findIdx?_newline_of_not_mem {line : Bytes} (h : newline ∉ line) :
    line.findIdx? (· == newline) = none := by
  rw [findIdx?_eq_none_iff]
  intro byte hbyte
  rw [beq_eq_false_iff_ne]
  rintro rfl
  exact h hbyte

theorem drain_of_not_mem (h : newline ∉ o.pending) : o.drain cfg loads = o := by
  have hnone := findIdx?_newline_of_not_mem h
  unfold drain
  split
  · rfl
  · simp_all

/-- The first line that has ended is taken off. -/
theorem drain_of_append (line rest : Bytes) (h : newline ∉ line) :
    { o with pending := line ++ newline :: rest }.drain cfg loads =
      if (o.acceptLine cfg loads (removeReturn line)).observing then
        { o.acceptLine cfg loads (removeReturn line) with pending := rest }.drain cfg loads
      else { o.acceptLine cfg loads (removeReturn line) with pending := rest } := by
  have hindex : (line ++ newline :: rest).findIdx? (· == newline) = some line.length := by
    rw [findIdx?_append, findIdx?_newline_of_not_mem h]
    simp [findIdx?_cons]
  rw [drain]
  split
  · rename_i hnone
    rw [hindex] at hnone
    contradiction
  · rename_i i hsome
    obtain rfl : line.length = i := Option.some.inj (hindex.symm.trans hsome)
    have hdrop : (line ++ newline :: rest).drop (line.length + 1) = rest := by
      rw [← drop_drop, drop_left]
      rfl
    simp only [take_left, hdrop]
    rw [acceptLine_withPending cfg loads { o with pending := line ++ newline :: rest },
      acceptLine_withPending]

theorem newline_not_mem_step (h : newline ∉ o.pending) (byte : UInt8) :
    newline ∉ (o.step cfg loads byte).pending := by
  unfold step
  dsimp only
  split_ifs with hobs hbyte hobs'
  · rw [acceptLine_withPending]
    exact not_mem_nil
  · exact not_mem_nil
  · simpa [h] using Ne.symm hbyte
  · exact h

theorem settle_of_observing (h : o.observing = true) : o.settle = o.bounded := by
  unfold settle bounded
  by_cases hlt : maxLineBytes < o.pending.length
  · simp [h, hlt, mark]
  · simp [h, hlt]

theorem settle_of_not_observing (h : o.observing = false) (hmark : o.mark .oversizedLine = o)
    (rest : Bytes) : { o with pending := rest }.settle = o.clear := by
  have hcheckpoint : o.checkpoint.markPartial .oversizedLine = o.checkpoint :=
    congrArg Observer.checkpoint hmark
  unfold settle
  by_cases hlt : maxLineBytes < rest.length
  · simp [hlt, mark, clear, hcheckpoint, h]
  · simp [hlt, clear, h]

/-- Taking lines off is the same as going through the bytes. -/
theorem settle_drain (h : o.observing = true) (hpending : newline ∉ o.pending) (bytes : Bytes) :
    ({ o with pending := o.pending ++ bytes }.drain cfg loads).settle =
      (bytes.foldl (step cfg loads) o).bounded := by
  induction bytes generalizing o with
  | nil =>
    rw [append_nil, drain_of_not_mem hpending]
    exact settle_of_observing h
  | cons byte bytes ih =>
    rw [foldl_cons]
    by_cases hbyte : byte = newline
    · subst hbyte
      rw [drain_of_append _ _ hpending, step_newline h]
      have hmark := @mark_oversizedLine cfg loads o (removeReturn o.pending) h
      generalize o.acceptLine cfg loads (removeReturn o.pending) = a at hmark ⊢
      cases ha : a.observing with
      | true => exact ih (o := { a with pending := [] }) ha not_mem_nil
      | false =>
        have hclear : a.clear.observing = false := ha
        simp only [Bool.false_eq_true, if_false]
        rw [foldl_step_of_not_observing hclear, bounded_of_not_observing hclear]
        exact settle_of_not_observing ha (hmark ha) bytes
    · have hpending' : newline ∉ o.pending ++ [byte] := by simpa [hpending] using Ne.symm hbyte
      rw [step_of_ne h hbyte, ← ih (o := { o with pending := o.pending ++ [byte] }) h hpending']
      simp

theorem acceptChunk_eq (hpending : newline ∉ o.pending) (chunk : Bytes) :
    o.acceptChunk cfg loads chunk = (chunk.foldl (step cfg loads) o).bounded := by
  unfold acceptChunk
  by_cases h : o.observing = true
  · rw [if_pos h]
    exact settle_drain h hpending chunk
  · rw [if_neg h]
    rw [Bool.not_eq_true] at h
    rw [foldl_step_of_not_observing h, bounded_of_not_observing h]

variable (cfg loads)

/-- The observer after some bytes, without the bound. -/
def after (bytes : Bytes) : Observer := bytes.foldl (step cfg loads) initial

variable {cfg loads}

theorem after_append (bytes more : Bytes) :
    after cfg loads (bytes ++ more) = more.foldl (step cfg loads) (after cfg loads bytes) :=
  foldl_append

/-- The bytes after the last newline. -/
def openLine (bytes : Bytes) : Bytes := bytes.rtakeWhile (· != newline)

theorem observing_of_observing_step {byte : UInt8} (h : (o.step cfg loads byte).observing = true) :
    o.observing = true := by
  by_contra hoff
  rw [Bool.not_eq_true] at hoff
  rw [step_of_not_observing hoff, hoff] at h
  contradiction

/-- While the observer is on, it holds the line that has not ended. -/
theorem pending_after (bytes : Bytes) (h : (after cfg loads bytes).observing = true) :
    (after cfg loads bytes).pending = openLine bytes := by
  induction bytes using List.reverseRecOn with
  | nil => rfl
  | append_singleton bytes byte ih =>
    rw [after_append, foldl_cons, foldl_nil] at h ⊢
    have hobs := observing_of_observing_step h
    rw [openLine, rtakeWhile_concat]
    by_cases hbyte : byte = newline
    · subst hbyte
      have hempty : ((after cfg loads bytes).step cfg loads newline).pending = [] := by
        rw [step_newline hobs]
        split_ifs <;> rfl
      rw [hempty, if_neg (by decide)]
    · rw [step_of_ne hobs hbyte, ih hobs]
      simp [hbyte, openLine]

theorem newline_not_mem_after (bytes : Bytes) : newline ∉ (after cfg loads bytes).pending := by
  induction bytes using List.reverseRecOn with
  | nil => exact not_mem_nil
  | append_singleton bytes byte ih =>
    rw [after_append]
    exact newline_not_mem_step ih byte

theorem foldl_acceptChunk_of_not_observing (h : o.observing = false) (chunks : List Bytes) :
    chunks.foldl (acceptChunk cfg loads) o = o := by
  induction chunks with
  | nil => rfl
  | cons chunk chunks ih =>
    have hchunk : o.acceptChunk cfg loads chunk = o := by simp [acceptChunk, h]
    rw [foldl_cons, hchunk, ih]

/-- Where nothing more ends, the bound may be applied at once or at the end. -/
theorem bounded_foldl_step (h : o.observing = true) (hlt : maxLineBytes < o.pending.length)
    {bytes : Bytes} (hbytes : newline ∉ bytes) :
    (bytes.foldl (step cfg loads) o).bounded = o.bounded := by
  have hlt' : maxLineBytes < (o.pending ++ bytes).length := by
    rw [length_append]
    omega
  rw [foldl_step_of_not_mem h hbytes]
  rw [bounded, if_pos ⟨h, hlt'⟩, bounded, if_pos ⟨h, hlt⟩]
  rfl

end Observer

/-- No chunk ends more than the bound into a line that a later chunk ends. -/
def Fits (chunks : List Bytes) : Prop :=
  ∀ earlier later, chunks = earlier ++ later → newline ∈ later.flatten →
    (Observer.openLine earlier.flatten).length ≤ maxLineBytes

namespace Observer

variable {cfg loads}

/-- The bound has no effect until the last line. -/
theorem foldl_acceptChunk (seen : Bytes) (chunks : List Bytes)
    (hseen : (after cfg loads seen).bounded = after cfg loads seen)
    (hfits : ∀ earlier later, chunks = earlier ++ later → newline ∈ later.flatten →
      (openLine (seen ++ earlier.flatten)).length ≤ maxLineBytes) :
    chunks.foldl (acceptChunk cfg loads) (after cfg loads seen) =
      (after cfg loads (seen ++ chunks.flatten)).bounded := by
  induction chunks generalizing seen with
  | nil => simpa using hseen.symm
  | cons chunk chunks ih =>
    rw [foldl_cons, acceptChunk_eq (newline_not_mem_after seen), ← after_append,
      flatten_cons, ← append_assoc]
    by_cases hbound : (after cfg loads (seen ++ chunk)).bounded = after cfg loads (seen ++ chunk)
    · rw [hbound]
      apply ih _ hbound
      intro earlier later heq hmem
      have := hfits (chunk :: earlier) later (by rw [heq, cons_append]) hmem
      rwa [flatten_cons, ← append_assoc] at this
    · have hover : (after cfg loads (seen ++ chunk)).observing = true ∧
          maxLineBytes < (after cfg loads (seen ++ chunk)).pending.length := by
        by_contra hno
        exact hbound (if_neg hno)
      obtain ⟨hobs, hlt⟩ := hover
      have hnone : newline ∉ chunks.flatten := by
        intro hmem
        have hle := hfits [chunk] chunks rfl hmem
        rw [flatten_singleton, ← pending_after (seen ++ chunk) hobs] at hle
        omega
      have hoff : (after cfg loads (seen ++ chunk)).bounded.observing = false := by
        rw [bounded, if_pos ⟨hobs, hlt⟩]
        rfl
      rw [foldl_acceptChunk_of_not_observing hoff, after_append (seen ++ chunk),
        bounded_foldl_step hobs hlt hnone]

theorem forward_eq (o : Observer) (body : List Bytes) :
    o.forward cfg loads body = (body, body.foldl (acceptChunk cfg loads) o) := by
  induction body generalizing o with
  | nil => rfl
  | cons chunk body ih => simp only [forward, ih, foldl_cons]

end Observer

/-- The receipts of a response that fits are a function of its bytes. -/
theorem receipts_of_fits {chunks : List Bytes} (h : Fits chunks) :
    (observeAnthropicText cfg loads chunks).2 =
      ((Observer.after cfg loads chunks.flatten).bounded.close cfg).receipts := by
  have hrun := @Observer.foldl_acceptChunk cfg loads [] chunks rfl h
  simp only [observeAnthropicText, Observer.forward_eq]
  rw [nil_append] at hrun
  rw [← hrun]
  rfl

/-- Chunks are forwarded as they are, and of two ways to cut one response, neither of which goes
past the bound inside a line that ends later, the checkpoints are the same. -/
theorem observeAnthropicText_exact (chunks chunks' : List Bytes) :
    (observeAnthropicText cfg loads chunks).1 = chunks ∧
      (chunks.flatten = chunks'.flatten → Fits chunks → Fits chunks' →
        (observeAnthropicText cfg loads chunks).2 =
          (observeAnthropicText cfg loads chunks').2) := by
  constructor
  · simp only [observeAnthropicText, Observer.forward_eq]
  · intro hflatten h h'
    rw [receipts_of_fits cfg loads h, receipts_of_fits cfg loads h', hflatten]

end Steps

/-! A comment line one byte longer than the bound is passed over when it comes in one piece. Cut
before its end, it stops the observer. -/

def longComment : Bytes := List.replicate (maxLineBytes + 1) 58

theorem acceptLine_longComment (cfg : Config) (loads : Bytes → Option Value) (o : Observer) :
    o.acceptLine cfg loads (removeReturn longComment) = o := by
  have hlast : longComment.getLast? = some 58 := by simp [longComment, getLast?_replicate]
  have hline : removeReturn longComment = 58 :: List.replicate maxLineBytes 58 := by
    rw [removeReturn, hlast]
    rfl
  rw [hline]
  rfl

theorem newline_not_mem_longComment : newline ∉ longComment := by
  intro h
  have := eq_of_mem_replicate h
  revert this
  decide

theorem after_longComment (cfg : Config) (loads : Bytes → Option Value) :
    Observer.after cfg loads longComment = { Observer.initial with pending := longComment } :=
  Observer.foldl_step_of_not_mem rfl newline_not_mem_longComment

theorem longComment_cut_changes_coverage :
    ([longComment ++ [newline]] : List Bytes).flatten = [longComment, [newline]].flatten ∧
      (observeAnthropicText sampleConfig (fun _ => none) [longComment ++ [newline]]).2.map
        Receipt.coverage = [.streamEnd] ∧
      (observeAnthropicText sampleConfig (fun _ => none) [longComment, [newline]]).2.map
        Receipt.coverage = [.oversizedLine] := by
  have hempty : newline ∉ Observer.initial.pending := not_mem_nil
  have hwhole : Observer.initial.acceptChunk sampleConfig (fun _ => none)
      (longComment ++ [newline]) = Observer.initial := by
    rw [Observer.acceptChunk_eq hempty]
    change (Observer.after _ _ (longComment ++ [newline])).bounded = _
    rw [Observer.after_append, after_longComment, foldl_cons, foldl_nil,
      Observer.step_newline rfl, acceptLine_longComment]
    rfl
  have hcut : Observer.initial.acceptChunk sampleConfig (fun _ => none) longComment =
      ({ Observer.initial with observing := false }.mark .oversizedLine).clear := by
    have hlong : maxLineBytes < longComment.length := by simp [longComment]
    rw [Observer.acceptChunk_eq hempty]
    change (Observer.after _ _ longComment).bounded = _
    rw [after_longComment, Observer.bounded, if_pos ⟨rfl, hlong⟩]
    rfl
  refine ⟨by simp, ?_, ?_⟩
  · simp only [observeAnthropicText, Observer.forward, hwhole]
    rfl
  · simp only [observeAnthropicText, Observer.forward, hcut]
    rfl

end AiPlatform.Execution.ModelEvidence
