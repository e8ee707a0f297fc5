import AiPlatform.Foundation.Decimals
import AiPlatform.Foundation.JsonRoundTrip
import AiPlatform.Foundation.Outcome
import AiPlatform.Foundation.Separators
import AiPlatform.Kernel.Identifiers

/-!
# The text of a stream cursor

A cursor is sent as its event id: run id, incarnation and Redis id, joined by colons. `parse` cuts
at the last two colons. It takes the incarnation from a text of decimal digits of any script, while
the event id has ASCII digits only.
-/
namespace AiPlatform.Streaming.Cursors

open AiPlatform.Foundation AiPlatform.Kernel List

inductive CursorError where
  | cursorInvalid
  | foreignRun
  | incarnationInvalid
  /-- `int` or `str` refuses a number with too many digits. -/
  | valueError
  deriving DecidableEq, Repr

/-- `^[A-Za-z0-9][A-Za-z0-9_-]{0,127}$` -/
def isRunId (value : String) : Bool := fullmatchId isRefChar value

/-- `^(0|[1-9][0-9]*)-(0|[1-9][0-9]*)$` -/
def isRedisId (value : String) : Bool :=
  match partition ['-'] value.toList with
  | some (time, sequence) => Json.isNatural time && Json.isNatural sequence
  | none => false

/-- A cursor that `__post_init__` accepts. -/
structure StreamCursor where
  runId : String
  streamIncarnation : Nat
  redisId : String
  isRunId_runId : isRunId runId = true
  streamIncarnation_pos : 1 ≤ streamIncarnation
  isRedisId_redisId : isRedisId redisId = true
  deriving DecidableEq

def StreamCursor.new (runId : String) (streamIncarnation : Nat) (redisId : String) :
    Except CursorError StreamCursor :=
  if h : isRunId runId = true ∧ 1 ≤ streamIncarnation ∧ isRedisId redisId = true then
    .ok ⟨runId, streamIncarnation, redisId, h.1, h.2.1, h.2.2⟩
  else .error .cursorInvalid

def joined (runId incarnation redisId : Text) : Text :=
  runId ++ ':' :: (incarnation ++ ':' :: redisId)

def StreamCursor.eventId (cursor : StreamCursor) : Except CursorError String := do
  let digits ← expect (writeInt cursor.streamIncarnation) .valueError
  pure (String.ofList (joined cursor.runId.toList digits cursor.redisId.toList))

def StreamCursor.parse (u : Unicode) (t : DigitTable) (value runId : String) :
    Except CursorError StreamCursor := do
  ensure (value ≠ "" ∧ value = strip u value) .cursorInvalid
  let (start, redisId) ← expect (rpartition ':' value.toList) .foreignRun
  let (parsedRun, incarnation) ← expect (rpartition ':' start) .foreignRun
  ensure (parsedRun = runId.toList) .foreignRun
  ensure (t.isDecimal incarnation = true ∧ incarnation.head? ≠ some '0') .incarnationInvalid
  let number ← expect (t.readInt incarnation) .valueError
  StreamCursor.new runId number (String.ofList redisId)

/-! ## The parts -/

variable {value : String}

theorem isRedisId_eq_true (h : isRedisId value = true) :
    ∃ time sequence, value.toList = time ++ '-' :: sequence ∧ Json.isNatural time = true ∧
      Json.isNatural sequence = true := by
  unfold isRedisId at h
  split at h
  · rename_i time sequence hparts
    have htext := eq_append_of_partition hparts
    rw [append_assoc] at htext
    rw [Bool.and_eq_true] at h
    exact ⟨time, sequence, htext, h⟩
  · cases h

theorem colon_notMem_redisId (h : isRedisId value = true) : ':' ∉ value.toList := by
  obtain ⟨time, sequence, heq, htime, hsequence⟩ := isRedisId_eq_true h
  rw [heq]
  simp only [mem_append, mem_cons, not_or]
  refine ⟨fun hc => ?_, by decide, fun hc => ?_⟩
  · exact absurd (Json.isDigit_of_isNatural htime _ hc) (by decide)
  · exact absurd (Json.isDigit_of_isNatural hsequence _ hc) (by decide)

/-- A Redis id ends in a digit. -/
theorem getLast?_redisId (h : isRedisId value = true) :
    ∃ c, value.toList.getLast? = some c ∧ c.isDigit = true := by
  obtain ⟨time, sequence, heq, -, hsequence⟩ := isRedisId_eq_true h
  have hne : sequence ≠ [] := by
    rintro rfl
    cases hsequence
  refine ⟨sequence.getLast hne, ?_, Json.isDigit_of_isNatural hsequence _ (getLast_mem hne)⟩
  rw [heq, getLast?_append_of_ne_nil _ (cons_ne_nil _ _), getLast?_cons,
    getLast?_eq_getLast_of_ne_nil hne]
  rfl

/-- A run id starts with a letter or a digit. -/
theorem head?_runId (h : isRunId value = true) :
    ∃ c, value.toList.head? = some c ∧ isAsciiAlnum c = true := by
  unfold isRunId fullmatchId at h
  split at h
  · cases h
  · rename_i c cs heq
    simp only [Bool.and_eq_true] at h
    exact ⟨c, by rw [heq]; rfl, h.1.1⟩

theorem colon_notMem_decimal {t : DigitTable} {text : Text} (h : t.isDecimal text = true) :
    ':' ∉ text := by
  intro hc
  unfold DigitTable.isDecimal at h
  have hsome := all_eq_true.mp (Bool.and_eq_true_iff.mp h).2 ':' hc
  rw [t.digit_ascii ':' (by decide)] at hsome
  cases hsome

/-! ## Reading a cursor -/

section Parse

variable {u : Unicode} {t : DigitTable} {value runId : String}

theorem StreamCursor.new_eq (cursor : StreamCursor) :
    StreamCursor.new cursor.runId cursor.streamIncarnation cursor.redisId = .ok cursor :=
  dif_pos ⟨cursor.isRunId_runId, cursor.streamIncarnation_pos, cursor.isRedisId_redisId⟩

variable {cursor : StreamCursor}

/-- A joined text has no space at its ends. -/
theorem strip_joined {incarnation : Text}
    (h : value.toList = joined cursor.runId.toList incarnation cursor.redisId.toList) :
    value ≠ "" ∧ value = strip u value := by
  obtain ⟨first, hfirst, halnum⟩ := head?_runId cursor.isRunId_runId
  obtain ⟨last, hlast, hdigit⟩ := getLast?_redisId cursor.isRedisId_redisId
  constructor
  · rintro rfl
    simp [joined] at h
  · refine (strip_eq_self ?_ ?_).symm
    · rw [h, joined, head?_append, hfirst]
      rintro c ⟨⟩
      exact isSpace_of_isSafeIdChar u (isSafeIdChar_of_isAsciiAlnum halnum)
    · have hne : cursor.redisId.toList ≠ [] := by
        intro hnil
        rw [hnil] at hlast
        cases hlast
      rw [h, joined, getLast?_append_of_ne_nil _ (cons_ne_nil _ _), ← cons_append,
        getLast?_append_of_ne_nil _ (cons_ne_nil _ _), getLast?_cons, hlast]
      rintro c ⟨⟩
      exact isSpace_of_isSafeIdChar u (isSafeIdChar_of_isDigit hdigit)

/-- What `parse` accepts, and what it gives. -/
theorem parse_eq_ok :
    StreamCursor.parse u t value runId = .ok cursor ↔
      cursor.runId = runId ∧ ∃ incarnation,
        value.toList = joined runId.toList incarnation cursor.redisId.toList ∧
          t.isDecimal incarnation = true ∧ incarnation.head? ≠ some '0' ∧
          t.readInt incarnation = some cursor.streamIncarnation := by
  constructor
  · intro h
    obtain ⟨-, h⟩ := ensure_bind_eq_ok.mp h
    obtain ⟨⟨start, redisId⟩, hstart, h⟩ := expect_bind_eq_ok.mp h
    obtain ⟨⟨parsedRun, incarnation⟩, hparsed, h⟩ := expect_bind_eq_ok.mp h
    obtain ⟨hrun, h⟩ := ensure_bind_eq_ok.mp h
    obtain ⟨⟨hdecimal, hzero⟩, h⟩ := ensure_bind_eq_ok.mp h
    obtain ⟨number, hnumber, h⟩ := expect_bind_eq_ok.mp h
    unfold StreamCursor.new at h
    split_ifs at h
    obtain rfl := Except.ok.inj h
    refine ⟨rfl, incarnation, ?_, hdecimal, hzero, hnumber⟩
    rw [(rpartition_eq_some.mp hstart).1, (rpartition_eq_some.mp hparsed).1, hrun,
      String.toList_ofList, joined, append_assoc, cons_append]
  · rintro ⟨rfl, incarnation, htext, hdecimal, hzero, hnumber⟩
    have hlast : rpartition ':' value.toList =
        some (cursor.runId.toList ++ ':' :: incarnation, cursor.redisId.toList) := by
      refine rpartition_eq_some.mpr ⟨?_, colon_notMem_redisId cursor.isRedisId_redisId⟩
      rw [htext, joined, append_assoc, cons_append]
    have hfirst : rpartition ':' (cursor.runId.toList ++ ':' :: incarnation) =
        some (cursor.runId.toList, incarnation) :=
      rpartition_eq_some.mpr ⟨rfl, colon_notMem_decimal hdecimal⟩
    unfold StreamCursor.parse
    rw [ensure_of (strip_joined htext), ok_bind, hlast]
    change (expect (rpartition ':' (cursor.runId.toList ++ ':' :: incarnation)) _ >>= _) = _
    rw [hfirst]
    change (ensure (cursor.runId.toList = cursor.runId.toList) _ >>= _) = _
    rw [ensure_of rfl, ok_bind, ensure_of ⟨hdecimal, hzero⟩, ok_bind, hnumber]
    change StreamCursor.new _ _ _ = _
    rw [String.ofList_toList, cursor.new_eq]

theorem eventId_eq_ok :
    cursor.eventId = .ok value ↔ (Nat.toDigits 10 cursor.streamIncarnation).length ≤ maxDigits ∧
      value.toList = joined cursor.runId.toList (Nat.toDigits 10 cursor.streamIncarnation)
        cursor.redisId.toList := by
  unfold StreamCursor.eventId
  rw [expect_bind_eq_ok]
  constructor
  · rintro ⟨digits, hdigits, h⟩
    unfold writeInt at hdigits
    dsimp only at hdigits
    split_ifs at hdigits with hlength
    obtain rfl := Option.some.inj hdigits
    obtain rfl := Except.ok.inj h
    exact ⟨hlength, String.toList_ofList⟩
  · rintro ⟨hlength, htext⟩
    refine ⟨_, if_pos hlength, ?_⟩
    rw [← htext, String.ofList_toList]
    rfl

/-- The event id of a cursor is read back. -/
theorem parse_of_eventId (h : cursor.eventId = .ok value) :
    StreamCursor.parse u t value cursor.runId = .ok cursor := by
  obtain ⟨hlength, htext⟩ := eventId_eq_ok.mp h
  refine parse_eq_ok.mpr ⟨rfl, _, htext, ?_, ?_, DigitTable.readInt_toDigits hlength⟩
  · exact (DigitTable.isDecimal_of_isAscii (isAscii_of_isDigit (toDigits_all_isDigit _))).mpr
      ⟨Nat.toDigits_ne_nil, toDigits_all_isDigit _⟩
  · obtain ⟨c, rest, hdigits, hc⟩ :=
      exists_toDigits_eq_cons (Nat.ne_of_gt cursor.streamIncarnation_pos)
    rw [hdigits]
    exact fun hzero => hc (Option.some.inj hzero)

/-- A text that was read from ASCII digits is the event id of the cursor. -/
theorem eventId_of_parse {incarnation : Text} (hascii : isAscii incarnation = true)
    (htext : value.toList = joined cursor.runId.toList incarnation cursor.redisId.toList)
    (hdecimal : t.isDecimal incarnation = true) (hzero : incarnation.head? ≠ some '0')
    (hnumber : t.readInt incarnation = some cursor.streamIncarnation) :
    cursor.eventId = .ok value := by
  obtain ⟨hne, hdigits⟩ := (DigitTable.isDecimal_of_isAscii hascii).mp hdecimal
  unfold DigitTable.readInt at hnumber
  split_ifs at hnumber with hlength
  have hvalue := Option.some.inj hnumber
  rw [DigitTable.value_of_isDigit hdigits] at hvalue
  have hwritten := (toDigits_ofDigitChars hdigits hne hzero).2
  rw [hvalue] at hwritten
  rw [eventId_eq_ok, hwritten]
  exact ⟨hlength, htext⟩

end Parse

/-- Between the run id and a Redis id stand decimal digits, not all of them ASCII, that make up a
positive number `int` reads. -/
def ForeignDigits (t : DigitTable) (value runId : String) : Prop :=
  isRunId runId = true ∧ ∃ incarnation redisId,
    value.toList = joined runId.toList incarnation redisId ∧
      isRedisId (String.ofList redisId) = true ∧ isAscii incarnation = false ∧
      t.isDecimal incarnation = true ∧ incarnation.head? ≠ some '0' ∧
      (∃ c ∈ incarnation, t.digit c ≠ some 0) ∧ incarnation.length ≤ maxDigits

/-- `parse` accepts exactly the event ids of the run's cursors and inverts them, unless the
incarnation is written with digits that are not ASCII. -/
theorem cursor_exact (u : Unicode) (t : DigitTable) (value runId : String) :
    (((∃ cursor, StreamCursor.parse u t value runId = .ok cursor) ↔
        ∃ cursor : StreamCursor, cursor.runId = runId ∧ cursor.eventId = .ok value) ∧
      ∀ cursor, StreamCursor.parse u t value runId = .ok cursor ↔
        cursor.runId = runId ∧ cursor.eventId = .ok value) ↔
      ¬ ForeignDigits t value runId := by
  constructor
  · rintro ⟨-, hinverse⟩ ⟨hrun, incarnation, redisId, htext, hredis, hascii,
      hdecimal, hzero, hdigit, hlength⟩
    have hpos : 1 ≤ t.value incarnation :=
      (DigitTable.value_pos_iff (all_eq_true.mp (Bool.and_eq_true_iff.mp hdecimal).2)).mpr hdigit
    let cursor : StreamCursor := ⟨runId, t.value incarnation, .ofList redisId, hrun, hpos, hredis⟩
    have hjoined : value.toList = joined runId.toList incarnation cursor.redisId.toList := by
      rw [htext, String.toList_ofList]
    have hparse : StreamCursor.parse u t value runId = .ok cursor :=
      parse_eq_ok.mpr ⟨rfl, incarnation, hjoined, hdecimal, hzero, if_pos hlength⟩
    -- the event id has the same ends, so the digits in the middle would be the same
    have hevent := (eventId_eq_ok.mp ((hinverse cursor).mp hparse).2).2
    rw [hjoined] at hevent
    have hmiddle := (List.cons.inj (append_cancel_left hevent)).2
    have hdigits := append_cancel_right hmiddle
    rw [hdigits, isAscii_of_isDigit (toDigits_all_isDigit _)] at hascii
    cases hascii
  · intro hforeign
    have hinverse : ∀ cursor, StreamCursor.parse u t value runId = .ok cursor ↔
        cursor.runId = runId ∧ cursor.eventId = .ok value := by
      refine fun cursor => ⟨fun hparse => ?_, fun ⟨hrun, hevent⟩ => hrun ▸ parse_of_eventId hevent⟩
      obtain ⟨rfl, incarnation, htext, hdecimal, hzero, hnumber⟩ := parse_eq_ok.mp hparse
      refine ⟨rfl, eventId_of_parse ?_ htext hdecimal hzero hnumber⟩
      by_contra hascii
      unfold DigitTable.readInt at hnumber
      split_ifs at hnumber with hlength
      have hpos : 1 ≤ t.value incarnation := by
        rw [Option.some.inj hnumber]
        exact cursor.streamIncarnation_pos
      refine hforeign ⟨cursor.isRunId_runId, incarnation, cursor.redisId.toList, htext, ?_,
        Bool.not_eq_true _ ▸ hascii, hdecimal, hzero, ?_, hlength⟩
      · rw [String.ofList_toList]
        exact cursor.isRedisId_redisId
      · exact (DigitTable.value_pos_iff
          (all_eq_true.mp (Bool.and_eq_true_iff.mp hdecimal).2)).mp hpos
    exact ⟨exists_congr hinverse, hinverse⟩

/-- The ASCII digits and the Arabic-Indic ones. -/
def arabicDigits : DigitTable where
  digit c :=
    if c.isDigit then some (c.toNat - '0'.toNat)
    else if 0x660 ≤ c.val ∧ c.val ≤ 0x669 then some (c.toNat - 0x660)
    else none
  digit_ascii c hc := by
    have hlow : ¬ (0x660 ≤ c.val ∧ c.val ≤ 0x669) := by
      rintro ⟨h, -⟩
      exact absurd (UInt32.lt_of_le_of_lt h hc) (by decide)
    rw [if_neg hlow]

/-- The text is accepted and is no event id. -/
theorem cursor_accepts_arabicDigit :
    ((StreamCursor.parse .ascii arabicDigits "run:٣:1-0" "run").toOption.map fun cursor =>
        (cursor.streamIncarnation, cursor.eventId)) = some (3, .ok "run:3:1-0") := by
  decide +kernel

end AiPlatform.Streaming.Cursors
