import AiPlatform.Foundation.Outcome
import AiPlatform.Streaming.Replay

/-!
# What a reader delivers is a segment of the history

The history is everything that was ever appended, over all lives of the key. Ids grow along it, so
an id names one place in it. The reader keeps two facts: where it stands (`Position`), and that the
page it is sending continues from there (`Upcoming`). A page is only ever taken from one atomic
read that found the reader's own entry, or `stream.open`, still in the key.
-/
namespace AiPlatform.Streaming

open AiPlatform.Foundation List

/-! ## The channel -/

structure Channel.Sound (c : Channel) : Prop where
  ordered : Ordered c.history
  above_origin : ∀ e ∈ c.history, StreamId.origin < e.id
  ms_le : ∀ e ∈ c.history, e.id.ms ≤ c.appendedAt
  appendedAt_le : c.appendedAt ≤ c.clock
  retained : ∀ s, c.stream = some s → s.entries <:+ c.history
  le_lastId : ∀ s, c.stream = some s → ∀ e ∈ c.history, e.id ≤ s.lastId
  lastId_ms_le : ∀ s, c.stream = some s → s.lastId.ms ≤ c.appendedAt
  /-- A key that is gone has expired, after the last append. -/
  expired : c.stream = none → c.history = [] ∨ c.appendedAt < c.clock

variable {c : Channel} {e : Entry} {r : Reader} {d : ResumeDecision}

/-- The next id is above every id of the history, also when the key starts a new life. -/
theorem Channel.Sound.lt_nextEntry (h : c.Sound) (now : Nat) (envelope : Envelope) :
    ∀ e ∈ c.history, e.id < ((c.stream.getD .empty).nextEntry (c.tick now) envelope).id := by
  intro e he
  cases hs : c.stream with
  | some s => exact (h.le_lastId s hs e he).trans_lt (StreamId.lt_next _ _)
  | none =>
    rcases h.expired hs with hnil | hlt
    · simp [hnil] at he
    · have hms : e.id.ms < c.tick now :=
        (h.ms_le e he).trans_lt (hlt.trans_le (le_max_left _ _))
      have hpos : StreamId.origin.ms < c.tick now := (Nat.zero_le _).trans_lt hms
      exact StreamId.lt_of_ms_lt (hms.trans_eq (StreamId.ms_next_of_lt hpos).symm)

theorem Channel.Sound.lastId_ms_getD_le (h : c.Sound) :
    (c.stream.getD .empty).lastId.ms ≤ c.clock := by
  cases hs : c.stream with
  | none => exact Nat.zero_le _
  | some s => exact (h.lastId_ms_le s hs).trans h.appendedAt_le

theorem Channel.Sound.append (h : c.Sound) (now : Nat) (envelope : Envelope) :
    (c.apply (.append now envelope)).Sound := by
  have hlt := h.lt_nextEntry now envelope
  have hclock : c.clock ≤ c.tick now := le_max_left _ _
  have hms : ((c.stream.getD .empty).lastId.next (c.tick now)).ms ≤ c.tick now :=
    StreamId.ms_next_le (h.lastId_ms_getD_le.trans hclock)
  refine
    { ordered := h.ordered.append_singleton hlt
      above_origin := ?_
      ms_le := ?_
      appendedAt_le := le_rfl
      retained := ?_
      le_lastId := ?_
      lastId_ms_le := ?_
      expired := by simp [apply] }
  · exact forall_mem_append.mpr ⟨h.above_origin, forall_mem_singleton.mpr
      ((StreamId.origin_le _).trans_lt (StreamId.lt_next _ _))⟩
  · exact forall_mem_append.mpr
      ⟨fun e he => (h.ms_le e he).trans (h.appendedAt_le.trans hclock),
        forall_mem_singleton.mpr hms⟩
  · rintro s ⟨⟩
    cases hs : c.stream with
    | none => exact ⟨c.history, by simp [AppendStream.xadd, AppendStream.empty, apply, hs]⟩
    | some s =>
      obtain ⟨before, hbefore⟩ := h.retained s hs
      exact ⟨before, by simp [AppendStream.xadd, apply, hs, ← hbefore]⟩
  · rintro s ⟨⟩
    exact forall_mem_append.mpr
      ⟨fun e he => (hlt e he).le, forall_mem_singleton.mpr le_rfl⟩
  · rintro s ⟨⟩
    exact hms

theorem Channel.Sound.trim (h : c.Sound) (count : Nat) :
    (c.apply (.trim count)).Sound := by
  have hstream : ∀ s, (c.apply (.trim count)).stream = some s →
      ∃ s₀, c.stream = some s₀ ∧ s₀.trim count = s := by
    intro s hs
    simpa [apply] using hs
  refine { h with retained := ?_, le_lastId := ?_, lastId_ms_le := ?_, expired := ?_ }
  · intro s hs
    obtain ⟨s₀, h₀, rfl⟩ := hstream s hs
    exact (drop_suffix _ _).trans (h.retained s₀ h₀)
  · intro s hs
    obtain ⟨s₀, h₀, rfl⟩ := hstream s hs
    exact h.le_lastId s₀ h₀
  · intro s hs
    obtain ⟨s₀, h₀, rfl⟩ := hstream s hs
    exact h.lastId_ms_le s₀ h₀
  · intro hs
    exact h.expired (by simpa [apply] using hs)

theorem Channel.Sound.expire (h : c.Sound) (now : Nat) :
    (c.apply (.expire now)).Sound := by
  have hclock : c.clock ≤ c.tick now := le_max_left _ _
  by_cases httl : c.appendedAt + streamTtlMs ≤ c.tick now
  · rw [apply, if_pos httl]
    refine { h with appendedAt_le := h.appendedAt_le.trans hclock
                    retained := by simp, le_lastId := by simp, lastId_ms_le := by simp
                    expired := fun _ => .inr ?_ }
    exact lt_of_lt_of_le (Nat.lt_add_of_pos_right (by decide)) httl
  · rw [apply, if_neg httl]
    refine { h with appendedAt_le := h.appendedAt_le.trans hclock, expired := fun hs => ?_ }
    exact (h.expired hs).imp_right fun hlt => hlt.trans_le hclock

theorem Channel.Sound.apply (h : c.Sound) : ∀ event, (c.apply event).Sound
  | .append now envelope => h.append now envelope
  | .trim count => h.trim count
  | .expire now => h.expire now

theorem Channel.history_grows (c : Channel) (event : ChannelEvent) :
    c.history <+: (c.apply event).history := by
  cases event with
  | append now envelope => exact prefix_append _ _
  | trim count => exact prefix_rfl
  | expire now =>
    rw [apply]
    split_ifs <;> exact prefix_rfl

/-! ## Positions and pages -/

/-- At a `stream.open`, or directly after the cursor's entry. -/
def BeginsAt (cursor : Option StreamCursor) (before delivered : List Entry) : Prop :=
  match cursor with
  | none => ∃ e, delivered.head? = some e ∧ e.value.eventType = .streamOpen
  | some c => ∃ e, before.getLast? = some e ∧ e.id = c.redisId

def startId (cursor : Option StreamCursor) : StreamId := cursor.elim .origin StreamCursor.redisId

/-- The reader has sent `delivered` and stands at `after`. -/
inductive Position (cursor : Option StreamCursor) (history : List Entry) :
    List Entry → StreamId → Prop
  | unsent {after : StreamId} : after = startId cursor → Position cursor history [] after
  | sent (before sent : List Entry) (last : Entry) (rest : List Entry) {after : StreamId} :
      history = before ++ (sent ++ [last]) ++ rest → last.id = after →
      BeginsAt cursor before (sent ++ [last]) → Position cursor history (sent ++ [last]) after

/-- The page continues the history from `after`. -/
inductive Upcoming (history : List Entry) : StreamId → List Entry → Prop
  | done {after : StreamId} : Upcoming history after []
  | opening (before : List Entry) (first : Entry) (page rest : List Entry) :
      history = before ++ first :: (page ++ rest) → first.value.eventType = .streamOpen →
      Upcoming history .origin (first :: page)
  | next (before : List Entry) (e : Entry) (page rest : List Entry) {after : StreamId} :
      history = before ++ e :: (page ++ rest) → e.id = after → Upcoming history after page

/-- A cursor the reader goes on from names an entry. -/
def Anchored (cursor : Option StreamCursor) : Prop :=
  ∀ c, cursor = some c → StreamId.origin < c.redisId

variable {cursor : Option StreamCursor} {history history' sent page : List Entry}
  {after : StreamId}

theorem Position.mono (h : Position cursor history sent after) (hle : history <+: history') :
    Position cursor history' sent after := by
  obtain ⟨more, rfl⟩ := hle
  cases h with
  | unsent hstart => exact .unsent hstart
  | sent before sent last rest hhistory hlast hbegin =>
    exact .sent before sent last (rest ++ more) (by rw [hhistory]; simp) hlast hbegin

theorem Upcoming.mono (h : Upcoming history after page) (hle : history <+: history') :
    Upcoming history' after page := by
  obtain ⟨more, rfl⟩ := hle
  cases h with
  | done => exact .done
  | opening before first page rest hhistory hopen =>
    exact .opening before first page (rest ++ more) (by rw [hhistory]; simp) hopen
  | next before e page rest hhistory hid =>
    exact .next before e page (rest ++ more) (by rw [hhistory]; simp) hid

theorem BeginsAt.append {before sent more : List Entry} (h : BeginsAt cursor before sent) :
    BeginsAt cursor before (sent ++ more) := by
  cases cursor with
  | none =>
    obtain ⟨e, he, hopen⟩ := h
    exact ⟨e, head?_append.trans (by rw [he]; rfl), hopen⟩
  | some c => exact h

/-- So the loop of the live side never passes over an entry. -/
theorem Upcoming.after_lt (hordered : Ordered history)
    (habove : ∀ e ∈ history, StreamId.origin < e.id) (h : Upcoming history after (e :: page)) :
    after < e.id := by
  cases h with
  | opening before _ _ rest hhistory _ => exact habove e (by rw [hhistory]; simp)
  | next before x _ rest hhistory hid =>
    rw [hhistory] at hordered
    obtain ⟨-, hrest, -⟩ := pairwise_append.mp hordered
    exact hid ▸ (pairwise_cons.mp hrest).1 e mem_cons_self

/-- Sending the next entry of a page moves the reader by exactly that entry. -/
theorem Position.advance (hordered : Ordered history)
    (habove : ∀ e ∈ history, StreamId.origin < e.id) (hanchored : Anchored cursor)
    (h : Position cursor history sent after) (hup : Upcoming history after (e :: page)) :
    Position cursor history (sent ++ [e]) e.id ∧ Upcoming history e.id page := by
  cases hup with
  | opening before _ _ rest hhistory hopen =>
    refine ⟨?_, .next before e page rest hhistory rfl⟩
    cases h with
    | unsent hstart =>
      -- A cursor would name an entry, and the origin is none.
      cases cursor with
      | some c => exact absurd hstart (hanchored c rfl).ne
      | none =>
        exact .sent before [] e (page ++ rest) (by rw [hhistory]; simp) rfl ⟨e, rfl, hopen⟩
    | sent before' sent last rest' hhistory' hlast _ =>
      exact absurd hlast.symm (habove last (by rw [hhistory']; simp)).ne
  | next before x _ rest hhistory hid =>
    refine ⟨?_, .next (before ++ [x]) e page rest (by rw [hhistory]; simp) rfl⟩
    cases h with
    | unsent hstart =>
      cases cursor with
      | none =>
        have hx := habove x (by rw [hhistory]; simp)
        rw [hid, hstart] at hx
        exact absurd rfl hx.ne
      | some c =>
        exact .sent (before ++ [x]) [] e (page ++ rest) (by rw [hhistory]; simp) rfl
          ⟨x, by simp, hid.trans hstart⟩
    | sent before' sent last rest' hhistory' hlast hbegin =>
      have hcut : history = (before' ++ sent) ++ last :: rest' := by rw [hhistory']; simp
      obtain ⟨-, -, hrest⟩ := hordered.cut_unique hcut hhistory (hlast.trans hid.symm)
      exact .sent before' (sent ++ [last]) e (page ++ rest) (by rw [hhistory', hrest]; simp) rfl
        hbegin.append

/-! ## Pages -/

variable {ctx : ReaderContext}

theorem decode_eq_ok {e' : Entry} (h : decode ctx e = .ok e') : e' = e := by
  unfold decode at h
  split_ifs at h
  exact (Except.ok.inj h).symm

theorem mapM_decode_eq_ok {rows : List Entry} (h : rows.mapM (decode ctx) = .ok page) :
    page = rows := by
  have hdecoded := (mapM_eq_ok.mp h).imp fun _ _ he => (decode_eq_ok he).symm
  rw [forall₂_eq_eq_eq] at hdecoded
  exact hdecoded.symm

theorem rowsOf_suffix (hc : c.Sound) : rowsOf c.stream <:+ c.history := by
  cases hs : c.stream with
  | none => exact nil_suffix
  | some s => exact hc.retained s hs

/-- The rows are the first ones of the key, or follow the reader's own entry. -/
theorem replayRows_cases (hc : c.Sound) {through : StreamId} {rows : List Entry}
    (hle : after ≤ through) (h : replayRows c.stream after through = .ok rows) :
    (after = .origin ∧ rows <+: rowsOf c.stream) ∨
      ∃ before e rest, rowsOf c.stream = before ++ e :: (rows ++ rest) ∧ e.id = after := by
  have hretained := rowsOf_suffix hc
  have hordered : Ordered (rowsOf c.stream) := hc.ordered.suffix hretained
  cases hs : c.stream with
  | none => simp [replayRows, hs] at h
  | some s =>
    rw [hs] at hretained hordered
    simp only [rowsOf, Option.elim_some] at hretained hordered ⊢
    simp only [replayRows, hs] at h
    split at h
    · rename_i horigin
      have hall : s.entries.filter (fun e => StreamId.origin < e.id ∧ e.id ≤ through) =
          s.entries.filter fun e => e.id ≤ through := by
        refine filter_congr fun e he => ?_
        simp [hc.above_origin e (hretained.subset he)]
      rw [AppendStream.xrangeAfter, hall] at h
      have htake := take_prefix replayPageSize (s.entries.filter fun e => e.id ≤ through)
      exact .inl ⟨horigin, Except.ok.inj h ▸ htake.trans (hordered.filter_le_initial through)⟩
    · split at h
      · cases h
      · rename_i e tail hrange
        split at h
        · rename_i hid
          obtain rfl := Except.ok.inj h
          have he : e ∈ s.entries := by
            have : e ∈ s.xrange after through (replayPageSize + 1) := by simp [hrange]
            exact mem_of_mem_filter (mem_of_mem_take this)
          obtain ⟨pre, post, hsplit⟩ := append_of_mem he
          have hfrom := Ordered.filter_from (hsplit ▸ hordered) (hid ▸ hle : e.id ≤ through)
          rw [AppendStream.xrange, hsplit, ← hid, hfrom, take_succ_cons] at hrange
          have hpost : Ordered post := hordered.suffix
            (hsplit ▸ (suffix_cons e post).trans (suffix_append pre _))
          have htake := take_prefix replayPageSize (post.filter fun a => a.id ≤ through)
          obtain ⟨rest, hrest⟩ := htake.trans (hpost.filter_le_initial through)
          refine .inr ⟨pre, e, rest, ?_, hid⟩
          rw [hsplit, ← (List.cons.inj hrange).2, hrest]
        · cases h

/-- What a page starts from: a `stream.open` at the head of the key, or the reader's own entry. -/
theorem replayPage_cases (hc : c.Sound) {through : StreamId} (hle : after ≤ through)
    (h : replayPage ctx c.stream after through = .ok page) :
    (after = .origin ∧ ∃ first rest, page = first :: rest ∧ first.value.eventType = .streamOpen ∧
        page <+: rowsOf c.stream) ∨
      ∃ before e rest, rowsOf c.stream = before ++ e :: (page ++ rest) ∧ e.id = after := by
  rw [replayPage, if_neg (not_lt.mpr hle)] at h
  obtain ⟨rows, hrows, h⟩ := bind_eq_ok.mp h
  obtain ⟨entries, hentries, h⟩ := bind_eq_ok.mp h
  rw [mapM_decode_eq_ok hentries] at h
  split_ifs at h with hopen
  obtain rfl := Except.ok.inj h
  refine (replayRows_cases hc hle hrows).imp_left fun ⟨horigin, hfirst⟩ => ⟨horigin, ?_⟩
  cases rows with
  | nil => simp [horigin] at hopen
  | cons first page => exact ⟨first, page, rfl, by simpa [horigin] using hopen, hfirst⟩

theorem upcoming_of_replayPage (hc : c.Sound) {through : StreamId}
    (h : replayPage ctx c.stream after through = .ok page) : Upcoming c.history after page := by
  rcases lt_or_ge through after with hlt | hle
  · rw [replayPage, if_pos hlt] at h
    obtain rfl := Except.ok.inj h
    exact .done
  · obtain ⟨lost, hlost⟩ := rowsOf_suffix hc
    rcases replayPage_cases hc hle h with ⟨rfl, first, page, rfl, hopen, rest, hrest⟩ | hnext
    · exact .opening lost first page rest (by rw [← hlost, ← hrest]; simp) hopen
    · obtain ⟨before, e, rest, hsplit, hid⟩ := hnext
      exact .next (lost ++ before) e page rest (by rw [← hlost, hsplit]; simp) hid

/-! ## The reader -/

/-- A contiguous segment of the history, begun where it should. -/
def Delivered (cursor : Option StreamCursor) (history sent : List Entry) : Prop :=
  ∃ before rest, history = before ++ sent ++ rest ∧ (sent ≠ [] → BeginsAt cursor before sent)

/-- The last entry the client has, sent now or known from its cursor, is a `stream.end`. -/
def AtEnd (cursor : Option StreamCursor) (history sent : List Entry) : Prop :=
  (∃ e, sent.getLast? = some e ∧ e.value.eventType = .streamEnd) ∨
    sent = [] ∧ ∃ c, cursor = some c ∧
      ∃ e ∈ history, e.id = c.redisId ∧ e.value.eventType = .streamEnd

def Reader.Sound (cursor : Option StreamCursor) (history : List Entry) (r : Reader) : Prop :=
  match r.phase with
  | .connecting | .bounding _ => r.delivered = [] ∧ r.after = startId cursor
  | .looking c _ _ => cursor = some c ∧ r.delivered = [] ∧ r.after = startId cursor
  | .replaying _ | .waiting | .idle | .confirming _ =>
    Position cursor history r.delivered r.after ∧ Anchored cursor
  | .sending page _ =>
    (Position cursor history r.delivered r.after ∧ Anchored cursor) ∧
      Upcoming history r.after page
  | .stopped outcome =>
    Delivered cursor history r.delivered ∧
      (outcome = .ended → AtEnd cursor history r.delivered)

theorem delivered_nil : Delivered cursor history [] :=
  ⟨[], history, rfl, fun hne => absurd rfl hne⟩

theorem Position.delivered (h : Position cursor history sent after) :
    Delivered cursor history sent := by
  cases h with
  | unsent => exact delivered_nil
  | sent before sent last rest hhistory _ hbegin => exact ⟨before, rest, hhistory, fun _ => hbegin⟩

theorem Delivered.mono (h : Delivered cursor history sent) (hle : history <+: history') :
    Delivered cursor history' sent := by
  obtain ⟨more, rfl⟩ := hle
  obtain ⟨before, rest, rfl, hbegin⟩ := h
  exact ⟨before, rest ++ more, by simp, hbegin⟩

theorem AtEnd.mono (h : AtEnd cursor history sent) (hle : history <+: history') :
    AtEnd cursor history' sent := by
  refine h.imp_right ?_
  rintro ⟨hnil, c, hcursor, e, he, hid⟩
  exact ⟨hnil, c, hcursor, e, hle.subset he, hid⟩

theorem Reader.Sound.mono (h : r.Sound cursor history) (hle : history <+: history') :
    r.Sound cursor history' := by
  unfold Reader.Sound at h ⊢
  split at h
  · exact h
  · exact h
  · exact h
  · exact h.imp_left fun hpos => hpos.mono hle
  · exact h.imp_left fun hpos => hpos.mono hle
  · exact h.imp_left fun hpos => hpos.mono hle
  · exact h.imp_left fun hpos => hpos.mono hle
  · exact ⟨h.1.imp_left fun hpos => hpos.mono hle, h.2.mono hle⟩
  · exact ⟨h.1.mono hle, fun hended => (h.2 hended).mono hle⟩

theorem Reader.Sound.delivered (h : r.Sound cursor history) :
    Delivered cursor history r.delivered := by
  unfold Reader.Sound at h
  split at h
  · exact h.1 ▸ delivered_nil
  · exact h.1 ▸ delivered_nil
  · exact h.2.1 ▸ delivered_nil
  · exact h.1.delivered
  · exact h.1.delivered
  · exact h.1.delivered
  · exact h.1.delivered
  · exact h.1.1.delivered
  · exact h.1

theorem Reader.sound_stop {outcome : Outcome} (h : Delivered cursor history r.delivered)
    (hne : outcome ≠ .ended) :
    (r.stop outcome).Sound cursor history :=
  ⟨h, fun hended => absurd hended hne⟩

theorem Reader.sound_fail (h : Delivered cursor history r.delivered) (fault : StreamFault) :
    (r.fail fault).Sound cursor history := by
  unfold Reader.fail
  split <;> exact Reader.sound_stop h (by simp)

/-- What a decision to go on, or that the stream has ended, rests on. -/
structure ResumeDecision.Proper (cursor : Option StreamCursor) (history : List Entry)
    (d : ResumeDecision) : Prop where
  ended : d.gap = none → d.ended = true → AtEnd cursor history []
  after : d.gap = none → d.ended = false →
    d.afterRedisId.getD .origin = startId cursor ∧ Anchored cursor

theorem Reader.sound_follow (hr : r.delivered = []) (hd : d.Proper cursor history) :
    (r.follow d).Sound cursor history := by
  have hdelivered : Delivered cursor history r.delivered := hr ▸ delivered_nil
  unfold Reader.follow
  cases hgap : d.gap with
  | some gap => exact Reader.sound_stop hdelivered (by simp)
  | none =>
    cases hended : d.ended with
    | true => exact ⟨hdelivered, fun _ => hr ▸ hd.ended hgap hended⟩
    | false =>
      obtain ⟨hafter, hanchored⟩ := hd.after hgap hended
      cases htail : d.replayTailRedisId with
      | none => exact Reader.sound_stop hdelivered (by simp)
      | some tail => exact ⟨hr ▸ .unsent hafter, hanchored⟩

theorem proper_gapAt (reason : GapReason) (requested : Option StreamCursor)
    (bounds : Option (Entry × Entry)) :
    (gapAt ctx reason requested bounds).Proper cursor history :=
  ⟨fun h => by simp [gapAt] at h, fun h => by simp [gapAt] at h⟩

theorem checkIncarnation_proper (h : checkIncarnation ctx cursor = .ok (some d)) :
    d.Proper cursor history := by
  cases cursor with
  | none => cases h
  | some c =>
    simp only [checkIncarnation] at h
    split_ifs at h
    · obtain rfl := Option.some.inj (Except.ok.inj h)
      exact proper_gapAt _ _ _
    · cases h

theorem decideByBounds_proper {bounds : Option (Entry × Entry)}
    (h : decideByBounds ctx cursor bounds = .ok (.inl d)) : d.Proper cursor history := by
  cases bounds with
  | none =>
    obtain rfl := Sum.inl.inj (Except.ok.inj h)
    exact proper_gapAt _ _ _
  | some bounds =>
    obtain ⟨first, last⟩ := bounds
    cases cursor with
    | none =>
      simp only [decideByBounds] at h
      split_ifs at h
      · obtain rfl := Sum.inl.inj (Except.ok.inj h)
        exact ⟨by simp, fun _ _ => ⟨rfl, by simp [Anchored]⟩⟩
      · obtain rfl := Sum.inl.inj (Except.ok.inj h)
        exact proper_gapAt _ _ _
    | some c =>
      simp only [decideByBounds] at h
      split_ifs at h
      · obtain rfl := Sum.inl.inj (Except.ok.inj h)
        exact proper_gapAt _ _ _
      · cases h

theorem decideByBounds_looking {bounds : Option (Entry × Entry)} {c : StreamCursor}
    {ends : Entry × Entry} (h : decideByBounds ctx cursor bounds = .ok (.inr (c, ends))) :
    cursor = some c := by
  cases bounds with
  | none => cases h
  | some bounds =>
    obtain ⟨first, last⟩ := bounds
    cases cursor with
    | none =>
      simp only [decideByBounds] at h
      split_ifs at h <;> cases h
    | some c' =>
      simp only [decideByBounds] at h
      split_ifs at h
      · cases h
      · rw [(Prod.mk.inj (Sum.inr.inj (Except.ok.inj h))).1]

theorem decideByEntry_proper {c : StreamCursor} {first last : Entry} {found : Option Entry}
    (hcursor : cursor = some c)
    (hfound : ∀ row, found = some row → row ∈ history ∧ row.id = c.redisId)
    (habove : ∀ e ∈ history, StreamId.origin < e.id)
    (h : decideByEntry ctx c first last found = .ok d) : d.Proper cursor history := by
  cases found with
  | none =>
    obtain rfl := Except.ok.inj h
    exact proper_gapAt _ _ _
  | some row =>
    obtain ⟨hmem, hid⟩ := hfound row rfl
    have hstart : startId cursor = c.redisId := by rw [hcursor]; rfl
    have hanchored : Anchored cursor := by
      intro c' hc'
      obtain rfl := Option.some.inj (hcursor.symm.trans hc')
      exact hid ▸ habove row hmem
    obtain ⟨entry, hentry, h⟩ := bind_eq_ok.mp h
    rw [decode_eq_ok hentry] at h
    split_ifs at h with hterminal hempty hend
    · obtain rfl := Except.ok.inj h
      exact ⟨by simp, fun _ _ => ⟨hstart.symm, hanchored⟩⟩
    · obtain ⟨terminal, -, h⟩ := bind_eq_ok.mp h
      obtain rfl := Except.ok.inj h
      exact ⟨fun _ _ => .inr ⟨rfl, c, hcursor, row, hmem, hid, hend⟩, by simp⟩
    · obtain rfl := Except.ok.inj h
      exact ⟨by simp, fun _ _ => ⟨hstart.symm, hanchored⟩⟩

theorem mem_of_xrange_self (hc : c.Sound) {id : StreamId} {row : Entry}
    (h : (c.stream.elim [] fun s => s.xrange id id 1).head? = some row) :
    row ∈ c.history ∧ row.id = id := by
  cases hs : c.stream with
  | none => simp [hs] at h
  | some s =>
    simp only [hs, Option.elim_some] at h
    have hmem := mem_filter.mp (mem_of_mem_take (mem_of_mem_head? h))
    have hid : id ≤ row.id ∧ row.id ≤ id := by simpa using hmem.2
    exact ⟨(hc.retained s hs).subset hmem.1, le_antisymm hid.2 hid.1⟩

theorem Reader.sound_send {source : PageSource}
    (hpos : Position cursor history (r.delivered ++ [e]) e.id) (hanchored : Anchored cursor)
    (hold : Delivered cursor history r.delivered) (hup : Upcoming history e.id page) :
    (r.send e page source).Sound cursor history := by
  simp only [Reader.send]
  split_ifs with hend
  · exact Reader.sound_stop hold (by simp)
  · exact ⟨hpos.delivered, fun _ => .inl ⟨e, by simp, hend⟩⟩
  · exact ⟨⟨hpos, hanchored⟩, hup⟩

theorem Reader.sound_step (hc : c.Sound) (h : r.Sound cursor c.history) :
    (r.step ctx cursor c.stream).Sound cursor c.history := by
  have hdelivered := h.delivered
  unfold Reader.Sound at h
  unfold Reader.step
  cases hphase : r.phase with
  | connecting =>
    simp only [hphase] at h ⊢
    split
    · exact Reader.sound_stop hdelivered (by simp)
    · exact Reader.sound_follow h.1 (checkIncarnation_proper ‹_›)
    · exact h
  | bounding first =>
    simp only [hphase] at h ⊢
    split
    · exact Reader.sound_stop hdelivered (by simp)
    · rename_i hdecision
      obtain ⟨bounds, -, hbounds⟩ := bind_eq_ok.mp hdecision
      exact Reader.sound_follow h.1 (decideByBounds_proper hbounds)
    · rename_i hdecision
      obtain ⟨bounds, -, hbounds⟩ := bind_eq_ok.mp hdecision
      exact ⟨decideByBounds_looking hbounds, h⟩
  | looking looked first last =>
    simp only [hphase] at h ⊢
    split
    · exact Reader.sound_stop hdelivered (by simp)
    · rename_i hdecision
      refine Reader.sound_follow h.2.1 (decideByEntry_proper h.1 ?_ hc.above_origin hdecision)
      exact fun row hrow => mem_of_xrange_self hc hrow
  | replaying tail =>
    simp only [hphase] at h ⊢
    split
    · exact h
    · split
      · exact Reader.sound_fail hdelivered _
      · exact Reader.sound_stop hdelivered (by simp)
      · exact ⟨h, upcoming_of_replayPage hc ‹_›⟩
  | waiting =>
    simp only [hphase] at h ⊢
    split <;> exact h
  | idle =>
    simp only [hphase] at h ⊢
    split
    · exact Reader.sound_fail hdelivered _
    · exact ⟨h, upcoming_of_replayPage hc ‹_›⟩
  | confirming tail =>
    simp only [hphase] at h ⊢
    split
    · exact Reader.sound_fail hdelivered _
    · split
      · exact Reader.sound_fail hdelivered _
      · split
        · exact ⟨h, upcoming_of_replayPage hc ‹_›⟩
        · exact Reader.sound_fail hdelivered _
  | sending page source =>
    simp only [hphase] at h ⊢
    obtain ⟨⟨hpos, hanchored⟩, hup⟩ := h
    cases page with
    | nil =>
      cases source with
      | live => exact ⟨hpos, hanchored⟩
      | replay tail previous =>
        dsimp only
        split
        · exact Reader.sound_stop hdelivered (by simp)
        · exact ⟨hpos, hanchored⟩
    | cons e page =>
      obtain ⟨hpos', hup'⟩ := hpos.advance hc.ordered hc.above_origin hanchored hup
      dsimp only
      split
      · rename_i hskip
        exact absurd (hup.after_lt hc.ordered hc.above_origin) hskip.2
      · exact Reader.sound_send hpos' hanchored hdelivered hup'
  | stopped outcome =>
    unfold Reader.Sound
    simpa only [hphase] using h

/-! ## Lost places -/

/-- The key has what the reader goes on from: its own entry, or a `stream.open` at the head. -/
def Held (stream : Option RunStream) (after : StreamId) : Prop :=
  (∃ e ∈ rowsOf stream, e.id = after) ∨
    after = .origin ∧ ∃ e ∈ (rowsOf stream).head?, e.value.eventType = .streamOpen

instance (stream : Option RunStream) (after : StreamId) : Decidable (Held stream after) :=
  inferInstanceAs (Decidable (_ ∨ _))

/-- Stopped by a gap or an error. -/
def Reader.Reported (r : Reader) : Prop :=
  (∃ reason, r.phase = .stopped (.gap reason)) ∨ ∃ fault, r.phase = .stopped (.raised fault)

/-- How many commands a reader that has no entry to send can issue, at most, until one of them has
to find the reader's place. -/
def Phase.commandsLeft : Phase → Option Nat
  | .connecting => some 6
  | .bounding _ => some 5
  | .looking _ _ _ | .sending [] _ => some 4
  | .replaying _ => some 3
  | .waiting => some 2
  | .idle | .confirming _ => some 1
  | .sending (_ :: _) _ | .stopped _ => none

theorem Phase.commandsLeft_le {phase : Phase} (h : phase.commandsLeft.isSome) :
    ∃ m, phase.commandsLeft = some m ∧ m ≤ 6 := by
  unfold Phase.commandsLeft at h ⊢
  split <;> simp at h ⊢

/-- Nothing is sent, and the reader reports or has fewer commands left than `n`. -/
def Reader.Nears (n : Nat) (r r' : Reader) : Prop :=
  r'.delivered = r.delivered ∧
    (r'.Reported ∨ ∃ m, r'.phase.commandsLeft = some m ∧ m < n)

variable {n : Nat}

theorem Reader.nears_fail (r : Reader) (fault : StreamFault) : Nears n r (r.fail fault) := by
  unfold Reader.fail
  split
  · exact ⟨rfl, .inl (.inl ⟨_, rfl⟩)⟩
  · exact ⟨rfl, .inl (.inl ⟨_, rfl⟩)⟩
  · exact ⟨rfl, .inl (.inr ⟨_, rfl⟩)⟩

theorem Reader.nears_raise (r : Reader) (fault : StreamFault) :
    Nears n r (r.stop (.raised fault)) :=
  ⟨rfl, .inl (.inr ⟨fault, rfl⟩)⟩

/-- A decision that does not end the stream reports a gap, raises, or goes on to the replay. -/
theorem Reader.nears_follow (hended : d.ended = false) (hn : 3 < n) :
    Nears n r (r.follow d) := by
  unfold Reader.follow
  cases d.gap with
  | some gap => exact ⟨rfl, .inl (.inl ⟨gap.reason, rfl⟩)⟩
  | none =>
    simp only [hended, Bool.false_eq_true, if_false]
    cases d.replayTailRedisId with
    | none => exact r.nears_raise _
    | some tail => exact ⟨rfl, .inr ⟨3, rfl, hn⟩⟩

theorem checkIncarnation_not_ended (h : checkIncarnation ctx cursor = .ok (some d)) :
    d.ended = false := by
  cases cursor with
  | none => cases h
  | some c =>
    simp only [checkIncarnation] at h
    split_ifs at h <;> cases h
    rfl

theorem decideByBounds_not_ended {bounds : Option (Entry × Entry)}
    (h : decideByBounds ctx cursor bounds = .ok (.inl d)) : d.ended = false := by
  unfold decideByBounds at h
  split at h
  · cases h
    rfl
  · split_ifs at h <;> cases h <;> rfl
  · split_ifs at h <;> cases h
    rfl

theorem replayPage_of_lost (hc : c.Sound) (hlost : ¬ Held c.stream after) {through : StreamId}
    (hle : after ≤ through) : ∃ fault, replayPage ctx c.stream after through = .error fault := by
  cases hpage : replayPage ctx c.stream after through with
  | error fault => exact ⟨fault, rfl⟩
  | ok page =>
    refine absurd ?_ hlost
    rcases replayPage_cases hc hle hpage with ⟨horigin, first, page, rfl, hopen, hfirst⟩ | hnext
    · obtain ⟨rest, hrest⟩ := hfirst
      exact .inr ⟨horigin, first, by simp [← hrest], hopen⟩
    · obtain ⟨before, e, rest, hsplit, hid⟩ := hnext
      exact .inl ⟨e, by simp [hsplit], hid⟩

theorem xrange_self_of_lost (hlost : ¬ Held c.stream after) :
    (c.stream.elim [] fun s => s.xrange after after 1).head? = none := by
  cases hs : c.stream with
  | none => rfl
  | some s =>
    rw [Option.elim_some, head?_eq_none_iff, AppendStream.xrange, take_eq_nil_iff,
      filter_eq_nil_iff]
    refine .inr fun e he hid => hlost (.inl ⟨e, ?_, ?_⟩)
    · simpa [rowsOf, hs] using he
    · have hid : after ≤ e.id ∧ e.id ≤ after := by simpa using hid
      exact le_antisymm hid.2 hid.1

variable (ctx) in
/-- While its place is lost, a reader sends nothing and each command brings it nearer to the one
that reports. -/
theorem Reader.nears_step (hc : c.Sound) (h : r.Sound cursor c.history)
    (hlost : ¬ Held c.stream r.after) (hleft : r.phase.commandsLeft = some n) :
    Nears n r (r.step ctx cursor c.stream) := by
  unfold Reader.Sound at h
  unfold Reader.step
  have hpage : ∀ through, r.after ≤ through →
      ∃ fault, replayPage ctx c.stream r.after through = .error fault :=
    fun through => replayPage_of_lost hc hlost
  cases hphase : r.phase with
  | connecting =>
    obtain rfl : 6 = n := by simpa [hphase, Phase.commandsLeft] using hleft
    simp only
    split
    · exact r.nears_raise _
    · exact nears_follow (checkIncarnation_not_ended ‹_›) (by decide)
    · exact ⟨rfl, .inr ⟨5, rfl, by decide⟩⟩
  | bounding first =>
    obtain rfl : 5 = n := by simpa [hphase, Phase.commandsLeft] using hleft
    simp only
    split
    · exact r.nears_raise _
    · rename_i hdecision
      obtain ⟨bounds, -, hbounds⟩ := bind_eq_ok.mp hdecision
      exact nears_follow (decideByBounds_not_ended hbounds) (by decide)
    · exact ⟨rfl, .inr ⟨4, rfl, by decide⟩⟩
  | looking looked first last =>
    obtain rfl : 4 = n := by simpa [hphase, Phase.commandsLeft] using hleft
    simp only [hphase] at h ⊢
    obtain ⟨hcursor, -, hafter⟩ := h
    have hlooked : looked.redisId = r.after := by rw [hafter, hcursor]; rfl
    simp only [hlooked, xrange_self_of_lost hlost, decideByEntry]
    exact nears_follow rfl (by decide)
  | replaying tail =>
    obtain rfl : 3 = n := by simpa [hphase, Phase.commandsLeft] using hleft
    simp only
    split
    · exact ⟨rfl, .inr ⟨2, rfl, by decide⟩⟩
    · rcases lt_or_ge tail r.after with hlt | hle
      · simp only [replayPage, if_pos hlt]
        exact r.nears_raise _
      · obtain ⟨fault, hfault⟩ := hpage tail hle
        simp only [hfault]
        exact r.nears_fail fault
  | waiting =>
    obtain rfl : 2 = n := by simpa [hphase, Phase.commandsLeft] using hleft
    simp only
    split <;> exact ⟨rfl, .inr ⟨1, rfl, by decide⟩⟩
  | idle =>
    obtain ⟨fault, hfault⟩ := hpage r.after le_rfl
    simp only [hfault]
    exact r.nears_fail fault
  | confirming tail =>
    simp only
    split
    · exact r.nears_fail _
    · rename_i hlt
      obtain ⟨fault, hfault⟩ := hpage tail (not_le.mp hlt).le
      simp only [hfault]
      exact r.nears_fail fault
  | sending page source =>
    cases page with
    | cons e page => simp [hphase, Phase.commandsLeft] at hleft
    | nil =>
      obtain rfl : 4 = n := by simpa [hphase, Phase.commandsLeft] using hleft
      cases source with
      | live => exact ⟨rfl, .inr ⟨2, rfl, by decide⟩⟩
      | replay tail previous =>
        dsimp only
        split
        · exact r.nears_raise _
        · exact ⟨rfl, .inr ⟨3, rfl, by decide⟩⟩
  | stopped outcome => simp [hphase, Phase.commandsLeft] at hleft

/-! ## No silent stop -/

theorem Reader.open_follow (r : Reader) (d : ResumeDecision) :
    (r.follow d).phase ≠ .stopped .closed := by
  grind [Reader.follow, Reader.stop]

theorem Reader.open_fail (r : Reader) (fault : StreamFault) :
    (r.fail fault).phase ≠ .stopped .closed := by
  unfold Reader.fail
  split <;> simp [Reader.stop]

/-- No command closes a reader. -/
theorem Reader.open_step (stream : Option RunStream) (h : r.phase ≠ .stopped .closed) :
    (r.step ctx cursor stream).phase ≠ .stopped .closed := by
  have hfollow := r.open_follow
  have hfail := r.open_fail
  unfold Reader.step
  grind [Reader.stop, Reader.send]

/-! ## Every run -/

structure Reading.Sound (cursor : Option StreamCursor) (s : Reading) : Prop where
  channel : s.channel.Sound
  reader : s.reader.Sound cursor s.channel.history

theorem Reading.sound_start : Reading.Sound cursor (reading ctx cursor).start where
  channel :=
    { ordered := List.Pairwise.nil
      above_origin := by simp [reading]
      ms_le := by simp [reading]
      appendedAt_le := le_rfl
      retained := by simp [reading]
      le_lastId := by simp [reading]
      lastId_ms_le := by simp [reading]
      expired := fun _ => .inl rfl }
  reader := ⟨rfl, rfl⟩

theorem Reading.Sound.step {s : Reading} (h : s.Sound cursor) (label : ReadingLabel) :
    (s.step ctx cursor label).Sound cursor := by
  cases label with
  | stream event =>
    exact ⟨h.channel.apply event, h.reader.mono (s.channel.history_grows event)⟩
  | read => exact ⟨h.channel, Reader.sound_step h.channel h.reader⟩
  | close =>
    unfold Reading.step
    split
    · rename_i hlabel
      cases hlabel
    · rename_i hlabel
      cases hlabel
    · split
      · exact h
      · exact ⟨h.channel, Reader.sound_stop h.reader.delivered (by simp)⟩

theorem sound_reading (ctx : ReaderContext) (cursor : Option StreamCursor)
    (labels : List ReadingLabel) : ((reading ctx cursor).run labels).Sound cursor :=
  Machine.invariant_reachable Reading.sound_start (fun _ label h => h.step label) labels

theorem not_closed (ctx : ReaderContext) (cursor : Option StreamCursor)
    {labels : List ReadingLabel} (h : .close ∉ labels) :
    ((reading ctx cursor).run labels).reader.phase ≠ .stopped .closed := by
  have hmeets : (reading ctx cursor).Meets (fun _ label => label ≠ .close)
      (reading ctx cursor).start labels :=
    Machine.meets_of_forall fun label hlabel => ne_of_mem_of_not_mem hlabel h
  refine Machine.invariant_run (I := fun s : Reading => s.reader.phase ≠ .stopped .closed)
    Phase.noConfusion (fun s label hs hlabel => ?_) hmeets
  cases label with
  | stream event => exact hs
  | read => exact Reader.open_step s.channel.stream hs
  | close => exact absurd rfl hlabel

/-- Nobody closes the reader, and whenever it issues a command its place is lost. -/
def WhileLost (s : Reading) : ReadingLabel → Prop
  | .stream _ => True
  | .read => ¬ Held s.channel.stream s.reader.after
  | .close => False

instance : ∀ (s : Reading) (label : ReadingLabel), Decidable (WhileLost s label)
  | _, .stream _ => .isTrue trivial
  | s, .read => inferInstanceAs (Decidable (¬ Held s.channel.stream s.reader.after))
  | _, .close => .isFalse id

def ReadingLabel.isRead : ReadingLabel → Bool
  | .read => true
  | _ => false

theorem Reader.step_of_reported (stream : Option RunStream) (h : r.Reported) :
    r.step ctx cursor stream = r := by
  unfold Reader.step
  rcases h with ⟨_, h⟩ | ⟨_, h⟩ <;> simp only [h]

/-- The reader has reported, or has at most `n` commands left. -/
def Reader.Within (n : Nat) (r : Reader) : Prop :=
  r.Reported ∨ ∃ m, r.phase.commandsLeft = some m ∧ m ≤ n

theorem Reader.Within.reported (h : r.Within 0) : r.Reported := by
  refine h.resolve_right ?_
  rintro ⟨m, hm, hzero⟩
  unfold Phase.commandsLeft at hm
  split at hm <;> simp at hm <;> omega

variable (ctx) in
theorem Reader.Within.step (hc : c.Sound) (h : r.Sound cursor c.history)
    (hlost : ¬ Held c.stream r.after) (hleft : r.Within n) :
    (r.step ctx cursor c.stream).delivered = r.delivered ∧
      (r.step ctx cursor c.stream).Within (n - 1) := by
  rcases hleft with hreported | ⟨m, hm, hmn⟩
  · rw [Reader.step_of_reported c.stream hreported]
    exact ⟨rfl, .inl hreported⟩
  · obtain ⟨hsent, hstep⟩ := Reader.nears_step ctx hc h hlost hm
    refine ⟨hsent, hstep.imp_right ?_⟩
    rintro ⟨k, hk, hlt⟩
    exact ⟨k, hk, by omega⟩

/-- While the place is lost, every command takes one of those that are left. -/
theorem Reading.Sound.lost_run {s : Reading} {labels : List ReadingLabel} (h : s.Sound cursor)
    (hlost : (reading ctx cursor).Meets WhileLost s labels) (hleft : s.reader.Within n) :
    ((reading ctx cursor).runFrom s labels).reader.delivered = s.reader.delivered ∧
      ((reading ctx cursor).runFrom s labels).reader.Within
        (n - labels.countP ReadingLabel.isRead) := by
  induction labels generalizing s n with
  | nil => exact ⟨rfl, hleft⟩
  | cons label labels ih =>
    obtain ⟨hlabel, hlost⟩ := hlost
    have hnext : ((reading ctx cursor).step s label).Sound cursor := h.step label
    cases label with
    | close => exact hlabel.elim
    | stream event => exact ih hnext hlost hleft
    | read =>
      obtain ⟨hsent, hwithin⟩ := hleft.step ctx h.channel h.reader hlabel
      obtain ⟨hsame, hreported⟩ := ih hnext hlost hwithin
      have hcount : n - (labels.countP ReadingLabel.isRead + 1) =
          n - 1 - labels.countP ReadingLabel.isRead := by omega
      rw [countP_cons_of_pos rfl, hcount]
      exact ⟨hsame.trans hsent, hreported⟩

/-- Whatever is appended, trimmed or expired between the commands of a reader, the entries it has
sent are a contiguous segment of everything ever appended, in order and without repetition, begun at
a `stream.open` or directly after the cursor. A reader that stops because the stream has ended has
the `stream.end`, and a reader that nobody closed stops otherwise only by a gap or an error. Such a
report is due when the reader has sent its page and its place is lost: after at most six commands
that do not find it, and without another entry sent. -/
theorem delivered_contiguous (ctx : ReaderContext) (cursor : Option StreamCursor)
    (labels : List ReadingLabel) :
    let s := (reading ctx cursor).run labels
    (∃ before rest, s.channel.history = before ++ s.reader.delivered ++ rest ∧
        (s.reader.delivered ≠ [] → BeginsAt cursor before s.reader.delivered)) ∧
      s.channel.history.Pairwise (fun a b => a.id < b.id) ∧
      (s.reader.delivered.map StreamEntry.id).Nodup ∧
      (s.reader.phase = .stopped .ended →
        AtEnd cursor s.channel.history s.reader.delivered) ∧
      (s.reader.phase = .stopped .closed → .close ∈ labels) ∧
      ∀ more, s.reader.phase.commandsLeft.isSome →
        (reading ctx cursor).Meets WhileLost s more → 6 ≤ more.countP ReadingLabel.isRead →
        let t := (reading ctx cursor).run (labels ++ more)
        t.reader.Reported ∧ t.reader.delivered = s.reader.delivered := by
  intro s
  have hs : s.Sound cursor := sound_reading ctx cursor labels
  obtain ⟨before, rest, hhistory, hbegin⟩ := hs.reader.delivered
  have hordered := hs.channel.ordered
  refine ⟨⟨before, rest, hhistory, hbegin⟩, hordered, ?_, ?_, ?_, ?_⟩
  · rw [hhistory] at hordered
    have hsent := (pairwise_append.mp (pairwise_append.mp hordered).1).2.1
    exact pairwise_map.mpr (hsent.imp fun hlt => hlt.ne)
  · intro hended
    have hreader := hs.reader
    unfold Reader.Sound at hreader
    rw [hended] at hreader
    exact hreader.2 rfl
  · intro hclosed
    by_contra hnone
    exact not_closed ctx cursor hnone hclosed
  · intro more hasking hlost hreads
    rw [Machine.run_append]
    obtain ⟨hsame, hwithin⟩ := hs.lost_run hlost (.inr (Phase.commandsLeft_le hasking))
    rw [Nat.sub_eq_zero_of_le hreads] at hwithin
    exact ⟨hwithin.reported, hsame⟩

def shownEnvelope (eventType : EventType) (seq : Option Nat) : Envelope where
  eventId := "e"
  tenantScope := "t"
  runId := "r"
  attemptId := "a"
  messageId := none
  seq := seq
  eventType := eventType
  streamIncarnation := 1
  causationEventId := none
  emittedAt := ""
  payload := .obj []
  source := []

/-- A reader without a cursor meets two entries and sends both. -/
def shownRun : List ReadingLabel :=
  [.stream (.append 1 (shownEnvelope .streamOpen none)),
    .stream (.append 2 (shownEnvelope .messageDelta (some 1)))] ++ replicate 6 .read

/-- When both entries are trimmed away afterwards, the reader reports a gap. -/
theorem delivered_contiguous_shownRun :
    let start := (reading ⟨⟨"t", "r", "a", 1⟩, fun _ => true⟩ none).run shownRun
    let s := (reading ⟨⟨"t", "r", "a", 1⟩, fun _ => true⟩ none).run
      (shownRun ++ .stream (.trim 2) :: replicate 6 .read)
    start.reader.delivered.map (fun e => e.value.eventType) = [.streamOpen, .messageDelta] ∧
      s.reader.Reported ∧ s.reader.delivered = start.reader.delivered := by
  obtain ⟨-, -, -, -, -, hlost⟩ :=
    delivered_contiguous ⟨⟨"t", "r", "a", 1⟩, fun _ => true⟩ none shownRun
  exact ⟨by decide, hlost (.stream (.trim 2) :: replicate 6 .read) (by decide) (by decide)
    (by decide)⟩

end AiPlatform.Streaming
