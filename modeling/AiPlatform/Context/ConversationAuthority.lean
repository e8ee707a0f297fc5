import AiPlatform.Foundation.Bytes
import AiPlatform.Foundation.Outcome

/-!
# Source digests of conversations

The digest of a conversation starts from its scope and is extended message by message: each step
hashes the digest so far, the length of the message and the message. The digest and the number of
messages determine the conversation as long as the hash separates what was hashed.
-/
namespace AiPlatform.Context

open AiPlatform.Foundation List

inductive AuthorityError where
  | scopeInvalid
  | messageInvalid
  | digestInvalid
  /-- A role that no set can hold raises `TypeError`. -/
  | roleUnhashable
  /-- `to_bytes` raises `OverflowError`. -/
  | messageTooLong
  deriving DecidableEq, Repr

def scopeFields : List String := ["tenant_id", "workspace_id", "user_id", "session_id", "agent_id"]

def digestDomain : Bytes := utf8 "ai-platform.conversation-source.v2".toList ++ [0]

/-- `_canonical` -/
def canonicalBytes (value : Json) : Bytes := utf8 (Json.dumps (Json.canonical value))

/-- A text that is not empty. -/
def nonemptyText : Option Json → Option String
  | some (.str text) => if text = "" then none else some text
  | _ => none

def sourceDigestScope (texts : List String) : Bytes :=
  digestDomain ++ canonicalBytes (.arr (texts.map Json.str))

/-- The texts of a scope that has the five fields and no others. -/
def scopeTexts (scope : List (String × Json)) : Except AuthorityError (List String) := do
  ensure ((∀ field ∈ scopeFields, field ∈ scope.map Prod.fst) ∧
    ∀ field ∈ scope.map Prod.fst, field ∈ scopeFields) .scopeInvalid
  scopeFields.mapM fun field => expect (nonemptyText (scope.lookup field)) .scopeInvalid

/-- The four texts of a message that are hashed. -/
structure SourceMessage where
  id : String
  runId : String
  role : String
  content : String
  deriving DecidableEq, Repr

def SourceMessage.json (m : SourceMessage) : Json :=
  .arr [.str m.id, .str m.runId, .str m.role, .str m.content]

/-- `role not in _ALLOWED_ROLES` -/
def allowedRole : Option Json → Except AuthorityError String
  | some (.str "user") => .ok "user"
  | some (.str "assistant") => .ok "assistant"
  | some (.arr _) | some (.obj _) => .error .roleUnhashable
  | _ => .error .messageInvalid

def plainText : Option Json → Option String
  | some (.str value) => some value
  | _ => none

/-- The message of a row, as far as `canonical_message` reads it. -/
def sourceMessage (row : List (String × Json)) : Except AuthorityError SourceMessage := do
  let role ← allowedRole (row.lookup "role")
  let content ← expect (plainText (row.lookup "content")) .messageInvalid
  let id ← expect (nonemptyText (row.lookup "id")) .messageInvalid
  let runId ← expect (nonemptyText (row.lookup "run_id")) .messageInvalid
  pure ⟨id, runId, role, content⟩

def canonicalMessage (row : List (String × Json)) : Except AuthorityError Bytes := do
  let m ← sourceMessage row
  pure (canonicalBytes m.json)

section Digests

variable (sha : Sha256)

def initialSourceDigest (scope : List (String × Json)) : Except AuthorityError String := do
  let texts ← scopeTexts scope
  pure (toHex (sha.digest (sourceDigestScope texts)))

/-- What a step hashes. -/
def stepInput (digest message : Bytes) : Bytes := digest ++ bigEndian 8 message.length ++ message

/-- One turn of the loop of `extend_source_digest`. -/
def extendDigest (digest : Bytes) (row : List (String × Json)) : Except AuthorityError Bytes := do
  let message ← canonicalMessage row
  ensure (message.length < 256 ^ 8) .messageTooLong
  pure (sha.digest (stepInput digest message))

def extendSourceDigest (predecessor : String) (rows : List (List (String × Json))) :
    Except AuthorityError String := do
  let digest ← expect ((fromHex predecessor).filter fun digest => digest.length = 32) .digestInvalid
  let digest ← rows.foldlM (extendDigest sha) digest
  pure (toHex digest)

end Digests

/-! ## Extending twice -/

section Extend

variable {sha : Sha256}

variable {digest : Bytes}

theorem extendDigest_length {digest' : Bytes} {row : List (String × Json)}
    (h : extendDigest sha digest row = .ok digest') : digest'.length = 32 := by
  obtain ⟨message, -, h⟩ := bind_eq_ok.mp h
  obtain ⟨-, h⟩ := ensure_bind_eq_ok.mp h
  obtain rfl := Except.ok.inj h
  exact sha.length_digest _

theorem foldlM_extendDigest_length {digest' : Bytes} {rows : List (List (String × Json))}
    (hdigest : digest.length = 32) (h : rows.foldlM (extendDigest sha) digest = .ok digest') :
    digest'.length = 32 := by
  induction rows generalizing digest with
  | nil =>
    obtain rfl := Except.ok.inj h
    exact hdigest
  | cons row rows ih =>
    rw [foldlM_cons] at h
    obtain ⟨next, hnext, h⟩ := bind_eq_ok.mp h
    exact ih (extendDigest_length hnext) h

theorem expect_fromHex_toHex (h : digest.length = 32) :
    expect ((fromHex (toHex digest)).filter fun digest => digest.length = 32)
      AuthorityError.digestInvalid = .ok digest := by
  rw [fromHex_toHex, Option.filter_some, if_pos (decide_eq_true h)]
  rfl

/-- Extending by two lists is extending by one after the other. -/
theorem extendSourceDigest_append (d : String) (a b : List (List (String × Json))) :
    extendSourceDigest sha d (a ++ b) =
      extendSourceDigest sha d a >>= fun d' => extendSourceDigest sha d' b := by
  unfold extendSourceDigest
  cases hstart : expect ((fromHex d).filter fun digest => digest.length = 32)
      AuthorityError.digestInvalid with
  | error e => rfl
  | ok digest =>
    have hlength : digest.length = 32 := by
      have hsome := expect_eq_ok.mp hstart
      exact of_decide_eq_true (Option.filter_eq_some_iff.mp hsome).2
    rw [ok_bind, ok_bind, foldlM_append]
    cases hfirst : a.foldlM (extendDigest sha) digest with
    | error e => rfl
    | ok middle =>
      have hmiddle := expect_fromHex_toHex (foldlM_extendDigest_length hlength hfirst)
      rw [ok_bind, ok_bind]
      change _ = (expect ((fromHex (toHex middle)).filter fun digest => digest.length = 32)
        AuthorityError.digestInvalid >>= _)
      rw [hmiddle, ok_bind]

end Extend

/-! ## What a digest determines -/

section Injectivity

theorem canonicalBytes_arr_str (texts : List String) :
    canonicalBytes (.arr (texts.map Json.str)) = utf8 (Json.dumps (.arr (texts.map Json.str))) := by
  unfold canonicalBytes
  rw [Json.canonical_arr, map_map]
  rfl

variable {texts : List String} {digest' digest : Bytes} {scope : List (String × Json)}

/-- A list of texts can be read off its canonical bytes. -/
theorem canonicalBytes_texts_inj {texts' : List String}
    (h : canonicalBytes (.arr (texts.map Json.str)) = canonicalBytes (.arr (texts'.map Json.str))) :
    texts = texts' := by
  have hproper : ∀ ts : List String, Json.Proper integersOnly (.arr (ts.map Json.str)) := by
    intro ts
    refine Json.proper_arr.mpr fun j hj => ?_
    obtain ⟨t, -, rfl⟩ := mem_map.mp hj
    exact trivial
  rw [canonicalBytes_arr_str, canonicalBytes_arr_str] at h
  have harr := Json.dumps_injOn (hproper texts) (hproper texts') (utf8_injective h)
  exact map_injective_iff.mpr (fun _ _ => Json.str.inj) (Json.arr.inj harr)

theorem SourceMessage.json_inj {m m' : SourceMessage}
    (h : canonicalBytes m.json = canonicalBytes m'.json) : m = m' := by
  have htexts : [m.id, m.runId, m.role, m.content] = [m'.id, m'.runId, m'.role, m'.content] :=
    canonicalBytes_texts_inj h
  obtain ⟨id, runId, role, content⟩ := m
  simp only [List.cons.injEq, and_true] at htexts
  obtain ⟨rfl, rfl, rfl, rfl⟩ := htexts
  rfl

theorem stepInput_inj {message message' : Bytes} (hdigest : digest.length = 32)
    (hdigest' : digest'.length = 32) (h : stepInput digest message = stepInput digest' message') :
    digest = digest' ∧ message = message' := by
  unfold stepInput at h
  rw [append_assoc, append_assoc] at h
  obtain ⟨hdigests, hrest⟩ := append_inj h (hdigest.trans hdigest'.symm)
  exact ⟨hdigests, (append_inj hrest (by simp)).2⟩

variable (sha : Sha256)

/-- What is hashed on the way from a digest over some rows. -/
def stepInputs : Bytes → List (List (String × Json)) → List Bytes
  | _, [] => []
  | digest, row :: rows =>
    match canonicalMessage row with
    | .error _ => []
    | .ok message => stepInput digest message ::
        stepInputs (sha.digest (stepInput digest message)) rows

/-- What is hashed for a conversation. -/
def hashedInputs (scope : List (String × Json)) (rows : List (List (String × Json))) : List Bytes :=
  match scopeTexts scope with
  | .error _ => []
  | .ok texts => sourceDigestScope texts :: stepInputs sha
      (sha.digest (sourceDigestScope texts)) rows

/-- The digest of a conversation. -/
def conversationDigest (scope : List (String × Json)) (rows : List (List (String × Json))) :
    Except AuthorityError String := do
  let digest ← initialSourceDigest sha scope
  extendSourceDigest sha digest rows

variable {sha}

theorem extendDigest_eq_ok {row : List (String × Json)}
    (h : extendDigest sha digest row = .ok digest') :
    ∃ m, sourceMessage row = .ok m ∧ canonicalMessage row = .ok (canonicalBytes m.json) ∧
      digest' = sha.digest (stepInput digest (canonicalBytes m.json)) := by
  obtain ⟨message, hmessage, h⟩ := bind_eq_ok.mp h
  obtain ⟨-, h⟩ := ensure_bind_eq_ok.mp h
  obtain ⟨m, hm, hbytes⟩ := bind_eq_ok.mp hmessage
  obtain rfl := Except.ok.inj hbytes
  exact ⟨m, hm, hmessage, (Except.ok.inj h).symm⟩

/-- Two chains of one length that end in one digest are the same chain. -/
theorem foldlM_extendDigest_inj {last : Bytes} {rows rows' : List (List (String × Json))}
    (hlength : rows.length = rows'.length) (hdigest : digest.length = 32)
    (hdigest' : digest'.length = 32)
    (separates : sha.Separates (stepInputs sha digest rows) (stepInputs sha digest' rows'))
    (h : rows.foldlM (extendDigest sha) digest = .ok last)
    (h' : rows'.foldlM (extendDigest sha) digest' = .ok last) :
    digest = digest' ∧ rows.map sourceMessage = rows'.map sourceMessage := by
  induction rows generalizing digest digest' rows' with
  | nil =>
    obtain rfl := length_eq_zero_iff.mp hlength.symm
    obtain rfl := Except.ok.inj h
    exact ⟨(Except.ok.inj h').symm, rfl⟩
  | cons row rows ih =>
    obtain _ | ⟨row', rows'⟩ := rows'
    · cases hlength
    rw [foldlM_cons] at h h'
    obtain ⟨next, hnext, h⟩ := bind_eq_ok.mp h
    obtain ⟨next', hnext', h'⟩ := bind_eq_ok.mp h'
    obtain ⟨m, hm, hmessage, rfl⟩ := extendDigest_eq_ok hnext
    obtain ⟨m', hm', hmessage', rfl⟩ := extendDigest_eq_ok hnext'
    simp only [stepInputs, hmessage, hmessage'] at separates
    obtain ⟨hhash, hrest⟩ := ih (Nat.succ.inj hlength) (sha.length_digest _) (sha.length_digest _)
      (fun x hx y hy => separates x (mem_cons_of_mem _ hx) y (mem_cons_of_mem _ hy)) h h'
    have hinput := separates _ mem_cons_self _ mem_cons_self hhash
    obtain ⟨rfl, hbytes⟩ := stepInput_inj hdigest hdigest' hinput
    obtain rfl := SourceMessage.json_inj hbytes
    exact ⟨rfl, by rw [map_cons, map_cons, hm, hm', hrest]⟩

theorem conversationDigest_eq_ok {rows : List (List (String × Json))} {digest : String}
    (h : conversationDigest sha scope rows = .ok digest) :
    ∃ texts last, scopeTexts scope = .ok texts ∧
      rows.foldlM (extendDigest sha) (sha.digest (sourceDigestScope texts)) = .ok last ∧
      digest = toHex last := by
  obtain ⟨start, hstart, h⟩ := bind_eq_ok.mp h
  obtain ⟨texts, htexts, hstart⟩ := bind_eq_ok.mp hstart
  obtain rfl := Except.ok.inj hstart
  unfold extendSourceDigest at h
  rw [expect_fromHex_toHex (sha.length_digest _), ok_bind] at h
  obtain ⟨last, hlast, h⟩ := bind_eq_ok.mp h
  exact ⟨texts, last, htexts, hlast, (Except.ok.inj h).symm⟩

theorem toHex_injective {bytes bytes' : Bytes} (h : toHex bytes = toHex bytes') :
    bytes = bytes' := by
  have hread := fromHex_toHex bytes
  rw [h, fromHex_toHex] at hread
  exact (Option.some.inj hread).symm

theorem nonemptyText_eq_some {value : Option Json} {text : String}
    (h : nonemptyText value = some text) : value = some (.str text) := by
  unfold nonemptyText at h
  split at h
  · split_ifs at h
    rw [Option.some.inj h]
  · cases h

/-- Every field of a scope has its text, and there are no other fields. -/
theorem scopeTexts_eq_ok (h : scopeTexts scope = .ok texts) :
    List.Forall₂ (fun field text => scope.lookup field = some (.str text)) scopeFields texts ∧
      ∀ field ∉ scopeFields, scope.lookup field = none := by
  obtain ⟨⟨-, hknown⟩, h⟩ := ensure_bind_eq_ok.mp h
  refine ⟨(mapM_eq_ok.mp h).imp fun field text hfield => ?_, fun field hfield => ?_⟩
  · exact nonemptyText_eq_some (expect_eq_ok.mp hfield)
  · refine lookup_eq_none_iff.mpr fun entry hentry => ?_
    have hentry := hknown entry.1 (mem_map_of_mem hentry)
    have hne : entry.1 ≠ field := fun heq => hfield (heq ▸ hentry)
    simpa using hne.symm

/-- The texts of a scope are all there is to it. -/
theorem lookup_eq_of_scopeTexts {scope' : List (String × Json)} (h : scopeTexts scope = .ok texts)
    (h' : scopeTexts scope' = .ok texts) (field : String) :
    scope.lookup field = scope'.lookup field := by
  obtain ⟨hfields, hothers⟩ := scopeTexts_eq_ok h
  obtain ⟨hfields', hothers'⟩ := scopeTexts_eq_ok h'
  by_cases hfield : field ∈ scopeFields
  · obtain ⟨i, hi, rfl⟩ := getElem_of_mem hfield
    have hi' : i < texts.length := hfields.length_eq ▸ hi
    exact (hfields.get hi hi').trans (hfields'.get hi hi').symm
  · rw [hothers field hfield, hothers' field hfield]

/-- Extending is associative, and a digest with its number of messages determines the scope and the
messages of a conversation. -/
theorem sourceDigest_determines (sha : Sha256) :
    (∀ d a b, extendSourceDigest sha d (a ++ b) =
        extendSourceDigest sha d a >>= fun d' => extendSourceDigest sha d' b) ∧
      ∀ scope scope' rows rows' digest, conversationDigest sha scope rows = .ok digest →
        conversationDigest sha scope' rows' = .ok digest → rows.length = rows'.length →
        sha.Separates (hashedInputs sha scope rows) (hashedInputs sha scope' rows') →
          (∀ field, scope.lookup field = scope'.lookup field) ∧
            rows.map sourceMessage = rows'.map sourceMessage := by
  refine ⟨extendSourceDigest_append, ?_⟩
  intro scope scope' rows rows' digest h h' hlength separates
  obtain ⟨texts, last, htexts, hlast, rfl⟩ := conversationDigest_eq_ok h
  obtain ⟨texts', last', htexts', hlast', hhex⟩ := conversationDigest_eq_ok h'
  obtain rfl := toHex_injective hhex
  simp only [hashedInputs, htexts, htexts'] at separates
  obtain ⟨hdigest, hrows⟩ := foldlM_extendDigest_inj hlength (sha.length_digest _)
    (sha.length_digest _)
    (fun x hx y hy => separates x (mem_cons_of_mem _ hx) y (mem_cons_of_mem _ hy))
    hlast hlast'
  have hinput := separates _ mem_cons_self _ mem_cons_self hdigest
  obtain rfl := canonicalBytes_texts_inj (append_cancel_left hinput)
  exact ⟨lookup_eq_of_scopeTexts htexts htexts', hrows⟩

end Injectivity

def sampleScope : List (String × Json) :=
  [("tenant_id", .str "t"), ("workspace_id", .str "w"), ("user_id", .str "u"),
    ("session_id", .str "s"), ("agent_id", .str "a")]

def sampleRow (content : String) : List (String × Json) :=
  [("id", .str "m1"), ("run_id", .str "r1"), ("role", .str "user"), ("content", .str content)]

theorem sourceDigest_determines_oneMessage :
    (∀ field, sampleScope.lookup field = sampleScope.reverse.lookup field) ∧
      [sampleRow "hi"].map sourceMessage = [(sampleRow "hi").reverse].map sourceMessage :=
  (sourceDigest_determines tailDigest).2 sampleScope sampleScope.reverse [sampleRow "hi"]
    [(sampleRow "hi").reverse]
    (toHex (tailDigest.digest
      (stepInput (tailDigest.digest (sourceDigestScope ["t", "w", "u", "s", "a"]))
      (canonicalBytes (SourceMessage.json ⟨"m1", "r1", "user", "hi"⟩)))))
    (by decide +kernel) (by decide +kernel) rfl (by unfold Sha256.Separates; decide +kernel)

end AiPlatform.Context
