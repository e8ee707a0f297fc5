import AiPlatform.Foundation.Json
import AiPlatform.Foundation.Outcome
import AiPlatform.Foundation.Separators
import AiPlatform.Kernel.Identifiers

/-!
# References to the tools of a server

A reference is the id of an MCP server and the public name of one of its tools, joined by `::`.
Both parts may hold colons, and the reader cuts at the first `::`.
-/
namespace AiPlatform.Mcp

open AiPlatform.Foundation AiPlatform.Kernel List

/-! ## Identifiers -/

def isSafeMcpId (value : String) : Bool := fullmatchId isSafeIdChar value

def isValidMcpPublicToolName (value : String) : Bool :=
  match value.toList with
  | [] => false
  | c :: cs => isAsciiAlnum c && cs.all isSafeIdChar && cs.length ≤ 383

variable {c : Char} {cs : List Char} {value : String}

theorem isSafeIdChar_of_isAsciiAlnum (h : isAsciiAlnum c = true) :
    isSafeIdChar c = true := by
  simp [isSafeIdChar, h]

/-- What both patterns say: a letter or digit, then characters of the class. -/
structure Segment (text : List Char) : Prop where
  chars : ∀ c ∈ text, isSafeIdChar c = true
  head : ∃ c cs, text = c :: cs ∧ isAsciiAlnum c = true

theorem Segment.of_cons (hc : isAsciiAlnum c = true) (hcs : cs.all isSafeIdChar = true) :
    Segment (c :: cs) where
  chars := by
    intro d hd
    obtain rfl | hd := mem_cons.mp hd
    · exact isSafeIdChar_of_isAsciiAlnum hc
    · exact all_eq_true.mp hcs d hd
  head := ⟨c, cs, rfl, hc⟩

theorem Segment.all_tail (h : Segment (c :: cs)) :
    isAsciiAlnum c = true ∧ cs.all isSafeIdChar = true := by
  obtain ⟨d, ds, heq, hd⟩ := h.head
  obtain ⟨rfl, rfl⟩ := List.cons.inj heq
  exact ⟨hd, all_eq_true.mpr fun e he => h.chars e (mem_cons_of_mem _ he)⟩

theorem Segment.ne_nil {text : List Char} (h : Segment text) : text ≠ [] := by
  obtain ⟨c, cs, rfl, -⟩ := h.head
  exact cons_ne_nil c cs

theorem segment_cons_iff {bound : Nat} :
    (isAsciiAlnum c && cs.all isSafeIdChar && decide (cs.length ≤ bound)) = true ↔
      Segment (c :: cs) ∧ (c :: cs).length ≤ bound + 1 := by
  simp only [Bool.and_eq_true, decide_eq_true_eq, length_cons]
  constructor
  · rintro ⟨⟨hc, hcs⟩, hlength⟩
    exact ⟨.of_cons hc hcs, by omega⟩
  · rintro ⟨hsegment, hlength⟩
    exact ⟨hsegment.all_tail, by omega⟩

theorem isSafeMcpId_iff :
    isSafeMcpId value = true ↔ Segment value.toList ∧ value.toList.length ≤ 128 := by
  unfold isSafeMcpId fullmatchId
  cases value.toList with
  | nil => simpa using fun h : Segment [] => absurd rfl h.ne_nil
  | cons c cs => exact segment_cons_iff

theorem isValidMcpPublicToolName_iff :
    isValidMcpPublicToolName value = true ↔ Segment value.toList ∧ value.toList.length ≤ 384 := by
  unfold isValidMcpPublicToolName
  cases value.toList with
  | nil => simpa using fun h : Segment [] => absurd rfl h.ne_nil
  | cons c cs => exact segment_cons_iff

theorem strip_of_chars (u : Unicode) (h : ∀ c ∈ value.toList, isSafeIdChar c = true) :
    strip u value = value :=
  strip_eq_self (fun c hc => isSpace_of_isSafeIdChar u (h c (mem_of_mem_head? hc)))
    fun c hc => isSpace_of_isSafeIdChar u (h c (mem_of_getLast? hc))

/-- The server ids and tool names that the identifier checks accept. -/
def Accepted (pair : String × String) : Prop :=
  isSafeMcpId pair.1 = true ∧ isValidMcpPublicToolName pair.2 = true

/-! ## References -/

def mcpToolReferenceSeparator : List Char := [':', ':']

/-- `mcp_server_id_invalid`, `mcp_public_tool_name_invalid`, `mcp_tool_reference_invalid` -/
inductive ReferenceError where
  | serverIdInvalid
  | publicToolNameInvalid
  | toolReferenceInvalid
  deriving DecidableEq, Repr

section References

variable (u : Unicode)

def buildMcpToolReference (serverId publicToolName : String) : Except ReferenceError String := do
  let server := strip u serverId
  let tool := strip u publicToolName
  ensure (isSafeMcpId server = true ∧ ¬ mcpToolReferenceSeparator <:+: server.toList)
    .serverIdInvalid
  ensure (isValidMcpPublicToolName tool = true) .publicToolNameInvalid
  .ok (String.ofList (server.toList ++ mcpToolReferenceSeparator ++ tool.toList))

def parseMcpToolReference (value : Json) : Except ReferenceError (String × String) :=
  match value with
  | .str value => do
    ensure (value = strip u value) .toolReferenceInvalid
    match partition mcpToolReferenceSeparator value.toList with
    | none => .error .toolReferenceInvalid
    | some (server, tool) =>
      -- what `build_mcp_tool_reference` raises is not caught here
      let reference ← buildMcpToolReference u (String.ofList server) (String.ofList tool)
      ensure (reference = value) .toolReferenceInvalid
      .ok (String.ofList server, String.ofList tool)
  | _ => .error .toolReferenceInvalid

/-- `parse_mcp_tool_reference(build_mcp_tool_reference(server, tool))` -/
def reparsedReference (server tool : String) : Except ReferenceError (String × String) :=
  buildMcpToolReference u server tool >>= fun reference => parseMcpToolReference u (.str reference)

variable {u} {server tool : String}

theorem buildMcpToolReference_of_accepted (hserver : isSafeMcpId server = true)
    (htool : isValidMcpPublicToolName tool = true) {reference : String} :
    buildMcpToolReference u server tool = .ok reference ↔
      ¬ mcpToolReferenceSeparator <:+: server.toList ∧
        reference = String.ofList (server.toList ++ mcpToolReferenceSeparator ++ tool.toList) := by
  have hs := strip_of_chars u (isSafeMcpId_iff.mp hserver).1.chars
  have ht := strip_of_chars u (isValidMcpPublicToolName_iff.mp htool).1.chars
  simp only [buildMcpToolReference, hs, ht]
  rw [ensure_bind_eq_ok, ensure_bind_eq_ok]
  simp only [hserver, htool, true_and, Except.ok.injEq, eq_comm]

theorem buildMcpToolReference_of_separator (hserver : isSafeMcpId server = true)
    (h : mcpToolReferenceSeparator <:+: server.toList) :
    buildMcpToolReference u server tool = .error .serverIdInvalid := by
  have hs := strip_of_chars u (isSafeMcpId_iff.mp hserver).1.chars
  simp only [buildMcpToolReference, hs, h, not_true_eq_false, and_false]
  rfl

section

variable (hserver : isSafeMcpId server = true) (htool : isValidMcpPublicToolName tool = true)
include hserver htool

/-- The texts of a reference whose parts are accepted are characters of identifiers. -/
theorem chars_of_accepted :
    ∀ c ∈ server.toList ++ mcpToolReferenceSeparator ++ tool.toList, isSafeIdChar c = true := by
  intro c hc
  simp only [mem_append] at hc
  obtain (hc | hc) | hc := hc
  · exact (isSafeMcpId_iff.mp hserver).1.chars c hc
  · obtain rfl : c = ':' := by simpa [mcpToolReferenceSeparator] using hc
    decide
  · exact (isValidMcpPublicToolName_iff.mp htool).1.chars c hc

/-- The reader cuts at the separator that was put in when none ends before it: when the server id
has none and does not end with a colon. -/
theorem reparsedReference_of_clear (h : ¬ mcpToolReferenceSeparator <:+: server.toList ++ [':']) :
    reparsedReference u server tool = .ok (server, tool) := by
  have hcut := partition_append (b := tool.toList) (cons_ne_nil ':' [':']) h
  have hclear : ¬ mcpToolReferenceSeparator <:+: server.toList :=
    fun hinside => h (hinside.trans (prefix_append _ _).isInfix)
  have hbuild := (buildMcpToolReference_of_accepted (u := u) hserver htool).mpr ⟨hclear, rfl⟩
  refine bind_eq_ok.mpr ⟨_, hbuild, ensure_bind_eq_ok.mpr ⟨?_, ?_⟩⟩
  · rw [strip_of_chars]
    simpa using chars_of_accepted hserver htool
  · have hparts : partition mcpToolReferenceSeparator
        (server.toList ++ mcpToolReferenceSeparator ++ tool.toList) =
          some (server.toList, tool.toList) := hcut
    simp only [String.toList_ofList, hparts, String.ofList_toList, hbuild]
    exact bind_eq_ok.mpr ⟨_, rfl, ensure_bind_eq_ok.mpr ⟨rfl, rfl⟩⟩

end

end References

end AiPlatform.Mcp
