import AiPlatform.Streaming.StreamForm

/-!
# Publishing committed events

The publishers of `worker_publication_v4.py` over the run-event ledger. A publisher loads what is
committed and then makes its calls one by one; it may be delayed or repeated at any point, and a
reply may be lost, so every call it could make stays possible from then on. Sequences are assigned
under the row lock of the run's cursor, so they commit in order.
-/
namespace AiPlatform.Streaming

open AiPlatform.Foundation

/-! ## The ledger -/

/-- The rows of one transaction: the callbacks of one receipt, or one event of the run itself. -/
inductive Commit where
  | callbacks (rows : List Envelope)
  | runEvent (row : Envelope)
  deriving DecidableEq

namespace Commit

def rows : Commit → List Envelope
  | callbacks rows => rows
  | runEvent row => [row]

def isRunEvent : Commit → Bool
  | callbacks _ => false
  | runEvent _ => true

/-- The event types each writer may write, and sequences in order. -/
def Proper (c : Commit) : Prop :=
  c.rows ≠ [] ∧ c.rows.Pairwise (fun a b => a.sequence < b.sequence ∧ a.eventId ≠ b.eventId) ∧
    match c with
    | callbacks rows => ∀ e ∈ rows, e.eventType.isOngoing ∧ e.eventType ≠ .runCancelRequested
    | runEvent row => row.eventType = .runCancelRequested ∨ row.eventType.isTerminal

instance (c : Commit) : Decidable c.Proper := by
  unfold Proper
  cases c <;> infer_instance

/-- What may be committed after what: rows get larger sequences and new ids, and a run requests
cancellation at most once, before it ends. -/
def Precedes (c d : Commit) : Prop :=
  (∀ a ∈ c.rows, ∀ b ∈ d.rows, a.sequence < b.sequence ∧ a.eventId ≠ b.eventId) ∧
    (c.isRunEvent → d.isRunEvent →
      (∀ a ∈ c.rows, a.eventType = .runCancelRequested) ∧ ∀ b ∈ d.rows, b.eventType.isTerminal)

instance (c d : Commit) : Decidable (c.Precedes d) := by
  unfold Precedes
  infer_instance

end Commit

abbrev Ledger : Type := List Commit

namespace Ledger

def callbackRows (l : Ledger) : List Envelope :=
  l.flatMap fun c => if c.isRunEvent then [] else c.rows

def runEvents (l : Ledger) : List Envelope :=
  l.flatMap fun c => if c.isRunEvent then c.rows else []

/-- The highest callback sequence below `sequence`, or 0. -/
def callbacksBefore (l : Ledger) (sequence : Nat) : Nat :=
  ((l.callbackRows.filter fun e => e.sequence < sequence).map Envelope.sequence).foldr max 0

/-- `envelope["source"]["callback_sequence"] = …`, left out when 0. -/
def stamp (l : Ledger) (row : Envelope) : Envelope :=
  let before := l.callbacksBefore row.sequence
  if before = 0 then row
  else
    { row with
      source := ("callback_sequence", .int before) ::
        row.source.filter fun member => member.1 ≠ "callback_sequence" }

/-- `load_latest_run_event`; the ledger is in the order of its sequences. -/
def loadLatestRunEvent (l : Ledger) (beforeSequence : Option Nat) : Option Envelope :=
  (l.runEvents.filter fun e => beforeSequence.all (e.sequence < ·)).getLast?.map l.stamp

end Ledger

/-! ## Publishers -/

inductive Call where
  | append (e : Envelope)
  | appendEnd (terminal : Envelope)
  | appendCallbackBatch (rows : List Envelope)
  deriving DecidableEq

/-- The calls a publisher still has to make. -/
abbrev Publisher : Type := List Call

/-- `publish_callback_rows`: the preceding run event first. -/
def publishCallbackRows (l : Ledger) (rows : List Envelope) : Publisher :=
  match l.loadLatestRunEvent (rows.head?.map Envelope.sequence) with
  | some predecessor => [.append predecessor, .appendCallbackBatch rows]
  | none => [.appendCallbackBatch rows]

structure Publication where
  ledger : Ledger := []
  publishers : List Publisher := []
  transport : Transport := {}

inductive PublicationLabel where
  | commit (c : Commit)
  /-- `admit_v4_stream`. -/
  | admitStream (e : Envelope)
  | publishRunEvent
  | publishCallbackRows (rows : List Envelope)
  /-- The next call of the publisher at this index. -/
  | call (index now : Nat)
  | trim (count : Nat)

namespace Publication

variable (enc : Encoding)

def evalCall (t : Transport) (now : Nat) : Call → Except AppendError StreamId × Transport
  | .append e => t.append enc now e
  | .appendEnd terminal => t.appendEnd enc now terminal
  | .appendCallbackBatch rows => t.appendCallbackBatch enc now rows

/-- What is left after a call that succeeded; a terminal event is followed by the end. -/
def continuation (call : Call) (rest : Publisher) : Publisher :=
  match call with
  | .append e => if e.eventType.isTerminal then .appendEnd e :: rest else rest
  | _ => rest

def start (s : Publication) (p : Publisher) : Publication :=
  { s with publishers := s.publishers ++ [p] }

def step (s : Publication) : PublicationLabel → Publication
  | .commit c =>
    if c.Proper ∧ ∀ d ∈ s.ledger, d.Precedes c then { s with ledger := s.ledger ++ [c] } else s
  | .admitStream e => if e.eventType = .streamOpen then s.start [.append e] else s
  | .publishRunEvent =>
    match s.ledger.loadLatestRunEvent none with
    | some e => s.start [.append e]
    | none => s
  | .publishCallbackRows rows =>
    if .callbacks rows ∈ s.ledger then s.start (Streaming.publishCallbackRows s.ledger rows) else s
  | .call index now =>
    match s.publishers[index]? with
    | some (call :: rest) =>
      let (reply, transport) := evalCall enc s.transport now call
      -- The publisher stays: the same call may be made again.
      match reply with
      | .ok _ => { s with transport := transport }.start (continuation call rest)
      | .error _ => { s with transport := transport }
    | _ => s
  | .trim count => { s with transport := s.transport.trim count }

end Publication

def publication (enc : Encoding) : Machine Publication PublicationLabel where
  start := {}
  step := Publication.step enc

end AiPlatform.Streaming
