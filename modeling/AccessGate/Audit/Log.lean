import AccessGate.Audit.Record

/-!
# The audit log

An `AuditLog` hands every entry to each of its sinks in turn. A memory sink puts it into the log's
buffer, which keeps the newest entries only; an event sink tells of it in an `AuditEvent`; of a sink
of any other making it is known what it was handed. The log may have the same sink more than once,
and then the entry arrives there as often.
-/

namespace AccessGate

/-- The newest entries, oldest first. -/
structure AuditBuffer where
  capacity : Nat
  entries : List AuditEntry
  capacity_pos : 0 < capacity
  length_le : entries.length ≤ capacity

namespace AuditBuffer

/-- The number of entries a buffer keeps unless told otherwise. -/
def defaultCapacity : Nat := 1024

/-- An empty buffer; it keeps one entry at least. -/
def ofCapacity (n : Nat) : AuditBuffer where
  capacity := if n = 0 then 1 else n
  entries := []
  capacity_pos := by split <;> omega
  length_le := Nat.zero_le _

/-- Adds an entry; a full buffer drops its oldest. -/
def push (b : AuditBuffer) (e : AuditEntry) : AuditBuffer :=
  if h : b.entries.length = b.capacity then
    { b with
      entries := b.entries.drop 1 ++ [e]
      length_le := by have := b.capacity_pos; simp; omega }
  else
    { b with
      entries := b.entries ++ [e]
      length_le := by have := b.length_le; simp; omega }

/-- The buffer without its entries. -/
def clear (b : AuditBuffer) : AuditBuffer :=
  { b with entries := [], length_le := Nat.zero_le _ }

/-- The number of entries. -/
def size (b : AuditBuffer) : Nat := b.entries.length

end AuditBuffer

/-- How much an event matters. -/
inductive AuditLevel
  | info
  | warning
deriving DecidableEq, Repr

/-- The name of a level. -/
def AuditLevel.name : AuditLevel → String
  | info => "INFO"
  | warning => "WARN"

/-- An event that tells of a decision: a level, a text, and named texts. -/
structure AuditEvent where
  level : AuditLevel
  message : String
  details : List (String × String)
deriving DecidableEq, Repr

/-- The event that tells of an entry. What is not known is a dash, and a request that was let
through unchecked tells neither whose it was nor which credential it bore. -/
def AuditEntry.event (e : AuditEntry) : AuditEvent :=
  let request := [("operation", e.operation), ("scope", e.scope)]
  let caller :=
    [("principal", e.principalId.getD "-"), ("credential", e.credential.getD "-")]
  match e.outcome with
  | .granted pattern => ⟨.info, "granted", caller ++ request ++ [("pattern", pattern.name)]⟩
  | .denied reason => ⟨.info, "denied", caller ++ request ++ [("reason", reason)]⟩
  | .bypassed => ⟨.warning, "bypassed: authorization disabled", request⟩

/-- Where entries go. -/
inductive AuditSink
  | memory
  | events
  /-- A sink of another making; the index tells such sinks apart. -/
  | other (index : Nat)
deriving DecidableEq, Repr

/-- A log with its sinks and what has arrived at them. -/
structure AuditLog where
  sinks : List AuditSink := []
  buffer : AuditBuffer := .ofCapacity AuditBuffer.defaultCapacity
  /-- The events told, oldest first. -/
  events : List AuditEvent := []
  /-- What was handed to the sinks of another making, oldest first. -/
  handed : List (Nat × AuditEntry) := []

namespace AuditLog

/-- Hands an entry to one sink. -/
def deliver (e : AuditEntry) (log : AuditLog) : AuditSink → AuditLog
  | .memory => { log with buffer := log.buffer.push e }
  | .events => { log with events := log.events ++ [e.event] }
  | .other k => { log with handed := log.handed ++ [(k, e)] }

/-- Hands an entry to every sink. -/
def record (log : AuditLog) (e : AuditEntry) : AuditLog := log.sinks.foldl (deliver e) log

/-- The log with one more sink. -/
def withSink (log : AuditLog) (s : AuditSink) : AuditLog := { log with sinks := log.sinks ++ [s] }

/-- The log with an empty buffer. -/
def clear (log : AuditLog) : AuditLog := { log with buffer := log.buffer.clear }

/-- The text that describes a log. -/
def description (log : AuditLog) : String :=
  "AuditLog \x7b sinks: " ++ toString log.sinks.length ++ " \x7d"

end AuditLog

end AccessGate
