import AccessGate.Proofs.Audit.Arrivals
import Mathlib.Data.List.DropRight

/-!
# What the buffer of a log keeps

A buffer holds the newest of what has been put into it since it was emptied last, as many as it has
room for (`AuditBuffer.Newest`). Every step of a log keeps this up. An entry that the log hands to
its buffer several times is there as several, and may push out copies of itself
(`AuditLog.retains_newest`).
-/

namespace AccessGate

namespace AuditBuffer

variable {b : AuditBuffer} {es : List AuditEntry}

/-- A buffer holds the newest of some entries. -/
def Newest (b : AuditBuffer) (es : List AuditEntry) : Prop := b.entries = es.rtake b.capacity

/-- A new buffer keeps nothing. -/
theorem newest_ofCapacity (n : Nat) : (ofCapacity n).Newest [] := by
  rw [Newest, List.rtake_nil]
  rfl

/-- A cleared buffer keeps nothing. -/
theorem newest_clear (b : AuditBuffer) : b.clear.Newest [] := by
  rw [Newest, List.rtake_nil]
  rfl

/-- What comes into a buffer pushes out what is older than all that the buffer keeps. -/
theorem Newest.foldl_push (h : b.Newest es) (later : List AuditEntry) :
    (later.foldl push b).Newest (es ++ later) := by
  rw [Newest, capacity_foldl_push, entries_foldl_push, h, rtake_append_rtake]

/-- A buffer has room for one entry at least. -/
theorem capacity_ofCapacity (n : Nat) : (ofCapacity n).capacity = max n 1 := by
  show (if n = 0 then 1 else n) = max n 1
  split <;> omega

end AuditBuffer

namespace AuditLog

/-- What is done with a log. -/
inductive Step
  | record (e : AuditEntry)
  | clear

/-- What a step hands to the sinks. -/
def Step.entry? : Step → Option AuditEntry
  | record e => some e
  | clear => none

/-- The log after a step. -/
def apply (log : AuditLog) : Step → AuditLog
  | .record e => log.record e
  | .clear => log.clear

/-- The log after some steps. -/
def after (log : AuditLog) (steps : List Step) : AuditLog := steps.foldl apply log

/-- What has been recorded since the buffer was emptied last. -/
def sinceClear (steps : List Step) : List AuditEntry :=
  (steps.rtakeWhile fun step => step.entry?.isSome).filterMap Step.entry?

/-- Entries as they come to a buffer that is among the sinks. -/
def arriving (sinks : List AuditSink) (es : List AuditEntry) : List AuditEntry :=
  es.flatMap fun e => List.replicate (sinks.count .memory) e

variable {log : AuditLog} {es : List AuditEntry}

/-- One more record comes last among those since the last clearing. -/
theorem sinceClear_concat_record (steps : List Step) (e : AuditEntry) :
    sinceClear (steps ++ [.record e]) = sinceClear steps ++ [e] := by
  rw [sinceClear, List.rtakeWhile_concat_pos _ _ _ rfl, List.filterMap_append]
  rfl

/-- Nothing was recorded since a clearing that comes last. -/
theorem sinceClear_concat_clear (steps : List Step) : sinceClear (steps ++ [.clear]) = [] := by
  rw [sinceClear, List.rtakeWhile_concat_neg _ _ _ Bool.false_ne_true]
  rfl

/-- Handing an entry to some of the sinks of a log. -/
theorem newest_foldl_deliver (h : log.buffer.Newest es) (sinks : List AuditSink) (e : AuditEntry) :
    (sinks.foldl (deliver e) log).buffer.Newest (es ++ List.replicate (sinks.count .memory) e) ∧
    (sinks.foldl (deliver e) log).buffer.capacity = log.buffer.capacity := by
  obtain ⟨-, -, hbuffer, -⟩ := foldl_deliver e sinks log
  rw [hbuffer]
  exact ⟨h.foldl_push _, AuditBuffer.capacity_foldl_push _ _⟩

/-- What a step leaves as it is. -/
theorem apply_fixed (log : AuditLog) (step : Step) :
    (log.apply step).sinks = log.sinks ∧
    (log.apply step).buffer.capacity = log.buffer.capacity := by
  cases step with
  | record e =>
    obtain ⟨hsinks, -, hbuffer, -⟩ := foldl_deliver e log.sinks log
    refine ⟨hsinks, ?_⟩
    rw [apply, record, hbuffer, AuditBuffer.capacity_foldl_push]
  | clear => exact ⟨rfl, rfl⟩

theorem after_concat (log : AuditLog) (steps : List Step) (step : Step) :
    log.after (steps ++ [step]) = (log.after steps).apply step := by
  rw [after, List.foldl_append]
  rfl

/-- Recording and clearing leave the sinks and the capacity as they are. -/
theorem after_fixed (log : AuditLog) (steps : List Step) :
    (log.after steps).sinks = log.sinks ∧
    (log.after steps).buffer.capacity = log.buffer.capacity := by
  induction steps using List.reverseRecOn with
  | nil => exact ⟨rfl, rfl⟩
  | append_singleton steps step ih =>
    obtain ⟨hsinks, hcapacity⟩ := apply_fixed (log.after steps) step
    rw [after_concat, hsinks, hcapacity]
    exact ih

/-- However a log came to be, its buffer holds the newest of what has come to it since it was
emptied last. -/
theorem newest_after (h : log.buffer.Newest []) (steps : List Step) :
    (log.after steps).buffer.Newest (arriving log.sinks (sinceClear steps)) := by
  induction steps using List.reverseRecOn with
  | nil => exact h
  | append_singleton steps step ih =>
    rw [after_concat]
    cases step with
    | record e =>
      have hrecord := (newest_foldl_deliver ih (log.after steps).sinks e).1
      rw [(after_fixed log steps).1] at hrecord
      rw [sinceClear_concat_record, arriving, List.flatMap_append, List.flatMap_singleton]
      rwa [apply, record, (after_fixed log steps).1]
    | clear =>
      rw [sinceClear_concat_clear]
      exact AuditBuffer.newest_clear _

/-- **The newest entries, and no others.** A log that began with an empty buffer of any capacity,
zero counting as one, has been through any steps, and may be handing one more entry to its sinks, of
which it has come to the first few. Its buffer is within its capacity and holds the newest of what
has come to it since it was emptied last: each entry as often as the buffer is among the sinks, and
the one under way as often as it is among those that have been come to. -/
theorem retains_newest (log : AuditLog) (n : Nat) (steps : List Step) :
    let start : AuditLog := { log with buffer := .ofCapacity n }
    let kept := arriving log.sinks (sinceClear steps)
    (start.after steps).buffer.size ≤ max n 1 ∧
    (start.after steps).buffer.entries = kept.rtake (max n 1) ∧
    ∀ e i,
      let reached := (start.after steps).sinks.take i
      let now := reached.foldl (deliver e) (start.after steps)
      now.buffer.size ≤ max n 1 ∧
      now.buffer.entries = (kept ++ List.replicate (reached.count .memory) e).rtake (max n 1) := by
  intro start kept
  have hnewest : (start.after steps).buffer.Newest kept :=
    newest_after (AuditBuffer.newest_ofCapacity n) steps
  have hcapacity : (start.after steps).buffer.capacity = max n 1 :=
    (after_fixed start steps).2.trans (AuditBuffer.capacity_ofCapacity n)
  refine ⟨hcapacity ▸ (start.after steps).buffer.length_le, hcapacity ▸ hnewest, ?_⟩
  intro e i reached now
  have hreached : now.buffer.Newest (kept ++ List.replicate (reached.count .memory) e) :=
    (newest_foldl_deliver hnewest reached e).1
  have hnow : now.buffer.capacity = max n 1 :=
    (newest_foldl_deliver hnewest reached e).2.trans hcapacity
  exact ⟨hnow ▸ now.buffer.length_le, hnow ▸ hreached⟩

end AuditLog

end AccessGate
