import AccessGate.Audit.Log
import Mathlib.Data.List.DropRight
import Mathlib.Data.List.Induction

/-!
# What arrives at the sinks of a log

A record arrives at each sink once for each time the log has the sink, and nowhere else. So what has
arrived at a sink after some records is what had arrived before, followed by the records, each that
many times (`AuditLog.received_foldl_record`); the buffer has dropped all but the newest
(`AuditBuffer.entries_foldl_push`).
-/

namespace AccessGate

namespace AuditBuffer

theorem capacity_push (b : AuditBuffer) (e : AuditEntry) : (b.push e).capacity = b.capacity := by
  unfold push
  split <;> rfl

/-- A buffer that takes one more entry drops its oldest ones for it, as far as it must. -/
theorem entries_push (b : AuditBuffer) (e : AuditEntry) :
    (b.push e).entries = (b.entries ++ [e]).drop (b.entries.length + 1 - b.capacity) := by
  have hle := b.length_le
  have hpos := b.capacity_pos
  unfold push
  split
  · next h =>
    rw [List.drop_append_of_le_length (by omega), h, Nat.add_sub_cancel_left]
  · next h => rw [Nat.sub_eq_zero_of_le (by omega), List.drop_zero]

theorem capacity_foldl_push (b : AuditBuffer) (es : List AuditEntry) :
    (es.foldl push b).capacity = b.capacity := by
  induction es using List.reverseRecOn with
  | nil => rfl
  | append_singleton es e ih => rw [List.foldl_append]; exact (capacity_push _ _).trans ih

/-- Of the newest of some entries with later ones, the newest are the newest of all. -/
theorem rtake_append_rtake (n : Nat) (es later : List AuditEntry) :
    (es.rtake n ++ later).rtake n = (es ++ later).rtake n := by
  rw [List.rtake, List.rtake, List.rtake, ← List.drop_append_of_le_length (by omega),
    List.drop_drop, List.length_append, List.length_drop, List.length_append]
  congr 1
  omega

/-- A buffer keeps the newest entries, as many as it has room for. -/
theorem entries_foldl_push (b : AuditBuffer) (es : List AuditEntry) :
    (es.foldl push b).entries = (b.entries ++ es).rtake b.capacity := by
  induction es using List.reverseRecOn with
  | nil => simp [List.rtake, Nat.sub_eq_zero_of_le b.length_le]
  | append_singleton es e ih =>
    rw [List.foldl_append, List.foldl_cons, List.foldl_nil, entries_push, capacity_foldl_push, ih,
      ← List.append_assoc, ← rtake_append_rtake b.capacity (b.entries ++ es) [e]]
    simp only [List.rtake, List.length_append, List.length_singleton]

end AuditBuffer

namespace AuditLog

/-- What was handed to a sink of another making. -/
def handedTo (log : AuditLog) (k : Nat) : List AuditEntry :=
  (log.handed.filter (·.1 = k)).map Prod.snd

/-- That a log is another one at whose sinks some entries have arrived, each as often as the other
log has the sink. The buffer keeps the newest of what it had with what has arrived there. -/
structure Received (before log : AuditLog) (es : List AuditEntry) : Prop where
  sinks : log.sinks = before.sinks
  events : log.events = before.events ++
    es.flatMap fun e => List.replicate (before.sinks.count .events) e.event
  capacity : log.buffer.capacity = before.buffer.capacity
  entries : log.buffer.entries = (before.buffer.entries ++
    es.flatMap fun e => List.replicate (before.sinks.count .memory) e).rtake before.buffer.capacity
  handed : ∀ k, log.handedTo k = before.handedTo k ++
    es.flatMap fun e => List.replicate (before.sinks.count (.other k)) e

/-- Handing an entry to some sinks. -/
theorem foldl_deliver (e : AuditEntry) (sinks : List AuditSink) (log : AuditLog) :
    (sinks.foldl (deliver e) log).sinks = log.sinks ∧
    (sinks.foldl (deliver e) log).events =
      log.events ++ List.replicate (sinks.count .events) e.event ∧
    (sinks.foldl (deliver e) log).buffer =
      (List.replicate (sinks.count .memory) e).foldl .push log.buffer ∧
    ∀ k, (sinks.foldl (deliver e) log).handedTo k =
      log.handedTo k ++ List.replicate (sinks.count (.other k)) e := by
  induction sinks generalizing log with
  | nil => simp
  | cons sink sinks ih =>
    obtain ⟨hsinks, hevents, hbuffer, hhanded⟩ := ih (deliver e log sink)
    simp only [List.foldl_cons, hsinks, hevents, hbuffer, hhanded]
    cases sink with
    | memory => simp [deliver, handedTo, List.replicate_succ]
    | events => simp [deliver, handedTo, List.replicate_succ]
    | other k =>
      refine ⟨rfl, by simp [deliver], by simp [deliver], fun k' => ?_⟩
      by_cases hk : k = k'
      · subst hk
        simp [deliver, handedTo, List.replicate_succ]
      · simp [deliver, handedTo, hk]

/-- A record is received once. -/
theorem received_record (log : AuditLog) (e : AuditEntry) : Received log (log.record e) [e] := by
  obtain ⟨hsinks, hevents, hbuffer, hhanded⟩ := foldl_deliver e log.sinks log
  refine ⟨hsinks, by simpa [record] using hevents, ?_, ?_, by simpa [record] using hhanded⟩
  · rw [record, hbuffer, AuditBuffer.capacity_foldl_push]
  · rw [record, hbuffer, AuditBuffer.entries_foldl_push, List.flatMap_singleton]

/-- What is received in two stretches is received in their order. -/
theorem Received.trans {first next last : AuditLog} {es es' : List AuditEntry}
    (h : Received first next es) (h' : Received next last es') :
    Received first last (es ++ es') where
  sinks := h'.sinks.trans h.sinks
  events := by rw [h'.events, h.events, h.sinks, List.flatMap_append, List.append_assoc]
  capacity := h'.capacity.trans h.capacity
  entries := by
    rw [h'.entries, h.entries, h.capacity, h.sinks, AuditBuffer.rtake_append_rtake,
      List.flatMap_append, List.append_assoc]
  handed k := by rw [h'.handed, h.handed, h.sinks, List.flatMap_append, List.append_assoc]

/-- Each of some records arrives at every sink. -/
theorem received_foldl_record (log : AuditLog) (es : List AuditEntry) :
    Received log (es.foldl record log) es := by
  induction es using List.reverseRecOn with
  | nil =>
    exact ⟨rfl, by simp, rfl, (AuditBuffer.entries_foldl_push log.buffer []), by simp⟩
  | append_singleton es e ih =>
    rw [List.foldl_append]
    exact ih.trans (received_record _ e)

end AuditLog

end AccessGate
