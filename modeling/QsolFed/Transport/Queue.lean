import QsolFed.Library.Run
import QsolFed.Transport.Relay

/-!
# The bounded queue

Whatever is put in and taken out, the index of the queue lists the identities of the frames that
wait, every one of them once, and the queue is never longer than its limit. The frames that were
taken out, followed by those that still wait, are the frames that were accepted in the order of
their acceptance.
-/
namespace QsolFed.Transport

open Checked Effect

variable {primitives : Primitives}

/-- The calls of the queue. -/
inductive QueueCall where
  /-- Put a frame at the end. -/
  | enqueue (frame : TransportFrame)
  /-- Take the oldest frame. -/
  | dequeue

/-- What a call does: a frame is returned if one was taken. -/
def QueueCall.perform (primitives : Primitives) :
    QueueCall → Effect BoundedTransportQueue TransportError (Option TransportFrame)
  | .enqueue frame => (fun _ => none) <$> BoundedTransportQueue.enqueue primitives frame
  | .dequeue => BoundedTransportQueue.dequeue

/-- A call with its result. -/
abbrev QueueEvent := QueueCall × Except TransportError (Option TransportFrame)

/-- A queue takes a call to the next one. -/
def QueueStep (primitives : Primitives) (before : BoundedTransportQueue) (event : QueueEvent)
    (after : BoundedTransportQueue) : Prop :=
  (event.1.perform primitives).run before = (event.2, after)

/-- The frame that a call accepts. -/
def accepted : QueueEvent → Option TransportFrame
  | (.enqueue frame, .ok _) => some frame
  | _ => none

/-- The frame that a call takes out. -/
def dequeued : QueueEvent → Option TransportFrame
  | (.dequeue, .ok taken) => taken
  | _ => none

/-- What holds of every queue. -/
structure Indexed (state : BoundedTransportQueue) : Prop where
  /-- The index lists the frames that wait. -/
  index : ∀ id, id ∈ state.queuedIds ↔ ∃ frame ∈ state.queue, frame.frameId = id
  /-- No frame waits twice. -/
  once : (state.queue.map TransportFrame.frameId).Nodup
  /-- The queue is short. -/
  bounded : state.queue.length ≤ state.limit

/-- What a call does to a queue. -/
inductive Queued (primitives : Primitives) (before : BoundedTransportQueue) :
    QueueEvent → BoundedTransportQueue → Prop where
  /-- A frame is refused. -/
  | refused (frame : TransportFrame) (error : TransportError)
    (reason : validateTransportFrame primitives frame ≠ .ok () ∨
      before.limit ≤ before.queue.length ∨ frame.frameId ∈ before.queuedIds) :
    Queued primitives before (.enqueue frame, .error error) before
  /-- A frame is put at the end. -/
  | stored (frame : TransportFrame) (valid : validateTransportFrame primitives frame = .ok ())
    (room : before.queue.length < before.limit) (fresh : frame.frameId ∉ before.queuedIds) :
    Queued primitives before (.enqueue frame, .ok none) { before with
      queuedIds := insert frame.frameId before.queuedIds
      queue := before.queue ++ [frame] }
  /-- Nothing waits. -/
  | idle (empty : before.queue = []) : Queued primitives before (.dequeue, .ok none) before
  /-- The oldest frame is taken. -/
  | taken (frame : TransportFrame) (rest : List TransportFrame)
    (waits : before.queue = frame :: rest) :
    Queued primitives before (.dequeue, .ok (some frame)) { before with
      queue := rest
      queuedIds := before.queuedIds.erase frame.frameId }

/-- Every step of the queue is one of these. -/
theorem QueueStep.queued {before after : BoundedTransportQueue} {event : QueueEvent}
    (step : QueueStep primitives before event after) : Queued primitives before event after := by
  obtain ⟨call, result⟩ := event
  simp only [QueueStep] at step
  cases call with
  | enqueue frame =>
    obtain ⟨inner, ran, rfl⟩ := run_of_run_map step
    simp only [BoundedTransportQueue.enqueue] at ran
    rcases run_check_cases ran with ⟨error, refused, rfl, rfl⟩ | ⟨_, valid, ran⟩
    · exact .refused frame error (.inl (by rw [refused]; nofun))
    rcases run_read_cases ran with ⟨error, refused, rfl, rfl⟩ | ⟨_, passed, ran⟩
    · refine .refused frame error (.inr ?_)
      by_contra clear
      simp only [not_or, not_le] at clear
      rw [ensure_pos clear.1, bind_ok, ensure_pos clear.2] at refused
      cases refused
    · simp only [bind_ok_iff, ensure_ok_iff, exists_const] at passed
      rw [run_modify_bind, run_modify] at ran
      obtain ⟨rfl, rfl⟩ := Prod.mk.inj ran
      exact .stored frame valid passed.1 passed.2
  | dequeue =>
    simp only [QueueCall.perform, BoundedTransportQueue.dequeue] at step
    rcases run_read_cases step with ⟨error, refused, -, -⟩ | ⟨oldest, found, ran⟩
    · cases refused
    · obtain rfl := Except.ok.inj found
      cases waits : before.queue with
      | nil =>
        simp only [waits, List.head?_nil, run_pure, Prod.mk.injEq] at ran
        obtain ⟨rfl, rfl⟩ := ran
        exact .idle waits
      | cons frame rest =>
        simp only [waits, List.head?_cons, run_modify_bind, run_pure, Prod.mk.injEq,
          List.tail_cons] at ran
        obtain ⟨rfl, rfl⟩ := ran
        exact .taken frame rest waits

/-- A frame is accepted exactly when it is valid, there is room and its identity does not wait. -/
theorem enqueue_ok_iff (before : BoundedTransportQueue) (frame : TransportFrame) :
    (∃ after, QueueStep primitives before (.enqueue frame, .ok none) after) ↔
      validateTransportFrame primitives frame = .ok () ∧ before.queue.length < before.limit ∧
        frame.frameId ∉ before.queuedIds := by
  constructor
  · rintro ⟨after, step⟩
    cases step.queued with
    | stored _ valid room fresh => exact ⟨valid, room, fresh⟩
  · rintro ⟨valid, room, fresh⟩
    refine ⟨{ before with
      queuedIds := insert frame.frameId before.queuedIds
      queue := before.queue ++ [frame] }, ?_⟩
    have clear : (do
        ensure (before.queue.length < before.limit)
          (TransportError.code "transport_queue_limit_exceeded")
        ensure (frame.frameId ∉ before.queuedIds)
          (TransportError.code "transport_queue_duplicate_frame")) = .ok () := by
      rw [ensure_pos room, bind_ok, ensure_pos fresh]
    simp only [QueueStep, QueueCall.perform, run_map, BoundedTransportQueue.enqueue, valid,
      check_ok_bind, run_read_bind, clear, run_modify_bind, run_modify]
    rfl

/-- A call keeps the index. -/
theorem Queued.indexed {before after : BoundedTransportQueue} {event : QueueEvent}
    (queued : Queued primitives before event after) (indexed : Indexed before) : Indexed after := by
  cases queued with
  | refused => exact indexed
  | stored frame valid room fresh =>
    have apart : frame.frameId ∉ before.queue.map TransportFrame.frameId := by
      intro waits
      obtain ⟨other, listed, same⟩ := List.mem_map.mp waits
      exact fresh ((indexed.index _).mpr ⟨other, listed, same⟩)
    refine ⟨fun id => ?_, ?_, ?_⟩
    · rw [Finset.mem_insert, indexed.index]
      simp only [List.mem_append, List.mem_singleton]
      constructor
      · rintro (rfl | ⟨other, listed, rfl⟩)
        · exact ⟨frame, .inr rfl, rfl⟩
        · exact ⟨other, .inl listed, rfl⟩
      · rintro ⟨other, listed | rfl, rfl⟩
        · exact .inr ⟨other, listed, rfl⟩
        · exact .inl rfl
    · rw [List.map_append, List.map_singleton, List.nodup_append]
      refine ⟨indexed.once, List.nodup_singleton _, fun id listed other here same => ?_⟩
      rw [List.mem_singleton] at here
      exact apart (here ▸ same ▸ listed)
    · rw [List.length_append, List.length_singleton]
      exact room
  | idle => exact indexed
  | taken frame rest waits =>
    have once := indexed.once
    rw [waits, List.map_cons, List.nodup_cons] at once
    refine ⟨fun id => ?_, once.2, ?_⟩
    · rw [Finset.mem_erase, indexed.index, waits]
      constructor
      · rintro ⟨apart, other, listed, rfl⟩
        rcases List.mem_cons.mp listed with rfl | later
        · exact absurd rfl apart
        · exact ⟨other, later, rfl⟩
      · rintro ⟨other, later, rfl⟩
        refine ⟨fun same => ?_, other, List.mem_cons_of_mem _ later, rfl⟩
        exact once.1 (same ▸ List.mem_map_of_mem later)
    · have count := indexed.bounded
      rw [waits, List.length_cons] at count
      exact Nat.le_of_succ_le count

/-- A call keeps the limit. -/
theorem Queued.limit {before after : BoundedTransportQueue} {event : QueueEvent}
    (queued : Queued primitives before event after) : after.limit = before.limit := by
  cases queued <;> rfl

/-- What was taken out and what waits are what waited and what was accepted. -/
theorem Queued.conserved {before after : BoundedTransportQueue} {event : QueueEvent}
    (queued : Queued primitives before event after) :
    before.queue ++ (accepted event).toList = (dequeued event).toList ++ after.queue := by
  cases queued with
  | refused => simp [accepted, dequeued]
  | stored => simp [accepted, dequeued]
  | idle => simp [accepted, dequeued]
  | taken frame rest waits => simp [accepted, dequeued, waits]

/-- After any calls the index lists the identities of the frames that wait, each once, the queue
is within its limit, and the frames that were taken out and those that wait are those that were
accepted, in order. A refusal changes nothing, and a frame that is taken out can be put in again. -/
theorem queue_runs (limit : Nat) {events : List QueueEvent} {state : BoundedTransportQueue}
    (run : Run (QueueStep primitives) (.withLimit limit) events state) :
    (∀ id, id ∈ state.queuedIds ↔ ∃ frame ∈ state.queue, frame.frameId = id) ∧
    (state.queue.map TransportFrame.frameId).Nodup ∧
    state.queue.length ≤ min limit transportQueueMaxDepth ∧
    events.filterMap accepted = events.filterMap dequeued ++ state.queue ∧
    (∀ call error after, QueueStep primitives state (call, .error error) after → after = state) ∧
    (∀ frame after, QueueStep primitives state (.dequeue, .ok (some frame)) after →
      ∃ final, QueueStep primitives after (.enqueue frame, .ok none) final) := by
  have valid : (∀ frame ∈ state.queue, validateTransportFrame primitives frame = .ok ()) ∧
      Indexed state ∧ state.limit = min limit transportQueueMaxDepth ∧
      events.filterMap accepted = events.filterMap dequeued ++ state.queue := by
    refine run.invariant (fun events state =>
      (∀ frame ∈ state.queue, validateTransportFrame primitives frame = .ok ()) ∧
        Indexed state ∧ state.limit = min limit transportQueueMaxDepth ∧
        events.filterMap accepted = events.filterMap dequeued ++ state.queue) ?_ ?_
    · refine ⟨?_, ⟨fun id => ?_, List.nodup_nil, Nat.zero_le _⟩, rfl, rfl⟩
      · simp [BoundedTransportQueue.withLimit]
      · simp [BoundedTransportQueue.withLimit]
    · rintro events before event after - ⟨valid, indexed, limited, conserved⟩ step
      have queued := step.queued
      refine ⟨?_, queued.indexed indexed, queued.limit.trans limited, ?_⟩
      · cases queued with
        | refused => exact valid
        | stored frame accepted =>
          intro other listed
          rcases List.mem_append.mp listed with earlier | here
          · exact valid other earlier
          · rw [List.mem_singleton] at here
            exact here ▸ accepted
        | idle => exact valid
        | taken frame rest waits =>
          intro other listed
          exact valid other (waits ▸ List.mem_cons_of_mem _ listed)
      · have one : ∀ pick : QueueEvent → Option TransportFrame,
            [event].filterMap pick = (pick event).toList := by
          intro pick
          cases picked : pick event <;> simp [picked]
        rw [List.filterMap_append, List.filterMap_append, one, one, conserved, List.append_assoc,
          queued.conserved, List.append_assoc]
  obtain ⟨valid, indexed, limited, conserved⟩ := valid
  refine ⟨indexed.index, indexed.once, limited ▸ indexed.bounded, conserved, ?_, ?_⟩
  · intro call error after step
    cases step.queued with
    | refused => rfl
  · intro frame after step
    have queued := step.queued
    have next := queued.indexed indexed
    cases queued with
    | taken _ rest waits =>
      refine (enqueue_ok_iff _ _).mpr ⟨valid frame (waits ▸ List.mem_cons_self), ?_, ?_⟩
      · have count := indexed.bounded
        rw [waits, List.length_cons] at count
        exact count
      · simp

/-- A frame that is put in, taken out and put in again waits once, in a queue for one frame. -/
theorem requeued_frame : ∃ frame state,
    Run (QueueStep (Digest.tabulated [] [])) (.withLimit 1)
      [(.enqueue frame, .ok none), (.dequeue, .ok (some frame)), (.enqueue frame, .ok none)]
      state ∧ state.queue = [frame] := by
  have reference : Wire.isSha256Ref
      "sha256:0000000000000000000000000000000000000000000000000000000000000000" = true := by decide
  have sender : Wire.isNodeId "fed:qsol:sender" = true := by decide
  have recipient : Wire.isNodeId "fed:qsol:recipient" = true := by decide
  have bare : ∀ text ∈ (none : Option String), Wire.isSha256Ref text = true := by simp
  obtain ⟨frame, -, valid⟩ := new_accepted (Digest.tabulated [] []) .quic sender recipient
    reference reference bare (by decide : (1 : UInt64) ≠ 0) (by decide)
  obtain ⟨first, put⟩ := (enqueue_ok_iff (.withLimit 1) frame).mpr ⟨valid, by decide, Finset.notMem_empty _⟩
  have once : Run (QueueStep (Digest.tabulated [] [])) (.withLimit 1) [(.enqueue frame, .ok none)]
      first := .single put
  have waits : first.queue = [frame] := (queue_runs 1 once).2.2.2.1.symm
  have took : QueueStep (Digest.tabulated [] []) first (.dequeue, .ok (some frame))
      { first with queue := [], queuedIds := first.queuedIds.erase frame.frameId } := by
    simp only [QueueStep, QueueCall.perform, BoundedTransportQueue.dequeue, run_read_bind, waits,
      List.head?_cons]
    simp only [pure, Except.pure, run_modify_bind, waits, List.tail_cons]
    rfl
  obtain ⟨final, again⟩ := (queue_runs 1 once).2.2.2.2.2 frame _ took
  have whole := (once.snoc took).snoc again
  have conserved := (queue_runs 1 whole).2.2.2.1
  exact ⟨frame, final, whole, (List.cons.inj conserved).2.symm⟩

end QsolFed.Transport
