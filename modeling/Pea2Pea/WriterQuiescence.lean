/-
The receiver of a `unicast` resolves: with no new messages, a writer task
comes to a state where it waits for the next message with nothing queued, or
has ended.

Whether the socket takes what is in the buffer is up to the peer. A write that
is pending may be polled any number of times; but its time runs out, so that a
peer that does not read cannot keep a batch for ever.
-/
import Pea2Pea.Deliveries
import Pea2Pea.Lib.Settles
import Mathlib.Data.Prod.Lex

namespace Pea2Pea.Writer

open Framed

variable {β σ μ ε : Type}

/-- A call on its own: the socket may take some bytes, or fail; a pending
call's time is up at some point. A poll that finds the socket full, or the
buffer at the boundary, is idling. -/
def WriteAct.pace : WriteAct ε → Pace
  | .drain | .pend | .resume => .idle
  | .write _ | .fail _ => .event
  | _ => .work

/-- The sender may be dropped and the task aborted; what other tasks do with
the node's counters is none of this one's business. -/
def pace : Act μ ε → Pace
  | .queue _ _ => .call
  | .close | .abort => .event
  | .elsewhere _ _ => .idle
  | .write a => a.pace
  | _ => .work

/-! ## The steps left -/

/-- The steps of a call of `write_batch`, but for the bytes it takes. -/
def Write.left (w : Write β σ μ ε) : Nat := if w.pc.live then w.rest.length + 2 else 1

theorem Write.left_live {w : Write β σ μ ε} (h : w.pc.live = true) : w.left = w.rest.length + 2 := if_pos h

theorem Write.left_over {w : Write β σ μ ε} (h : w.pc.live = false) : w.left = 1 := if_neg (by simp [h])

/-- The steps of a batch from here to its end. -/
def Pc.left (write : Write β σ μ ε) (batch : List (Wrapped μ)) : Pc ε → Nat
  | .receiving => 1
  | .writing => (notifiers batch).length + write.left + 6
  | .notifying _ left => left.length + 6
  | .registering .connMsgs _ _ => 5
  | .registering .connBytes _ _ => 4
  | .registering .nodeMsgs _ _ => 3
  | .registering .nodeBytes _ _ => 2
  | .ended _ => 0

/-- The steps left, but for the bytes of the current call. -/
def State.stepsLeft (s : State β σ μ ε) : Nat :=
  11 * s.queue.length + s.pc.left s.write s.batch + s.isOpen.toNat

def State.left (s : State β σ μ ε) : ℕ ×ₗ ℕ := toLex (s.stepsLeft, s.write.sink.buffer.length)

variable {E : Encoder β σ μ ε} {depth : Nat} {s s' : State β σ μ ε} {a : Act μ ε} {sink₀ : Sink β σ}
  {conn₀ node₀ : Stats}

theorem State.left_lt_of_steps (h : s'.stepsLeft < s.stepsLeft) : s'.left < s.left :=
  Prod.Lex.toLex_lt_toLex.mpr (.inl h)

theorem Pc.left_pos {pc : Pc ε} {w : Write β σ μ ε} {batch : List (Wrapped μ)} (h : pc.isEnded = false) :
    0 < pc.left w batch := by
  cases pc with
  | ended => cases h
  | registering c => cases c <;> simp [Pc.left]
  | _ => simp [Pc.left]

/-- The task gets on, with its queue as it was. -/
theorem State.left_lt_goto (hq : s'.queue = s.queue) (ho : s'.isOpen = s.isOpen)
    (h : s'.pc.left s'.write s'.batch < s.pc.left s.write s.batch) : s'.left < s.left := by
  refine State.left_lt_of_steps ?_
  simp only [State.stepsLeft, hq, ho]
  omega

theorem State.left_lt_ended {e : Ending} (h : s.pc.isEnded = false) : State.left { s with pc := .ended e } < s.left :=
  State.left_lt_goto rfl rfl (Pc.left_pos h)

/-- A step of `write_batch` that is not idle: the call gets on, or the socket
takes some of the buffer. -/
theorem Write.left_lt {w w' : Write β σ μ ε} {b : WriteAct ε} (h : w.step E b = some w') (hi : b.pace ≠ .idle) :
    w'.left < w.left ∨ w'.left = w.left ∧ w'.sink.buffer.length < w.sink.buffer.length := by
  have live : ∀ {p q : WritePc ε}, w.pc = p ∨ w.pc = q → p.live = true → q.live = true → w.pc.live = true := by
    rintro p q (hpc | hpc) hp hq <;> rwa [hpc]
  have ends : ∀ {z : Write β σ μ ε}, w.pc.live = true → z.pc.live = false → z.left < w.left := by
    intro z hw hz
    rw [Write.left_live hw, Write.left_over hz]
    omega
  cases Write.step_sound h with
  | drain | pend | pendFlush | resume | resumeFlush => exact absurd rfl hi
  | @feed m rest codec b hpc hr =>
    refine .inl ?_
    rw [Write.left_live (live hpc rfl rfl), Write.left_live (WritePc.next_live ε rest), hr]
    simp
  | feedError hpc | feedPanic hpc | fail hpc | timeOut hpc => exact .inl (ends (live hpc rfl rfl) rfl)
  | flushed hpc => exact .inl (ends (by rw [hpc]; rfl) rfl)
  | @write k hpc =>
    refine .inr ⟨rfl, ?_⟩
    have hk : 0 < k ∧ k ≤ w.sink.buffer.length := by
      rcases hpc with hpc | hpc <;>
      · simp only [Write.step, hpc] at h
        split at h
        next hk => exact hk
        · cases h
    simp only [Sink.write, List.length_drop]
    omega

theorem Write.left_idle {w w' : Write β σ μ ε} {b : WriteAct ε} (h : w.step E b = some w') (hi : b.pace = .idle) :
    w'.left = w.left ∧ w'.sink = w.sink := by
  cases Write.step_sound h with
  | drain hpc | pend hpc | pendFlush hpc | resume hpc | resumeFlush hpc =>
    exact ⟨by simp [Write.left, hpc, WritePc.live], rfl⟩
  | feed | feedError | feedPanic | write | fail | timeOut | flushed => cases hi

/-- Any step but a new message and idling. -/
theorem left_lt (h : step E depth s a = some s') (hq : pace a ≠ .call) (hi : pace a ≠ .idle) : s'.left < s.left := by
  cases step_sound h with
  | queue => exact absurd rfl hq
  | elsewhere => exact absurd rfl hi
  | close ho =>
    refine State.left_lt_of_steps ?_
    simp [State.stepsLeft, ho]
  | @recv n hpc hn =>
    have hle : n ≤ s.queue.length := by
      simp only [step, hpc] at h
      split at h
      next hc => exact hc.2.2
      · cases h
    have hlen : (s.queue.take n).length = n := List.length_take_of_le hle
    have hns : (notifiers (s.queue.take n)).length ≤ n := (List.length_filterMap_le _ _).trans hlen.le
    have hcall : (Write.begin s.write.sink ((s.queue.take n).map (·.msg)) : Write β σ μ ε).left = n + 2 := by
      rw [Write.left_live (WritePc.next_live ε _)]
      simp only [Write.begin, List.length_map, hlen]
    refine State.left_lt_of_steps ?_
    simp only [State.stepsLeft, hpc, Pc.left, hcall, List.length_drop]
    omega
  | recvClosed hpc | panicked hpc | gaveUp hpc => exact State.left_lt_ended (by rw [hpc]; rfl)
  | @write b w hpc =>
    have hstep : s.write.step E b = some w := by
      simp only [step, hpc] at h
      obtain ⟨z, hz, he⟩ := Option.map_eq_some_iff.mp h
      have := congrArg State.write he
      cases this
      exact hz
    rcases Write.left_lt hstep hi with hlt | ⟨heq, hlt⟩
    · refine State.left_lt_goto rfl rfl ?_
      simp only [hpc, Pc.left]
      omega
    · refine Prod.Lex.toLex_lt_toLex.mpr (.inr ⟨?_, hlt⟩)
      simp only [State.stepsLeft, hpc, Pc.left, heq]
  | returned hpc hw =>
    refine State.left_lt_goto rfl rfl ?_
    simp only [hpc, Pc.left, Write.left_over (w := s.write) (by rw [hw]; rfl)]
    exact Nat.lt_succ_self _
  | notify hpc | notified hpc =>
    refine State.left_lt_goto rfl rfl ?_
    simp [hpc, Pc.left]
  | @register c msgs bytes hpc =>
    cases c <;> refine State.left_lt_goto rfl rfl ?_ <;> simp [hpc, Pc.left, State.register]
  | abort ha =>
    refine State.left_lt_ended ?_
    unfold State.atAwait at ha
    cases hpc : s.pc <;> rw [hpc] at ha <;> first | rfl | cases ha

theorem left_idle (h : step E depth s a = some s') (hi : pace a = .idle) :
    s'.left = s.left ∧ s'.write.sink = s.write.sink ∧ s'.accepted = s.accepted := by
  cases a with
  | write b =>
    simp only [step] at h
    split at h
    next hpc =>
      obtain ⟨w, hw, rfl⟩ := Option.map_eq_some_iff.mp h
      obtain ⟨hleft, hsink⟩ := Write.left_idle hw hi
      exact ⟨by simp only [State.left, State.stepsLeft, hpc, Pc.left, hleft, hsink], hsink, rfl⟩
    · cases h
  | elsewhere => cases h; exact ⟨rfl, rfl, rfl⟩
  | _ => cases hi

/-! ## At rest -/

/-- There is a message to feed. -/
def Write.Feeding (w : Write β σ μ ε) : Prop := w.pc = .ready ∨ w.pc = .draining ∨ w.pc = .parked → w.rest ≠ []

theorem Write.Feeding.next {sink : Sink β σ} {rest : List μ} {msgs bytes : Nat} {es : List (List β)} :
    Write.Feeding (⟨sink, rest, msgs, bytes, .next rest, es⟩ : Write β σ μ ε) := by
  rintro hpc rfl
  simp [WritePc.next] at hpc

theorem Write.Feeding.step {w w' : Write β σ μ ε} {b : WriteAct ε} (h : w.Feeding) (hs : Write.StepR E w b w') :
    w'.Feeding := by
  cases hs with
  | feed => exact .next
  | write hpc => exact h
  | drain hpc | pend hpc | resume hpc => exact fun _ => h (by simp [hpc])
  | feedError | feedPanic | pendFlush | resumeFlush | fail | timeOut | flushed => rintro (he | he | he) <;> cases he

/-- Between two batches everything is flushed, if it was at the start. -/
theorem buffer_receiving (hb : sink₀.buffer = []) (h : (writer E depth sink₀ conn₀ node₀).Reachable s)
    (hpc : s.pc = .receiving) : s.write.sink.buffer = [] := by
  refine h.invariant (P := fun s => s.pc = .receiving → s.write.sink.buffer = []) (fun _ => hb) ?_ hpc
  intro s a s' hr ho _ hs hpc'
  cases step_sound hs with
  | queue | close | elsewhere => exact ho hpc'
  | write hpc =>
    rw [show s.pc = .receiving from hpc'] at hpc; cases hpc
  | @register k msgs bytes hpc =>
    cases k with
    | nodeBytes =>
      have hB := batchesOK_reachable hr
      have hC := hB.call
      simp only [CallOK, hpc] at hC
      obtain ⟨sink, hw, -⟩ := hB.write
      exact (hw.returned _ hC).2.1
    | _ => cases hpc'
  | _ => cases hpc'

theorem feeding_reachable (h : (writer E depth sink₀ conn₀ node₀).Reachable s) : s.write.Feeding := by
  refine h.invariant (P := fun s => s.write.Feeding) .next fun _ ho _ hs => ?_
  cases step_sound hs with
  | recv => exact .next
  | write _ hw => exact ho.step hw
  | @register c => cases c <;> first | exact ho | exact .next
  | _ => exact ho

theorem Write.feed_ne_none {w : Write β σ μ ε} (h : w.rest ≠ []) : w.feed E ≠ none := by
  unfold Write.feed
  split
  next hr => exact absurd hr h
  · split <;> simp

section

variable {sink : Sink β σ} {messages : List μ} {w : Write β σ μ ε}

/-- A call that is to feed a message can, unless a full buffer keeps it. -/
theorem Write.ready_rest {tempo : WriteAct ε → Pace} (hdrain : tempo .drain = .idle) (hfeed : tempo .feed = .work)
    (h : (writeBatch E sink messages).AtRest (fun _ => tempo) w)
    (hfull : ¬ (writeBatch E sink messages).AtRest (fun _ => tempo) { w with pc := .draining }) (hne : w.rest ≠ []) :
    w.pc ≠ .ready := by
  intro hpc
  by_cases hf : w.sink.full = true
  · exact hfull (h.idle hdrain (by simp [writeBatch, Write.step, hpc, hf]))
  · have := h.stuck hfeed
    simp only [writeBatch, Write.step, hpc] at this
    rw [if_neg hf] at this
    exact Write.feed_ne_none hne this

variable (h : (writeBatch E sink messages).AtRest (fun _ => WriteAct.pace) w)

include h

/-- The time of a pending call runs out. -/
theorem Write.not_pending : w.pc ≠ .parked ∧ w.pc ≠ .flushParked := by
  have := h.stuck (a := .timeOut) rfl
  constructor <;> intro hpc <;> simp [writeBatch, Write.step, hpc] at this

/-- A flush may find the socket full, and be pending. -/
theorem Write.not_flushing : w.pc ≠ .draining ∧ w.pc ≠ .flushing := by
  constructor <;> intro hpc
  · have hrest : (writeBatch E sink messages).AtRest (fun _ => WriteAct.pace) { w with pc := .parked } :=
      h.idle (a := .pend) rfl (by simp [writeBatch, Write.step, hpc])
    exact (Write.not_pending hrest).1 rfl
  · have hrest : (writeBatch E sink messages).AtRest (fun _ => WriteAct.pace) { w with pc := .flushParked } :=
      h.idle (a := .pend) rfl (by simp [writeBatch, Write.step, hpc])
    exact (Write.not_pending hrest).2 rfl

/-- A call of `write_batch` at rest is over, whatever the peer does. -/
theorem Write.over_rest (hf : w.Feeding) : w.pc.live = false := by
  cases hpc : w.pc with
  | returned | panicked => rfl
  | draining => exact absurd hpc (Write.not_flushing h).1
  | flushing => exact absurd hpc (Write.not_flushing h).2
  | parked => exact absurd hpc (Write.not_pending h).1
  | flushParked => exact absurd hpc (Write.not_pending h).2
  | ready =>
    have hfull : ¬ (writeBatch E sink messages).AtRest (fun _ => WriteAct.pace) { w with pc := .draining } :=
      fun hrest => (Write.not_flushing hrest).1 rfl
    exact absurd hpc (Write.ready_rest rfl rfl h hfull (hf (.inl hpc)))

end

section

variable (hr : (writer E depth sink₀ conn₀ node₀).Reachable s)
  (h : (writer E depth sink₀ conn₀ node₀).AtRest (fun _ => pace) s)

include hr h

theorem not_writing : s.pc ≠ .writing := by
  intro hpc
  have hcall : (writeBatch E s.write.sink []).AtRest (fun _ => WriteAct.pace) s.write := by
    refine Machine.AtRest.component (f := fun w => { s with write := w }) (I := fun _ => True) h trivial
      (fun {w w' b} _ hb hs => ⟨trivial, .write b, ?_, ?_⟩) fun {w w' b} _ hb hs => ⟨.write b, ?_, ?_⟩
    · exact hb
    · simp [writer, step, hpc, show w.step E b = some w' from hs]
    · exact hb
    · simp [writer, step, hpc, show w.step E b = some w' from hs]
  have hover := Write.over_rest hcall (feeding_reachable hr)
  have hconclude := h.stuck (a := .conclude) rfl
  cases hp : s.write.pc with
  | returned | panicked => simp [writer, step, hpc, hp] at hconclude
  | _ => rw [hp] at hover; cases hover

/-- The task waits for the next message with nothing queued, or has ended. -/
theorem writer_rest (hd : 0 < depth) : (s.pc = .receiving ∧ s.queue = []) ∨ s.pc.isEnded = true := by
  cases hpc : s.pc with
  | receiving =>
    refine .inl ⟨rfl, ?_⟩
    cases hq : s.queue with
    | nil => rfl
    | cons m queue =>
      have := h.stuck (a := .recv 1) rfl
      simp [writer, step, hpc, hq, Nat.succ_le_of_lt hd] at this
  | writing => exact absurd hpc (not_writing hr h)
  | notifying r left =>
    have := h.stuck (a := .notify) rfl
    cases left with
    | nil => cases r <;> simp [writer, step, hpc] at this
    | cons => simp [writer, step, hpc] at this
  | registering c msgs bytes =>
    have := h.stuck (a := .register) rfl
    simp [writer, step, hpc] at this
  | ended => exact .inr rfl

end

/-- Every message's fate is known, and as long as the task lives, it is that
all of them were delivered. -/
structure Resolved (s : State β σ μ ε) : Prop where
  resolved : ∀ i ∈ s.asked, s.fate i ≠ .pending
  delivered : s.pc.isEnded = false → (∀ i ∈ s.asked, s.fate i = .ok) ∧ s.sent = s.accepted

theorem resolved_rest (hr : (writer E depth sink₀ conn₀ node₀).Reachable s)
    (hrest : (s.pc = .receiving ∧ s.queue = []) ∨ s.pc.isEnded = true) : Resolved s := by
  rcases hrest with ⟨hpc, hq⟩ | hended
  · have hA := acceptedOK_reachable hr
    have hsent : s.sent = s.accepted := by simp [hA.split, hA.idle hpc, hq]
    have hR := reportedOK_reachable hr
    simp only [ReportedOK, hpc] at hR
    have hfate : ∀ i ∈ s.asked, s.fate i = .ok := by
      intro i hi
      rw [State.asked, ← hsent] at hi
      rw [State.fate, hR, reportsOf, lookup_reports, if_pos hi]
    exact ⟨fun i hi => by rw [hfate i hi]; simp, fun _ => ⟨hfate, hsent⟩⟩
  · refine ⟨fun i _ => ?_, fun hlive => by rw [hended] at hlive; cases hlive⟩
    unfold State.fate
    split
    · simp
    · simp
    · simp [State.unreported, hended]

/-- The receiver of every `unicast` resolves, even if the peer never reads:
with no new messages, only finitely many steps other than idle polls are left,
and then each message whose delivery was asked for was reported on, or the
task is gone and with it the sender of the report; if the task is not gone,
all messages were delivered. -/
theorem writer_settles (E : Encoder β σ μ ε) (depth : Nat) (sink₀ : Sink β σ) (conn₀ node₀ : Stats) (hd : 0 < depth)
    (s : State β σ μ ε) (h : (writer E depth sink₀ conn₀ node₀).Reachable s) :
    (writer E depth sink₀ conn₀ node₀).Settles (fun _ => pace) Resolved s := by
  exact Machine.settles_of_measure (I := (writer E depth sink₀ conn₀ node₀).Reachable) State.left
    (fun hr _ hs => .step hr trivial hs) (fun _ hi hs => (left_idle hs hi).1.le)
    (fun _ hi hcall hs => left_lt hs hcall hi) (fun hr hrest => resolved_rest hr (writer_rest hr hrest hd)) h

/-- The first of two batches is half written and pending, another message is
queued. -/
def pendingBatch : List (Act (List UInt8) String) :=
  [.queue [7] true, .queue [8, 9] true, .recv 2, .write .feed, .write .feed, .write (.write 2), .write .pend,
    .queue [1] true]

theorem writer_settles_pendingBatch :
    ∃ s, (writer (lengthEncoder 2) 4 ⟨(), [], 64, []⟩ .new .new).Reachable s ∧
      s.asked.map s.fate = [.pending, .pending, .pending] ∧
      (writer (lengthEncoder 2) 4 ⟨(), [], 64, []⟩ .new .new).Settles (fun _ => pace) Resolved s := by
  obtain ⟨s, hs, hp⟩ := (writer (lengthEncoder 2) 4 ⟨(), [], 64, []⟩ .new .new).exists_reachable pendingBatch
    (fun s => s.asked.map s.fate = [.pending, .pending, .pending]) (by decide +kernel)
  exact ⟨s, hs, of_decide_eq_true hp, writer_settles _ 4 _ _ _ (by decide) s hs⟩

end Pea2Pea.Writer
