/-
`write_batch` (`protocols/writing.rs`), at every poll of its sink.

Each message is fed in two parts. `poll_ready` flushes the whole buffer if
it has reached the boundary; a flush that is pending and polled again
starts over with that check, so a buffer written in part may do. Then
`start_send` encodes the message into the buffer. After the last message
the buffer is flushed. The socket takes any number of bytes at a time, and
at every pending poll the time may be up.

What an encoder that fails appended is left out: the buffer is not written
after that.
-/
import Mathlib.Algebra.GroupWithZero.Nat
import Pea2Pea.Lib.Framed
import Pea2Pea.Lib.Transition

namespace Pea2Pea.Writer

open Framed

variable {β σ μ ε : Type}

/-- Why a batch fails: the codec or the socket did, or the time was up
(`TimedOut`, "write timed out"). -/
inductive WriteError (ε : Type)
  | failed (e : ε)
  | timedOut
  deriving DecidableEq

/-- Where `write_batch` is. -/
inductive WritePc (ε : Type)
  /-- In `poll_ready`, for the next message. -/
  | ready
  /-- In `poll_ready`, flushing. -/
  | draining
  /-- `poll_ready` is pending. -/
  | parked
  /-- In the last `flush`. -/
  | flushing
  /-- The last `flush` is pending. -/
  | flushParked
  | returned (r : Except (WriteError ε) (Nat × Nat))
  /-- The encoder panicked. -/
  | panicked
  deriving DecidableEq

/-- A call of `write_batch`. -/
structure Write (β σ μ ε : Type) where
  sink : Sink β σ
  /-- The messages that are not taken out of the batch. -/
  rest : List μ
  msgs : Nat
  bytes : Nat
  pc : WritePc ε
  /-- The encodings of the messages taken (read by no step). -/
  encodings : List (List β)

/-- The call once a message is fed: the next one, or the flush. -/
def WritePc.next (rest : List μ) : WritePc ε := if rest.isEmpty then .flushing else .ready

def Write.begin (sink : Sink β σ) (messages : List μ) : Write β σ μ ε where
  sink := sink
  rest := messages
  msgs := messages.length
  bytes := 0
  pc := .next messages
  encodings := []

inductive WriteAct (ε : Type)
  /-- `poll_ready` finds the buffer at the boundary. -/
  | drain
  /-- `poll_ready` is done, and the next message is encoded. -/
  | feed
  /-- The socket takes `k` bytes. -/
  | write (k : Nat)
  /-- The socket takes no more for now. -/
  | pend
  /-- A pending flush is polled again. -/
  | resume
  /-- The socket fails, or takes nothing. -/
  | fail (e : ε)
  /-- The time is up. -/
  | timeOut
  | flushed

namespace Write

/-- `start_send` for the next message, and the byte count. -/
def feed (E : Encoder β σ μ ε) (w : Write β σ μ ε) : Option (Write β σ μ ε) :=
  match w.rest with
  | [] => none
  | m :: rest =>
    match E.encode w.sink.codec w.sink.buffer m with
    | .bytes codec b =>
      let prev := w.sink.buffer.length
      let sink := w.sink.push codec b
      some { w with
        sink := sink
        rest := rest
        bytes := w.bytes + (sink.buffer.length - prev)
        pc := .next rest
        encodings := w.encodings ++ [b] }
    | .error e => some { w with rest := rest, pc := .returned (.error (.failed e)) }
    | .panic => some { w with rest := rest, pc := .panicked }

def step (E : Encoder β σ μ ε) (w : Write β σ μ ε) : WriteAct ε → Option (Write β σ μ ε)
  | .drain =>
    match w.pc with
    | .ready => if w.sink.full then some { w with pc := .draining } else none
    | _ => none
  | .feed =>
    match w.pc with
    | .ready => if w.sink.full then none else w.feed E
    | .draining => if w.sink.buffer.isEmpty then w.feed E else none
    | _ => none
  | .write k =>
    match w.pc with
    | .draining | .flushing =>
      if 0 < k ∧ k ≤ w.sink.buffer.length then some { w with sink := w.sink.write k } else none
    | _ => none
  | .pend =>
    match w.pc with
    | .draining => some { w with pc := .parked }
    | .flushing => some { w with pc := .flushParked }
    | _ => none
  | .resume =>
    match w.pc with
    | .parked => some { w with pc := .ready }
    | .flushParked => some { w with pc := .flushing }
    | _ => none
  | .fail e =>
    match w.pc with
    | .draining | .flushing => some { w with pc := .returned (.error (.failed e)) }
    | _ => none
  | .timeOut =>
    match w.pc with
    | .parked | .flushParked => some { w with pc := .returned (.error .timedOut) }
    | _ => none
  | .flushed =>
    match w.pc with
    | .flushing => if w.sink.buffer.isEmpty then some { w with pc := .returned (.ok (w.msgs, w.bytes)) } else none
    | _ => none

/-- The call is at an await. -/
def atAwait (w : Write β σ μ ε) : Bool :=
  match w.pc with
  | .parked | .flushParked => true
  | _ => false

/-- The batch is completely flushed. -/
def isFlushed (w : Write β σ μ ε) : Bool :=
  match w.pc with
  | .returned (.ok _) => true
  | _ => false

end Write

/-! ## The steps as a relation -/

inductive Write.StepR (E : Encoder β σ μ ε) (w : Write β σ μ ε) : WriteAct ε → Write β σ μ ε → Prop
  | drain (hpc : w.pc = .ready) : StepR E w .drain { w with pc := .draining }
  | feed {m rest codec b} (hpc : w.pc = .ready ∨ w.pc = .draining) (hr : w.rest = m :: rest)
      (he : E.encode w.sink.codec w.sink.buffer m = .bytes codec b) :
      StepR E w .feed { w with
        sink := w.sink.push codec b
        rest := rest
        bytes := w.bytes + ((w.sink.push codec b).buffer.length - w.sink.buffer.length)
        pc := .next rest
        encodings := w.encodings ++ [b] }
  | feedError {m rest e} (hpc : w.pc = .ready ∨ w.pc = .draining) (hr : w.rest = m :: rest)
      (he : E.encode w.sink.codec w.sink.buffer m = .error e) :
      StepR E w .feed { w with rest := rest, pc := .returned (.error (.failed e)) }
  | feedPanic {m rest} (hpc : w.pc = .ready ∨ w.pc = .draining) (hr : w.rest = m :: rest)
      (he : E.encode w.sink.codec w.sink.buffer m = .panic) : StepR E w .feed { w with rest := rest, pc := .panicked }
  | write {k} (hpc : w.pc = .draining ∨ w.pc = .flushing) : StepR E w (.write k) { w with sink := w.sink.write k }
  | pend (hpc : w.pc = .draining) : StepR E w .pend { w with pc := .parked }
  | pendFlush (hpc : w.pc = .flushing) : StepR E w .pend { w with pc := .flushParked }
  | resume (hpc : w.pc = .parked) : StepR E w .resume { w with pc := .ready }
  | resumeFlush (hpc : w.pc = .flushParked) : StepR E w .resume { w with pc := .flushing }
  | fail {e} (hpc : w.pc = .draining ∨ w.pc = .flushing) :
      StepR E w (.fail e) { w with pc := .returned (.error (.failed e)) }
  | timeOut (hpc : w.pc = .parked ∨ w.pc = .flushParked) :
      StepR E w .timeOut { w with pc := .returned (.error .timedOut) }
  | flushed (hpc : w.pc = .flushing) (hb : w.sink.buffer = []) :
      StepR E w .flushed { w with pc := .returned (.ok (w.msgs, w.bytes)) }

theorem Write.feed_sound {E : Encoder β σ μ ε} {w w' : Write β σ μ ε} (h : w.feed E = some w')
    (hpc : w.pc = .ready ∨ w.pc = .draining) : Write.StepR E w .feed w' := by
  unfold Write.feed at h
  split at h
  · cases h
  next m rest hr =>
    split at h
    next he => cases h; exact .feed hpc hr he
    next he => cases h; exact .feedError hpc hr he
    next he => cases h; exact .feedPanic hpc hr he

theorem Write.step_sound {E : Encoder β σ μ ε} {w w' : Write β σ μ ε} {a : WriteAct ε} (h : w.step E a = some w') :
    Write.StepR E w a w' := by
  cases a <;> simp only [Write.step] at h
  case drain =>
    split at h
    next hpc =>
      split at h
      · cases h; exact .drain hpc
      · cases h
    · cases h
  case feed =>
    split at h
    next hpc =>
      split at h
      · cases h
      · exact feed_sound h (.inl hpc)
    next hpc =>
      split at h
      · exact feed_sound h (.inr hpc)
      · cases h
    · cases h
  case write =>
    split at h
    next hpc =>
      split at h
      · cases h; exact .write (.inl hpc)
      · cases h
    next hpc =>
      split at h
      · cases h; exact .write (.inr hpc)
      · cases h
    · cases h
  case pend =>
    split at h
    next hpc => cases h; exact .pend hpc
    next hpc => cases h; exact .pendFlush hpc
    · cases h
  case resume =>
    split at h
    next hpc => cases h; exact .resume hpc
    next hpc => cases h; exact .resumeFlush hpc
    · cases h
  case fail =>
    split at h
    next hpc => cases h; exact .fail (.inl hpc)
    next hpc => cases h; exact .fail (.inr hpc)
    · cases h
  case timeOut =>
    split at h
    next hpc => cases h; exact .timeOut (.inl hpc)
    next hpc => cases h; exact .timeOut (.inr hpc)
    · cases h
  case flushed =>
    split at h
    next hpc =>
      split at h
      next hb => cases h; exact .flushed hpc (List.isEmpty_iff.mp hb)
      · cases h
    · cases h

/-! ## What a call has done -/

/-- The call has not returned. -/
def WritePc.live : WritePc ε → Bool
  | .returned _ | .panicked => false
  | _ => true

/-- A call begun with `messages` and the sink `sink₀`. -/
structure WriteOK (E : Encoder β σ μ ε) (sink₀ : Sink β σ) (messages : List μ) (w : Write β σ μ ε) : Prop where
  msgs : w.msgs = messages.length
  fed : E.Run sink₀.codec (messages.take w.encodings.length) w.encodings w.sink.codec
  rest : w.pc.live = true → w.rest = messages.drop w.encodings.length
  bytes : w.bytes = (w.encodings.map List.length).sum
  total : w.sink.total = sink₀.total ++ w.encodings.flatten
  flushing : w.pc = .flushing ∨ w.pc = .flushParked → w.rest = []
  returned : ∀ r, w.pc = .returned (.ok r) →
    w.encodings.length = messages.length ∧ w.sink.buffer = [] ∧ r = (w.msgs, w.bytes)

theorem WritePc.next_live (ε : Type) (rest : List μ) : (WritePc.next rest : WritePc ε).live = true := by
  unfold next
  split <;> rfl

theorem WritePc.next_flushing {rest : List μ}
    (h : (WritePc.next rest : WritePc ε) = .flushing ∨ (WritePc.next rest : WritePc ε) = .flushParked) : rest = [] := by
  unfold next at h
  split at h
  next he => exact List.isEmpty_iff.mp he
  · rcases h with h | h <;> cases h

namespace WriteOK

variable {E : Encoder β σ μ ε} {sink₀ : Sink β σ} {messages : List μ} {w w' : Write β σ μ ε}

theorem begin : WriteOK E sink₀ messages (.begin sink₀ messages) where
  msgs := rfl
  fed := .nil
  rest _ := rfl
  bytes := rfl
  total := by simp [Write.begin]
  flushing h := WritePc.next_flushing h
  returned r h := by
    have := WritePc.next_live ε messages
    rw [show WritePc.next messages = .returned (.ok r) from h] at this
    cases this

/-- As many encodings as messages were taken. -/
theorem le (h : WriteOK E sink₀ messages w) : w.encodings.length ≤ messages.length := by
  have := h.fed.length
  rw [List.length_take] at this
  omega

theorem complete (h : WriteOK E sink₀ messages w) (hl : w.pc.live = true) (hr : w.rest = []) :
    w.encodings.length = messages.length := by
  have hrest := h.rest hl
  rw [hr] at hrest
  have := List.drop_eq_nil_iff.mp hrest.symm
  have := h.le
  omega

/-- The call moves on, with no message fed. -/
theorem goto {pc : WritePc ε} (h : WriteOK E sink₀ messages w) (hl : w.pc.live = true)
    (hf : pc = .flushing ∨ pc = .flushParked → w.rest = []) (hr : ∀ r, pc ≠ .returned (.ok r)) :
    WriteOK E sink₀ messages { w with pc := pc } :=
  { h with
    rest := fun _ => h.rest hl
    flushing := hf
    returned := fun r he => absurd he (hr r) }

/-- A message that could not be encoded ends the call. -/
theorem refuse {pc : WritePc ε} {rest : List μ} (h : WriteOK E sink₀ messages w) (hl : pc.live = false)
    (hr : ∀ r, pc ≠ .returned (.ok r)) : WriteOK E sink₀ messages { w with rest := rest, pc := pc } :=
  { h with
    rest := fun hlive => by rw [hl] at hlive; cases hlive
    flushing := by rintro (rfl | rfl) <;> cases hl
    returned := fun r he => absurd he (hr r) }

theorem feed {m : μ} {rest : List μ} {codec : σ} {b : List β} (h : WriteOK E sink₀ messages w)
    (hl : w.pc.live = true) (hr : w.rest = m :: rest) (he : E.encode w.sink.codec w.sink.buffer m = .bytes codec b) :
    WriteOK E sink₀ messages { w with
      sink := w.sink.push codec b
      rest := rest
      bytes := w.bytes + ((w.sink.push codec b).buffer.length - w.sink.buffer.length)
      pc := .next rest
      encodings := w.encodings ++ [b] } where
  msgs := h.msgs
  fed := by
    have hdrop : messages.drop w.encodings.length = m :: rest := (h.rest hl).symm.trans hr
    have htake : messages.take (w.encodings ++ [b]).length = messages.take w.encodings.length ++ [m] := by
      rw [List.length_append, List.length_singleton, List.take_add_one, ← List.head?_drop, hdrop]
      rfl
    rw [htake]
    exact h.fed.snoc he
  rest _ := by
    have hdrop : messages.drop w.encodings.length = m :: rest := (h.rest hl).symm.trans hr
    rw [List.length_append, List.length_singleton, ← List.drop_drop, hdrop]
    rfl
  bytes := by simp [h.bytes, Sink.push]
  total := by simp [h.total]
  flushing hpc := WritePc.next_flushing hpc
  returned r hpc := by
    have := WritePc.next_live ε rest
    rw [show WritePc.next rest = .returned (.ok r) from hpc] at this
    cases this

theorem step {a : WriteAct ε} (h : WriteOK E sink₀ messages w) (hs : Write.StepR E w a w') :
    WriteOK E sink₀ messages w' := by
  have live : ∀ {p q : WritePc ε}, w.pc = p ∨ w.pc = q → p.live = true → q.live = true → w.pc.live = true := by
    rintro p q (hpc | hpc) hp hq <;> rwa [hpc]
  cases hs with
  | drain hpc => exact h.goto (by rw [hpc]; rfl) (by simp) (by simp)
  | feed hpc hr he => exact h.feed (live hpc rfl rfl) hr he
  | feedError => exact h.refuse rfl (by simp)
  | feedPanic => exact h.refuse rfl (by simp)
  | write hpc =>
    exact
      { h with
        total := by rw [Sink.write_total, h.total]
        returned := fun r he => by rcases hpc with hpc | hpc <;> · rw [hpc] at he; cases he }
  | pend hpc => exact h.goto (by rw [hpc]; rfl) (by simp) (by simp)
  | pendFlush hpc => exact h.goto (by rw [hpc]; rfl) (fun _ => h.flushing (.inl hpc)) (by simp)
  | resume hpc => exact h.goto (by rw [hpc]; rfl) (by simp) (by simp)
  | resumeFlush hpc => exact h.goto (by rw [hpc]; rfl) (fun _ => h.flushing (.inr hpc)) (by simp)
  | fail => exact h.refuse rfl (by simp)
  | timeOut => exact h.refuse rfl (by simp)
  | flushed hpc hb =>
    have hlen := h.complete (by rw [hpc]; rfl) (h.flushing (.inl hpc))
    exact
      { h with
        rest := fun hl => by cases hl
        flushing := by rintro (he | he) <;> cases he
        returned := fun r he => by cases he; exact ⟨hlen, hb, rfl⟩ }

end WriteOK

/-! ## Over whole calls -/

/-- A call of `write_batch` on its own. -/
def writeBatch (E : Encoder β σ μ ε) (sink : Sink β σ) (messages : List μ) :
    Machine (Write β σ μ ε) (WriteAct ε) :=
  ⟨.begin sink messages, Write.step E⟩

theorem writeOK_reachable {E : Encoder β σ μ ε} {sink : Sink β σ} {messages : List μ} {w : Write β σ μ ε}
    (h : (writeBatch E sink messages).Reachable w) : WriteOK E sink messages w :=
  h.invariant .begin fun _ ho _ hs => ho.step (Write.step_sound hs)

/-- What `write_batch` returns is exact: the encodings are all the messages',
in order, and the stream got them after what was in the buffer. -/
theorem writeBatch_exact (E : Encoder β σ μ ε) (sink : Sink β σ) (messages : List μ) (w : Write β σ μ ε)
    (h : (writeBatch E sink messages).Reachable w) (msgs bytes : Nat) (hr : w.pc = .returned (.ok (msgs, bytes))) :
    ∃ encodings codec, E.Run sink.codec messages encodings codec ∧ msgs = messages.length ∧
      bytes = (encodings.map List.length).sum ∧ w.sink.out = sink.out ++ (sink.buffer ++ encodings.flatten) := by
  have ok := writeOK_reachable h
  obtain ⟨hlen, hempty, hret⟩ := ok.returned _ hr
  obtain ⟨hmsgs, hbytes⟩ := Prod.mk.inj hret
  have hfed := ok.fed
  rw [hlen, List.take_length] at hfed
  refine ⟨w.encodings, w.sink.codec, hfed, hmsgs.trans ok.msgs, hbytes.trans ok.bytes, ?_⟩
  have htotal := ok.total
  rwa [Sink.total, Sink.total, hempty, List.append_nil, List.append_assoc] at htotal

/-- The buffer has three bytes, which is over the boundary: they are written
in two pieces before the first message, the first message before the second,
and the second at the end. -/
def overBoundary : List (WriteAct String) :=
  [.drain, .write 2, .pend, .resume, .drain, .write 1, .feed, .drain, .write 3, .feed, .pend, .resume, .write 1,
    .write 2, .flushed]

theorem writeBatch_exact_overBoundary :
    ∃ w, (writeBatch (lengthEncoder 2) ⟨(), [1, 2, 3], 1, []⟩ [[7, 7], [8, 9]]).Reachable w ∧
      w.pc = .returned (.ok (2, 6)) ∧ w.sink.out = [1, 2, 3, 2, 7, 7, 2, 8, 9] ∧
      ∃ encodings codec, (lengthEncoder 2).Run () [[7, 7], [8, 9]] encodings codec ∧
        6 = (encodings.map List.length).sum ∧ [1, 2, 3, 2, 7, 7, 2, 8, 9] = [1, 2, 3] ++ encodings.flatten := by
  obtain ⟨w, hw, hp⟩ := (writeBatch (lengthEncoder 2) ⟨(), [1, 2, 3], 1, []⟩ [[7, 7], [8, 9]]).exists_reachable
    overBoundary (fun w => w.pc = .returned (.ok (2, 6)) ∧ w.sink.out = [1, 2, 3, 2, 7, 7, 2, 8, 9])
    (by decide +kernel)
  obtain ⟨hpc, hout⟩ := of_decide_eq_true hp
  obtain ⟨encodings, codec, hrun, -, hbytes, hstream⟩ := writeBatch_exact _ _ _ w hw 2 6 hpc
  exact ⟨w, hw, hpc, hout, encodings, codec, hrun, hbytes, hout.symm.trans hstream⟩

end Pea2Pea.Writer
