/-
A connection delivers: as long as neither end fails, every message accepted by
`queue_message` at one node gets to `process_message` at the other, in order,
and every delivery that was asked for is confirmed.

Here a failure comes from outside, like a new message: the socket fails or the
time is up, a task is aborted or the user's code panics, the stream ends.
Without them the other end reads, so the socket takes what it is given, and a
message waits for nothing but steps the two nodes take by themselves, however
small the queues and the pieces the socket takes, if the inbound queue exerts
backpressure.
-/
import Pea2Pea.Fifo
import Pea2Pea.WriterQuiescence

namespace Pea2Pea.Pipe

open Framed

variable {β σ δ μ ε ε' : Type}

/-- A call of `write_batch` to a peer that reads, and in time. -/
def flow : Writer.WriteAct ε → Pace
  | .fail _ | .timeOut => .call
  | .write _ => .work
  | a => a.pace

/-- Failures and new messages come from outside. -/
def pace : Act β μ ε → Pace
  | .writer .close | .writer .abort => .call
  | .writer (.write a) => flow a
  | .writer a => Writer.pace a
  | .reader .stop | .reader .abortReader | .reader .panic | .reader .abortProc => .call
  | .reader _ => .work
  | .read n => if n = 0 then .call else .work

/-- What idles here, and what is called from outside, is that in the writer. -/
theorem pace_writer {b : Writer.Act μ ε} :
    (Writer.pace b = .idle ↔ pace (.writer b : Act β μ ε) = .idle) ∧
      (Writer.pace b = .call → pace (.writer b : Act β μ ε) = .call) := by
  cases b with
  | write w => cases w <;> simp [Writer.pace, Writer.WriteAct.pace, pace, flow]
  | _ => simp [Writer.pace, pace]

/-! ## The steps left -/

def readerRank : Reader.ReaderPc μ → Nat
  | .sending _ => 5
  | _ => 0

def procRank : Reader.ProcPc → Nat
  | .processing => 1
  | _ => 0

/-- The steps of the reader's end: for each message that is not decoded yet,
queued or processed, and for each byte on the way. -/
def State.readerLeft (s : State β σ δ μ ε) : Nat :=
  8 * (s.writer.accepted.length - s.reader.decoded.length) + readerRank s.reader.reader + 3 * s.reader.queue.length +
    procRank s.reader.proc + 2 * s.unread.length + s.reader.source.readable.toNat

def State.left (s : State β σ δ μ ε) : (ℕ ×ₗ ℕ) ×ₗ ℕ := toLex (s.writer.left, s.readerLeft)

/-! ## While nothing fails -/

/-- The call of `write_batch` has failed. -/
def hasFailed : Writer.WritePc ε → Bool
  | .returned (.error _) | .panicked => true
  | _ => false

theorem not_hasFailed_of_live {pc : Writer.WritePc ε} (h : pc.live = true) : hasFailed pc = false := by
  cases pc <;> first | rfl | cases h

/-- Nothing has failed at the writer's end, and the encoder takes what was
accepted. -/
structure Sound (E : Encoder β σ μ ε) (w : Writer.State β σ μ ε) : Prop where
  isOpen : w.isOpen = true
  task : w.pc.isEnded = false
  call : hasFailed w.write.pc = false
  encodes : ∀ m ∈ w.accepted, ∀ c buffer, ∃ c' b, E.encode c buffer m.msg = .bytes c' b

/-- Nothing has failed at the reader's end. -/
structure Live (r : Reader.State β δ μ) : Prop where
  reader : r.reader ≠ .ended
  proc : r.proc ≠ .ended
  eof : r.source.eof = false

section

variable {E : Encoder β σ μ ε} {wdepth : Nat} {D : Decoder β δ μ ε'} {rdepth : Nat} {s s' : State β σ δ μ ε}
  {a : Act β μ ε} {c : σ} {boundary : Nat} {conn node : Stats} {d : δ}

/-- What is being fed was accepted. -/
theorem mem_accepted_of_rest {w : Writer.State β σ μ ε}
    (h : (Writer.writer E wdepth ⟨c, [], boundary, []⟩ conn node).Reachable w) (hl : w.write.pc.live = true) {m : μ}
    (hm : m ∈ w.write.rest) : ∃ x ∈ w.accepted, x.msg = m := by
  obtain ⟨sink, hw, -, -⟩ := (Writer.batchesOK_reachable h).write
  rw [hw.rest hl] at hm
  obtain ⟨x, hx, rfl⟩ := List.mem_map.mp (List.mem_of_mem_drop hm)
  refine ⟨x, ?_, rfl⟩
  rw [(Writer.acceptedOK_reachable h).split]
  simp [hx]

theorem Sound.step {w w' : Writer.State β σ μ ε} {b : Writer.Act μ ε} (h : Sound E w)
    (hr : (Writer.writer E wdepth ⟨c, [], boundary, []⟩ conn node).Reachable w)
    (hs : Writer.step E wdepth w b = some w') (hp : pace (.writer b : Act β μ ε) ≠ .call) : Sound E w' := by
  have hC := (Writer.batchesOK_reachable hr).call
  unfold Writer.CallOK at hC
  cases Writer.step_sound hs with
  | queue => exact absurd rfl hp
  | close => exact absurd rfl hp
  | abort => exact absurd rfl hp
  | recv hpc => exact { h with task := rfl, call := not_hasFailed_of_live (Writer.WritePc.next_live ε _) }
  | recvClosed hpc =>
    simp [Writer.step, hpc, h.isOpen] at hs
  | write hpc hw =>
    refine { h with call := ?_ }
    have encodes : ∀ {m rest}, (w.write.pc = .ready ∨ w.write.pc = .draining) → w.write.rest = m :: rest →
        ∃ c' b, E.encode w.write.sink.codec w.write.sink.buffer m = .bytes c' b := by
      intro m rest hpc hrest
      obtain ⟨x, hx, rfl⟩ := mem_accepted_of_rest hr (by rcases hpc with hpc | hpc <;> rw [hpc] <;> rfl)
        (hrest ▸ List.mem_cons_self)
      exact h.encodes x hx _ _
    cases hw with
    | feed => exact not_hasFailed_of_live (Writer.WritePc.next_live ε _)
    | feedError hpc hrest he | feedPanic hpc hrest he =>
      obtain ⟨c', b, hb⟩ := encodes hpc hrest
      rw [hb] at he; cases he
    | write => exact h.call
    | drain | pend | pendFlush | resume | resumeFlush | flushed => rfl
    | fail | timeOut => exact absurd rfl hp
  | returned hpc hw => exact { h with task := rfl }
  | panicked hpc hw =>
    have := h.call
    rw [hw] at this; cases this
  | notify hpc | notified hpc => exact { h with task := rfl }
  | gaveUp hpc =>
    rw [hpc] at hC
    have := h.call
    rw [hC] at this; cases this
  | @register k msgs bytes hpc =>
    cases k
    · exact { h with task := rfl }
    · exact { h with task := rfl }
    · exact { h with task := rfl }
    · exact { h with task := rfl, call := rfl }
  | elsewhere => exact { h with }

/-- The codec finds nothing wrong with what was read. -/
theorem poll_accepts (hcodec : DecodesAll E c D d)
    (h : (pipe E wdepth D rdepth true c boundary conn node d).Reachable s) (hl : Live s.reader) :
    (s.reader.source.poll D).2.2 = .more ∨ ∃ m, (s.reader.source.poll D).2.2 = .item m := by
  obtain ⟨src, hy, hsrc⟩ := (Reader.readerOK_reachable (projects_reader.reachable h)).yields
  obtain ⟨ms, bs, c', -, hrun, hout⟩ := written_of_accepted (projects_writer.reachable h)
  rw [← hsrc hl.reader]
  refine hcodec.accepts hrun hy ((read_of_written h).trans hout) ?_
  rw [hsrc hl.reader]
  exact hl.eof

theorem Live.deliver {r : Reader.State β δ μ} {m : μ} (h : Live r) : Live (r.deliver rdepth true m) := by
  simp only [Reader.State.deliver, if_true]
  exact ⟨by simp, h.proc, h.eof⟩

theorem Live.step {b : Reader.Act β} {r : Reader.State β δ μ} (hcodec : DecodesAll E c D d)
    (h : (pipe E wdepth D rdepth true c boundary conn node d).Reachable s) (hl : Live s.reader)
    (hs : Reader.step D rdepth true s.reader b = some r) (hb : ∀ chunk, b ≠ .read chunk)
    (hp : pace (.reader b : Act β μ ε) ≠ .call) : Live r := by
  cases b with
  | read chunk => exact absurd rfl (hb chunk)
  | stop | abortReader | panic | abortProc => exact absurd rfl hp
  | decode =>
    simp only [Reader.step] at hs
    split at hs
    · split at hs
      · have haccepts := poll_accepts hcodec h hl
        split at hs
        · cases hs
          exact Live.deliver ⟨hl.reader, hl.proc, hl.eof⟩
        · cases hs
          refine ⟨?_, hl.proc, hl.eof⟩
          simp [hl.eof]
        next he => rw [he] at haccepts; simp at haccepts
        next he => rw [he] at haccepts; simp at haccepts
      · cases hs
    · cases hs
  | send =>
    simp only [Reader.step] at hs
    split at hs
    · rw [if_neg hl.proc] at hs
      split at hs
      · cases hs
        exact ⟨by simp, hl.proc, hl.eof⟩
      · cases hs
    · cases hs
  | take =>
    simp only [Reader.step] at hs
    split at hs
    · cases hs
      exact ⟨hl.reader, by simp, hl.eof⟩
    · cases hs
  | processed =>
    simp only [Reader.step] at hs
    split at hs
    · cases hs
      exact ⟨hl.reader, by simp, hl.eof⟩
    · cases hs
  | drained =>
    simp only [Reader.step] at hs
    split at hs
    next he => exact absurd he hl.reader
    · cases hs

/-- Where the two ends are while nothing fails. -/
structure Healthy (E : Encoder β σ μ ε) (s : State β σ δ μ ε) : Prop where
  writer : Sound E s.writer
  reader : Live s.reader

theorem Healthy.step (hcodec : DecodesAll E c D d)
    (h : (pipe E wdepth D rdepth true c boundary conn node d).Reachable s) (hh : Healthy E s)
    (hs : Pipe.step E wdepth D rdepth true s a = some s') (hp : pace a ≠ .call) : Healthy E s' := by
  cases a with
  | writer b =>
    obtain ⟨w, hw, rfl⟩ := Option.map_eq_some_iff.mp hs
    exact ⟨hh.writer.step (projects_writer.reachable h) hw hp, hh.reader⟩
  | reader b =>
    cases step_sound hs with
    | reader hn hr => exact ⟨hh.writer, hh.reader.step hcodec h hr hn hp⟩
  | read n =>
    simp only [Pipe.step] at hs
    split at hs
    next hn =>
      obtain ⟨r, hr, rfl⟩ := Option.map_eq_some_iff.mp hs
      refine ⟨hh.writer, ?_⟩
      simp only [Reader.step] at hr
      split at hr
      · cases hr
        refine ⟨hh.reader.reader, hh.reader.proc, ?_⟩
        have hpos : n ≠ 0 := fun h0 => hp (if_pos h0)
        have hne : s.unread.take n ≠ [] := by
          rw [ne_eq, List.take_eq_nil_iff, not_or]
          exact ⟨hpos, List.ne_nil_of_length_pos (by omega)⟩
        simpa [Source.read, List.isEmpty_iff] using hne
      · cases hr
    · cases hs

/-! ## The measure -/

/-- No more is decoded than was accepted. -/
theorem decoded_le (hcodec : Decodes E c D d)
    (h : (pipe E wdepth D rdepth true c boundary conn node d).Reachable s) :
    s.reader.decoded.length ≤ s.writer.accepted.length := by
  simpa using (decoded_of_accepted hcodec h).length_le

/-- A step of the reader's end but for a read. -/
theorem readerLeft_lt {b : Reader.Act β} {r : Reader.State β δ μ} (hl : Live r)
    (hs : Reader.StepR D rdepth true s.reader b r) (hb : ∀ chunk, b ≠ .read chunk)
    (hle : r.decoded.length ≤ s.writer.accepted.length) :
    State.readerLeft { s with reader := r } < s.readerLeft := by
  have hunread : State.unread { s with reader := r } = s.unread := by
    rcases chunks_eq hs with he | ⟨chunk, ha, -⟩
    · simp only [State.unread, he]
    · exact absurd ha (hb chunk)
  cases hs with
  | read => exact absurd rfl (hb _)
  | item hr hn =>
    simp only [Reader.State.deliver, if_true, List.length_append, List.length_singleton] at hle
    simp only [State.readerLeft, hunread]
    simp only [Reader.State.deliver, if_true, List.length_append, List.length_singleton, readerRank, hr]
    omega
  | more hr hn =>
    simp only [State.readerLeft, hunread, hr, hn, Bool.toNat_true, Bool.toNat_false]
    split <;> simp only [readerRank] <;> omega
  | send hr hq =>
    simp only [State.readerLeft, hunread, hr, readerRank, List.length_append, List.length_singleton]
    omega
  | endReader => exact absurd rfl hl.reader
  | take hq =>
    simp only [State.readerLeft, hunread, hq, procRank, List.length_cons]
    omega
  | processed hp =>
    simp only [State.readerLeft, hunread, hp, procRank]
    omega
  | endProc => exact absurd rfl hl.proc

theorem unread_read {n : Nat} {r : Reader.State β δ μ} (hle : n ≤ s.unread.length)
    (hr : r.chunks = s.reader.chunks ++ [s.unread.take n]) :
    (State.unread { s with reader := r }).length + n = s.unread.length := by
  have hlen : (s.unread.take n).length = n := List.length_take_of_le hle
  simp only [State.unread, List.length_drop] at hle ⊢
  rw [hr, List.flatten_append, List.flatten_singleton, List.length_append, hlen]
  omega

theorem readerLeft_read {n : Nat} {r : Reader.State β δ μ} (hn : 0 < n) (hle : n ≤ s.unread.length)
    (hr : Reader.step D rdepth true s.reader (.read (s.unread.take n)) = some r) :
    State.readerLeft { s with reader := r } < s.readerLeft := by
  simp only [Reader.step] at hr
  split at hr
  next hw =>
    cases hr
    have hread : s.reader.source.readable = false := by
      unfold Reader.State.awaitsRead at hw
      split at hw
      · simpa using hw
      · cases hw
    have hunread := unread_read (r := { s.reader with
      source := s.reader.source.read (s.unread.take n), chunks := s.reader.chunks ++ [s.unread.take n] }) hle rfl
    simp only [State.readerLeft, hread, Bool.toNat_false]
    simp only [Source.read, Bool.toNat_true] at hunread ⊢
    omega
  · cases hr

theorem left_lt_of_reader (hw : s'.writer.left = s.writer.left) (h : s'.readerLeft < s.readerLeft) :
    s'.left < s.left :=
  Prod.Lex.toLex_lt_toLex.mpr (.inr ⟨hw, h⟩)

/-- Any step but one from outside and idling. -/
theorem left_lt (hcodec : DecodesAll E c D d)
    (h : (pipe E wdepth D rdepth true c boundary conn node d).Reachable s) (hh : Healthy E s)
    (hs : Pipe.step E wdepth D rdepth true s a = some s') (hi : pace a ≠ .idle) (hp : pace a ≠ .call) :
    s'.left < s.left := by
  have hnext : (pipe E wdepth D rdepth true c boundary conn node d).Reachable s' := .step h trivial hs
  cases a with
  | writer b =>
    obtain ⟨w, hw, rfl⟩ := Option.map_eq_some_iff.mp hs
    obtain ⟨hidle, hcall⟩ := pace_writer (b := b) (β := β)
    have hlt := Writer.left_lt hw (fun hc => hp (hcall hc)) fun hb => hi (hidle.mp hb)
    exact Prod.Lex.toLex_lt_toLex.mpr (.inl hlt)
  | reader b =>
    have hl := (hh.step hcodec h hs hp).reader
    have hle := decoded_le hcodec.decodes hnext
    cases step_sound hs with
    | reader hn hr => exact left_lt_of_reader rfl (readerLeft_lt hl (Reader.step_sound hr) hn hle)
  | read n =>
    simp only [Pipe.step] at hs
    split at hs
    next hn =>
      obtain ⟨r, hr, rfl⟩ := Option.map_eq_some_iff.mp hs
      have hpos : n ≠ 0 := fun h0 => hp (if_pos h0)
      exact left_lt_of_reader rfl (readerLeft_read (Nat.pos_of_ne_zero hpos) hn hr)
    · cases hs

theorem left_idle (hs : Pipe.step E wdepth D rdepth true s a = some s') (hi : pace a = .idle) : s'.left = s.left := by
  cases a with
  | writer b =>
    obtain ⟨w, hw, rfl⟩ := Option.map_eq_some_iff.mp hs
    obtain ⟨hleft, hsink, haccepted⟩ := Writer.left_idle hw (pace_writer.1.mpr hi)
    simp only [State.left, State.readerLeft, State.unread, hleft, hsink, haccepted]
  | reader b => cases b <;> cases hi
  | read n =>
    simp only [pace] at hi
    split at hi <;> cases hi

/-! ## At rest -/

section

variable {sink : Sink β σ} {messages : List μ} {w : Writer.Write β σ μ ε}
  (h : (Writer.writeBatch E sink messages).AtRest (fun _ => flow) w)

include h

/-- What is in the buffer, the socket can take. -/
theorem flushed_rest (hw : w.pc = .draining ∨ w.pc = .flushing) : w.sink.buffer = [] := by
  by_contra hb
  have := h.stuck (a := .write 1) rfl
  rcases hw with hw | hw <;>
    simp [Writer.writeBatch, Writer.Write.step, hw, Nat.succ_le_iff, List.length_pos_iff, hb] at this

theorem draining_rest (hne : w.rest ≠ []) : w.pc ≠ .draining := by
  intro hpc
  have := h.stuck (a := .feed) rfl
  simp only [Writer.writeBatch, Writer.Write.step, hpc, flushed_rest h (.inl hpc), List.isEmpty_nil, if_true] at this
  exact Writer.Write.feed_ne_none hne this

theorem ready_rest (hne : w.rest ≠ []) : w.pc ≠ .ready :=
  Writer.Write.ready_rest rfl rfl h (fun hrest => draining_rest hrest hne rfl) hne

theorem flushing_rest : w.pc ≠ .flushing := by
  intro hpc
  have := h.stuck (a := .flushed) rfl
  simp [Writer.writeBatch, Writer.Write.step, hpc, flushed_rest h (.inr hpc)] at this

/-- A call of `write_batch` at rest is over: a pending one is polled again,
and finds the socket ready. -/
theorem over_rest (hf : w.Feeding) : w.pc.live = false := by
  cases hpc : w.pc with
  | returned | panicked => rfl
  | ready => exact absurd hpc (ready_rest h (hf (.inl hpc)))
  | draining => exact absurd hpc (draining_rest h (hf (.inr (.inl hpc))))
  | flushing => exact absurd hpc (flushing_rest h)
  | parked =>
    have hrest : (Writer.writeBatch E sink messages).AtRest (fun _ => flow) { w with pc := .ready } :=
      h.idle (a := .resume) rfl (by simp [Writer.writeBatch, Writer.Write.step, hpc])
    exact absurd rfl (ready_rest hrest (hf (.inr (.inr hpc))))
  | flushParked =>
    have hrest : (Writer.writeBatch E sink messages).AtRest (fun _ => flow) { w with pc := .flushing } :=
      h.idle (a := .resume) rfl (by simp [Writer.writeBatch, Writer.Write.step, hpc])
    exact absurd rfl (flushing_rest hrest)

end

section

variable (hr : (pipe E wdepth D rdepth true c boundary conn node d).Reachable s) (hh : Healthy E s)
  (h : (pipe E wdepth D rdepth true c boundary conn node d).AtRest (fun _ => pace) s)

include hr h

theorem not_writing : s.writer.pc ≠ .writing := by
  intro hpc
  have hcall : (Writer.writeBatch E s.writer.write.sink []).AtRest (fun _ => flow) s.writer.write := by
    refine Machine.AtRest.component (f := fun w => { s with writer := { s.writer with write := w } })
      (I := fun _ => True) h trivial
      (fun {w w' b} _ hb hs => ⟨trivial, .writer (.write b), ?_, ?_⟩)
      fun {w w' b} _ hb hs => ⟨.writer (.write b), ?_, ?_⟩
    · exact hb
    · simp [pipe, Pipe.step, Writer.step, hpc, show w.step E b = some w' from hs]
    · exact hb
    · simp [pipe, Pipe.step, Writer.step, hpc, show w.step E b = some w' from hs]
  have hover := over_rest hcall (Writer.feeding_reachable (projects_writer.reachable hr))
  have hconclude := h.stuck (a := .writer .conclude) rfl
  cases hp : s.writer.write.pc with
  | returned | panicked => simp [pipe, Pipe.step, Writer.step, hpc, hp] at hconclude
  | _ => rw [hp] at hover; cases hover

include hh

omit hr in
/-- Everything that was queued inbound is processed. -/
theorem queue_rest : s.reader.queue = [] := by
  have htake := h.stuck (a := .reader .take) rfl
  have hdone := h.stuck (a := .reader .processed) rfl
  cases hq : s.reader.queue with
  | nil => rfl
  | cons m queue =>
    cases hp : s.reader.proc with
    | receiving => simp [pipe, Pipe.step, Reader.step, hp, hq] at htake
    | processing => simp [pipe, Pipe.step, Reader.step, hp] at hdone
    | ended => exact absurd hp hh.reader.proc

omit hr in
/-- The reader waits for the socket, and has read all there is. -/
theorem reader_rest (hd : 0 < rdepth) :
    s.reader.reader = .polling ∧ s.reader.source.readable = false ∧ s.unread = [] := by
  have hsend := h.stuck (a := .reader .send) rfl
  have hdecode := h.stuck (a := .reader .decode) rfl
  cases hp : s.reader.reader with
  | ended => exact absurd hp hh.reader.reader
  | sending m =>
    simp [pipe, Pipe.step, Reader.step, hp, hh.reader.proc, queue_rest hh h, hd] at hsend
  | polling =>
    have hread : s.reader.source.readable = false := by
      by_contra hn
      simp only [pipe, Pipe.step, Reader.step, hp, Option.map_eq_none_iff] at hdecode
      rw [if_pos (by simpa using hn)] at hdecode
      split at hdecode <;> cases hdecode
    refine ⟨rfl, hread, ?_⟩
    by_contra hne
    have := h.stuck (a := .read 1) rfl
    simp [pipe, Pipe.step, Reader.step, Reader.State.awaitsRead, hp, hread, Nat.succ_le_iff, List.length_pos_iff, hne]
      at this

/-- The writer waits for the next message, with nothing queued. -/
theorem writer_rest (hw : 0 < wdepth) : s.writer.pc = .receiving ∧ s.writer.queue = [] := by
  cases hpc : s.writer.pc with
  | receiving =>
    refine ⟨rfl, ?_⟩
    cases hq : s.writer.queue with
    | nil => rfl
    | cons m queue =>
      have := h.stuck (a := .writer (.recv 1)) rfl
      simp [pipe, Pipe.step, Writer.step, hpc, hq, Nat.succ_le_of_lt hw] at this
  | writing => exact absurd hpc (not_writing hr h)
  | notifying r left =>
    have := h.stuck (a := .writer .notify) rfl
    cases left with
    | nil => cases r <;> simp [pipe, Pipe.step, Writer.step, hpc] at this
    | cons => simp [pipe, Pipe.step, Writer.step, hpc] at this
  | registering k msgs bytes =>
    have := h.stuck (a := .writer .register) rfl
    simp [pipe, Pipe.step, Writer.step, hpc] at this
  | ended =>
    have := hh.writer.task
    rw [hpc] at this; cases this

end

end

/-- What was accepted was processed, in order, and every delivery that was
asked for confirmed. -/
structure Delivered (s : State β σ δ μ ε) : Prop where
  processed : s.reader.processed = s.writer.accepted.map (·.msg)
  confirmed : ∀ i ∈ s.writer.asked, s.writer.fate i = .ok

theorem delivered_rest {E : Encoder β σ μ ε} {wdepth : Nat} {D : Decoder β δ μ ε'} {rdepth : Nat}
    {s : State β σ δ μ ε} {c : σ} {boundary : Nat} {conn node : Stats} {d : δ} (hcodec : DecodesAll E c D d)
    (hw : 0 < wdepth) (hd : 0 < rdepth)
    (hr : (pipe E wdepth D rdepth true c boundary conn node d).Reachable s) (hh : Healthy E s)
    (h : (pipe E wdepth D rdepth true c boundary conn node d).AtRest (fun _ => pace) s) : Delivered s := by
  have hwr := projects_writer.reachable hr
  have hR := Reader.readerOK_reachable (projects_reader.reachable hr)
  obtain ⟨hpc, hq⟩ := writer_rest hr hh h hw
  obtain ⟨hpolling, hread, hunread⟩ := reader_rest hh h hd
  have hresolved := Writer.resolved_rest hwr (.inl ⟨hpc, hq⟩)
  obtain ⟨hfates, hsent⟩ := hresolved.delivered hh.writer.task
  refine ⟨?_, hfates⟩
  -- the stream is the encodings of all that was accepted
  obtain ⟨sink, hcall, hrun, htotal⟩ := (Writer.batchesOK_reachable hwr).write
  have hnone : s.writer.write.encodings = [] := by
    have := hcall.le
    simp only [(Writer.acceptedOK_reachable hwr).idle hpc, List.map_nil, List.length_nil, Nat.le_zero] at this
    exact List.length_eq_zero_iff.mp this
  have hout : s.writer.write.sink.out = s.writer.encoded.flatten := by
    have := hcall.total
    rw [hnone, htotal, Sink.total, Writer.buffer_receiving rfl hwr hpc] at this
    simpa [Sink.total] using this
  -- it was read to its end, and decoded
  have hchunks : s.reader.chunks.flatten = s.writer.encoded.flatten := by
    rw [← hout]
    refine (read_of_written hr).eq_of_length_le ?_
    exact List.drop_eq_nil_iff.mp hunread
  obtain ⟨src, hy, hsrc⟩ := hR.yields
  rw [hsrc hh.reader.reader] at hy
  have hdecoded := hcodec.complete hrun hy hchunks hread hh.reader.eof
  -- and nothing is on its way through the inbound queue
  obtain ⟨hand, horder, hhand, -⟩ := hR.order
  rw [hpolling] at hhand
  rw [queue_rest hh h, show hand = [] from hhand, List.append_nil, List.append_nil, Reader.State.kept,
    List.filter_eq_self.mpr (hR.lossless rfl)] at horder
  rw [← horder, hdecoded, hsent]

/-- A connection delivers: from every state in which nothing has failed, with
no failures and no new messages, only finitely many steps other than idle
polls are left; and where they are done, every accepted message was passed
to `process_message`, in order, and every delivery that was asked for was
confirmed. -/
theorem pipe_delivers (E : Encoder β σ μ ε) (wdepth : Nat) (D : Decoder β δ μ ε') (rdepth : Nat) (c : σ)
    (boundary : Nat) (conn node : Stats) (d : δ) (hcodec : DecodesAll E c D d) (hw : 0 < wdepth) (hd : 0 < rdepth)
    (s : State β σ δ μ ε) (h : (pipe E wdepth D rdepth true c boundary conn node d).Reachable s)
    (hh : Healthy E s) :
    (pipe E wdepth D rdepth true c boundary conn node d).Settles (fun _ => pace) Delivered s := by
  exact Machine.settles_of_measure
    (I := fun s => (pipe E wdepth D rdepth true c boundary conn node d).Reachable s ∧ Healthy E s) State.left
    (fun hi hp hs => ⟨.step hi.1 trivial hs, hi.2.step hcodec hi.1 hs hp⟩)
    (fun _ hidle hs => (left_idle hs hidle).le)
    (fun hi hn hp hs => left_lt hcodec hi.1 hi.2 hs hn hp)
    (fun hi hrest => delivered_rest hcodec hw hd hi.1 hi.2 hrest) ⟨h, hh⟩

/-- Of three messages, one is being processed, one half written and one
queued. -/
def underway : List (Act UInt8 (List UInt8) String) :=
  [.writer (.queue [7] true), .writer (.queue [8, 9] false), .writer (.recv 2), .writer (.write .feed),
    .writer (.write .feed), .writer (.write (.write 3)), .writer (.write .pend), .read 3, .reader .decode, .reader .send,
    .reader .take, .reader .decode, .writer (.queue [5] true)]

theorem pipe_delivers_underway :
    ∃ s, (pipe (lengthEncoder 9) 4 (Reader.countingDecoder lengthDecoder) 1 true () 64 .new .new
        ⟨(), .new, .new, 0⟩).Reachable s ∧
      s.reader.processed = [[7]] ∧ s.writer.asked.map s.writer.fate = [.pending, .pending] ∧
      Healthy (lengthEncoder 9) s ∧
      (pipe (lengthEncoder 9) 4 (Reader.countingDecoder lengthDecoder) 1 true () 64 .new .new
        ⟨(), .new, .new, 0⟩).Settles (fun _ => pace) Delivered s := by
  obtain ⟨s, hs, hp⟩ := (pipe (lengthEncoder 9) 4 (Reader.countingDecoder lengthDecoder) 1 true () 64 .new .new
      ⟨(), .new, .new, 0⟩).exists_reachable underway
    (fun s => s.reader.processed = [[7]] ∧ s.writer.asked.map s.writer.fate = [.pending, .pending] ∧
      (s.writer.isOpen = true ∧ s.writer.pc.isEnded = false ∧ hasFailed s.writer.write.pc = false ∧
        ∀ m ∈ s.writer.accepted, m.msg.length ≤ 9) ∧
      s.reader.awaitsRead = true ∧ s.reader.proc ≠ .ended ∧ s.reader.source.eof = false)
    (by decide +kernel)
  obtain ⟨hprocessed, hfates, ⟨hopen, htask, hcall, hlen⟩, hwaits, hproc, heof⟩ := of_decide_eq_true hp
  have hh : Healthy (lengthEncoder 9) s := by
    refine ⟨⟨hopen, htask, hcall, fun m hm c buffer => ?_⟩, ⟨fun he => ?_, hproc, heof⟩⟩
    · exact ⟨(), _, if_pos ⟨hlen m hm, by decide⟩⟩
    · simp [Reader.State.awaitsRead, he] at hwaits
  exact ⟨s, hs, hprocessed, hfates, hh,
    pipe_delivers _ _ _ _ _ _ _ _ _ (Reader.countingDecoder_decodesAll (lengthDecoder_decodesAll 9)) (by decide)
      (by decide) s hs hh⟩

end Pea2Pea.Pipe
