/-
Per-connection FIFO from `queue_message` at one node to `process_message`
at the other.

The writer's stream is a concatenation of the encodings of the accepted
messages, cut off somewhere; the reader sees a prefix of it, in chunks of
any size. So a decoder that takes every chunking of such a stream for the
messages in it yields a prefix of the accepted messages, and the inbound
queue passes that on in order, without loss if it exerts backpressure. The
reader's decoder is a `CountingCodec`, which takes a stream for what the
user's decoder inside it takes it for (`countingDecoder_decodes`).
-/
import Pea2Pea.Counting
import Pea2Pea.Deliveries
import Pea2Pea.ReaderTask

namespace Pea2Pea.Reader

open Framed

variable {β δ μ ε : Type} {D : Decoder β δ μ ε} {depth : Nat} {backpressure : Bool} {d : δ} {s s' : State β δ μ}
  {a : Act β}

/-! ## From the decoder to `process_message` -/

/-- The decoded messages that got into the queue, or wait to. -/
def State.kept (s : State β δ μ) : List μ := (s.decoded.filter (·.kept)).map (·.msg)

/-- The message in the reader's hands, as far as the reader's place tells. -/
def ReaderPc.Holds (hand : List μ) : ReaderPc μ → Prop
  | .polling => hand = []
  | .sending m => hand = [m]
  | .ended => True

structure ReaderOK (D : Decoder β δ μ ε) (d : δ) (depth : Nat) (backpressure : Bool) (s : State β δ μ) : Prop where
  yields : ∃ src, D.Yields d src s.chunks (s.decoded.map (·.msg)) ∧ (s.reader ≠ .ended → src = s.source)
  bounded : s.queue.length ≤ depth
  order : ∃ hand, s.kept = s.processed ++ s.queue ++ hand ∧ s.reader.Holds hand ∧ (backpressure = false → hand = [])
  lossless : backpressure = true → ∀ e ∈ s.decoded, e.kept = true
  missing : ∀ e ∈ s.decoded, e.kept = false → e.queued = depth ∨ e.late = true

theorem deliver_chunks (s : State β δ μ) (m : μ) : (s.deliver depth backpressure m).chunks = s.chunks := by
  unfold State.deliver
  dsimp only
  repeat' split
  all_goals rfl

/-- A message is decoded and put where it goes. -/
theorem ReaderOK.deliver {codec : δ} {buffer : List β} {m : μ} (h : ReaderOK D d depth backpressure s)
    (hr : s.reader = .polling) (hn : s.source.readable = true) (hp : s.source.poll D = (codec, buffer, .item m)) :
    ReaderOK D d depth backpressure
      ({ s with source := { s.source with codec := codec, buffer := buffer } }.deliver depth backpressure m) := by
  obtain ⟨src, hy, hsrc⟩ := h.yields
  obtain ⟨hand, hkept, hhand, hnone⟩ := h.order
  have hlive := hsrc (by simp [hr])
  subst hlive
  have hitem := hy.item hn hp
  rw [hr] at hhand
  cases hhand
  have hfull : ∀ q ≤ depth, ¬ q < depth → q = depth := fun q hq hnq => Nat.le_antisymm hq (Nat.not_lt.mp hnq)
  unfold State.deliver
  cases backpressure with
  | true =>
    refine ⟨⟨_, by simpa using hitem, fun _ => rfl⟩, h.bounded, ⟨[m], ?_, rfl, by simp⟩, ?_, ?_⟩
    · simpa [State.kept] using congrArg (· ++ [m]) hkept
    · intro _ e he
      rcases List.mem_append.mp he with he | he
      · exact h.lossless rfl e he
      · rw [List.mem_singleton.mp he]
    · intro e he hk
      rcases List.mem_append.mp he with he | he
      · exact h.missing e he hk
      · rw [List.mem_singleton.mp he] at hk; cases hk
  | false =>
    -- what happens to a message that is not kept
    have drop : ∀ {late : Bool}, (s.queue.length = depth ∨ late = true) →
        ∀ e ∈ s.decoded ++ [⟨m, s.queue.length, late, false⟩], e.kept = false → e.queued = depth ∨ e.late = true := by
      intro late hlate e he hk
      rcases List.mem_append.mp he with he | he
      · exact h.missing e he hk
      · rw [List.mem_singleton.mp he]
        exact hlate
    simp only [Bool.false_eq_true, if_false]
    split
    next hlate =>
      refine ⟨⟨_, by simpa using hitem, by simp⟩, h.bounded, ⟨[], ?_, trivial, by simp⟩, by simp, drop (.inr rfl)⟩
      simpa [State.kept] using hkept
    · split
      next hq =>
        refine ⟨⟨_, by simpa using hitem, fun _ => rfl⟩, ?_, ⟨[], ?_, by rw [hr]; rfl, by simp⟩, by simp, ?_⟩
        · simpa using Nat.succ_le_of_lt hq
        · simpa [State.kept] using congrArg (· ++ [m]) hkept
        · intro e he hk
          rcases List.mem_append.mp he with he | he
          · exact h.missing e he hk
          · rw [List.mem_singleton.mp he] at hk; cases hk
      next hq =>
        refine ⟨⟨_, by simpa using hitem, fun _ => rfl⟩, h.bounded, ⟨[], ?_, by rw [hr]; rfl, by simp⟩, by simp,
          drop (.inl (hfull _ h.bounded hq))⟩
        simpa [State.kept] using hkept

theorem StepR.readerOK (h : ReaderOK D d depth backpressure s) (hs : StepR D depth backpressure s a s') :
    ReaderOK D d depth backpressure s' := by
  obtain ⟨src, hy, hsrc⟩ := h.yields
  obtain ⟨hand, hkept, hhand, hnone⟩ := h.order
  cases hs with
  | read hr hn =>
    have hlive := hsrc (by simp [hr])
    subst hlive
    exact { h with yields := ⟨_, hy.read hn _, fun _ => rfl⟩ }
  | item hr hn hp => exact h.deliver hr hn hp
  | more hr hn hp =>
    have hlive := hsrc (by simp [hr])
    subst hlive
    rw [hr] at hhand
    refine { h with yields := ⟨_, hy.more hn hp, fun _ => rfl⟩, order := ⟨hand, hkept, ?_, hnone⟩ }
    dsimp only
    split
    · trivial
    · exact hhand
  | @send m hr hq =>
    rw [hr] at hhand
    cases hhand
    refine { h with yields := ⟨src, hy, fun _ => hsrc (by simp [hr])⟩, bounded := ?_, order := ⟨[], ?_, rfl, by simp⟩ }
    · simpa using Nat.succ_le_of_lt hq
    · simpa [State.kept] using hkept
  | endReader => exact { h with yields := ⟨src, hy, by simp⟩, order := ⟨hand, hkept, trivial, hnone⟩ }
  | @take m queue hq =>
    have hb := h.bounded
    rw [hq] at hkept hb
    refine { h with bounded := ?_, order := ⟨hand, ?_, hhand, hnone⟩ }
    · exact Nat.le_of_succ_le hb
    · simpa [State.kept] using hkept
  | processed => exact { h with }
  | endProc => exact { h with }

theorem readerOK_reachable (h : (reader D depth backpressure d).Reachable s) : ReaderOK D d depth backpressure s := by
  refine h.invariant ?_ fun _ ho _ hs => (step_sound hs).readerOK ho
  exact ⟨⟨_, .new, fun _ => rfl⟩, Nat.zero_le _, ⟨[], rfl, rfl, fun _ => rfl⟩, by simp [reader, State.init],
    by simp [reader, State.init]⟩

end Pea2Pea.Reader

namespace Pea2Pea.Pipe

open Framed

variable {β σ δ μ ε ε' : Type}

/-! ## A writer and a reader at the two ends of a stream -/

structure State (β σ δ μ ε : Type) where
  writer : Writer.State β σ μ ε
  reader : Reader.State β δ μ

inductive Act (β μ ε : Type)
  | writer (a : Writer.Act μ ε)
  /-- Any step of the reader's side but a read. -/
  | reader (a : Reader.Act β)
  /-- The reader reads `n` of the bytes that were written and not read yet;
  none, if the stream ends there. -/
  | read (n : Nat)

/-- The bytes on the way. -/
def State.unread (s : State β σ δ μ ε) : List β := s.writer.write.sink.out.drop s.reader.chunks.flatten.length

section

variable (E : Encoder β σ μ ε) (wdepth : Nat) (D : Decoder β δ μ ε') (rdepth : Nat) (backpressure : Bool)

def step (s : State β σ δ μ ε) : Act β μ ε → Option (State β σ δ μ ε)
  | .writer a => (Writer.step E wdepth s.writer a).map fun w => { s with writer := w }
  | .reader (.read _) => none
  | .reader a => (Reader.step D rdepth backpressure s.reader a).map fun r => { s with reader := r }
  | .read n =>
    if n ≤ s.unread.length then
      (Reader.step D rdepth backpressure s.reader (.read (s.unread.take n))).map fun r => { s with reader := r }
    else none

/-- A connection with nothing sent yet: the writer's codec is in `c`, and
its buffer's boundary any. -/
def pipe (c : σ) (boundary : Nat) (conn node : Stats) (d : δ) : Machine (State β σ δ μ ε) (Act β μ ε) :=
  ⟨⟨.init ⟨c, [], boundary, []⟩ conn node, .init d⟩, step E wdepth D rdepth backpressure⟩

end

inductive StepR (E : Encoder β σ μ ε) (wdepth : Nat) (D : Decoder β δ μ ε') (rdepth : Nat) (backpressure : Bool)
    (s : State β σ δ μ ε) : Act β μ ε → State β σ δ μ ε → Prop
  | writer {a w} (hw : Writer.step E wdepth s.writer a = some w) :
      StepR E wdepth D rdepth backpressure s (.writer a) { s with writer := w }
  | reader {a r} (hn : ∀ chunk, a ≠ .read chunk) (hr : Reader.step D rdepth backpressure s.reader a = some r) :
      StepR E wdepth D rdepth backpressure s (.reader a) { s with reader := r }
  | read {n r} (hr : Reader.step D rdepth backpressure s.reader (.read (s.unread.take n)) = some r) :
      StepR E wdepth D rdepth backpressure s (.read n) { s with reader := r }

section

variable {E : Encoder β σ μ ε} {wdepth : Nat} {D : Decoder β δ μ ε'} {rdepth : Nat} {backpressure : Bool}
  {s s' : State β σ δ μ ε} {a : Act β μ ε} {c : σ} {boundary : Nat} {conn node : Stats} {d : δ}

theorem step_sound (h : step E wdepth D rdepth backpressure s a = some s') :
    StepR E wdepth D rdepth backpressure s a s' := by
  unfold step at h
  split at h
  next =>
    obtain ⟨w, hw, rfl⟩ := Option.map_eq_some_iff.mp h
    exact .writer hw
  next => cases h
  next hn =>
    obtain ⟨r, hr, rfl⟩ := Option.map_eq_some_iff.mp h
    exact .reader hn hr
  next n =>
    split at h
    next =>
      obtain ⟨r, hr, rfl⟩ := Option.map_eq_some_iff.mp h
      exact .read hr
    · cases h

/-- The two ends are a writer and a reader. -/
theorem projects_writer : (pipe E wdepth D rdepth backpressure c boundary conn node d).Projects
    (Writer.writer E wdepth ⟨c, [], boundary, []⟩ conn node) State.writer where
  init := rfl
  step h := by
    cases step_sound h with
    | @writer a _ hw => exact ⟨[a], Machine.run_single hw⟩
    | reader | read => exact ⟨[], rfl⟩

theorem projects_reader : (pipe E wdepth D rdepth backpressure c boundary conn node d).Projects
    (Reader.reader D rdepth backpressure d) State.reader where
  init := rfl
  step h := by
    cases step_sound h with
    | writer => exact ⟨[], rfl⟩
    | @reader a _ _ hr => exact ⟨[a], Machine.run_single hr⟩
    | @read n _ hr => exact ⟨[.read _], Machine.run_single hr⟩

/-! ## What was read was written -/

theorem out_grows {w w' : Writer.State β σ μ ε} {a : Writer.Act μ ε} (hs : Writer.StepR E wdepth w a w') :
    w.write.sink.out <+: w'.write.sink.out := by
  cases hs with
  | write _ hw =>
    cases hw with
    | write => exact List.prefix_append _ _
    | _ => exact List.prefix_rfl
  | @register k => cases k <;> exact List.prefix_rfl
  | _ => exact List.prefix_rfl

/-- What was read grows by what is read. -/
theorem chunks_eq {r r' : Reader.State β δ μ} {a : Reader.Act β} (hs : Reader.StepR D rdepth backpressure r a r') :
    r'.chunks = r.chunks ∨ ∃ chunk, a = .read chunk ∧ r'.chunks = r.chunks ++ [chunk] := by
  cases hs with
  | read => exact .inr ⟨_, rfl, rfl⟩
  | item => exact .inl (Reader.deliver_chunks ..)
  | _ => exact .inl rfl

theorem read_of_written (h : (pipe E wdepth D rdepth backpressure c boundary conn node d).Reachable s) :
    s.reader.chunks.flatten <+: s.writer.write.sink.out := by
  refine h.invariant (P := fun s => s.reader.chunks.flatten <+: s.writer.write.sink.out) ?_ fun _ ho _ hs => ?_
  · exact List.nil_prefix
  cases step_sound hs with
  | writer hw => exact ho.trans (out_grows (Writer.step_sound hw))
  | reader hn hr =>
    rcases chunks_eq (Reader.step_sound hr) with he | ⟨chunk, ha, -⟩
    · rw [he]; exact ho
    · exact absurd ha (hn chunk)
  | @read n r hr =>
    rcases chunks_eq (Reader.step_sound hr) with he | ⟨chunk, ha, he⟩
    · rw [he]; exact ho
    · -- the chunk is where the last one ended
      obtain ⟨tail, htail⟩ := ho
      cases ha
      rw [he, State.unread, ← htail, List.drop_left, List.flatten_append, List.flatten_singleton]
      exact (List.prefix_append_right_inj _).mpr (List.take_prefix _ _)

/-- The stream is the encodings of a prefix of the accepted messages, cut
off somewhere. -/
theorem written_of_accepted {w : Writer.State β σ μ ε}
    (h : (Writer.writer E wdepth ⟨c, [], boundary, []⟩ conn node).Reachable w) :
    ∃ ms bs c', ms <+: w.accepted.map (·.msg) ∧ E.Run c ms bs c' ∧ w.write.sink.out <+: bs.flatten := by
  obtain ⟨sink, hw, hrun, htotal⟩ := (Writer.batchesOK_reachable h).write
  refine ⟨_, _, _, ?_, hrun.append hw.fed, ?_⟩
  · rw [(Writer.acceptedOK_reachable h).split, List.map_append, List.map_append, List.append_assoc]
    refine (List.prefix_append_right_inj _).mpr ?_
    exact (List.take_prefix _ _).trans (List.prefix_append _ _)
  · have hout : w.write.sink.total = w.write.sink.out ++ w.write.sink.buffer := rfl
    rw [hw.total, htotal] at hout
    rw [List.flatten_append]
    exact ⟨_, by simpa [Sink.total] using hout.symm⟩

/-- What the codec decodes is a prefix of what was accepted. -/
theorem decoded_of_accepted (hcodec : Decodes E c D d)
    (h : (pipe E wdepth D rdepth backpressure c boundary conn node d).Reachable s) :
    s.reader.decoded.map (·.msg) <+: s.writer.accepted.map (·.msg) := by
  obtain ⟨src, hy, -⟩ := (Reader.readerOK_reachable (projects_reader.reachable h)).yields
  obtain ⟨ms, bs, c', hms, hrun, hout⟩ := written_of_accepted (projects_writer.reachable h)
  exact (hcodec hrun hy ((read_of_written h).trans hout)).trans hms

end

/-! ## First in, first out -/

/-- What `process_message` gets of the accepted messages. -/
structure InOrder (depth : Nat) (backpressure : Bool) (s : State β σ δ μ ε) : Prop where
  decoded : s.reader.decoded.map (·.msg) <+: s.writer.accepted.map (·.msg)
  order : s.reader.processed.Sublist (s.reader.decoded.map (·.msg))
  /-- With backpressure, nothing is skipped. -/
  lossless : backpressure = true → s.reader.processed <+: s.writer.accepted.map (·.msg)
  /-- Without, the decoded messages but for the dropped ones are processed or
  still queued; -/
  kept : backpressure = false →
    (s.reader.decoded.filter (·.kept)).map (·.msg) = s.reader.processed ++ s.reader.queue
  /-- and a message is dropped if the queue is full, or gone with the
  processing task. -/
  dropped : ∀ e ∈ s.reader.decoded, e.kept = false → e.queued = depth ∨ e.late = true

theorem fifo (E : Encoder β σ μ ε) (wdepth : Nat) (D : Decoder β δ μ ε') (rdepth : Nat) (backpressure : Bool)
    (c : σ) (boundary : Nat) (conn node : Stats) (d : δ) (hcodec : Decodes E c D d) (s : State β σ δ μ ε)
    (hs : (pipe E wdepth D rdepth backpressure c boundary conn node d).Reachable s) :
    InOrder rdepth backpressure s := by
  have hR := Reader.readerOK_reachable (projects_reader.reachable hs)
  obtain ⟨hand, horder, -, hnone⟩ := hR.order
  have hdecoded := decoded_of_accepted hcodec hs
  have hfront : s.reader.processed <+: s.reader.kept := by
    rw [horder, List.append_assoc]
    exact List.prefix_append _ _
  refine ⟨hdecoded, ?_, fun hb => List.IsPrefix.trans ?_ hdecoded, fun hb => ?_, hR.missing⟩
  · exact hfront.sublist.trans (List.filter_sublist.map _)
  · -- every decoded message is kept
    have hall : s.reader.kept = s.reader.decoded.map (·.msg) := by
      rw [Reader.State.kept, List.filter_eq_self.mpr (hR.lossless hb)]
    rw [← hall]
    exact hfront
  · rw [hnone hb, List.append_nil] at horder
    exact horder

/-- Two messages are sent, with a flush in between, and arrive in three
pieces; the second is being processed when the connection goes down. -/
def twoMessages : List (Act UInt8 (List UInt8) String) :=
  [.writer (.queue [7] false), .writer (.queue [8, 9] false), .writer (.queue [5] false), .writer (.recv 2),
    .writer (.write .feed), .writer (.write .drain), .writer (.write (.write 2)), .writer (.write .feed), .read 1,
    .reader .decode, .writer (.write (.write 3)), .writer (.write .flushed), .read 2, .reader .decode,
    .reader .send, .reader .decode, .reader .take, .reader .processed, .read 2, .reader .decode, .reader .send,
    .reader .take, .reader .abortProc]

theorem fifo_twoMessages :
    ∃ s, Decodes (lengthEncoder 9) () (Reader.countingDecoder lengthDecoder) ⟨(), .new, .new, 0⟩ ∧
      (pipe (lengthEncoder 9) 4 (Reader.countingDecoder lengthDecoder) 1 true () 2 .new .new
        ⟨(), .new, .new, 0⟩).Reachable s ∧
      s.reader.processed = [[7], [8, 9]] ∧ s.writer.accepted.map (·.msg) = [[7], [8, 9], [5]] ∧ InOrder 1 true s := by
  obtain ⟨s, hs, hp⟩ := (pipe (lengthEncoder 9) 4 (Reader.countingDecoder lengthDecoder) 1 true () 2 .new .new
      ⟨(), .new, .new, 0⟩).exists_reachable twoMessages
    (fun s => s.reader.processed = [[7], [8, 9]] ∧ s.writer.accepted.map (·.msg) = [[7], [8, 9], [5]])
    (by decide +kernel)
  obtain ⟨hprocessed, haccepted⟩ := of_decide_eq_true hp
  have hcodec : Decodes (lengthEncoder 9) () (Reader.countingDecoder lengthDecoder) ⟨(), .new, .new, 0⟩ :=
    Reader.countingDecoder_decodes (lengthDecoder_decodes 9)
  exact ⟨s, hcodec, hs, hprocessed, haccepted, fifo _ _ _ _ _ _ _ _ _ _ hcodec s hs⟩

/-- Two messages arrive together; the processing of the first panics before
the second is decoded. -/
def panickedFirst : List (Act UInt8 (List UInt8) String) :=
  [.writer (.queue [7] false), .writer (.queue [8, 9] false), .writer (.recv 2), .writer (.write .feed),
    .writer (.write .feed), .writer (.write (.write 5)), .writer (.write .flushed), .read 5, .reader .decode,
    .reader .take, .reader .panic, .reader .decode]

/-- Without backpressure, a message may be missing that found an empty queue:
no one was left to take it out. -/
theorem dropped_by_closed_queue :
    ∃ s, (pipe (lengthEncoder 9) 4 lengthDecoder 3 false () 64 .new .new ()).Reachable s ∧
      s.reader.processed = [[7]] ∧ s.reader.queue = [] ∧
      ∃ e ∈ s.reader.decoded, e.msg = [8, 9] ∧ e.kept = false ∧ e.queued = 0 := by
  obtain ⟨s, hs, hp⟩ := (pipe (lengthEncoder 9) 4 lengthDecoder 3 false () 64 .new .new ()).exists_reachable
    panickedFirst
    (fun s => s.reader.processed = [[7]] ∧ s.reader.queue = [] ∧
      ∃ e ∈ s.reader.decoded, e.msg = [8, 9] ∧ e.kept = false ∧ e.queued = 0)
    (by decide +kernel)
  exact ⟨s, hs, of_decide_eq_true hp⟩

end Pea2Pea.Pipe
