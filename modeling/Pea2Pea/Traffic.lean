/-
The traffic counters of a node and of its connections (`stats.rs`), over all
its connections at once.

A connection's writer and reader share its counters, and all of them share
the node's; a writer raises four counters one by one, so that between the
first and the last the node's are behind. A connection that is gone stays in
the list: its counts stay in the node's.
-/
import Mathlib.Data.BitVec
import Pea2Pea.Counting
import Pea2Pea.Deliveries
import Pea2Pea.Lib.Shared

namespace Pea2Pea

open Framed

/-! ## Counters added up -/

namespace Stats

instance : Add Stats where
  add x y := ⟨x.msgsSent + y.msgsSent, x.msgsReceived + y.msgsReceived, x.bytesSent + y.bytesSent,
    x.bytesReceived + y.bytesReceived⟩

instance : Zero Stats := ⟨.new⟩

@[simp] theorem add_msgsSent (x y : Stats) : (x + y).msgsSent = x.msgsSent + y.msgsSent := rfl

@[simp] theorem add_msgsReceived (x y : Stats) : (x + y).msgsReceived = x.msgsReceived + y.msgsReceived := rfl

@[simp] theorem add_bytesSent (x y : Stats) : (x + y).bytesSent = x.bytesSent + y.bytesSent := rfl

@[simp] theorem add_bytesReceived (x y : Stats) : (x + y).bytesReceived = x.bytesReceived + y.bytesReceived := rfl

theorem new_eq_zero : (.new : Stats) = 0 := rfl

theorem ext_fields {x y : Stats} (h₁ : x.msgsSent = y.msgsSent) (h₂ : x.msgsReceived = y.msgsReceived)
    (h₃ : x.bytesSent = y.bytesSent) (h₄ : x.bytesReceived = y.bytesReceived) : x = y := by
  cases x
  cases y
  simp_all

instance : AddCommMonoid Stats where
  add_assoc x y z := ext_fields (add_assoc _ _ _) (add_assoc _ _ _) (add_assoc _ _ _) (add_assoc _ _ _)
  zero_add x := ext_fields (zero_add _) (zero_add _) (zero_add _) (zero_add _)
  add_zero x := ext_fields (add_zero _) (add_zero _) (add_zero _) (add_zero _)
  add_comm x y := ext_fields (add_comm _ _) (add_comm _ _) (add_comm _ _) (add_comm _ _)
  nsmul := nsmulRec

theorem registerSentMessages_eq (x : Stats) (m b : Nat) :
    x.registerSentMessages m b = x + Stats.new.registerSentMessages m b :=
  ext_fields (by simp [registerSentMessages, addMsgsSent, addBytesSent, new]) (add_zero _).symm
    (by simp [registerSentMessages, addMsgsSent, addBytesSent, new]) (add_zero _).symm

theorem registerReceivedMessage_eq (x : Stats) (size : Nat) :
    x.registerReceivedMessage size = x + Stats.new.registerReceivedMessage size :=
  ext_fields (add_zero _).symm (by simp [new]) (add_zero _).symm (by simp [new])

/-- The half a writer raises, and the half a reader does. -/
def sent (x : Stats) : Stats := ⟨x.msgsSent, 0, x.bytesSent, 0⟩

def received (x : Stats) : Stats := ⟨0, x.msgsReceived, 0, x.bytesReceived⟩

theorem sent_add_received (x : Stats) : x.sent + x.received = x :=
  ext_fields (add_zero _) (zero_add _) (add_zero _) (zero_add _)

theorem sent_add {x y : Stats} (hy : y.received = 0) : (x + y).sent = x.sent + y ∧ (x + y).received = x.received := by
  have hsent : y.sent = y := by rw [← add_zero y.sent, ← hy, sent_add_received]
  refine ⟨?_, ?_⟩
  · rw [← hsent]
    exact ext_fields rfl rfl rfl rfl
  · rw [← add_zero x.received, ← hy]
    exact ext_fields rfl rfl rfl rfl

theorem received_add {x y : Stats} (hy : y.sent = 0) : (x + y).received = x.received + y ∧ (x + y).sent = x.sent := by
  have hreceived : y.received = y := by rw [← zero_add y.received, ← hy, sent_add_received]
  refine ⟨?_, ?_⟩
  · rw [← hreceived]
    exact ext_fields rfl rfl rfl rfl
  · rw [← add_zero x.sent, ← hy]
    exact ext_fields rfl rfl rfl rfl

end Stats

/-! ## A writer among others -/

namespace Writer

variable {β σ μ ε : Type} {E : Encoder β σ μ ε} {depth : Nat} {w w' : State β σ μ ε} {a : Act μ ε}

/-- The task, with these counters in place of its own. -/
def State.load (w : State β σ μ ε) (conn node : Stats) (others : Nat × Nat) : State β σ μ ε :=
  { w with conn := conn, node := node, others := others }

/-- The act is one of the task, or of its queue. -/
def Act.own : Act μ ε → Bool
  | .elsewhere _ _ => false
  | _ => true

/-- What a step does to the counters: it adds to the sent ones. No step looks
at them. -/
structure Raises (step : State β σ μ ε → Option (State β σ μ ε)) (w w' : State β σ μ ε) (e d : Stats) : Prop where
  step : ∀ k n o, step (w.load k n o) = some (w'.load (k + e) (n + d) o)
  conn : e.received = 0
  node : d.received = 0

theorem register_raises (w : State β σ μ ε) (c : Counter) (msgs bytes : Nat) :
    ∃ e d, Raises (fun w => some (w.register c msgs bytes)) w (w.register c msgs bytes) e d := by
  cases c with
  | connMsgs =>
    refine ⟨Stats.new.registerSentMessages msgs 0, 0, fun k n o => ?_, rfl, rfl⟩
    rw [← Stats.registerSentMessages_eq, ← Stats.addMsgsSent_eq, add_zero]
    rfl
  | connBytes =>
    refine ⟨Stats.new.registerSentMessages 0 bytes, 0, fun k n o => ?_, rfl, rfl⟩
    rw [← Stats.registerSentMessages_eq, ← Stats.addBytesSent_eq, add_zero]
    rfl
  | nodeMsgs =>
    refine ⟨0, Stats.new.registerSentMessages msgs 0, fun k n o => ?_, rfl, rfl⟩
    rw [← Stats.registerSentMessages_eq, ← Stats.addMsgsSent_eq, add_zero]
    rfl
  | nodeBytes =>
    refine ⟨0, Stats.new.registerSentMessages 0 bytes, fun k n o => ?_, rfl, rfl⟩
    rw [← Stats.registerSentMessages_eq, ← Stats.addBytesSent_eq, add_zero]
    rfl

theorem step_load (ha : a.own = true) (hr : a ≠ .register) (k n : Stats) (o : Nat × Nat) :
    step E depth (w.load k n o) a = (step E depth w a).map (·.load k n o) := by
  cases a with
  | elsewhere => cases ha
  | register => exact absurd rfl hr
  | queue | close | abort =>
    simp only [step]
    rw [apply_ite (Option.map _)]
    rfl
  | recv | recvClosed =>
    simp only [step, State.load]
    split
    · rw [apply_ite (Option.map _)]
      rfl
    · rfl
  | write =>
    simp only [step, State.load]
    split
    · symm
      exact Option.map_map _ _ _
    · rfl
  | conclude | notify =>
    simp only [step, State.load]
    split <;> rfl

theorem step_raises (ha : a.own = true) (h : step E depth w a = some w') :
    ∃ e d, Raises (step E depth · a) w w' e d := by
  by_cases hr : a = .register
  · subst hr
    simp only [step] at h
    split at h
    next c msgs bytes hpc =>
      cases h
      obtain ⟨e, d, hs, he, hd⟩ := register_raises w c msgs bytes
      refine ⟨e, d, fun k n o => ?_, he, hd⟩
      simp only [step]
      rw [← hs]
      simp only [State.load, hpc]
    · cases h
  · refine ⟨0, 0, fun k n o => ?_, rfl, rfl⟩
    rw [step_load ha hr, h, add_zero, add_zero]
    rfl

end Writer

/-! ## A reader among others -/

namespace Reader

variable {β δ μ ε : Type} {D : Decoder β δ μ ε} {r r' : Calls β δ} {a : CallAct β}

def CountingCodec.load (c : CountingCodec δ) (conn node : Stats) : CountingCodec δ :=
  { c with stats := conn, node := node }

def Calls.load (r : Calls β δ) (conn node : Stats) (others : Nat × Nat) : Calls β δ :=
  { r with codec := r.codec.load conn node, others := others }

def CallAct.own : CallAct β → Bool
  | .elsewhere _ => false
  | _ => true

theorem CountingCodec.account_load (c : CountingCodec δ) (i j : Nat) (produced : Bool) :
    ∃ d : Stats, d.sent = 0 ∧
      ∀ k n, (c.load k n).account i j produced = (c.account i j produced).load (k + d) (n + d) := by
  have nothing (h : ∀ k n, (c.load k n).account i j produced = (c.account i j produced).load k n) :
      ∃ d : Stats, d.sent = 0 ∧
        ∀ k n, (c.load k n).account i j produced = (c.account i j produced).load (k + d) (n + d) :=
    ⟨0, rfl, fun k n => by rw [add_zero, add_zero]; exact h k n⟩
  by_cases hz : i - j + c.acc = 0
  · exact nothing fun k n => by rw [account_zero hz, account_zero (c := c.load k n) hz]
  cases produced with
  | false => exact nothing fun k n => by rw [account_pos hz, account_pos (c := c.load k n) hz]; rfl
  | true =>
    refine ⟨Stats.new.registerReceivedMessage (i - j + c.acc), rfl, fun k n => ?_⟩
    rw [account_pos hz, account_pos (c := c.load k n) hz, ← Stats.registerReceivedMessage_eq,
      ← Stats.registerReceivedMessage_eq]
    rfl

theorem CountingCodec.call_load (f : δ → List β → δ × List β × Decoded μ ε) (c : CountingCodec δ) (src : List β) :
    ∃ d : Stats, d.sent = 0 ∧
      ∀ k n, (c.load k n).call f src = ((c.call f src).1.load (k + d) (n + d), (c.call f src).2) := by
  unfold call
  have hcodec : ∀ k n, (c.load k n).codec = c.codec := fun _ _ => rfl
  simp only [hcodec]
  split
  next codec rest m hf =>
    obtain ⟨d, hd, hl⟩ := account_load { c with codec := codec } src.length rest.length true
    exact ⟨d, hd, fun k n => congrArg (·, rest, Decoded.item m) (hl k n)⟩
  next codec rest hf =>
    obtain ⟨d, hd, hl⟩ := account_load { c with codec := codec } src.length rest.length false
    exact ⟨d, hd, fun k n => congrArg (·, rest, Decoded.more) (hl k n)⟩
  next codec rest e hf =>
    obtain ⟨d, hd, hl⟩ := account_load { c with codec := codec } src.length rest.length false
    exact ⟨d, hd, fun k n => congrArg (·, rest, Decoded.error e) (hl k n)⟩
  next codec rest hf => exact ⟨0, rfl, fun k n => by rw [add_zero, add_zero]; rfl⟩

theorem Calls.after_load (r : Calls β δ) (x : CountingCodec δ) (y : List β × Decoded μ ε) (k n k' n' : Stats)
    (o : Nat × Nat) : (r.load k n o).after (x.load k' n', y) = (r.after (x, y)).load k' n' o := by
  obtain ⟨rest, m | _ | e | _⟩ := y <;> rfl

/-- A call adds one and the same to the received counters of the connection
and of the node, and does not look at them. -/
theorem Calls.step_raises (ha : a.own = true) (h : r.step D a = some r') :
    ∃ d : Stats, d.sent = 0 ∧ ∀ k n o, (r.load k n o).step D a = some (r'.load (k + d) (n + d) o) := by
  have call (f : δ → List β → δ × List β × Decoded μ ε) (hf : some (r.after (r.codec.call f r.src)) = some r') :
      ∃ d : Stats, d.sent = 0 ∧ ∀ k n o,
        some ((r.load k n o).after ((r.codec.load k n).call f r.src)) = some (r'.load (k + d) (n + d) o) := by
    obtain ⟨d, hd, hl⟩ := r.codec.call_load f r.src
    refine ⟨d, hd, fun k n o => ?_⟩
    rw [hl, after_load, Option.some.inj hf]
  cases a with
  | elsewhere => cases ha
  | append data =>
    cases h
    exact ⟨0, rfl, fun k n o => by rw [add_zero, add_zero]; rfl⟩
  | decode =>
    simp only [Calls.step] at h ⊢
    split at h
    · cases h
    next hp =>
      obtain ⟨d, hd, hl⟩ := call _ h
      exact ⟨d, hd, fun k n o => (if_neg hp).trans (hl k n o)⟩
  | decodeEof =>
    simp only [Calls.step] at h ⊢
    split at h
    · cases h
    next hp =>
      obtain ⟨d, hd, hl⟩ := call _ h
      exact ⟨d, hd, fun k n o => (if_neg hp).trans (hl k n o)⟩

end Reader

/-! ## All connections -/

namespace Traffic

open Reader (headerDecoder headerDecoder_onlyConsumes)
open Writer (size)

variable {β σ μ ε δ ν η : Type}

/-- A connection, with the counters its writer and its reader share. -/
structure Link (β σ μ ε δ : Type) where
  stats : Stats
  writer : Writer.State β σ μ ε
  reader : Reader.Calls β δ

inductive Act (β μ ε : Type)
  | writer (a : Writer.Act μ ε)
  | reader (a : Reader.CallAct β)

/-- A new connection, with the codecs of its two halves. -/
def Link.new (codecs : Sink β σ × δ) : Link β σ μ ε δ where
  stats := .new
  writer := .init codecs.1 .new .new
  reader := ⟨⟨codecs.2, .new, .new, 0⟩, [], false, [], 0, 0, 0, 0, (0, 0)⟩

/-- A step of one half, on the counters as they are. -/
def own (E : Encoder β σ μ ε) (D : Decoder β δ ν η) (depth : Nat) (node : Stats) (c : Link β σ μ ε δ) :
    Act β μ ε → Option (Stats × Link β σ μ ε δ)
  | .writer a =>
    if a.own then
      (Writer.step E depth (c.writer.load c.stats node (0, 0)) a).map fun w =>
        (w.node, { c with stats := w.conn, writer := w })
    else none
  | .reader a =>
    if a.own then
      ((c.reader.load c.stats node (0, 0)).step D a).map fun r =>
        (r.codec.node, { c with stats := r.codec.stats, reader := r })
    else none

/-- The connections of a node, which share its counters. -/
def traffic (E : Encoder β σ μ ε) (D : Decoder β δ ν η) (depth : Nat) :
    Machine (Shared.State Stats (Link β σ μ ε δ)) (Shared.Act (Sink β σ × δ) (Act β μ ε)) :=
  Shared.tasks .new Link.new (own E D depth)

variable {E : Encoder β σ μ ε} {D : Decoder β δ ν η} {depth : Nat}

/-- What a writer has raised the node's counters by: what it has flushed, as
far as it has got with the last batch. -/
def nodeSent (w : Writer.State β σ μ ε) : Stats :=
  Stats.new.registerSentMessages (w.sent.length + w.pc.nodeCounted.1) (size w.encoded + w.pc.nodeCounted.2)

/-- What a connection has raised them by. -/
def Link.counted (c : Link β σ μ ε δ) : Stats := nodeSent c.writer + c.stats.received

/-- Each half is as it would be on its own. -/
structure LinkOK (E : Encoder β σ μ ε) (D : Decoder β δ ν η) (depth : Nat) (c : Link β σ μ ε δ) : Prop where
  writer : ∃ sink, (Writer.writer E depth sink .new .new).Reachable
    (c.writer.load c.stats.sent (nodeSent c.writer) (0, 0))
  reader : ∃ codec, (Reader.counting D codec .new .new).Reachable
    (c.reader.load c.stats.received c.stats.received (0, 0))

theorem nodeSent_init (sink : Sink β σ) : nodeSent (.init sink .new .new : Writer.State β σ μ ε) = .new := by
  simp [nodeSent, Writer.State.init, Writer.State.sent, Writer.State.encoded, size, Writer.Pc.nodeCounted]

theorem linkOK_new (k : Sink β σ × δ) : LinkOK E D depth (Link.new k) := by
  refine ⟨⟨k.1, ?_⟩, k.2, .init⟩
  rw [Link.new, nodeSent_init]
  exact .init

theorem nodeSent_eq {sink : Sink β σ} {w : Writer.State β σ μ ε} {conn node : Stats}
    (h : (Writer.writer E depth sink .new .new).Reachable (w.load conn node (0, 0))) : node = nodeSent w := by
  have hc := (Writer.countedOK_reachable h).node
  simp only [Writer.State.load, zero_add] at hc
  exact hc

theorem own_linkOK {node : Stats} {c : Link β σ μ ε δ} {a : Act β μ ε} {x : Stats × Link β σ μ ε δ}
    (h : LinkOK E D depth c) (hs : own E D depth node c a = some x) :
    LinkOK E D depth x.2 ∧ ∃ d, x.1 = node + d ∧ x.2.counted = c.counted + d := by
  cases a with
  | writer a =>
    simp only [own] at hs
    split at hs
    next ha =>
      obtain ⟨w, hw, rfl⟩ := Option.map_eq_some_iff.mp hs
      obtain ⟨e, d, hstep, he, hd⟩ := Writer.step_raises ha hw
      have hload := Option.some.inj (hw.symm.trans (hstep c.stats node (0, 0)))
      have hconn : w.conn = c.stats + e := congrArg Writer.State.conn hload
      have hnode : w.node = node + d := congrArg Writer.State.node hload
      obtain ⟨hsent, hreceived⟩ := Stats.sent_add (x := c.stats) he
      obtain ⟨sink, hr⟩ := h.writer
      have hr' := hr.step trivial (hstep c.stats.sent (nodeSent c.writer) (0, 0))
      have hcount : nodeSent c.writer + d = nodeSent w := nodeSent_eq hr'
      rw [hcount, ← hsent, ← hconn] at hr'
      rw [← hconn] at hreceived
      refine ⟨⟨⟨sink, hr'⟩, ?_⟩, d, hnode, ?_⟩
      · dsimp only
        rw [hreceived]
        exact h.reader
      · dsimp only [Link.counted]
        rw [hreceived, ← hcount, add_right_comm]
    · cases hs
  | reader a =>
    simp only [own] at hs
    split at hs
    next ha =>
      obtain ⟨r, hr, rfl⟩ := Option.map_eq_some_iff.mp hs
      obtain ⟨d, hd, hstep⟩ := Reader.Calls.step_raises ha hr
      have hload := Option.some.inj (hr.symm.trans (hstep c.stats node (0, 0)))
      have hconn : r.codec.stats = c.stats + d := congrArg (·.codec.stats) hload
      have hnode : r.codec.node = node + d := congrArg (·.codec.node) hload
      obtain ⟨hreceived, hsent⟩ := Stats.received_add (x := c.stats) hd
      obtain ⟨codec, hc⟩ := h.reader
      have hc' := hc.step trivial (hstep c.stats.received c.stats.received (0, 0))
      rw [← hreceived, ← hconn] at hc'
      rw [← hconn] at hreceived hsent
      refine ⟨⟨?_, codec, hc'⟩, d, hnode, ?_⟩
      · dsimp only
        rw [hsent]
        exact h.writer
      · dsimp only [Link.counted]
        rw [hreceived, add_assoc]
    · cases hs

theorem linkOK_reachable {s : Shared.State Stats (Link β σ μ ε δ)} (h : (traffic E D depth).Reachable s) :
    ∀ c ∈ s.tasks, LinkOK E D depth c :=
  Shared.each linkOK_new (fun hc hs => (own_linkOK hc hs).1) h

/-- The node's counters have what its connections have counted, and nothing
else. -/
theorem node_eq {s : Shared.State Stats (Link β σ μ ε δ)} (h : (traffic E D depth).Reachable s) :
    s.shared = (s.tasks.map Link.counted).sum := by
  have hnew : ∀ k : Sink β σ × δ, (Link.new k : Link β σ μ ε δ).counted = 0 := fun k => by
    rw [Link.counted, Link.new, nodeSent_init]
    rfl
  have htotal := Shared.total linkOK_new (fun hc hs => (own_linkOK hc hs).1) hnew
    (fun hc hs => (own_linkOK hc hs).2) h
  rwa [Stats.new_eq_zero, zero_add] at htotal

theorem LinkOK.sent {c : Link β σ μ ε δ} (h : LinkOK E D depth c) :
    c.stats.sent = Stats.new.registerSentMessages (c.writer.sent.length + c.writer.pc.connCounted.1)
      (size c.writer.encoded + c.writer.pc.connCounted.2) := by
  obtain ⟨sink, hr⟩ := h.writer
  exact (Writer.countedOK_reachable hr).conn

theorem LinkOK.received {c : Link β σ μ ε δ} (hD : D.OnlyConsumes) (h : LinkOK E D depth c) :
    c.stats.bytesReceived = BitVec.ofNat 64 c.reader.mark := by
  obtain ⟨codec, hr⟩ := h.reader
  have hc := (Reader.conservedOK_reachable hD hr).conn
  rw [Stats.new_eq_zero] at hc
  exact hc.trans (zero_add _)

/-- Between two batches the node has of a connection what its own counters
have. -/
theorem LinkOK.counted_eq {c : Link β σ μ ε δ} (h : LinkOK E D depth c) (hn : c.writer.pc.reporting = false) :
    c.counted = c.stats := by
  have hzero : c.writer.pc.connCounted = c.writer.pc.nodeCounted := by
    cases hpc : c.writer.pc <;> rw [hpc] at hn <;> first | rfl | cases hn
  rw [Link.counted, nodeSent, ← hzero, ← h.sent, Stats.sent_add_received]

/-- One counter of a sum. -/
theorem sum_counter {α : Type} (l : List α) (f : α → Stats) (p : Stats → BitVec 64) (hz : p 0 = 0)
    (hp : ∀ x y, p (x + y) = p x + p y) : p (l.map f).sum = (l.map fun c => p (f c)).sum := by
  have hsum := map_list_sum (⟨⟨p, hz⟩, hp⟩ : Stats →+ BitVec 64) (l.map f)
  rwa [List.map_map] at hsum

theorem sum_ofNat {α : Type} {l : List α} {f : α → BitVec 64} {g : α → Nat}
    (hf : ∀ c ∈ l, f c = BitVec.ofNat 64 (g c)) : (l.map f).sum = BitVec.ofNat 64 (l.map g).sum := by
  have hsum := map_list_sum (⟨⟨BitVec.ofNat 64, rfl⟩, BitVec.ofNat_add⟩ : Nat →+ BitVec 64) (l.map g)
  rw [List.map_map] at hsum
  rw [List.map_congr_left hf]
  exact hsum.symm

/-- The node's counters are the totals over its connections, those that are
gone included, modulo 2^64: the messages and bytes their writers flushed and
got to register, and the bytes their readers took up to the last message. The
connections' own counters are at most one batch ahead of that, and when no
writer is dealing with the outcome of a batch, the node's counters are the
sums of theirs. -/
theorem node_totals (E : Encoder β σ μ ε) (D : Decoder β δ ν η) (depth : Nat) (hD : D.OnlyConsumes)
    (s : Shared.State Stats (Link β σ μ ε δ)) (h : (traffic E D depth).Reachable s) :
    s.shared.msgsSent =
        BitVec.ofNat 64 (s.tasks.map fun c => c.writer.sent.length + c.writer.pc.nodeCounted.1).sum ∧
      s.shared.bytesSent =
        BitVec.ofNat 64 (s.tasks.map fun c => size c.writer.encoded + c.writer.pc.nodeCounted.2).sum ∧
      s.shared.bytesReceived = BitVec.ofNat 64 (s.tasks.map fun c => c.reader.mark).sum ∧
      s.shared.msgsReceived = (s.tasks.map fun c => c.stats.msgsReceived).sum ∧
      (∀ c ∈ s.tasks,
        c.stats.msgsSent = BitVec.ofNat 64 (c.writer.sent.length + c.writer.pc.connCounted.1) ∧
          c.stats.bytesSent = BitVec.ofNat 64 (size c.writer.encoded + c.writer.pc.connCounted.2) ∧
          c.stats.bytesReceived = BitVec.ofNat 64 c.reader.mark) ∧
      ((∀ c ∈ s.tasks, c.writer.pc.reporting = false) → s.shared = (s.tasks.map Link.stats).sum) := by
  have hl := linkOK_reachable h
  rw [node_eq h]
  refine ⟨?_, ?_, ?_, ?_, fun c hc => ?_, fun hn => ?_⟩
  · rw [sum_counter _ _ _ rfl Stats.add_msgsSent]
    exact sum_ofNat fun c _ => (add_zero _).trans (zero_add _)
  · rw [sum_counter _ _ _ rfl Stats.add_bytesSent]
    exact sum_ofNat fun c _ => (add_zero _).trans (zero_add _)
  · rw [sum_counter _ _ _ rfl Stats.add_bytesReceived]
    exact sum_ofNat fun c hc => (zero_add _).trans ((hl c hc).received hD)
  · rw [sum_counter _ _ _ rfl Stats.add_msgsReceived]
    exact congrArg List.sum (List.map_congr_left fun c _ => zero_add _)
  · have hsent := (hl c hc).sent
    exact ⟨(congrArg Stats.msgsSent hsent).trans (zero_add _), (congrArg Stats.bytesSent hsent).trans (zero_add _),
      (hl c hc).received hD⟩
  · rw [List.map_congr_left fun c hc => (hl c hc).counted_eq (hn c hc)]

/-- Two connections: the first one sends a message of one byte, in two bytes,
and receives one of two; the second one is about to register what it sent with
the node. -/
def twoLinks : List (Shared.Act (Sink UInt8 Unit × Option Nat) (Act UInt8 (List UInt8) String)) :=
  let send (i : Nat) : List (Shared.Act (Sink UInt8 Unit × Option Nat) (Act UInt8 (List UInt8) String)) :=
    [.queue [7] false, .recv 1, .write .feed, .write (.write 2), .write .flushed, .conclude, .notify, .register,
      .register].map fun a => .step i (.writer a)
  List.flatten
    [[.start (⟨(), [], 64, []⟩, none), .start (⟨(), [], 64, []⟩, none)], send 0, send 1,
      [.append [2, 7], .decode, .append [8], .decode].map fun a => .step 0 (.reader a),
      [.step 0 (.writer .register), .step 0 (.writer .register)]]

theorem node_totals_twoLinks : ∃ s, headerDecoder.OnlyConsumes ∧
    (traffic (lengthEncoder 2) headerDecoder 4).Reachable s ∧ s.tasks.map (·.stats.msgsSent) = [1, 1] ∧
      s.shared.msgsSent = 1 ∧ s.shared.bytesSent = 2 ∧ s.shared.bytesReceived = 3 := by
  obtain ⟨s, hs, hp⟩ := (traffic (lengthEncoder 2) headerDecoder 4).exists_reachable twoLinks
    (fun s => s.tasks.map (·.stats.msgsSent) = [1, 1] ∧
      (s.tasks.map fun c => c.writer.sent.length + c.writer.pc.nodeCounted.1) = [1, 0] ∧
      (s.tasks.map fun c => size c.writer.encoded + c.writer.pc.nodeCounted.2) = [2, 0] ∧
      (s.tasks.map fun c => c.reader.mark) = [3, 0]) (by decide +kernel)
  obtain ⟨hconn, hmsgs, hbytes, hmark⟩ := of_decide_eq_true hp
  obtain ⟨hm, hb, hr, -⟩ := node_totals _ _ 4 headerDecoder_onlyConsumes s hs
  rw [hmsgs] at hm
  rw [hbytes] at hb
  rw [hmark] at hr
  exact ⟨s, headerDecoder_onlyConsumes, hs, hconn, hm, hb, hr⟩

end Traffic

end Pea2Pea
