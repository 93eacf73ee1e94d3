/-
Delivery reports and sent counters against what the writer task flushed.

The reports go out in the order the messages were accepted in: first the
messages of the flushed batches, then, if a batch failed, those of that
batch. The counters are those of the flushed batches at every await of the
task, and when it has ended.

A batch is reported first and counted afterwards, by four separate updates:
from its first confirmation to the last update, and only there, a confirmed
delivery is not counted yet.
-/
import Pea2Pea.WriterTask

namespace Pea2Pea.Writer

open Framed

variable {β σ μ ε : Type} {E : Encoder β σ μ ε} {depth : Nat} {sink₀ : Sink β σ} {conn₀ node₀ : Stats}
  {s s' : State β σ μ ε} {a : Act μ ε}

/-! ## Accepted, received, queued -/

/-- The notifiers of the messages, in order. -/
def notifiers (ms : List (Wrapped μ)) : List Nat := ms.filterMap (·.notifier)

@[simp] theorem notifiers_append (ms ms' : List (Wrapped μ)) : notifiers (ms ++ ms') = notifiers ms ++ notifiers ms' :=
  List.filterMap_append

/-- The messages of the batches before the current one. -/
def State.sent (s : State β σ μ ε) : List (Wrapped μ) := s.past.flatMap (·.messages)

theorem mem_notifiers_sent {i : Nat} : i ∈ notifiers s.sent ↔ ∃ b ∈ s.past, i ∈ notifiers b.messages := by
  simp only [notifiers, State.sent, List.filterMap_flatMap, List.mem_flatMap]

structure AcceptedOK (s : State β σ μ ε) : Prop where
  split : s.accepted = s.sent ++ s.batch ++ s.queue
  sorted : (notifiers s.accepted).Pairwise (· < ·)
  lt : ∀ i ∈ notifiers s.accepted, i < s.accepted.length
  idle : s.pc = .receiving → s.batch = []

theorem StepR.acceptedOK (h : AcceptedOK s) (hs : StepR E depth s a s') : AcceptedOK s' := by
  cases hs with
  | @queue msg confirm =>
    have hnew : ∀ i ∈ notifiers [⟨msg, if confirm then some s.accepted.length else none⟩], i = s.accepted.length := by
      cases confirm <;> simp [notifiers]
    refine ⟨by simp [h.split, State.sent], ?_, fun i hi => ?_, h.idle⟩
    · rw [notifiers_append, List.pairwise_append]
      refine ⟨h.sorted, by cases confirm <;> simp [notifiers], fun i hi j hj => ?_⟩
      rw [hnew j hj]
      exact h.lt i hi
    · rw [notifiers_append, List.mem_append] at hi
      rw [List.length_append, List.length_singleton]
      rcases hi with hi | hi
      · exact Nat.lt_succ_of_lt (h.lt i hi)
      · rw [hnew i hi]
        exact Nat.lt_succ_self _
  | @recv n hpc =>
    refine ⟨?_, h.sorted, h.lt, by simp⟩
    have hsplit := h.split
    rw [h.idle hpc] at hsplit
    simpa [State.sent] using hsplit
  | @register c msgs bytes hpc =>
    cases c with
    | nodeBytes =>
      refine ⟨?_, h.sorted, h.lt, fun _ => rfl⟩
      simpa [State.register, State.sent, State.current] using h.split
    | _ => exact ⟨h.split, h.sorted, h.lt, by simp [State.register]⟩
  | recvClosed hpc => exact ⟨h.split, h.sorted, h.lt, by simp⟩
  | write hpc => exact ⟨h.split, h.sorted, h.lt, by simp [hpc]⟩
  | returned | panicked | notify | notified | gaveUp | abort => exact ⟨h.split, h.sorted, h.lt, by simp⟩
  | close | elsewhere => exact ⟨h.split, h.sorted, h.lt, h.idle⟩

theorem acceptedOK_reachable (h : (writer E depth sink₀ conn₀ node₀).Reachable s) : AcceptedOK s := by
  refine h.invariant ?_ fun _ ho _ hs => (step_sound hs).acceptedOK ho
  exact ⟨rfl, .nil, by simp [writer, State.init, notifiers], fun _ => rfl⟩

/-! ## Batches and their encodings -/

/-- Every message of the batch is encoded, and the batch flushed. -/
def Batch.Complete (b : Batch β μ) : Prop := b.encodings.length = b.messages.length ∧ b.flushed = true

/-- The encodings of the batches before the current one. -/
def State.encoded (s : State β σ μ ε) : List (List β) := s.past.flatMap (·.encodings)

/-- Where the task is, by the call of `write_batch`. -/
def CallOK (s : State β σ μ ε) : Prop :=
  match s.pc with
  | .receiving | .ended .closed => s.write.isFlushed = false
  | .writing => True
  | .notifying r _ => s.write.pc = .returned r
  | .registering _ msgs bytes => s.write.pc = .returned (.ok (msgs, bytes))
  | .ended .failed => ∃ e, s.write.pc = .returned (.error e)
  | .ended .panicked | .ended .aborted => s.write.isFlushed = false

structure BatchesOK (E : Encoder β σ μ ε) (sink₀ : Sink β σ) (s : State β σ μ ε) : Prop where
  past : ∀ b ∈ s.past, b.Complete
  write : ∃ sink, WriteOK E sink (s.batch.map (·.msg)) s.write ∧
    E.Run sink₀.codec (s.sent.map (·.msg)) s.encoded sink.codec ∧ sink.total = sink₀.total ++ s.encoded.flatten
  call : CallOK s

/-- The step leaves the batches and the call alone. -/
theorem BatchesOK.goto (h : BatchesOK E sink₀ s) (hp : s'.past = s.past) (hb : s'.batch = s.batch)
    (hw : s'.write = s.write) (hc : CallOK s') : BatchesOK E sink₀ s' where
  past := by rw [hp]; exact h.past
  write := by
    rw [hb, hw, State.sent, State.encoded, hp]
    exact h.write
  call := hc

theorem Write.begin_isFlushed (sink : Sink β σ) (messages : List μ) :
    (Write.begin sink messages : Write β σ μ ε).isFlushed = false := by
  have hlive := WritePc.next_live ε messages
  unfold Write.isFlushed
  split
  next hpc => rw [show WritePc.next messages = _ from hpc] at hlive; cases hlive
  · rfl

theorem Write.isFlushed_of_atAwait {w : Write β σ μ ε} (h : w.atAwait = true) : w.isFlushed = false := by
  unfold atAwait at h
  unfold isFlushed
  cases hpc : w.pc <;> first | rfl | (rw [hpc] at h; cases h)

theorem StepR.batchesOK (hA : AcceptedOK s) (h : BatchesOK E sink₀ s) (hs : StepR E depth s a s') :
    BatchesOK E sink₀ s' := by
  have hcall := h.call
  cases hs with
  | queue | close | elsewhere => exact h.goto rfl rfl rfl hcall
  | @recv n hpc =>
    obtain ⟨sink, hw, hrun, htotal⟩ := h.write
    rw [hA.idle hpc] at hw
    have hnone : s.write.encodings = [] := List.eq_nil_of_length_eq_zero (Nat.le_zero.mp hw.le)
    refine ⟨h.past, ⟨s.write.sink, .begin, ?_, ?_⟩, trivial⟩
    · have hfed := hw.fed
      rw [hnone] at hfed
      simpa [State.sent, State.encoded] using hrun.append hfed
    · rw [hw.total, hnone, htotal]
      simp [State.encoded]
  | recvClosed hpc => exact h.goto rfl rfl rfl (by rw [CallOK, hpc] at hcall; exact hcall)
  | write hpc hw =>
    obtain ⟨sink, hok, hrest⟩ := h.write
    exact ⟨h.past, ⟨sink, hok.step hw, hrest⟩, by rw [CallOK, hpc]; trivial⟩
  | returned hpc hw => exact h.goto rfl rfl rfl hw
  | panicked hpc hw => exact h.goto rfl rfl rfl (by simp [CallOK, Write.isFlushed, hw])
  | notify hpc | notified hpc => exact h.goto rfl rfl rfl (by rw [CallOK, hpc] at hcall; exact hcall)
  | gaveUp hpc => exact h.goto rfl rfl rfl (by rw [CallOK, hpc] at hcall; exact ⟨_, hcall⟩)
  | @register c msgs bytes hpc =>
    rw [CallOK, hpc] at hcall
    cases c with
    | nodeBytes =>
      obtain ⟨sink, hw, hrun, htotal⟩ := h.write
      obtain ⟨hlen, hbuf, -⟩ := hw.returned _ hcall
      rw [List.length_map] at hlen
      refine ⟨?_, ⟨s.write.sink, .begin, ?_, ?_⟩, Write.begin_isFlushed _ _⟩
      · intro b hb
        rcases List.mem_append.mp hb with hb | hb
        · exact h.past b hb
        · rw [List.mem_singleton.mp hb]
          exact ⟨hlen, by simp [State.current, Write.isFlushed, hcall]⟩
      · have hfed := hw.fed
        rw [hlen, ← List.length_map (f := (·.msg)), List.take_length] at hfed
        simpa [State.register, State.sent, State.encoded, State.current] using hrun.append hfed
      · rw [hw.total, htotal]
        simp [State.register, State.encoded, State.current]
    | _ => exact h.goto rfl rfl rfl hcall
  | abort ha =>
    refine h.goto rfl rfl rfl ?_
    unfold State.atAwait at ha
    split at ha
    next hpc => rw [CallOK, hpc] at hcall; exact hcall
    next hpc => exact Write.isFlushed_of_atAwait ha
    · cases ha

/-- What is registered is of the current batch. -/
theorem BatchesOK.registering (h : BatchesOK E sink₀ s) {c : Counter} {msgs bytes : Nat}
    (hpc : s.pc = .registering c msgs bytes) :
    s.batch.length = msgs ∧ (s.write.encodings.map List.length).sum = bytes := by
  have hcall := h.call
  rw [CallOK, hpc] at hcall
  obtain ⟨sink, hw, -⟩ := h.write
  obtain ⟨-, -, hr⟩ := hw.returned _ hcall
  obtain ⟨hmsgs, hbytes⟩ := Prod.mk.inj hr
  exact ⟨by rw [hmsgs, hw.msgs, List.length_map], by rw [hbytes, hw.bytes]⟩

theorem batchesOK_reachable (h : (writer E depth sink₀ conn₀ node₀).Reachable s) : BatchesOK E sink₀ s := by
  refine h.invariant ?_ fun hr ho _ hs => (step_sound hs).batchesOK (acceptedOK_reachable hr) ho
  refine ⟨by simp [writer, State.init], ⟨sink₀, .begin, .nil, by simp [State.encoded, writer, State.init]⟩, ?_⟩
  exact Write.begin_isFlushed _ _

/-! ## Reports -/

/-- The reports of the messages, all the same. -/
def reportsOf (ms : List (Wrapped μ)) (r : Report ε) : List (Nat × Report ε) := (notifiers ms).map (·, r)

def ReportedOK (s : State β σ μ ε) : Prop :=
  match s.pc with
  | .notifying r left => ∃ told, notifiers s.batch = told ++ left ∧
      s.reports = reportsOf s.sent (.ok ()) ++ told.map (·, r.map fun _ => ())
  | .registering _ _ _ => s.reports = reportsOf s.sent (.ok ()) ++ reportsOf s.batch (.ok ())
  | .ended .failed => ∃ e, s.reports = reportsOf s.sent (.ok ()) ++ reportsOf s.batch (.error e)
  | _ => s.reports = reportsOf s.sent (.ok ())

theorem StepR.reportedOK (h : ReportedOK s) (hs : StepR E depth s a s') : ReportedOK s' := by
  unfold ReportedOK at h
  cases hs with
  | queue | close | elsewhere => exact h
  | recv hpc | recvClosed hpc => rw [hpc] at h; exact h
  | write hpc hw =>
    rw [hpc] at h
    rw [ReportedOK, hpc]
    exact h
  | returned hpc hw =>
    rw [hpc] at h
    exact ⟨[], rfl, by rw [List.map_nil, List.append_nil]; exact h⟩
  | panicked hpc => rw [hpc] at h; exact h
  | @notify r i left hpc =>
    rw [hpc] at h
    obtain ⟨told, hbatch, hreports⟩ := h
    refine ⟨told ++ [i], by simpa using hbatch, ?_⟩
    rw [List.map_append, ← List.append_assoc]
    exact congrArg (· ++ [(i, r.map fun _ => ())]) hreports
  | notified hpc =>
    rw [hpc] at h
    obtain ⟨told, hbatch, hreports⟩ := h
    rw [List.append_nil] at hbatch
    rw [← hbatch] at hreports
    exact hreports
  | @gaveUp e hpc =>
    rw [hpc] at h
    obtain ⟨told, hbatch, hreports⟩ := h
    rw [List.append_nil] at hbatch
    rw [← hbatch] at hreports
    exact ⟨e, hreports⟩
  | @register c msgs bytes hpc =>
    rw [hpc] at h
    cases c with
    | nodeBytes =>
      simpa [ReportedOK, State.register, State.sent, State.current, reportsOf] using h
    | _ => exact h
  | abort ha =>
    unfold State.atAwait at ha
    split at ha
    next hpc => rw [hpc] at h; exact h
    next hpc => rw [hpc] at h; exact h
    · cases ha

theorem reportedOK_reachable (h : (writer E depth sink₀ conn₀ node₀).Reachable s) : ReportedOK s := by
  refine h.invariant ?_ fun _ ho _ hs => (step_sound hs).reportedOK ho
  rfl

/-! ## Counters -/

/-- The total size of the encodings. -/
def size (encodings : List (List β)) : Nat := (encodings.map List.length).sum

@[simp] theorem size_append (es es' : List (List β)) : size (es ++ es') = size es + size es' := by
  simp [size]

/-- What the connection's counters have of the current batch. -/
def Pc.connCounted : Pc ε → Nat × Nat
  | .registering .connBytes msgs _ => (msgs, 0)
  | .registering .nodeMsgs msgs bytes | .registering .nodeBytes msgs bytes => (msgs, bytes)
  | _ => (0, 0)

/-- What the node's counters have of the current batch. -/
def Pc.nodeCounted : Pc ε → Nat × Nat
  | .registering .nodeBytes msgs _ => (msgs, 0)
  | _ => (0, 0)

structure CountedOK (conn₀ node₀ : Stats) (s : State β σ μ ε) : Prop where
  conn : s.conn =
    conn₀.registerSentMessages (s.sent.length + s.pc.connCounted.1) (size s.encoded + s.pc.connCounted.2)
  node : s.node = node₀.registerSentMessages (s.others.1 + s.sent.length + s.pc.nodeCounted.1)
    (s.others.2 + size s.encoded + s.pc.nodeCounted.2)

/-- The task moves on, and registers nothing. -/
theorem CountedOK.goto {pc : Pc ε} {write : Write β σ μ ε} {batch queue : List (Wrapped μ)}
    {reports : List (Nat × Report ε)} (h : CountedOK conn₀ node₀ s) (hc : pc.connCounted = s.pc.connCounted)
    (hn : pc.nodeCounted = s.pc.nodeCounted) : CountedOK conn₀ node₀
      { s with pc := pc, write := write, batch := batch, queue := queue, reports := reports } :=
  ⟨by rw [hc]; exact h.conn, by rw [hn]; exact h.node⟩

theorem StepR.countedOK (hB : BatchesOK E sink₀ s) (h : CountedOK conn₀ node₀ s) (hs : StepR E depth s a s') :
    CountedOK conn₀ node₀ s' := by
  cases hs with
  | queue | close | write => exact ⟨h.conn, h.node⟩
  | recv hpc | recvClosed hpc | panicked hpc | returned hpc | notified hpc | gaveUp hpc | notify hpc =>
    exact h.goto (by rw [hpc]; rfl) (by rw [hpc]; rfl)
  | @register c msgs bytes hpc =>
    obtain ⟨hconn, hnode⟩ := h
    obtain ⟨hmsgs, hbytes⟩ := hB.registering hpc
    rw [hpc] at hconn hnode
    cases c with
    | connMsgs =>
      refine ⟨?_, hnode⟩
      simp only [State.register, hconn, Stats.addMsgsSent_eq, Stats.registerSentMessages_add]
      rfl
    | connBytes =>
      refine ⟨?_, hnode⟩
      simp only [State.register, hconn, Stats.addBytesSent_eq, Stats.registerSentMessages_add]
      rfl
    | nodeMsgs =>
      refine ⟨hconn, ?_⟩
      simp only [State.register, hnode, Stats.addMsgsSent_eq, Stats.registerSentMessages_add]
      rfl
    | nodeBytes =>
      -- the counters now have the whole batch
      have hsent : (s.register .nodeBytes msgs bytes).sent.length = s.sent.length + msgs := by
        simp [State.register, State.sent, State.current, hmsgs]
      have hsize : size (s.register .nodeBytes msgs bytes).encoded = size s.encoded + bytes := by
        rw [← hbytes, ← size, ← size_append]
        simp [State.register, State.encoded, State.current]
      refine ⟨?_, ?_⟩
      · rw [hsent, hsize]
        exact hconn
      · rw [hsent, hsize, ← Nat.add_assoc, ← Nat.add_assoc]
        simp only [State.register, hnode, Stats.addBytesSent_eq, Stats.registerSentMessages_add]
        rfl
  | abort ha =>
    refine h.goto ?_ ?_
    all_goals
      unfold State.atAwait at ha
      split at ha
      next hpc => rw [hpc]; rfl
      next hpc => rw [hpc]; rfl
      · cases ha
  | @elsewhere m b =>
    -- the other task's share goes to the front
    have front : ∀ x y z n : Nat, x + y + z + n = x + n + y + z := fun x y z n => by omega
    refine ⟨h.conn, ?_⟩
    rw [h.node, Stats.registerSentMessages_add, front _ _ _ m, front _ _ _ b]
    rfl

theorem countedOK_reachable (h : (writer E depth sink₀ conn₀ node₀).Reachable s) : CountedOK conn₀ node₀ s := by
  refine h.invariant ?_ fun hr ho _ hs => (step_sound hs).countedOK (batchesOK_reachable hr) ho
  exact ⟨by simp [writer, State.init, State.sent, State.encoded, size, Pc.connCounted],
    by simp [writer, State.init, State.sent, State.encoded, size, Pc.nodeCounted]⟩

/-! ## Between two batches -/

/-- The outcome of a batch is being dealt with: reported, then counted. -/
def Pc.reporting : Pc ε → Bool
  | .notifying _ _ | .registering _ _ _ => true
  | _ => false

/-- Outside of that, the counters have the batches before the current one. -/
theorem counts_sent (hr : (writer E depth sink₀ conn₀ node₀).Reachable s) (hn : s.pc.reporting = false) :
    s.conn = conn₀.registerSentMessages s.sent.length (size s.encoded) ∧
      s.node = node₀.registerSentMessages (s.others.1 + s.sent.length) (s.others.2 + size s.encoded) := by
  obtain ⟨hconn, hnode⟩ := countedOK_reachable hr
  have hzero : s.pc.connCounted = (0, 0) ∧ s.pc.nodeCounted = (0, 0) := by
    cases hpc : s.pc <;> rw [hpc] at hn <;> first | exact ⟨rfl, rfl⟩ | cases hn
  rw [hzero.1] at hconn
  rw [hzero.2] at hnode
  exact ⟨hconn, hnode⟩

/-- The reports are those of the batches before and, if the current batch
failed, of that one. -/
theorem reports_sent (hr : (writer E depth sink₀ conn₀ node₀).Reachable s) (hn : s.pc.reporting = false) :
    ∃ F e, (F = [] ∨ F = notifiers s.batch) ∧
      s.reports = (notifiers s.sent).map (·, .ok ()) ++ F.map (·, .error e) := by
  have hR := reportedOK_reachable hr
  unfold ReportedOK at hR
  split at hR
  next hpc => rw [hpc] at hn; cases hn
  next hpc => rw [hpc] at hn; cases hn
  next =>
    obtain ⟨e, hR⟩ := hR
    exact ⟨_, e, .inr rfl, hR⟩
  next => exact ⟨[], .timedOut, .inl rfl, by simpa [reportsOf] using hR⟩

/-! ## Fates -/

/-- What becomes of a message whose delivery was asked for. -/
inductive Fate
  /-- Undecided: the task has not ended. -/
  | pending
  | ok
  | err
  /-- The notifier was dropped. -/
  | dropped
  deriving DecidableEq

/-- Without a report: pending, or dropped with the task. -/
def State.unreported (s : State β σ μ ε) : Fate := if s.pc.isEnded then .dropped else .pending

def State.fate (s : State β σ μ ε) (i : Nat) : Fate :=
  match s.reports.lookup i with
  | some (.ok _) => .ok
  | some (.error _) => .err
  | none => s.unreported

/-- The messages whose delivery was asked for, in the order of their
acceptance. -/
def State.asked (s : State β σ μ ε) : List Nat := notifiers s.accepted

def State.batches (s : State β σ μ ε) : List (Batch β μ) := s.past ++ if s.batch.isEmpty then [] else [s.current]

/-- The batches that were flushed. -/
def State.flushed (s : State β σ μ ε) : List (Batch β μ) := s.batches.filter (·.flushed)

/-- The task is at an await, or has ended: no outcome is being dealt with. -/
def State.settled (s : State β σ μ ε) : Bool := s.atAwait || s.pc.isEnded

/-- The reports and the counters agree with what was flushed. -/
structure Accounted (conn₀ node₀ : Stats) (s : State β σ μ ε) : Prop where
  /-- At most one report for each, and only where one was asked for. -/
  once : (s.reports.map Prod.fst).Nodup
  asked : ∀ i ∈ s.reports.map Prod.fst, i ∈ s.asked
  order : ∃ x y z, s.asked.map s.fate =
    List.replicate x .ok ++ List.replicate y .err ++ List.replicate z s.unreported
  /-- The failures are of the last batch. -/
  last : ∀ i ∈ s.asked, s.fate i = .err → ∃ b, s.batches.getLast? = some b ∧ i ∈ notifiers b.messages
  ok : ∀ i ∈ s.asked, s.fate i = .ok ↔ ∃ b ∈ s.batches, i ∈ notifiers b.messages ∧ b.Complete
  conn : s.conn = conn₀.registerSentMessages (s.flushed.flatMap (·.messages)).length
    (size (s.flushed.flatMap (·.encodings)))
  node : s.node = node₀.registerSentMessages (s.others.1 + (s.flushed.flatMap (·.messages)).length)
    (s.others.2 + size (s.flushed.flatMap (·.encodings)))

theorem lookup_reports {ns : List Nat} {r : Report ε} {i : Nat} :
    (ns.map (·, r)).lookup i = if i ∈ ns then some r else none := by
  induction ns with
  | nil => rfl
  | cons n ns ih =>
    rw [List.map_cons, List.lookup_cons]
    by_cases hin : i = n
    · simp [hin]
    · have hb : (i == n) = false := by simpa using hin
      simp [hb, ih, hin]

/-- Where a settled task is. -/
theorem State.settled_cases (hs : s.settled = true) :
    s.pc = .receiving ∨ (s.pc = .writing ∧ s.write.atAwait = true) ∨ ∃ e, s.pc = .ended e := by
  unfold settled atAwait at hs
  cases hpc : s.pc with
  | receiving => exact .inl rfl
  | writing => exact .inr (.inl ⟨rfl, by simpa [hpc, Pc.isEnded] using hs⟩)
  | ended e => exact .inr (.inr ⟨e, rfl⟩)
  | notifying | registering => simp [hpc, Pc.isEnded] at hs

theorem State.not_reporting_of_settled (hs : s.settled = true) : s.pc.reporting = false := by
  rcases State.settled_cases hs with hpc | ⟨hpc, -⟩ | ⟨e, hpc⟩ <;> · rw [hpc]; rfl

theorem State.unreported_ne : s.unreported ≠ .ok ∧ s.unreported ≠ .err := by
  unfold unreported
  split <;> simp

section

variable {P F : List Nat} {e : WriteError ε} (hreports : s.reports = P.map (·, .ok ()) ++ F.map (·, .error e))

include hreports

/-- The fate of a message, by the reports. -/
theorem fate_eq (i : Nat) : s.fate i = if i ∈ P then .ok else if i ∈ F then .err else s.unreported := by
  rw [State.fate, hreports, List.lookup_append, lookup_reports, lookup_reports]
  by_cases hP : i ∈ P
  · simp [hP]
  · by_cases hF : i ∈ F <;> simp [hP, hF]

theorem fate_ok_iff {i : Nat} : s.fate i = .ok ↔ i ∈ P := by
  rw [fate_eq hreports]
  by_cases hP : i ∈ P
  · simp [hP]
  · by_cases hF : i ∈ F <;> simp [hP, hF, State.unreported_ne.1]

theorem mem_of_fate_err {i : Nat} (h : s.fate i = .err) : i ∈ F := by
  rw [fate_eq hreports] at h
  split at h
  · cases h
  · split at h
    next hF => exact hF
    · exact absurd h State.unreported_ne.2

/-- The confirmed ones, the failed ones, and the rest. -/
theorem fates_eq {R : List Nat} (hnodup : (P ++ F ++ R).Nodup) : (P ++ F ++ R).map s.fate =
    List.replicate P.length .ok ++ List.replicate F.length .err ++ List.replicate R.length s.unreported := by
  have hfate := fate_eq hreports
  obtain ⟨hPF, -, hrest⟩ := List.nodup_append.mp hnodup
  have hdisj := (List.nodup_append.mp hPF).2.2
  have hP : P.map s.fate = List.replicate _ .ok :=
    List.map_eq_replicate_iff.mpr fun i hi => by rw [hfate, if_pos hi]
  have hF : F.map s.fate = List.replicate _ .err :=
    List.map_eq_replicate_iff.mpr fun i hi => by
      rw [hfate, if_neg fun hp => hdisj i hp i hi rfl, if_pos hi]
  have hR : R.map s.fate = List.replicate _ s.unreported :=
    List.map_eq_replicate_iff.mpr fun i hi => by
      have hn : ∀ L : List Nat, (∀ j ∈ L, j ∈ P ++ F) → i ∉ L := fun L hL hin => hrest i (hL i hin) i hi rfl
      rw [hfate, if_neg (hn _ fun j => List.mem_append_left _), if_neg (hn _ fun j => List.mem_append_right _)]
  rw [List.map_append, List.map_append, hP, hF, hR]

end

/-- The messages of a current batch, if there are any, are of the last one. -/
theorem getLast?_batches {i : Nat} (hi : i ∈ notifiers s.batch) : s.batches.getLast? = some s.current := by
  have hbatch : s.batch.isEmpty = false := by
    cases hb : s.batch with
    | nil => rw [hb] at hi; cases hi
    | cons => rfl
  simp [State.batches, hbatch]

section

variable (hr : (writer E depth sink₀ conn₀ node₀).Reachable s)

include hr

theorem asked_eq : s.asked = notifiers s.sent ++ notifiers s.batch ++ notifiers s.queue := by
  rw [State.asked, (acceptedOK_reachable hr).split, notifiers_append, notifiers_append]

theorem asked_nodup : s.asked.Nodup := (acceptedOK_reachable hr).sorted.imp fun h => Nat.ne_of_lt h

variable (hs : s.settled = true)

include hs

/-- The current batch, if there is one, is not flushed. -/
theorem unflushed : s.write.isFlushed = false := by
  have hC := (batchesOK_reachable hr).call
  unfold CallOK at hC
  rcases State.settled_cases hs with hpc | ⟨-, ha⟩ | ⟨e, hpc⟩
  · rw [hpc] at hC; exact hC
  · exact Write.isFlushed_of_atAwait ha
  · cases e with
    | failed =>
      rw [hpc] at hC
      obtain ⟨e, hC⟩ := hC
      simp [Write.isFlushed, hC]
    | _ => rw [hpc] at hC; exact hC

theorem flushed_eq : s.flushed = s.past := by
  have hpast : s.past.filter (·.flushed) = s.past :=
    List.filter_eq_self.mpr fun b hb => ((batchesOK_reachable hr).past b hb).2
  have hcur : s.current.flushed = false := unflushed hr hs
  rw [State.flushed, State.batches, List.filter_append, hpast]
  split
  · simp
  · simp [hcur]

theorem mem_sent_iff {i : Nat} : i ∈ notifiers s.sent ↔ ∃ b ∈ s.batches, i ∈ notifiers b.messages ∧ b.Complete := by
  rw [mem_notifiers_sent]
  constructor
  · rintro ⟨b, hb, hi⟩
    exact ⟨b, List.mem_append_left _ hb, hi, (batchesOK_reachable hr).past b hb⟩
  · rintro ⟨b, hb, hi, hc⟩
    rcases List.mem_append.mp hb with hb | hb
    · exact ⟨b, hb, hi⟩
    · -- the current batch is not complete
      split at hb
      · cases hb
      · rw [List.mem_singleton.mp hb] at hc
        cases (unflushed hr hs).symm.trans hc.2

end

/-- The reports and the counters of a writer task agree with what it
flushed. -/
theorem deliveries_accounted (E : Encoder β σ μ ε) (depth : Nat) (sink₀ : Sink β σ) (conn₀ node₀ : Stats)
    (s : State β σ μ ε) (hr : (writer E depth sink₀ conn₀ node₀).Reachable s) (hs : s.settled = true) :
    Accounted conn₀ node₀ s := by
  have hn := State.not_reporting_of_settled hs
  obtain ⟨F, e, hF, hreports⟩ := reports_sent hr hn
  obtain ⟨hconn, hnode⟩ := counts_sent hr hn
  have hkeys : s.reports.map Prod.fst = notifiers s.sent ++ F := by
    rw [hreports]
    simp [Function.comp_def]
  have hsub : notifiers s.sent ++ F <+: s.asked := by
    rw [asked_eq hr]
    rcases hF with rfl | rfl
    · exact ⟨notifiers s.batch ++ notifiers s.queue, by simp⟩
    · exact ⟨notifiers s.queue, rfl⟩
  obtain ⟨R, hR⟩ := hsub
  have hnodup := asked_nodup hr
  rw [← hR] at hnodup
  refine
    { once := by rw [hkeys]; exact (List.nodup_append.mp hnodup).1
      asked := fun i hi => by rw [← hR, ← hkeys]; exact List.mem_append_left _ hi
      order := ⟨(notifiers s.sent).length, F.length, R.length, by rw [← hR]; exact fates_eq hreports hnodup⟩
      last := fun i hi herr => ?_
      ok := fun i hi => (fate_ok_iff hreports).trans (mem_sent_iff hr hs)
      conn := by rw [flushed_eq hr hs]; exact hconn
      node := by rw [flushed_eq hr hs]; exact hnode }
  -- a failure is of the current batch
  have hiF := mem_of_fate_err hreports herr
  rcases hF with rfl | rfl
  · cases hiF
  · exact ⟨s.current, getLast?_batches hiF, hiF⟩

/-- Two messages are flushed in one batch, in two pieces; the next one is
too long for its codec, and another one is left in the queue. -/
def failingBatch : List (Act (List UInt8) String) :=
  [.queue [7] true, .queue [8, 9] true, .recv 2, .write .feed, .write .feed, .write (.write 2), .write .pend,
    .write .resume, .write (.write 3), .write .flushed, .conclude, .notify, .notify, .notify, .register, .register,
    .register, .register, .queue [1, 2, 3] true, .queue [4] true, .recv 1, .write .feed, .conclude, .notify, .notify]

theorem deliveries_accounted_failingBatch :
    ∃ s, (writer (lengthEncoder 2) 4 ⟨(), [], 64, []⟩ .new .new).Reachable s ∧ s.settled = true ∧
      s.asked.map s.fate = [.ok, .ok, .err, .dropped] ∧ s.conn = Stats.new.registerSentMessages 2 5 ∧
      Accounted .new .new s := by
  obtain ⟨s, hs, hp⟩ := (writer (lengthEncoder 2) 4 ⟨(), [], 64, []⟩ .new .new).exists_reachable failingBatch
    (fun s => s.settled = true ∧ s.asked.map s.fate = [.ok, .ok, .err, .dropped] ∧
      s.conn = Stats.new.registerSentMessages 2 5) (by decide +kernel)
  obtain ⟨hsettled, hfates, hconn⟩ := of_decide_eq_true hp
  exact ⟨s, hs, hsettled, hfates, hconn, deliveries_accounted _ _ _ _ _ s hs hsettled⟩

/-! ## Confirmed -/

/-- The counter has the current batch already. -/
def Pc.raised : Pc ε → Counter → Bool
  | .registering .connBytes _ _, .connMsgs => true
  | .registering .nodeMsgs _ _, .connMsgs | .registering .nodeMsgs _ _, .connBytes => true
  | .registering .nodeBytes _ _, .nodeBytes => false
  | .registering .nodeBytes _ _, _ => true
  | _, _ => false

/-- The batches a counter was raised by. -/
def State.raisedBy (s : State β σ μ ε) (c : Counter) : List (Batch β μ) :=
  s.past ++ if s.pc.raised c then [s.current] else []

/-- What batches add to a counter. -/
def Counter.tally : Counter → List (Batch β μ) → Nat
  | .connMsgs, bs | .nodeMsgs, bs => (bs.flatMap (·.messages)).length
  | .connBytes, bs | .nodeBytes, bs => size (bs.flatMap (·.encodings))

/-- The counter stands this far above its start, the shares of other tasks
apart. -/
def Counter.Shows (conn₀ node₀ : Stats) (s : State β σ μ ε) : Counter → Nat → Prop
  | .connMsgs, n => s.conn.msgsSent = conn₀.msgsSent + BitVec.ofNat 64 n
  | .connBytes, n => s.conn.bytesSent = conn₀.bytesSent + BitVec.ofNat 64 n
  | .nodeMsgs, n => s.node.msgsSent = node₀.msgsSent + BitVec.ofNat 64 (s.others.1 + n)
  | .nodeBytes, n => s.node.bytesSent = node₀.bytesSent + BitVec.ofNat 64 (s.others.2 + n)

/-- All four counters have the batch of message `i`. -/
def Counted (conn₀ node₀ : Stats) (s : State β σ μ ε) (i : Nat) : Prop :=
  ∀ c : Counter, c.Shows conn₀ node₀ s (c.tally (s.raisedBy c)) ∧
    i ∈ notifiers ((s.raisedBy c).flatMap (·.messages))

/-- A delivery of the current batch is confirmed, and the batch is not in all
the counters. -/
def State.confirming (s : State β σ μ ε) : Bool :=
  match s.pc with
  | .notifying (.ok _) left => left.length < (notifiers s.batch).length
  | .registering _ _ _ => !(notifiers s.batch).isEmpty
  | _ => false

theorem tally_raisedBy (hB : BatchesOK E sink₀ s) (c : Counter) : c.tally (s.raisedBy c) = match c with
    | .connMsgs => s.sent.length + s.pc.connCounted.1
    | .connBytes => size s.encoded + s.pc.connCounted.2
    | .nodeMsgs => s.sent.length + s.pc.nodeCounted.1
    | .nodeBytes => size s.encoded + s.pc.nodeCounted.2 := by
  cases hpc : s.pc with
  | registering c' msgs bytes =>
    obtain ⟨hmsgs, hbytes⟩ := hB.registering hpc
    cases c <;> cases c' <;>
      simp [Counter.tally, State.raisedBy, hpc, Pc.raised, Pc.connCounted, Pc.nodeCounted, State.sent, State.encoded,
        State.current, size, hmsgs, hbytes]
  | receiving | writing | notifying | ended =>
    cases c <;>
      simp [Counter.tally, State.raisedBy, hpc, Pc.raised, Pc.connCounted, Pc.nodeCounted, State.sent, State.encoded]

section

variable (hr : (writer E depth sink₀ conn₀ node₀).Reachable s)

include hr

/-- Each counter has the batches it was raised by. -/
theorem shows_raisedBy (c : Counter) : c.Shows conn₀ node₀ s (c.tally (s.raisedBy c)) := by
  obtain ⟨hconn, hnode⟩ := countedOK_reachable hr
  have htally := tally_raisedBy (batchesOK_reachable hr) c
  cases c <;> rw [htally, Counter.Shows]
  · rw [hconn]; rfl
  · rw [hconn]; rfl
  · rw [hnode, ← Nat.add_assoc]; rfl
  · rw [hnode, ← Nat.add_assoc]; rfl

/-- Beyond the batches before, some of the current one may be reported. -/
theorem reports_eq : ∃ told r, told <+: notifiers s.batch ∧
    s.reports = reportsOf s.sent (.ok ()) ++ told.map (·, r) ∧ (s.confirming = true ↔ told ≠ [] ∧ r = .ok ()) := by
  have hR := reportedOK_reachable hr
  unfold ReportedOK at hR
  split at hR
  next r left hpc =>
    obtain ⟨told, hbatch, hreports⟩ := hR
    refine ⟨told, _, ⟨left, hbatch.symm⟩, hreports, ?_⟩
    cases r with
    | ok r => simp [State.confirming, hpc, hbatch, Except.map, List.length_pos_iff]
    | error e => simp [State.confirming, hpc, Except.map]
  next hpc => exact ⟨_, _, List.prefix_rfl, hR, by simp [State.confirming, hpc]⟩
  next hpc =>
    obtain ⟨e, hR⟩ := hR
    exact ⟨_, _, List.prefix_rfl, hR, by simp [State.confirming, hpc]⟩
  next hnotifying hregistering _ =>
    refine ⟨[], .ok (), List.nil_prefix, by simpa using hR, ?_⟩
    unfold State.confirming
    split
    next hpc => exact absurd hpc (hnotifying _ _)
    next hpc => exact absurd hpc (hregistering _ _ _)
    · simp

theorem not_mem_batch {i : Nat} (hi : i ∈ notifiers s.sent) : i ∉ notifiers s.batch := by
  have hnodup := asked_nodup hr
  rw [asked_eq hr] at hnodup
  exact fun hb => (List.nodup_append.mp (List.nodup_append.mp hnodup).1).2.2 i hi i hb rfl

/-- A confirmed message is of the batches before, or of the current one and
then the task is confirming. -/
theorem confirmed_cases {i : Nat} (hi : (i, .ok ()) ∈ s.reports) :
    i ∈ notifiers s.sent ∨ i ∈ notifiers s.batch ∧ s.confirming = true := by
  obtain ⟨told, r, htold, hreports, hconfirming⟩ := reports_eq hr
  rw [hreports] at hi
  rcases List.mem_append.mp hi with hi | hi
  · obtain ⟨j, hj, he⟩ := List.mem_map.mp hi
    cases he
    exact .inl hj
  · obtain ⟨j, hj, he⟩ := List.mem_map.mp hi
    cases he
    exact .inr ⟨htold.subset hj, hconfirming.mpr ⟨List.ne_nil_of_mem hj, rfl⟩⟩

/-- The last counter does not have the current batch. -/
theorem counted_iff {i : Nat} (hi : (i, .ok ()) ∈ s.reports) :
    Counted conn₀ node₀ s i ↔ i ∉ notifiers s.batch := by
  constructor
  · intro hcounted
    have hlast := (hcounted .nodeBytes).2
    have hraised : s.pc.raised .nodeBytes = false := by
      unfold Pc.raised
      split <;> simp_all
    rw [State.raisedBy, hraised, if_neg (by simp), List.append_nil, ← State.sent] at hlast
    exact not_mem_batch hr hlast
  · intro hn c
    have hsent : i ∈ notifiers s.sent := (confirmed_cases hr hi).resolve_right fun hb => hn hb.1
    refine ⟨shows_raisedBy hr c, ?_⟩
    rw [State.raisedBy, List.flatMap_append, notifiers_append, ← State.sent]
    exact List.mem_append_left _ hsent

end

/-- A confirmed delivery is counted exactly if its batch is not the current
one any more; so all of them are exactly if the task is not between the first
confirmation of a batch and the last counter. -/
theorem confirmed_counted (E : Encoder β σ μ ε) (depth : Nat) (sink₀ : Sink β σ) (conn₀ node₀ : Stats)
    (s : State β σ μ ε) (hr : (writer E depth sink₀ conn₀ node₀).Reachable s) :
    (∀ i, (i, .ok ()) ∈ s.reports → (Counted conn₀ node₀ s i ↔ i ∉ notifiers s.batch)) ∧
      ((∀ i, (i, .ok ()) ∈ s.reports → Counted conn₀ node₀ s i) ↔ s.confirming = false) := by
  refine ⟨fun i hi => counted_iff hr hi, fun hall => ?_, fun hn i hi => ?_⟩
  · rw [← Bool.not_eq_true]
    intro hconfirming
    obtain ⟨told, r, htold, hreports, hiff⟩ := reports_eq hr
    obtain ⟨hne, rfl⟩ := hiff.mp hconfirming
    obtain ⟨i, hi⟩ := List.exists_mem_of_ne_nil told hne
    have hconfirmed : (i, .ok ()) ∈ s.reports := by
      rw [hreports]
      exact List.mem_append_right _ (List.mem_map_of_mem hi)
    exact (counted_iff hr hconfirmed).mp (hall i hconfirmed) (htold.subset hi)
  · rw [counted_iff hr hi]
    rcases confirmed_cases hr hi with hsent | ⟨-, hconfirming⟩
    · exact not_mem_batch hr hsent
    · rw [hn] at hconfirming
      cases hconfirming

theorem confirmed_counted_failingBatch :
    ∃ s, (writer (lengthEncoder 2) 4 ⟨(), [], 64, []⟩ .new .new).Reachable s ∧ s.confirming = false ∧
      (1, .ok ()) ∈ s.reports ∧ Counted .new .new s 1 := by
  obtain ⟨s, hs, hp⟩ := (writer (lengthEncoder 2) 4 ⟨(), [], 64, []⟩ .new .new).exists_reachable failingBatch
    (fun s => s.confirming = false ∧ (1, .ok ()) ∈ s.reports) (by decide +kernel)
  obtain ⟨hn, hi⟩ := of_decide_eq_true hp
  exact ⟨s, hs, hn, hi, (confirmed_counted _ _ _ _ _ s hs).2.mpr hn 1 hi⟩

/-- A batch of one message is flushed and its delivery confirmed, and the
counters are as they were. -/
theorem confirmed_uncounted : ∃ s, (writer (lengthEncoder 2) 4 ⟨(), [], 64, []⟩ .new .new).Reachable s ∧
    (0, .ok ()) ∈ s.reports ∧ s.conn = .new ∧ s.node = .new ∧ ¬ Counted .new .new s 0 := by
  obtain ⟨s, hs, hp⟩ := (writer (lengthEncoder 2) 4 ⟨(), [], 64, []⟩ .new .new).exists_reachable
    [.queue [7] true, .recv 1, .write .feed, .write (.write 2), .write .flushed, .conclude, .notify]
    (fun s => (0, .ok ()) ∈ s.reports ∧ s.conn = .new ∧ s.node = .new ∧ 0 ∈ notifiers s.batch) (by decide +kernel)
  obtain ⟨hi, hconn, hnode, hbatch⟩ := of_decide_eq_true hp
  exact ⟨s, hs, hi, hconn, hnode, fun hcounted => (counted_iff hs hi).mp hcounted hbatch⟩

end Pea2Pea.Writer
