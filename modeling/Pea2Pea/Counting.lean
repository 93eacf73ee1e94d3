/-
`CountingCodec` (`protocols/reading.rs`): the decoder of a connection's
reader, which counts the messages the user's decoder yields, with the bytes
each of them took.

Bytes that a call consumed without yielding a message are carried over in
`acc`, and charged to the message that comes next. A call of either entry
point is one step here, registrations included; between two calls any data
is appended to the buffer, and other connections register what they received
with the node. A call that panics unwinds before the accounting, and no call
comes after it. `acc` is a `usize`; 2^64 bytes without a message are out of
its reach.
-/
import Pea2Pea.Lib.Framed
import Pea2Pea.Lib.Transition
import Pea2Pea.Stats

namespace Pea2Pea.Reader

open Framed

variable {β σ δ μ ε ε' : Type}

structure CountingCodec (δ : Type) where
  codec : δ
  /-- The node's counters, which it shares. -/
  node : Stats
  stats : Stats
  acc : Nat

namespace CountingCodec

def account (c : CountingCodec δ) (initialLen finalLen : Nat) (produced : Bool) : CountingCodec δ :=
  -- the subtraction saturates
  let consumed := initialLen - finalLen
  let readLen := consumed + c.acc
  if readLen ≠ 0 then
    if produced then
      { c with
        acc := 0
        stats := c.stats.registerReceivedMessage readLen
        node := c.node.registerReceivedMessage readLen }
    else { c with acc := readLen }
  else c

/-- A call of the decoder inside, by either entry point, and its
accounting. -/
def call (f : δ → List β → δ × List β × Decoded μ ε) (c : CountingCodec δ) (src : List β) :
    CountingCodec δ × List β × Decoded μ ε :=
  match f c.codec src with
  | (codec, rest, .item m) => ({ c with codec := codec }.account src.length rest.length true, rest, .item m)
  | (codec, rest, .more) => ({ c with codec := codec }.account src.length rest.length false, rest, .more)
  | (codec, rest, .error e) => ({ c with codec := codec }.account src.length rest.length false, rest, .error e)
  | (codec, rest, .panic) => ({ c with codec := codec }, rest, .panic)

end CountingCodec

/-- `impl Decoder for CountingCodec`. -/
def countingDecoder (D : Decoder β δ μ ε) : Decoder β (CountingCodec δ) μ ε where
  decode := CountingCodec.call D.decode
  decodeEof := CountingCodec.call D.decodeEof

/-! ## What it yields -/

theorem CountingCodec.account_codec (c : CountingCodec δ) (n k : Nat) (produced : Bool) :
    (c.account n k produced).codec = c.codec := by
  unfold account
  dsimp only
  split
  · split <;> rfl
  · rfl

theorem CountingCodec.call_eq (f : δ → List β → δ × List β × Decoded μ ε) (c : CountingCodec δ) (src : List β) :
    f c.codec src = ((c.call f src).1.codec, (c.call f src).2) := by
  unfold call
  split
  next h => rw [h, account_codec]
  next h => rw [h, account_codec]
  next h => rw [h, account_codec]
  next h => rw [h]

/-- The source behind the decoder inside. -/
def inner (s : Source β (CountingCodec δ)) : Source β δ := ⟨s.codec.codec, s.buffer, s.readable, s.eof⟩

theorem inner_poll {D : Decoder β δ μ ε} {s : Source β (CountingCodec δ)} {codec : CountingCodec δ} {buffer : List β}
    {r : Decoded μ ε} (h : s.poll (countingDecoder D) = (codec, buffer, r)) :
    (inner s).poll D = (codec.codec, buffer, r) := by
  cases he : s.eof with
  | true =>
    simp only [Source.poll, he, if_true, countingDecoder] at h
    simp only [Source.poll, inner, he, if_true]
    rw [CountingCodec.call_eq D.decodeEof, h]
  | false =>
    simp only [Source.poll, he, Bool.false_eq_true, if_false, countingDecoder] at h
    simp only [Source.poll, inner, he, Bool.false_eq_true, if_false]
    rw [CountingCodec.call_eq D.decode, h]

theorem yields_inner {D : Decoder β δ μ ε} {c : CountingCodec δ} {s : Source β (CountingCodec δ)}
    {chunks : List (List β)} {ms : List μ} (h : (countingDecoder D).Yields c s chunks ms) :
    D.Yields c.codec (inner s) chunks ms := by
  induction h with
  | new => exact .new
  | read _ hr chunk ih => exact ih.read hr chunk
  | item _ hr hp ih => exact ih.item hr (inner_poll hp)
  | more _ hr hp ih => exact ih.more hr (inner_poll hp)

/-- Counting does not change what a decoder takes a stream for. -/
theorem countingDecoder_decodes {E : Encoder β σ μ ε'} {c : σ} {D : Decoder β δ μ ε} {d : CountingCodec δ}
    (h : Decodes E c D d.codec) : Decodes E c (countingDecoder D) d :=
  fun _ _ _ hrun _ _ _ hy hread => h hrun (yields_inner hy) hread

theorem countingDecoder_decodesAll {E : Encoder β σ μ ε'} {c : σ} {D : Decoder β δ μ ε} {d : CountingCodec δ}
    (h : DecodesAll E c D d.codec) : DecodesAll E c (countingDecoder D) d where
  decodes := countingDecoder_decodes h.decodes
  accepts := by
    intro ms bs c' hrun s chunks items hy hread heof
    have hinner := h.accepts hrun (yields_inner hy) hread heof
    rwa [inner_poll rfl] at hinner
  complete := fun _ _ _ hrun _ _ _ hy hread hr he => h.complete hrun (yields_inner hy) hread hr he

/-! ## Calls -/

structure Calls (β δ : Type) where
  codec : CountingCodec δ
  src : List β
  /-- A call has panicked. -/
  panicked : Bool
  /-- All the data that was appended; how much of it was consumed up to and
  including the last message, and what the calls since took; the messages
  yielded, and how many of them came with nothing consumed since the one
  before; and what other connections registered with the node (read by no
  step). -/
  fed : List β
  mark : Nat
  since : Nat
  yielded : Nat
  gratis : Nat
  others : Nat × Nat

/-- The bytes consumed so far. -/
def Calls.consumed (s : Calls β δ) : Nat := s.fed.length - s.src.length

inductive CallAct (β : Type)
  | append (data : List β)
  | decode
  | decodeEof
  /-- Another connection receives a message of this size. -/
  | elsewhere (size : Nat)

/-- After a call. -/
def Calls.after (s : Calls β δ) : CountingCodec δ × List β × Decoded μ ε → Calls β δ
  | (codec, src, .item _) =>
    { s with
      codec := codec
      src := src
      mark := s.fed.length - src.length
      since := 0
      yielded := s.yielded + 1
      gratis := if s.since + (s.src.length - src.length) = 0 then s.gratis + 1 else s.gratis }
  | (codec, src, .more) | (codec, src, .error _) =>
    { s with codec := codec, src := src, since := s.since + (s.src.length - src.length) }
  | (codec, src, .panic) => { s with codec := codec, src := src, panicked := true }

def Calls.step (D : Decoder β δ μ ε) (s : Calls β δ) : CallAct β → Option (Calls β δ)
  | .append data => some { s with src := s.src ++ data, fed := s.fed ++ data }
  | .decode => if s.panicked then none else some (s.after ((countingDecoder D).decode s.codec s.src))
  | .decodeEof => if s.panicked then none else some (s.after ((countingDecoder D).decodeEof s.codec s.src))
  | .elsewhere size =>
    some { s with
      codec := { s.codec with node := s.codec.node.registerReceivedMessage size }
      others := (s.others.1 + 1, s.others.2 + size) }

/-- A connection's decoder, and the counters it starts with. -/
def counting (D : Decoder β δ μ ε) (codec : δ) (conn node : Stats) : Machine (Calls β δ) (CallAct β) where
  init := ⟨⟨codec, node, conn, 0⟩, [], false, [], 0, 0, 0, 0, (0, 0)⟩
  step := Calls.step D

/-- The decoder inside is called, by this entry point. -/
def CallAct.entry (D : Decoder β δ μ ε) : CallAct β → Option (δ → List β → δ × List β × Decoded μ ε)
  | .decode => some D.decode
  | .decodeEof => some D.decodeEof
  | _ => none

/-! ## The steps as a relation -/

inductive Calls.StepR (D : Decoder β δ μ ε) (s : Calls β δ) : CallAct β → Calls β δ → Prop
  | append {data} : StepR D s (.append data) { s with src := s.src ++ data, fed := s.fed ++ data }
  | item {a f codec rest m} (hp : s.panicked = false) (hf : a.entry D = some f)
      (hr : f s.codec.codec s.src = (codec, rest, .item m)) :
      StepR D s a { s with
        codec := { s.codec with codec := codec }.account s.src.length rest.length true
        src := rest
        mark := s.fed.length - rest.length
        since := 0
        yielded := s.yielded + 1
        gratis := if s.since + (s.src.length - rest.length) = 0 then s.gratis + 1 else s.gratis }
  | none {a f codec rest r} (hp : s.panicked = false) (hf : a.entry D = some f)
      (hr : f s.codec.codec s.src = (codec, rest, r)) (hnone : r = .more ∨ ∃ e, r = .error e) :
      StepR D s a { s with
        codec := { s.codec with codec := codec }.account s.src.length rest.length false
        src := rest
        since := s.since + (s.src.length - rest.length) }
  | panic {a f codec rest} (hp : s.panicked = false) (hf : a.entry D = some f)
      (hr : f s.codec.codec s.src = (codec, rest, .panic)) :
      StepR D s a { s with codec := { s.codec with codec := codec }, src := rest, panicked := true }
  | elsewhere {size} : StepR D s (.elsewhere size) { s with
      codec := { s.codec with node := s.codec.node.registerReceivedMessage size }
      others := (s.others.1 + 1, s.others.2 + size) }

theorem Calls.step_sound {D : Decoder β δ μ ε} {s s' : Calls β δ} {a : CallAct β} (h : s.step D a = some s') :
    Calls.StepR D s a s' := by
  have call : ∀ {f : δ → List β → δ × List β × Decoded μ ε}, a.entry D = some f → s.panicked = false →
      s.after (s.codec.call f s.src) = s' → Calls.StepR D s a s' := by
    intro f hf hp hs
    subst hs
    unfold CountingCodec.call
    split
    next hr => exact .item hp hf hr
    next hr => exact .none hp hf hr (.inl rfl)
    next hr => exact .none hp hf hr (.inr ⟨_, rfl⟩)
    next hr => exact .panic hp hf hr
  cases a <;> simp only [Calls.step] at h
  case append => cases h; exact .append
  case elsewhere => cases h; exact .elsewhere
  case decode =>
    split at h
    · cases h
    next hp => exact call rfl (by simpa using hp) (Option.some.inj h)
  case decodeEof =>
    split at h
    · cases h
    next hp => exact call rfl (by simpa using hp) (Option.some.inj h)

/-! ## Bytes -/

namespace CountingCodec

theorem account_zero {c : CountingCodec δ} {n k : Nat} (h : n - k + c.acc = 0) (produced : Bool) :
    c.account n k produced = c := by
  simp only [account, h, ne_eq, not_true_eq_false, if_false]

theorem account_pos {c : CountingCodec δ} {n k : Nat} (h : n - k + c.acc ≠ 0) (produced : Bool) :
    c.account n k produced =
      if produced then
        { c with
          acc := 0
          stats := c.stats.registerReceivedMessage (n - k + c.acc)
          node := c.node.registerReceivedMessage (n - k + c.acc) }
      else { c with acc := n - k + c.acc } :=
  if_pos h

/-- With a message, everything since the last one is registered. -/
theorem account_yield (c : CountingCodec δ) (n k : Nat) :
    (c.account n k true).acc = 0 ∧
      (c.account n k true).stats.bytesReceived = c.stats.bytesReceived + BitVec.ofNat 64 (n - k + c.acc) ∧
      (c.account n k true).node.bytesReceived = c.node.bytesReceived + BitVec.ofNat 64 (n - k + c.acc) := by
  by_cases hzero : n - k + c.acc = 0
  · rw [account_zero hzero, hzero]
    exact ⟨by omega, by simp, by simp⟩
  · rw [account_pos hzero]
    exact ⟨rfl, rfl, rfl⟩

/-- Without one, nothing is. -/
theorem account_none (c : CountingCodec δ) (n k : Nat) :
    (c.account n k false).acc = n - k + c.acc ∧ (c.account n k false).stats = c.stats ∧
      (c.account n k false).node = c.node := by
  by_cases hzero : n - k + c.acc = 0
  · rw [account_zero hzero, hzero]
    exact ⟨by omega, rfl, rfl⟩
  · rw [account_pos hzero]
    exact ⟨rfl, rfl, rfl⟩

end CountingCodec

variable {D : Decoder β δ μ ε} {codec : δ} {conn₀ node₀ : Stats} {s s' : Calls β δ} {a : CallAct β}

theorem Calls.StepR.acc_eq (h : s.codec.acc = s.since) (hs : Calls.StepR D s a s') : s'.codec.acc = s'.since := by
  cases hs with
  | append | panic | elsewhere => exact h
  | item => exact (CountingCodec.account_yield _ _ _).1
  | none => rw [(CountingCodec.account_none _ _ _).1, h, Nat.add_comm]

/-- `acc` is what was consumed since the last message, whatever the decoder
does. -/
theorem acc_eq_since (h : (counting D codec conn₀ node₀).Reachable s) : s.codec.acc = s.since := by
  refine h.invariant ?_ fun _ hacc _ hs => (Calls.step_sound hs).acc_eq hacc
  rfl

structure ConservedOK (conn₀ node₀ : Stats) (s : Calls β δ) : Prop where
  /-- What was not consumed is in the buffer. -/
  src : s.src <:+ s.fed
  acc : s.panicked = false → s.mark + s.codec.acc = s.consumed
  conn : s.codec.stats.bytesReceived = conn₀.bytesReceived + BitVec.ofNat 64 s.mark
  node : s.codec.node.bytesReceived = node₀.bytesReceived + BitVec.ofNat 64 (s.others.2 + s.mark)

theorem entry_suffix (hD : D.OnlyConsumes) {f : δ → List β → δ × List β × Decoded μ ε}
    (hf : a.entry D = some f) {d codec : δ} {src rest : List β} {r : Decoded μ ε} (hr : f d src = (codec, rest, r)) :
    rest <:+ src := by
  cases a with
  | decode =>
    cases hf
    have h := (hD d src).1
    rwa [hr] at h
  | decodeEof =>
    cases hf
    have h := (hD d src).2
    rwa [hr] at h
  | append | elsewhere => cases hf

theorem Calls.StepR.conservedOK (hD : D.OnlyConsumes) (h : ConservedOK conn₀ node₀ s) (hs : Calls.StepR D s a s') :
    ConservedOK conn₀ node₀ s' := by
  have hlen := h.src.length_le
  cases hs with
  | @append data =>
    refine ⟨?_, fun hp => ?_, h.conn, h.node⟩
    · obtain ⟨eaten, heaten⟩ := h.src
      exact ⟨eaten, by rw [← heaten, List.append_assoc]⟩
    · have := h.acc hp
      simp only [Calls.consumed, List.length_append] at this ⊢
      omega
  | @item _ f codec rest m hp hf hr =>
    have hsuf := entry_suffix hD hf hr
    have hle := hsuf.length_le
    have hacc := h.acc hp
    obtain ⟨hzero, hconn, hnode⟩ :=
      CountingCodec.account_yield { s.codec with codec := codec } s.src.length rest.length
    -- what is registered takes the mark to where the decoder is
    have hmark : s.mark + (s.src.length - rest.length + s.codec.acc) = s.fed.length - rest.length := by
      simp only [Calls.consumed] at hacc
      omega
    refine ⟨hsuf.trans h.src, fun _ => ?_, ?_, ?_⟩
    · rw [hzero]
      rfl
    · rw [hconn, h.conn, BitVec.add_assoc, ← BitVec.ofNat_add, hmark]
    · rw [hnode, h.node, BitVec.add_assoc, ← BitVec.ofNat_add, Nat.add_assoc, hmark]
  | @none _ f codec rest r hp hf hr =>
    have hsuf := entry_suffix hD hf hr
    have hle := hsuf.length_le
    obtain ⟨hacc, hconn, hnode⟩ :=
      CountingCodec.account_none { s.codec with codec := codec } s.src.length rest.length
    refine ⟨hsuf.trans h.src, fun _ => ?_, ?_, ?_⟩
    · have := h.acc hp
      rw [hacc]
      simp only [Calls.consumed] at this ⊢
      omega
    · rw [hconn]; exact h.conn
    · rw [hnode]; exact h.node
  | panic hp hf hr => exact ⟨(entry_suffix hD hf hr).trans h.src, fun hn => (by cases hn), h.conn, h.node⟩
  | @elsewhere size =>
    refine ⟨h.src, h.acc, h.conn, ?_⟩
    simp only [Stats.registerReceivedMessage_bytes, h.node, BitVec.add_assoc, ← BitVec.ofNat_add]
    congr 2
    omega

theorem conservedOK_reachable (hD : D.OnlyConsumes) (h : (counting D codec conn₀ node₀).Reachable s) :
    ConservedOK conn₀ node₀ s := by
  refine h.invariant ?_ fun _ ho _ hs => (Calls.step_sound hs).conservedOK hD ho
  exact ⟨List.suffix_refl _, fun _ => rfl, by simp [counting], by simp [counting]⟩

/-- The call is one for which the decoder inside returns an error. -/
def Errs (D : Decoder β δ μ ε) (s : Calls β δ) (a : CallAct β) : Prop :=
  ∃ f codec rest e, a.entry D = some f ∧ f s.codec.codec s.src = (codec, rest, .error e)

/-- What is registered are the bytes up to the last message, and what came
since is carried over; a call that fails registers nothing. -/
theorem bytes_conserved (D : Decoder β δ μ ε) (hD : D.OnlyConsumes) (codec : δ) (conn₀ node₀ : Stats)
    (s : Calls β δ) (h : (counting D codec conn₀ node₀).Reachable s) :
    s.codec.stats.bytesReceived = conn₀.bytesReceived + BitVec.ofNat 64 s.mark ∧
      s.codec.node.bytesReceived = node₀.bytesReceived + BitVec.ofNat 64 (s.others.2 + s.mark) ∧
      (s.panicked = false → s.mark ≤ s.consumed ∧ s.codec.acc = s.consumed - s.mark ∧ s.since = s.codec.acc) ∧
      ∀ a s', s.step D a = some s' → Errs D s a → s'.codec.stats = s.codec.stats ∧ s'.codec.node = s.codec.node := by
  have ok := conservedOK_reachable hD h
  refine ⟨ok.conn, ok.node, fun hp => ?_, fun a s' hs herr => ?_⟩
  · have := ok.acc hp
    exact ⟨by omega, by omega, (acc_eq_since h).symm⟩
  · obtain ⟨f, codec, rest, e, hf, hr⟩ := herr
    cases Calls.step_sound hs with
    | append | elsewhere => cases hf
    | item hp hf' hr' | panic hp hf' hr' =>
      rw [hf] at hf'; cases hf'
      rw [hr] at hr'; cases hr'
    | none hp hf' hr' =>
      exact (CountingCodec.account_none _ _ _).2

/-- A decoder that takes a frame's length in one call, and its content in
another. -/
def headerDecoder : Decoder UInt8 (Option Nat) (List UInt8) String where
  decode := decode
  decodeEof := decode
where
  decode (d : Option Nat) (buffer : List UInt8) : Option Nat × List UInt8 × Decoded (List UInt8) String :=
    match d, buffer with
    | none, [] => (none, [], .more)
    | none, n :: rest => if n.toNat < 10 then (some n.toNat, rest, .more) else (none, rest, .error "frame too long")
    | some n, buffer =>
      if n ≤ buffer.length then (none, buffer.drop n, .item (buffer.take n)) else (some n, buffer, .more)

theorem headerDecoder_onlyConsumes : headerDecoder.OnlyConsumes := by
  have suffix : ∀ d buffer, (headerDecoder.decode d buffer).2.1 <:+ buffer := by
    intro d buffer
    unfold headerDecoder.decode
    split
    · exact List.suffix_refl _
    · split <;> exact List.suffix_cons _ _
    · split
      · exact List.drop_suffix _ _
      · exact List.suffix_refl _
  exact fun d buffer => ⟨suffix d buffer, suffix d buffer⟩

/-- A message of two bytes, in two pieces, and the length of the next one. -/
def nextHeader : List (CallAct UInt8) :=
  [.append [2, 7], .decode, .decode, .elsewhere 5, .append [8, 3], .decode, .decode]

theorem bytes_conserved_nextHeader : ∃ s, headerDecoder.OnlyConsumes ∧
    (counting headerDecoder none .new .new).Reachable s ∧ s.mark = 3 ∧ s.consumed = 4 ∧
    s.codec.stats.bytesReceived = 3 ∧ s.codec.node.bytesReceived = 8 ∧ s.codec.acc = 1 := by
  obtain ⟨s, hs, hp⟩ := (counting headerDecoder none .new .new).exists_reachable nextHeader
    (fun s => s.panicked = false ∧ s.others.2 = 5 ∧ s.mark = 3 ∧ s.consumed = 4) (by decide +kernel)
  obtain ⟨hlive, hothers, hmark, hconsumed⟩ := of_decide_eq_true hp
  obtain ⟨hconn, hnode, hacc, -⟩ := bytes_conserved _ headerDecoder_onlyConsumes _ _ _ s hs
  rw [hmark] at hconn
  rw [hothers, hmark] at hnode
  rw [hmark, hconsumed] at hacc
  exact ⟨s, headerDecoder_onlyConsumes, hs, hmark, hconsumed, hconn, hnode, (hacc hlive).2.1⟩

/-! ## Messages -/

/-- Only a message that took some bytes is registered. -/
theorem CountingCodec.account_msgs (c : CountingCodec δ) (n k : Nat) :
    (c.account n k true).stats.msgsReceived = c.stats.msgsReceived + (if n - k + c.acc = 0 then 0#64 else 1#64) ∧
      (c.account n k true).node.msgsReceived = c.node.msgsReceived + (if n - k + c.acc = 0 then 0#64 else 1#64) := by
  by_cases hzero : n - k + c.acc = 0
  · rw [account_zero hzero, if_pos hzero]
    exact ⟨(BitVec.add_zero _).symm, (BitVec.add_zero _).symm⟩
  · rw [account_pos hzero, if_neg hzero]
    exact ⟨rfl, rfl⟩

/-- What was counted and what came for free make up what was yielded. -/
structure YieldedOK (conn₀ node₀ : Stats) (s : Calls β δ) : Prop where
  conn : s.codec.stats.msgsReceived + BitVec.ofNat 64 s.gratis = conn₀.msgsReceived + BitVec.ofNat 64 s.yielded
  node : s.codec.node.msgsReceived + BitVec.ofNat 64 s.gratis =
    node₀.msgsReceived + BitVec.ofNat 64 (s.others.1 + s.yielded)

/-- One more message, counted or for free. -/
theorem yielded_succ {x₀ x x' : BitVec 64} {g y n : Nat} (h : x + BitVec.ofNat 64 g = x₀ + BitVec.ofNat 64 y)
    (hx : x' = x + (if n = 0 then 0#64 else 1#64)) :
    x' + BitVec.ofNat 64 (if n = 0 then g + 1 else g) = x₀ + BitVec.ofNat 64 (y + 1) := by
  rw [hx, BitVec.ofNat_add y, ← BitVec.add_assoc, ← h]
  split
  · rw [BitVec.add_zero, BitVec.ofNat_add, BitVec.add_assoc]
  · rw [BitVec.add_assoc, BitVec.add_assoc, BitVec.add_comm 1#64]

theorem Calls.StepR.yieldedOK (hacc : s.codec.acc = s.since) (h : YieldedOK conn₀ node₀ s)
    (hs : Calls.StepR D s a s') : YieldedOK conn₀ node₀ s' := by
  cases hs with
  | append | panic => exact ⟨h.conn, h.node⟩
  | @item _ f codec rest m hp hf hr =>
    obtain ⟨hconn, hnode⟩ := CountingCodec.account_msgs { s.codec with codec := codec } s.src.length rest.length
    have hread : s.src.length - rest.length + s.codec.acc = s.since + (s.src.length - rest.length) := by
      rw [hacc, Nat.add_comm]
    rw [hread] at hconn hnode
    exact ⟨yielded_succ h.conn hconn, yielded_succ h.node hnode⟩
  | @none _ f codec rest r hp hf hr =>
    obtain ⟨-, hconn, hnode⟩ :=
      CountingCodec.account_none { s.codec with codec := codec } s.src.length rest.length
    exact ⟨by rw [hconn]; exact h.conn, by rw [hnode]; exact h.node⟩
  | elsewhere =>
    refine ⟨h.conn, ?_⟩
    have hone : BitVec.ofNat 64 1 = 1 := rfl
    rw [Nat.add_right_comm, BitVec.ofNat_add, ← BitVec.add_assoc, ← h.node, Stats.registerReceivedMessage_msgs,
      BitVec.add_assoc, BitVec.add_assoc, BitVec.add_comm (BitVec.ofNat 64 s.gratis), hone]

theorem yieldedOK_reachable (h : (counting D codec conn₀ node₀).Reachable s) : YieldedOK conn₀ node₀ s := by
  refine h.invariant ?_ fun hr ho _ hs => (Calls.step_sound hs).yieldedOK (acc_eq_since hr) ho
  exact ⟨by simp [counting], by simp [counting]⟩

theorem counted_iff {x₀ x : BitVec 64} {g y : Nat} (h : x + BitVec.ofNat 64 g = x₀ + BitVec.ofNat 64 y) :
    x = x₀ + BitVec.ofNat 64 y ↔ 2 ^ 64 ∣ g := by
  rw [← h, BitVec.self_eq_add_right, ← BitVec.toNat_inj, BitVec.toNat_ofNat, Nat.dvd_iff_mod_eq_zero]
  rfl

/-- The counters have every message yielded, once, exactly when none of them
came for free: with nothing consumed by the call that yielded it, nor by any
since the message before. (They count modulo 2^64.) -/
theorem yielded_counted (D : Decoder β δ μ ε) (codec : δ) (conn₀ node₀ : Stats) (s : Calls β δ)
    (h : (counting D codec conn₀ node₀).Reachable s) :
    (s.codec.stats.msgsReceived = conn₀.msgsReceived + BitVec.ofNat 64 s.yielded ↔ 2 ^ 64 ∣ s.gratis) ∧
      (s.codec.node.msgsReceived = node₀.msgsReceived + BitVec.ofNat 64 (s.others.1 + s.yielded) ↔
        2 ^ 64 ∣ s.gratis) := by
  have ok := yieldedOK_reachable h
  exact ⟨counted_iff ok.conn, counted_iff ok.node⟩

theorem yielded_counted_nextHeader : ∃ s, (counting headerDecoder none .new .new).Reachable s ∧
    s.yielded = 2 ∧ s.gratis = 0 ∧ s.codec.stats.msgsReceived = 2 ∧ s.codec.node.msgsReceived = 3 := by
  obtain ⟨s, hs, hp⟩ := (counting headerDecoder none .new .new).exists_reachable
    (nextHeader ++ [.append [4, 5, 6], .decodeEof])
    (fun s => s.others.1 = 1 ∧ s.yielded = 2 ∧ s.gratis = 0) (by decide +kernel)
  obtain ⟨hothers, hyielded, hgratis⟩ := of_decide_eq_true hp
  obtain ⟨hconn, hnode⟩ := yielded_counted _ _ _ _ s hs
  rw [hyielded, hgratis] at hconn
  rw [hothers, hyielded, hgratis] at hnode
  exact ⟨s, hs, hyielded, hgratis, hconn.mpr (Nat.dvd_zero _), hnode.mpr (Nat.dvd_zero _)⟩

/-- A decoder that takes two messages out of each byte, and yields the second
one from the call after. -/
def pairDecoder : Decoder UInt8 (Option UInt8) UInt8 String where
  decode := decode
  decodeEof := decode
where
  decode (d : Option UInt8) (buffer : List UInt8) : Option UInt8 × List UInt8 × Decoded UInt8 String :=
    match d, buffer with
    | some m, buffer => (none, buffer, .item m)
    | none, m :: rest => (some m, rest, .item m)
    | none, [] => (none, [], .more)

/-- Two messages are yielded from one byte, and one is counted. -/
theorem gratis_uncounted : ¬ ∀ s, (counting pairDecoder none .new .new).Reachable s →
    s.codec.stats.msgsReceived = BitVec.ofNat 64 s.yielded := by
  intro hall
  obtain ⟨s, hs, hp⟩ := (counting pairDecoder none .new .new).exists_reachable [.append [7], .decode, .decode]
    (fun s => s.yielded = 2 ∧ s.codec.stats.msgsReceived = 1) (by decide +kernel)
  obtain ⟨hyielded, hcounted⟩ := of_decide_eq_true hp
  have heq := hall s hs
  rw [hyielded, hcounted] at heq
  exact absurd heq (by decide)

end Pea2Pea.Reader
