/-
Framed byte streams: an encoder behind a write buffer, and a decoder behind
a read buffer.

A sink appends one encoding per message to its buffer and hands the buffer
to the stream in pieces; it asks for a flush once the buffer has reached a
boundary. A source reads chunks into its buffer and asks the decoder for
messages until the decoder needs more. Encoder and decoder are arbitrary
functions with a state, and may fail or panic.
-/
import Mathlib.Data.List.Flatten
import Mathlib.Data.List.Infix

namespace Framed

variable {β σ δ μ ε ε' : Type}

/-! ## Sinks -/

/-- What an encoder makes of a message: bytes to append, and its next
state. -/
inductive Encoded (β σ ε : Type)
  | bytes (codec : σ) (bytes : List β)
  | error (e : ε)
  | panic

structure Encoder (β σ μ ε : Type) where
  /-- By what is in the buffer, to which the bytes are appended. -/
  encode : σ → List β → μ → Encoded β σ ε

/-- The encoder, started in `c`, encodes the messages one after another,
whatever it finds in the buffer. -/
inductive Encoder.Run (E : Encoder β σ μ ε) (c : σ) : List μ → List (List β) → σ → Prop
  | nil : Run E c [] [] c
  | snoc {ms bs m b c₁ c₂ buffer} (h : Run E c ms bs c₁) (he : E.encode c₁ buffer m = .bytes c₂ b) :
      Run E c (ms ++ [m]) (bs ++ [b]) c₂

theorem Encoder.Run.length {E : Encoder β σ μ ε} {c c' : σ} {ms : List μ} {bs : List (List β)}
    (h : E.Run c ms bs c') : bs.length = ms.length := by
  induction h with
  | nil => rfl
  | snoc _ _ ih => simp [ih]

theorem Encoder.Run.append {E : Encoder β σ μ ε} {c c₁ c₂ : σ} {ms ms' : List μ} {bs bs' : List (List β)}
    (h : E.Run c ms bs c₁) (h' : E.Run c₁ ms' bs' c₂) : E.Run c (ms ++ ms') (bs ++ bs') c₂ := by
  induction h' with
  | nil => simpa using h
  | snoc _ he ih =>
    rw [← List.append_assoc, ← List.append_assoc]
    exact ih.snoc he

structure Sink (β σ : Type) where
  codec : σ
  buffer : List β
  /-- The buffer length from which on a flush is asked for. -/
  boundary : Nat
  /-- The bytes handed to the stream. -/
  out : List β

namespace Sink

def full (s : Sink β σ) : Bool := s.boundary ≤ s.buffer.length

/-- The stream takes the first `k` bytes of the buffer. -/
def write (s : Sink β σ) (k : Nat) : Sink β σ :=
  { s with out := s.out ++ s.buffer.take k, buffer := s.buffer.drop k }

/-- An encoding is appended. -/
def push (s : Sink β σ) (codec : σ) (bytes : List β) : Sink β σ :=
  { s with codec := codec, buffer := s.buffer ++ bytes }

/-- All the bytes there were: handed over, or to be. -/
def total (s : Sink β σ) : List β := s.out ++ s.buffer

@[simp] theorem write_total (s : Sink β σ) (k : Nat) : (s.write k).total = s.total := by
  simp [total, write]

@[simp] theorem push_total (s : Sink β σ) (codec : σ) (bytes : List β) :
    (s.push codec bytes).total = s.total ++ bytes := by
  simp [total, push]

end Sink

/-! ## Sources -/

/-- What a decoder makes of the buffer. `more` is what it says when there is
no message: it needs more bytes, or, at the end of the stream, there will be
none. -/
inductive Decoded (μ ε : Type)
  | item (m : μ)
  | more
  | error (e : ε)
  | panic

structure Decoder (β δ μ ε : Type) where
  decode : δ → List β → δ × List β × Decoded μ ε
  decodeEof : δ → List β → δ × List β × Decoded μ ε

/-- The decoder takes bytes off the front of its buffer, and does nothing
else to it. -/
def Decoder.OnlyConsumes (D : Decoder β δ μ ε) : Prop :=
  ∀ d buffer, (D.decode d buffer).2.1 <:+ buffer ∧ (D.decodeEof d buffer).2.1 <:+ buffer

structure Source (β δ : Type) where
  codec : δ
  buffer : List β
  /-- The decoder has yet to say it needs more. -/
  readable : Bool
  /-- The last read was empty. -/
  eof : Bool

namespace Source

def new (codec : δ) : Source β δ := ⟨codec, [], false, false⟩

/-- A read, empty at the end of the stream. -/
def read (s : Source β δ) (chunk : List β) : Source β δ :=
  { s with buffer := s.buffer ++ chunk, readable := true, eof := chunk.isEmpty }

/-- The decoder is called. -/
def poll (D : Decoder β δ μ ε) (s : Source β δ) : δ × List β × Decoded μ ε :=
  if s.eof then D.decodeEof s.codec s.buffer else D.decode s.codec s.buffer

end Source

/-- The decoder, started in `d` behind a source that has read `chunks`, has
yielded the messages. -/
inductive Decoder.Yields (D : Decoder β δ μ ε) (d : δ) : Source β δ → List (List β) → List μ → Prop
  | new : Yields D d (.new d) [] []
  | read {s chunks ms} (h : Yields D d s chunks ms) (hr : s.readable = false) (chunk : List β) :
      Yields D d (s.read chunk) (chunks ++ [chunk]) ms
  | item {s chunks ms codec buffer m} (h : Yields D d s chunks ms) (hr : s.readable = true)
      (hp : s.poll D = (codec, buffer, .item m)) :
      Yields D d { s with codec := codec, buffer := buffer } chunks (ms ++ [m])
  | more {s chunks ms codec buffer} (h : Yields D d s chunks ms) (hr : s.readable = true)
      (hp : s.poll D = (codec, buffer, .more)) :
      Yields D d { s with codec := codec, buffer := buffer, readable := false } chunks ms

/-- The decoder takes any chunking of a stream of encodings, cut off
anywhere, for the encoded messages in order. -/
def Decodes (E : Encoder β σ μ ε) (c : σ) (D : Decoder β δ μ ε') (d : δ) : Prop :=
  ∀ ⦃ms bs c'⦄, E.Run c ms bs c' → ∀ ⦃s chunks items⦄, D.Yields d s chunks items →
    chunks.flatten <+: bs.flatten → items <+: ms

/-- Before the end of the stream, the decoder takes no chunking of a stream of
encodings for a broken one, and once it has seen the whole stream and asks
for more, it has yielded every message. -/
structure DecodesAll (E : Encoder β σ μ ε) (c : σ) (D : Decoder β δ μ ε') (d : δ) : Prop where
  decodes : Decodes E c D d
  accepts : ∀ ⦃ms bs c'⦄, E.Run c ms bs c' → ∀ ⦃s chunks items⦄, D.Yields d s chunks items →
    chunks.flatten <+: bs.flatten → s.eof = false → (s.poll D).2.2 = .more ∨ ∃ m, (s.poll D).2.2 = .item m
  complete : ∀ ⦃ms bs c'⦄, E.Run c ms bs c' → ∀ ⦃s chunks items⦄, D.Yields d s chunks items →
    chunks.flatten = bs.flatten → s.readable = false → s.eof = false → items = ms

/-! ## Frames with a length byte -/

/-- A frame is its length and its content, of at most `max` bytes. -/
def lengthEncoder (max : Nat) : Encoder UInt8 Unit (List UInt8) String where
  encode _ _ m := if m.length ≤ max ∧ max < 256 then .bytes () (m.length.toUInt8 :: m) else .error "frame too long"

/-- As many bytes as the first one says are the next message. -/
def lengthDecoder : Decoder UInt8 Unit (List UInt8) String where
  decode := decode
  decodeEof c buffer :=
    match decode c buffer with
    | (c, [], .more) => (c, [], .more)
    | (c, buffer, .more) => (c, buffer, .error "bytes remaining on stream")
    | r => r
where
  decode (c : Unit) (buffer : List UInt8) : Unit × List UInt8 × Decoded (List UInt8) String :=
    match buffer with
    | n :: rest =>
      if n.toNat ≤ rest.length then (c, rest.drop n.toNat, .item (rest.take n.toNat)) else (c, buffer, .more)
    | [] => (c, [], .more)

namespace lengthDecoder

def frame (m : List UInt8) : List UInt8 := m.length.toUInt8 :: m

theorem decode_item {c c' : Unit} {buffer rest m : List UInt8} (h : decode c buffer = (c', rest, .item m)) :
    m.length < 256 ∧ buffer = frame m ++ rest := by
  unfold decode at h
  split at h
  next n tail =>
    split at h
    next hn =>
      obtain ⟨-, h⟩ := Prod.mk.inj h
      obtain ⟨rfl, h⟩ := Prod.mk.inj h
      cases h
      have hlen : (tail.take n.toNat).length = n.toNat := List.length_take_of_le hn
      refine ⟨by rw [hlen]; exact n.toNat_lt, ?_⟩
      simp [frame, hlen]
    next => simp at h
  · simp at h

theorem decode_more {c c' : Unit} {buffer rest : List UInt8} (h : decode c buffer = (c', rest, .more)) :
    rest = buffer := by
  unfold decode at h
  split at h
  · split at h
    · simp at h
    · simp_all
  · simp_all

theorem poll_item {s : Source UInt8 Unit} {c : Unit} {rest m : List UInt8}
    (h : s.poll lengthDecoder = (c, rest, .item m)) : m.length < 256 ∧ s.buffer = frame m ++ rest := by
  unfold Source.poll at h
  split at h
  · simp only [lengthDecoder] at h
    split at h
    · simp at h
    · simp at h
    · exact decode_item h
  · exact decode_item h

theorem poll_more {s : Source UInt8 Unit} {c : Unit} {rest : List UInt8}
    (h : s.poll lengthDecoder = (c, rest, .more)) : rest = s.buffer := by
  unfold Source.poll at h
  split at h
  · simp only [lengthDecoder] at h
    split at h
    next hd =>
      have hb := decode_more hd
      simp_all
    · simp at h
    · exact decode_more h
  · exact decode_more h

/-- What was read is the frames of the messages, and what is in the
buffer. -/
theorem yields {s : Source UInt8 Unit} {chunks items : List (List UInt8)}
    (h : lengthDecoder.Yields () s chunks items) :
    (∀ m ∈ items, m.length < 256) ∧ chunks.flatten = (items.map frame).flatten ++ s.buffer := by
  induction h with
  | new => simp [Source.new]
  | read _ _ chunk ih => exact ⟨ih.1, by simp [ih.2, Source.read]⟩
  | item _ _ hp ih =>
    obtain ⟨hlen, hbuffer⟩ := poll_item hp
    refine ⟨?_, by simp [ih.2, hbuffer]⟩
    intro m hm
    rcases List.mem_append.mp hm with hm | hm
    · exact ih.1 m hm
    · rwa [List.mem_singleton.mp hm]
  | more _ _ hp ih => exact ⟨ih.1, by rw [ih.2, poll_more hp]⟩

theorem encodes {max : Nat} {c : Unit} {ms bs : List (List UInt8)} (h : (lengthEncoder max).Run () ms bs c) :
    (∀ m ∈ ms, m.length < 256) ∧ bs = ms.map frame := by
  induction h with
  | nil => simp
  | @snoc _ _ m _ _ _ _ _ he ih =>
    simp only [lengthEncoder] at he
    split at he
    next hm =>
      cases he
      refine ⟨?_, by simp [ih.2, frame]⟩
      intro m' hm'
      rcases List.mem_append.mp hm' with hm' | hm'
      · exact ih.1 m' hm'
      · rw [List.mem_singleton.mp hm']
        exact Nat.lt_of_le_of_lt hm.1 hm.2
    · cases he

/-- Frames are a prefix code. -/
theorem isPrefix_of_frames {items ms : List (List UInt8)} (hi : ∀ m ∈ items, m.length < 256)
    (hm : ∀ m ∈ ms, m.length < 256) (h : (items.map frame).flatten <+: (ms.map frame).flatten) : items <+: ms := by
  induction items generalizing ms with
  | nil => exact List.nil_prefix
  | cons m items ih =>
    cases ms with
    | nil => simp [frame] at h
    | cons m' ms =>
      simp only [List.map_cons, List.flatten_cons, frame, List.cons_append] at h
      obtain ⟨hhead, htail⟩ := List.cons_prefix_cons.mp h
      have hlen : m.length = m'.length := by
        have hmod := congrArg UInt8.toNat hhead
        simp only [Nat.toUInt8_eq, UInt8.toNat_ofNat'] at hmod
        rwa [Nat.mod_eq_of_lt (hi m List.mem_cons_self), Nat.mod_eq_of_lt (hm m' List.mem_cons_self)] at hmod
      obtain ⟨t, ht⟩ := htail
      rw [List.append_assoc] at ht
      obtain ⟨rfl, hrest⟩ := List.append_inj ht hlen
      refine List.cons_prefix_cons.mpr ⟨rfl, ih ?_ ?_ ⟨t, hrest⟩⟩
      · exact fun m hm => hi m (List.mem_cons_of_mem _ hm)
      · exact fun m hm' => hm m (List.mem_cons_of_mem _ hm')

theorem decode_cases (c : Unit) (buffer : List UInt8) :
    (decode c buffer).2.2 = .more ∨ ∃ m, (decode c buffer).2.2 = .item m := by
  unfold decode
  split
  · split
    · exact .inr ⟨_, rfl⟩
    · exact .inl rfl
  · exact .inl rfl

theorem decode_frame {m : List UInt8} (hm : m.length < 256) (c : Unit) (rest : List UInt8) :
    (decode c (frame m ++ rest)).2.2 = .item m := by
  have hn : m.length.toUInt8.toNat = m.length := by
    rw [Nat.toUInt8_eq, UInt8.toNat_ofNat']
    exact Nat.mod_eq_of_lt hm
  simp [decode, frame, hn]

/-- A source that waits for more has no whole frame in its buffer. -/
theorem waits {s : Source UInt8 Unit} {chunks items : List (List UInt8)} (h : lengthDecoder.Yields () s chunks items)
    (hr : s.readable = false) (he : s.eof = false) : (decode s.codec s.buffer).2.2 = .more := by
  cases h with
  | new => rfl
  | read => cases hr
  | item _ hr' => rw [hr'] at hr; cases hr
  | @more z _ _ c buffer _ _ hp =>
    have hb := poll_more hp
    subst hb
    unfold Source.poll at hp
    rw [if_neg (by simpa using he)] at hp
    exact congrArg (fun r => r.2.2) hp

end lengthDecoder

theorem lengthDecoder_decodes (max : Nat) : Decodes (lengthEncoder max) () lengthDecoder () := by
  intro ms bs c hrun s chunks items hy hread
  obtain ⟨hms, rfl⟩ := lengthDecoder.encodes hrun
  obtain ⟨hitems, hchunks⟩ := lengthDecoder.yields hy
  refine lengthDecoder.isPrefix_of_frames hitems hms (List.IsPrefix.trans ?_ hread)
  rw [hchunks]
  exact List.prefix_append _ _

theorem lengthDecoder_decodesAll (max : Nat) : DecodesAll (lengthEncoder max) () lengthDecoder () where
  decodes := lengthDecoder_decodes max
  accepts _ _ _ _ s _ _ _ _ he := by
    rw [Source.poll, if_neg (by simpa using he)]
    exact lengthDecoder.decode_cases _ _
  complete ms bs c hrun s chunks items hy hread hr he := by
    obtain ⟨rest, rfl⟩ := lengthDecoder_decodes max hrun hy (hread ▸ List.prefix_rfl)
    obtain ⟨hms, rfl⟩ := lengthDecoder.encodes hrun
    rw [(lengthDecoder.yields hy).2, List.map_append, List.flatten_append, List.append_cancel_left_eq] at hread
    cases rest with
    | nil => simp
    | cons m rest =>
      -- the next frame would be in the buffer
      have hmore := lengthDecoder.waits hy hr he
      rw [hread, List.map_cons, List.flatten_cons, lengthDecoder.decode_frame (hms m (by simp))] at hmore
      cases hmore

end Framed
