/-
Where messages go once `queue_message` has accepted them: to the writer that
was published last at their address, whose receiver is there as long as the
entry is, so that a call never finds a channel down; and in the order they
were accepted in, over all connections an address has had.

`Routed` says who may send to whom and is kept by every step of the network;
`Streams` says what went where.
-/
import Pea2Pea.Outbound
import Pea2Pea.Senders

namespace Pea2Pea.Outbound

open Pool
open Writer (Wrapped)
open Writing (Request RequestPc WriterPc)

variable {μ : Type}

/-! ## Who sends to whom -/

/-- The writer a setup task awaits. -/
def spawnedWriter (r : Request) : Option Nat :=
  match r.pc with
  | .spawned w => some w
  | _ => none

/-- The writers published at an address, in that order. -/
def publishedAt (writers : List Writing.Writer) (published : List Nat) (a : SocketAddr) : List Nat :=
  published.filter fun w => (writers[w]?).any (·.addr = a)

/-- A writer that is awaited has not ended and was not published, and an
entry's is the writer published last at its address, and has not dropped its
receiver. -/
structure Routed (writers : List Writing.Writer) (requests : List Request) (senders channelOf : Table SocketAddr Nat)
    (published : List Nat) : Prop where
  unique : UniqueBy spawnedWriter requests
  spawned : ∀ r ∈ requests, ∀ w, spawnedWriter r = some w → w ∉ published ∧
    ∃ x, writers[w]? = some x ∧ x.addr = r.addr ∧ x.id = r.id ∧ (x.pc = .starting ∨ x.pc = .running)
  entry : ∀ a w, channelOf.lookup a = some w → (publishedAt writers published a).getLast? = some w ∧
    ∃ x, writers[w]? = some x ∧ x.addr = a ∧ senders.lookup a = some x.id ∧ (x.pc = .running ∨ x.pc = .ending)
  listed : ∀ a, channelOf.lookup a = none → senders.lookup a = none
  known : ∀ w ∈ published, w < writers.length
  once : published.Nodup

namespace Routed

variable {W : List Writing.Writer} {R : List Request} {S M : Table SocketAddr Nat} {P : List Nat} {q w : Nat}
  {r : Request} {x : Writing.Writer}

theorem init : Routed [] [] ∅ ∅ [] where
  unique := uniqueBy_nil
  spawned r hr := by cases hr
  entry a w h := by simp at h
  listed a _ := by simp
  known w hw := by cases hw
  once := List.nodup_nil

/-- A request that starts no writer moves. -/
theorem request_step {p : RequestPc} (h : Routed W R S M P) (hr : R[q]? = some r)
    (hp : spawnedWriter { r with pc := p } = none) : Routed W (R.set q { r with pc := p }) S M P where
  unique := h.unique.set hr fun k hk => by rw [hp] at hk; cases hk
  spawned r' hr' w hw := by
    rcases List.mem_or_eq_of_mem_set hr' with hr' | rfl
    · exact h.spawned r' hr' w hw
    · rw [hp] at hw; cases hw
  entry := h.entry
  listed := h.listed
  known := h.known
  once := h.once

theorem trigger (h : Routed W R S M P) (hp : spawnedWriter r = none) : Routed W (R ++ [r]) S M P where
  unique := h.unique.append fun k hk => by rw [hp] at hk; cases hk
  spawned r' hr' w hw := by
    rcases List.mem_append.1 hr' with hr' | hr'
    · exact h.spawned r' hr' w hw
    · rw [List.mem_singleton.1 hr', hp] at hw; cases hw
  entry := h.entry
  listed := h.listed
  known := h.known
  once := h.once

theorem publishedAt_set (hx : W[w]? = some x) (pc : WriterPc) (a : SocketAddr) :
    publishedAt (W.set w { x with pc := pc }) P a = publishedAt W P a := by
  refine List.filter_congr fun v _ => ?_
  rw [getElem?_set hx]
  split
  next hv => subst hv; rw [hx]; rfl
  · rfl

theorem publishedAt_append (h : ∀ v ∈ P, v < W.length) (a : SocketAddr) :
    publishedAt (W ++ [x]) P a = publishedAt W P a := by
  refine List.filter_congr fun v hv => ?_
  rw [List.getElem?_append_left (h v hv)]

/-- A writer moves: an awaited one does not end, and an entry's keeps its
receiver. -/
theorem writer_step {pc : WriterPc} (h : Routed W R S M P) (hx : W[w]? = some x)
    (hs : ∀ r ∈ R, spawnedWriter r = some w → pc = .starting ∨ pc = .running)
    (he : M.lookup x.addr = some w → pc = .running ∨ pc = .ending) :
    Routed (W.set w { x with pc := pc }) R S M P where
  unique := h.unique
  spawned r hr v hv := by
    obtain ⟨hno, y, hy, ha, hid, hpc⟩ := h.spawned r hr v hv
    refine ⟨hno, ?_⟩
    rw [getElem?_set hx]
    split
    next hwv =>
      subst hwv
      rw [hx] at hy; cases hy
      exact ⟨_, rfl, ha, hid, hs r hr hv⟩
    · exact ⟨y, hy, ha, hid, hpc⟩
  entry a v hv := by
    obtain ⟨hlast, y, hy, ha, hid, hpc⟩ := h.entry a v hv
    refine ⟨by rw [publishedAt_set hx]; exact hlast, ?_⟩
    rw [getElem?_set hx]
    split
    next hwv =>
      subst hwv
      rw [hx] at hy; cases hy
      exact ⟨_, rfl, ha, hid, he (by rw [ha]; exact hv)⟩
    · exact ⟨y, hy, ha, hid, hpc⟩
  listed := h.listed
  known v hv := by rw [List.length_set]; exact h.known v hv
  once := h.once

theorem spawnWriter (h : Routed W R S M P) (hr : R[q]? = some r) :
    Routed (W ++ [⟨r.addr, r.id, .starting⟩]) (R.set q { r with pc := .spawned W.length }) S M P where
  unique := by
    refine h.unique.set hr fun k hk => ?_
    right
    rintro ⟨r', hr', hw⟩
    cases hk
    obtain ⟨-, x, hx, -⟩ := h.spawned r' hr' _ hw
    exact absurd (List.getElem?_eq_some_iff.1 hx).1 (lt_irrefl _)
  spawned r' hr' v hv := by
    rcases List.mem_or_eq_of_mem_set hr' with hr' | rfl
    · obtain ⟨hno, x, hx, ha, hid, hpc⟩ := h.spawned r' hr' v hv
      exact ⟨hno, x, getElem?_append_of_some hx _, ha, hid, hpc⟩
    · cases hv
      refine ⟨fun hw => absurd (h.known _ hw) (lt_irrefl _), _, List.getElem?_concat_length, rfl, rfl, .inl rfl⟩
  entry a v hv := by
    obtain ⟨hlast, x, hx, ha, hid, hpc⟩ := h.entry a v hv
    exact ⟨by rw [publishedAt_append h.known]; exact hlast, x, getElem?_append_of_some hx _, ha, hid, hpc⟩
  listed := h.listed
  known v hv := by
    have := h.known v hv
    simp only [List.length_append]
    omega
  once := h.once

/-- `adopt_writer`. -/
theorem adopt (h : Routed W R S M P) (hr : R[q]? = some r) (hpc : r.pc = .spawned w) (hx : W[w]? = some x)
    (hw : x.pc ≠ .starting) :
    Routed W (R.set q { r with pc := .adopted }) (Writing.adoptWriter S r.addr r.id) (M.insert r.addr w) (P ++ [w]) := by
  have hspawned : spawnedWriter r = some w := by rw [spawnedWriter, hpc]
  obtain ⟨hno, y, hy, ha, hid, hypc⟩ := h.spawned r (List.mem_of_getElem? hr) w hspawned
  rw [hx] at hy; cases hy
  have hrun : x.pc = .running := hypc.resolve_left hw
  have hR : Routed W (R.set q { r with pc := .adopted }) S M P := h.request_step hr rfl
  have hat (a : SocketAddr) : publishedAt W (P ++ [w]) a = publishedAt W P a ++ if x.addr = a then [w] else [] := by
    rw [publishedAt, List.filter_append, publishedAt, List.filter_singleton, hx]
    simp
  refine ⟨hR.unique, fun r' hr' v hv => ?_, fun a v hv => ?_, fun a hna => ?_, fun v hv => ?_, ?_⟩
  · obtain ⟨hno', hrest⟩ := hR.spawned r' hr' v hv
    refine ⟨fun hmem => ?_, hrest⟩
    rcases List.mem_append.1 hmem with hmem | hmem
    · exact hno' hmem
    · -- two requests would await one writer
      obtain rfl := List.mem_singleton.1 hmem
      obtain ⟨j, hj⟩ := List.getElem?_of_mem hr'
      rcases getElem?_set_cases hr hj with ⟨-, rfl⟩ | ⟨hne, hj⟩
      · cases hv
      · exact hne (h.unique q j r r' v hr hj hspawned hv)
  · rw [Table.lookup_insert] at hv
    rw [hat, Writing.adoptWriter, Table.lookup_insert]
    by_cases haa : a = r.addr
    · subst haa
      rw [if_pos rfl] at hv
      cases hv
      rw [if_pos ha, if_pos rfl]
      exact ⟨by simp, x, hx, ha, by rw [hid], .inl hrun⟩
    · rw [if_neg haa] at hv
      have hne : x.addr ≠ a := fun he => haa (he.symm.trans ha)
      rw [if_neg hne, if_neg haa, List.append_nil]
      exact h.entry a v hv
  · rw [Table.lookup_insert] at hna
    rw [Writing.adoptWriter, Table.lookup_insert]
    by_cases haa : a = r.addr
    · rw [if_pos haa] at hna; cases hna
    · rw [if_neg haa] at hna ⊢
      exact h.listed a hna
  · rcases List.mem_append.1 hv with hv | hv
    · exact h.known v hv
    · rw [List.mem_singleton.1 hv]
      exact (List.getElem?_eq_some_iff.1 hx).1
  · exact List.nodup_append.2 ⟨h.once, List.nodup_singleton w, fun v hv u hu => by
      rw [List.mem_singleton.1 hu]
      rintro rfl
      exact hno hv⟩

/-- An entry goes. -/
theorem erase (h : Routed W R S M P) (a : SocketAddr) : Routed W R (S.erase a) (M.erase a) P where
  unique := h.unique
  spawned := h.spawned
  entry b v hv := by
    obtain ⟨hne, hv⟩ := Table.lookup_erase_some hv
    obtain ⟨hlast, x, hx, ha, hid, hpc⟩ := h.entry b v hv
    exact ⟨hlast, x, hx, ha, by rw [Table.lookup_erase, if_neg hne]; exact hid, hpc⟩
  listed b hb := by
    rw [Table.lookup_erase] at hb ⊢
    split at hb
    next heq => rw [if_pos heq]
    next hne => rw [if_neg hne]; exact h.listed b hb
  known := h.known
  once := h.once

end Routed

/-! ## Every step of the network -/

variable {cfg : NodeConfig} {depth : Nat} {s s' : State μ}

/-- Whose receiver is there: a writer's that is not gone, at its index. -/
structure RoutedOK (s : State μ) : Prop where
  routed : Routed s.net.writers s.net.requests s.net.senders s.channelOf s.published
  channels : s.channels.length = s.net.writers.length
  receivers : ∀ (w : Nat) x c, s.net.writers[w]? = some x → s.channels[w]? = some c → c.isOpen = false → x.pc = .gone

theorem State.react_base {net : Writing.State} {a : Pea2Pea.Act} (hf : ∀ j, a ≠ .finalize j) :
    s.react net (.base a) = { s with net := net } := by
  cases a <;> first | rfl | exact absurd rfl (hf _)

theorem awaited_iff {net : Writing.State} {w id : Nat} :
    net.awaited w id = true ↔ ∃ r ∈ net.requests, r.id = id ∧ spawnedWriter r = some w := by
  simp only [Writing.State.awaited, List.any_eq_true, Bool.and_eq_true, beq_iff_eq]
  constructor
  · rintro ⟨r, hr, hid, hpc⟩
    exact ⟨r, hr, hid, by rw [spawnedWriter, hpc]⟩
  · rintro ⟨r, hr, hid, hw⟩
    refine ⟨r, hr, hid, ?_⟩
    unfold spawnedWriter at hw
    split at hw
    next v hpc => cases hw; exact hpc
    · cases hw

/-- A writer that moves short of its end keeps its receiver. -/
theorem receivers_set {W : List Writing.Writer} {C : List (Channel μ)} {w : Nat} {x : Writing.Writer} {pc : WriterPc}
    (h : ∀ (v : Nat) y c, W[v]? = some y → C[v]? = some c → c.isOpen = false → y.pc = .gone) (hx : W[w]? = some x)
    (hpc : x.pc = .gone → pc = .gone) :
    ∀ (v : Nat) y c, (W.set w { x with pc := pc })[v]? = some y → C[v]? = some c → c.isOpen = false → y.pc = .gone := by
  intro v y c hy hc ho
  rcases getElem?_set_cases hx hy with ⟨rfl, rfl⟩ | ⟨-, hy⟩
  · exact hpc (h _ x c hx hc ho)
  · exact h v y c hy hc ho

theorem RoutedOK.net {a : Writing.Act} {n : Writing.State} (h : RoutedOK s) (ha : s.allows a = true)
    (hn : Writing.StepR cfg s.net a n) : RoutedOK (s.react n a) := by
  obtain ⟨hR, hlen, hrecv⟩ := h
  cases hn with
  | base hb hf _ => rw [State.react_base hf]; exact ⟨hR, hlen, hrecv⟩
  | @finalize j d b hd hb =>
    simp only [State.react, hd]
    refine ⟨?_, hlen, hrecv⟩
    dsimp only
    split
    · exact hR.erase d.addr
    · exact hR
  | enable => exact ⟨hR, hlen, hrecv⟩
  | trigger ht hpc he hn => exact ⟨hR.trigger rfl, hlen, hrecv⟩
  | spawnSetup hr hpc => exact ⟨hR.request_step hr rfl, hlen, hrecv⟩
  | dropRequest hr hpc => exact ⟨hR.request_step hr rfl, hlen, hrecv⟩
  | failSetup hr hpc => exact ⟨hR.request_step hr rfl, hlen, hrecv⟩
  | abortSetup hr hpc => exact ⟨hR.request_step hr rfl, hlen, hrecv⟩
  | spawnWriter hr hpc =>
    refine ⟨hR.spawnWriter hr, by simpa [State.react] using hlen, fun w x c hx hc ho => ?_⟩
    rcases getElem?_append_cases hc with ⟨-, rfl⟩ | hc
    · cases ho
    · have hlt : w < s.net.writers.length := hlen ▸ (List.getElem?_eq_some_iff.1 hc).1
      have hx : (s.net.writers ++ _)[w]? = some x := hx
      rw [List.getElem?_append_left hlt] at hx
      exact hrecv w x c hx hc ho
  | @signalReady w x hx hpc =>
    refine ⟨hR.writer_step hx (fun r hr hw => ?_) (fun he => ?_),
      by simpa [State.react, Writing.State.writerGoto] using hlen,
      receivers_set hrecv hx fun hg => by rw [hpc] at hg; cases hg⟩
    · obtain ⟨-, y, hy, -, hid, -⟩ := hR.spawned r hr w hw
      rw [hx] at hy; cases hy
      rw [if_pos (awaited_iff.2 ⟨r, hr, hid.symm, hw⟩)]
      exact .inr rfl
    · split
      · exact .inl rfl
      · exact .inr rfl
  | @adoptWriter q r w x hr hpc hx hw =>
    obtain ⟨driver, addr, id, pc⟩ := r
    cases hpc
    simp only [State.react, hr]
    exact ⟨hR.adopt hr rfl hx hw, hlen, hrecv⟩
  | returnConn hr hpc =>
    refine ⟨hR.request_step hr ?_, hlen, hrecv⟩
    split <;> rfl
  | receive hr hpc hw => exact ⟨hR.request_step hr rfl, hlen, hrecv⟩
  | @endWriter w x b hx hpc hb =>
    refine ⟨hR.writer_step hx (fun r hr hw => ?_) (fun _ => .inr rfl),
      by simpa [State.react, Writing.State.writerGoto] using hlen,
      receivers_set hrecv hx fun hg => by rw [hpc] at hg; cases hg⟩
    -- nobody awaits a writer that may end
    obtain ⟨-, y, hy, -, hid, -⟩ := hR.spawned r hr w hw
    rw [hx] at hy; cases hy
    have hawaited := awaited_iff.2 ⟨r, hr, hid.symm, hw⟩
    simp [State.allows, hx, hawaited] at ha
  | @cleanup w x hx hpc =>
    have hno : ∀ r ∈ s.net.requests, spawnedWriter r ≠ some w := by
      intro r hr hw
      obtain ⟨-, y, hy, -, -, hypc⟩ := hR.spawned r hr w hw
      rw [hx] at hy; cases hy
      rw [hpc] at hypc
      rcases hypc with h | h <;> cases h
    have hgone : ∀ {M},
        Routed s.net.writers s.net.requests (Writing.senderCleanup s.net.senders x.addr x.id) M s.published →
        M.lookup x.addr ≠ some w →
        Routed (s.net.writers.set w { x with pc := .gone }) s.net.requests
          (Writing.senderCleanup s.net.senders x.addr x.id) M s.published :=
      fun hR' hM => hR'.writer_step hx (fun r hr hw => absurd hw (hno r hr)) fun he => absurd he hM
    simp only [State.react, hx]
    refine ⟨?_, by simpa [Writing.State.writerGoto] using hlen,
      receivers_set hrecv hx fun _ => rfl⟩
    by_cases hown : s.net.senders.lookup x.addr = some x.id
    · simp only [hown, if_true]
      refine hgone ?_ (by simp)
      rw [Writing.senderCleanup, if_pos hown]
      exact hR.erase x.addr
    · simp only [hown, if_false]
      refine hgone ?_ fun hw => ?_
      · rw [Writing.senderCleanup, if_neg hown]
        exact hR
      · obtain ⟨-, y, hy, -, hid, -⟩ := hR.entry x.addr w hw
        rw [hx] at hy; cases hy
        exact hown hid

/-- A channel moves, and its receiver with the writer only. -/
theorem RoutedOK.channel {w : Nat} {x : Writing.Writer} {c c' : Channel μ} (h : RoutedOK s)
    (hx : s.net.writers[w]? = some x) (hc : s.channels[w]? = some c)
    (ho : c'.isOpen = false → c.isOpen = false ∨ x.pc = .gone) : RoutedOK (s.channelGoto w c') where
  routed := h.routed
  channels := by simpa [State.channelGoto] using h.channels
  receivers v y d hy hd hopen := by
    rcases getElem?_set_cases hc hd with ⟨rfl, rfl⟩ | ⟨-, hd⟩
    · rw [State.channelGoto, hx] at hy; cases hy
      rcases ho hopen with ho | ho
      · exact h.receivers w x c hx hc ho
      · exact ho
    · exact h.receivers v y d hy hd hopen

/-- The writer of an entry, and its channel. -/
theorem RoutedOK.entry (h : RoutedOK s) {a : SocketAddr} {w : Nat} (hw : s.channelOf.lookup a = some w) :
    ∃ x c, s.net.writers[w]? = some x ∧ x.addr = a ∧ s.channels[w]? = some c ∧ c.isOpen = true ∧
      (publishedAt s.net.writers s.published a).getLast? = some w := by
  obtain ⟨hlast, x, hx, ha, -, hpc⟩ := h.routed.entry a w hw
  have hlt : w < s.channels.length := h.channels ▸ (List.getElem?_eq_some_iff.1 hx).1
  refine ⟨x, s.channels[w], hx, ha, List.getElem?_eq_getElem hlt, ?_, hlast⟩
  by_contra hopen
  have hgone := h.receivers w x _ hx (List.getElem?_eq_getElem hlt) (by simpa using hopen)
  rw [hgone] at hpc
  rcases hpc with h | h <;> cases h

theorem StepR.routedOK {a : Act μ} (h : RoutedOK s) (hs : StepR cfg depth s a s') : RoutedOK s' := by
  cases hs with
  | net ha hn => exact h.net ha hn
  | recvMany hx hc hpc => exact h.channel hx hc fun ho => .inl ho
  | dropReceiver hx hc hpc ho => exact h.channel hx hc fun _ => .inr hpc
  | @accept _ w c m B he hw hc ho hroom =>
    obtain ⟨x, -, hx, -⟩ := h.entry hw
    have hq : RoutedOK (s.channelGoto w { c with queue := c.queue ++ [m.msg] }) := h.channel hx hc fun ho => .inl ho
    exact ⟨hq.routed, hq.channels, hq.receivers⟩
  | other => exact ⟨h.routed, h.channels, h.receivers⟩

theorem routedOK_reachable (h : (outbound cfg depth).Reachable s) : RoutedOK s :=
  h.invariant ⟨Routed.init, rfl, fun w x c hx => by cases hx⟩ fun _ hr _ hs => (step_sound hs).routedOK hr

/-- The channel of an entry is never found down. -/
theorem RoutedOK.queueMessage_ne_brokenPipe (h : RoutedOK s) (depth : Nat) (via : Option Nat) (own : Bool)
    (addr : SocketAddr) (msg : μ) (confirmDelivery : Bool) :
    (queueMessage depth s via own addr msg confirmDelivery).1 ≠ .error .brokenPipe := by
  unfold queueMessage
  split
  · simp
  split
  · simp
  next w hw =>
  obtain ⟨x, c, -, -, hc, ho, -⟩ := h.entry hw
  split
  · simp
  rw [hc]
  simp only [ho, Bool.true_eq_false, if_false]
  split <;> simp

/-! ## What went where -/

/-- The stream of a writer's channel. -/
def streamOf (channels : List (Channel μ)) (w : Nat) : List (Wrapped μ) := ((channels[w]?).map Channel.stream).getD []

/-- What was accepted for an address is what was sent into the channels of
the writers published there, one after the other. -/
structure Streams (depth : Nat) (s : State μ) : Prop where
  streams : ∀ a, (s.accepted.filter (·.addr = a)).map (·.msg) =
    (publishedAt s.net.writers s.published a).flatMap (streamOf s.channels)
  silent : ∀ w, w ∉ s.published → streamOf s.channels w = []
  room : ∀ c ∈ s.channels, c.queue.length ≤ depth
  lost : ∀ c ∈ s.channels, c.isOpen = true → c.dropped = []

section

variable {C : List (Channel μ)} {w v : Nat} {c c' : Channel μ}

theorem streamOf_eq (hc : C[w]? = some c) : streamOf C w = c.stream := by rw [streamOf, hc]; rfl

theorem streamOf_set (hc : C[w]? = some c) : streamOf (C.set w c') v = if w = v then c'.stream else streamOf C v := by
  rw [streamOf, getElem?_set hc]
  split <;> rfl

theorem streamOf_set_same (hc : C[w]? = some c) (hs : c'.stream = c.stream) : streamOf (C.set w c') = streamOf C := by
  funext v
  rw [streamOf_set hc, hs]
  split
  next h => rw [← h, streamOf_eq hc]
  · rfl

theorem streamOf_append_new : streamOf (C ++ [.new]) = streamOf C := by
  funext v
  rw [streamOf, streamOf]
  rcases Nat.lt_trichotomy v C.length with h | rfl | h
  · rw [List.getElem?_append_left h]
  · rw [List.getElem?_concat_length, List.getElem?_eq_none (Nat.le_refl _)]
    rfl
  · rw [List.getElem?_eq_none (by simp; omega), List.getElem?_eq_none (by omega)]

/-- A message is added to the last of some streams. -/
theorem flatMap_set_last {l : List Nat} {m : Wrapped μ} (hl : l.getLast? = some w) (hn : l.Nodup) (hc : C[w]? = some c)
    (hs : c'.stream = c.stream ++ [m]) : l.flatMap (streamOf (C.set w c')) = l.flatMap (streamOf C) ++ [m] := by
  obtain ⟨l', rfl⟩ : ∃ l', l = l' ++ [w] := List.getLast?_eq_some_iff.1 hl
  have hw : w ∉ l' := fun hmem => (List.nodup_append.1 hn).2.2 w hmem w (List.mem_singleton_self w) rfl
  have hsame : l'.flatMap (streamOf (C.set w c')) = l'.flatMap (streamOf C) := by
    refine List.flatMap_congr fun v hv => ?_
    rw [streamOf_set hc, if_neg fun he : w = v => hw (he ▸ hv)]
  rw [List.flatMap_append, List.flatMap_append, hsame, List.flatMap_singleton, List.flatMap_singleton,
    streamOf_set hc, if_pos rfl, hs, streamOf_eq hc, List.append_assoc]

end

namespace Streams

theorem init : Streams depth (State.init cfg : State μ) where
  streams a := rfl
  silent w _ := rfl
  room c hc := by cases hc
  lost c hc := by cases hc

/-- The network moves, but no writer is published and none is new. -/
theorem of_net {t : State μ} (h : Streams depth s) (hacc : t.accepted = s.accepted) (hpub : t.published = s.published)
    (hch : t.channels = s.channels)
    (hat : ∀ a, publishedAt t.net.writers s.published a = publishedAt s.net.writers s.published a) : Streams depth t where
  streams a := by rw [hacc, hpub, hch, hat]; exact h.streams a
  silent w hw := by rw [hch]; exact h.silent w (hpub ▸ hw)
  room c hc := h.room c (hch ▸ hc)
  lost c hc := h.lost c (hch ▸ hc)

theorem net {a : Writing.Act} {n : Writing.State} (hR : RoutedOK s) (h : Streams depth s)
    (hn : Writing.StepR cfg s.net a n) : Streams depth (s.react n a) := by
  cases hn with
  | base hb hf _ => rw [State.react_base hf]; exact h.of_net rfl rfl rfl fun _ => rfl
  | finalize hd hb =>
    simp only [State.react, hd]
    exact h.of_net rfl rfl rfl fun _ => rfl
  | enable => exact h.of_net rfl rfl rfl fun _ => rfl
  | trigger => exact h.of_net rfl rfl rfl fun _ => rfl
  | spawnSetup => exact h.of_net rfl rfl rfl fun _ => rfl
  | dropRequest => exact h.of_net rfl rfl rfl fun _ => rfl
  | failSetup => exact h.of_net rfl rfl rfl fun _ => rfl
  | abortSetup => exact h.of_net rfl rfl rfl fun _ => rfl
  | returnConn => exact h.of_net rfl rfl rfl fun _ => rfl
  | receive => exact h.of_net rfl rfl rfl fun _ => rfl
  | signalReady hx => exact h.of_net rfl rfl rfl (Routed.publishedAt_set hx _)
  | endWriter hx => exact h.of_net rfl rfl rfl (Routed.publishedAt_set hx _)
  | cleanup hx =>
    simp only [State.react, hx]
    exact h.of_net rfl rfl rfl (Routed.publishedAt_set hx _)
  | @spawnWriter q r hr hpc =>
    refine ⟨fun a => ?_, fun w hw => ?_, ?_, ?_⟩
    · simp only [State.react, streamOf_append_new]
      rw [Routed.publishedAt_append hR.routed.known]
      exact h.streams a
    · simp only [State.react, streamOf_append_new]
      exact h.silent w hw
    · exact forall_mem_append h.room (Nat.zero_le _)
    · exact forall_mem_append h.lost fun _ => rfl
  | @adoptWriter q r w x hr hpc hx hw =>
    obtain ⟨driver, addr, id, pc⟩ := r
    cases hpc
    simp only [State.react, hr]
    have hnew : streamOf s.channels w = [] :=
      h.silent w (hR.routed.spawned _ (List.mem_of_getElem? hr) w rfl).1
    refine ⟨fun a => ?_, fun v hv => h.silent v fun hmem => hv (List.mem_append_left _ hmem), h.room, h.lost⟩
    -- the writer comes with an empty channel
    have hat : (publishedAt s.net.writers (s.published ++ [w]) a).flatMap (streamOf s.channels) =
        (publishedAt s.net.writers s.published a).flatMap (streamOf s.channels) := by
      have hnone : ([w].filter fun w => (s.net.writers[w]?).any (·.addr = a)).flatMap (streamOf s.channels) = [] := by
        refine List.flatMap_eq_nil_iff.2 fun v hv => ?_
        rwa [List.mem_singleton.1 (List.mem_of_mem_filter hv)]
      rw [publishedAt, List.filter_append, List.flatMap_append, hnone, List.append_nil]
      rfl
    exact (h.streams a).trans hat.symm

/-- A channel moves with its stream as it was. -/
theorem channel {w : Nat} {c c' : Channel μ} (h : Streams depth s) (hc : s.channels[w]? = some c)
    (hs : c'.stream = c.stream) (hroom : c'.queue.length ≤ depth) (hlost : c'.isOpen = true → c'.dropped = []) :
    Streams depth (s.channelGoto w c') where
  streams a := by
    simp only [State.channelGoto, streamOf_set_same hc hs]
    exact h.streams a
  silent v hv := by
    simp only [State.channelGoto, streamOf_set_same hc hs]
    exact h.silent v hv
  room := forall_mem_set h.room hroom
  lost := forall_mem_set h.lost hlost

theorem accept {w : Nat} {c : Channel μ} {m : Accepted μ} (hR : RoutedOK s) (h : Streams depth s)
    (hw : s.channelOf.lookup m.addr = some w) (hc : s.channels[w]? = some c) (ho : c.isOpen = true)
    (hroom : c.queue.length < depth) : Streams depth (s.accept w c m) := by
  have hlost : c.dropped = [] := h.lost c (List.mem_of_getElem? hc) ho
  have hstream : ({ c with queue := c.queue ++ [m.msg] } : Channel μ).stream = c.stream ++ [m.msg] := by
    simp only [Channel.stream, hlost, List.append_nil, List.append_assoc]
  obtain ⟨x, -, hx, ha, -, -, hlast⟩ := hR.entry hw
  refine ⟨fun a => ?_, fun v hv => ?_, ?_, ?_⟩
  · simp only [State.accept, State.channelGoto, List.filter_append, List.map_append]
    rw [h.streams a]
    by_cases hma : m.addr = a
    · subst hma
      have hnodup : (publishedAt s.net.writers s.published m.addr).Nodup := hR.routed.once.filter _
      rw [flatMap_set_last hlast hnodup hc hstream]
      simp
    · -- the other addresses' writers are others
      have hne : ∀ v ∈ publishedAt s.net.writers s.published a, w ≠ v := by
        rintro v hv rfl
        have hva := (List.mem_filter.1 hv).2
        simp only [hx, Option.any_some, decide_eq_true_eq] at hva
        exact hma (ha.symm.trans hva)
      have hsame : (publishedAt s.net.writers s.published a).flatMap
            (streamOf (s.channels.set w { c with queue := c.queue ++ [m.msg] })) =
          (publishedAt s.net.writers s.published a).flatMap (streamOf s.channels) :=
        List.flatMap_congr fun v hv => by rw [streamOf_set hc, if_neg (hne v hv)]
      rw [hsame]
      simp [hma]
  · have hvw : w ≠ v := by
      rintro rfl
      exact hv (List.mem_of_mem_filter (List.mem_of_getLast? hlast))
    simp only [State.accept, State.channelGoto]
    rw [streamOf_set hc, if_neg hvw]
    exact h.silent v hv
  · exact forall_mem_set h.room (by simp only [List.length_append, List.length_singleton]; omega)
  · exact forall_mem_set h.lost fun _ => hlost

end Streams

theorem StepR.streams {a : Act μ} (hR : RoutedOK s) (h : Streams depth s) (hs : StepR cfg depth s a s') :
    Streams depth s' := by
  cases hs with
  | net ha hn => exact h.net hR hn
  | @recvMany w n x c hx hc hpc =>
    have hmem := List.mem_of_getElem? hc
    refine h.channel hc ?_ ?_ (h.lost c hmem)
    · rw [Channel.stream, List.append_assoc c.received, List.take_append_drop, Channel.stream]
    · have := h.room c hmem
      simp only [List.length_drop]
      omega
  | @dropReceiver w x c hx hc hpc ho =>
    have hlost := h.lost c (List.mem_of_getElem? hc) ho
    refine h.channel hc ?_ (Nat.zero_le _) fun ho => by cases ho
    simp only [Channel.stream, hlost, List.append_nil]
  | accept he hw hc ho hroom =>
    have hA := h.accept hR hw hc ho hroom
    exact ⟨hA.streams, hA.silent, hA.room, hA.lost⟩
  | other => exact ⟨h.streams, h.silent, h.room, h.lost⟩

theorem streams_reachable (h : (outbound cfg depth).Reachable s) : Streams depth s :=
  h.invariant Streams.init fun hr hS _ hs => (step_sound hs).streams (routedOK_reachable hr) hS

/-- A call never finds a channel down: the writer of an entry is the one
published last at the address, with its receiver in place. At every address,
what its writers have received, dropped or are yet to receive is, one writer
after another in the order they were published, what was accepted for it; and
no queue is longer than its depth. -/
theorem messages_routed (cfg : NodeConfig) (depth : Nat) (s : State μ) (h : (outbound cfg depth).Reachable s) :
    (∀ via own addr msg confirmDelivery,
      (queueMessage depth s via own addr msg confirmDelivery).1 ≠ .error .brokenPipe) ∧
      (∀ addr w, s.channelOf.lookup addr = some w →
        (publishedAt s.net.writers s.published addr).getLast? = some w ∧
          ∃ c, s.channels[w]? = some c ∧ c.isOpen = true) ∧
      (∀ addr, (s.accepted.filter (·.addr = addr)).map (·.msg) =
        (publishedAt s.net.writers s.published addr).flatMap (streamOf s.channels)) ∧
      ∀ c ∈ s.channels, c.queue.length ≤ depth ∧ (c.isOpen = true → c.dropped = []) := by
  have hR := routedOK_reachable h
  have hS := streams_reachable h
  refine ⟨hR.queueMessage_ne_brokenPipe depth, fun addr w hw => ?_, hS.streams, fun c hc => ⟨hS.room c hc, hS.lost c hc⟩⟩
  obtain ⟨-, c, -, -, hc, ho, hlast⟩ := hR.entry hw
  exact ⟨hlast, c, hc, ho⟩

/-- The steps of a connection's setup `i`, its writer published. -/
def writable (i : Nat) : List (Act Nat) := (Writing.dialed i ++ Writing.published i i ++ Writing.established i).map .net

/-- Messages to a connection, which is lost with one of them in its queue, and
to the next one at its address. -/
def lostAndReplaced : List (Act Nat) := List.flatten
  [[.net .enable], writable 0,
    [.unicast true peer 1 true, .unicast true peer 2 false, .recvMany 0 1, .net (.endWriter 0), .net (.cleanup 0),
      .dropReceiver 0, .net (.base (.claim 0)), .net (.base (.finalize 0)), .net (.base (.remove 0)),
      .net (.base (.notifyDrain 0))],
    writable 1, [.unicast true peer 3 true]]

theorem messages_routed_lostAndReplaced : ∃ s : State Nat, (outbound threeSlots 2).Reachable s ∧
    s.accepted.map (·.msg.msg) = [1, 2, 3] ∧ publishedAt s.net.writers s.published peer = [0, 1] ∧
    (s.accepted.filter (·.addr = peer)).map (·.msg) =
      (publishedAt s.net.writers s.published peer).flatMap (streamOf s.channels) := by
  obtain ⟨s, hs, hp⟩ := (outbound threeSlots 2).exists_reachable lostAndReplaced
    (fun s => decide (s.accepted.map (·.msg.msg) = [1, 2, 3] ∧ publishedAt s.net.writers s.published peer = [0, 1]))
    (by decide +kernel)
  obtain ⟨hm, hpub⟩ := of_decide_eq_true hp
  exact ⟨s, hs, hm, hpub, (messages_routed threeSlots 2 s hs).2.2.1 peer⟩

end Pea2Pea.Outbound
