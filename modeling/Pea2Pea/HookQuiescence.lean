/-
No call of a node waits for ever, with OnConnect and OnDisconnect enabled.

A disconnect waits for its hook, the hook is spawned by a handler loop, the
loop ends when `shut_down` signals it, and `shut_down` signals when the
disconnects are through. None of these waits is in a circle: with no new
calls and hooks that end, every scheduling task and disconnect gets through
with its hook, the loops serve their requests as long as they live, and a
caller whose loop is gone finds its channel closed. A loop that was not
signaled, because nobody had subscribed then, goes on until it is aborted:
`shut_down` does not wait for it past the drain deadline.
-/
import Pea2Pea.Attached
import Pea2Pea.LoopQuiescence
import Pea2Pea.Quiescence
import Pea2Pea.Undisturbed

namespace Pea2Pea.Hooks

open Pool Tasks

/-- An OnDisconnect hook has a timeout and a grace period passes; an OnConnect
hook may run on. A disconnect may be dropped, and an aborted loop's future too. -/
def pace (s : State) : Act → Pace
  | .base a => Shutdown.pace s.base a
  | .loop side a => HandlerLoop.pace (s.get side).loop a
  | .dropLoop _ | .cancelDisc _ => .event
  | .hookDone h => if (s.hooks[h]?).all (·.side = .disconnect) then .work else .event
  | _ => .work

/-! ## The steps left -/

def CallerPc.rank : CallerPc → Nat
  | .waiting => 5
  | .grace => 4
  | .responded _ => 3
  | .registered _ => 2
  | .over | .cancelled => 0

/-- Those of the first `n` callers that may still make a trigger. -/
def untriggered (n : Nat) (skipped : List Nat) (triggers : List Trigger) : Finset Nat :=
  (Finset.range n).filter fun i => i ∉ skipped ∧ ∀ t ∈ triggers, t.owner ≠ i

/-- What the drop of a loop's future takes off. -/
def droppedRank : Bool → Nat
  | true => 0
  | false => 7

/-- The steps of a handler's callers, of its loop twice over (a request that
is received leaves a hook behind), and of the loop's end. -/
def Handler.left (x : Handler) (n : Nat) (skipped : List Nat) : Nat :=
  18 * (untriggered n skipped x.triggers).card + weight (·.caller.rank) x.triggers + 2 * x.loop.left +
    droppedRank x.dropped

def State.hooksLeft (s : State) : Nat :=
  s.connect.left s.base.base.scheds.length [] + s.disconnect.left s.base.base.discs.length s.skipped + running s.hooks

def State.left (s : State) : (ℕ ×ₗ ℕ ×ₗ ℕ) ×ₗ ℕ := toLex (s.base.left, s.hooksLeft)

variable {cfg : NodeConfig} {abortable : Bool} {s s' : State} {a : Act}

/-- Everybody who may make a trigger on this side. -/
def State.owners (s : State) : Side → Nat
  | .connect => s.base.base.scheds.length
  | .disconnect => s.base.base.discs.length

def State.skips (s : State) : Side → List Nat
  | .connect => []
  | .disconnect => s.skipped

theorem State.hooksLeft_put (s : State) (side : Side) (x : Handler) :
    (s.put side x).hooksLeft + (s.get side).left (s.owners side) (s.skips side) =
      s.hooksLeft + x.left (s.owners side) (s.skips side) := by
  cases side <;> simp only [State.hooksLeft, State.put, State.get, State.owners, State.skips] <;> omega

theorem untriggered_card_lt {n i : Nat} {K J : List Nat} {T U : List Trigger} (hi : i ∈ untriggered n K T)
    (hi' : i ∉ untriggered n J U) (hK : ∀ k ∈ K, k ∈ J) (hT : ∀ t ∈ T, t ∈ U) :
    (untriggered n J U).card < (untriggered n K T).card := by
  refine Finset.card_lt_card ⟨fun k hk => ?_, fun h => hi' (h hi)⟩
  simp only [untriggered, Finset.mem_filter, Finset.mem_range] at hk ⊢
  exact ⟨hk.1, fun hm => hk.2.1 (hK k hm), fun t ht => hk.2.2 t (hT t ht)⟩

theorem untriggered_goto {n q : Nat} {K : List Nat} {T : List Trigger} {t : Trigger} {pc : CallerPc} {reply : Reply}
    (ht : T[q]? = some t) :
    untriggered n K (T.set q { t with caller := pc, reply := reply }) = untriggered n K T := by
  have howners : ∀ i, (∀ z ∈ T.set q { t with caller := pc, reply := reply }, z.owner ≠ i) ↔ ∀ z ∈ T, z.owner ≠ i := by
    intro i
    have := map_set_same (g := Trigger.owner) (y := { t with caller := pc, reply := reply }) ht rfl
    have hset := List.forall_mem_map (f := Trigger.owner) (l := T.set q { t with caller := pc, reply := reply })
      (P := (· ≠ i))
    rw [this, List.forall_mem_map] at hset
    exact hset.symm
  simp only [untriggered, howners]

theorem Handler.left_goto {x : Handler} {l : HandlerLoop.State} {q n : Nat} {K : List Nat} {t : Trigger} {pc : CallerPc}
    {reply : Reply} (ht : x.triggers[q]? = some t) :
    (Handler.goto { x with loop := l } q t pc reply).left n K + t.caller.rank + 2 * x.loop.left =
      x.left n K + pc.rank + 2 * l.left := by
  have hset := weight_set (w := fun t : Trigger => t.caller.rank) (y := { t with caller := pc, reply := reply }) ht
  simp only [Handler.left, Handler.goto, untriggered_goto ht] at hset ⊢
  omega

theorem Handler.left_lt_goto {x : Handler} {q n : Nat} {K : List Nat} {t : Trigger} {pc : CallerPc} {reply : Reply}
    (ht : x.triggers[q]? = some t) (hpc : pc.rank < t.caller.rank) : (x.goto q t pc reply).left n K < x.left n K := by
  have hgoto : (x.goto q t pc reply).left n K + _ + _ = _ := Handler.left_goto (l := x.loop) ht
  omega

namespace State

theorem left_lt_of_hooks (hb : s'.base.left = s.base.left) (h : s'.hooksLeft < s.hooksLeft) : s'.left < s.left :=
  Prod.Lex.toLex_lt_toLex.mpr (.inr ⟨hb, h⟩)

theorem left_lt_of_base (h : s'.base.left < s.base.left) : s'.left < s.left := Prod.Lex.toLex_lt_toLex.mpr (.inl h)

/-- One handler moves on, and its hooks with it. -/
theorem left_lt_put {side : Side} {x : Handler} {H : List Hook}
    (h : x.left (s.owners side) (s.skips side) + running H <
      (s.get side).left (s.owners side) (s.skips side) + running s.hooks) :
    State.left { s.put side x with hooks := H } < s.left := by
  have hput := s.hooksLeft_put side x
  refine left_lt_of_hooks (by cases side <;> rfl) ?_
  have hH : State.hooksLeft { s.put side x with hooks := H } + running s.hooks =
      (s.put side x).hooksLeft + running H := by
    cases side <;> simp only [State.hooksLeft, State.put] <;> omega
  omega

theorem put_hooks_self (s : State) (side : Side) (x : Handler) :
    { s.put side x with hooks := s.hooks } = s.put side x := by
  cases side <;> rfl

end State

/-- Steps that only move a caller. -/
theorem left_lt_caller (side : Side) {q : Nat} {t : Trigger} {pc : CallerPc} {reply : Reply}
    (ht : (s.get side).triggers[q]? = some t) (hpc : pc.rank < t.caller.rank) :
    (s.put side ((s.get side).goto q t pc reply)).left < s.left := by
  rw [← State.put_hooks_self]
  exact State.left_lt_put (Nat.add_lt_add_right (Handler.left_lt_goto ht hpc) _)

theorem CallerPc.rank_listening {pc : CallerPc} (h : pc.listening = true) : 3 < pc.rank := by
  cases pc <;> first | decide | cases h

/-- A step of the loop, or of a send. -/
theorem left_lt_loop {side : Side} {l : HandlerLoop.State} (hl : l.left < (s.get side).loop.left) :
    (s.put side { s.get side with loop := l }).left < s.left := by
  rw [← State.put_hooks_self]
  refine State.left_lt_put (Nat.add_lt_add_right ?_ _)
  simp only [Handler.left]
  omega

theorem HandlersOK.left_lt (h : HandlersOK s) {side : Side} {a : HandlerLoop.Act} {l : HandlerLoop.State}
    (hl : HandlerLoop.step .hook (s.get side).loop a = some l) (hi : HandlerLoop.pace (s.get side).loop a ≠ .idle)
    (hc : HandlerLoop.pace (s.get side).loop a ≠ .call) : l.left < (s.get side).loop.left :=
  HandlerLoop.left_lt (h side).loop hl hi hc

theorem left_abandon {x : Handler} {n : Nat} {K : List Nat} (hx : x.dropped = false) :
    x.abandon.left n K < x.left n K := by
  have hreqs : weight (·.pc.rank) x.abandon.loop.reqs ≤ weight (·.pc.rank) x.loop.reqs := by
    refine weight_map fun r _ => ?_
    split
    · exact Nat.zero_le _
    · exact le_rfl
  have hpc : HandlerLoop.LoopPc.parked.rank x.loop.draining ≤ 3 := by
    cases x.loop.draining <;> decide
  simp only [Handler.left, HandlerLoop.State.left, Handler.abandon, hx, droppedRank] at hreqs ⊢
  omega

theorem callerId_lt {side : Side} {i id : Nat} (h : s.callerId side i = some id) : i < s.owners side := by
  cases side <;> simp only [State.callerId, Option.bind_eq_bind, Option.bind_eq_some_iff] at h <;>
    obtain ⟨x, hx, -⟩ := h <;> exact (List.getElem?_eq_some_iff.mp hx).1

theorem untriggered_request (side : Side) {i id : Nat} (hi : s.callerId side i = some id)
    (hn : ∀ t ∈ (s.get side).triggers, t.owner ≠ i) (hk : i ∉ s.skips side) :
    i ∈ untriggered (s.owners side) (s.skips side) (s.get side).triggers := by
  simp only [untriggered, Finset.mem_filter, Finset.mem_range]
  exact ⟨callerId_lt hi, hk, hn⟩

/-- The caller makes its one trigger. -/
theorem left_lt_request {side : Side} {i id : Nat} (hi : s.callerId side i = some id)
    (hn : ∀ t ∈ (s.get side).triggers, t.owner ≠ i) (hk : i ∉ s.skips side) :
    (s.put side ((s.get side).request ⟨i, id, .waiting, .empty⟩)).left < s.left := by
  have hcard := untriggered_card_lt (U := (s.get side).triggers ++ [⟨i, id, .waiting, .empty⟩])
    (J := s.skips side) (untriggered_request side hi hn hk) (by simp [untriggered]) (fun _ h => h)
    (fun t ht => List.mem_append_left _ ht)
  rw [← State.put_hooks_self]
  refine State.left_lt_put (Nat.add_lt_add_right ?_ _)
  simp only [Handler.left, Handler.request, HandlerLoop.State.left, weight_append, weight, CallerPc.rank,
    HandlerLoop.ReqPc.rank]
  omega

/-- The loop receives a request and leaves a hook behind. -/
theorem left_lt_receive {side : Side} {l : HandlerLoop.State} {q : Nat} {t : Trigger} {reply : Reply} {y : Hook}
    (ht : (s.get side).triggers[q]? = some t) (hl : l.left < (s.get side).loop.left) :
    State.left { s.put side (Handler.goto { s.get side with loop := l } q t t.caller reply) with
      hooks := s.hooks ++ [y] } < s.left := by
  have hgoto : (Handler.goto { s.get side with loop := l } q t t.caller reply).left (s.owners side) (s.skips side) +
    _ + _ = _ := Handler.left_goto ht
  have := running_append s.hooks y
  refine State.left_lt_put ?_
  dsimp only at hgoto ⊢
  omega

theorem base_idle {b b' : Shutdown.State} {c : Pea2Pea.Act} (hc : c.isIdle = true)
    (hb : Shutdown.step cfg b (.base c) = some b') : b'.base.scheds = b.base.scheds ∧ b'.base.discs = b.base.discs := by
  cases Shutdown.step_sound hb with
  | base hstep => exact ((Pea2Pea.step_sound hstep).idle_same hc).2

/-- A handle goes to a connection, and its caller on. -/
theorem left_lt_handle {b : Shutdown.State} {c : Pea2Pea.Act} {H : List Hook} (hc : c.isIdle = true)
    (hb : Shutdown.step cfg s.base (.base c) = some b) (hH : running H ≤ running s.hooks) (side : Side) {q : Nat}
    {t : Trigger} {pc : CallerPc} {reply : Reply} (ht : (s.get side).triggers[q]? = some t)
    (hpc : pc.rank < t.caller.rank) :
    State.left { s.put side ((s.get side).goto q t pc reply) with base := b, hooks := H } < s.left := by
  have hidle : Shutdown.pace s.base (.base c) = .idle := by cases c <;> first | rfl | cases hc
  have hleft := (Shutdown.step_sound hb).left_idle hidle
  obtain ⟨hscheds, hdiscs⟩ := base_idle hc hb
  have hgoto : ((s.get side).goto q t pc reply).left (s.owners side) (s.skips side) < _ :=
    Handler.left_lt_goto ht hpc
  refine State.left_lt_of_hooks hleft ?_
  cases side <;>
    simp only [State.hooksLeft, State.put, State.get, State.owners, State.skips, hscheds, hdiscs] at hgoto ⊢ <;> omega

theorem trigger_fresh {side : Side} {i : Nat} (h : step cfg abortable s (.trigger side i) = some s') :
    side = .disconnect → i ∉ s.skipped := by
  simp only [step, Option.bind_eq_bind, Option.bind_eq_some_iff] at h
  obtain ⟨id, -, h⟩ := h
  split at h
  next hc => exact hc.2
  · cases h

theorem dropLoop_alive {side : Side} (h : step cfg abortable s (.dropLoop side) = some s') :
    (s.get side).dropped = false := by
  simp only [step, Option.bind_eq_bind, Option.bind_eq_some_iff] at h
  obtain ⟨w, -, t, -, h⟩ := h
  split at h
  next hc => exact hc.2.2
  · cases h

theorem left_lt (hH : HandlersOK s) (h : step cfg abortable s a = some s') (hni : pace s a ≠ .idle)
    (hnc : pace s a ≠ .call) : s'.left < s.left := by
  cases step_sound h with
  | base hb hf => exact State.left_lt_of_base ((Shutdown.step_sound hb).left_lt hni hnc)
  | @trigger side i id h hid hn hk ht =>
    exact left_lt_request hid hn (by cases side <;> simp_all [State.skips])
  | @skip j id hj hn ht =>
    have hcard := untriggered_card_lt (U := s.disconnect.triggers) (J := j :: s.skipped)
      (untriggered_request .disconnect hj hn (trigger_fresh h rfl)) (by simp [untriggered])
      (fun k hk => List.mem_cons_of_mem _ hk) (fun _ h => h)
    refine State.left_lt_of_hooks rfl ?_
    simp only [State.hooksLeft, Handler.left]
    simp only [State.owners, State.skips, State.get] at hcard
    omega
  | loop ha hl => exact left_lt_loop (hH.left_lt hl hni hnc)
  | receive ha hl hr ht | receiveLate ha hl hr ht => exact left_lt_receive ht (hH.left_lt hl hni hnc)
  | sendFailed hx hl =>
    exact left_lt_loop (hH.left_lt hl (by simp [HandlerLoop.pace, hx]) (by simp [HandlerLoop.pace, hx]))
  | dropLoop =>
    rw [← State.put_hooks_self]
    exact State.left_lt_put (Nat.add_lt_add_right (left_abandon (dropLoop_alive h)) _)
  | respond ht hr hc =>
    refine left_lt_caller _ ht ?_
    have := CallerPc.rank_listening hc
    split
    · exact Nat.zero_lt_of_lt this
    · exact this
  | noResponse ht hr hc => exact left_lt_caller _ ht (Nat.zero_lt_of_lt (CallerPc.rank_listening hc))
  | closing ht hr hc => exact left_lt_caller _ ht (by rw [hc]; decide)
  | graceExpired ht hc => exact left_lt_caller _ ht (by rw [hc]; decide)
  | attach ht hc hu hb =>
    refine left_lt_handle rfl hb ?_ .connect ht (by rw [hc]; exact Nat.zero_lt_succ _)
    split
    · exact le_rfl
    · exact running_abort _ _
  | register ht hc hd hb =>
    refine left_lt_handle rfl hb ?_ .disconnect ht (by rw [hc]; exact Nat.lt_succ_self _)
    split
    · exact le_rfl
    · exact running_abort _ _
  | waited ht hc => exact left_lt_caller .disconnect ht (by rw [hc]; exact Nat.zero_lt_succ _)
  | cancelDisc ht hr hb =>
    refine State.left_lt_of_base ((Shutdown.step_sound hb).left_lt ?_ ?_)
    · exact show Pace.work ≠ .idle by decide
    · exact show Pace.work ≠ .call by decide
  | @hookDone w y hy hr =>
    refine State.left_lt_of_hooks rfl (Nat.add_lt_add_left ?_ _)
    have hset : running (s.hooks.set w { y with status := .finished }) + 1 = running s.hooks :=
      running_set hy hr (fun hn => by cases hn)
    exact Nat.lt_of_succ_le hset.le

theorem left_idle (h : step cfg abortable s a = some s') (hi : pace s a = .idle) : s'.left = s.left := by
  cases step_sound h with
  | @base c b hb hf =>
    have hc : ∃ e, c = .base e ∧ e.isIdle = true := by
      cases c with
      | base e =>
        refine ⟨e, rfl, ?_⟩
        cases e <;> first | rfl | (simp only [pace, Shutdown.pace] at hi; split at hi <;> cases hi) | cases hi
      | _ => cases hi
    obtain ⟨e, rfl, he⟩ := hc
    have hreact : s.react (.base e) = s := by cases e <;> first | rfl | cases he
    obtain ⟨hscheds, hdiscs⟩ := base_idle he hb
    simp only [State.left, State.hooksLeft, hreact, hscheds, hdiscs, (Shutdown.step_sound hb).left_idle hi]
  | @loop side c l ha hl hr =>
    have hleft : l.left = (s.get side).loop.left := HandlerLoop.left_idle hl hi
    cases side <;> simp only [State.left, State.hooksLeft, Handler.left, State.put, State.get] at hleft ⊢ <;>
      rw [hleft]
  | @receive side c l q t ha hl hr | @receiveLate side c l q t ha hl hr =>
    -- a poll that receives something is not idling
    obtain ⟨r, rest, -, hq, -⟩ := receives_item (HandlerLoop.step_sound hl) hr
    unfold Handler.receives at hr
    split at hr
    next hc => rw [hc.1] at hi; simp [pace, HandlerLoop.pace, Mpsc.recv, hq] at hi
    · cases hr
  | hookDone =>
    simp only [pace] at hi
    split at hi <;> cases hi
  | _ => cases hi

/-! ## The handlers -/

open HandlerLoop (Shape)

/-- A handler against its node task: a loop whose future was dropped left its
channel closed and its task ended, and it was published before anybody made
a request. -/
structure Handling (b : Shutdown.State) (side : Side) (x : Handler) : Prop where
  shape : Shape .hook x.loop
  dropped : x.dropped = true → x.loop.chan.closed = true ∧
    ∃ h, x.task = some h ∧ Over b.tasks h
  published : x.task ≠ none → side.kind ∈ b.published
  triggered : x.triggers ≠ [] → x.task ≠ none
  replies : ∀ t ∈ x.triggers, t.caller.listening = true → t.reply = .empty ∨ ∃ h, t.reply = .sent h
  callers : side = .connect → ∀ t ∈ x.triggers, t.caller ≠ .cancelled ∧ ∀ h, t.caller ≠ .registered h

namespace Handling

variable {b b' : Shutdown.State} {side : Side} {x : Handler} {q : Nat} {t : Trigger}

theorem base {y : Shutdown.Act} (h : Handling b side x) (hs : Shutdown.StepR cfg b y b') : Handling b' side x :=
  { h with
    dropped := fun hd => by
      obtain ⟨hc, w, hw, he⟩ := h.dropped hd
      exact ⟨hc, w, hw, hs.later w he⟩
    published := fun hp => hs.published_mono (h.published hp) }

theorem signaled (h : Handling b side x) (stored : Bool) : Handling b side (x.signaled stored) :=
  { h with shape := { h.shape with } }

theorem goto {pc : CallerPc} {reply : Reply} (h : Handling b side x) (ht : x.triggers[q]? = some t)
    (hr : pc.listening = true → reply = .empty ∨ ∃ h, reply = .sent h)
    (hc : side = .connect → pc ≠ .cancelled ∧ ∀ h, pc ≠ .registered h) : Handling b side (x.goto q t pc reply) :=
  { h with
    triggered := fun _ => h.triggered fun he => by rw [he] at ht; cases ht
    replies := forall_mem_set h.replies hr
    callers := fun hs => forall_mem_set (h.callers hs) (hc hs) }

/-- A step of the loop, or of a send. -/
theorem loop {l : HandlerLoop.State} {y : HandlerLoop.Act} (h : Handling b side x)
    (hl : HandlerLoop.StepR .hook x.loop y l) : Handling b side { x with loop := l } :=
  { h with
    shape := hl.shape h.shape
    dropped := fun hd => by
      obtain ⟨hc, hw⟩ := h.dropped hd
      exact ⟨hl.closed_mono hc, hw⟩ }

theorem request {i id : Nat} (h : Handling b side x) (ht : x.task ≠ none) :
    Handling b side (x.request ⟨i, id, .waiting, .empty⟩) where
  shape := HandlerLoop.StepR.request.shape h.shape
  dropped := h.dropped
  published := h.published
  triggered _ := ht
  replies := forall_mem_append h.replies fun _ => .inl rfl
  callers hs := forall_mem_append (h.callers hs) ⟨by simp, by simp⟩

theorem abandon {w : Handle} {z : Shutdown.Task} (h : Handling b side x) (hw : x.task = some w)
    (hz : b.tasks[w]? = some z) (ha : z.status = .aborted) : Handling b side x.abandon :=
  { h with
    shape :=
      { draining := fun _ => rfl
        tasks := fun q hq => by simpa [Handler.abandon] using h.shape.tasks q hq
        hook := h.shape.hook
        join := fun _ => by simp [Handler.abandon]
        capacity := h.shape.capacity }
    dropped := fun _ => ⟨rfl, w, hw, over_iff.mpr ⟨_, hz, fun hr => by cases ha.symm.trans hr⟩⟩ }

end Handling

def HandlingOK (s : State) : Prop := ∀ side, Handling s.base side (s.get side)

theorem HandlingOK.put {side : Side} {x : Handler} (h : HandlingOK s) (hx : Handling s.base side x) :
    HandlingOK (s.put side x) := by
  intro σ
  rw [State.put_base]
  by_cases hσ : σ = side
  · subst hσ
    rw [State.get_put]
    exact hx
  · rw [State.get_put_ne s x hσ]
    exact h σ

/-- What a step of the shutdown system does to the handlers: one may be
published, and both may be signaled. -/
theorem HandlingOK.react {y : Shutdown.Act} {b : Shutdown.State} (h : HandlingOK s)
    (hs : Shutdown.StepR cfg s.base y b) : HandlingOK { s.react y with base := b } := by
  intro side
  rw [State.get_base]
  have hbase := (h side).base hs
  rcases s.react_get y side with ⟨c, rfl, hget⟩ | ⟨n, stored, rfl, hget⟩ | hget
  · rw [hget]
    rcases s.wire_cases c side with hw | ⟨x, w, hx, hpc, hk, hp, hw⟩
    · rw [hw]; exact hbase
    · rw [hw]
      -- it was not published, so nothing was made of it
      have hnone : (s.get side).task = none := by
        by_contra ht
        exact hp (hk ▸ (h side).published ht)
      refine { hbase with dropped := fun hd => ?_, published := fun _ => ?_, triggered := fun _ => by simp }
      · obtain ⟨-, v, hv, -⟩ := (h side).dropped hd
        rw [hnone] at hv; cases hv
      · cases hs with
        | publish hx' => rw [hx] at hx'; cases hx'; exact hk ▸ Finset.mem_insert_self _ _
        | publishTwice hx' _ _ hp' => rw [hx] at hx'; cases hx'; exact absurd hp' hp
        | publishAddr hx' _ hl => rw [hx] at hx'; cases hx'; rw [hk] at hl; cases side <;> cases hl
  · rw [hget]; exact hbase.signaled stored
  · rw [hget]; exact hbase

theorem StepR.handlingOK (h : HandlingOK s) (hs : StepR cfg abortable s a s') : HandlingOK s' := by
  have hooked : ∀ {z : State} {H : List Hook}, HandlingOK z → HandlingOK { z with hooks := H } :=
    fun hz σ => by cases σ <;> first | exact hz .connect | exact hz .disconnect
  cases hs with
  | base hb => exact h.react (Shutdown.step_sound hb)
  | trigger hi hn hk ht => exact h.put ((h _).request (by rw [ht]; simp))
  | skip => exact fun σ => by cases σ <;> first | exact h .connect | exact h .disconnect
  | loop ha hl => exact h.put ((h _).loop (HandlerLoop.step_sound hl))
  | @receive side c l q t ha hl hr ht hc =>
    refine hooked (h.put (((h _).loop (HandlerLoop.step_sound hl)).goto ht (fun _ => .inr ⟨_, rfl⟩) ?_))
    exact fun hs => (h side).callers hs t (List.mem_of_getElem? ht)
  | @receiveLate side c l q t ha hl hr ht hc =>
    refine hooked (h.put (((h _).loop (HandlerLoop.step_sound hl)).goto ht (fun hlis => ?_) ?_))
    · rw [hc] at hlis; cases hlis
    · exact fun hs => (h side).callers hs t (List.mem_of_getElem? ht)
  | sendFailed hc hl => exact h.put ((h _).loop (HandlerLoop.step_sound hl))
  | dropLoop hw hz ha => exact h.put ((h _).abandon hw hz ha)
  | @respond side q t w ht hr hc =>
    exact h.put ((h side).goto ht (by split <;> simp [CallerPc.listening]) (by split <;> simp))
  | @noResponse side q t r ht => exact h.put ((h side).goto ht (by simp [CallerPc.listening]) (by simp))
  | @closing side q t r ht hr hc he => exact h.put ((h side).goto ht (fun _ => .inl he) (by simp))
  | @graceExpired side q t ht => exact h.put ((h side).goto ht (by simp [CallerPc.listening]) (by simp))
  | attach ht hc hu hb =>
    have hstep := Shutdown.step_sound hb
    intro σ
    cases σ with
    | connect => exact ((h .connect).goto ht (by simp [CallerPc.listening]) (by simp)).base hstep
    | disconnect => exact (h .disconnect).base hstep
  | register ht hc hd hb =>
    have hstep := Shutdown.step_sound hb
    intro σ
    cases σ with
    | connect => exact (h .connect).base hstep
    | disconnect => exact ((h .disconnect).goto ht (by simp [CallerPc.listening]) (by simp)).base hstep
  | waited ht =>
    intro σ
    cases σ with
    | connect => exact h .connect
    | disconnect => exact (h .disconnect).goto ht (by simp [CallerPc.listening]) (by simp)
  | @cancelDisc q t r b ht hr hb =>
    have hstep := Shutdown.step_sound hb
    have hd : Handling s.base .disconnect s.disconnect := h .disconnect
    have hloop : Handling s.base .disconnect
        { s.disconnect with loop := s.disconnect.loop.reqGoto q r (cancelSend r.pc) } :=
      { hd with shape :=
        { hd.shape with tasks := fun q hq => by simpa [HandlerLoop.State.reqGoto] using hd.shape.tasks q hq } }
    intro σ
    cases σ with
    | connect => exact (h .connect).base hstep
    | disconnect => exact (hloop.goto ht (by simp [CallerPc.listening]) (by simp)).base hstep
  | hookDone => exact hooked h

theorem handlingOK_reachable (h : (hooks cfg abortable).Reachable s) : HandlingOK s := by
  refine h.invariant (fun σ => ?_) fun hr ho _ hs => (step_sound hs).handlingOK ho
  have hget : (hooks cfg abortable).init.get σ = .init cfg := by cases σ <;> rfl
  rw [hget]
  constructor <;> simp [Handler.init, hooks, State.init, Shutdown.State.init]
  exact
    { draining := by simp [HandlerLoop.State.init]
      tasks := by simp [HandlerLoop.State.init]
      hook := by simp [HandlerLoop.State.init]
      join := fun _ => by simp [HandlerLoop.State.init]
      capacity := cfg.maxConnections_pos }

/-- A cancelled disconnect has begun to finalize. -/
def Cancelled (discs : List Disc) (triggers : List Trigger) : Prop :=
  ∀ t ∈ triggers, t.caller = .cancelled → ∀ d, discs[t.owner]? = some d → ∀ id, d.pc ≠ .claimed id

theorem Cancelled.goto {D : List Disc} {T : List Trigger} {q : Nat} {t : Trigger} {pc : CallerPc} {reply : Reply}
    (h : Cancelled D T) (hpc : pc ≠ .cancelled ∨ t.caller = pc) (ht : T[q]? = some t) :
    Cancelled D (T.set q { t with caller := pc, reply := reply }) := by
  refine forall_mem_set h fun hc => ?_
  rcases hpc with hpc | rfl
  · exact absurd hc hpc
  · exact h t (List.mem_of_getElem? ht) hc

/-- A disconnect claims once. -/
theorem Cancelled.base {b b' : Shutdown.State} {y : Shutdown.Act} {C T : List Trigger} {K : List Nat}
    (h : Cancelled b.base.discs T) (hC : Callers b.base C T K) (hs : Shutdown.StepR cfg b y b') :
    Cancelled b'.base.discs T := by
  intro t ht hcan d' hd' id hpc
  obtain ⟨d, hd, hid, -⟩ := hC.disc t ht
  obtain ⟨p, hp, hmove⟩ := hs.disc_move hd
  rw [hp] at hd'; cases hd'
  rcases hmove with rfl | ⟨c, -, hm⟩
  · exact h t ht hcan d hd id hpc
  · cases hpc
    unfold Disc.claimedId at hid
    generalize d.pc = e at hm hid
    cases hm
    cases hid

abbrev CancelledOK (s : State) : Prop := Cancelled s.base.base.discs s.disconnect.triggers

theorem StepR.cancelledOK (hC : CallersOK s) (h : CancelledOK s) (hs : StepR cfg abortable s a s') :
    CancelledOK s' := by
  have side : ∀ {σ : Side} {x : Handler}, (σ = .disconnect → Cancelled s.base.base.discs x.triggers) →
      CancelledOK (s.put σ x) := by
    intro σ x hx
    cases σ with
    | connect => exact h
    | disconnect => exact hx rfl
  have sideGoto : ∀ {σ : Side} {q : Nat} {t : Trigger} {pc : CallerPc} {reply : Reply},
      (s.get σ).triggers[q]? = some t → pc ≠ .cancelled ∨ t.caller = pc →
      CancelledOK (s.put σ ((s.get σ).goto q t pc reply)) := by
    intro σ q t pc reply ht hpc
    refine side ?_
    rintro rfl
    exact h.goto hpc ht
  cases hs with
  | base hb =>
    show Cancelled _ _
    rw [show ({ s.react _ with base := _ } : State).disconnect.triggers = _ from s.react_triggers _ .disconnect]
    exact h.base hC (Shutdown.step_sound hb)
  | trigger =>
    refine side ?_
    rintro rfl
    exact forall_mem_append h (by simp)
  | skip => exact h
  | loop => exact side fun hd => by subst hd; exact h
  | @receive σ c l q t ha hl hr ht | @receiveLate σ c l q t ha hl hr ht =>
    have hput : ∀ reply, CancelledOK (s.put σ (Handler.goto { s.get σ with loop := l } q t t.caller reply)) := by
      refine fun reply => side ?_
      rintro rfl
      exact h.goto (.inr rfl) ht
    exact hput _
  | sendFailed => exact side fun hd => by subst hd; exact h
  | dropLoop => exact side fun hd => by subst hd; exact h
  | respond ht => exact sideGoto ht (.inl (by split <;> simp))
  | noResponse ht | closing ht | graceExpired ht => exact sideGoto ht (.inl (by simp))
  | attach ht hc hu hb => exact h.base hC (Shutdown.step_sound hb)
  | register ht hc hd hb => exact (h.base hC (Shutdown.step_sound hb)).goto (.inl (by simp)) ht
  | waited ht => exact h.goto (.inl (by simp)) ht
  | @cancelDisc q t r b ht hr hb =>
    refine forall_mem_set (h.base hC (Shutdown.step_sound hb)) fun _ d' hd' id hpc => ?_
    cases Shutdown.step_sound hb with
    | base hstep =>
      cases Pea2Pea.step_sound hstep with
      | finalize hd =>
        rcases getElem?_set_cases hd hd' with ⟨-, rfl⟩ | ⟨hne, -⟩
        · cases hpc
        · exact hne rfl
  | hookDone => exact h

theorem cancelledOK_reachable (h : (hooks cfg abortable).Reachable s) : CancelledOK s :=
  h.invariant (fun t ht => by cases ht) fun hr ho _ hs => (step_sound hs).cancelledOK (callersOK_reachable hr) ho

/-- A node that finds OnConnect enabled finds its handler's loop. -/
def OnConnectOK (s : State) : Prop := s.base.base.onConnect = true → s.connect.task ≠ none

theorem State.wire_published {c : Nat} {x : Shutdown.Call} {w : Handle} {side : Side} (hx : s.base.calls[c]? = some x)
    (hpc : x.pc = .registered w) (hk : x.kind = side.kind) (hp : x.kind ∉ s.base.published) :
    (s.wire c side).task = some w := by
  obtain ⟨kind, bound, pc⟩ := x
  dsimp only at hpc hk hp
  subst hpc
  simp only [State.wire, hx]
  rw [if_pos ⟨hk, hp⟩]

theorem OnConnectOK.react {y : Shutdown.Act} {b : Shutdown.State} (h : OnConnectOK s)
    (hs : Shutdown.StepR cfg s.base y b) : OnConnectOK { s.react y with base := b } := by
  intro hc
  show ((s.react y).get .connect).task ≠ none
  by_cases hold : s.base.base.onConnect = true
  · exact s.react_task y (h hold)
  · cases hs with
    | @base c b' hb hf =>
      -- the lifecycle's own act for it is not free here
      refine absurd (?_ : s.base.base.onConnect = true) hold
      cases Pea2Pea.step_sound hb with
      | enableOnConnect => cases hf
      | _ => exact hc
    | @publish c x w hx hpc hl hp =>
      have hkind : x.kind = Side.connect.kind := by
        by_contra hk
        dsimp only at hc
        rw [if_neg (show x.kind ≠ .onConnect from hk)] at hc
        exact hold hc
      have hw : ((s.react (.publish c)).get .connect).task = some w := State.wire_published hx hpc hkind hp
      rw [hw]; simp
    | _ => exact absurd hc hold

theorem OnConnectOK.same (h : OnConnectOK s) (hb : s'.base.base.onConnect = s.base.base.onConnect)
    (ht : s'.connect.task = s.connect.task) : OnConnectOK s' := fun hc => ht ▸ h (hb ▸ hc)

theorem OnConnectOK.put {side : Side} {x : Handler} {H : List Hook} (h : OnConnectOK s)
    (hx : x.task = (s.get side).task) : OnConnectOK { s.put side x with hooks := H } :=
  h.same (by cases side <;> rfl) (by cases side <;> first | rfl | exact hx)

theorem StepR.onConnectOK (h : OnConnectOK s) (hs : StepR cfg abortable s a s') : OnConnectOK s' := by
  have put : ∀ {side : Side} {x : Handler}, x.task = (s.get side).task → OnConnectOK (s.put side x) := by
    intro side x hx
    rw [← State.put_hooks_self]
    exact h.put hx
  cases hs with
  | base hb => exact h.react (Shutdown.step_sound hb)
  | skip | waited | hookDone => exact h
  | receive | receiveLate => exact h.put rfl
  | attach ht hc hu hb => exact (h.react (Shutdown.step_sound hb)).same rfl rfl
  | register ht hc hd hb => exact (h.react (Shutdown.step_sound hb)).same rfl rfl
  | cancelDisc ht hr hb => exact (h.react (Shutdown.step_sound hb)).same rfl rfl
  | _ => exact put rfl

theorem onConnectOK_reachable (h : (hooks cfg abortable).Reachable s) : OnConnectOK s :=
  h.invariant (fun hc => by cases hc) fun _ ho _ hs => (step_sound hs).onConnectOK ho

/-! ## At rest -/

/-- The node with one of its loops in another state. -/
def State.withLoop (s : State) (side : Side) (l : HandlerLoop.State) : State := s.put side { s.get side with loop := l }

theorem State.withLoop_self (s : State) (side : Side) : s.withLoop side (s.get side).loop = s := by cases side <;> rfl

theorem State.withLoop_withLoop (s : State) (side : Side) (l l' : HandlerLoop.State) :
    (s.withLoop side l).withLoop side l' = s.withLoop side l' := by
  cases side <;> rfl

theorem State.get_withLoop (s : State) (side : Side) (l : HandlerLoop.State) :
    (s.withLoop side l).get side = { s.get side with loop := l } :=
  State.get_put ..

section

variable {side : Side} {c : HandlerLoop.Act} {l : HandlerLoop.State}

/-- A live loop idles in the node as it does alone. -/
theorem step_idle (hH : HandlingOK s) (ht : (s.get side).task ≠ none) (hd : (s.get side).dropped = false)
    (hl : HandlerLoop.step .hook (s.get side).loop c = some l) (hi : HandlerLoop.pace (s.get side).loop c = .idle) :
    step cfg abortable s (.loop side c) = some (s.withLoop side l) := by
  have hlive : ((s.get side).task.isSome && !(s.get side).dropped) = true := by
    simp [hd, Option.isSome_iff_ne_none, ht]
  have hnone : (s.get side).receives c = none := by
    unfold Handler.receives
    split
    next hc =>
      rw [hc.1] at hi
      cases hq : (s.get side).loop.chan.queue with
      | nil => rfl
      | cons q rest => simp [HandlerLoop.pace, Mpsc.recv, hq] at hi
    · rfl
  have hallows : (s.get side).allows c = true := by
    cases HandlerLoop.step_sound hl with
    | joinNone hpc => exact absurd hpc ((hH side).shape.join rfl)
    | recvItem | recvEnded | recvPending | close | park | wake | exit => exact hlive
    | acquire | write => rfl
    | giveUp => simp only [HandlerLoop.pace] at hi; split at hi <;> cases hi
    | request | signalShutdown | subscribe | joinTask | complete | panic | dropTasks | cancelTask => cases hi
  simp [step, hallows, hl, hnone, State.withLoop]

/-- What a live loop or a send can do alone, it can do in the node. -/
theorem step_loop (hK : HandlersOK s) (ha : (s.get side).allows c = true)
    (hl : HandlerLoop.step .hook (s.get side).loop c = some l) : step cfg abortable s (.loop side c) ≠ none := by
  cases hr : (s.get side).receives c with
  | none => simp [step, ha, hl, hr]
  | some q =>
    obtain ⟨r, rest, hreq, -⟩ := receives_item (HandlerLoop.step_sound hl) hr
    have hlt := (List.getElem?_eq_some_iff.mp hreq).1
    rw [← (hK side).length] at hlt
    simp [step, ha, hl, hr, List.getElem?_eq_getElem hlt]

theorem step_work (hK : HandlersOK s) (hH : HandlingOK s) (ht : (s.get side).task ≠ none)
    (hd : (s.get side).dropped = false) (hl : HandlerLoop.step .hook (s.get side).loop c = some l)
    (hw : HandlerLoop.pace (s.get side).loop c = .work) : ∃ b, pace s b = .work ∧ step cfg abortable s b ≠ none := by
  have hlive : ((s.get side).task.isSome && !(s.get side).dropped) = true := by
    simp [hd, Option.isSome_iff_ne_none, ht]
  obtain ⟨htasks, haborted⟩ := (hH side).shape.hook rfl
  have here : (s.get side).allows c = true → ∃ b, pace s b = .work ∧ step cfg abortable s b ≠ none :=
    fun ha => ⟨.loop side c, hw, step_loop hK ha hl⟩
  cases HandlerLoop.step_sound hl with
  | acquire | write => exact here rfl
  | subscribe | recvItem | recvEnded | recvPending | close | park | exit => exact here hlive
  | @giveUp q r =>
    simp only [HandlerLoop.pace] at hw
    split at hw
    next hc => exact ⟨.sendFailed side q, rfl, by simp [step, hc, hl]⟩
    · cases hw
  | joinTask hr hpc => exact absurd hpc ((hH side).shape.join rfl)
  | complete hr hpc =>
    have := (hK side).loop.tasks _ ⟨_, hr, by simp [hpc]⟩
    simp [htasks, haborted] at this
  | dropTasks hpc hne => exact absurd htasks hne
  | cancelTask hr hq => rw [haborted] at hq; cases hq
  | request | signalShutdown | joinNone | wake | panic => cases hw

end

/-- The loop of a node at rest is at rest. -/
theorem loop_atRest (hr : (hooks cfg abortable).Reachable s) (h : (hooks cfg abortable).AtRest pace s) {side : Side}
    (ht : (s.get side).task ≠ none) (hd : (s.get side).dropped = false) :
    (HandlerLoop.handlerLoop .hook cfg.maxConnections).AtRest HandlerLoop.pace (s.get side).loop := by
  refine Machine.AtRest.component (f := fun l => s.withLoop side l)
    (I := fun l => (hooks cfg abortable).Reachable (s.withLoop side l)) ((s.withLoop_self side).symm ▸ h)
    ((s.withLoop_self side).symm ▸ hr) (fun {l l' c} hl hi hs => ?_) fun {l l' c} hl hw hs => ?_
  · have hget := s.get_withLoop side l
    have hstep : step cfg abortable (s.withLoop side l) (.loop side c) = some ((s.withLoop side l).withLoop side l') :=
      step_idle (handlingOK_reachable hl) (by rw [hget]; exact ht) (by rw [hget]; exact hd)
        (by rw [hget]; exact hs) (by rw [hget]; exact hi)
    rw [State.withLoop_withLoop] at hstep
    exact ⟨.step (a := .loop side c) hl trivial hstep, .loop side c, by rw [pace, hget]; exact hi, hstep⟩
  · have hget := s.get_withLoop side l
    exact step_work (handlersOK_reachable hl) (handlingOK_reachable hl) (by rw [hget]; exact ht)
      (by rw [hget]; exact hd) (by rw [hget]; exact hs) (by rw [hget]; exact hw)

theorem CallerPc.over_of_ended {pc : CallerPc} (he : pc.ended = true) (hc : pc ≠ .cancelled) : pc = .over := by
  cases pc <;> simp_all [CallerPc.ended]

section

variable (hr : (hooks cfg abortable).Reachable s) (h : (hooks cfg abortable).AtRest pace s)

include h in
theorem base_stuck {c : Shutdown.Act} (hw : Shutdown.pace s.base c = .work) (hf : s.free c = true) :
    Shutdown.step cfg s.base c = none := by
  have := h.stuck (a := .base c) hw
  simp only [hooks, step, hf, if_true, Option.bind_eq_bind] at this
  cases hb : Shutdown.step cfg s.base c with
  | none => rfl
  | some b => rw [hb] at this; cases this

include h in
theorem ungated_stuck (c : Shutdown.Act) (hw : Shutdown.pace s.base c = .work) (hg : c.gated = false) :
    Shutdown.step cfg s.base c = none := by
  refine base_stuck h hw ?_
  cases c with
  | base e =>
    cases e with
    | insert i tasks =>
      simp only [Shutdown.Act.gated, Bool.not_eq_false', List.isEmpty_iff] at hg
      simp [State.free, hg]
    | attach | register => cases hw
    | schedDone | finalize => cases hg
    | _ => rfl
  | finishTask => cases hg
  | signalHandlers n stored =>
    simp only [Shutdown.Act.gated, Bool.not_eq_false'] at hg
    simp [State.free, hg]
  | _ => rfl

include hr h

theorem addLock_stuck : s.base.base.addLock = none := by
  have hb := (Shutdown.projects cfg).reachable ((projects cfg abortable).reachable hr)
  exact addLock_rest (afootOK_reachable hb) (Shutdown.setupSteps_rest (ungated_stuck h))

/-- A live loop has received what there is; only a dropped one may have left
requests in its channel. -/
theorem request_rest {side : Side} {r : HandlerLoop.Req} (hm : r ∈ (s.get side).loop.reqs)
    (ht : (s.get side).task ≠ none) : r.pc.isOver = true ∨ (s.get side).loop.chan.closed = true ∧ r.pc = .queued := by
  have hH := handlingOK_reachable hr side
  cases hd : (s.get side).dropped with
  | false =>
    have hrest := loop_atRest hr h ht hd
    exact .inl ((HandlerLoop.loop_rest (handlersOK_reachable hr side).loop hH.shape hrest).1 r hm)
  | true =>
    obtain ⟨hc, -⟩ := hH.dropped hd
    obtain ⟨q, hq⟩ := List.getElem?_of_mem hm
    cases hpc : r.pc with
    | answered | dropped | processed | unsent => exact .inl rfl
    | queued => exact .inr ⟨hc, rfl⟩
    | sending =>
      have := h.stuck (a := .sendFailed side q) rfl
      simp [hooks, step, hc, HandlerLoop.step, hq, hpc] at this
    | acquired =>
      have := h.stuck (a := .loop side (.write q)) rfl
      simp [hooks, step, Handler.allows, Handler.receives, HandlerLoop.step, hq, hpc] at this
    | spawned =>
      have := (handlersOK_reachable hr side).loop.tasks q ⟨r, hq, by simp [hpc]⟩
      simp [hH.shape.hook rfl] at this

theorem listening_rest {side : Side} {q : Nat} {t : Trigger} (ht : (s.get side).triggers[q]? = some t) :
    t.caller.listening = false := by
  have hH := handlingOK_reachable hr side
  have hK := handlersOK_reachable hr side
  have hm := List.mem_of_getElem? ht
  by_contra hl
  rw [Bool.not_eq_false] at hl
  have htask : (s.get side).task ≠ none := hH.triggered (List.ne_nil_of_mem hm)
  obtain ⟨r, hreq⟩ := hK.req ht
  rcases hH.replies t hm hl with he | ⟨w, hw⟩
  · -- no answer: the request is nowhere, or in a closed channel
    have hrec : r.pc.received = false := by
      by_contra hc
      rw [Bool.not_eq_false, hK.received q t r ht hreq, he] at hc
      exact hc rfl
    have hno := h.stuck (a := .noResponse side q) rfl
    have hclosing := h.stuck (a := .closing side q) rfl
    have hgrace := h.stuck (a := .graceExpired side q) rfl
    rcases request_rest hr h (List.mem_of_getElem? hreq) htask with hover | ⟨hc, hpc⟩
    · have hunsent : r.pc = .unsent := by
        generalize r.pc = pc at hover hrec
        cases pc <;> simp_all [HandlerLoop.ReqPc.isOver, HandlerLoop.ReqPc.received]
      simp [hooks, step, ht, hreq, hl, hunsent] at hno
    · cases hcaller : t.caller with
      | waiting => simp [hooks, step, ht, hreq, hcaller, he, hc, hpc] at hclosing
      | grace => simp [hooks, step, ht, hcaller] at hgrace
      | _ => rw [hcaller] at hl; cases hl
  · have := h.stuck (a := .respond side q) rfl
    simp [hooks, step, ht, hw, hl] at this

/-- Every caller is through with its hook. -/
theorem triggers_rest (side : Side) {t : Trigger} (hm : t ∈ (s.get side).triggers) : t.caller.ended = true := by
  obtain ⟨q, ht⟩ := List.getElem?_of_mem hm
  have hC := callersOK_reachable hr
  have hlock := addLock_stuck hr h
  have hlis := listening_rest hr h ht
  cases hc : t.caller with
  | waiting | grace => rw [hc] at hlis; cases hlis
  | responded w =>
    cases side with
    | connect =>
      obtain ⟨u, hu, -, hrun⟩ := hC.sched t hm
      have hrun := hrun (by rw [hc]; rfl)
      have := h.stuck (a := .attach q) rfl
      simp [hooks, step, show s.connect.triggers[q]? = some t from ht, hc, hu, Shutdown.step, Pea2Pea.step, hrun, hlock,
        Shutdown.State.free] at this
    | disconnect =>
      obtain ⟨d, hd, -, hcl⟩ := hC.disc t hm
      have hcl := hcl (by rw [hc]; rfl)
      have := h.stuck (a := .register q) rfl
      simp [hooks, step, show s.disconnect.triggers[q]? = some t from ht, hc, hd, Shutdown.step, Pea2Pea.step, hcl, hlock,
        Shutdown.State.free] at this
  | registered w =>
    cases side with
    | connect => exact absurd hc ((handlingOK_reachable hr .connect).callers rfl t hm |>.2 w)
    | disconnect =>
      -- the hook would time out, and its caller find it over
      have hread := hasReadOK_reachable hr .disconnect t hm w (.inr hc)
      obtain ⟨y, hy, hside, -⟩ := (handlersOK_reachable hr .disconnect).hook q t w ht (by rw [hread]; rfl)
      by_cases hrun : y.status = .running
      · have := h.stuck (a := .hookDone w) (by simp [pace, hy, hside])
        simp [hooks, step, hy, hrun] at this
      · have := h.stuck (a := .waited q) rfl
        simp [hooks, step, show s.disconnect.triggers[q]? = some t from ht, hc, hy, hrun] at this
  | _ => rfl

/-- A caller that was not dropped is through with its hook in due order. -/
theorem served_rest (side : Side) {t : Trigger} (hm : t ∈ (s.get side).triggers) (hc : t.caller ≠ .cancelled) :
    (s.get side).served t.owner = true := by
  have hover := CallerPc.over_of_ended (triggers_rest hr h side hm) hc
  exact List.any_eq_true.mpr ⟨t, hm, by simp [hover]⟩

theorem sched_not_running {k : Nat} {u : Sched} (hu : s.base.base.scheds[k]? = some u) : u.pc ≠ .running := by
  intro hpc
  by_cases hex : ∃ t ∈ s.connect.triggers, t.owner = k
  · obtain ⟨t, hm, rfl⟩ := hex
    have hserved := served_rest hr h .connect hm ((handlingOK_reachable hr .connect).callers rfl t hm).1
    have := base_stuck h (c := .base (.schedDone t.owner)) rfl hserved
    simp [Shutdown.step, Pea2Pea.step, hu, hpc, Shutdown.State.free] at this
  · have hsched := scheduledOK_reachable ((Shutdown.projects cfg).reachable ((projects cfg abortable).reachable hr))
    have htask := onConnectOK_reachable hr (hsched.scheds (List.ne_nil_of_mem (List.mem_of_getElem? hu)))
    obtain ⟨w, hw⟩ := Option.ne_none_iff_exists'.mp htask
    have hno : ∀ t ∈ (s.get .connect).triggers, t.owner ≠ k := fun t ht ho => hex ⟨t, ht, ho⟩
    have := h.stuck (a := .trigger .connect k) rfl
    simp only [hooks, step, State.callerId, hu, hpc, Option.bind_eq_bind, Option.bind_some, if_true] at this
    rw [if_pos ⟨hno, by simp⟩, show (s.get .connect).task = some w from hw] at this
    cases this

theorem disc_not_claimed {j : Nat} {d : Disc} {id : Nat} (hd : s.base.base.discs[j]? = some d) :
    d.pc ≠ .claimed id := by
  intro hpc
  have finalize : s.free (.base (.finalize j)) = true → False := by
    intro hf
    have := base_stuck h (c := .base (.finalize j)) rfl hf
    simp [Shutdown.step, Pea2Pea.step, hd, hpc, Shutdown.State.free] at this
  by_cases hk : j ∈ s.skipped
  · exact finalize (by simp [State.free, hk])
  by_cases hex : ∃ t ∈ s.disconnect.triggers, t.owner = j
  · obtain ⟨t, hm, rfl⟩ := hex
    have hnot : t.caller ≠ .cancelled := fun hc => cancelledOK_reachable hr t hm hc d hd id hpc
    have hserved : s.disconnect.served t.owner = true := served_rest hr h .disconnect hm hnot
    exact finalize (by simp [State.free, hserved])
  · -- it finds OnDisconnect enabled or not
    have hno : ∀ t ∈ (s.get .disconnect).triggers, t.owner ≠ j := fun t ht ho => hex ⟨t, ht, ho⟩
    have := h.stuck (a := .trigger .disconnect j) rfl
    simp only [hooks, step, State.callerId, hd, hpc, Option.bind_eq_bind, Option.bind_some] at this
    rw [if_pos ⟨hno, fun _ => hk⟩] at this
    split at this
    · cases this
    · rw [if_pos trivial] at this; cases this

/-- Nobody waits for a hook. -/
theorem not_waits : ¬ Shutdown.Waits s.base := by
  rintro (⟨k, u, hu, hpc⟩ | ⟨j, d, id, hd, hpc⟩)
  · exact sched_not_running hr h hu hpc
  · exact disc_not_claimed hr h hd hpc

end

/-- Nothing that was called is under way or holds anything, and no
OnDisconnect hook runs. -/
structure Settled (cfg : NodeConfig) (s : State) : Prop where
  base : Shutdown.Settled s.base
  released : Released cfg s.base.base
  triggers : ∀ side, ∀ t ∈ (s.get side).triggers, t.caller.ended = true
  hooks : ∀ y ∈ s.hooks, y.side = .disconnect → y.status ≠ .running

theorem settled_rest (hr : (hooks cfg abortable).Reachable s) (h : (hooks cfg abortable).AtRest pace s) :
    Settled cfg s := by
  have hbase := (projects cfg abortable).reachable hr
  have hS := (Shutdown.settled_or_waits (ungated_stuck h) hbase).resolve_right (not_waits hr h)
  refine
    { base := hS
      released := released_rest ((Shutdown.projects cfg).reachable hbase) hS.setups hS.scheds hS.discs
      triggers := fun side t hm => triggers_rest hr h side hm
      hooks := fun y hm hside hrun => ?_ }
  obtain ⟨w, hy⟩ := List.getElem?_of_mem hm
  have := h.stuck (a := .hookDone w) (by simp [pace, hy, hside])
  simp [Hooks.hooks, step, hy, hrun] at this

/-- `shut_down` waits for a disconnect that waits for its hook. -/
def hookedShut : List Act :=
  hookSpawned ++ [.respond .disconnect 0, .register 0] ++
    ([.shutDown, .begin 0, .takeTasks 0, .snapshot 0 [peer], .base (.claim 1), .fannedOut 0, .enableWaiter 0,
      .check 0] : List Shutdown.Act).map .base

end Pea2Pea.Hooks
