/-
What becomes of a `broadcast` (`protocols/writing.rs`) while connections come
and go and other calls run: the copies that were accepted are of its message,
in the order of its snapshot of the addresses and at most one for each; and a
broadcast that fails has sent nothing.
-/
import Pea2Pea.Routing

namespace Pea2Pea.Outbound

open Pool
open Writer (Wrapped)

variable {μ : Type}

/-! ## What a step does to broadcasts -/

/-- What a step does to the broadcasts and to the log of the messages. -/
inductive CastR (depth : Nat) (s : State μ) : State μ → Prop
  | same {s'} (hb : s'.broadcasts = s.broadcasts) (ha : s'.accepted = s.accepted) : CastR depth s s'
  | unicast {s' addr m} (hb : s'.broadcasts = s.broadcasts) (ha : s'.accepted = s.accepted ++ [⟨addr, m, none⟩]) :
      CastR depth s s'
  | refuse {s' own msg} (hb : s'.broadcasts = s.broadcasts ++ [⟨own, msg, [], [], [], some (.error .unsupported)⟩])
      (ha : s'.accepted = s.accepted) : CastR depth s s'
  | start {s' own msg addrs} (he : s.net.enabled = true) (hn : addrs.Nodup)
      (hb : s'.broadcasts = s.broadcasts ++ [⟨own, msg, addrs, addrs, [], none⟩]) (ha : s'.accepted = s.accepted) :
      CastR depth s s'
  | finish {s' b x} (hx : s.broadcasts[b]? = some x) (hr : x.result = none) (hl : x.left = [])
      (hb : s'.broadcasts = s.broadcasts.set b { x with result := some (.ok ()) }) (ha : s'.accepted = s.accepted) :
      CastR depth s s'
  | fail {s' b x} (hx : s.broadcasts[b]? = some x) (hr : x.result = none) (hl : x.left ≠ [])
      (hc : s.net.enabled = true → x.own = false)
      (hb : s'.broadcasts = s.broadcasts.set b { x with result := some (.error .unsupported) })
      (ha : s'.accepted = s.accepted) : CastR depth s s'
  | skip {s' b x addr left e} (hx : s.broadcasts[b]? = some x) (hr : x.result = none) (hl : x.left = addr :: left)
      (he : e ≠ .unsupported) (hq : queueMessage depth s (some b) x.own addr x.msg false = (.error e, s))
      (hb : s'.broadcasts = s.broadcasts.set b { x with left := left, refused := x.refused ++ [(addr, e)] })
      (ha : s'.accepted = s.accepted) : CastR depth s s'
  | copy {s' b x addr left} (hx : s.broadcasts[b]? = some x) (hr : x.result = none) (hl : x.left = addr :: left)
      (ho : x.own = true) (hb : s'.broadcasts = s.broadcasts.set b { x with left := left })
      (ha : s'.accepted = s.accepted ++ [⟨addr, ⟨x.msg, none⟩, some b⟩]) : CastR depth s s'

variable {cfg : NodeConfig} {depth : Nat} {s s' : State μ} {a : Act μ} {b : Nat} {x : Broadcast μ}

theorem react_frame (s : State μ) (n : Writing.State) (a : Writing.Act) :
    (s.react n a).net = n ∧ (s.react n a).broadcasts = s.broadcasts ∧ (s.react n a).accepted = s.accepted := by
  unfold State.react
  split <;> first | exact ⟨rfl, rfl, rfl⟩ | (split <;> exact ⟨rfl, rfl, rfl⟩)

/-- `queue_message` without a confirmation: an error of the kind that ends a
broadcast, another error, or a copy. -/
theorem queueMessage_copy (depth : Nat) (s : State μ) (via : Option Nat) (own : Bool) (addr : SocketAddr) (msg : μ) :
    (queueMessage depth s via own addr msg false = (.error .unsupported, s) ∧
        (s.net.enabled = true → own = false)) ∨
      (∃ e, e ≠ .unsupported ∧ queueMessage depth s via own addr msg false = (.error e, s)) ∨
      (own = true ∧ ∃ w c, queueMessage depth s via own addr msg false =
        (.ok none, s.accept w c ⟨addr, ⟨msg, none⟩, via⟩)) := by
  unfold queueMessage
  split
  next he => exact .inl ⟨rfl, fun h => by rw [he] at h; cases h⟩
  next he =>
  split
  · exact .inr (.inl ⟨_, by decide, rfl⟩)
  split
  next ho => exact .inl ⟨rfl, fun _ => ho⟩
  next ho =>
  split
  · exact .inr (.inl ⟨_, by decide, rfl⟩)
  split
  · exact .inr (.inl ⟨_, by decide, rfl⟩)
  split
  · exact .inr (.inl ⟨_, by decide, rfl⟩)
  · exact .inr (.inr ⟨by simpa using ho, _, _, rfl⟩)

theorem step_cast (h : step cfg depth s a = some s') : CastR depth s s' := by
  cases a with
  | net a =>
    simp only [step] at h
    split at h
    · obtain ⟨n, -, rfl⟩ := Option.map_eq_some_iff.1 h
      exact .same (react_frame s n a).2.1 (react_frame s n a).2.2
    · cases h
  | recvMany w n =>
    simp only [step, Option.bind_eq_bind, Option.bind_eq_some_iff] at h
    obtain ⟨x, -, c, -, h⟩ := h
    split at h
    · cases h; exact .same rfl rfl
    · cases h
  | dropReceiver w =>
    simp only [step, Option.bind_eq_bind, Option.bind_eq_some_iff] at h
    obtain ⟨x, -, c, -, h⟩ := h
    split at h
    · cases h; exact .same rfl rfl
    · cases h
  | unicast own addr msg confirmDelivery =>
    simp only [step, Option.some.injEq] at h
    subst h
    rcases queueMessage_cases depth s none own addr msg confirmDelivery with
      ⟨e, he⟩ | ⟨w, c, m, -, -, -, -, -, -, -, hq⟩
    · rw [he]; exact .same rfl rfl
    · rw [hq]; exact .unicast rfl rfl
  | broadcast own msg addrs =>
    simp only [step] at h
    split at h
    · cases h; exact .refuse rfl rfl
    next he =>
      split at h
      next hn => cases h; exact .start (by simpa using he) hn.1 rfl rfl
      · cases h
  | broadcastNext b =>
    simp only [step, Option.bind_eq_bind, Option.bind_eq_some_iff] at h
    obtain ⟨x, hx, h⟩ := h
    split at h
    next hr hl => cases h; exact .finish hx hr hl rfl rfl
    next addr left hr hl =>
      rcases queueMessage_copy depth s (some b) x.own addr x.msg with ⟨hq, hc⟩ | ⟨e, he, hq⟩ | ⟨ho, w, c, hq⟩
      · rw [hq] at h
        cases h
        exact .fail hx hr (by rw [hl]; exact List.cons_ne_nil _ _) hc rfl rfl
      · rw [hq] at h
        cases e with
        | unsupported => exact absurd rfl he
        | notConnected | quotaExceeded | brokenPipe => cases h; exact .skip hx hr hl he hq rfl rfl
      · rw [hq] at h
        cases h
        exact .copy hx hr hl ho rfl rfl
    · cases h

/-! ## One broadcast -/

/-- The messages accepted as copies of the broadcast `b`. -/
def copies (accepted : List (Accepted μ)) (b : Nat) : List (Accepted μ) := accepted.filter (·.via = some b)

theorem copies_append_other {A : List (Accepted μ)} {m : Accepted μ} (h : m.via ≠ some b) :
    copies (A ++ [m]) b = copies A b := by
  simp [copies, List.filter_append, h]

theorem copies_append_self {A : List (Accepted μ)} {m : Accepted μ} (h : m.via = some b) :
    copies (A ++ [m]) b = copies A b ++ [m] := by
  simp [copies, List.filter_append, h]

/-- The broadcast `b` is `x`, the log has the messages `A`, and `on` says
whether Writing is enabled. -/
structure CastOK (A : List (Accepted μ)) (on : Bool) (b : Nat) (x : Broadcast μ) : Prop where
  nodup : x.addrs.Nodup
  tried : ∃ tried, x.addrs = tried ++ x.left ∧ ((copies A b).map (·.addr)).Sublist tried ∧
    ((copies A b).map (·.addr) ++ x.refused.map Prod.fst).Perm tried
  skipped : ∀ r ∈ x.refused, r.2 = .notConnected ∨ r.2 = .quotaExceeded
  message : ∀ m ∈ copies A b, m.msg = ⟨x.msg, none⟩
  finished : x.result = some (.ok ()) → x.left = []
  foreign : x.own = false → copies A b = []
  failed : ∀ e, x.result = some (.error e) → e = .unsupported ∧ (x.own = false ∨ x.addrs = [])
  enabled : x.addrs = [] ∨ on = true

namespace CastOK

variable {A : List (Accepted μ)} {on on' : Bool}

theorem mono (h : CastOK A on b x) (hon : on = true → on' = true) : CastOK A on' b x :=
  { h with enabled := h.enabled.imp_right hon }

/-- A message that is not a copy of `b` is accepted. -/
theorem append_other {m : Accepted μ} (h : CastOK A on b x) (hm : m.via ≠ some b) : CastOK (A ++ [m]) on b x where
  nodup := h.nodup
  tried := by rw [copies_append_other hm]; exact h.tried
  skipped := h.skipped
  message := by rw [copies_append_other hm]; exact h.message
  finished := h.finished
  foreign := by rw [copies_append_other hm]; exact h.foreign
  failed := h.failed
  enabled := h.enabled

theorem start {own : Bool} {msg : μ} {addrs : List SocketAddr} (hA : copies A b = []) (hn : addrs.Nodup) :
    CastOK A true b ⟨own, msg, addrs, addrs, [], none⟩ where
  nodup := hn
  tried := ⟨[], rfl, by rw [hA]; exact ⟨List.Sublist.slnil, .refl _⟩⟩
  skipped r hr := by cases hr
  message m hm := by rw [hA] at hm; cases hm
  finished hr := by cases hr
  foreign _ := hA
  failed e hr := by cases hr
  enabled := .inr rfl

theorem refuse {own : Bool} {msg : μ} (hA : copies A b = []) :
    CastOK A on b ⟨own, msg, [], [], [], some (.error .unsupported)⟩ where
  nodup := List.nodup_nil
  tried := ⟨[], rfl, by rw [hA]; exact ⟨List.Sublist.slnil, .refl _⟩⟩
  skipped r hr := by cases hr
  message m hm := by rw [hA] at hm; cases hm
  finished hr := by cases hr
  foreign _ := hA
  failed e hr := by cases hr; exact ⟨rfl, .inr rfl⟩
  enabled := .inl rfl

theorem finish (h : CastOK A on b x) (hl : x.left = []) : CastOK A on b { x with result := some (.ok ()) } :=
  { h with finished := fun _ => hl, failed := fun e hr => by cases hr }

theorem fail (h : CastOK A on b x) (hl : x.left ≠ []) (hc : on = true → x.own = false) :
    CastOK A on b { x with result := some (.error .unsupported) } where
  nodup := h.nodup
  tried := h.tried
  skipped := h.skipped
  message := h.message
  finished hr := by cases hr
  foreign := h.foreign
  failed e hr := by
    cases hr
    refine ⟨rfl, .inl (hc ?_)⟩
    -- there was a snapshot, so that Writing is enabled
    obtain ⟨tried, ht, -, -⟩ := h.tried
    exact h.enabled.resolve_left fun he => hl (List.append_eq_nil_iff.1 (ht ▸ he)).2
  enabled := h.enabled

theorem skip {addr : SocketAddr} {left : List SocketAddr} {e : QueueError} (h : CastOK A on b x)
    (hr : x.result = none) (hl : x.left = addr :: left) (he : e = .notConnected ∨ e = .quotaExceeded) :
    CastOK A on b { x with left := left, refused := x.refused ++ [(addr, e)] } where
  nodup := h.nodup
  tried := by
    obtain ⟨tried, ht, hs, hp⟩ := h.tried
    refine ⟨tried ++ [addr], by simp [ht, hl], hs.trans (List.sublist_append_left _ _), ?_⟩
    rw [List.map_append, ← List.append_assoc]
    exact hp.append_right _
  skipped := forall_mem_append h.skipped he
  message := h.message
  finished he := by rw [show x.result = _ from he] at hr; cases hr
  foreign := h.foreign
  failed := h.failed
  enabled := h.enabled

theorem copy {addr : SocketAddr} {left : List SocketAddr} (h : CastOK A on b x) (hr : x.result = none)
    (hl : x.left = addr :: left) (ho : x.own = true) :
    CastOK (A ++ [⟨addr, ⟨x.msg, none⟩, some b⟩]) on b { x with left := left } where
  nodup := h.nodup
  tried := by
    obtain ⟨tried, ht, hs, hp⟩ := h.tried
    refine ⟨tried ++ [addr], by simp [ht, hl], ?_⟩
    rw [copies_append_self rfl, List.map_append]
    refine ⟨hs.append (List.Sublist.refl _), ?_⟩
    rw [List.append_assoc]
    exact (List.perm_append_comm.append_left _).trans (List.append_assoc _ _ _ ▸ hp.append_right _)
  skipped := h.skipped
  message := by
    rw [copies_append_self rfl]
    exact forall_mem_append h.message rfl
  finished he := by rw [show x.result = _ from he] at hr; cases hr
  foreign hf := by rw [show x.own = false from hf] at ho; cases ho
  failed := h.failed
  enabled := h.enabled

/-- At most one copy for each address of the snapshot. -/
theorem once (h : CastOK A on b x) : ((copies A b).map (·.addr)).Sublist x.addrs := by
  obtain ⟨tried, ht, hs, -⟩ := h.tried
  exact hs.trans (ht ▸ List.sublist_append_left _ _)

theorem failed_none {e : QueueError} (h : CastOK A on b x) (hr : x.result = some (.error e)) : copies A b = [] := by
  rcases (h.failed e hr).2 with ho | ha
  · exact h.foreign ho
  · have hs := h.once
    rw [ha] at hs
    exact List.map_eq_nil_iff.1 (List.sublist_nil.1 hs)

end CastOK

/-! ## All of them -/

structure CastsOK (s : State μ) : Prop where
  each : ∀ b x, s.broadcasts[b]? = some x → CastOK s.accepted s.net.enabled b x
  known : ∀ m ∈ s.accepted, ∀ b, m.via = some b → b < s.broadcasts.length

theorem enabled_mono (h : step cfg depth s a = some s') (he : s.net.enabled = true) : s'.net.enabled = true := by
  cases step_sound h with
  | net ha hn =>
    rw [(react_frame s _ _).1]
    cases hn with
    | enable => rfl
    | _ => exact he
  | _ => exact he

namespace CastsOK

theorem init : CastsOK (State.init cfg : State μ) where
  each b x hx := by cases hx
  known m hm := by cases hm

theorem copies_new (h : CastsOK s) : copies s.accepted s.broadcasts.length = [] :=
  List.filter_eq_nil_iff.2 fun m hm hv => Nat.lt_irrefl _ (h.known m hm _ (of_decide_eq_true hv))

/-- A new broadcast. -/
theorem append (h : CastsOK s) (hb : s'.broadcasts = s.broadcasts ++ [x]) (ha : s'.accepted = s.accepted)
    (hon : s.net.enabled = true → s'.net.enabled = true)
    (hx : CastOK s.accepted s.net.enabled s.broadcasts.length x) : CastsOK s' where
  each b y hy := by
    rw [ha]
    rw [hb] at hy
    rcases getElem?_append_cases hy with ⟨rfl, rfl⟩ | hy
    · exact hx.mono hon
    · exact (h.each b y hy).mono hon
  known m hm b hv := by
    rw [hb, List.length_append]
    exact Nat.lt_add_right _ (h.known m (ha ▸ hm) b hv)

/-- The broadcast `b` moves, and messages may be accepted as its copies. -/
theorem set {y : Broadcast μ} {A : List (Accepted μ)} (h : CastsOK s) (hx : s.broadcasts[b]? = some x)
    (hb : s'.broadcasts = s.broadcasts.set b y) (ha : s'.accepted = s.accepted ++ A)
    (hA : ∀ m ∈ A, m.via = some b) (hon : s.net.enabled = true → s'.net.enabled = true)
    (hy : CastOK s'.accepted s.net.enabled b y) : CastsOK s' where
  each c z hz := by
    rw [hb] at hz
    rcases getElem?_set_cases hx hz with ⟨rfl, rfl⟩ | ⟨hne, hz⟩
    · exact hy.mono hon
    · have hc : copies s'.accepted c = copies s.accepted c := by
        have hnone : A.filter (·.via = some c) = [] := List.filter_eq_nil_iff.2 fun m hm hv => by
          rw [hA m hm] at hv
          exact hne (Option.some.inj (of_decide_eq_true hv))
        rw [ha, copies, List.filter_append, hnone, List.append_nil, copies]
      have h := (h.each c z hz).mono hon
      exact ⟨h.nodup, hc ▸ h.tried, h.skipped, hc ▸ h.message, h.finished, hc ▸ h.foreign, h.failed, h.enabled⟩
  known m hm c hv := by
    rw [hb, List.length_set]
    rw [ha] at hm
    rcases List.mem_append.1 hm with hm | hm
    · exact h.known m hm c hv
    · rw [hA m hm] at hv
      cases hv
      exact (List.getElem?_eq_some_iff.1 hx).1

end CastsOK

theorem CastR.castsOK (hR : RoutedOK s) (h : CastsOK s) (hon : s.net.enabled = true → s'.net.enabled = true)
    (hs : CastR depth s s') : CastsOK s' := by
  cases hs with
  | same hb ha => exact ⟨fun b x hx => ha ▸ (h.each b x (hb ▸ hx)).mono hon, fun m hm => hb ▸ h.known m (ha ▸ hm)⟩
  | unicast hb ha =>
    refine ⟨fun b x hx => ?_, fun m hm b hv => ?_⟩
    · rw [ha]
      exact ((h.each b x (hb ▸ hx)).append_other (by simp)).mono hon
    · rw [hb]
      rw [ha] at hm
      rcases List.mem_append.1 hm with hm | hm
      · exact h.known m hm b hv
      · cases List.mem_singleton.1 hm
        cases hv
  | refuse hb ha => exact h.append hb ha hon (.refuse h.copies_new)
  | start he hn hb ha => exact h.append hb ha hon (he ▸ .start h.copies_new hn)
  | finish hx hr hl hb ha =>
    exact h.set hx hb (by rw [ha, List.append_nil]) (by simp) hon (ha ▸ (h.each _ _ hx).finish hl)
  | fail hx hr hl hc hb ha =>
    exact h.set hx hb (by rw [ha, List.append_nil]) (by simp) hon (ha ▸ (h.each _ _ hx).fail hl hc)
  | @skip b x addr left e hx hr hl he hq hb ha =>
    have hbp := hR.queueMessage_ne_brokenPipe depth (some b) x.own addr x.msg false
    rw [hq] at hbp
    have he : e = .notConnected ∨ e = .quotaExceeded := by
      cases e with
      | unsupported => exact absurd rfl he
      | notConnected => exact .inl rfl
      | quotaExceeded => exact .inr rfl
      | brokenPipe => exact absurd rfl hbp
    exact h.set hx hb (by rw [ha, List.append_nil]) (by simp) hon (ha ▸ (h.each _ _ hx).skip hr hl he)
  | copy hx hr hl ho hb ha => exact h.set hx hb ha (by simp) hon (ha ▸ (h.each _ _ hx).copy hr hl ho)

theorem castsOK_reachable (h : (outbound cfg depth).Reachable s) : CastsOK s :=
  h.invariant CastsOK.init fun hr hC _ hs => (step_cast hs).castsOK (routedOK_reachable hr) hC (enabled_mono hs)

/-- However calls and connections interleave, the copies of a broadcast that
were accepted have its message and are for distinct addresses of its
snapshot, in that order. When it returns, every address of the snapshot has
its copy or was refused as not connected or full; when it fails, it has sent
nothing. -/
theorem broadcast_accounted (cfg : NodeConfig) (depth : Nat) (s : State μ) (h : (outbound cfg depth).Reachable s)
    (b : Nat) (x : Broadcast μ) (hx : s.broadcasts[b]? = some x) :
    x.addrs.Nodup ∧ ((copies s.accepted b).map (·.addr)).Sublist x.addrs ∧
      (∀ m ∈ copies s.accepted b, m.msg = ⟨x.msg, none⟩) ∧
      (x.result = some (.ok ()) →
        ((copies s.accepted b).map (·.addr) ++ x.refused.map Prod.fst).Perm x.addrs ∧
          ∀ r ∈ x.refused, r.2 = .notConnected ∨ r.2 = .quotaExceeded) ∧
      ∀ e, x.result = some (.error e) → e = .unsupported ∧ copies s.accepted b = [] := by
  have hC := (castsOK_reachable h).each b x hx
  refine ⟨hC.nodup, hC.once, hC.message, fun hr => ⟨?_, hC.skipped⟩,
    fun e hr => ⟨(hC.failed e hr).1, hC.failed_none hr⟩⟩
  obtain ⟨tried, ht, -, hp⟩ := hC.tried
  rw [hC.finished hr, List.append_nil] at ht
  exact ht ▸ hp

/-- A broadcast finds the only queue full, and another one room again. -/
def fullThenRoom : List (Act Nat) := List.flatten
  [[.net .enable], writable 0,
    [.unicast true peer 5 true, .broadcast true 7 [peer], .broadcastNext 0, .broadcastNext 0, .recvMany 0 1,
      .broadcast true 8 [peer], .broadcastNext 1, .broadcastNext 1]]

/-- The broadcast `b` has returned with copies for the addresses `addrs`. -/
def returnedWith (s : State μ) (b : Nat) (addrs : List SocketAddr) : Bool :=
  (s.broadcasts[b]?).any fun x => decide (x.result = some (.ok ()) ∧ (copies s.accepted b).map (·.addr) = addrs)

theorem broadcast_accounted_fullThenRoom : ∃ s, (outbound threeSlots 1).Reachable s ∧
    returnedWith s 0 [] = true ∧ returnedWith s 1 [peer] = true ∧ ∃ x : Broadcast Nat, s.broadcasts[0]? = some x ∧
      ([] ++ x.refused.map Prod.fst).Perm x.addrs ∧ ∀ r ∈ x.refused, r.2 = .notConnected ∨ r.2 = .quotaExceeded := by
  obtain ⟨s, hs, hp⟩ := (outbound threeSlots 1).exists_reachable fullThenRoom
    (fun s => returnedWith s 0 [] && returnedWith s 1 [peer]) (by decide +kernel)
  obtain ⟨h0, h1⟩ := Bool.and_eq_true_iff.mp hp
  obtain ⟨x, hx, hr⟩ := (Option.any_eq_true _ _).mp h0
  obtain ⟨hr, hto⟩ := of_decide_eq_true hr
  obtain ⟨-, -, -, hok, -⟩ := broadcast_accounted threeSlots 1 s hs 0 x hx
  exact ⟨s, hs, h0, h1, x, hx, hto ▸ (hok hr).1, (hok hr).2⟩

end Pea2Pea.Outbound
