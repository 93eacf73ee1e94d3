/-
A registry of peers in its own terms: every key is a slot that goes through
one cycle, from free over reserved, opening and live to closing and back.
An instance (an id) is given to a slot once, from a counter that only grows.

A reservation outlives the opening it was made for: it is given back by a
`settle` of its own, which may come at any time after the slot went live.
Until then the slot is `held`, and one that closes meanwhile is `fading`.

Whether a free slot may be reserved is left to a policy (`room`), which sees
all slots. What is proved here holds for every policy: no instance is in two
slots (`Distinct`), and an instance moves forward in its slot, and once it is
gone from there it is nowhere again (`Since`).
-/
import Pea2Pea.Lib.Transition
import Mathlib.Logic.Function.Basic
import Mathlib.Order.Nat

namespace Registry

/-- Where a key is in its cycle. -/
inductive Slot
  | free
  | reserved
  | opening (id : Nat)
  /-- Failed, the reservation not given back. -/
  | doomed
  | live (id : Nat) (held : Bool)
  | closing (id : Nat) (held : Bool)
  /-- Closed, the reservation not given back. -/
  | fading
  deriving DecidableEq

inductive Move
  | reserve
  /-- An instance is given to the slot. -/
  | assign
  | fail
  | abandon
  | establish
  /-- The reservation of an established slot is given back. -/
  | settle
  | claim
  | close
  deriving DecidableEq

namespace Slot

/-- The cycle; `fresh` is the instance an assignment gives out. -/
def move (fresh : Nat) : Slot → Move → Option Slot
  | .free, .reserve => some .reserved
  | .reserved, .assign => some (.opening fresh)
  | .reserved, .fail | .opening _, .fail => some .doomed
  | .doomed, .abandon => some .free
  | .opening id, .establish => some (.live id true)
  | .live id true, .settle => some (.live id false)
  | .closing id true, .settle => some (.closing id false)
  | .fading, .settle => some .free
  | .live id held, .claim => some (.closing id held)
  | .closing _ true, .close => some .fading
  | .closing _ false, .close => some .free
  | _, _ => none

/-- The instance in the slot. -/
def id : Slot → Option Nat
  | .opening id | .live id _ | .closing id _ => some id
  | _ => none

/-- An instance was established, and has not been closed. -/
def listed : Slot → Bool
  | .live _ _ | .closing _ _ => true
  | _ => false

/-- A reservation has not been given back. -/
def pending : Slot → Bool
  | .free => false
  | .live _ held | .closing _ held => held
  | _ => true

/-- The slot is taken, a reservation that only waits to be given back apart. -/
def charged : Slot → Bool
  | .free | .fading => false
  | _ => true

theorem pending_iff {x : Slot} (h : x.listed = false) : x.pending = true ↔ x ≠ .free := by
  cases x <;> simp_all [listed, pending]

/-- How far the slot's instance has come. -/
def stage : Slot → Nat
  | .live _ _ => 1
  | .closing _ _ => 2
  | _ => 0

theorem move_claim (fresh id : Nat) (held : Bool) : (live id held).move fresh .claim = some (closing id held) := by
  cases held <;> rfl

/-- An instance keeps its slot, at the same or a later stage, or leaves it;
one that comes is fresh. -/
theorem move_id {fresh : Nat} {x y : Slot} {m : Move} (h : x.move fresh m = some y) :
    y.id = none ∨ (y.id = x.id ∧ x.stage ≤ y.stage) ∨ (x.id = none ∧ y.id = some fresh ∧ m = .assign) := by
  unfold move at h
  split at h <;> cases h <;> simp [Slot.id, stage]

end Slot

/-! ## The registry -/

structure State (κ : Type) where
  slots : κ → Slot
  /-- The next instance. -/
  next : Nat

inductive Act (κ : Type)
  | move (key : κ) (m : Move)
  /-- An instance is given out elsewhere. -/
  | skip

section

variable {κ : Type} [DecidableEq κ]

/-- One slot moves; a reservation needs the policy's consent. -/
def step (room : (κ → Slot) → κ → Bool) (s : State κ) : Act κ → Option (State κ)
  | .move key m =>
    if m = .reserve ∧ room s.slots key = false then none
    else (Slot.move s.next (s.slots key) m).map fun x =>
      { slots := Function.update s.slots key x, next := if m = .assign then s.next + 1 else s.next }
  | .skip => some { s with next := s.next + 1 }

def registry (room : (κ → Slot) → κ → Bool) : Machine (State κ) (Act κ) := ⟨⟨fun _ => .free, 0⟩, step room⟩

variable {room : (κ → Slot) → κ → Bool} {s s' : State κ} {a : Act κ}

/-- What a step does: nothing to the slots, or one move of one slot. -/
theorem step_cases (h : step room s a = some s') :
    (s'.slots = s.slots ∧ s.next ≤ s'.next) ∨
      ∃ key m x, Slot.move s.next (s.slots key) m = some x ∧ s'.slots = Function.update s.slots key x ∧
        s'.next = if m = .assign then s.next + 1 else s.next := by
  cases a with
  | skip =>
    simp only [step, Option.some.injEq] at h
    subst h
    exact .inl ⟨rfl, Nat.le_succ _⟩
  | move key m =>
    simp only [step] at h
    split at h
    · cases h
    · obtain ⟨x, hx, rfl⟩ := Option.map_eq_some_iff.1 h
      exact .inr ⟨key, m, x, hx, rfl, rfl⟩

theorem step_move {key : κ} {m : Move} {x : Slot} (hx : Slot.move s.next (s.slots key) m = some x)
    (hm : m = .reserve → room s.slots key = true) (hs : s'.slots = Function.update s.slots key x)
    (hn : s'.next = if m = .assign then s.next + 1 else s.next) : step room s (.move key m) = some s' := by
  have hroom : ¬ (m = .reserve ∧ room s.slots key = false) := by
    rintro ⟨h, hf⟩
    rw [hm h] at hf; cases hf
  rw [step, if_neg hroom, hx, Option.map_some, ← hs, ← hn]

/-- A step leaves the instance in a slot where it is, takes it away, or puts
a fresh one where none was. -/
theorem step_id (h : step room s a = some s') (b : κ) :
    (s'.slots b).id = none ∨ ((s'.slots b).id = (s.slots b).id ∧ (s.slots b).stage ≤ (s'.slots b).stage) ∨
      ((s.slots b).id = none ∧ (s'.slots b).id = some s.next ∧ s'.next = s.next + 1 ∧
        ∀ c, c ≠ b → s'.slots c = s.slots c) := by
  rcases step_cases h with ⟨hs, -⟩ | ⟨key, m, x, hx, hs, hn⟩
  · rw [hs]
    exact .inr (.inl ⟨rfl, le_rfl⟩)
  · by_cases hb : b = key
    · subst hb
      have hself : s'.slots b = x := by rw [hs, Function.update_self]
      rw [hself]
      rcases Slot.move_id hx with h₁ | h₁ | ⟨h₁, h₂, rfl⟩
      · exact .inl h₁
      · exact .inr (.inl h₁)
      · refine .inr (.inr ⟨h₁, h₂, by rw [hn, if_pos rfl], fun c hc => ?_⟩)
        rw [hs, Function.update_of_ne hc]
    · have hother : s'.slots b = s.slots b := by rw [hs, Function.update_of_ne hb]
      rw [hother]
      exact .inr (.inl ⟨rfl, le_rfl⟩)

theorem step_next (h : step room s a = some s') : s.next ≤ s'.next := by
  rcases step_cases h with ⟨-, hn⟩ | ⟨key, m, x, -, -, hn⟩
  · exact hn
  · rw [hn]
    split
    · exact Nat.le_succ _
    · exact le_rfl

/-! ## Instances -/

/-- Instances are from the counter, and none is in two slots. -/
structure Distinct (s : State κ) : Prop where
  lt : ∀ b k, (s.slots b).id = some k → k < s.next
  inj : ∀ b c k, (s.slots b).id = some k → (s.slots c).id = some k → b = c

theorem Distinct.step (hd : Distinct s) (h : step room s a = some s') : Distinct s' where
  lt b k hk := by
    have hn := step_next h
    rcases step_id h b with h₁ | ⟨h₁, -⟩ | ⟨-, h₁, h₂, -⟩
    · rw [h₁] at hk; cases hk
    · have := hd.lt b k (h₁ ▸ hk)
      omega
    · rw [h₁] at hk; cases hk
      omega
  inj b c k hb hc := by
    -- a fresh instance is not in any slot of `s`
    have fresh : ∀ {d}, (s'.slots d).id = some k → (s.slots d).id = some k ∨
        k = s.next ∧ ∀ e, e ≠ d → (s'.slots e).id = some k → False := by
      intro d hdk
      rcases step_id h d with h₁ | ⟨h₁, -⟩ | ⟨-, h₁, -, hothers⟩
      · rw [h₁] at hdk; cases hdk
      · exact .inl (h₁ ▸ hdk)
      · rw [h₁] at hdk; cases hdk
        refine .inr ⟨rfl, fun e he hek => ?_⟩
        rw [hothers e he] at hek
        exact absurd (hd.lt e _ hek) (lt_irrefl _)
    by_contra hne
    rcases fresh hb with h₁ | ⟨-, h₁⟩
    · rcases fresh hc with h₂ | ⟨-, h₂⟩
      · exact hne (hd.inj b c k h₁ h₂)
      · exact h₂ b hne hb
    · exact h₁ c (Ne.symm hne) hc

theorem distinct_reachable (h : (registry room).Reachable s) : Distinct s := by
  have init : Distinct (registry room).init := by
    constructor
    · intro b k hk
      cases hk
    · intro b c k hb
      cases hb
  exact h.invariant init fun _ hd _ hs => hd.step hs

/-- What became of the instances of `s` by the time of `s'`: each is in its
slot, no less far than before, or nowhere, with nothing but later instances
in its slot; and one that was nowhere is nowhere. -/
structure Since (s s' : State κ) : Prop where
  next : s.next ≤ s'.next
  kept : ∀ b k, (s.slots b).id = some k →
    ((s'.slots b).id = some k ∧ (s.slots b).stage ≤ (s'.slots b).stage) ∨
      ((∀ c, (s'.slots c).id ≠ some k) ∧ ∀ k', (s'.slots b).id = some k' → k < k')
  gone : ∀ k, k < s.next → (∀ b, (s.slots b).id ≠ some k) → ∀ b, (s'.slots b).id ≠ some k

omit [DecidableEq κ] in
theorem Since.refl (s : State κ) : Since s s where
  next := le_rfl
  kept _ _ hk := .inl ⟨hk, le_rfl⟩
  gone _ _ hg := hg

variable {t : State κ}

theorem Since.step (hd : Distinct s) (hd' : Distinct t) (hs : Since s t) (h : Registry.step room t a = some s') :
    Since s s' := by
  -- an old instance that is nowhere stays so
  have away : ∀ {k}, k < s.next → (∀ b, (t.slots b).id ≠ some k) → ∀ b, (s'.slots b).id ≠ some k := by
    intro k hk hg b hb
    rcases step_id h b with h₁ | ⟨h₁, -⟩ | ⟨-, h₁, -, -⟩
    · rw [h₁] at hb; cases hb
    · exact hg b (h₁ ▸ hb)
    · rw [h₁] at hb; cases hb
      have := hs.next
      omega
  refine ⟨hs.next.trans (step_next h), fun b k hk => ?_, fun k hk hg => away hk (hs.gone k hk hg)⟩
  have hlt := hd.lt b k hk
  rcases hs.kept b k hk with ⟨h₁, h₂⟩ | ⟨h₁, h₂⟩
  · rcases step_id h b with h₃ | ⟨h₃, h₄⟩ | ⟨h₃, -⟩
    · refine .inr ⟨fun c hc => ?_, fun k' hk' => by rw [h₃] at hk'; cases hk'⟩
      -- it was in slot `b` alone, and that slot is empty now
      rcases step_id h c with h₅ | ⟨h₅, -⟩ | ⟨-, h₅, -, -⟩
      · rw [h₅] at hc; cases hc
      · have hbc := hd'.inj b c k h₁ (h₅ ▸ hc)
        subst hbc
        rw [h₃] at hc; cases hc
      · rw [h₅] at hc; cases hc
        have := hs.next
        omega
    · exact .inl ⟨h₃.trans h₁, h₂.trans h₄⟩
    · rw [h₁] at h₃; cases h₃
  · refine .inr ⟨away hlt h₁, fun k' hk' => ?_⟩
    rcases step_id h b with h₃ | ⟨h₃, -⟩ | ⟨-, h₃, -, -⟩
    · rw [h₃] at hk'; cases hk'
    · exact h₂ k' (h₃ ▸ hk')
    · rw [h₃] at hk'; cases hk'
      have := hs.next
      omega

theorem since_run (hr : (registry room).Reachable s) {as : List (Act κ)} (h : (registry room).run s as = some s') :
    Since s s' := by
  have hd := distinct_reachable hr
  refine (Machine.run_invariant (P := fun t => Distinct t ∧ Since s t) ?_ ⟨hd, .refl s⟩ h).2
  rintro t t' a ⟨hd', hs⟩ hstep
  exact ⟨hd'.step hstep, hs.step hd hd' hstep⟩

end

end Registry
