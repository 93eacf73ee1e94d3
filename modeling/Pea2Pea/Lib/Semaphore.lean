/-
A fair semaphore: the permits left, and the queue of those who wait for one.
A permit that is given back goes to the head of the queue, and is left for
whoever asks next only when nobody waits.
-/
import Mathlib.Data.List.Nodup

structure Semaphore (κ : Type) where
  permits : Nat
  waiters : List κ

namespace Semaphore

variable {κ : Type} {s s' : Semaphore κ} {k : κ}

/-- A permit at once, or none. -/
def tryAcquire (s : Semaphore κ) : Option (Semaphore κ) :=
  if 0 < s.permits then some { s with permits := s.permits - 1 } else none

/-- A permit at once (`true`), or a place in the queue. -/
def acquire (s : Semaphore κ) (k : κ) : Bool × Semaphore κ :=
  if 0 < s.permits then (true, { s with permits := s.permits - 1 }) else (false, { s with waiters := s.waiters ++ [k] })

/-- A permit is given back; who has it now. -/
def release (s : Semaphore κ) : Option κ × Semaphore κ :=
  match s.waiters with
  | [] => (none, { s with permits := s.permits + 1 })
  | k :: ks => (some k, { s with waiters := ks })

/-- `k` leaves the queue. -/
def cancel [DecidableEq κ] (s : Semaphore κ) (k : κ) : Semaphore κ := { s with waiters := s.waiters.erase k }

/-- Nobody waits while a permit is left, or waits twice. -/
structure Fair (s : Semaphore κ) : Prop where
  tight : s.waiters ≠ [] → s.permits = 0
  once : s.waiters.Nodup

/-! ## What the operations come to -/

theorem tryAcquire_some (h : s.tryAcquire = some s') : 0 < s.permits ∧ s' = { s with permits := s.permits - 1 } := by
  unfold tryAcquire at h
  split at h
  next hp => cases h; exact ⟨hp, rfl⟩
  · cases h

theorem acquire_cases (s : Semaphore κ) (k : κ) :
    (0 < s.permits ∧ s.acquire k = (true, { s with permits := s.permits - 1 })) ∨
      s.permits = 0 ∧ s.acquire k = (false, { s with waiters := s.waiters ++ [k] }) := by
  unfold acquire
  split
  next hp => exact .inl ⟨hp, rfl⟩
  next hp => exact .inr ⟨Nat.eq_zero_of_not_pos hp, rfl⟩

theorem release_cases (s : Semaphore κ) :
    (s.waiters = [] ∧ s.release = (none, { s with permits := s.permits + 1 })) ∨
      ∃ k ks, s.waiters = k :: ks ∧ s.release = (some k, { s with waiters := ks }) := by
  unfold release
  split
  next hw => exact .inl ⟨hw, rfl⟩
  next k ks hw => exact .inr ⟨k, ks, hw, rfl⟩

/-! ## Fairness is kept -/

theorem Fair.init (n : Nat) : Fair (⟨n, []⟩ : Semaphore κ) := ⟨fun h => absurd rfl h, List.nodup_nil⟩

theorem Fair.of_nil (hw : s.waiters = []) : Fair s := ⟨fun h => absurd hw h, hw ▸ List.nodup_nil⟩

/-- A permit is there at once only when nobody waits. -/
theorem Fair.nil_of_permit (h : Fair s) (hp : 0 < s.permits) : s.waiters = [] := by
  by_contra hw
  rw [h.tight hw] at hp
  exact Nat.lt_irrefl 0 hp

/-- Whoever asks for a permit when none is left is last in the queue. -/
theorem Fair.wait (h : Fair s) (hp : s.permits = 0) (hk : k ∉ s.waiters) :
    Fair { s with waiters := s.waiters ++ [k] } where
  tight _ := hp
  once := h.once.append (List.nodup_singleton k) fun _ hj hk' => hk (List.mem_singleton.1 hk' ▸ hj)

theorem Fair.release (h : Fair s) : Fair s.release.2 := by
  rcases s.release_cases with ⟨hw, he⟩ | ⟨k, ks, hw, he⟩
  · rw [he]; exact .of_nil hw
  · rw [he]
    have hp : s.permits = 0 := h.tight (hw ▸ List.cons_ne_nil k ks)
    exact ⟨fun _ => hp, (List.nodup_cons.1 (hw ▸ h.once)).2⟩

/-- The others still wait when the head of the queue is served. -/
theorem Fair.mem_served (h : Fair s) {j : κ} {ks : List κ} (hw : s.waiters = k :: ks) :
    j ∈ ks ↔ j ∈ s.waiters ∧ j ≠ k := by
  have hk := (List.nodup_cons.1 (hw ▸ h.once)).1
  rw [hw, List.mem_cons]
  constructor
  · intro hj
    exact ⟨.inr hj, fun hjk => hk (hjk ▸ hj)⟩
  · rintro ⟨rfl | hj, hne⟩
    · exact absurd rfl hne
    · exact hj

section

variable [DecidableEq κ]

theorem Fair.cancel (h : Fair s) (k : κ) : Fair (s.cancel k) where
  tight hw := h.tight fun he => hw (by rw [Semaphore.cancel, he]; rfl)
  once := h.once.erase k

theorem Fair.mem_cancel (h : Fair s) {j : κ} : j ∈ (s.cancel k).waiters ↔ j ∈ s.waiters ∧ j ≠ k := by
  rw [Semaphore.cancel, h.once.mem_erase_iff, and_comm]

/-! ## The queue moves up -/

/-- How many are ahead of `k`. -/
def ahead (s : Semaphore κ) (k : κ) : Nat := s.waiters.idxOf k

theorem ahead_append (hk : k ∈ s.waiters) (j : κ) : ahead { s with waiters := s.waiters ++ [j] } k = s.ahead k :=
  List.idxOf_append_of_mem hk

/-- A permit that is given back takes one off. -/
theorem Fair.ahead_release (h : Fair s) (hk : k ∈ s.release.2.waiters) : s.release.2.ahead k + 1 = s.ahead k := by
  rcases s.release_cases with ⟨hw, he⟩ | ⟨j, ks, hw, he⟩
  · rw [he, hw] at hk; cases hk
  · rw [he] at hk ⊢
    have hkj : k ≠ j := ((h.mem_served hw).1 hk).2
    rw [ahead, ahead, hw, List.idxOf_cons_ne _ hkj.symm]

theorem idxOf_erase_le {j : κ} (hne : j ≠ k) (l : List κ) : (l.erase j).idxOf k ≤ l.idxOf k := by
  induction l with
  | nil => exact Nat.le_refl 0
  | cons a l ih =>
    by_cases haj : a = j
    · subst haj
      rw [List.erase_cons_head, List.idxOf_cons_ne l hne]
      exact Nat.le_succ _
    · rw [List.erase_cons_tail (by simpa using haj)]
      by_cases hak : a = k
      · subst hak
        rw [List.idxOf_cons_self]
        exact Nat.zero_le _
      · rw [List.idxOf_cons_ne _ hak, List.idxOf_cons_ne _ hak]
        exact Nat.succ_le_succ ih

theorem ahead_cancel {j : κ} (hne : j ≠ k) : (s.cancel j).ahead k ≤ s.ahead k := idxOf_erase_le hne s.waiters

end

end Semaphore
