/-
Hash maps, as Mathlib's finite maps at a constant family, with lookups
stated by cases on the key and the number of keys that meet a predicate.
-/
import Mathlib.Data.Finmap
import Mathlib.Data.Finset.Card

/-- A hash map from `κ` to `α`. -/
abbrev Table (κ α : Type) := Finmap fun _ : κ => α

namespace Table

variable {κ α : Type} {m : Table κ α} {a b : κ} {x y : α} {p : κ → Bool}

/-- The number of keys that meet `p`. -/
def count (p : κ → Bool) (m : Table κ α) : Nat := (m.keys.filter fun a => p a).card

theorem count_empty : count p (∅ : Table κ α) = 0 := by simp [count]

/-- The number of entries. -/
def size (m : Table κ α) : Nat := m.keys.card

variable [DecidableEq κ]

theorem lookup_insert (m : Table κ α) (a b : κ) (x : α) :
    (m.insert a x).lookup b = if b = a then some x else m.lookup b := by
  by_cases h : b = a
  · subst h; simp
  · simp [h, Finmap.lookup_insert_of_ne m h]

theorem lookup_erase (m : Table κ α) (a b : κ) :
    (m.erase a).lookup b = if b = a then none else m.lookup b := by
  by_cases h : b = a
  · subst h; simp
  · simp [h, Finmap.lookup_erase_ne h]

/-- What an entry of the updated map was before. -/
theorem lookup_insert_cases (h : (m.insert a x).lookup b = some y) :
    (b = a ∧ y = x) ∨ (b ≠ a ∧ m.lookup b = some y) := by
  rw [lookup_insert] at h
  by_cases hba : b = a
  · simp only [hba, if_true, Option.some.injEq] at h; exact .inl ⟨hba, h.symm⟩
  · simp only [hba, if_false] at h; exact .inr ⟨hba, h⟩

theorem lookup_erase_some (h : (m.erase a).lookup b = some y) : b ≠ a ∧ m.lookup b = some y := by
  rw [lookup_erase] at h
  by_cases hba : b = a
  · simp [hba] at h
  · simp only [hba, if_false] at h; exact ⟨hba, h⟩

theorem mem_keys_iff : a ∈ m.keys ↔ ∃ x, m.lookup a = some x := by
  rw [Finmap.mem_keys, Finmap.mem_iff]

theorem notMem_keys (h : m.lookup a = none) : a ∉ m.keys := by
  rw [Finmap.mem_keys]; exact Finmap.lookup_eq_none.mp h

theorem mem_keys (h : m.lookup a = some x) : a ∈ m.keys := mem_keys_iff.mpr ⟨x, h⟩

theorem keys_insert (m : Table κ α) (a : κ) (x : α) : (m.insert a x).keys = insert a m.keys := by
  ext b
  simp only [Finmap.mem_keys, Finmap.mem_insert, Finset.mem_insert]

theorem keys_insert_of_lookup (h : m.lookup a = some x) (y : α) : (m.insert a y).keys = m.keys := by
  rw [keys_insert, Finset.insert_eq_of_mem (mem_keys h)]

theorem count_insert_new (h : m.lookup a = none) :
    count p (m.insert a x) = count p m + if p a then 1 else 0 := by
  have hn : a ∉ m.keys.filter fun a => p a := fun hm => notMem_keys h (Finset.mem_of_mem_filter a hm)
  rw [count, count, keys_insert, Finset.filter_insert]
  split
  · rw [Finset.card_insert_of_notMem hn]
  · rfl

theorem count_insert_old (h : m.lookup a = some y) : count p (m.insert a x) = count p m := by
  rw [count, count, keys_insert_of_lookup h]

theorem count_erase (h : m.lookup a = some y) :
    count p (m.erase a) + (if p a then 1 else 0) = count p m := by
  rw [count, count, Finmap.keys_erase, Finset.filter_erase]
  by_cases hp : p a = true
  · have hm : a ∈ m.keys.filter fun a => p a := Finset.mem_filter.mpr ⟨mem_keys h, hp⟩
    have := Finset.card_pos.mpr ⟨a, hm⟩
    rw [if_pos hp, Finset.card_erase_of_mem hm]
    omega
  · have hm : a ∉ m.keys.filter fun a => p a := fun hm => hp (Finset.mem_filter.mp hm).2
    rw [if_neg hp, Finset.erase_eq_of_notMem hm]
    rfl

theorem keys_eq_empty_iff : m.keys = ∅ ↔ ∀ a, m.lookup a = none := by
  rw [Finset.eq_empty_iff_forall_notMem]
  exact forall_congr' fun a => by rw [Finmap.mem_keys, Finmap.lookup_eq_none]

end Table
