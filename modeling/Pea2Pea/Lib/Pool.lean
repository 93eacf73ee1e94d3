/-
Pools: a list of members addressed by position, grown at the end and
updated in place (`List.set`), never shrunk. A member stands for a task or
a future; what it has at hand is read off it by a partial key function.

`Owned f l k`: some member has the key `k` at hand. `UniqueBy f l`: no two
members have the same key at hand. With unique keys, an update hands a key
over exactly as the member's own key changes (`owned_set_iff`), and counts
change by what the member itself contributed (`countP_set`).
-/
import Mathlib.Data.List.Basic

namespace Pool

variable {α κ : Type} {l : List α} {i j : Nat} {x y : α} {k : κ} {f : α → Option κ} {p : α → Bool}

theorem getElem?_set (hx : l[i]? = some x) (j : Nat) :
    (l.set i y)[j]? = if i = j then some y else l[j]? := by
  have hi : i < l.length := (List.getElem?_eq_some_iff.mp hx).1
  rw [List.getElem?_set]
  by_cases hij : i = j
  · simp [hij, hij ▸ hi]
  · simp [hij]

/-- A member of the updated pool is the new one, or was there before at
another position. -/
theorem getElem?_set_cases (hx : l[i]? = some x) {z : α} (hz : (l.set i y)[j]? = some z) :
    (i = j ∧ z = y) ∨ (i ≠ j ∧ l[j]? = some z) := by
  rw [getElem?_set hx] at hz
  by_cases hij : i = j
  · simp only [hij, if_true, Option.some.injEq] at hz
    exact .inl ⟨hij, hz.symm⟩
  · simp only [hij, if_false] at hz
    exact .inr ⟨hij, hz⟩

theorem getElem?_set_none (hn : l[j]? = none) (i : Nat) (y : α) : (l.set i y)[j]? = none := by
  rw [List.getElem?_eq_none_iff] at hn ⊢
  rwa [List.length_set]

theorem getElem?_append_cases {z : α} (hz : (l ++ [y])[j]? = some z) :
    (j = l.length ∧ z = y) ∨ l[j]? = some z := by
  rcases Nat.lt_trichotomy j l.length with h | rfl | h
  · rw [List.getElem?_append_left h] at hz; exact .inr hz
  · simp only [List.getElem?_concat_length, Option.some.injEq] at hz; exact .inl ⟨rfl, hz.symm⟩
  · rw [List.getElem?_eq_none (by simp; omega)] at hz; cases hz

theorem getElem?_append_of_some (hx : l[i]? = some x) (m : List α) : (l ++ m)[i]? = some x := by
  rw [List.getElem?_append_left (List.getElem?_eq_some_iff.mp hx).1, hx]

/-- An update changes a count by the member's own contribution. -/
theorem countP_set (hx : l[i]? = some x) :
    (l.set i y).countP p + (if p x then 1 else 0) = l.countP p + (if p y then 1 else 0) := by
  induction l generalizing i with
  | nil => simp at hx
  | cons z l ih =>
    cases i with
    | zero =>
      simp only [List.getElem?_cons_zero, Option.some.injEq] at hx
      subst hx
      simp only [List.set_cons_zero, List.countP_cons]
      omega
    | succ i =>
      simp only [List.getElem?_cons_succ] at hx
      simp only [List.set_cons_succ, List.countP_cons]
      have := ih hx
      omega

theorem countP_set_gain (hx : l[i]? = some x) (h₀ : p x = false) (h₁ : p y = true) :
    (l.set i y).countP p = l.countP p + 1 := by
  have hc : (l.set i y).countP p + (if p x then 1 else 0) = l.countP p + if p y then 1 else 0 := countP_set hx
  rwa [h₀, h₁, if_neg Bool.false_ne_true, if_pos rfl] at hc

theorem countP_set_loss (hx : l[i]? = some x) (h₁ : p x = true) (h₀ : p y = false) :
    (l.set i y).countP p + 1 = l.countP p := by
  have hc : (l.set i y).countP p + (if p x then 1 else 0) = l.countP p + if p y then 1 else 0 := countP_set hx
  rwa [h₀, h₁, if_neg Bool.false_ne_true, if_pos rfl] at hc

theorem countP_set_same (hx : l[i]? = some x) (hp : p y = p x) : (l.set i y).countP p = l.countP p := by
  have := countP_set (y := y) (p := p) hx
  rw [hp] at this
  omega

/-- A modification that makes no member count adds nothing to a count. -/
theorem countP_modify_le {f : α → α} (hf : ∀ x, p (f x) = true → p x = true) (l : List α) (i : Nat) :
    (l.modify i f).countP p ≤ l.countP p := by
  induction l generalizing i with
  | nil => simp
  | cons x l ih =>
    cases i with
    | zero =>
      simp only [List.modify_zero_cons, List.countP_cons]
      by_cases hx : p (f x) = true
      · simp [hx, hf x hx]
      · simp [hx]
    | succ i =>
      simp only [List.modify_succ_cons, List.countP_cons]
      have := ih i
      omega

/-- What the members of the pool weigh together. -/
def weight (w : α → Nat) : List α → Nat
  | [] => 0
  | x :: l => w x + weight w l

theorem weight_append (w : α → Nat) (l m : List α) : weight w (l ++ m) = weight w l + weight w m := by
  induction l with
  | nil => simp [weight]
  | cons x l ih =>
    simp only [List.cons_append, weight, ih]
    omega

/-- An update changes a weight by the member's own. -/
theorem weight_set {w : α → Nat} (hx : l[i]? = some x) : weight w (l.set i y) + w x = weight w l + w y := by
  induction l generalizing i with
  | nil => simp at hx
  | cons z l ih =>
    cases i with
    | zero =>
      simp only [List.getElem?_cons_zero, Option.some.injEq] at hx
      subst hx
      simp only [List.set_cons_zero, weight]
      omega
    | succ i =>
      simp only [List.getElem?_cons_succ] at hx
      simp only [List.set_cons_succ, weight]
      have := ih hx
      omega

/-- An update by a lighter member makes the pool lighter. -/
theorem weight_set_lt {w : α → Nat} (hx : l[i]? = some x) (hy : w y < w x) : weight w (l.set i y) < weight w l := by
  have := weight_set (w := w) (y := y) hx
  omega

theorem weight_map {β : Type} {w : β → Nat} {v : α → Nat} {g : α → β} (hg : ∀ x ∈ l, w (g x) ≤ v x) :
    weight w (l.map g) ≤ weight v l := by
  induction l with
  | nil => simp [weight]
  | cons x l ih =>
    simp only [List.map_cons, weight]
    have h₁ := hg x (List.mem_cons_self)
    have h₂ := ih fun z hz => hg z (List.mem_cons_of_mem _ hz)
    omega

theorem countP_pos (hx : l[i]? = some x) (hp : p x = true) : 0 < l.countP p :=
  List.countP_pos_iff.mpr ⟨x, List.mem_of_getElem? hx, hp⟩

theorem forall_mem_set {P : α → Prop} (h : ∀ z ∈ l, P z) (hy : P y) : ∀ z ∈ l.set i y, P z := by
  intro z hz
  rcases List.mem_or_eq_of_mem_set hz with hz | rfl
  · exact h z hz
  · exact hy

theorem forall_mem_append {P : α → Prop} (h : ∀ z ∈ l, P z) (hy : P y) : ∀ z ∈ l ++ [y], P z := by
  intro z hz
  rcases List.mem_append.mp hz with hz | hz
  · exact h z hz
  · rw [List.mem_singleton.mp hz]; exact hy

/-- A witness in the pool stays one through an update that keeps it. -/
theorem exists_mem_set {P : α → Prop} (h : ∃ z ∈ l, P z) (hx : l[i]? = some x) (hy : P x → P y) :
    ∃ z ∈ l.set i y, P z := by
  obtain ⟨z, hz, hp⟩ := h
  obtain ⟨j, hj⟩ := List.getElem?_of_mem hz
  by_cases hij : i = j
  · subst hij
    rw [hx] at hj; cases hj
    exact ⟨y, List.mem_of_getElem? (by rw [getElem?_set hx, if_pos rfl]), hy hp⟩
  · exact ⟨z, List.mem_of_getElem? (by rw [getElem?_set hx, if_neg hij]; exact hj), hp⟩

/-- What an update does not change of its member, it does not change of the
pool. -/
theorem map_set_same {β : Type} {g : α → β} (hx : l[i]? = some x) (hg : g y = g x) : (l.set i y).map g = l.map g := by
  refine List.ext_getElem? fun j => ?_
  rw [List.getElem?_map, List.getElem?_map, getElem?_set hx]
  by_cases hij : i = j
  · subst hij
    simp [hx, hg]
  · simp [hij]

/-- What a modification does to a member's part, it does to the list of
these parts. -/
theorem map_modify {β : Type} {g : α → β} {f : α → α} {e : β → β} (hf : ∀ x, g (f x) = e (g x)) (l : List α)
    (i : Nat) : (l.modify i f).map g = (l.map g).modify i e := by
  refine List.ext_getElem? fun j => ?_
  simp only [List.getElem?_map, List.getElem?_modify]
  cases l[j]? with
  | none => rfl
  | some x => by_cases hij : i = j <;> simp [hij, hf]

theorem map_modify_same {β : Type} {g : α → β} {f : α → α} (hf : ∀ x, g (f x) = g x) (l : List α) (i : Nat) :
    (l.modify i f).map g = l.map g := by
  rw [map_modify (e := id) hf]
  exact List.ext_getElem? fun j => by simp

/-- The same for one modification after the other. -/
theorem map_foldl_modify_same {β : Type} {g : α → β} {f : α → α} (hf : ∀ x, g (f x) = g x) (l : List α)
    (is : List Nat) : (is.foldl (fun l i => l.modify i f) l).map g = l.map g := by
  induction is generalizing l with
  | nil => rfl
  | cons i is ih => exact (ih _).trans (map_modify_same hf l i)

theorem set_self (hx : l[i]? = some x) : l.set i x = l := by
  obtain ⟨hlt, rfl⟩ := List.getElem?_eq_some_iff.mp hx
  exact List.set_getElem_self hlt

theorem mem_set_self (hx : l[i]? = some x) (y : α) : y ∈ l.set i y :=
  List.mem_of_getElem? (by rw [getElem?_set hx, if_pos rfl])

/-! ## Locks -/

/-- A member that is inside (`p`) is the one the lock names. -/
def Holds (p : α → Bool) (l : List α) (lock : Option Nat) : Prop :=
  ∀ (i : Nat) x, l[i]? = some x → p x = true → lock = some i

theorem holds_nil {lock : Option Nat} : Holds p [] lock := by
  intro i x hx; simp at hx

theorem Holds.outside (h : Holds p l none) (hx : x ∈ l) : p x = false := by
  obtain ⟨i, hi⟩ := List.getElem?_of_mem hx
  cases hp : p x with
  | false => rfl
  | true => have := h i x hi hp; cases this

/-- Two members that are inside are one. -/
theorem Holds.unique {lock : Option Nat} (h : Holds p l lock) (hx : l[i]? = some x) (hpx : p x = true) {j : Nat}
    (hy : l[j]? = some y) (hpy : p y = true) : i = j :=
  Option.some.inj ((h i x hx hpx).symm.trans (h j y hy hpy))

theorem Holds.set {lock : Option Nat} (h : Holds p l lock) (hx : l[i]? = some x) (hy : p y = true → p x = true) :
    Holds p (l.set i y) lock := by
  intro j z hz hp
  rcases getElem?_set_cases hx hz with ⟨rfl, rfl⟩ | ⟨-, hz⟩
  · exact h i x hx (hy hp)
  · exact h j z hz hp

theorem Holds.append {lock : Option Nat} (h : Holds p l lock) (hy : p y = false) : Holds p (l ++ [y]) lock := by
  intro j z hz hp
  rcases getElem?_append_cases hz with ⟨-, rfl⟩ | hz
  · rw [hy] at hp; cases hp
  · exact h j z hz hp

theorem Holds.acquire (h : Holds p l none) (hx : l[i]? = some x) : Holds p (l.set i y) (some i) := by
  intro j z hz hp
  rcases getElem?_set_cases hx hz with ⟨rfl, -⟩ | ⟨-, hz⟩
  · rfl
  · rw [h.outside (List.mem_of_getElem? hz)] at hp; cases hp

/-- The member that is inside leaves, and the lock is free. -/
theorem Holds.release {lock : Option Nat} (h : Holds p l lock) (hx : l[i]? = some x) (hp : p x = true)
    (hy : p y = false) : Holds p (l.set i y) none := by
  intro j z hz hpz
  rcases getElem?_set_cases hx hz with ⟨-, rfl⟩ | ⟨hij, hz⟩
  · rw [hy] at hpz; cases hpz
  · have h₁ := h i x hx hp
    have h₂ := h j z hz hpz
    rw [h₁] at h₂; cases h₂
    exact absurd rfl hij

/-- The lock names a member that is inside. -/
def Held (p : α → Bool) (l : List α) (lock : Option Nat) : Prop :=
  ∀ i, lock = some i → ∃ x, l[i]? = some x ∧ p x = true

theorem held_none : Held p l none := by
  intro i hi; cases hi

theorem Held.set {lock : Option Nat} (h : Held p l lock) (hx : l[i]? = some x) (hy : p x = true → p y = true) :
    Held p (l.set i y) lock := by
  intro j hj
  obtain ⟨z, hz, hp⟩ := h j hj
  rw [getElem?_set hx]
  by_cases hij : i = j
  · subst hij
    rw [hx] at hz; cases hz
    exact ⟨y, if_pos rfl, hy hp⟩
  · exact ⟨z, by rw [if_neg hij]; exact hz, hp⟩

theorem Held.append {lock : Option Nat} (h : Held p l lock) (m : List α) : Held p (l ++ m) lock := by
  intro j hj
  obtain ⟨z, hz, hp⟩ := h j hj
  exact ⟨z, getElem?_append_of_some hz m, hp⟩

theorem held_acquire (hx : l[i]? = some x) (hy : p y = true) : Held p (l.set i y) (some i) := by
  intro j hj
  cases hj
  exact ⟨y, by rw [getElem?_set hx, if_pos rfl], hy⟩

/-! ## Keys at hand -/

/-- Some member of the pool has `k` at hand. -/
def Owned (f : α → Option κ) (l : List α) (k : κ) : Prop := ∃ x ∈ l, f x = some k

/-- No two members of the pool have the same key at hand. -/
def UniqueBy (f : α → Option κ) (l : List α) : Prop :=
  ∀ (i j : Nat) x y k, l[i]? = some x → l[j]? = some y → f x = some k → f y = some k → i = j

theorem Owned.of_getElem? (hx : l[i]? = some x) (hk : f x = some k) : Owned f l k :=
  ⟨x, List.mem_of_getElem? hx, hk⟩

theorem Owned.position (h : Owned f l k) : ∃ (i : Nat) (x : α), l[i]? = some x ∧ f x = some k := by
  obtain ⟨x, hx, hk⟩ := h
  obtain ⟨i, hi⟩ := List.getElem?_of_mem hx
  exact ⟨i, x, hi, hk⟩

theorem not_owned_nil : ¬ Owned f [] k := by simp [Owned]

theorem uniqueBy_nil : UniqueBy f ([] : List α) := by
  intro i j x y k hx; simp at hx

theorem owned_append : Owned f (l ++ [y]) k ↔ Owned f l k ∨ f y = some k := by
  simp only [Owned, List.mem_append, List.mem_singleton]
  constructor
  · rintro ⟨z, hz | rfl, hk⟩
    · exact .inl ⟨z, hz, hk⟩
    · exact .inr hk
  · rintro (⟨z, hz, hk⟩ | hk)
    · exact ⟨z, .inl hz, hk⟩
    · exact ⟨y, .inr rfl, hk⟩

theorem Owned.of_set (hx : l[i]? = some x) (h : Owned f (l.set i y) k) :
    f y = some k ∨ ∃ (j : Nat) (z : α), i ≠ j ∧ l[j]? = some z ∧ f z = some k := by
  obtain ⟨j, z, hz, hk⟩ := h.position
  rcases getElem?_set_cases hx hz with ⟨-, rfl⟩ | ⟨hij, hz⟩
  · exact .inl hk
  · exact .inr ⟨j, z, hij, hz, hk⟩

/-- A key at hand after an update that brings none was at hand before. -/
theorem Owned.of_set_kept (hx : l[i]? = some x) (hy : f y = none ∨ f y = f x) (h : Owned f (l.set i y) k) :
    Owned f l k := by
  rcases h.of_set hx with hk | ⟨j, z, -, hz, hk⟩
  · rcases hy with hy | hy
    · rw [hy] at hk; cases hk
    · exact .of_getElem? hx (hy ▸ hk)
  · exact .of_getElem? hz hk

theorem Owned.of_append (hy : f y = none) (h : Owned f (l ++ [y]) k) : Owned f l k := by
  rcases owned_append.mp h with h | hk
  · exact h
  · rw [hy] at hk; cases hk

theorem Owned.set (hx : l[i]? = some x) (h : Owned f l k) (hne : f x ≠ some k) :
    Owned f (l.set i y) k := by
  obtain ⟨j, z, hz, hk⟩ := h.position
  have hij : i ≠ j := by rintro rfl; rw [hx] at hz; cases hz; exact hne hk
  exact .of_getElem? (by rw [getElem?_set hx, if_neg hij]; exact hz) hk

theorem Owned.set_self (hx : l[i]? = some x) (hk : f y = some k) : Owned f (l.set i y) k :=
  .of_getElem? (by rw [getElem?_set hx, if_pos rfl]) hk

/-- A key stays at hand through an update that keeps the member's own. -/
theorem Owned.set_mono (hx : l[i]? = some x) (h : Owned f l k) (hm : f x = some k → f y = some k) :
    Owned f (l.set i y) k := by
  by_cases hk : f x = some k
  · exact .set_self hx (hm hk)
  · exact h.set hx hk

/-- With unique keys, a key is at hand after an update iff the new member
has it, or it was at hand before and not with the replaced member. -/
theorem owned_set_iff (hu : UniqueBy f l) (hx : l[i]? = some x) :
    Owned f (l.set i y) k ↔ f y = some k ∨ (Owned f l k ∧ f x ≠ some k) := by
  constructor
  · intro h
    rcases h.of_set hx with hk | ⟨j, z, hij, hz, hk⟩
    · exact .inl hk
    · exact .inr ⟨.of_getElem? hz hk, fun hxk => hij (hu _ _ _ _ _ hx hz hxk hk)⟩
  · rintro (hk | ⟨h, hne⟩)
    · exact .set_self hx hk
    · exact h.set hx hne

/-- An update that leaves the member's own key alone leaves every owner. -/
theorem owned_set_same (hx : l[i]? = some x) (hf : f y = f x) : Owned f (l.set i y) k ↔ Owned f l k := by
  constructor
  · intro h
    rcases h.of_set hx with hk | ⟨j, z, -, hz, hk⟩
    · exact .of_getElem? hx (hf ▸ hk)
    · exact .of_getElem? hz hk
  · exact fun h => h.set_mono hx hf.trans

/-- An update keeps keys unique when the new member's key is the old one's,
or nobody's. -/
theorem UniqueBy.set (hu : UniqueBy f l) (hx : l[i]? = some x)
    (hy : ∀ k, f y = some k → f x = some k ∨ ¬ Owned f l k) : UniqueBy f (l.set i y) := by
  intro a b u v k ha hb hu' hv
  rcases getElem?_set_cases hx ha with ⟨rfl, rfl⟩ | ⟨-, ha₁⟩ <;>
    rcases getElem?_set_cases hx hb with ⟨rfl, rfl⟩ | ⟨-, hb₁⟩
  · rfl
  · rcases hy k hu' with hxk | hno
    · exact hu _ _ _ _ _ hx hb₁ hxk hv
    · exact absurd (.of_getElem? hb₁ hv) hno
  · rcases hy k hv with hxk | hno
    · exact hu _ _ _ _ _ ha₁ hx hu' hxk
    · exact absurd (.of_getElem? ha₁ hu') hno
  · exact hu _ _ _ _ _ ha₁ hb₁ hu' hv

/-- The keys at hand, as a list, are all different. -/
theorem UniqueBy.nodup (hu : UniqueBy f l) : (l.filterMap f).Nodup := by
  induction l with
  | nil => exact List.nodup_nil
  | cons x l ih =>
    have tail : UniqueBy f l := fun i j y z k hi hj hy hz => Nat.succ.inj (hu (i + 1) (j + 1) y z k hi hj hy hz)
    cases hx : f x with
    | none => rw [List.filterMap_cons_none hx]; exact ih tail
    | some k =>
      rw [List.filterMap_cons_some hx, List.nodup_cons]
      refine ⟨fun hk => ?_, ih tail⟩
      obtain ⟨y, hy, hyk⟩ := List.mem_filterMap.mp hk
      obtain ⟨j, hj⟩ := List.getElem?_of_mem hy
      exact absurd (hu 0 (j + 1) x y k rfl hj hx hyk) (Nat.succ_ne_zero j).symm

theorem UniqueBy.map {g : α → α} (hu : UniqueBy f l) (hg : ∀ x, f (g x) = f x) : UniqueBy f (l.map g) := by
  intro i j x y k hx hy hfx hfy
  rw [List.getElem?_map] at hx hy
  obtain ⟨a, ha, rfl⟩ := Option.map_eq_some_iff.mp hx
  obtain ⟨b, hb, rfl⟩ := Option.map_eq_some_iff.mp hy
  exact hu i j a b k ha hb ((hg a).symm.trans hfx) ((hg b).symm.trans hfy)

theorem UniqueBy.set_same (hu : UniqueBy f l) (hx : l[i]? = some x) (hf : f y = f x) :
    UniqueBy f (l.set i y) :=
  hu.set hx fun _ hk => .inl (hf ▸ hk)

theorem UniqueBy.append (hu : UniqueBy f l) (hy : ∀ k, f y = some k → ¬ Owned f l k) :
    UniqueBy f (l ++ [y]) := by
  intro a b u v k ha hb hu' hv
  rcases getElem?_append_cases ha with ⟨rfl, rfl⟩ | ha₁ <;>
    rcases getElem?_append_cases hb with ⟨rfl, rfl⟩ | hb₁
  · rfl
  · exact absurd (.of_getElem? hb₁ hv) (hy k hu')
  · exact absurd (.of_getElem? ha₁ hu') (hy k hv)
  · exact hu _ _ _ _ _ ha₁ hb₁ hu' hv

end Pool
