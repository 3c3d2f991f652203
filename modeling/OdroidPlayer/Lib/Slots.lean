import Mathlib.Data.List.Perm.Basic

/-!
Arrays of slots, some of them used, and the number of used slots.

A store into one slot changes the number by what it does to that slot. The first slots of
an array, as many as are used, are the used ones exactly when no free slot is in front of
a used one. What holds of the slots after a store is read off the new one and the others
(`Replaced`).
-/

namespace Slots

universe u v

variable {α : Type u} {ι : Type v} {used : α → Bool}

/-- No free slot in front of a used one. -/
def Packed (used : α → Bool) (slots : List α) : Prop :=
  slots.Pairwise fun a b => used b = true → used a = true

instance (used : α → Bool) (slots : List α) : Decidable (Packed used slots) :=
  inferInstanceAs (Decidable (List.Pairwise _ _))

theorem countP_fill {slots : List α} {i : Nat} {old new : α} (here : slots[i]? = some old)
    (free : used old = false) (fills : used new = true) :
    (slots.set i new).countP used = slots.countP used + 1 := by
  obtain ⟨bound, is⟩ := List.getElem?_eq_some_iff.mp here
  simp [List.countP_set bound, is, free, fills]

theorem countP_clear {slots : List α} {i : Nat} {old new : α} (here : slots[i]? = some old)
    (was : used old = true) (clears : used new = false) :
    (slots.set i new).countP used + 1 = slots.countP used := by
  obtain ⟨bound, is⟩ := List.getElem?_eq_some_iff.mp here
  have some : 0 < slots.countP used :=
    List.countP_pos_iff.mpr ⟨old, List.mem_of_getElem? here, was⟩
  rw [List.countP_set bound, is, if_pos was, clears]
  simp only [Bool.false_eq_true, if_false]
  omega

theorem packed_cons {a : α} {slots : List α} :
    Packed used (a :: slots) ↔ (∀ b ∈ slots, used b = true → used a = true) ∧ Packed used slots :=
  List.pairwise_cons

/-- The first slots are the used ones, in any order, exactly when there is no hole. -/
theorem take_perm_filter_iff (slots : List α) :
    (slots.take (slots.countP used)).Perm (slots.filter used) ↔ Packed used slots := by
  induction slots with
  | nil => simp [Packed]
  | cons a slots ih =>
      by_cases here : used a = true
      · rw [List.countP_cons_of_pos here, List.take_succ_cons, List.filter_cons_of_pos here,
          List.perm_cons, ih, packed_cons]
        simp [here]
      · rw [List.countP_cons_of_neg here, List.filter_cons_of_neg here, packed_cons]
        cases count : slots.countP used with
        | zero =>
            have free : ∀ b ∈ slots, ¬ used b = true := List.countP_eq_zero.mp count
            have none : slots.filter used = [] := List.filter_eq_nil_iff.mpr free
            have packed : Packed used slots :=
              List.Pairwise.imp_of_mem (fun _ mem _ is => absurd is (free _ mem))
                (List.pairwise_of_forall (R := fun _ _ => True) fun _ _ => trivial)
            simp only [List.take_zero, none, List.Perm.refl, true_iff]
            exact ⟨fun b mem is => absurd is (free b mem), packed⟩
        | succ n =>
            -- the hole is taken, and a used slot stands behind it
            obtain ⟨b, mem, is⟩ := List.countP_pos_iff.mp (by omega : 0 < slots.countP used)
            constructor
            · intro perm
              have taken : a ∈ slots.filter used := by
                apply perm.subset
                rw [List.take_succ_cons]
                exact List.mem_cons_self
              exact absurd (List.mem_filter.mp taken).2 here
            · rintro ⟨holds, _⟩
              exact absurd (holds b mem is) here

/-! ### One slot is replaced -/

/-- `t` has the entries of `s` but for one. -/
structure Replaced (s t : ι → α) (k : ι) (a : α) : Prop where
  self : t k = a
  other : ∀ i, i ≠ k → t i = s i

namespace Replaced

variable {s t : ι → α} {k : ι} {a : α}

theorem all {P : α → Prop} (replaced : Replaced s t k a) (new : P a)
    (old : ∀ i, i ≠ k → P (s i)) (i : ι) : P (t i) := by
  by_cases same : i = k
  · subst same
    rw [replaced.self]
    exact new
  · rw [replaced.other i same]
    exact old i same

theorem pairs {R : α → α → Prop} (replaced : Replaced s t k a) (left : ∀ j, j ≠ k → R a (s j))
    (right : ∀ i, i ≠ k → R (s i) a) (old : ∀ i j, i ≠ j → R (s i) (s j)) (i j : ι)
    (ne : i ≠ j) : R (t i) (t j) := by
  by_cases first : i = k
  · subst first
    rw [replaced.self, replaced.other j ne.symm]
    exact left j ne.symm
  · rw [replaced.other i first]
    by_cases second : j = k
    · subst second
      rw [replaced.self]
      exact right i first
    · rw [replaced.other j second]
      exact old i j ne

/-- Two slots, which may be one. -/
theorem square {R : α → α → Prop} (replaced : Replaced s t k a) (new : R a a)
    (left : ∀ j, j ≠ k → R a (s j)) (right : ∀ i, i ≠ k → R (s i) a)
    (old : ∀ i j, R (s i) (s j)) (i j : ι) : R (t i) (t j) := by
  by_cases same : i = j
  · subst same
    exact replaced.all (P := fun b => R b b) new (fun i _ => old i i) i
  · exact replaced.pairs left right (fun i j _ => old i j) i j same

theorem exists_iff {P : α → Prop} (replaced : Replaced s t k a) :
    (∃ i, P (t i)) ↔ P a ∨ ∃ i, i ≠ k ∧ P (s i) := by
  constructor
  · rintro ⟨i, holds⟩
    by_cases same : i = k
    · subst same
      exact .inl (replaced.self ▸ holds)
    · exact .inr ⟨i, same, replaced.other i same ▸ holds⟩
  · rintro (new | ⟨i, ne, old⟩)
    · exact ⟨k, replaced.self.symm ▸ new⟩
    · exact ⟨i, (replaced.other i ne).symm ▸ old⟩

end Replaced

end Slots
