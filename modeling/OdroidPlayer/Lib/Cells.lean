import Mathlib.Data.Finmap
import Mathlib.Data.List.Nodup

/-!
Singly linked lists of cells in a memory.

A cell has a value and the address of the next cell, or NULL. `Chain` says which cells are
linked from an address; a chain ends, so no address is in it twice, and a walk along it is
over after as many cells as the memory has (`lastFrom_eq_some_iff`).
-/

namespace Cells

universe u

structure Cell (β : Type u) where
  value : β
  next : Option Nat
  deriving DecidableEq, Repr

/-- The cells that are allocated. -/
abbrev Memory (β : Type u) := Finmap fun _ : Nat => Cell β

variable {β : Type u}

/-- The cells that are linked from `p`, with their addresses, up to a NULL. -/
inductive Chain (m : Memory β) : Option Nat → List (Nat × β) → Prop where
  | nil : Chain m none []
  | cons {l : Nat} {v : β} {next : Option Nat} {cells : List (Nat × β)}
      (here : m.lookup l = some ⟨v, next⟩) (rest : Chain m next cells) :
      Chain m (some l) ((l, v) :: cells)

/-- Follow `next` from `l` to the cell that has none, through so many cells at most. -/
def lastFrom (m : Memory β) : Nat → Nat → Option Nat
  | 0, _ => none
  | fuel + 1, l =>
      match m.lookup l with
      | none => none
      | some ⟨_, none⟩ => some l
      | some ⟨_, some next⟩ => lastFrom m fuel next

/-- `next` of the cell at `l` is written. -/
def setNext (m : Memory β) (l : Nat) (next : Option Nat) : Memory β :=
  match m.lookup l with
  | none => m
  | some cell => m.insert l { cell with next }

/-- Free the cells from `p` on, the next address read before each is freed; the cells that
have been freed, and the memory without them. -/
def freeFrom (m : Memory β) : Nat → Option Nat → Option (List (Nat × β) × Memory β)
  | _, none => some ([], m)
  | 0, some _ => none
  | fuel + 1, some l =>
      match m.lookup l with
      | none => none
      | some cell =>
          (freeFrom (m.erase l) fuel cell.next).map fun out => ((l, cell.value) :: out.1, out.2)

theorem mem_setNext {m : Memory β} {l l' : Nat} {next : Option Nat} :
    l' ∈ setNext m l next ↔ l' ∈ m := by
  unfold setNext
  split
  · exact Iff.rfl
  next cell here =>
      rw [Finmap.mem_insert]
      refine or_iff_right_of_imp ?_
      rintro rfl
      exact Finmap.mem_of_lookup_eq_some here

section Chain

variable {m : Memory β} {p : Option Nat} {l : Nat} {cells : List (Nat × β)}

theorem Chain.unique {others : List (Nat × β)} (chain : Chain m p cells)
    (other : Chain m p others) : cells = others := by
  induction chain generalizing others with
  | nil =>
      cases other
      rfl
  | cons here _ ih =>
      cases other with
      | cons here' rest' =>
          cases here.symm.trans here'
          rw [ih rest']

/-- A chain begins at its first cell. -/
theorem Chain.head_eq (chain : Chain m p cells) : p = cells.head?.map Prod.fst := by
  cases chain <;> rfl

theorem Chain.eq_nil_iff (chain : Chain m p cells) : cells = [] ↔ p = none := by
  cases chain <;> simp

/-- A part of a chain is a chain. -/
theorem Chain.drop {front back : List (Nat × β)} {v : β} {p : Option Nat}
    (chain : Chain m p (front ++ (l, v) :: back)) : Chain m (some l) ((l, v) :: back) := by
  induction front generalizing p with
  | nil =>
      cases chain with
      | cons here rest => exact .cons here rest
  | cons cell front ih =>
      cases chain with
      | cons _ rest => exact ih rest

theorem Chain.nodup (chain : Chain m p cells) : (cells.map Prod.fst).Nodup := by
  induction chain with
  | nil => exact List.nodup_nil
  | @cons l v next cells here rest ih =>
      refine List.nodup_cons.mpr ⟨fun again => ?_, ih⟩
      obtain ⟨⟨_, w⟩, mem, rfl⟩ := List.mem_map.mp again
      obtain ⟨front, back, rfl⟩ := List.append_of_mem mem
      -- from the same address there would be two chains of different lengths
      have same := (Chain.cons here rest).unique rest.drop
      have length := congrArg List.length same
      simp only [List.length_cons, List.length_append] at length
      omega

theorem Chain.mem (chain : Chain m p cells) {cell : Nat × β} (mem : cell ∈ cells) :
    cell.1 ∈ m := by
  obtain ⟨front, back, rfl⟩ := List.append_of_mem mem
  cases chain.drop with
  | cons here _ => exact Finmap.mem_of_lookup_eq_some here

theorem Chain.length_le (chain : Chain m p cells) : cells.length ≤ m.keys.card := by
  have sub : (cells.map Prod.fst).toFinset ⊆ m.keys := by
    intro l mem
    obtain ⟨cell, linked, rfl⟩ := List.mem_map.mp (List.mem_toFinset.mp mem)
    exact Finmap.mem_keys.mpr (chain.mem linked)
  have le := Finset.card_le_card sub
  rwa [List.toFinset_card_of_nodup chain.nodup, List.length_map] at le

/-- Cells outside of the chain may change. -/
theorem Chain.congr {m' : Memory β} (chain : Chain m p cells)
    (same : ∀ cell ∈ cells, m'.lookup cell.1 = m.lookup cell.1) : Chain m' p cells := by
  induction chain with
  | nil => exact .nil
  | @cons l v next cells here _ ih =>
      refine .cons ((same (l, v) List.mem_cons_self).trans here) (ih fun cell mem => ?_)
      exact same cell (List.mem_cons_of_mem _ mem)

theorem Chain.insert (chain : Chain m p cells) {cell : Cell β} (free : l ∉ m) :
    Chain (m.insert l cell) p cells := by
  refine chain.congr fun other mem => ?_
  exact Finmap.lookup_insert_of_ne _ fun same => free (same ▸ chain.mem mem)

theorem Chain.erase (chain : Chain m p cells) (outside : l ∉ cells.map Prod.fst) :
    Chain (m.erase l) p cells := by
  refine chain.congr fun other mem => ?_
  exact Finmap.lookup_erase_ne fun same => outside (same ▸ List.mem_map_of_mem mem)

/-- The last cell is made to point to a cell that is not in the chain. -/
theorem Chain.append {front : List (Nat × β)} {last : Nat} {v w : β}
    (chain : Chain m p (front ++ [(last, v)])) (new : m.lookup l = some ⟨w, none⟩)
    (outside : l ∉ (front ++ [(last, v)]).map Prod.fst) :
    Chain (setNext m last (some l)) p (front ++ [(last, v)] ++ [(l, w)]) := by
  have lastIs : m.lookup last = some ⟨v, none⟩ := by
    cases chain.drop with
    | cons here rest =>
        cases rest
        exact here
  have written : setNext m last (some l) = m.insert last ⟨v, some l⟩ := by
    rw [setNext, lastIs]
  have other : l ≠ last := fun same => outside (by simp [same])
  have tail : Chain (m.insert last ⟨v, some l⟩) (some l) [(l, w)] := by
    refine .cons ?_ .nil
    rw [Finmap.lookup_insert_of_ne _ other, new]
  rw [written]
  have nodup := chain.nodup
  clear outside written
  induction front generalizing p with
  | nil =>
      cases chain with
      | cons here rest =>
          exact .cons (Finmap.lookup_insert _) tail
  | cons cell front ih =>
      cases chain with
      | @cons first v' next _ here rest =>
          rw [List.cons_append, List.map_cons, List.nodup_cons] at nodup
          have apart : first ≠ last := fun same => nodup.1 (by simp [same])
          refine .cons ?_ (ih rest nodup.2)
          rw [Finmap.lookup_insert_of_ne _ apart, here]

end Chain

section Walk

variable {m : Memory β} {p : Option Nat} {l last : Nat} {cells : List (Nat × β)}

theorem lastFrom_of_chain {fuel : Nat} {front : List (Nat × β)} {v : β}
    (chain : Chain m (some l) (front ++ [(last, v)])) (enough : front.length < fuel) :
    lastFrom m fuel l = some last := by
  induction front generalizing l fuel with
  | nil =>
      obtain ⟨fuel, rfl⟩ := Nat.exists_eq_succ_of_ne_zero (Nat.ne_of_gt enough)
      cases chain with
      | cons here rest =>
          cases rest
          simp only [lastFrom, here]
  | cons cell front ih =>
      obtain ⟨fuel, rfl⟩ := Nat.exists_eq_succ_of_ne_zero (by omega : fuel ≠ 0)
      cases chain with
      | @cons _ _ next _ here rest =>
          obtain ⟨next, rfl⟩ : ∃ l, next = some l := by
            cases next with
            | none => cases front <;> cases rest
            | some next => exact ⟨next, rfl⟩
          simp only [lastFrom, here]
          exact ih rest (Nat.lt_of_succ_lt_succ enough)

theorem chain_of_lastFrom {fuel : Nat} (walk : lastFrom m fuel l = some last) :
    ∃ front v, Chain m (some l) (front ++ [(last, v)]) := by
  induction fuel generalizing l with
  | zero => cases walk
  | succ fuel ih =>
      rw [lastFrom] at walk
      split at walk
      · cases walk
      next v here =>
          cases walk
          exact ⟨[], v, .cons here .nil⟩
      next v next here =>
          obtain ⟨front, w, chain⟩ := ih walk
          exact ⟨(l, v) :: front, w, .cons here chain⟩

/-- A walk through as many cells as there are finds an end where there is one; without it the
walk would go on for ever, or leave the memory. -/
theorem lastFrom_eq_some_iff :
    lastFrom m m.keys.card l = some last ↔ ∃ fuel, lastFrom m fuel l = some last := by
  constructor
  · intro walk
    exact ⟨_, walk⟩
  · rintro ⟨fuel, walk⟩
    obtain ⟨front, v, chain⟩ := chain_of_lastFrom walk
    have le := chain.length_le
    rw [List.length_append, List.length_singleton] at le
    exact lastFrom_of_chain chain le

/-- The walk from a cell of a chain ends at its last cell, and a new cell can be linked there. -/
theorem Chain.walk_append {new : Nat} {w : β} (chain : Chain m (some l) cells)
    (here : m.lookup new = some ⟨w, none⟩) (outside : new ∉ cells.map Prod.fst) :
    ∃ last, lastFrom m m.keys.card l = some last ∧
      Chain (setNext m last (some new)) (some l) (cells ++ [(new, w)]) := by
  have some_ : cells ≠ [] := fun empty => by
    rw [empty] at chain
    cases chain
  obtain ⟨front, ⟨last, v⟩, rfl⟩ := List.eq_nil_or_concat cells |>.resolve_left some_
  rw [List.concat_eq_append] at chain outside ⊢
  have enough := chain.length_le
  rw [List.length_append, List.length_singleton] at enough
  exact ⟨last, lastFrom_of_chain chain enough, chain.append here outside⟩

/-- To free a chain is to free each of its cells, in order, and nothing else. -/
theorem freeFrom_of_chain {fuel : Nat} (chain : Chain m p cells) (enough : cells.length ≤ fuel) :
    ∃ m', freeFrom m fuel p = some (cells, m') ∧
      ∀ l, l ∉ cells.map Prod.fst → m'.lookup l = m.lookup l := by
  induction cells generalizing m p fuel with
  | nil =>
      cases chain
      cases fuel <;> exact ⟨m, rfl, fun _ _ => rfl⟩
  | cons cell cells ih =>
      obtain ⟨fuel, rfl⟩ := Nat.exists_eq_succ_of_ne_zero (by
        rw [List.length_cons] at enough
        omega : fuel ≠ 0)
      have nodup := chain.nodup
      cases chain with
      | cons here rest =>
          have outside := (List.nodup_cons.mp nodup).1
          obtain ⟨m', freed, same⟩ := ih (rest.erase outside) (Nat.le_of_succ_le_succ enough)
          refine ⟨m', by simp only [freeFrom, here, freed, Option.map_some], fun other apart => ?_⟩
          rw [List.map_cons, List.mem_cons, not_or] at apart
          rw [same other apart.2, Finmap.lookup_erase_ne apart.1]

end Walk

end Cells
