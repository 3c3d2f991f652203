import OdroidPlayer.Lib.Transition
import Mathlib.Logic.Function.Basic

/-!
Mutexes and the critical sections of threads.

`owner` is what the mutexes know: a mutex that is locked belongs to the thread that has
locked it. `inside` is what the threads believe: a thread is in a critical section between
its call of lock and its call of unlock. The two agree as long as threads lock and unlock in
pairs (`Matched`), and then no two threads are in one section. A thread that jumps out of a
section or unlocks a mutex that it has not locked takes them apart.
-/

namespace Mutex

universe u v

structure Locks (ι : Type u) (κ : Type v) where
  owner : κ → Option ι
  inside : ι → κ → Bool

namespace Locks

variable {ι : Type u} {κ : Type v}

/-- Every mutex is free. -/
def free : Locks ι κ := ⟨fun _ => none, fun _ _ => false⟩

/-- A mutex belongs to the thread in its critical section. -/
def Matched (s : Locks ι κ) : Prop := ∀ i m, s.owner m = some i ↔ s.inside i m = true

/-- A thread in the critical section of a mutex has locked it. -/
def Held (s : Locks ι κ) (m : κ) : Prop := ∀ i, s.inside i m = true → s.owner m = some i

/-- A mutex is locked and no thread is going to unlock it. -/
def Lost (s : Locks ι κ) (m : κ) : Prop := s.owner m ≠ none ∧ ∀ i, s.inside i m = false

theorem free_matched : (free : Locks ι κ).Matched := fun _ _ => by simp [free]

/-- No two threads are in one critical section. -/
theorem Matched.alone {s : Locks ι κ} (matched : s.Matched) {i j : ι} {m : κ}
    (first : s.inside i m = true) (second : s.inside j m = true) : i = j := by
  have owner := (matched i m).mpr first
  rw [(matched j m).mpr second] at owner
  exact (Option.some.inj owner).symm

theorem Matched.outside {s : Locks ι κ} (matched : s.Matched) {m : κ} (none : s.owner m = none)
    (i : ι) : s.inside i m = false := by
  by_contra other
  have owner := (matched i m).mpr (by simpa using other)
  rw [none] at owner
  cases owner

section Steps

variable [DecidableEq ι] [DecidableEq κ]

/-- `pthread_mutex_lock`, which waits until the mutex is free. -/
def lock (s : Locks ι κ) (i : ι) (m : κ) : Option (Locks ι κ) :=
  match s.owner m with
  | none => some ⟨Function.update s.owner m (some i),
      Function.update s.inside i (Function.update (s.inside i) m true)⟩
  | some _ => none

/-- `pthread_mutex_unlock`, whoever has locked the mutex. -/
def unlock (s : Locks ι κ) (i : ι) (m : κ) : Locks ι κ :=
  ⟨Function.update s.owner m none,
    Function.update s.inside i (Function.update (s.inside i) m false)⟩

/-- `pthread_mutex_trylock`, which enters if the mutex is free. -/
def trylock (s : Locks ι κ) (i : ι) (m : κ) : Locks ι κ := (s.lock i m).getD s

/-- A jump out of whatever critical section the thread is in. -/
def jump (s : Locks ι κ) (i : ι) : Locks ι κ :=
  { s with inside := Function.update s.inside i fun _ => false }

variable {s t : Locks ι κ} {i : ι} {m : κ}

/-! ### What a step changes -/

theorem lock_eq (lock : s.lock i m = some t) :
    s.owner m = none ∧ t = ⟨Function.update s.owner m (some i),
      Function.update s.inside i (Function.update (s.inside i) m true)⟩ := by
  unfold Locks.lock at lock
  split at lock
  next none =>
      cases lock
      exact ⟨none, rfl⟩
  · cases lock

theorem owner_lock (lock : s.lock i m = some t) (n : κ) :
    t.owner n = if n = m then some i else s.owner n := by
  obtain ⟨-, rfl⟩ := lock_eq lock
  simp [Function.update_apply]

theorem inside_lock (lock : s.lock i m = some t) (j : ι) (n : κ) :
    t.inside j n = if j = i ∧ n = m then true else s.inside j n := by
  obtain ⟨-, rfl⟩ := lock_eq lock
  by_cases mine : j = i
  · subst mine
    simp [Function.update_apply]
  · simp [mine]

@[simp] theorem owner_unlock (n : κ) :
    (s.unlock i m).owner n = if n = m then none else s.owner n := by
  simp [unlock, Function.update_apply]

@[simp] theorem inside_unlock (j : ι) (n : κ) :
    (s.unlock i m).inside j n = if j = i ∧ n = m then false else s.inside j n := by
  by_cases mine : j = i
  · subst mine
    simp [unlock, Function.update_apply]
  · simp [unlock, mine]

omit [DecidableEq κ] in
@[simp] theorem owner_jump (n : κ) : (s.jump i).owner n = s.owner n := rfl

omit [DecidableEq κ] in
@[simp] theorem inside_jump (j : ι) (n : κ) :
    (s.jump i).inside j n = if j = i then false else s.inside j n := by
  by_cases mine : j = i
  · subst mine
    simp [jump]
  · simp [jump, mine]

/-- Whether the first of the two has succeeded makes no difference. -/
theorem trylock_unlock : (s.trylock i m).unlock i m = s.unlock i m := by
  unfold trylock
  cases lock : s.lock i m with
  | none => rfl
  | some t =>
      obtain ⟨-, rfl⟩ := lock_eq lock
      simp [unlock]

/-! ### What every step keeps -/

theorem Matched.lock (matched : s.Matched) (lock : s.lock i m = some t) : t.Matched := by
  intro j n
  rw [owner_lock lock, inside_lock lock]
  by_cases same : n = m
  · subst same
    have out := matched.outside (lock_eq lock).1 j
    by_cases mine : j = i
    · simp [mine]
    · simp [mine, Ne.symm mine, out]
  · simpa [same] using matched j n

theorem Matched.unlock (matched : s.Matched) (inside : s.inside i m = true) :
    (s.unlock i m).Matched := by
  intro j n
  rw [owner_unlock, inside_unlock]
  by_cases same : n = m
  · subst same
    by_cases mine : j = i
    · simp [mine]
    · have out : s.inside j n = false := by
        by_contra other
        exact mine (matched.alone (by simpa using other) inside)
      simp [mine, out]
  · simpa [same] using matched j n

/-- A jump that unlocks a mutex afterwards breaks nothing only if the thread is in no other
critical section and no other thread is in that one. -/
theorem Matched.jump_unlock (matched : s.Matched) :
    ((s.jump i).unlock i m).Matched ↔
      (∀ n, n ≠ m → s.inside i n = false) ∧ ∀ j, j ≠ i → s.inside j m = false := by
  constructor
  · intro after
    refine ⟨fun n other => ?_, fun j other => ?_⟩
    · by_contra mine
      have owner : s.owner n = some i := (matched i n).mpr (by simpa using mine)
      have inside := (after i n).mp (by simpa [other] using owner)
      simp at inside
    · by_contra inside
      have owner := (after j m).mpr (by simpa [other] using inside)
      simp at owner
  · rintro ⟨mine, others⟩ j n
    by_cases same : n = m
    · subst same
      by_cases me : j = i
      · simp [me]
      · simp [me, others j me]
    · by_cases me : j = i
      · subst me
        have out : s.owner n ≠ some j := by
          intro owner
          rw [matched j n, mine n same] at owner
          cases owner
        simp [same, out]
      · simpa [same, me] using matched j n

theorem Held.lock {m' : κ} (held : s.Held m) (lock : s.lock i m' = some t) : t.Held m := by
  intro j inside
  rw [inside_lock lock] at inside
  rw [owner_lock lock]
  by_cases same : m = m'
  · subst same
    by_cases mine : j = i
    · simp [mine]
    · have owner := held j (by simpa [mine] using inside)
      rw [(lock_eq lock).1] at owner
      cases owner
  · simpa [same] using held j (by simpa [same] using inside)

theorem Held.unlock {m' : κ} (held : s.Held m) (inside : s.inside i m' = true) :
    (s.unlock i m').Held m := by
  intro j mine
  rw [inside_unlock] at mine
  rw [owner_unlock]
  by_cases same : m = m'
  · subst same
    have other : j ≠ i := by
      rintro rfl
      simp at mine
    have first := held j (by simpa [other] using mine)
    rw [held i inside] at first
    exact absurd (Option.some.inj first).symm other
  · simpa [same] using held j (by simpa [same] using mine)

/-- A lost mutex is never locked again. -/
theorem Lost.lock {m' : κ} (lost : s.Lost m) (lock : s.lock i m' = some t) :
    t.Lost m ∧ m' ≠ m := by
  have other : m ≠ m' := by
    rintro rfl
    exact lost.1 (lock_eq lock).1
  refine ⟨⟨?_, fun j => ?_⟩, other.symm⟩
  · simpa [owner_lock lock, other] using lost.1
  · simpa [inside_lock lock, other] using lost.2 j

theorem Lost.unlock {m' : κ} (lost : s.Lost m) (inside : s.inside i m' = true) :
    (s.unlock i m').Lost m := by
  have other : m ≠ m' := by
    rintro rfl
    rw [lost.2 i] at inside
    cases inside
  exact ⟨by simpa [other] using lost.1, fun j => by simpa [other] using lost.2 j⟩

end Steps

end Locks

end Mutex
