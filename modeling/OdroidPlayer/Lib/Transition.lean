import Mathlib.Data.List.Basic
import Mathlib.Data.Set.Basic

/-!
Transition systems whose actions are partial functions on states.

An action resolves every choice of the environment, so a step is a function:
`none` means that the action is not enabled. A step also emits a list of
events, and a finite run is judged by its last state and by the events emitted
so far, in order. `exec_rec` is the invariant rule for runs and
`exec_rec_of_along` its form for runs whose every step meets a side condition.
-/

namespace Transition

universe u v w

/-- A transition system: what each action does in each state. -/
structure System (σ : Type u) (α : Type v) (ε : Type w) where
  step : σ → α → Option (σ × List ε)

variable {σ : Type u} {α : Type v} {ε : Type w}

namespace System

variable (M : System σ α ε)

/-- Run a list of actions; `none` when one of them is not enabled. -/
def exec : σ → List α → Option (σ × List ε)
  | s, [] => some (s, [])
  | s, a :: as =>
      match M.step s a with
      | none => none
      | some (t, es) => (exec t as).map fun out => (out.1, es ++ out.2)

/-- `log` are the events of some run from `s` to `t`. -/
def Runs (s t : σ) (log : List ε) : Prop := ∃ as, M.exec s as = some (t, log)

/-- `t` is reached, with the events `log`, from a state that `init` allows. -/
def Reached (init : σ → Prop) (t : σ) (log : List ε) : Prop :=
  ∃ s, init s ∧ M.Runs s t log

def Reachable (init : σ → Prop) (t : σ) : Prop := ∃ log, M.Reached init t log

/-- Every step of the run of `as` from `s` is taken under the condition `C`. -/
def Along (C : σ → α → Prop) : σ → List α → Prop
  | _, [] => True
  | s, a :: as => C s a ∧ ∀ t es, M.step s a = some (t, es) → Along C t as

variable {M}

@[simp] theorem exec_nil (s : σ) : M.exec s [] = some (s, []) := rfl

theorem exec_cons {s u : σ} {a : α} {as : List α} {log : List ε} :
    M.exec s (a :: as) = some (u, log) ↔
      ∃ t es rest, M.step s a = some (t, es) ∧ M.exec t as = some (u, rest) ∧
        log = es ++ rest := by
  cases h : M.step s a with
  | none =>
      have stops : M.exec s (a :: as) = none := by rw [exec, h]
      refine iff_of_false ?_ ?_
      · rw [stops]
        exact (Option.some_ne_none _).symm
      · rintro ⟨t, es, rest, ⟨⟩, -⟩
  | some out =>
      simp only [exec, h, Option.map_eq_some_iff, Prod.exists, Prod.mk.injEq, Option.some.injEq]
      constructor
      · rintro ⟨u', rest, run, rfl, rfl⟩
        exact ⟨out.1, out.2, rest, rfl, run, rfl⟩
      · rintro ⟨t, es, rest, rfl, run, rfl⟩
        exact ⟨u, rest, run, rfl, rfl⟩

theorem exec_append {s u : σ} {as bs : List α} {log : List ε} :
    M.exec s (as ++ bs) = some (u, log) ↔
      ∃ t front back, M.exec s as = some (t, front) ∧ M.exec t bs = some (u, back) ∧
        log = front ++ back := by
  induction as generalizing s log with
  | nil =>
      constructor
      · intro run
        exact ⟨s, [], log, rfl, run, rfl⟩
      · rintro ⟨t, front, back, first, run, rfl⟩
        cases first
        exact run
  | cons a as ih =>
      simp only [List.cons_append, exec_cons, ih]
      constructor
      · rintro ⟨t, es, rest, first, ⟨m, front, back, run, run', rfl⟩, rfl⟩
        exact ⟨m, es ++ front, back, ⟨t, es, front, first, run, rfl⟩, run',
          (List.append_assoc es front back).symm⟩
      · rintro ⟨m, _, back, ⟨t, es, front, first, run, rfl⟩, run', rfl⟩
        exact ⟨t, es, front ++ back, first, ⟨m, front, back, run, run', rfl⟩,
          List.append_assoc es front back⟩

/-- The invariant rule for runs whose every step meets a side condition: what
holds of the first state and the events before it, and is kept by each step that
adds its events, holds at the end of the run. -/
theorem exec_rec_of_along {C : σ → α → Prop} {I : σ → List ε → Prop}
    (keep : ∀ s log a t es, I s log → C s a → M.step s a = some (t, es) → I t (log ++ es))
    {s t : σ} {as : List α} {log : List ε} (along : M.Along C s as) (before : List ε)
    (start : I s before) (run : M.exec s as = some (t, log)) : I t (before ++ log) := by
  induction as generalizing s before log with
  | nil =>
      simp only [exec_nil, Option.some.injEq, Prod.mk.injEq] at run
      obtain ⟨rfl, rfl⟩ := run
      simpa using start
  | cons a as ih =>
      obtain ⟨m, es, rest, first, tail, rfl⟩ := exec_cons.mp run
      have after : I m (before ++ es) := keep s before a m es start along.1 first
      simpa using ih (along.2 m es first) (before ++ es) after tail

/-- Actions that meet the condition in every state. -/
theorem along_of_forall {C : σ → α → Prop} {as : List α} (always : ∀ a ∈ as, ∀ s, C s a) (s : σ) :
    M.Along C s as := by
  induction as generalizing s with
  | nil => trivial
  | cons a as ih =>
      exact ⟨always a List.mem_cons_self s, fun t _ _ =>
        ih (fun b mem => always b (List.mem_cons_of_mem _ mem)) t⟩

theorem along_cons {C : σ → α → Prop} {s t : σ} {a : α} {as : List α} {es : List ε}
    (met : C s a) (step : M.step s a = some (t, es)) (tail : M.Along C t as) :
    M.Along C s (a :: as) := by
  refine ⟨met, fun t' es' step' => ?_⟩
  obtain ⟨rfl, rfl⟩ : t = t' ∧ es = es' := by simpa [step] using step'
  exact tail

theorem along_cons_iff {C : σ → α → Prop} {s t : σ} {a : α} {as : List α} {es : List ε}
    (step : M.step s a = some (t, es)) : M.Along C s (a :: as) ↔ C s a ∧ M.Along C t as := by
  constructor
  · intro along
    exact ⟨along.1, along.2 t es step⟩
  · rintro ⟨met, tail⟩
    exact along_cons met step tail

theorem along_append {C : σ → α → Prop} {s t : σ} {as bs : List α} {log : List ε}
    (front : M.Along C s as) (run : M.exec s as = some (t, log)) (back : M.Along C t bs) :
    M.Along C s (as ++ bs) := by
  induction as generalizing s log with
  | nil =>
      simp only [exec_nil, Option.some.injEq, Prod.mk.injEq] at run
      exact run.1 ▸ back
  | cons a as ih =>
      obtain ⟨m, es, rest, first, tail, rfl⟩ := exec_cons.mp run
      exact along_cons front.1 first (ih (front.2 m es first) tail)

theorem along_of_append {C : σ → α → Prop} {s t : σ} {as bs : List α} {log : List ε}
    (along : M.Along C s (as ++ bs)) (run : M.exec s as = some (t, log)) :
    M.Along C s as ∧ M.Along C t bs := by
  induction as generalizing s log with
  | nil =>
      simp only [exec_nil, Option.some.injEq, Prod.mk.injEq] at run
      exact ⟨trivial, run.1 ▸ along⟩
  | cons a as ih =>
      obtain ⟨m, es, rest, first, tail, rfl⟩ := exec_cons.mp run
      obtain ⟨front, back⟩ := ih (along.2 m es first) tail
      exact ⟨along_cons along.1 first front, back⟩

/-- A run either meets the condition throughout or breaks it at a first step. -/
theorem along_or_first_break {C : σ → α → Prop} {s t : σ} {as : List α} {log : List ε}
    (run : M.exec s as = some (t, log)) :
    M.Along C s as ∨
      ∃ front a back m before after, as = front ++ a :: back ∧ M.Along C s front ∧
        M.exec s front = some (m, before) ∧ ¬ C m a ∧ M.exec m (a :: back) = some (t, after) ∧
        log = before ++ after := by
  induction as generalizing s log with
  | nil => exact .inl trivial
  | cons a as ih =>
      obtain ⟨m, es, rest, first, tail, rfl⟩ := exec_cons.mp run
      by_cases met : C s a
      · have next : ∀ m' es', M.step s a = some (m', es') → m = m' := fun m' es' step => by
          rw [first] at step
          exact congrArg Prod.fst (Option.some.inj step)
        rcases ih tail with along | ⟨front, b, back, u, before, after, rfl, along, run', broken,
          run'', rfl⟩
        · exact .inl ⟨met, fun m' es' step => next m' es' step ▸ along⟩
        · exact .inr ⟨a :: front, b, back, u, es ++ before, after, rfl,
            ⟨met, fun m' es' step => next m' es' step ▸ along⟩,
            exec_cons.mpr ⟨m, es, before, first, run', rfl⟩, broken, run'', by simp⟩
      · exact .inr ⟨[], a, as, s, [], es ++ rest, rfl, trivial, rfl, met, run, rfl⟩

/-- A decidable condition can be tested along a run. -/
instance decidableAlong (C : σ → α → Prop) [∀ s a, Decidable (C s a)] (s : σ) :
    (as : List α) → Decidable (M.Along C s as)
  | [] => .isTrue trivial
  | a :: as =>
      match h : M.step s a with
      | none => decidable_of_iff (C s a) ⟨fun met => ⟨met, fun _ _ step => by simp [h] at step⟩,
          And.left⟩
      | some (t, es) =>
          haveI := decidableAlong C t as
          decidable_of_iff (C s a ∧ M.Along C t as)
            ⟨fun both => along_cons both.1 h both.2, fun both => ⟨both.1, both.2 t es h⟩⟩

/-- Where a step keeps a property exactly under a condition, given an invariant, a run keeps it
in every state exactly when each of its steps meets the condition. -/
theorem along_iff_along_of_inv {C : σ → α → Prop} {I J : σ → Prop}
    (inv : ∀ s a t es, J s → M.step s a = some (t, es) → J t)
    (keeps : ∀ s a t es, J s → I s → M.step s a = some (t, es) → (I t ↔ C s a)) {s t : σ}
    {as : List α} {log : List ε} (holds : J s) (start : I s) (run : M.exec s as = some (t, log)) :
    (M.Along (fun u _ => I u) s as ∧ I t) ↔ M.Along C s as := by
  induction as generalizing s log with
  | nil =>
      simp only [exec_nil, Option.some.injEq, Prod.mk.injEq] at run
      exact ⟨fun _ => trivial, fun _ => ⟨trivial, run.1 ▸ start⟩⟩
  | cons a as ih =>
      obtain ⟨m, es, rest, first, tail, rfl⟩ := exec_cons.mp run
      have later := inv s a m es holds first
      constructor
      · rintro ⟨⟨_, next⟩, last⟩
        have along := next m es first
        have here : I m := by
          cases as with
          | nil =>
              simp only [exec_nil, Option.some.injEq, Prod.mk.injEq] at tail
              exact tail.1 ▸ last
          | cons b bs => exact along.1
        exact along_cons ((keeps s a m es holds start first).mp here) first
          ((ih later here tail).mp ⟨along, last⟩)
      · rintro ⟨met, next⟩
        have here : I m := (keeps s a m es holds start first).mpr met
        obtain ⟨along, last⟩ := (ih later here tail).mpr (next m es first)
        exact ⟨along_cons start first along, last⟩

/-- The same without an invariant. -/
theorem along_iff_along {C : σ → α → Prop} {I : σ → Prop}
    (keeps : ∀ s a t es, I s → M.step s a = some (t, es) → (I t ↔ C s a)) {s t : σ}
    {as : List α} {log : List ε} (start : I s) (run : M.exec s as = some (t, log)) :
    (M.Along (fun u _ => I u) s as ∧ I t) ↔ M.Along C s as :=
  along_iff_along_of_inv (J := fun _ => True) (fun _ _ _ _ _ _ => trivial)
    (fun s a t es _ => keeps s a t es) trivial start run

/-- Where a condition keeps an invariant, each step of a run has what follows from the two. -/
theorem along_of_inv {C D : σ → α → Prop} {I : σ → Prop}
    (keep : ∀ s a t es, I s → C s a → M.step s a = some (t, es) → I t)
    (gives : ∀ s a, I s → C s a → D s a) {s : σ} {as : List α} (start : I s)
    (along : M.Along C s as) : M.Along D s as := by
  induction as generalizing s with
  | nil => trivial
  | cons a as ih =>
      refine ⟨gives s a start along.1, fun t es step => ?_⟩
      exact ih (keep s a t es start along.1 step) (along.2 t es step)

/-- Where the first of two conditions keeps an invariant under which they are the same, a run meets
the one throughout exactly when it meets the other throughout. -/
theorem along_congr {C D : σ → α → Prop} {I : σ → Prop}
    (keep : ∀ s a t es, I s → C s a → M.step s a = some (t, es) → I t)
    (same : ∀ s a t es, I s → M.step s a = some (t, es) → (C s a ↔ D s a)) {s t : σ}
    {as : List α} {log : List ε} (start : I s) (run : M.exec s as = some (t, log)) :
    M.Along C s as ↔ M.Along D s as := by
  induction as generalizing s log with
  | nil => exact Iff.rfl
  | cons a as ih =>
      obtain ⟨m, es, rest, first, tail, rfl⟩ := exec_cons.mp run
      rw [along_cons_iff first, along_cons_iff first]
      have here := same s a m es start first
      constructor
      · rintro ⟨met, later⟩
        exact ⟨here.mp met, (ih (keep s a m es start met first) tail).mp later⟩
      · rintro ⟨met, later⟩
        have met' := here.mpr met
        exact ⟨met', (ih (keep s a m es start met' first) tail).mpr later⟩

/-- Where a step emits no events but good ones exactly under a condition, given an invariant, every
event of a run is good exactly when each of its steps meets the condition. -/
theorem forall_mem_iff_along {C : σ → α → Prop} {I : σ → Prop} {P : ε → Prop}
    (keep : ∀ s a t es, I s → M.step s a = some (t, es) → I t)
    (same : ∀ s a t es, I s → M.step s a = some (t, es) → ((∀ e ∈ es, P e) ↔ C s a)) {s t : σ}
    {as : List α} {log : List ε} (start : I s) (run : M.exec s as = some (t, log)) :
    (∀ e ∈ log, P e) ↔ M.Along C s as := by
  induction as generalizing s log with
  | nil =>
      cases run
      exact iff_of_true (by simp) trivial
  | cons a as ih =>
      obtain ⟨m, es, rest, first, tail, rfl⟩ := exec_cons.mp run
      rw [along_cons_iff first, List.forall_mem_append, same s a m es start first,
        ih (keep s a m es start first) tail]

theorem along_mono {C D : σ → α → Prop} (weaker : ∀ s a, C s a → D s a) {s : σ} {as : List α}
    (along : M.Along C s as) : M.Along D s as :=
  along_of_inv (I := fun _ => True) (fun _ _ _ _ _ _ _ => trivial)
    (fun s a _ met => weaker s a met) trivial along

theorem along_and {C D : σ → α → Prop} {s : σ} {as : List α} (first : M.Along C s as)
    (second : M.Along D s as) : M.Along (fun s a => C s a ∧ D s a) s as := by
  induction as generalizing s with
  | nil => trivial
  | cons a as ih =>
      exact ⟨⟨first.1, second.1⟩, fun t es step => ih (first.2 t es step) (second.2 t es step)⟩

/-- The invariant rule for all runs. -/
theorem exec_rec {I : σ → List ε → Prop}
    (keep : ∀ s log a t es, I s log → M.step s a = some (t, es) → I t (log ++ es))
    {s t : σ} {as : List α} {log : List ε} (before : List ε) (start : I s before)
    (run : M.exec s as = some (t, log)) : I t (before ++ log) :=
  exec_rec_of_along (C := fun _ _ => True) (fun s log a t es inv _ => keep s log a t es inv)
    (along_of_forall (fun _ _ _ => trivial) s) before start run

/-- The invariant rule for reachable states. -/
theorem Reachable.rec_inv {init I : σ → Prop} {t : σ} (reach : M.Reachable init t)
    (start : ∀ s, init s → I s)
    (keep : ∀ s a t es, I s → M.step s a = some (t, es) → I t) : I t := by
  obtain ⟨log, s, first, as, run⟩ := reach
  exact exec_rec (I := fun s _ => I s) (fun s _ a t es => keep s a t es) [] (start s first) run

theorem Runs.refl (s : σ) : M.Runs s s [] := ⟨[], rfl⟩

theorem Runs.trans {s t u : σ} {front back : List ε} (first : M.Runs s t front)
    (second : M.Runs t u back) : M.Runs s u (front ++ back) := by
  obtain ⟨as, run⟩ := first
  obtain ⟨bs, run'⟩ := second
  exact ⟨as ++ bs, exec_append.mpr ⟨t, front, back, run, run', rfl⟩⟩

theorem Runs.single {s t : σ} {a : α} {es : List ε} (move : M.step s a = some (t, es)) :
    M.Runs s t es :=
  ⟨[a], exec_cons.mpr ⟨t, es, [], move, rfl, by simp⟩⟩

theorem Reachable.step {init : σ → Prop} {s t : σ} {a : α} {es : List ε}
    (reach : M.Reachable init s) (move : M.step s a = some (t, es)) : M.Reachable init t := by
  obtain ⟨log, first, start, run⟩ := reach
  exact ⟨log ++ es, first, start, run.trans (Runs.single move)⟩

end System

end Transition
