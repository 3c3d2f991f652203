import OdroidPlayer.Lib.Transition
import Mathlib.Data.List.Infix

/-!
Past-time properties of a log of events, oldest event first.

`SinceLast` looks back to the last event of some kind; `EachAt` says something of every
event in view of the events before it. Both are extended along a run by appending the
events of a step.
-/

namespace Transition

universe u v w

variable {ε : Type u}

/-- `P` held when `e` was logged, and every event since then satisfies `keeps`. -/
def SinceLast (keeps : ε → Bool) (P : List ε → Prop) (e : ε) (log : List ε) : Prop :=
  ∃ front back, log = front ++ e :: back ∧ P front ∧ ∀ x ∈ back, keeps x = true

namespace SinceLast

variable {keeps : ε → Bool} {P : List ε → Prop} {e : ε} {log : List ε}

theorem here (holds : P log) {back : List ε} (quiet : ∀ x ∈ back, keeps x = true) :
    SinceLast keeps P e (log ++ e :: back) :=
  ⟨log, back, rfl, holds, quiet⟩

theorem append (since : SinceLast keeps P e log) {es : List ε}
    (quiet : ∀ x ∈ es, keeps x = true) : SinceLast keeps P e (log ++ es) := by
  obtain ⟨front, back, rfl, holds, quiet'⟩ := since
  refine ⟨front, back ++ es, by simp, holds, fun x mem => ?_⟩
  exact (List.mem_append.mp mem).elim (quiet' x) (quiet x)

end SinceLast

/-- Every event is related by `P` to the events before it. -/
def EachAt (P : List ε → ε → Prop) (log : List ε) : Prop :=
  ∀ front e, front ++ [e] <+: log → P front e

namespace EachAt

variable {P : List ε → ε → Prop} {log : List ε}

theorem nil : EachAt P [] := by
  intro front e before
  simp at before

theorem concat (each : EachAt P log) {e : ε} (next : P log e) : EachAt P (log ++ [e]) := by
  intro front x before
  rcases List.prefix_concat_iff.mp before with same | before
  · obtain ⟨rfl, eq⟩ := List.append_inj' same rfl
    cases eq
    exact next
  · exact each front x before

/-- Events of which `P` always holds may be appended. -/
theorem append (each : EachAt P log) {es : List ε} (free : ∀ e ∈ es, ∀ front, P front e) :
    EachAt P (log ++ es) := by
  induction es generalizing log with
  | nil => simpa using each
  | cons e es ih =>
      have next := each.concat (free e List.mem_cons_self log)
      simpa using ih next fun x mem => free x (List.mem_cons_of_mem _ mem)

end EachAt

/-- Every event of a list is related by `P` to the events before it, of which `before` are
the first. -/
def EachAfter (P : List ε → ε → Prop) (before : List ε) : List ε → Prop
  | [] => True
  | e :: es => P before e ∧ EachAfter P (before ++ [e]) es

section EachAfter

variable {P : List ε → ε → Prop}

theorem eachAfter_iff {before es : List ε} :
    EachAfter P before es ↔ ∀ front e, front ++ [e] <+: es → P (before ++ front) e := by
  induction es generalizing before with
  | nil =>
      constructor
      · intro _ front e pre
        simp at pre
      · intro _
        trivial
  | cons x es ih =>
      rw [EachAfter, ih]
      constructor
      · rintro ⟨first, rest⟩ front e pre
        cases front with
        | nil =>
            obtain ⟨rfl, _⟩ := List.cons_prefix_cons.mp pre
            simpa using first
        | cons y front =>
            obtain ⟨rfl, later⟩ := List.cons_prefix_cons.mp pre
            simpa using rest front e later
      · intro each
        refine ⟨by simpa using each [] x (by simp), fun front e pre => ?_⟩
        have later := each (x :: front) e (List.cons_prefix_cons.mpr ⟨rfl, pre⟩)
        simpa using later

theorem eachAt_iff {log : List ε} : EachAt P log ↔ EachAfter P [] log := by
  rw [eachAfter_iff]
  rfl

theorem eachAfter_append {before es rest : List ε} :
    EachAfter P before (es ++ rest) ↔
      EachAfter P before es ∧ EachAfter P (before ++ es) rest := by
  induction es generalizing before with
  | nil => simp [EachAfter]
  | cons e es ih =>
      rw [List.cons_append, EachAfter, ih, EachAfter, and_assoc, List.append_assoc,
        List.singleton_append]

variable {σ : Type v} {α : Type w} {M : System σ α ε}

/-- The invariant `I` is kept by every step; under it the events of a step are as `P` says
exactly when the step meets the condition. -/
theorem eachAt_iff_along {C : σ → α → Prop} {I : σ → List ε → Prop}
    (keep : ∀ s log a t es, I s log → M.step s a = some (t, es) → I t (log ++ es))
    (each : ∀ s log a t es, I s log → M.step s a = some (t, es) → (EachAfter P log es ↔ C s a))
    {s t : σ} {as : List α} {log : List ε} (start : I s [])
    (run : M.exec s as = some (t, log)) : EachAt P log ↔ M.Along C s as := by
  have general : ∀ before, I s before → (EachAfter P before log ↔ M.Along C s as) := by
    clear start
    induction as generalizing s log with
    | nil =>
        intro before _
        simp only [System.exec_nil, Option.some.injEq, Prod.mk.injEq] at run
        obtain ⟨_, rfl⟩ := run
        exact ⟨fun _ => trivial, fun _ => trivial⟩
    | cons a as ih =>
        intro before inv
        obtain ⟨m, es, rest, first, tail, rfl⟩ := System.exec_cons.mp run
        rw [eachAfter_append, each s before a m es inv first,
          ih tail (before ++ es) (keep s before a m es inv first)]
        constructor
        · rintro ⟨met, along⟩
          exact System.along_cons met first along
        · intro along
          exact ⟨along.1, along.2 m es first⟩
  exact eachAt_iff.trans (general [] start)

end EachAfter

end Transition
