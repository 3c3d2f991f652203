import OdroidPlayer.Lib.Transition
import Mathlib.Algebra.BigOperators.Group.Multiset.Basic
import Mathlib.Tactic.Abel

/-!
Code that allocates and frees blocks of memory.

The code of a function is what it does to blocks, given what its calls of `malloc` return,
and the value that it returns. `Triple` is the rule of ownership: code that is given some
blocks leaves others, whatever else is allocated, so that it frees nothing twice and uses
nothing that has been freed. Threads whose steps are such code have allocated, in every
state, exactly the blocks that the state owns (`Owner.Sound.exec`).
-/

namespace Blocks

open Transition Transition.System

/-- What is done to a block; a pointer may be NULL. -/
inductive Op where
  | alloc (b : Nat)
  | free (p : Option Nat)
  | access (p : Option Nat)
  deriving DecidableEq, Repr

inductive Stop where
  /-- `malloc` does not return a block that is allocated. -/
  | impossible
  /-- A block that is not allocated is freed or accessed, or NULL is accessed. -/
  | fault
  deriving DecidableEq, Repr

/-- The blocks that are allocated behind the operations. -/
def exec : Multiset Nat → List Op → Except Stop (Multiset Nat)
  | live, [] => .ok live
  | live, .alloc b :: ops => if b ∈ live then .error .impossible else exec (b ::ₘ live) ops
  | live, .free none :: ops => exec live ops
  | live, .free (some b) :: ops => if b ∈ live then exec (live.erase b) ops else .error .fault
  | _, .access none :: _ => .error .fault
  | live, .access (some b) :: ops => if b ∈ live then exec live ops else .error .fault

structure Code (α : Type) where
  ops : List Op
  value : α

instance : Monad Code where
  pure a := ⟨[], a⟩
  bind c f := ⟨c.ops ++ (f c.value).ops, (f c.value).value⟩

variable {α β : Type} {a : α} {c : Code α} {f : α → Code β} {live next : Multiset Nat}

@[simp] theorem pure_ops : (pure a : Code α).ops = [] := rfl

@[simp] theorem pure_value : (pure a : Code α).value = a := rfl

@[simp] theorem bind_ops : (c >>= f).ops = c.ops ++ (f c.value).ops := rfl

@[simp] theorem bind_value : (c >>= f).value = (f c.value).value := rfl

/-- A call that returns `p`. -/
def malloc (p : Option Nat) : Code (Option Nat) := ⟨p.toList.map .alloc, p⟩

def free (p : Option Nat) : Code Unit := ⟨[.free p], ()⟩

def access (p : Option Nat) : Code Unit := ⟨[.access p], ()⟩

/-- The accesses of code that does nothing else to these blocks. -/
def touch (bs : List Nat) : Code Unit := bs.forM fun b => access (some b)

@[simp] theorem malloc_value (p : Option Nat) : (malloc p).value = p := rfl

theorem exec_append (ops ops' : List Op) :
    exec live (ops ++ ops') = (exec live ops).bind fun next => exec next ops' := by
  fun_induction exec live ops <;> simp_all [exec, Except.bind]

/-- The block of a pointer. -/
def pointer : Option Nat → Multiset Nat
  | none => 0
  | some b => {b}

@[simp] theorem pointer_none : pointer none = 0 := rfl

@[simp] theorem pointer_some (b : Nat) : pointer (some b) = {b} := rfl

/-! ### Ownership -/

/-- Whoever owns `pre` can execute the code and owns `post` of its value then. -/
def Triple (pre : Multiset Nat) (c : Code α) (post : α → Multiset Nat) : Prop :=
  ∀ rest, exec (pre + rest) c.ops = .error .impossible ∨
    exec (pre + rest) c.ops = .ok (post c.value + rest)

/-- Whoever owns `pre` cannot execute the code. -/
def Faults (pre : Multiset Nat) (c : Code α) : Prop :=
  ∀ rest, exec (pre + rest) c.ops = .error .impossible ∨
    exec (pre + rest) c.ops = .error .fault

/-- The code cannot be executed when exactly these blocks are allocated. -/
def FaultsAt (live : Multiset Nat) (c : Code α) : Prop :=
  exec live c.ops = .error .impossible ∨ exec live c.ops = .error .fault

section Rules

variable {P P' R : Multiset Nat} {Q : α → Multiset Nat} {S : β → Multiset Nat}

theorem Triple.pure (eq : P = Q a) : Triple P (pure a : Code α) Q := by
  intro rest
  exact .inr (by simp [exec, eq])

theorem Triple.bind (first : Triple P c Q) (next : Triple (Q c.value) (f c.value) S) :
    Triple P (c >>= f) S := by
  intro rest
  rw [bind_ops, exec_append, bind_value]
  rcases first rest with stop | go
  · rw [stop]
    exact .inl rfl
  · rw [go]
    exact next rest

theorem Triple.frame (triple : Triple P c Q) (R : Multiset Nat) :
    Triple (P + R) c fun a => Q a + R := by
  intro rest
  rw [add_assoc, add_assoc]
  exact triple (R + rest)

theorem Triple.of_eq (triple : Triple P c Q) (eq : P' = P) {Q' : α → Multiset Nat}
    (same : Q' c.value = Q c.value) : Triple P' c Q' := by
  intro rest
  rw [eq, same]
  exact triple rest

/-- A call of code that needs only a part of the blocks. -/
theorem Triple.call (triple : Triple P c Q) (eq : P' = P + R)
    (next : Triple (Q c.value + R) (f c.value) S) : Triple P' (c >>= f) S :=
  have framed : Triple P' c fun a => Q a + R := (triple.frame R).of_eq eq rfl
  Triple.bind framed next

theorem Triple.malloc (p : Option Nat) : Triple 0 (malloc p) pointer := by
  intro rest
  cases p with
  | none => exact .inr (by simp [Blocks.malloc, exec])
  | some b =>
      by_cases taken : b ∈ rest
      · exact .inl (by simp [Blocks.malloc, exec, taken])
      · exact .inr (by simp [Blocks.malloc, exec, taken])

theorem Triple.free (p : Option Nat) : Triple (pointer p) (free p) fun _ => 0 := by
  intro rest
  cases p <;> exact .inr (by simp [Blocks.free, exec])

theorem Triple.access (b : Nat) : Triple {b} (access (some b)) fun _ => {b} := by
  intro rest
  exact .inr (by simp [Blocks.access, exec])

/-- A loop that consumes what belongs to the element of each round. -/
theorem Triple.forM {as : List α} {f : α → Code PUnit} {K : Multiset Nat} {P : α → Multiset Nat}
    (each : ∀ a ∈ as, Triple (P a + K) (f a) fun _ => K) :
    Triple ((as.map P).sum + K) (as.forM f) fun _ => K := by
  induction as with
  | nil => exact Triple.pure (by simp)
  | cons a as ih =>
      have later := ih fun x mem => each x (List.mem_cons_of_mem _ mem)
      refine Triple.call (R := (as.map P).sum) (each a List.mem_cons_self) ?_
        (later.of_eq (add_comm _ _) rfl)
      rw [List.map_cons, List.sum_cons]
      abel

/-- A loop whose rounds leave the blocks as they are. -/
theorem Triple.forM_keep {as : List α} {f : α → Code PUnit} {K : Multiset Nat}
    (each : ∀ a ∈ as, Triple K (f a) fun _ => K) : Triple K (as.forM f) fun _ => K := by
  have rounds : Triple ((as.map fun _ => (0 : Multiset Nat)).sum + K) (as.forM f) fun _ => K :=
    Triple.forM fun a mem => (each a mem).of_eq (zero_add K) rfl
  exact rounds.of_eq (by simp) rfl

/-- A loop that makes something in each round. -/
theorem Triple.forM_make {as : List α} {f : α → Code PUnit} {Q : α → Multiset Nat}
    (each : ∀ a, Triple 0 (f a) fun _ => Q a) :
    Triple 0 (as.forM f) fun _ => (as.map Q).sum := by
  induction as with
  | nil => exact Triple.pure rfl
  | cons a as ih =>
      refine Triple.call (R := 0) (each a) rfl ?_
      exact (ih.frame (Q a)).of_eq (add_comm _ _) (add_comm _ _)

theorem Faults.bind_left (faults : Faults P c) : Faults P (c >>= f) := by
  intro rest
  rw [bind_ops, exec_append]
  rcases faults rest with stop | stop <;> rw [stop]
  · exact .inl rfl
  · exact .inr rfl

/-- A call behind which the code faults. -/
theorem Faults.call (triple : Triple P c Q) (eq : P' = P + R)
    (faults : Faults (Q c.value + R) (f c.value)) : Faults P' (c >>= f) := by
  intro rest
  rw [bind_ops, exec_append, eq]
  rcases triple.frame R rest with stop | go
  · rw [stop]
    exact .inl rfl
  · rw [go]
    exact faults rest

theorem Faults.access : Faults P (access none) := fun _ => .inr rfl

theorem Faults.frame (faults : Faults P c) (R : Multiset Nat) : Faults (P + R) c := by
  intro rest
  rw [add_assoc]
  exact faults (R + rest)

theorem Faults.at (faults : Faults P c) : FaultsAt P c := by
  have alone := faults 0
  rwa [add_zero] at alone

theorem FaultsAt.bind_left (faults : FaultsAt P c) : FaultsAt P (c >>= f) := by
  unfold FaultsAt
  rw [bind_ops, exec_append]
  rcases faults with stop | stop <;> rw [stop]
  · exact .inl rfl
  · exact .inr rfl

theorem FaultsAt.call (triple : Triple P c Q) (eq : P' = P + R)
    (faults : FaultsAt (Q c.value + R) (f c.value)) : FaultsAt P' (c >>= f) := by
  unfold FaultsAt
  rw [bind_ops, exec_append, eq]
  rcases triple R with stop | go
  · rw [stop]
    exact .inl rfl
  · rw [go]
    exact faults

theorem FaultsAt.access {b : Nat} (gone : b ∉ live) : FaultsAt live (access (some b)) :=
  .inr (by simp [Blocks.access, exec, gone])

theorem Triple.access_of_mem {b : Nat} (owned : b ∈ P) :
    Triple P (Blocks.access (some b)) fun _ => P := by
  obtain ⟨rest, rfl⟩ := Multiset.exists_cons_of_mem owned
  rw [← Multiset.singleton_add]
  exact (Triple.access b).frame rest

/-- Whoever owns the blocks that are touched may touch them. -/
theorem touch_triple {bs : List Nat} (owned : ∀ b ∈ bs, b ∈ P) :
    Triple P (touch bs) fun _ => P :=
  Triple.forM_keep fun b mem => Triple.access_of_mem (owned b mem)

theorem touch_faults {bs : List Nat} {b : Nat} (touched : b ∈ bs) (gone : b ∉ live) :
    FaultsAt live (touch bs) := by
  induction bs with
  | nil => cases touched
  | cons first bs ih =>
      by_cases there : first ∈ live
      · have later : b ∈ bs := by
          rcases List.mem_cons.mp touched with rfl | later
          · exact absurd there gone
          · exact later
        refine FaultsAt.call (R := 0) (Triple.access_of_mem there) (add_zero _).symm ?_
        rw [add_zero]
        exact ih later
      · exact (FaultsAt.access there).bind_left

end Rules

/-! ### Code that is abandoned -/

/-- What is framed by other blocks goes on as it did, unless `malloc` cannot return one of them. -/
theorem exec_frame (live : Multiset Nat) (ops : List Op) (rest : Multiset Nat) :
    (exec live ops = .error .impossible → exec (live + rest) ops = .error .impossible) ∧
      ∀ next, exec live ops = .ok next →
        exec (live + rest) ops = .error .impossible ∨
          exec (live + rest) ops = .ok (next + rest) := by
  fun_induction exec live ops with
  | case1 live => simp [exec]
  | case2 live b ops taken => simp [exec, taken]
  | case3 live b ops free ih =>
      by_cases taken : b ∈ rest
      · simp [exec, taken]
      · simpa [exec, free, taken] using ih
  | case4 live ops ih => simpa [exec] using ih
  | case5 live b ops mem ih => simpa [exec, mem, Multiset.erase_add_left_pos rest mem] using ih
  | case6 live b ops gone => simp
  | case7 live ops => simp
  | case8 live b ops mem ih => simpa [exec, mem] using ih
  | case9 live b ops gone => simp

/-- The first operations of code that owns `pre`, and what it owns behind them. -/
def struck (pre : Multiset Nat) (c : Code α) (operations : Nat) : Code (Multiset Nat) :=
  ⟨c.ops.take operations, match exec pre (c.ops.take operations) with
    | .ok blocks => blocks
    | .error _ => pre⟩

theorem Triple.struck {pre : Multiset Nat} {post : α → Multiset Nat} (triple : Triple pre c post)
    (operations : Nat) : Triple pre (struck pre c operations) fun left => left := by
  intro rest
  have whole := triple 0
  rw [add_zero, ← List.take_append_drop operations c.ops, exec_append] at whole
  obtain ⟨stops, goes⟩ := exec_frame pre (c.ops.take operations) rest
  simp only [Blocks.struck]
  cases done : exec pre (c.ops.take operations) with
  | ok next => exact goes next done
  | error stop =>
      cases stop with
      | impossible => exact .inl (stops done)
      | fault => simp [done, Except.bind] at whole

theorem exec_le {ops : List Op} (noFree : ∀ p, .free p ∉ ops) (done : exec live ops = .ok next) :
    live ≤ next := by
  fun_induction exec live ops with
  | case1 live =>
      cases done
      exact le_rfl
  | case2 => cases done
  | case3 live b ops _ ih =>
      exact (Multiset.le_cons_self live b).trans
        (ih (fun p mem => noFree p (List.mem_cons_of_mem _ mem)) done)
  | case4 live ops ih => exact absurd List.mem_cons_self (noFree none)
  | case5 live b ops mem ih => exact absurd List.mem_cons_self (noFree (some b))
  | case6 => cases done
  | case7 => cases done
  | case8 live b ops mem ih => exact ih (fun p mem => noFree p (List.mem_cons_of_mem _ mem)) done
  | case9 => cases done

/-- Code that frees nothing leaves what it has been given. -/
theorem le_struck (pre : Multiset Nat) (noFree : ∀ p, .free p ∉ c.ops) (operations : Nat) :
    pre ≤ (struck pre c operations).value := by
  simp only [struck]
  split
  next blocks done => exact exec_le (fun p mem => noFree p (List.mem_of_mem_take mem)) done
  · exact le_rfl

/-! ### Threads -/

/-- The steps of some threads, and the blocks that a state owns. -/
structure Owner (σ α : Type) where
  step : σ → α → Option (Code σ)
  blocks : σ → Multiset Nat

structure Running (σ : Type) where
  live : Multiset Nat
  state : σ
  faulted : Bool

variable {σ : Type} {M : Owner σ α}

/-- The events are what is done to the blocks. -/
def Owner.machine (M : Owner σ α) : System (Running σ) α Op where
  step s a :=
    if s.faulted = true then none
    else
      match M.step s.state a with
      | none => none
      | some c =>
          match exec s.live c.ops with
          | .ok live => some (⟨live, c.value, false⟩, c.ops)
          | .error .impossible => none
          | .error .fault => some ({ s with faulted := true }, [])

/-- Under the invariant `I` a step that meets `C` can be executed by the owner of the blocks of the
state and leaves him those of the next one; any other step cannot be executed. -/
structure Owner.Sound (M : Owner σ α) (C : σ → α → Prop) (I : σ → Prop) : Prop where
  keeps : ∀ s a c, I s → M.step s a = some c → C s a → Triple (M.blocks s) c M.blocks ∧ I c.value
  faults : ∀ s a c, I s → M.step s a = some c → ¬ C s a → FaultsAt (M.blocks s) c

/-- Exactly the blocks of the state are allocated. -/
def Owner.Owns (M : Owner σ α) (I : σ → Prop) (s : Running σ) : Prop :=
  s.faulted = false ∧ s.live = M.blocks s.state ∧ I s.state

theorem Owner.Sound.step {C : σ → α → Prop} {I : σ → Prop} (sound : M.Sound C I)
    {s t : Running σ} {a : α} {ops : List Op} (owns : M.Owns I s)
    (step : M.machine.step s a = some (t, ops)) :
    (C s.state a ∧ M.Owns I t) ∨ (¬ C s.state a ∧ t.faulted = true) := by
  obtain ⟨on, live, inv⟩ := owns
  simp only [machine, on, Bool.false_eq_true, if_false] at step
  split at step
  · cases step
  next c code =>
      rw [live] at step
      by_cases met : C s.state a
      · obtain ⟨triple, inv'⟩ := sound.keeps s.state a c inv code met
        have after := triple 0
        rw [add_zero, add_zero] at after
        rcases after with stop | go
        · rw [stop] at step
          cases step
        · rw [go] at step
          cases step
          exact .inl ⟨met, rfl, rfl, inv'⟩
      · rcases sound.faults s.state a c inv code met with stop | stop
        · rw [stop] at step
          cases step
        · rw [stop] at step
          cases step
          exact .inr ⟨met, rfl⟩

/-- Nothing is executed behind a fault. -/
theorem Owner.run_faulted {s t : Running σ} {as : List α} {log : List Op}
    (run : M.machine.exec s as = some (t, log)) (on : t.faulted = false) : s.faulted = false := by
  cases as with
  | nil =>
      cases run
      exact on
  | cons a as =>
      obtain ⟨_, _, _, first, _⟩ := exec_cons.mp run
      by_contra faulted
      simp [machine, faulted] at first

/-- In every run: if each step meets the condition, exactly the blocks of the state are allocated at
the end, and nothing has been freed twice or accessed when it was not allocated; otherwise something
has. -/
theorem Owner.Sound.exec {C : σ → α → Prop} {I : σ → Prop} (sound : M.Sound C I)
    {s t : Running σ} {as : List α} {log : List Op} (owns : M.Owns I s)
    (run : M.machine.exec s as = some (t, log)) :
    (M.machine.Along (fun s a => C s.state a) s as ∧ M.Owns I t) ∨
      (¬ M.machine.Along (fun s a => C s.state a) s as ∧ t.faulted = true) := by
  induction as generalizing s log with
  | nil =>
      cases run
      exact .inl ⟨trivial, owns⟩
  | cons a as ih =>
      obtain ⟨m, ops, rest, first, tail, rfl⟩ := exec_cons.mp run
      rw [along_cons_iff first]
      rcases sound.step owns first with ⟨met, here⟩ | ⟨broken, faulted⟩
      · rcases ih here tail with ⟨along, last⟩ | ⟨broken, faulted⟩
        · exact .inl ⟨⟨met, along⟩, last⟩
        · exact .inr ⟨fun both => broken both.2, faulted⟩
      · refine .inr ⟨fun both => broken both.1, ?_⟩
        by_contra on
        have before := run_faulted tail (by simpa using on)
        exact absurd (before.symm.trans faulted) (by decide)

/-! ### How often a block is freed -/

def allocs (b : Nat) (ops : List Op) : Nat := ops.count (.alloc b)

def frees (b : Nat) (ops : List Op) : Nat := ops.count (.free (some b))

/-- The steps lose blocks that nobody has a pointer to any more, and those that meet `K` lose
none. -/
def Owner.Loses (M : Owner σ α) (C K : σ → α → Prop) (I : σ → Prop) (lost : σ → Multiset Nat) :
    Prop :=
  ∀ s a c, I s → M.step s a = some c → C s a →
    ∃ left, lost c.value = lost s + left ∧ (left = 0 ↔ K s a)

end Blocks
