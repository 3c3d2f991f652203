import OdroidPlayer.Lib.Blocks
import OdroidPlayer.Message

/-!
The blocks of a `t_node` (`create_node` and `remove_node` of `utils/queue.c`, which are the
same on the server and in the client library).

A node owns its own block, the array of its strings and every string that `strdup` could
copy. `create_node` leaves the strings it copies with their owner (`createNode_triple`), and
`remove_node` frees what a node owns (`removeNode_triple`).
-/

namespace OdroidPlayer

open Blocks

/-- A `char**`, with the pointers in it. -/
structure CharArray where
  array : Nat
  strings : List (Option Nat)
  deriving DecidableEq, Repr

def CharArray.blocks (data : CharArray) : Multiset Nat :=
  {data.array} + (data.strings.map pointer).sum

theorem blocks_one (array : Nat) (s : Option Nat) :
    CharArray.blocks ⟨array, [s]⟩ = {array} + pointer s := by
  simp only [CharArray.blocks, List.map_cons, List.map_nil, List.sum_cons, List.sum_nil, add_zero]

theorem blocks_concat (array : Nat) (strings : List (Option Nat)) (s : Option Nat) :
    CharArray.blocks ⟨array, strings ++ [s]⟩ = pointer s + CharArray.blocks ⟨array, strings⟩ := by
  simp only [CharArray.blocks, List.map_append, List.sum_append, List.map_cons, List.map_nil,
    List.sum_cons, List.sum_nil, add_zero]
  abel

structure NodeHead where
  status : Int32
  type : Int32
  cmd : Int32
  msgIdx : Int32
  deriving DecidableEq, Repr

/-- A `t_node`, or an `AMessage` that has been unpacked. -/
structure NodeBlocks where
  block : Nat
  head : NodeHead
  data : Option CharArray
  deriving DecidableEq, Repr

/-- The blocks of a pointer to an array, or NULL. -/
def arrayBlocks (data : Option CharArray) : Multiset Nat := data.elim 0 CharArray.blocks

@[simp] theorem arrayBlocks_none : arrayBlocks none = 0 := rfl

@[simp] theorem arrayBlocks_some (data : CharArray) : arrayBlocks (some data) = data.blocks := rfl

def NodeBlocks.blocks (node : NodeBlocks) : Multiset Nat := {node.block} + arrayBlocks node.data

def nodeBlocks (node : Option NodeBlocks) : Multiset Nat := node.elim 0 NodeBlocks.blocks

@[simp] theorem nodeBlocks_none : nodeBlocks none = 0 := rfl

@[simp] theorem nodeBlocks_some (node : NodeBlocks) : nodeBlocks (some node) = node.blocks := rfl

/-- The results of the calls of `malloc` in `create_node`. -/
structure NodeMallocs where
  node : Option Nat
  array : Option Nat
  /-- `strdup`, by the strings -/
  strings : List (Option Nat)
  deriving DecidableEq, Repr

def strdup (s : Nat) (p : Option Nat) : Code (Option Nat) := do
  access (some s)
  malloc p

/-- The loop of `create_node`: the pointers that are written to the array `to`. -/
def copyStrings (source target : Nat) : List (Option Nat) → List (Option Nat) →
    Code (List (Option Nat))
  | [], _ => pure []
  | none :: strings, results => do
      access (some source)
      access (some target)
      let copies ← copyStrings source target strings results.tail
      pure (none :: copies)
  | some s :: strings, results => do
      access (some source)
      let copy ← strdup s results.head?.join
      access (some target)
      let copies ← copyStrings source target strings results.tail
      pure (copy :: copies)

def createNode (head : NodeHead) (data : Option CharArray) (results : NodeMallocs) :
    Code (Option NodeBlocks) := do
  match ← malloc results.node with
  | none => pure none
  | some node =>
      access (some node)
      match data with
      | none => pure (some ⟨node, head, none⟩)
      | some data =>
          match ← malloc results.array with
          | none =>
              free (some node)
              pure none
          | some array =>
              let copies ← copyStrings data.array array data.strings results.strings
              pure (some ⟨node, head, some ⟨array, copies⟩⟩)

/-- `free_data`, and the loop of `remove_node`. -/
def freeData (data : CharArray) : Code Unit := do
  data.strings.forM fun s => do
    access (some data.array)
    free s
  free (some data.array)

def removeNode (node : NodeBlocks) : Code Unit := do
  access (some node.block)
  match node.data with
  | none => pure ()
  | some data => freeData data
  free (some node.block)

/-- The array has a first string, which may be NULL. -/
def HasString (data : Option CharArray) : Prop :=
  ∃ array s strings, data = some ⟨array, s :: strings⟩

instance (data : Option CharArray) : Decidable (HasString data) :=
  match data with
  | none => .isFalse (by simp [HasString])
  | some ⟨_, []⟩ => .isFalse (by simp [HasString])
  | some ⟨array, s :: strings⟩ => .isTrue ⟨array, s, strings, rfl⟩

/-- `data[0]` -/
def firstOf : Option CharArray → Code (Option Nat)
  | some ⟨array, s :: _⟩ => do
      access (some array)
      pure s
  | _ => do
      access none
      pure none

@[simp] theorem strdup_value (s : Nat) (p : Option Nat) : (strdup s p).value = p := rfl

section Triples

variable {head : NodeHead} {results : NodeMallocs}

theorem strdup_triple (s : Nat) (p : Option Nat) :
    Triple {s} (strdup s p) fun p => {s} + pointer p :=
  Triple.bind (Triple.access s) <|
    ((Triple.malloc p).frame {s}).of_eq (zero_add _).symm (add_comm _ _)

theorem copyStrings_triple (source target : Nat) (strings copies : List (Option Nat)) :
    Triple ({source} + {target} + (strings.map pointer).sum)
      (copyStrings source target strings copies)
      fun copies => {source} + {target} + (strings.map pointer).sum + (copies.map pointer).sum := by
  induction strings generalizing copies with
  | nil => exact Triple.pure (by simp)
  | cons s strings ih =>
      cases s with
      | none =>
          simp only [List.map_cons, List.sum_cons, pointer_none, zero_add]
          refine Triple.call (Triple.access source) (R := {target} + (strings.map pointer).sum)
            (add_assoc _ _ _) ?_
          refine Triple.call (Triple.access target) (R := {source} + (strings.map pointer).sum)
            (by abel) ?_
          refine Triple.call (R := 0) (ih copies.tail) (by abel) (Triple.pure ?_)
          rw [add_zero, List.map_cons, List.sum_cons, pointer_none, zero_add]
      | some s =>
          simp only [List.map_cons, List.sum_cons, pointer_some]
          refine Triple.call (Triple.access source)
            (R := {target} + {s} + (strings.map pointer).sum) (by abel) ?_
          refine Triple.call (strdup_triple s _)
            (R := {source} + {target} + (strings.map pointer).sum) (by abel) ?_
          refine Triple.call (Triple.access target)
            (R := {source} + {s} + pointer copies.head?.join + (strings.map pointer).sum)
            (by rw [strdup_value]; abel) ?_
          refine Triple.call (R := {s} + pointer copies.head?.join) (ih copies.tail) (by abel)
            (Triple.pure ?_)
          rw [List.map_cons, List.sum_cons, strdup_value]
          abel

/-- The strings that are copied stay with their owner. -/
theorem createNode_triple (data : Option CharArray) :
    Triple (arrayBlocks data) (createNode head data results)
      fun node => arrayBlocks data + nodeBlocks node := by
  unfold createNode
  refine Triple.call (Triple.malloc results.node) (zero_add _).symm ?_
  rw [malloc_value]
  cases results.node with
  | none => exact Triple.pure (add_comm _ _)
  | some node =>
      refine Triple.call (Triple.access node) rfl ?_
      cases data with
      | none => exact Triple.pure (by simp [NodeBlocks.blocks])
      | some data =>
          refine Triple.call (Triple.malloc results.array) (zero_add _).symm ?_
          rw [malloc_value]
          cases results.array with
          | none =>
              refine Triple.call (Triple.free (some node)) (R := data.blocks) ?_ (Triple.pure ?_)
              · rw [pointer_none, arrayBlocks_some, pointer_some, zero_add]
              · rw [arrayBlocks_some, nodeBlocks_none, zero_add, add_zero]
          | some array =>
              refine Triple.call (copyStrings_triple data.array array data.strings results.strings)
                (R := {node}) ?_ (Triple.pure ?_)
              · rw [pointer_some, arrayBlocks_some, CharArray.blocks]
                abel
              · rw [arrayBlocks_some, nodeBlocks_some, NodeBlocks.blocks, arrayBlocks_some,
                  CharArray.blocks, CharArray.blocks]
                abel

theorem freeData_triple (data : CharArray) : Triple data.blocks (freeData data) fun _ => 0 := by
  refine Triple.call (R := 0) (Triple.forM (K := {data.array}) fun s _ => ?_)
    ((add_comm _ _).trans (add_zero _).symm)
    ((Triple.free (some data.array)).of_eq (add_zero _) rfl)
  refine Triple.call (Triple.access data.array) (add_comm _ _) ?_
  exact ((Triple.free s).frame {data.array}).of_eq (add_comm _ _) (zero_add _).symm

theorem removeNode_triple (node : NodeBlocks) :
    Triple node.blocks (removeNode node) fun _ => 0 := by
  obtain ⟨block, head, data⟩ := node
  refine Triple.call (Triple.access block) rfl ?_
  cases data with
  | none => exact (Triple.free (some block)).of_eq (add_zero _) rfl
  | some data =>
      exact Triple.call (freeData_triple data) (add_comm _ _)
        ((Triple.free (some block)).of_eq (zero_add _) rfl)

/-- A string that is not NULL is one of the blocks. -/
theorem firstOf_triple {data : Option CharArray} (has : HasString data) :
    Triple (arrayBlocks data) (firstOf data) fun _ => arrayBlocks data := by
  obtain ⟨array, s, strings, rfl⟩ := has
  exact Triple.call (Triple.access array) rfl (Triple.pure rfl)

theorem firstOf_faults {data : Option CharArray} (P : Multiset Nat) (lacks : ¬ HasString data) :
    Faults P (firstOf data) := by
  match data with
  | none => exact Faults.access.bind_left
  | some ⟨_, []⟩ => exact Faults.access.bind_left
  | some ⟨array, s :: strings⟩ => exact absurd ⟨array, s, strings, rfl⟩ lacks

theorem copyStrings_noFree (source target : Nat) (strings copies : List (Option Nat))
    (p : Option Nat) : .free p ∉ (copyStrings source target strings copies).ops := by
  induction strings generalizing copies with
  | nil => simp [copyStrings]
  | cons s strings ih => cases s <;> simp [copyStrings, strdup, access, malloc, ih]

/-- A copy has as many strings. -/
theorem createNode_value {data : Option CharArray} {node : NodeBlocks}
    (created : (createNode head data results).value = some node) :
    node.head = head ∧ (HasString data → HasString node.data) := by
  unfold createNode at created
  cases made : results.node with
  | none => simp [made] at created
  | some block =>
      cases data with
      | none =>
          simp only [made, bind_value, malloc_value, pure_value, Option.some.injEq] at created
          subst created
          exact ⟨rfl, id⟩
      | some data =>
          cases array : results.array with
          | none => simp [made, array] at created
          | some array =>
              simp only [made, array, bind_value, malloc_value, pure_value,
                Option.some.injEq] at created
              subst created
              refine ⟨rfl, ?_⟩
              rintro ⟨source, s, strings, eq⟩
              cases eq
              cases s <;> exact ⟨_, _, _, rfl⟩

end Triples

end OdroidPlayer
