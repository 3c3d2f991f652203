import OdroidPlayer.Memory.Node
import OdroidPlayer.Server.Pool

/-!
The paths of the stream sockets, which belong to the slots of the client pool.

`create_client_stream` and `remove_client_stream` work under the mutex of the pool. But
`get_server_stream_path` and `get_client_stream_path` copy a path when they have unlocked it,
and `add_client` and `remove_client` clear a slot without freeing what is in it.
-/

namespace OdroidPlayer

open Blocks

structure StreamSlot where
  /-- `client_fd` is not 0 -/
  used : Bool
  /-- `server_stream_path` -/
  server : Option Nat
  /-- `client_stream_path` -/
  client : Option Nat
  deriving DecidableEq, Repr

namespace StreamSlot

/-- The slot behind `memset`. -/
def clear (used : Bool) : StreamSlot := ⟨used, none, none⟩

def blocks (slot : StreamSlot) : Multiset Nat := pointer slot.server + pointer slot.client

/-- There is no path in the slot. -/
def Empty (slot : StreamSlot) : Prop := slot.server = none ∧ slot.client = none

instance (slot : StreamSlot) : Decidable slot.Empty := inferInstanceAs (Decidable (_ ∧ _))

/-- The paths are there together with the socket, or neither of them. -/
def Whole (slot : StreamSlot) : Prop := slot.server = none ↔ slot.client = none

/-- `check_stream_is_set` -/
def IsSet (slot : StreamSlot) : Prop := slot.server ≠ none ∧ slot.client ≠ none

instance (slot : StreamSlot) : Decidable slot.IsSet := inferInstanceAs (Decidable (_ ∧ _))

theorem blocks_eq_zero_iff {slot : StreamSlot} : slot.blocks = 0 ↔ slot.Empty := by
  obtain ⟨used, server, client⟩ := slot
  cases server <;> cases client <;> simp [blocks, Empty]

theorem clear_whole (used : Bool) : (clear used).Whole := Iff.rfl

theorem Whole.empty {slot : StreamSlot} (whole : slot.Whole) (unset : ¬ slot.IsSet) :
    slot.Empty := by
  obtain ⟨used, server, client⟩ := slot
  cases server <;> cases client <;> simp_all [Whole, IsSet, Empty]

end StreamSlot

def slotBlocks (slots : List StreamSlot) : Multiset Nat := (slots.map StreamSlot.blocks).sum

/-- The results of the calls in `create_client_stream`. -/
structure StreamResults where
  server : Option Nat
  client : Option Nat
  /-- `create_socket_uds` -/
  bound : Bool
  deriving DecidableEq, Repr

/-- `create_client_stream`; when it fails the slot keeps its pointers. -/
def createStream (slot : StreamSlot) (results : StreamResults) : Code StreamSlot := do
  free slot.server
  free slot.client
  match ← malloc results.server with
  | none => pure slot
  | some server =>
      match ← malloc results.client with
      | none =>
          free (some server)
          pure slot
      | some client =>
          if results.bound = true then
            pure { slot with server := some server, client := some client }
          else do
            free (some server)
            free (some client)
            pure slot

/-- `remove_client_stream` -/
def removeStream (slot : StreamSlot) : Code StreamSlot := do
  free slot.server
  free slot.client
  pure { slot with server := none, client := none }

/-- `set_new_stream`, unless the stream is set; the client may have gone. -/
def setNewStreamBlocks (slots : List StreamSlot) :
    Option (Nat × StreamResults) → Code (List StreamSlot)
  | none => pure slots
  | some (idx, results) =>
      match slots[idx]? with
      | none => pure slots
      | some slot =>
          if slot.IsSet then pure slots
          else do
            let slot ← createStream slot results
            pure (slots.set idx slot)

/-- What `get_server_stream_path` or `get_client_stream_path` reads under the mutex. -/
def findPath (slots : List StreamSlot) (idx : Option Nat) (path : StreamSlot → Option Nat) :
    Option Nat := do
  let slot ← slots[← idx]?
  path slot

/-- What it returns behind it. -/
def copyPath (path p : Option Nat) : Code (Option Nat) :=
  match path with
  | none => pure none
  | some path => strdup path p

/-- `clear_client_pool`, which looks for the slots that are used. -/
def clearPool (slots : List StreamSlot) : Code Unit :=
  slots.forM fun slot =>
    if slot.used = true then do
      let _ ← removeStream slot
      pure ()
    else pure ()

/-- What `clear_client_pool` leaves. -/
def leftBlocks (slots : List StreamSlot) : Multiset Nat :=
  (slots.map fun slot => if slot.used = true then 0 else slot.blocks).sum

/-! ### Ownership -/

section Triples

variable {slot : StreamSlot} {slots : List StreamSlot} {P : Multiset Nat}

theorem createStream_triple (empty : slot.Empty) (results : StreamResults) :
    Triple slot.blocks (createStream slot results) StreamSlot.blocks := by
  rw [StreamSlot.blocks_eq_zero_iff.mpr empty]
  obtain ⟨used, server, client⟩ := slot
  obtain ⟨rfl, rfl⟩ := empty
  refine Triple.bind (Triple.free none) ?_
  refine Triple.bind (Triple.free none) ?_
  refine Triple.bind (Triple.malloc results.server) ?_
  rw [malloc_value]
  cases results.server with
  | none => exact Triple.pure rfl
  | some server =>
      refine Triple.call (Triple.malloc results.client) (zero_add _).symm ?_
      rw [malloc_value]
      cases results.client with
      | none =>
          refine Triple.call (R := 0) (Triple.free (some server)) ?_ (Triple.pure rfl)
          rw [pointer_none, zero_add, add_zero]
      | some client =>
          dsimp only
          split
          · exact Triple.pure (add_comm _ _)
          · refine Triple.call (Triple.free (some server)) (add_comm _ _) ?_
            exact Triple.call (R := 0) (Triple.free (some client)) (add_comm _ _)
              (Triple.pure rfl)

theorem removeStream_triple (slot : StreamSlot) :
    Triple slot.blocks (removeStream slot) fun _ => 0 := by
  refine Triple.call (Triple.free slot.server) rfl ?_
  exact Triple.call (R := 0) (Triple.free slot.client) (add_comm _ _) (Triple.pure rfl)

theorem removeStream_whole (slot : StreamSlot) : (removeStream slot).value.Whole := Iff.rfl

/-- The other slots keep their paths. -/
theorem slotBlocks_set {idx : Nat} (there : slots[idx]? = some slot) :
    ∃ rest, slotBlocks slots = slot.blocks + rest ∧
      ∀ next, slotBlocks (slots.set idx next) = next.blocks + rest := by
  obtain ⟨bound, is⟩ := List.getElem?_eq_some_iff.mp there
  refine ⟨slotBlocks (slots.take idx) + slotBlocks (slots.drop (idx + 1)), ?_, fun next => ?_⟩
  · conv_lhs => rw [← List.take_append_drop idx slots, List.drop_eq_getElem_cons bound, is]
    rw [slotBlocks, List.map_append, List.sum_append, List.map_cons, List.sum_cons]
    exact add_left_comm _ _ _
  · rw [slotBlocks, List.set_eq_take_append_cons_drop, if_pos bound, List.map_append,
      List.sum_append, List.map_cons, List.sum_cons]
    exact add_left_comm _ _ _

theorem setNewStreamBlocks_triple (whole : ∀ slot ∈ slots, slot.Whole)
    (create : Option (Nat × StreamResults)) :
    Triple (slotBlocks slots) (setNewStreamBlocks slots create) slotBlocks := by
  unfold setNewStreamBlocks
  split
  · exact Triple.pure rfl
  next idx results =>
      split
      · exact Triple.pure rfl
      next slot there =>
          split
          · exact Triple.pure rfl
          next unset =>
              obtain ⟨rest, before, after⟩ := slotBlocks_set there
              have empty := (whole slot (List.mem_of_getElem? there)).empty unset
              exact Triple.call (createStream_triple empty results) before
                (Triple.pure (after _).symm)

theorem createStream_whole (whole : slot.Whole) (results : StreamResults) :
    (createStream slot results).value.Whole := by
  unfold createStream
  simp only [bind_value, malloc_value]
  split
  · exact whole
  · simp only [bind_value, malloc_value]
    split
    · exact whole
    · split
      · exact iff_of_false (Option.some_ne_none _) (Option.some_ne_none _)
      · exact whole

theorem whole_set (whole : ∀ slot ∈ slots, slot.Whole) (idx : Nat) {next : StreamSlot}
    (own : next.Whole) : ∀ slot ∈ slots.set idx next, slot.Whole := by
  intro slot mem
  rcases List.mem_or_eq_of_mem_set mem with old | rfl
  · exact whole slot old
  · exact own

theorem setNewStreamBlocks_whole (whole : ∀ slot ∈ slots, slot.Whole)
    (create : Option (Nat × StreamResults)) :
    ∀ slot ∈ (setNewStreamBlocks slots create).value, slot.Whole := by
  unfold setNewStreamBlocks
  split
  · exact whole
  next idx results =>
      split
      · exact whole
      next slot there =>
          split
          · exact whole
          · exact whole_set whole idx
              (createStream_whole (whole slot (List.mem_of_getElem? there)) results)

/-- The path is still there. -/
theorem copyPath_triple {path : Option Nat} (there : ∀ b, path = some b → b ∈ P)
    (p : Option Nat) : Triple P (copyPath path p) fun s => pointer s + P := by
  cases path with
  | none => exact Triple.pure (zero_add _).symm
  | some b =>
      refine Triple.bind (Triple.access_of_mem (there b rfl)) ?_
      exact ((Triple.malloc p).frame P).of_eq (zero_add _).symm rfl

theorem copyPath_faults {b : Nat} (gone : b ∉ P) (p : Option Nat) :
    FaultsAt P (copyPath (some b) p) :=
  (FaultsAt.access gone).bind_left

theorem clearPool_triple (slots : List StreamSlot) :
    Triple (slotBlocks slots) (clearPool slots) fun _ => leftBlocks slots := by
  induction slots with
  | nil => exact Triple.pure rfl
  | cons slot slots ih =>
      have before : slotBlocks (slot :: slots) = slot.blocks + slotBlocks slots := rfl
      rw [before]
      by_cases used : slot.used = true
      · have first : Triple slot.blocks (if slot.used = true then do
            let _ ← removeStream slot
            pure () else pure ()) fun _ => 0 := by
          rw [if_pos used]
          exact Triple.bind (removeStream_triple slot) (Triple.pure rfl)
        refine Triple.call first rfl (ih.of_eq (zero_add _) ?_)
        simp [leftBlocks, used]
      · have first : Triple slot.blocks (if slot.used = true then do
            let _ ← removeStream slot
            pure () else pure ()) fun _ => slot.blocks := by
          rw [if_neg used]
          exact Triple.pure rfl
        refine Triple.call first rfl ((ih.frame slot.blocks).of_eq (add_comm _ _) ?_)
        simp [leftBlocks, used, add_comm]

theorem leftBlocks_eq_zero_iff :
    leftBlocks slots = 0 ↔ ∀ slot ∈ slots, slot.used = false → slot.Empty := by
  induction slots with
  | nil => simp [leftBlocks]
  | cons slot slots ih =>
      have split_ : leftBlocks (slot :: slots) =
          (if slot.used = true then 0 else slot.blocks) + leftBlocks slots := rfl
      rw [split_, ← Multiset.card_eq_zero, Multiset.card_add, Nat.add_eq_zero_iff,
        Multiset.card_eq_zero, Multiset.card_eq_zero, ih, List.forall_mem_cons]
      cases used : slot.used
      · simp [StreamSlot.blocks_eq_zero_iff]
      · simp

end Triples

end OdroidPlayer
