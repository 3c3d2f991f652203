import OdroidPlayer.Server.Threads

/-!
The clients and their descriptors while clients come and go.

`Consistent` is what holds between the blocks of the two threads as long as no descriptor
is accepted and no slot is filled that a removal still holds, and no client's descriptor
is closed as that of a stream (`Steady`). `Orderly` adds the count and the descriptors
that have been opened and closed; without streams it is kept as long as no thread looks up
a client that the other one is removing (`sound_of_apart`).
-/

namespace OdroidPlayer

open Transition

/-! ### Threads and slots -/

theorem CallAt.connecting_of_removing {at_ : CallAt} {held : Int × Nat}
    (removing : at_.removing = some held) : at_.connecting = none := by
  cases at_ with
  | accepted fd => cases removing
  | adding fd => cases removing
  | _ => rfl

theorem Worker.eq_or_other (w v : Worker) : v = w ∨ v = w.other := by
  cases w <;> cases v <;> decide

theorem Worker.other_other (w : Worker) : w.other.other = w := by
  cases w <;> rfl

theorem Worker.other_ne (w : Worker) : w.other ≠ w := by
  cases w <;> decide

section Goto

variable (s : Threads) (w : Worker) (target : CallAt)

@[simp] theorem Threads.goto_call_self : (s.goto w target).call w = target :=
  Function.update_self ..

@[simp] theorem Threads.goto_call_other : (s.goto w target).call w.other = s.call w.other :=
  Function.update_of_ne w.other_ne ..

end Goto

/-- A thread that removes nothing after a step leaves the removal of the other one. -/
theorem Threads.removing_of_goto {s : Threads} {w v : Worker} {target : CallAt}
    {held : Int × Nat} (none : target.removing = none)
    (removing : ((s.goto w target).call v).removing = some held) :
    (s.call v).removing = some held := by
  rcases w.eq_or_other v with rfl | rfl
  · rw [goto_call_self, none] at removing
    cases removing
  · rw [goto_call_other] at removing
    exact removing

theorem Threads.connecting_of_goto {s : Threads} {w v : Worker} {target : CallAt} {fd : Int}
    (none : target.connecting = none)
    (connecting : ((s.goto w target).call v).connecting = some fd) :
    (s.call v).connecting = some fd := by
  rcases w.eq_or_other v with rfl | rfl
  · rw [goto_call_self, none] at connecting
    cases connecting
  · rw [goto_call_other] at connecting
    exact connecting

/-- An entry after a store is the stored one or an old one in another place. -/
theorem getElem?_set_cases {fds : List Int} {idx i : Nat} {new fd : Int}
    (here : (fds.set idx new)[i]? = some fd) :
    (i = idx ∧ fd = new) ∨ (i ≠ idx ∧ fds[i]? = some fd) := by
  rw [List.getElem?_set] at here
  split at here
  next same =>
      split at here
      · exact .inl ⟨same.symm, (Option.some.inj here).symm⟩
      · cases here
  next other => exact .inr ⟨Ne.symm other, here⟩

/-! ### What holds between the blocks -/

structure Consistent (s : Threads) : Prop where
  unique : ∀ (i j : Nat) (fd : Int), 0 < fd → s.pool.fds[i]? = some fd →
    s.pool.fds[j]? = some fd → i = j
  owned : ∀ (idx : Nat) (fd : Int), 0 < fd → s.pool.fds[idx]? = some fd →
    s.sockets fd = some (.client (s.pool.slot idx).clientId)
  connecting : ∀ w fd, (s.call w).connecting = some fd →
    w = .server ∧ 0 < fd ∧ s.sockets fd = some .accepted ∧
      ∀ v idx, (s.call v).removing ≠ some (fd, idx)
  /-- the slot has the client it was found for, unless the other thread has cleared it -/
  held : ∀ w fd idx, (s.call w).removing = some (fd, idx) →
    0 < fd ∧ (s.pool.fds[idx]? = some fd ∨ s.pool.fds[idx]? = some 0) ∧
      ∀ j, s.pool.fds[j]? = some fd → j = idx

/-- A descriptor or a slot that a thread still holds is not used again. -/
structure Steady (s : Threads) (a : ThreadAction) : Prop where
  accept : ∀ fd, a = .accept fd → ∀ v idx, (s.call v).removing ≠ some (fd, idx)
  fill : ∀ w fd, a = .go w → s.call w = .adding fd → ∀ v fd' idx,
    (s.call v).removing = some (fd', idx) → s.pool.fds.findIdx? (fun fd => fd = 0) ≠ some idx
  /-- the descriptor of a stream has not become one of a client -/
  stream : ∀ w fd idx streamFd stream, a = .go w →
    s.call w = .stream fd idx (.close streamFd stream) →
    ∀ socket, s.sockets streamFd = some socket → socket = .stream

variable {s : Threads} {log : List Descriptor}

theorem NoCalls.fds (init : NoCalls s) {fd : Int} (mem : fd ∈ s.pool.fds) : fd = 0 := by
  have empty : ∀ fd ∈ createClientPool.fds, fd = 0 := by decide
  rw [init.1] at mem
  exact empty fd mem

theorem NoCalls.consistent (init : NoCalls s) : Consistent s := by
  constructor
  case unique =>
      intro i j fd pos here
      have zero := init.fds (List.mem_of_getElem? here)
      omega
  case owned =>
      intro idx fd pos here
      have zero := init.fds (List.mem_of_getElem? here)
      omega
  case connecting =>
      intro w fd connecting
      rw [init.2.2 w] at connecting
      cases connecting
  case held =>
      intro w fd idx removing
      rw [init.2.2 w] at removing
      cases removing

/-- A descriptor in the pool is open. -/
theorem Consistent.isOpen (inv : Consistent s) {fd : Int} (mem : fd ∈ s.pool.fds) (pos : 0 < fd) :
    s.sockets fd ≠ none := by
  obtain ⟨idx, here⟩ := List.mem_iff_getElem?.mp mem
  rw [inv.owned idx fd pos here]
  exact Option.some_ne_none _

/-- A descriptor that is being connected is not in the pool. -/
theorem Consistent.outside (inv : Consistent s) {w : Worker} {fd : Int}
    (connecting : (s.call w).connecting = some fd) : fd ∉ s.pool.fds := by
  obtain ⟨_, pos, accepted, _⟩ := inv.connecting w fd connecting
  intro mem
  obtain ⟨idx, here⟩ := List.mem_iff_getElem?.mp mem
  rw [inv.owned idx fd pos here] at accepted
  cases accepted

/-- Streams come and go, and the calls stay where they are. -/
theorem Consistent.streams (inv : Consistent s) {t : Threads} (call : t.call = s.call)
    (same : SameClients s.pool t.pool)
    (sockets : ∀ fd socket, s.sockets fd = some socket → socket ≠ .stream →
      t.sockets fd = some socket) : Consistent t where
  unique := by
    rw [same.fds]
    exact inv.unique
  owned := by
    intro idx fd pos here
    rw [same.fds] at here
    rw [same.ids]
    exact sockets fd _ (inv.owned idx fd pos here) (by rintro ⟨⟩)
  connecting := by
    intro w fd is
    rw [call] at is ⊢
    obtain ⟨server, pos, accepted, apart⟩ := inv.connecting w fd is
    exact ⟨server, pos, sockets fd _ accepted (by rintro ⟨⟩), apart⟩
  held := by
    rw [call, same.fds]
    exact inv.held

/-- A thread goes on with nothing new. -/
theorem Consistent.goto (inv : Consistent s) {w : Worker} {target : CallAt}
    (held : ∀ fd idx, target.removing = some (fd, idx) →
      (s.call w).removing = some (fd, idx) ∨ 0 < fd ∧ s.pool.fds[idx]? = some fd)
    (connecting : ∀ fd, target.connecting = some fd → (s.call w).connecting = some fd) :
    Consistent (s.goto w target) where
  unique := inv.unique
  owned := inv.owned
  connecting := by
    intro v fd is
    have before : (s.call v).connecting = some fd := by
      rcases w.eq_or_other v with rfl | rfl
      · rw [Threads.goto_call_self] at is
        exact connecting fd is
      · rw [Threads.goto_call_other] at is
        exact is
    obtain ⟨server, pos, accepted, apart⟩ := inv.connecting v fd before
    refine ⟨server, pos, accepted, ?_⟩
    intro u idx removing
    rcases w.eq_or_other u with rfl | rfl
    · rw [Threads.goto_call_self] at removing
      rcases held fd idx removing with mine | ⟨_, here⟩
      · exact apart _ idx mine
      · exact inv.outside before (List.mem_of_getElem? here)
    · rw [Threads.goto_call_other] at removing
      exact apart _ idx removing
  held := by
    intro v fd idx removing
    rcases w.eq_or_other v with rfl | rfl
    · rw [Threads.goto_call_self] at removing
      rcases held fd idx removing with mine | ⟨pos, here⟩
      · exact inv.held _ fd idx mine
      · exact ⟨pos, .inl here, fun j there => inv.unique j idx fd pos there here⟩
    · rw [Threads.goto_call_other] at removing
      exact inv.held w.other fd idx removing

theorem Consistent.finish (inv : Consistent s) (w : Worker) : Consistent (s.goto w .idle) := by
  refine inv.goto ?_ ?_
  · intro fd idx is
    cases is
  · intro fd is
    cases is

/-- Only the server thread takes clients in, and only one at a time. -/
theorem Consistent.notConnecting (inv : Consistent s) {w : Worker} {fd : Int}
    (connecting : (s.call w).connecting = some fd) (v : Worker) (fd' : Int) :
    ((s.goto w .idle).call v).connecting ≠ some fd' := by
  intro is
  have server := (inv.connecting w fd connecting).1
  rcases w.eq_or_other v with rfl | rfl
  · rw [Threads.goto_call_self] at is
    cases is
  · have other := (inv.connecting w.other fd' (Threads.connecting_of_goto rfl is)).1
    rw [server] at other
    cases other

/-- A descriptor that `connect_new_client` does not add is closed. -/
theorem Consistent.hangUp (inv : Consistent s) {w : Worker} {fd : Int}
    (connecting : (s.call w).connecting = some fd) :
    Consistent ((s.close fd).goto w .idle) := by
  have outside := inv.outside connecting
  have idle := inv.finish w
  refine { idle with owned := ?_, connecting := ?_ }
  · intro idx fd' pos here
    have apart : fd' ≠ fd := fun same => outside (same ▸ List.mem_of_getElem? here)
    change Function.update s.sockets fd none fd' = _
    rw [Function.update_of_ne apart]
    exact inv.owned idx fd' pos here
  · intro v fd' is
    exact absurd is (inv.notConnecting connecting v fd')

theorem Consistent.accept (inv : Consistent s) {fd : Int} (pos : 0 < fd)
    (unused : s.sockets fd = none) (apart : ∀ v idx, (s.call v).removing ≠ some (fd, idx)) :
    Consistent ((s.openAs fd .accepted).goto .server (.accepted fd)) := by
  constructor
  case unique => exact inv.unique
  case held =>
      intro v fd' idx removing
      exact inv.held v fd' idx (Threads.removing_of_goto rfl removing)
  case owned =>
      intro idx fd' pos' here
      have owned := inv.owned idx fd' pos' here
      have different : fd' ≠ fd := by
        rintro rfl
        rw [unused] at owned
        cases owned
      change Function.update s.sockets fd (some .accepted) fd' = _
      rw [Function.update_of_ne different]
      exact owned
  case connecting =>
      intro v fd' is
      cases v with
      | server =>
          obtain rfl : fd = fd' := Option.some.inj is
          refine ⟨rfl, pos, ?_, ?_⟩
          · exact Function.update_self ..
          · intro v idx removing
            exact apart v idx (Threads.removing_of_goto rfl removing)
      | response =>
          have server := (inv.connecting .response fd' is).1
          cases server

theorem Consistent.added (inv : Consistent s) {w : Worker} {fd : Int} {pool : Pool}
    (at_ : s.call w = .adding fd) (added : addClient s.nextId fd s.pool = some pool)
    (apart : ∀ v fd' idx, (s.call v).removing = some (fd', idx) →
      s.pool.fds.findIdx? (fun fd => fd = 0) ≠ some idx) :
    Consistent (((({ s with clientId := s.clientId + 1 }).openAs fd (.client s.nextId)).setPool
      pool).goto w .idle) := by
  have connecting : (s.call w).connecting = some fd := by rw [at_]; rfl
  have outside := inv.outside connecting
  obtain ⟨_, pos, _, free⟩ := inv.connecting w fd connecting
  obtain ⟨slot, lowest, here, rfl⟩ := addClient_some added
  have bound : slot < maxClients := by
    rw [← s.pool.length_fds]
    exact (List.getElem?_eq_some_iff.mp here).1
  have idle := inv.finish w
  constructor
  case held =>
      intro v fd' idx removing
      obtain ⟨pos', has, only⟩ := idle.held v fd' idx removing
      have removing' : (s.call v).removing = some (fd', idx) := Threads.removing_of_goto rfl removing
      have elsewhere : slot ≠ idx := fun same => apart v fd' idx removing' (same ▸ lowest)
      refine ⟨pos', ?_, ?_⟩
      · change (fillClient slot s.nextId fd s.pool).fds[idx]? = some fd' ∨
          (fillClient slot s.nextId fd s.pool).fds[idx]? = some 0
        rw [fillClient_fds, List.getElem?_set_ne elsewhere]
        exact has
      · intro j there
        change (fillClient slot s.nextId fd s.pool).fds[j]? = some fd' at there
        rw [fillClient_fds] at there
        rcases getElem?_set_cases there with ⟨_, same⟩ | ⟨_, old⟩
        · exact absurd removing' (same ▸ free v idx)
        · exact only j old
  case unique =>
      intro i j fd' pos' first second
      change (fillClient slot s.nextId fd s.pool).fds[i]? = some fd' at first
      change (fillClient slot s.nextId fd s.pool).fds[j]? = some fd' at second
      rw [fillClient_fds] at first second
      rcases getElem?_set_cases first with ⟨rfl, rfl⟩ | ⟨_, old⟩ <;>
        rcases getElem?_set_cases second with ⟨rfl, same⟩ | ⟨_, old'⟩
      · rfl
      · exact absurd (List.mem_of_getElem? old') outside
      · exact absurd (List.mem_of_getElem? old) (same ▸ outside)
      · exact inv.unique i j fd' pos' old old'
  case owned =>
      intro idx fd' pos' there
      change (fillClient slot s.nextId fd s.pool).fds[idx]? = some fd' at there
      change Function.update s.sockets fd (some (.client s.nextId)) fd' =
        some (.client ((fillClient slot s.nextId fd s.pool).slot idx).clientId)
      rw [fillClient_fds] at there
      rcases getElem?_set_cases there with ⟨rfl, rfl⟩ | ⟨elsewhere, old⟩
      · rw [Function.update_self, fillClient_slot_self _ _ bound]
      · have apart : fd' ≠ fd := fun same => outside (same ▸ List.mem_of_getElem? old)
        rw [Function.update_of_ne apart, fillClient_slot_ne _ _ elsewhere]
        exact inv.owned idx fd' pos' old
  case connecting =>
      intro v fd' is
      exact absurd is (inv.notConnecting connecting v fd')

theorem Consistent.cleared (inv : Consistent s) {w : Worker} {fd : Int} {idx : Nat}
    (at_ : s.call w = .clear fd idx) :
    Consistent (((s.setPool (clearClient idx s.pool)).close fd).goto w .idle) := by
  obtain ⟨pos, has, only⟩ := inv.held w fd idx (by rw [at_]; rfl)
  have bound : idx < s.pool.fds.length := by
    rcases has with here | here <;> exact (List.getElem?_eq_some_iff.mp here).1
  have idle := inv.finish w
  constructor
  case held =>
      intro v fd' idx' removing
      obtain ⟨pos', has', only'⟩ := idle.held v fd' idx' removing
      refine ⟨pos', ?_, ?_⟩
      · change (clearClient idx s.pool).fds[idx']? = some fd' ∨
          (clearClient idx s.pool).fds[idx']? = some 0
        rw [clearClient_fds]
        by_cases same : idx = idx'
        · subst same
          exact .inr (List.getElem?_set_self bound)
        · rw [List.getElem?_set_ne same]
          exact has'
      · intro j there
        change (clearClient idx s.pool).fds[j]? = some fd' at there
        rw [clearClient_fds] at there
        rcases getElem?_set_cases there with ⟨_, zero⟩ | ⟨_, old⟩
        · omega
        · exact only' j old
  case unique =>
      intro i j fd' pos' first second
      change (clearClient idx s.pool).fds[i]? = some fd' at first
      change (clearClient idx s.pool).fds[j]? = some fd' at second
      rw [clearClient_fds] at first second
      rcases getElem?_set_cases first with ⟨_, zero⟩ | ⟨_, old⟩
      · omega
      rcases getElem?_set_cases second with ⟨_, zero⟩ | ⟨_, old'⟩
      · omega
      exact inv.unique i j fd' pos' old old'
  case owned =>
      intro i fd' pos' there
      change (clearClient idx s.pool).fds[i]? = some fd' at there
      rw [clearClient_fds] at there
      rcases getElem?_set_cases there with ⟨_, zero⟩ | ⟨elsewhere, old⟩
      · omega
      have apart : fd' ≠ fd := by
        rintro rfl
        exact elsewhere (only i old)
      change Function.update s.sockets fd none fd' =
        some (.client ((clearClient idx s.pool).slot i).clientId)
      rw [Function.update_of_ne apart, clearClient_slot_ne elsewhere]
      exact inv.owned i fd' pos' old
  case connecting =>
      intro v fd' is
      obtain ⟨server, pos', accepted, free⟩ := idle.connecting v fd' is
      have before : (s.call v).connecting = some fd' := Threads.connecting_of_goto rfl is
      have apart : fd' ≠ fd := by
        rintro rfl
        exact (inv.connecting v _ before).2.2.2 w idx (by rw [at_]; rfl)
      refine ⟨server, pos', ?_, free⟩
      change Function.update s.sockets fd none fd' = some .accepted
      rw [Function.update_of_ne apart]
      exact accepted

/-- Closing the descriptor of a stream leaves those of the clients alone. -/
theorem Threads.closeStream_sockets {streamFd : Int} (idx : Nat)
    (stream : ∀ socket, s.sockets streamFd = some socket → socket = .stream) (fd : Int)
    (socket : Socket) (isOpen : s.sockets fd = some socket) (other : socket ≠ .stream) :
    (s.closeStream streamFd idx).sockets fd = some socket := by
  have apart : fd ≠ streamFd := by
    rintro rfl
    exact other (stream socket isOpen)
  change Function.update s.sockets streamFd none fd = _
  rw [Function.update_of_ne apart]
  exact isOpen

theorem Consistent.keep (inv : Consistent s) {t : Threads} {a : ThreadAction}
    {es : List Descriptor} (steady : Steady s a) (move : ThreadMove s a t es) : Consistent t := by
  cases move with
  | @accept fd _ pos unused => exact inv.accept pos unused (steady.accept fd rfl)
  | refused at_ => exact inv.hangUp (by rw [at_]; rfl)
  | full at_ => exact inv.finish _
  | room at_ =>
      refine inv.goto ?_ ?_
      · intro fd idx is
        cases is
      · intro fd is
        rw [at_]
        exact is
  | noSlot at_ =>
      have hung := inv.hangUp (by rw [at_]; rfl)
      exact { hung with }
  | @added w fd pool at_ added => exact inv.added at_ added (steady.fill w fd rfl at_)
  | missing _ _ => exact inv
  | found at_ found =>
      refine inv.goto ?_ ?_
      · intro fd' idx' is
        cases is
        exact .inr (findClientIndex_some found)
      · intro fd' is
        cases is
  | @walk w target fd idx at_ same _ =>
      refine inv.goto ?_ ?_
      · intro fd' idx' is
        rw [same] at is
        cases is
        exact .inl at_
      · intro fd' is
        rw [CallAt.connecting_of_removing same] at is
        cases is
  | @streamClosed w fd streamFd idx stream at_ =>
      have closed : Consistent (s.closeStream streamFd stream) :=
        inv.streams rfl (clearStream_same stream s.world)
          (Threads.closeStream_sockets stream (steady.stream w fd idx streamFd stream rfl at_))
      refine closed.goto ?_ ?_
      · intro fd' idx' is
        cases is
        refine .inl ?_
        change (s.call w).removing = _
        rw [at_]
        rfl
      · intro fd' is
        cases is
  | cleared at_ => exact inv.cleared at_

/-! ### Without streams -/

/-- No stream has been made, and none is being removed. -/
structure NoStreams (s : Threads) : Prop where
  noStream : ∀ idx, (s.pool.slot idx).streamFd = 0
  calm : ∀ w, (s.call w).inStream = false

theorem NoCalls.noStreams (init : NoCalls s) : NoStreams s where
  noStream := by
    intro idx
    rw [init.1, createClientPool, Pool.slot, List.getD_eq_getElem?_getD, List.getElem?_replicate]
    split <;> rfl
  calm := by
    intro w
    rw [init.2.2 w]
    rfl

theorem NoStreams.goto (noStreams : NoStreams s) (w : Worker) {target : CallAt}
    (calm : target.inStream = false) : NoStreams (s.goto w target) where
  noStream := noStreams.noStream
  calm := by
    intro v
    rcases w.eq_or_other v with rfl | rfl
    · rw [Threads.goto_call_self]
      exact calm
    · rw [Threads.goto_call_other]
      exact noStreams.calm w.other

theorem NoStreams.store (noStreams : NoStreams s) {pool : Pool} {idx : Nat} {client : Client}
    (slots : pool.clientArr = (s.pool.store idx client).clientArr) (none : client.streamFd = 0) :
    NoStreams (s.setPool pool) where
  calm := noStreams.calm
  noStream := by
    intro i
    have same : pool.slot i = (s.pool.store idx client).slot i := by
      rw [Pool.slot, Pool.slot, slots]
    change (pool.slot i).streamFd = 0
    rw [same]
    rcases s.pool.slot_store idx i client with ⟨_, new⟩ | old
    · rw [new, none]
    · rw [old]
      exact noStreams.noStream i

/-- The target of a walk has no stream, as no slot has one. -/
theorem NoStreams.walk_calm (noStreams : NoStreams s) {w : Worker} {target : CallAt}
    (stream : target.inStream = true →
      (s.call w).inStream = true ∨ ∃ read, 0 < (s.pool.slot read).streamFd) :
    target.inStream = false := by
  cases flows : target.inStream with
  | false => rfl
  | true =>
      rcases stream flows with before | ⟨read, some_⟩
      · rw [noStreams.calm w] at before
        cases before
      · rw [noStreams.noStream read] at some_
        exact absurd some_ (lt_irrefl 0)

theorem NoStreams.keep (noStreams : NoStreams s) {t : Threads} {a : ThreadAction}
    {es : List Descriptor} (move : ThreadMove s a t es) : NoStreams t := by
  cases move with
  | accept _ _ _ => exact { noStreams.goto .server rfl with }
  | refused _ | noSlot _ => exact { noStreams.goto _ rfl with }
  | full _ | room _ | found _ _ => exact noStreams.goto _ rfl
  | missing _ _ => exact noStreams
  | walk _ _ stream => exact noStreams.goto _ (noStreams.walk_calm stream)
  | added at_ added =>
      obtain ⟨idx, _, _, rfl⟩ := addClient_some added
      exact { (noStreams.store rfl rfl).goto _ rfl with }
  | @streamClosed w _ _ _ _ at_ =>
      have calm := noStreams.calm w
      rw [at_] at calm
      cases calm
  | cleared at_ => exact { (noStreams.store rfl rfl).goto _ rfl with }

/-! ### The count and the descriptors -/

/-- No client is looked up for removal while the other thread is removing it. -/
def Apart (s : Threads) (a : ThreadAction) : Prop :=
  ∀ w fd, a = .remove w fd → ∀ idx, (s.call w.other).removing ≠ some (fd, idx)

structure Orderly (s : Threads) (log : List Descriptor) : Prop where
  consistent : Consistent s
  noStreams : NoStreams s
  counted : Counted s.pool
  /-- nobody has cleared the slot -/
  still : ∀ w fd idx, (s.call w).removing = some (fd, idx) → s.pool.fds[idx]? = some fd
  apart : ∀ w fd i j, (s.call w).removing = some (fd, i) →
    (s.call w.other).removing ≠ some (fd, j)
  balance : ∀ fd, log.count (.closed fd) + (if s.sockets fd = none then 0 else 1) =
    log.count (.opened fd)

theorem NoCalls.orderly (init : NoCalls s) : Orderly s [] where
  consistent := init.consistent
  noStreams := init.noStreams
  counted := by
    rw [init.1]
    exact createClientPool_counted
  still := by
    intro w fd idx removing
    rw [init.2.2 w] at removing
    cases removing
  apart := by
    intro w fd i j removing
    rw [init.2.2 w] at removing
    cases removing
  balance := by
    intro fd
    rw [if_pos (init.2.1 fd)]
    rfl

/-- Descriptors and slots that a removal holds are in use. -/
theorem Orderly.steady (inv : Orderly s log) {t : Threads} {a : ThreadAction}
    {es : List Descriptor} (move : ThreadMove s a t es) : Steady s a where
  accept := by
    rintro fd rfl v idx removing
    cases move with
    | accept _ pos unused =>
        have mem := List.mem_of_getElem? (inv.still v fd idx removing)
        exact inv.consistent.isOpen mem pos unused
  fill := by
    rintro w fd rfl at_ v fd' idx removing lowest
    have pos := (inv.consistent.held v fd' idx removing).1
    obtain ⟨free, here, zero⟩ := findIdx?_spec lowest
    rw [inv.still v fd' idx removing] at here
    cases here
    have none : fd' = 0 := by simpa using zero
    omega
  stream := by
    rintro w fd idx streamFd stream rfl at_
    have calm := inv.noStreams.calm w
    rw [at_] at calm
    cases calm

/-- A step that leaves the pool alone and removes nothing that was not being removed. -/
theorem Orderly.congr (inv : Orderly s log) {t : Threads} {es : List Descriptor}
    (consistent : Consistent t) (noStreams : NoStreams t) (pool : t.pool = s.pool)
    (removing : ∀ w held, (t.call w).removing = some held → (s.call w).removing = some held)
    (balance : ∀ fd, (log ++ es).count (.closed fd) + (if t.sockets fd = none then 0 else 1) =
      (log ++ es).count (.opened fd)) : Orderly t (log ++ es) where
  consistent := consistent
  noStreams := noStreams
  counted := by
    rw [pool]
    exact inv.counted
  still := by
    intro w fd idx is
    rw [pool]
    exact inv.still w fd idx (removing w _ is)
  apart := by
    intro w fd i j is is'
    exact inv.apart w fd i j (removing w _ is) (removing w.other _ is')
  balance := balance

theorem Descriptor.count_opened (log : List Descriptor) (fd fd' : Int) :
    (log ++ [opened fd']).count (.opened fd) =
      log.count (.opened fd) + if fd = fd' then 1 else 0 := by
  rw [List.count_append, List.count_singleton]
  by_cases same : fd = fd'
  · simp [same]
  · simp [same, Ne.symm same]

theorem Descriptor.count_closed (log : List Descriptor) (fd fd' : Int) :
    (log ++ [closed fd']).count (.closed fd) =
      log.count (.closed fd) + if fd = fd' then 1 else 0 := by
  rw [List.count_append, List.count_singleton]
  by_cases same : fd = fd'
  · simp [same]
  · simp [same, Ne.symm same]

/-- An open descriptor is closed. -/
theorem balance_close {sockets : Int → Option Socket} {fd : Int}
    (balance : ∀ fd', log.count (.closed fd') + (if sockets fd' = none then 0 else 1) =
      log.count (.opened fd')) (was : sockets fd ≠ none) (fd' : Int) :
    (log ++ [Descriptor.closed fd]).count (.closed fd') +
        (if Function.update sockets fd none fd' = none then 0 else 1) =
      (log ++ [Descriptor.closed fd]).count (.opened fd') := by
  have before := balance fd'
  have opens : (log ++ [Descriptor.closed fd]).count (.opened fd') = log.count (.opened fd') := by
    simp [List.count_append]
  rw [Descriptor.count_closed, opens]
  by_cases same : fd' = fd
  · subst same
    rw [if_neg was] at before
    rw [if_pos rfl, Function.update_self, if_pos rfl]
    exact before
  · rw [if_neg same, Function.update_of_ne same]
    exact before

/-- A closed descriptor is opened. -/
theorem balance_open {sockets : Int → Option Socket} {fd : Int} {socket : Socket}
    (balance : ∀ fd', log.count (.closed fd') + (if sockets fd' = none then 0 else 1) =
      log.count (.opened fd')) (unused : sockets fd = none) (fd' : Int) :
    (log ++ [Descriptor.opened fd]).count (.closed fd') +
        (if Function.update sockets fd (some socket) fd' = none then 0 else 1) =
      (log ++ [Descriptor.opened fd]).count (.opened fd') := by
  have before := balance fd'
  have closes : (log ++ [Descriptor.opened fd]).count (.closed fd') = log.count (.closed fd') := by
    simp [List.count_append]
  rw [Descriptor.count_opened, closes]
  by_cases same : fd' = fd
  · subst same
    rw [if_pos unused] at before
    rw [Function.update_self, if_pos rfl, if_neg (Option.some_ne_none _)]
    omega
  · rw [Function.update_of_ne same, if_neg same]
    exact before

/-- A client is looked up for removal that the other thread is not removing. -/
theorem Orderly.found (inv : Orderly s log) {w : Worker} {fd : Int} {idx : Nat}
    (apart : Apart s (.remove w fd)) (found : findClientIndex fd s.pool .clientFd = some idx)
    (consistent : Consistent (s.goto w (.streamIndex fd idx)))
    (noStreams : NoStreams (s.goto w (.streamIndex fd idx))) :
    Orderly (s.goto w (.streamIndex fd idx)) log := by
  refine ⟨consistent, noStreams, inv.counted, ?_, ?_, inv.balance⟩
  · intro v fd' idx' removing
    rcases w.eq_or_other v with rfl | rfl
    · rw [Threads.goto_call_self] at removing
      cases removing
      exact (findClientIndex_some found).2
    · rw [Threads.goto_call_other] at removing
      exact inv.still _ fd' idx' removing
  · intro v fd' i j removing
    rcases w.eq_or_other v with rfl | rfl
    · rw [Threads.goto_call_self] at removing
      rw [Threads.goto_call_other]
      cases removing
      exact apart _ fd rfl j
    · rw [Threads.goto_call_other] at removing
      rw [Worker.other_other, Threads.goto_call_self]
      rintro ⟨⟩
      exact apart w fd rfl i removing

/-- The calls of an idle thread are those of before. -/
theorem Orderly.apart_of_goto (inv : Orderly s log) (w v : Worker) (fd : Int) (i j : Nat)
    (removing : ((s.goto w .idle).call v).removing = some (fd, i)) :
    ((s.goto w .idle).call v.other).removing ≠ some (fd, j) := by
  intro removing'
  exact inv.apart v fd i j (Threads.removing_of_goto rfl removing)
    (Threads.removing_of_goto rfl removing')

theorem Orderly.added (inv : Orderly s log) {w : Worker} {fd : Int} {pool : Pool}
    (at_ : s.call w = .adding fd) (added : addClient s.nextId fd s.pool = some pool)
    {t : Threads} (is : t = (((({ s with clientId := s.clientId + 1 }).openAs fd
      (.client s.nextId)).setPool pool).goto w .idle))
    (consistent : Consistent t) (noStreams : NoStreams t) : Orderly t log := by
  subst is
  obtain ⟨_, pos, accepted, _⟩ := inv.consistent.connecting w fd (by rw [at_]; rfl)
  have counted := inv.counted.addClient pos added
  obtain ⟨slot, _, free, rfl⟩ := addClient_some added
  refine ⟨consistent, noStreams, counted, ?_, inv.apart_of_goto w, ?_⟩
  · intro v fd' idx removing
    have here := inv.still v fd' idx (Threads.removing_of_goto rfl removing)
    have pos' := (consistent.held v fd' idx removing).1
    have elsewhere : slot ≠ idx := by
      rintro rfl
      rw [free] at here
      cases here
      exact absurd pos' (lt_irrefl 0)
    change (fillClient slot s.nextId fd s.pool).fds[idx]? = some fd'
    rw [fillClient_fds, List.getElem?_set_ne elsewhere]
    exact here
  · intro fd'
    have before := inv.balance fd'
    change _ + (if Function.update s.sockets fd (some (.client s.nextId)) fd' = none then 0
      else 1) = _
    by_cases same : fd' = fd
    · subst same
      rw [if_neg (accepted ▸ Option.some_ne_none _)] at before
      rw [Function.update_self, if_neg (Option.some_ne_none _)]
      exact before
    · rw [Function.update_of_ne same]
      exact before

theorem Orderly.cleared (inv : Orderly s log) {w : Worker} {fd : Int} {idx : Nat}
    (at_ : s.call w = .clear fd idx) {t : Threads}
    (is : t = (((s.setPool (clearClient idx s.pool)).close fd).goto w .idle))
    (consistent : Consistent t) (noStreams : NoStreams t) :
    Orderly t (log ++ [.closed fd]) := by
  subst is
  have mine : (s.call w).removing = some (fd, idx) := by rw [at_]; rfl
  have here := inv.still w fd idx mine
  have pos := (inv.consistent.held w fd idx mine).1
  have isOpen := inv.consistent.isOpen (List.mem_of_getElem? here) pos
  refine ⟨consistent, noStreams, inv.counted.clearClient here pos, ?_, inv.apart_of_goto w,
    balance_close inv.balance isOpen⟩
  intro v fd' idx' removing
  have theirs := Threads.removing_of_goto rfl removing
  have here' := inv.still v fd' idx' theirs
  have elsewhere : idx ≠ idx' := by
    rintro rfl
    rw [here] at here'
    cases here'
    rcases w.eq_or_other v with rfl | rfl
    · change ((s.goto v .idle).call v).removing = _ at removing
      rw [Threads.goto_call_self] at removing
      cases removing
    · exact inv.apart w fd idx idx mine theirs
  change (clearClient idx s.pool).fds[idx']? = some fd'
  rw [clearClient_fds, List.getElem?_set_ne elsewhere]
  exact here'

theorem Orderly.keep (inv : Orderly s log) {t : Threads} {a : ThreadAction}
    {es : List Descriptor} (apart : Apart s a) (move : ThreadMove s a t es) :
    Orderly t (log ++ es) := by
  have consistent := inv.consistent.keep (inv.steady move) move
  have noStreams := inv.noStreams.keep move
  have silent : ∀ fd, (log ++ ([] : List Descriptor)).count (.closed fd) +
      (if s.sockets fd = none then 0 else 1) =
        (log ++ ([] : List Descriptor)).count (.opened fd) := by
    rw [List.append_nil]
    exact inv.balance
  cases move with
  | accept _ _ unused =>
      exact inv.congr consistent noStreams rfl (fun _ _ => Threads.removing_of_goto rfl)
        (balance_open inv.balance unused)
  | refused at_ | noSlot at_ =>
      have accepted := (inv.consistent.connecting _ _ (by rw [at_]; rfl)).2.2.1
      exact inv.congr consistent noStreams rfl (fun _ _ => Threads.removing_of_goto rfl)
        (balance_close inv.balance (accepted ▸ Option.some_ne_none _))
  | full at_ | room at_ =>
      exact inv.congr consistent noStreams rfl (fun _ _ => Threads.removing_of_goto rfl) silent
  | missing _ _ => exact inv.congr consistent noStreams rfl (fun _ _ is => is) silent
  | @walk w target fd idx at_ same stream =>
      refine inv.congr consistent noStreams rfl ?_ silent
      intro v held removing
      rcases w.eq_or_other v with rfl | rfl
      · rw [Threads.goto_call_self, same] at removing
        rw [at_]
        exact removing
      · rw [Threads.goto_call_other] at removing
        exact removing
  | @streamClosed w _ _ _ _ at_ =>
      have calm := inv.noStreams.calm w
      rw [at_] at calm
      cases calm
  | found _ found =>
      rw [List.append_nil]
      exact inv.found apart found consistent noStreams
  | added at_ added =>
      rw [List.append_nil]
      exact inv.added at_ added rfl consistent noStreams
  | cleared at_ => exact inv.cleared at_ rfl consistent noStreams

/-- The count is that of the connected clients and in range, and no descriptor has been
closed more often than opened. -/
def Sound (s : Threads) (log : List Descriptor) : Prop :=
  s.pool.clientCnt = s.pool.clientArr.countP Client.connected ∧
    0 ≤ s.pool.clientCnt ∧ s.pool.clientCnt ≤ maxClients ∧
    ∀ fd, log.count (.closed fd) ≤ log.count (.opened fd)

theorem Orderly.sound (inv : Orderly s log) : Sound s log := by
  refine ⟨inv.counted.connected, inv.counted.bounds.1, inv.counted.bounds.2, ?_⟩
  intro fd
  rw [← inv.balance fd]
  exact Nat.le_add_right _ _

/-- In every run in which no client is looked up for removal while the other thread is
removing it, the pool and the descriptors are sound in every state that is reached, the
states in which no call is in progress among them. -/
theorem sound_of_apart {s t : Threads} {as : List ThreadAction} {log : List Descriptor}
    (init : NoCalls s) (apart : threads.Along Apart s as)
    (run : threads.exec s as = some (t, log)) : Sound t log := by
  have keep : ∀ (u : Threads) (before : List Descriptor) (a : ThreadAction) (v : Threads)
      (es : List Descriptor), Orderly u before → Apart u a → threads.step u a = some (v, es) →
      Orderly v (before ++ es) := by
    intro u before a v es inv met step
    exact inv.keep met (threads_move step)
  have inv := System.exec_rec_of_along keep apart [] init.orderly run
  exact inv.sound

def noCalls : Threads := ⟨⟨createClientPool, []⟩, fun _ => none, 0, fun _ => .idle⟩

theorem noCalls_init : NoCalls noCalls := ⟨rfl, fun _ => rfl, fun _ => rfl⟩

/-- Both threads find client 5, and one after the other removes it. -/
def removedTwice : List ThreadAction :=
  [.accept 5, .go .server, .go .server, .remove .server 5, .remove .response 5, .go .server,
    .go .server, .go .server, .go .response, .go .response]

theorem removedTwice_unsound : ∃ t log, threads.exec noCalls removedTwice = some (t, log) ∧
    (∀ w, t.call w = .idle) ∧ t.pool.clientCnt = -1 ∧
    log = [.opened 5, .closed 5, .closed 5] ∧ ¬ Sound t log := by
  refine ⟨_, _, rfl, ?_, rfl, rfl, ?_⟩
  · intro w
    cases w <;> rfl
  · rintro ⟨_, nonneg, _⟩
    revert nonneg
    decide

/-- Each thread removes a client of its own. -/
def removedApart : List ThreadAction :=
  [.accept 5, .go .server, .go .server, .accept 6, .go .server, .go .server, .remove .server 5,
    .remove .response 6, .go .server, .go .response, .go .server, .go .response, .go .response,
    .go .server]

theorem removedApart_sound : ∃ t log, threads.exec noCalls removedApart = some (t, log) ∧
    (∀ w, t.call w = .idle) ∧ Sound t log := by
  have free : ∀ (s : Threads) (a : ThreadAction), (∀ w fd, a ≠ .remove w fd) → Apart s a := by
    intro s a no w fd is
    exact absurd is (no w fd)
  have front : ∀ s, threads.Along Apart s
      [.accept 5, .go .server, .go .server, .accept 6, .go .server, .go .server] :=
    System.along_of_forall fun a mem s => free s a (by intro w fd is; simp [is] at mem)
  have back : ∀ s, threads.Along Apart s
      [.go .server, .go .response, .go .server, .go .response, .go .response, .go .server] :=
    System.along_of_forall fun a mem s => free s a (by intro w fd is; simp [is] at mem)
  have apart : threads.Along Apart noCalls removedApart := by
    refine System.along_append (front noCalls) rfl ?_
    refine System.along_cons ?_ rfl (System.along_cons ?_ rfl (back _))
    · intro w fd is idx removing
      cases is
      cases removing
    · intro w fd is idx removing
      cases is
      cases removing
  refine ⟨_, _, rfl, ?_, sound_of_apart noCalls_init apart rfl⟩
  intro w
  cases w <;> rfl

end OdroidPlayer
