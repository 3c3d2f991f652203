import OdroidPlayer.Server.WaitFd

/-!
Disconnections while nothing is added.

Slots are emptied, streams are taken out of their slots and descriptors out of the sets,
by two workers and the stream thread at once; nothing comes back. A descriptor has then
left its set before any of them closes it, so the only way to a failing `pselect` is a copy
that is older than the removal.
-/

namespace OdroidPlayer

open Transition Transition.System

/-! ### What is only taken away -/

/-- The client has left the slot, or its stream may have. -/
def Client.Shrinks (old new : Client) : Prop :=
  new.clientFd = 0 ∧ new.streamFd = 0 ∨
    new.clientFd = old.clientFd ∧ (new.streamFd = 0 ∨ new.streamFd = old.streamFd)

theorem Client.Shrinks.refl (client : Client) : client.Shrinks client := .inr ⟨rfl, .inr rfl⟩

theorem Client.Shrinks.trans {a b c : Client} (first : a.Shrinks b) (second : b.Shrinks c) :
    a.Shrinks c := by
  rcases second with gone | ⟨client, stream⟩
  · exact .inl gone
  rcases first with gone | ⟨client', stream'⟩
  · rcases stream with none | same
    · exact .inl ⟨client.trans gone.1, none⟩
    · exact .inl ⟨client.trans gone.1, same.trans gone.2⟩
  · refine .inr ⟨client.trans client', ?_⟩
    rcases stream with none | same
    · exact .inl none
    · exact stream'.imp same.trans same.trans

/-- A slot that still has its client. -/
theorem Client.Shrinks.client {old new : Client} (shrinks : old.Shrinks new) {fd : Int}
    (pos : 0 < fd) (here : new.clientFd = fd) :
    old.clientFd = fd ∧ (new.streamFd = 0 ∨ new.streamFd = old.streamFd) := by
  rcases shrinks with ⟨gone, -⟩ | ⟨same, stream⟩
  · omega
  · exact ⟨same.symm.trans here, stream⟩

/-- A slot that still has its stream still has its client. -/
theorem Client.Shrinks.stream {old new : Client} (shrinks : old.Shrinks new)
    (pos : 0 < new.streamFd) : new.clientFd = old.clientFd ∧ new.streamFd = old.streamFd := by
  rcases shrinks with ⟨-, gone⟩ | ⟨client, none | same⟩
  · omega
  · omega
  · exact ⟨client, same⟩

namespace Loops

structure Shrinks (s t : Loops) : Prop where
  serverFd : t.serverFd = s.serverFd
  slots : ∀ i, (s.pool.slot i).Shrinks (t.pool.slot i)
  serv : ∀ fd ∈ t.serv.set, fd ∈ s.serv.set
  strm : ∀ fd ∈ t.strm.set, fd ∈ s.strm.set

variable {s t u : Loops} {w : Worker} {fd : Int}

theorem Shrinks.refl (s : Loops) : Shrinks s s :=
  ⟨rfl, fun i => .refl (s.pool.slot i), fun _ => id, fun _ => id⟩

theorem Shrinks.trans (first : Shrinks s t) (second : Shrinks t u) : Shrinks s u :=
  ⟨second.serverFd.trans first.serverFd, fun i => (first.slots i).trans (second.slots i),
    fun fd mem => first.serv fd (second.serv fd mem),
    fun fd mem => first.strm fd (second.strm fd mem)⟩

theorem Shrinks.of_same (serverFd : t.serverFd = s.serverFd) (pool : t.pool = s.pool)
    (serv : t.serv = s.serv) (strm : t.strm = s.strm) : Shrinks s t :=
  ⟨serverFd, fun _ => pool ▸ .refl _, fun _ mem => serv ▸ mem, fun _ mem => strm ▸ mem⟩

theorem closeStream_slot (clients : Threads) (streamFd : Int) (idx i : Nat) :
    (clients.pool.slot i).Shrinks ((clients.closeStream streamFd idx).pool.slot i) := by
  rcases clients.pool.slot_store idx i { clients.pool.slot idx with
    streamFd := 0, serverStreamPath := none, clientStreamPath := none } with ⟨rfl, new⟩ | same
  · have cleared : (clients.closeStream streamFd i).pool.slot i = { clients.pool.slot i with
        streamFd := 0, serverStreamPath := none, clientStreamPath := none } := new
    rw [cleared]
    exact .inr ⟨rfl, .inl rfl⟩
  · have kept : (clients.closeStream streamFd idx).pool.slot i = clients.pool.slot i := same
    rw [kept]
    exact .refl _

theorem clearClient_slot (idx i : Nat) (pool : Pool) :
    (pool.slot i).Shrinks ((clearClient idx pool).slot i) := by
  rcases pool.slot_store idx i emptyClient with ⟨rfl, new⟩ | same
  · have cleared : (clearClient i pool).slot i = emptyClient := new
    rw [cleared]
    exact .inl ⟨rfl, rfl⟩
  · have kept : (clearClient idx pool).slot i = pool.slot i := same
    rw [kept]
    exact .refl _

/-! ### What a worker may rely on -/

/-- The descriptors of the clients and those of the streams at the start are apart, and so are
the members of the two sets. -/
structure Base (server : Server) (s : Loops) : Prop where
  tracked : Tracked server
  serverFd : s.serverFd = server.serverFd
  slots : ∀ i, (server.world.pool.slot i).Shrinks (s.pool.slot i)
  serv : ∀ fd ∈ s.serv.set, fd ∈ server.serv.set
  strm : ∀ fd ∈ s.strm.set, fd ∈ server.strm.set

theorem Base.shrinks {server : Server} (base : Base server s) (shrinks : Shrinks s t) :
    Base server t :=
  ⟨base.tracked, shrinks.serverFd.trans base.serverFd,
    fun i => (base.slots i).trans (shrinks.slots i),
    fun fd mem => base.serv fd (shrinks.serv fd mem),
    fun fd mem => base.strm fd (shrinks.strm fd mem)⟩

section Base

variable {server : Server} (base : Base server s)

include base

theorem Base.pos_of_strm (mem : fd ∈ s.strm.set) : 0 < fd :=
  ((base.tracked.agrees.strm fd).mp (base.strm fd mem)).1

/-- The descriptor of a client is not in `strm_set`. -/
theorem Base.client_not_strm {i : Nat} (pos : 0 < fd)
    (client : (server.world.pool.slot i).clientFd = fd) : fd ∉ s.strm.set := by
  intro mem
  obtain ⟨-, j, stream⟩ := (base.tracked.agrees.strm fd).mp (base.strm fd mem)
  exact base.tracked.apart i j (client ▸ pos) (client.trans stream.symm)

/-- The descriptor of a stream is not in `serv_set`. -/
theorem Base.stream_not_serv {i : Nat} (stream : (server.world.pool.slot i).streamFd = fd) :
    fd ∉ s.serv.set := by
  intro mem
  rcases (base.tracked.agrees.serv fd).mp (base.serv fd mem) with listening | ⟨pos, j, client⟩
  · exact (base.tracked.notServer i).2 (stream.trans listening)
  · exact base.tracked.apart j i (client ▸ pos) (client.trans stream.symm)

/-- A client is in one slot. -/
theorem Base.same_slot {i j : Nat} (pos : 0 < fd) (here : (s.pool.slot i).clientFd = fd)
    (there : (server.world.pool.slot j).clientFd = fd) : i = j := by
  by_contra other
  have start := ((base.slots i).client pos here).1
  exact base.tracked.agrees.distinct i j other (start ▸ pos) (start.trans there.symm)

end Base

end Loops

/-- What a worker has found when it is in `remove_client` of `fd`. -/
def CallAt.Removes (server : Server) (s : Loops) (fd : Int) : CallAt → Prop
  | .idle | .accepted _ | .adding _ => False
  | .streamIndex fd' _ => fd' = fd
  | .streamRead fd' _ read => fd' = fd ∧ (server.world.pool.slot read).clientFd = fd
  | .stream fd' _ block => fd' = fd ∧ block.streamFd ∉ s.serv.set ∧ block.streamFd ∉ s.strm.set
  | .clear fd' _ => fd' = fd

theorem CallAt.Removes.not_idle {server : Server} {s : Loops} {fd : Int} {target : CallAt}
    (removes : target.Removes server s fd) : target ≠ .idle := by
  rintro rfl
  exact removes

theorem CallAt.Removes.shrinks {server : Server} {s t : Loops} {fd : Int} {target : CallAt}
    (removes : target.Removes server s fd) (shrinks : s.Shrinks t) :
    target.Removes server t fd := by
  cases target with
  | stream fd' idx block =>
      obtain ⟨same, serv, strm⟩ := removes
      exact ⟨same, fun mem => serv (shrinks.serv _ mem), fun mem => strm (shrinks.strm _ mem)⟩
  | idle | accepted | adding => exact removes.elim
  | streamIndex | streamRead | clear => exact removes

/-- The stream of the client, if it has one, has left `strm_set`. -/
def Loops.Streamless (s : Loops) (fd : Int) : Prop :=
  ∀ i, (s.pool.slot i).clientFd = fd → (s.pool.slot i).streamFd ∉ s.strm.set

/-- What a worker has found in `disconnect_client` of `fd`, and what has left the sets. -/
def DisconnectAt.Sound (server : Server) (s : Loops) (w : Worker) (fd : Int) :
    DisconnectAt → Prop
  | .unwatch => s.clients.call w = .idle
  | .fdFind => s.clients.call w = .idle ∧ fd ∉ s.serv.set
  | .fdRead idx => s.clients.call w = .idle ∧ fd ∉ s.serv.set ∧
      ∀ i, (s.pool.slot i).clientFd = fd → i = idx
  | .unwatchStream streamFd => s.clients.call w = .idle ∧ fd ∉ s.serv.set ∧ 0 < streamFd ∧
      ∀ i, (s.pool.slot i).clientFd = fd →
        (s.pool.slot i).streamFd = 0 ∨ (s.pool.slot i).streamFd = streamFd
  | .removeClient => s.clients.call w = .idle ∧ fd ∉ s.serv.set ∧ s.Streamless fd
  | .removing => fd ∉ s.serv.set ∧ s.Streamless fd ∧
      (∃ i, (server.world.pool.slot i).clientFd = fd) ∧ (s.clients.call w).Removes server s fd

namespace Loops

variable {s t : Loops} {w : Worker} {fd : Int}

structure Disconnects (server : Server) (s : Loops) (w : Worker) (fd : Int)
    (at_ : DisconnectAt) : Prop where
  pos : 0 < fd
  sound : at_.Sound server s w fd

theorem Streamless.shrinks {server : Server} (base : Base server t) (pos : 0 < fd)
    (streamless : s.Streamless fd) (shrinks : Shrinks s t) : t.Streamless fd := by
  intro i here mem
  obtain ⟨here', none | same⟩ := (shrinks.slots i).client pos here
  · exact absurd (base.pos_of_strm mem) (by omega)
  · exact streamless i here' (same ▸ shrinks.strm _ mem)

/-- The steps of the other threads take nothing from a worker that it relies on. -/
theorem Disconnects.shrinks {server : Server} {at_ : DisconnectAt} (base : Base server t)
    (disconnects : Disconnects server s w fd at_) (shrinks : Shrinks s t)
    (call : t.clients.call w = s.clients.call w) : Disconnects server t w fd at_ := by
  obtain ⟨pos, sound⟩ := disconnects
  have serv : fd ∉ s.serv.set → fd ∉ t.serv.set := fun unwatched mem =>
    unwatched (shrinks.serv fd mem)
  refine ⟨pos, ?_⟩
  cases at_ with
  | unwatch => exact call.trans sound
  | fdFind => exact ⟨call.trans sound.1, serv sound.2⟩
  | fdRead idx =>
      obtain ⟨idle, unwatched, read⟩ := sound
      exact ⟨call.trans idle, serv unwatched,
        fun i here => read i ((shrinks.slots i).client pos here).1⟩
  | unwatchStream streamFd =>
      obtain ⟨idle, unwatched, streamPos, found⟩ := sound
      refine ⟨call.trans idle, serv unwatched, streamPos, fun i here => ?_⟩
      obtain ⟨here', none | same⟩ := (shrinks.slots i).client pos here
      · exact .inl none
      · rw [same]
        exact found i here'
  | removeClient =>
      obtain ⟨idle, unwatched, streamless⟩ := sound
      exact ⟨call.trans idle, serv unwatched, streamless.shrinks base pos shrinks⟩
  | removing =>
      obtain ⟨unwatched, streamless, client, removes⟩ := sound
      refine ⟨serv unwatched, streamless.shrinks base pos shrinks, client, ?_⟩
      rw [call]
      exact removes.shrinks shrinks

/-- What a block of `disconnect_client` does while nothing is added. -/
structure Disconnected (server : Server) (s t : Loops) (w : Worker) (fd : Int)
    (next : Option DisconnectAt) (ds : List Descriptor) : Prop where
  shrinks : Shrinks s t
  other : ∀ w', w' ≠ w → t.clients.call w' = s.clients.call w'
  response : t.response = s.response
  ends : next = none → t.clients.call w = .idle
  goes : ∀ at_ ∈ next, Disconnects server t w fd at_
  closed : ∀ fd', .closed fd' ∈ ds → fd' ∉ s.serv.set ∧ fd' ∉ s.strm.set

section Disconnected

variable {server : Server} {next : Option DisconnectAt} {ds : List Descriptor}

/-- `remove_client` goes on to another of its blocks. -/
theorem Streamless.walk (base : Base server s) (pos : 0 < fd) (unwatched : fd ∉ s.serv.set)
    (streamless : s.Streamless fd) (client : ∃ i, (server.world.pool.slot i).clientFd = fd)
    {clients : Threads} (shrinks : Shrinks s { s with clients })
    (removes : (clients.call w).Removes server s fd)
    (other : ∀ w', w' ≠ w → clients.call w' = s.clients.call w')
    (closed : ∀ fd', .closed fd' ∈ ds → fd' ∉ s.serv.set ∧ fd' ∉ s.strm.set) :
    Disconnected server s { s with clients } w fd
      (if clients.call w = .idle then none else some .removing) ds := by
  rw [if_neg removes.not_idle]
  constructor
  · exact shrinks
  · exact other
  · rfl
  · rintro ⟨⟩
  · rintro _ ⟨⟩
    exact ⟨pos, unwatched, streamless.shrinks (base.shrinks shrinks) pos shrinks, client, removes⟩
  · exact closed

/-- The lookup of `remove_client`. -/
theorem Disconnects.find (base : Base server s)
    (disconnects : Disconnects server s w fd .removeClient) {clients : Threads}
    (removes : threads.step s.clients (.remove w fd) = some (clients, ds)) :
    Disconnected server s { s with clients } w fd
      (if clients.call w = .idle then none else some .removing) ds := by
  obtain ⟨pos, idle, unwatched, streamless⟩ := disconnects
  cases threads_move removes with
  | missing =>
      rw [if_pos idle]
      exact ⟨.refl s, fun _ _ => rfl, rfl, fun _ => idle, by rintro _ ⟨⟩, by simp⟩
  | @found _ _ idx _ found =>
      have here := (findClientIndex_slot found).2.2
      apply streamless.walk base pos unwatched
      · exact ⟨idx, ((base.slots idx).client pos here).1⟩
      · exact .of_same rfl rfl rfl rfl
      · simp [Threads.goto, CallAt.Removes]
      · intro w' ne
        simp [Threads.goto, Function.update_of_ne ne]
      · simp

/-- A later block of `remove_client`. -/
theorem Disconnects.go (base : Base server s) (disconnects : Disconnects server s w fd .removing)
    {out : Threads × List Descriptor} (goes : s.clients.go w = some out) :
    Disconnected server s { s with clients := out.1 } w fd
      (if out.1.call w = .idle then none else some .removing) out.2 := by
  obtain ⟨pos, unwatched, streamless, client, removes⟩ := disconnects
  have walks : ∀ target : CallAt, target.Removes server s fd →
      Disconnected server s { s with clients := s.clients.goto w target } w fd
        (if (s.clients.goto w target).call w = .idle then none else some .removing) [] := by
    intro target removes
    apply streamless.walk base pos unwatched client
    · exact .of_same rfl rfl rfl rfl
    · simpa [Threads.goto] using removes
    · intro w' ne
      simp [Threads.goto, Function.update_of_ne ne]
    · simp
  unfold Threads.go at goes
  cases here : s.clients.call w with
  | idle | accepted | adding => simp [here, CallAt.Removes] at removes
  | streamIndex fd' idx =>
      rw [here] at removes
      obtain rfl : fd' = fd := removes
      simp only [here] at goes
      split at goes
      · cases goes
        exact walks _ rfl
      next read found =>
          cases goes
          have is := (findClientIndex_slot found).2.2
          exact walks _ ⟨rfl, ((base.slots read).client pos is).1⟩
  | streamRead fd' idx read =>
      rw [here] at removes
      obtain ⟨rfl, start⟩ := removes
      simp only [here] at goes
      split at goes
      · cases goes
        exact walks _ rfl
      next some_ =>
          cases goes
          obtain ⟨same, stream⟩ := (base.slots read).stream (not_le.mp some_)
          refine walks _ ⟨rfl, base.stream_not_serv stream.symm, ?_⟩
          exact streamless read (same.trans start)
  | stream fd' idx block =>
      rw [here] at removes
      obtain ⟨rfl, left⟩ := removes
      cases block with
      | close streamFd found =>
          simp only [here] at goes
          cases goes
          apply streamless.walk base pos unwatched client
          · exact ⟨rfl, closeStream_slot s.clients streamFd found, fun _ => id, fun _ => id⟩
          · simp [Threads.goto, CallAt.Removes]
          · intro w' ne
            simp [Threads.goto, Threads.closeStream, Threads.close, Function.update_of_ne ne]
          · intro fd'' mem
            cases List.mem_singleton.mp mem
            exact left
      | _ =>
          simp only [here] at goes
          split at goes
          · cases goes
            exact walks _ rfl
          next after =>
              cases goes
              refine walks _ ⟨rfl, ?_⟩
              rw [StreamBlock.next_streamFd after]
              exact left
  | clear fd' idx =>
      rw [here] at removes
      obtain rfl : fd' = fd := removes
      simp only [here] at goes
      cases goes
      obtain ⟨i, start⟩ := client
      have idle : ((((s.clients.setPool (clearClient idx s.clients.pool)).close fd').goto w
          .idle).call w) = .idle := by simp [Threads.goto]
      rw [if_pos idle]
      constructor
      · exact ⟨rfl, fun i => clearClient_slot idx i s.pool, fun _ => id, fun _ => id⟩
      · intro w' ne
        simp [Threads.goto, Threads.setPool, Threads.close, Function.update_of_ne ne]
      · rfl
      · exact fun _ => idle
      · rintro _ ⟨⟩
      · intro fd'' mem
        cases List.mem_singleton.mp mem
        exact ⟨unwatched, base.client_not_strm pos start⟩

/-- A block of `disconnect_client`. -/
theorem Disconnects.step (base : Base server s) {at_ : DisconnectAt}
    (disconnects : Disconnects server s w fd at_)
    (step : s.disconnect w fd at_ = some (t, next, ds)) :
    Disconnected server s t w fd next ds := by
  obtain ⟨pos, sound⟩ := disconnects
  -- the statements before `remove_client` leave the pool as it is
  have looks : ∀ {serv strm : Watch} {at_' : DisconnectAt}, Shrinks s { s with serv, strm } →
      at_'.Sound server { s with serv, strm } w fd →
      Disconnected server s { s with serv, strm } w fd (some at_') [] := by
    intro serv strm at_' shrinks sound'
    refine ⟨shrinks, fun _ _ => rfl, rfl, by rintro ⟨⟩, ?_, by simp⟩
    rintro _ ⟨⟩
    exact ⟨pos, sound'⟩
  cases at_ with
  | unwatch =>
      cases step
      refine looks ⟨rfl, fun i => .refl _, fun _ => mem_of_mem_remove, fun _ => id⟩ ⟨sound, ?_⟩
      exact fun mem => ((mem_updateFdSet_remove pos).mp mem).1 rfl
  | fdFind =>
      obtain ⟨idle, unwatched⟩ := sound
      simp only [disconnect] at step
      split at step
      next absent =>
          cases step
          refine looks (.refl s) ⟨idle, unwatched, fun i here => ?_⟩
          exact absurd here (findClientIndex_none pos absent i)
      next idx found =>
          cases step
          refine looks (.refl s) ⟨idle, unwatched, fun i here => ?_⟩
          have is := (findClientIndex_slot found).2.2
          exact base.same_slot pos here ((base.slots idx).client pos is).1
  | fdRead idx =>
      obtain ⟨idle, unwatched, read⟩ := sound
      simp only [disconnect] at step
      split at step
      next none_ =>
          cases step
          refine looks (.refl s) ⟨idle, unwatched, fun i here mem => ?_⟩
          obtain rfl := read i here
          exact absurd none_ (not_le.mpr (base.pos_of_strm mem))
      next some_ =>
          cases step
          refine looks (.refl s) ⟨idle, unwatched, not_le.mp some_, fun i here => .inr ?_⟩
          rw [read i here]
  | unwatchStream streamFd =>
      obtain ⟨idle, unwatched, streamPos, found⟩ := sound
      cases step
      refine looks ⟨rfl, fun i => .refl _, fun _ => id, fun _ => mem_of_mem_remove⟩
        ⟨idle, unwatched, fun i here mem => ?_⟩
      rcases found i here with none_ | same
      · have positive := base.pos_of_strm (mem_of_mem_remove mem)
        exact absurd none_ (ne_of_gt positive)
      · exact ((mem_updateFdSet_remove streamPos).mp mem).1 same
  | removeClient =>
      simp only [disconnect, Option.map_eq_some_iff] at step
      obtain ⟨out, removes, eq⟩ := step
      cases eq
      exact Disconnects.find base ⟨pos, sound⟩ removes
  | removing =>
      simp only [disconnect, Option.map_eq_some_iff] at step
      obtain ⟨out, goes, eq⟩ := step
      cases eq
      exact Disconnects.go base ⟨pos, sound⟩ goes

end Disconnected

end Loops

/-! ### Every thread -/

/-- `disconnect_client` of the server thread. -/
def RunServerAt.disconnect : RunServerAt → Option (Int × DisconnectAt)
  | .disconnecting _ _ fd at_ => some (fd, at_)
  | _ => none

/-- `disconnect_client` of the response thread. -/
def RunResponseAt.disconnect : RunResponseAt → Option (Int × DisconnectAt)
  | .disconnecting fd at_ => some (fd, at_)
  | _ => none

/-- The server thread is not about to add a client. -/
def RunServerAt.Quiet : RunServerAt → Prop
  | .connecting _ | .registering .. => False
  | .receiving _ _ fd => 0 < fd
  | _ => True

/-- The response thread does not execute a STREAM. -/
def RunResponseAt.Quiet : RunResponseAt → Prop
  | .request .. => False
  | _ => True

namespace Loops

variable {s t : Loops} {es : List LoopEvent} {server : Server} {a : LoopAction}

def disconnecting (s : Loops) : Worker → Option (Int × DisconnectAt)
  | .server => s.server.disconnect
  | .response => s.response.disconnect

/-- Where the threads are while nothing is added. -/
structure Settled (server : Server) (s : Loops) : Prop where
  base : Base server s
  server_ : s.server.Quiet
  response : s.response.Quiet
  idle : ∀ w, s.disconnecting w = none → s.clients.call w = .idle
  disconnects : ∀ w fd at_, s.disconnecting w = some (fd, at_) → Disconnects server s w fd at_
  streamFd : ∀ fd ∈ s.stream.streamFd, ∃ i, (server.world.pool.slot i).streamFd = fd
  unwatched : ∀ fd ∈ s.stream.unwatched, fd ∉ s.strm.set

/-- Nothing is registered, and nothing is closed that is in a set. -/
def Spares (s : Loops) (es : List LoopEvent) : Prop :=
  (∀ fd, .closed fd ∈ es → fd ∉ s.serv.set ∧ fd ∉ s.strm.set) ∧ ∀ fd, .registered fd ∉ es

theorem spares_nil (s : Loops) : s.Spares [] := ⟨by simp, by simp⟩

theorem Selects.spares {set : Finset Int} (selects : Selects s set es) : s.Spares es := by
  constructor
  · intro fd mem
    rcases selects.quiet _ mem with eq | ⟨_, eq⟩ <;> cases eq
  · intro fd mem
    rcases selects.quiet _ mem with eq | ⟨_, eq⟩ <;> cases eq

theorem spares_events {ds : List Descriptor}
    (closed : ∀ fd, .closed fd ∈ ds → fd ∉ s.serv.set ∧ fd ∉ s.strm.set) :
    s.Spares (ds.map Descriptor.event) := by
  constructor
  · intro fd mem
    obtain ⟨d, mem, eq⟩ := List.mem_map.mp mem
    cases d with
    | opened => cases eq
    | closed =>
        cases eq
        exact closed fd mem
  · intro fd mem
    obtain ⟨d, -, eq⟩ := List.mem_map.mp mem
    cases d <;> cases eq

/-- The thread of a worker takes a step; the other threads are where they were. -/
theorem Settled.worker (settled : Settled server s) (w : Worker) (shrinks : Shrinks s t)
    (server_ : t.server.Quiet) (response : t.response.Quiet)
    (other : ∀ w', w' ≠ w → t.disconnecting w' = s.disconnecting w' ∧
      t.clients.call w' = s.clients.call w')
    (idle : t.disconnecting w = none → t.clients.call w = .idle)
    (disconnects : ∀ fd at_, t.disconnecting w = some (fd, at_) → Disconnects server t w fd at_)
    (stream : t.stream = s.stream) : Settled server t := by
  have base := settled.base.shrinks shrinks
  constructor
  · exact base
  · exact server_
  · exact response
  · intro w' none_
    by_cases same : w' = w
    · subst same
      exact idle none_
    · obtain ⟨at_, call⟩ := other w' same
      rw [call]
      exact settled.idle w' (at_.symm.trans none_)
  · intro w' fd at_ here
    by_cases same : w' = w
    · subst same
      exact disconnects fd at_ here
    · obtain ⟨eq, call⟩ := other w' same
      exact (settled.disconnects w' fd at_ (eq.symm.trans here)).shrinks base shrinks call
  · rw [stream]
    exact settled.streamFd
  · rw [stream]
    exact fun fd mem mem' => settled.unwatched fd mem (shrinks.strm fd mem')

/-- The stream thread takes a step, and the workers are where they were. -/
theorem Settled.streams (settled : Settled server s) (shrinks : Shrinks s t)
    (server_ : t.server = s.server) (response : t.response = s.response)
    (call : t.clients.call = s.clients.call)
    (streamFd : ∀ fd ∈ t.stream.streamFd, ∃ i, (server.world.pool.slot i).streamFd = fd)
    (unwatched : ∀ fd ∈ t.stream.unwatched, fd ∉ t.strm.set) : Settled server t := by
  have base := settled.base.shrinks shrinks
  have at_ : ∀ w, t.disconnecting w = s.disconnecting w := by
    intro w
    cases w with
    | server => exact congrArg RunServerAt.disconnect server_
    | response => exact congrArg RunResponseAt.disconnect response
  constructor
  · exact base
  · exact server_ ▸ settled.server_
  · exact response ▸ settled.response
  · intro w none_
    rw [call]
    exact settled.idle w ((at_ w).symm.trans none_)
  · intro w fd here at_'
    exact (settled.disconnects w fd here ((at_ w).symm.trans at_')).shrinks base shrinks
      (congrFun call w)
  · exact streamFd
  · exact unwatched

/-- Each way in which the server thread can go on while no client is accepted. -/
inductive ServerMove (s : Loops) : Loops → List LoopEvent → Prop where
  | goes {running : Bool} {server : RunServerAt} {es : List LoopEvent}
      (at_ : s.server.disconnect = none) (quiet : server.Quiet)
      (begins : ∀ fd at_, server.disconnect = some (fd, at_) → 0 < fd ∧ at_ = .unwatch)
      (spares : s.Spares es) : ServerMove s { s with running, server } es
  | disconnects {readSet : Finset Int} {idx : Nat} {fd : Int} {at_ : DisconnectAt} {t : Loops}
      {next : Option DisconnectAt} {ds : List Descriptor} {server : RunServerAt}
      (here : s.server = .disconnecting readSet idx fd at_)
      (block : s.disconnect .server fd at_ = some (t, next, ds)) (quiet : server.Quiet)
      (after : server.disconnect = next.map fun at_ => (fd, at_)) :
      ServerMove s { t with server } (ds.map Descriptor.event)

/-- The thread goes on, and the others see nothing of it. -/
theorem ServerMove.on {server : RunServerAt} (at_ : s.server.disconnect = none)
    (quiet : server.Quiet) (none_ : server.disconnect = none) :
    ServerMove s { s with server } [] := by
  refine .goes at_ quiet ?_ (spares_nil s)
  rw [none_]
  rintro _ _ ⟨⟩

theorem runServer_move {r : Results} (quiet : s.server.Quiet) (accept : r.accept = none)
    (step : s.runServer r = some (t, es)) :
    ServerMove s t es := by
  unfold runServer at step
  split at step
  next at_ =>
      have here : s.server.disconnect = none := by rw [at_]; rfl
      split at step
      · cases step
        exact .on here trivial rfl
      · cases step
        exact .on here trivial rfl
  next set at_ =>
      have here : s.server.disconnect = none := by rw [at_]; rfl
      split at step
      next failed =>
          cases step
          exact .goes here trivial (by rintro _ _ ⟨⟩) (selects_failed failed).spares
      · cases step
        exact .goes here trivial (by rintro _ _ ⟨⟩) (selects_ok s set).spares
  next set at_ =>
      have here : s.server.disconnect = none := by rw [at_]; rfl
      split at step
      · cases step
      all_goals
        cases step
        exact .on here trivial rfl
  next readSet at_ =>
      have here : s.server.disconnect = none := by rw [at_]; rfl
      rw [accept] at step
      split at step
      · cases step
        exact .on here trivial rfl
      · cases step
        exact .on here trivial rfl
  next readSet at_ =>
      rw [at_] at quiet
      exact quiet.elim
  next readSet clientFd at_ =>
      rw [at_] at quiet
      exact quiet.elim
  next readSet idx at_ =>
      have here : s.server.disconnect = none := by rw [at_]; rfl
      split at step
      · cases step
        exact .on here trivial rfl
      · dsimp only at step
        split at step
        · cases step
          exact .on here trivial rfl
        next ready =>
            cases step
            exact .on here (not_le.mp (not_or.mp ready).1) rfl
  next readSet idx fd at_ =>
      have here : s.server.disconnect = none := by rw [at_]; rfl
      rw [at_] at quiet
      split at step
      · cases step
        exact .on here trivial rfl
      · cases step
        refine .goes here trivial ?_ (spares_nil s)
        rintro _ _ ⟨⟩
        exact ⟨quiet, rfl⟩
  next readSet idx fd at_ here =>
      simp only [Option.map_eq_some_iff] at step
      obtain ⟨⟨m, next, ds⟩, block, eq⟩ := step
      cases eq
      refine .disconnects here block ?_ ?_
      · cases next <;> trivial
      · cases next <;> rfl
  · cases step

/-- What a step keeps, and what it spares. -/
def Kept (server : Server) (s t : Loops) (es : List LoopEvent) : Prop :=
  Settled server t ∧ s.Spares es

theorem ServerMove.kept (settled : Settled server s) (move : ServerMove s t es) :
    Kept server s t es := by
  cases move with
  | goes at_ quiet begins spares =>
      have idle := settled.idle .server at_
      refine ⟨?_, spares⟩
      apply settled.worker .server
      · exact .of_same rfl rfl rfl rfl
      · exact quiet
      · exact settled.response
      · intro w' ne
        cases w' with
        | server => exact absurd rfl ne
        | response => exact ⟨rfl, rfl⟩
      · exact fun _ => idle
      · intro fd at_' here
        obtain ⟨pos, rfl⟩ := begins fd at_' here
        exact ⟨pos, idle⟩
      · rfl
  | @disconnects _ _ fd at_ m next ds server' here block quiet after =>
      have at_' : s.disconnecting .server = some (fd, at_) := by
        rw [disconnecting, here]
        rfl
      have block' := (settled.disconnects .server fd at_ at_').step settled.base block
      refine ⟨?_, spares_events block'.closed⟩
      apply settled.worker .server
      · exact block'.shrinks.trans (.of_same rfl rfl rfl rfl)
      · exact quiet
      · exact block'.response ▸ settled.response
      · intro w' ne
        cases w' with
        | server => exact absurd rfl ne
        | response => exact ⟨congrArg RunResponseAt.disconnect block'.response, block'.other _ ne⟩
      · intro none_
        refine block'.ends ?_
        simpa [disconnecting, after] using none_
      · intro fd' at_'' now
        simp only [disconnecting, after, Option.map_eq_some_iff, Prod.mk.injEq] at now
        obtain ⟨_, mem, rfl, rfl⟩ := now
        refine (block'.goes _ mem).shrinks (settled.base.shrinks ?_) (.of_same rfl rfl rfl rfl) rfl
        exact block'.shrinks.trans (.of_same rfl rfl rfl rfl)
      · exact (disconnect_frame block).2.2.2.1

theorem runResponse_kept {r : Results} (settled : Settled server s)
    (step : s.runResponse r = some (t, es)) : Kept server s t es := by
  have quiet := settled.response
  unfold runResponse at step
  split at step
  · cases step
  next at_ =>
      rw [at_] at quiet
      exact quiet.elim
  next fd at_ here =>
      simp only [Option.map_eq_some_iff] at step
      obtain ⟨⟨m, next, ds⟩, block, eq⟩ := step
      cases eq
      have at_' : s.disconnecting .response = some (fd, at_) := by
        rw [disconnecting, here]
        rfl
      have block' := (settled.disconnects .response fd at_ at_').step settled.base block
      have frame := disconnect_frame block
      refine ⟨?_, spares_events block'.closed⟩
      apply settled.worker .response
      · exact block'.shrinks.trans (.of_same rfl rfl rfl rfl)
      · exact frame.2.2.1 ▸ settled.server_
      · cases next <;> trivial
      · intro w' ne
        cases w' with
        | server => exact ⟨congrArg RunServerAt.disconnect frame.2.2.1, block'.other _ ne⟩
        | response => exact absurd rfl ne
      · intro none_
        refine block'.ends ?_
        cases next with
        | none => rfl
        | some => cases none_
      · intro fd' at_'' now
        cases next with
        | none => cases now
        | some =>
            cases now
            refine (block'.goes _ rfl).shrinks (settled.base.shrinks ?_)
              (.of_same rfl rfl rfl rfl) rfl
            exact block'.shrinks.trans (.of_same rfl rfl rfl rfl)
      · exact frame.2.2.2.1

theorem StreamMove.kept (settled : Settled server s) (move : StreamMove s t es) :
    Kept server s t es := by
  cases move with
  | copies =>
      refine ⟨?_, spares_nil s⟩
      exact settled.streams (.of_same rfl rfl rfl rfl) rfl rfl rfl (by rintro _ ⟨⟩) (by rintro _ ⟨⟩)
  | selects _ _ found selects =>
      refine ⟨settled.streams (.of_same rfl rfl rfl rfl) rfl rfl rfl ?_ ?_, selects.spares⟩
      · rw [found]
        rintro _ ⟨⟩
      · intro fd mem
        have still := RunStreamAt.streamFd_of_unwatched mem
        rw [found] at still
        cases still
  | goes _ found unwatched =>
      refine ⟨settled.streams (.of_same rfl rfl rfl rfl) rfl rfl rfl ?_ ?_, spares_nil s⟩
      · intro fd mem
        rcases found fd mem with old | ⟨pos, i, here⟩
        · exact settled.streamFd fd old
        · subst here
          exact ⟨i, ((settled.base.slots i).stream pos).2.symm⟩
      · exact fun fd mem => settled.unwatched fd (unwatched fd mem)
  | @unwatches writeSet idx streamFd at_ =>
      have mem : streamFd ∈ s.stream.streamFd := by
        rw [at_]
        rfl
      refine ⟨settled.streams ?_ rfl rfl rfl ?_ ?_, spares_nil s⟩
      · exact ⟨rfl, fun i => .refl _, fun _ => id, fun _ => mem_of_mem_remove⟩
      · rintro _ ⟨⟩
        exact settled.streamFd streamFd mem
      · rintro _ ⟨⟩ mem'
        have pos : 0 < streamFd := settled.base.pos_of_strm (mem_of_mem_remove mem')
        exact ((mem_updateFdSet_remove pos).mp mem').1 rfl
  | @closes writeSet idx found streamFd at_ =>
      have mem : streamFd ∈ s.stream.unwatched := by
        rw [at_]
        rfl
      refine ⟨settled.streams ?_ rfl rfl rfl (by rintro _ ⟨⟩) (by rintro _ ⟨⟩), ?_, by simp⟩
      · exact ⟨rfl, closeStream_slot s.clients streamFd found, fun _ => id, fun _ => id⟩
      · intro fd closed
        cases List.mem_singleton.mp closed
        obtain ⟨i, start⟩ := settled.streamFd streamFd (RunStreamAt.streamFd_of_unwatched mem)
        exact ⟨settled.base.stream_not_serv start, settled.unwatched streamFd mem⟩

/-- While nothing is added every step keeps the threads settled, and closes nothing that is
in a set. -/
theorem Settled.step (settled : Settled server s) (quiet : s.NoNewcomers a)
    (step : machine.step s a = some (t, es)) : Kept server s t es := by
  cases a with
  | server r => exact (runServer_move settled.server_ quiet step).kept settled
  | response r => exact runResponse_kept settled step
  | stream r => exact (runStream_move step).kept settled
  | request => exact quiet.elim
  | disconnect fd =>
      simp only [machine] at step
      split at step
      next can =>
          cases step
          have idle := settled.idle .response (by rw [disconnecting, can.1]; rfl)
          refine ⟨?_, spares_nil s⟩
          apply settled.worker .response
          · exact .of_same rfl rfl rfl rfl
          · exact settled.server_
          · trivial
          · intro w' ne
            cases w' with
            | server => exact ⟨rfl, rfl⟩
            | response => exact absurd rfl ne
          · exact fun _ => idle
          · rintro _ _ ⟨⟩
            exact ⟨can.2, idle⟩
          · rfl
      · cases step
  | stop =>
      cases step
      refine ⟨?_, spares_nil s⟩
      exact settled.streams (.of_same rfl rfl rfl rfl) rfl rfl rfl settled.streamFd
        settled.unwatched

theorem Settled.sparesSets (settled : Settled server s) (quiet : s.NoNewcomers a) :
    s.SparesSets a := by
  intro t es step
  obtain ⟨-, closed, registered⟩ := settled.step quiet step
  exact ⟨closed, fun fd mem => absurd mem (registered fd)⟩

theorem Between.settled (between : Between s server) : Settled server s := by
  constructor
  · refine ⟨tracked_reached between.reach, between.serverFd, fun i => ?_, fun fd mem => ?_,
      fun fd mem => ?_⟩
    · rw [pool, Threads.pool, between.world]
      exact .refl _
    · exact between.serv ▸ mem
    · exact between.strm ▸ mem
  · rw [between.server_]
    trivial
  · rw [between.response]
    trivial
  · exact fun w _ => between.idle w
  · intro w fd at_ here
    cases w with
    | server => simp [disconnecting, between.server_, RunServerAt.disconnect] at here
    | response => simp [disconnecting, between.response, RunResponseAt.disconnect] at here
  · rw [between.stream]
    rintro _ ⟨⟩
  · rw [between.stream]
    rintro _ ⟨⟩

/-- Between two operations every member of a set is open. -/
theorem Between.setsOpen (between : Between s server) : SetsOpen s := by
  have tracked := tracked_reached between.reach
  constructor
  · intro fd mem
    rw [between.serv] at mem
    rw [between.opened]
    rcases (tracked.agrees.serv fd).mp mem with rfl | ⟨pos, i, rfl⟩
    · exact tracked.serverFd.2
    · exact ((tracked.clientFd i).resolve_left (ne_of_gt pos)).2
  · intro fd mem
    rw [between.strm] at mem
    rw [between.opened]
    obtain ⟨pos, i, rfl⟩ := (tracked.agrees.strm fd).mp mem
    exact tracked.streamFd i pos
  · intro fd mem
    simp [between.server_, RunServerAt.copy] at mem
  · intro fd mem
    simp [between.stream, RunStreamAt.copy] at mem

/-- `pselect` is given no closed descriptor, and no loop ends for one, if no thread closes a
descriptor of a copy that is under way. Where clients are accepted and streams made
meanwhile, none may close a registered descriptor or register a closed one either; while
nothing is added they never do. -/
theorem pselects_open {as : List LoopAction} (between : Between s server)
    (copies : machine.Along SparesCopies s as)
    (sets : machine.Along SparesSets s as ∨ machine.Along NoNewcomers s as) :
    machine.Along PselectsOpen s as := by
  have open_ := between.setsOpen
  rcases sets with sets | quiet
  · exact along_of_inv (fun _ _ _ _ inv spares step => inv.keep spares step)
      (fun _ _ inv _ => inv.pselectsOpen) open_ (along_and copies sets)
  · refine along_of_inv (I := fun s => Settled server s ∧ SetsOpen s) ?_ ?_
      ⟨between.settled, open_⟩ (along_and copies quiet)
    · intro s a t es inv spares step
      have sets := inv.1.sparesSets spares.2
      exact ⟨(inv.1.step spares.2 step).1, inv.2.keep ⟨spares.1, sets⟩ step⟩
    · exact fun _ _ inv _ => inv.2.pselectsOpen

/-- The response thread disconnects client 4. -/
def disconnects : List LoopAction := .disconnect 4 :: List.replicate 7 (.response (goesWell ∅))

/-- It does so while the server thread waits in `pselect`, which a signal then interrupts. -/
def whileWaiting : List LoopAction :=
  List.replicate 2 (.server (goesWell ∅)) ++ disconnects ++
    List.replicate 3 (.server { goesWell ∅ with interrupted := true })

theorem whileWaiting_open : machine.Along PselectsOpen (ofServer twoClients) whileWaiting :=
  pselects_open twoClients_between (by decide) (.inr (by decide))

/-- It does so after `wait_fd` has copied the set. -/
def afterCopy : List LoopAction :=
  .server (goesWell ∅) :: disconnects ++ [.server (goesWell ∅)]

theorem afterCopy_closed : Between (ofServer twoClients) twoClients ∧
    machine.Along NoNewcomers (ofServer twoClients) afterCopy ∧
    ∃ t, machine.exec (ofServer twoClients) afterCopy =
        some (t, [.closed 4, .pselect {4}, .loopFailed]) ∧
      t.server = .finished ∧ t.running = false := by
  refine ⟨twoClients_between, by decide, _, rfl, rfl, rfl⟩

end Loops

end OdroidPlayer
