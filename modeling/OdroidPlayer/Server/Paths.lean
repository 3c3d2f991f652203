import OdroidPlayer.Server.Select
import Mathlib.Tactic.IntervalCases

/-!
The paths of the streams.

`create_socket_name` takes the lowest number for which no file exists. The server binds
its own path at once, but the path of the client stays without a file until the client
binds it, so a second stream that is set in between gets the same one. Two streams share
a path exactly when the lowest free number is that of a live stream (`Unclaimed`).
-/

namespace OdroidPlayer

open Transition.System

/-! ### The lowest free name -/

/-- No file has this name, and every lower number has one. -/
def LowestFree (files : List String) (name path : String) : Prop :=
  ∃ cnt, path = socketName name cnt ∧ path ∉ files ∧ ∀ lower < cnt, socketName name lower ∈ files

theorem LowestFree.unique {files : List String} {name path path' : String}
    (free : LowestFree files name path) (free' : LowestFree files name path') : path = path' := by
  obtain ⟨cnt, rfl, absent, below⟩ := free
  obtain ⟨cnt', rfl, absent', below'⟩ := free'
  rcases Nat.lt_trichotomy cnt cnt' with less | rfl | more
  · exact absurd (below' cnt less) absent
  · rfl
  · exact absurd (below cnt' more) absent'

theorem createSocketName_lowestFree {files : List String} {name path : String}
    (named : createSocketName files name = some path) : LowestFree files name path := by
  unfold createSocketName at named
  rw [List.find?_map, Option.map_eq_some_iff] at named
  obtain ⟨cnt, found, rfl⟩ := named
  obtain ⟨absent, _, below⟩ := List.find?_range_eq_some.mp found
  refine ⟨cnt, rfl, by simpa using absent, fun lower less => ?_⟩
  simpa using below lower less

/-! ### Streams come and go -/

/-- The operations on the streams and on the files of their paths. -/
inductive StreamAction where
  | accept (result : Option Int)
  | setNewStream (env : SocketEnv) (clientFd : Int)
  | disconnect (clientFd : Int)
  | streamFailed (index : Nat)
  /-- a client binds a socket to a path -/
  | bind (path : String)
  deriving DecidableEq, Repr

def StreamAction.Admitted (s : Server) : StreamAction → Prop
  | .accept result => ∀ fd ∈ result, s.HandsOut fd
  | .setNewStream env clientFd => clientFd ∈ s.accepted ∧ ∀ fd ∈ env.socket, s.HandsOut fd
  | .disconnect clientFd => clientFd ∈ s.accepted
  | .streamFailed _ => True
  | .bind path => path ∉ s.world.files

instance (s : Server) (a : StreamAction) : Decidable (a.Admitted s) := by
  cases a <;> unfold StreamAction.Admitted <;> infer_instance

def StreamAction.apply (s : Server) : StreamAction → Server
  | .accept result => acceptClient result s
  | .setNewStream env clientFd => (OdroidPlayer.setNewStream env clientFd s).2
  | .disconnect clientFd => disconnectClient clientFd s
  | .streamFailed index => OdroidPlayer.streamFailed index s
  | .bind path => { s with world.files := path :: s.world.files }

def streams : Transition.System Server StreamAction Unit :=
  ⟨fun s a => if a.Admitted s then some (a.apply s, []) else none⟩

/-- The paths of two clients with a live stream are different. -/
def Server.DistinctPaths (s : Server) : Prop :=
  ∀ i j, i ≠ j → (s.world.pool.slot i).streamSet = true → (s.world.pool.slot j).streamSet = true →
    (s.world.pool.slot i).clientStreamPath ≠ (s.world.pool.slot j).clientStreamPath ∧
      (s.world.pool.slot i).serverStreamPath ≠ (s.world.pool.slot j).serverStreamPath

/-- Where a stream is made, the lowest free name is not that of another live stream. -/
def Unclaimed (s : Server) : StreamAction → Prop
  | .setNewStream env clientFd => ∀ idx,
      findClientIndex clientFd s.world.pool .clientFd = some idx → env.Binds →
      ∀ j ≠ idx, (s.world.pool.slot j).streamSet = true →
        (∀ path ∈ (s.world.pool.slot j).clientStreamPath,
          ¬ LowestFree (filesWithout (s.world.pool.slot idx) s.world.files) "opc_stream" path) ∧
        ∀ path ∈ (s.world.pool.slot j).serverStreamPath,
          ¬ LowestFree (filesWithout (s.world.pool.slot idx) s.world.files) "ops_stream" path
  | _ => True

/-! ### Steps that make no stream -/

/-- A live stream of the second pool is one of the first. -/
def Pool.NoNewStream (before after : Pool) : Prop :=
  ∀ i, (after.slot i).streamSet = true → after.slot i = before.slot i

namespace Pool.NoNewStream

variable {before after last : Pool}

theorem refl (pool : Pool) : NoNewStream pool pool := fun _ _ => rfl

theorem trans (first : NoNewStream before after) (second : NoNewStream after last) :
    NoNewStream before last := fun i set => by
  have same := second i set
  rw [same] at set ⊢
  exact first i set

/-- A store of a slot without a live stream. -/
theorem store (pool : Pool) (idx : Nat) {client : Client} (unset : client.streamSet = false) :
    NoNewStream pool (pool.store idx client) := fun i set => by
  rcases pool.slot_store idx i client with ⟨_, new⟩ | old
  · rw [new, unset] at set
    cases set
  · exact old

theorem distinct {s t : Server} (fewer : NoNewStream s.world.pool t.world.pool)
    (distinct : s.DistinctPaths) : t.DistinctPaths := fun i j other set set' => by
  have same := fewer i set
  have same' := fewer j set'
  rw [same] at set ⊢
  rw [same'] at set' ⊢
  exact distinct i j other set set'

end Pool.NoNewStream

theorem removeClientStream_noNew (fd : Int) (w : World) :
    w.pool.NoNewStream (removeClientStream fd w).1.pool := by
  unfold removeClientStream
  split
  · exact .refl _
  · split
    · exact .store _ _ rfl
    · exact .refl _

theorem removeClient_noNew (fd : Int) (w : World) :
    w.pool.NoNewStream (removeClient fd w).1.pool := by
  unfold removeClient
  split
  · exact .refl _
  · exact (removeClientStream_noNew _ w).trans (.store _ _ rfl)

theorem acceptClient_noNew (result : Option Int) (s : Server) :
    s.world.pool.NoNewStream (acceptClient result s).world.pool := by
  cases result with
  | none => exact .refl _
  | some fd =>
      rcases connectNewClient_some fd s with ⟨id, made⟩ | made | ⟨pool, added, made⟩
      · simp only [acceptClient, made]
        exact .refl _
      · simp only [acceptClient, made]
        exact .refl _
      · obtain ⟨idx, _, _, rfl⟩ := addClient_some added
        simp only [acceptClient, made]
        split
        · exact .store _ _ rfl
        · exact .store _ _ rfl

theorem streamFailed_noNew (index : Nat) (s : Server) :
    s.world.pool.NoNewStream (streamFailed index s).world.pool := by
  unfold streamFailed
  dsimp only
  split
  · exact .refl _
  · exact removeClientStream_noNew _ s.world

/-! ### A step that makes one -/

theorem setNewStream_world (env : SocketEnv) (fd : Int) (s : Server) :
    (setNewStream env fd s).2.world = (createClientStream env fd s.world).2.1 := by
  unfold setNewStream
  generalize createClientStream env fd s.world = made
  obtain ⟨result, out⟩ := made
  cases result with
  | false => rfl
  | true =>
      dsimp only
      split <;> rfl

/-- A stream in one slot, with the lowest free names, keeps the paths different exactly when
no other live stream has one of these names. -/
theorem distinct_withStream {s t : Server} (distinct : s.DistinctPaths) {idx : Nat} {fd : Int}
    {files : List String} {server client : String} (bound : idx < maxClients)
    (pos : 0 < fd) (lowest : LowestFree files "ops_stream" server)
    (lowest' : LowestFree files "opc_stream" client)
    (pool : t.world.pool =
      s.world.pool.store idx ((s.world.pool.slot idx).withStream fd server client)) :
    t.DistinctPaths ↔ ∀ j ≠ idx, (s.world.pool.slot j).streamSet = true →
      (∀ path ∈ (s.world.pool.slot j).clientStreamPath, ¬ LowestFree files "opc_stream" path) ∧
        ∀ path ∈ (s.world.pool.slot j).serverStreamPath, ¬ LowestFree files "ops_stream" path := by
  have self : t.world.pool.slot idx = (s.world.pool.slot idx).withStream fd server client := by
    rw [pool, Pool.slot_store_self _ _ bound]
  have other : ∀ j, j ≠ idx → t.world.pool.slot j = s.world.pool.slot j := fun j ne => by
    rw [pool, Pool.slot_store_ne _ _ ne]
  have set : (t.world.pool.slot idx).streamSet = true := by
    simp [self, Client.streamSet, Client.withStream, pos]
  constructor
  · intro distinct' j ne set'
    have apart := distinct' j idx ne (by rwa [other j ne]) set
    rw [other j ne, self] at apart
    refine ⟨fun path has free => apart.1 ?_, fun path has free => apart.2 ?_⟩
    · rw [has, free.unique lowest']
      rfl
    · rw [has, free.unique lowest]
      rfl
  · intro unclaimed
    have apart : ∀ j ≠ idx, (s.world.pool.slot j).streamSet = true →
        (s.world.pool.slot j).clientStreamPath ≠ (t.world.pool.slot idx).clientStreamPath ∧
          (s.world.pool.slot j).serverStreamPath ≠ (t.world.pool.slot idx).serverStreamPath := by
      intro j ne set'
      obtain ⟨notClient, notServer⟩ := unclaimed j ne set'
      rw [self]
      exact ⟨fun is => notClient client is lowest', fun is => notServer server is lowest⟩
    have replaced : Slots.Replaced s.world.pool.slot t.world.pool.slot idx
        (t.world.pool.slot idx) := ⟨rfl, other⟩
    exact replaced.pairs (R := fun a b : Client => a.streamSet = true → b.streamSet = true →
      a.clientStreamPath ≠ b.clientStreamPath ∧ a.serverStreamPath ≠ b.serverStreamPath)
      (fun j ne _ set' => (apart j ne set').imp Ne.symm Ne.symm)
      (fun i ne set' _ => apart i ne set') distinct

theorem setNewStream_distinct {s : Server} (distinct : s.DistinctPaths) {env : SocketEnv}
    {fd : Int} (fresh : ∀ n ∈ env.socket, s.HandsOut n) :
    (setNewStream env fd s).2.DistinctPaths ↔ Unclaimed s (.setNewStream env fd) := by
  have world := setNewStream_world env fd s
  have same : (setNewStream env fd s).2.world.pool = s.world.pool →
      (setNewStream env fd s).2.DistinctPaths := fun eq => by
    unfold Server.DistinctPaths
    rwa [eq]
  cases found : findClientIndex fd s.world.pool .clientFd with
  | none =>
      simp only [createClientStream, found] at world
      exact iff_of_true (same (by rw [world])) fun idx found' => by simp [found] at found'
  | some idx =>
      simp only [createClientStream, found] at world
      have bound := (findClientIndex_slot found).2.1
      have positive : ∀ n ∈ env.socket, 0 < n := fun n made => by
        have := (fresh n made).1
        omega
      rcases createStreamAt_cases positive idx s.world with
        ⟨fails, _, unmade, _⟩ | ⟨n, server, client, binds, _, pos, named, named', made⟩
      · rw [unmade] at world
        exact iff_of_true (same (by rw [world])) fun _ _ binds => absurd binds fails
      · rw [made] at world
        have exactly := distinct_withStream distinct bound (Int.natCast_pos.mpr pos)
          (createSocketName_lowestFree named) (createSocketName_lowestFree named')
          (by rw [world])
        refine exactly.trans ⟨fun unclaimed idx' found' _ => ?_, fun unclaimed => ?_⟩
        · obtain rfl : idx = idx' := by simpa [found] using found'
          exact unclaimed
        · exact unclaimed idx found binds

theorem streams_step {s t : Server} {a : StreamAction} {es : List Unit}
    (distinct : s.DistinctPaths) (step : streams.step s a = some (t, es)) :
    t.DistinctPaths ↔ Unclaimed s a := by
  simp only [streams] at step
  split at step
  next admitted =>
      cases step
      cases a with
      | setNewStream env fd => exact setNewStream_distinct distinct admitted.2
      | accept result =>
          exact iff_of_true ((acceptClient_noNew result s).distinct distinct) trivial
      | disconnect fd =>
          exact iff_of_true ((removeClient_noNew fd s.world).distinct distinct) trivial
      | streamFailed idx =>
          exact iff_of_true ((streamFailed_noNew idx s).distinct distinct) trivial
      | bind path => exact iff_of_true distinct trivial
  · cases step

/-- The paths are different in every state of a run exactly when each stream of it is made
while the lowest free names are those of no other live stream. -/
theorem distinctPaths_iff {s t : Server} {as : List StreamAction} {log : List Unit}
    (start : StartServer s) (run : streams.exec s as = some (t, log)) :
    (streams.Along (fun u _ => u.DistinctPaths) s as ∧ t.DistinctPaths) ↔
      streams.Along Unclaimed s as := by
  have first : s.DistinctPaths := fun i j _ set => by
    have unset := (start.tracked.agrees.empty i (start.slot i ▸ rfl)).1
    simp [Client.streamSet, unset] at set
  exact along_iff_along (fun _ _ _ _ => streams_step) first run

/-- There is no stream outside the pool. -/
theorem Pool.lt_of_streamSet {pool : Pool} {j : Nat} (set : (pool.slot j).streamSet = true) :
    j < maxClients := by
  by_contra outside
  have none : pool.slot j = emptyClient := by
    have absent := List.getElem?_eq_none (pool.size ▸ not_lt.mp outside)
    rw [Pool.slot, List.getD_eq_getElem?_getD, absent, Option.getD_none]
  rw [none] at set
  cases set

/-- Where every other client has bound its path, and the files of the server are there, no lowest
free name is taken. -/
theorem unclaimed_of_bound {s : Server} {env : SocketEnv} {fd : Int}
    (bound : ∀ idx, findClientIndex fd s.world.pool .clientFd = some idx →
      ∀ j ≠ idx, (s.world.pool.slot j).streamSet = true →
        (∀ path ∈ (s.world.pool.slot j).clientStreamPath,
          path ∈ filesWithout (s.world.pool.slot idx) s.world.files) ∧
        ∀ path ∈ (s.world.pool.slot j).serverStreamPath,
          path ∈ filesWithout (s.world.pool.slot idx) s.world.files) :
    Unclaimed s (.setNewStream env fd) := by
  intro idx found _ j ne set
  obtain ⟨client, server⟩ := bound idx found j ne set
  refine ⟨fun path has free => ?_, fun path has free => ?_⟩
  · obtain ⟨_, _, absent, _⟩ := free
    exact absent (client path has)
  · obtain ⟨_, _, absent, _⟩ := free
    exact absent (server path has)

/-- Two clients get a stream, the first of them bound to its path. -/
def boundStreams : List StreamAction :=
  [.accept (some 4), .accept (some 5), .setNewStream ⟨some 6, true, true, true⟩ 4,
    .bind "/tmp/opc_stream0.sock", .setNewStream ⟨some 7, true, true, true⟩ 5]

theorem boundStreams_unclaimed : streams.Along Unclaimed newServer boundStreams := by
  refine along_cons trivial rfl (along_cons trivial rfl ?_)
  refine along_cons (unclaimed_of_bound ?_) rfl ?_
  · intro idx _ j _ set
    have inside : j < 8 := Pool.lt_of_streamSet set
    interval_cases j <;> cases set
  refine along_cons trivial rfl (along_cons (unclaimed_of_bound ?_) rfl trivial)
  intro idx found j ne set
  have inside : j < 8 := Pool.lt_of_streamSet set
  cases found
  interval_cases j
  · refine ⟨fun path has => ?_, fun path has => ?_⟩ <;> cases has <;> decide
  · exact absurd rfl ne
  all_goals cases set

theorem boundStreams_distinct : ∃ s, streams.exec newServer boundStreams = some (s, []) ∧
    (s.world.pool.slot 0).streamSet = true ∧ (s.world.pool.slot 1).streamSet = true ∧
    s.DistinctPaths := by
  have run : ∃ s, streams.exec newServer boundStreams = some (s, []) ∧
      (s.world.pool.slot 0).streamSet = true ∧ (s.world.pool.slot 1).streamSet = true :=
    ⟨_, rfl, rfl, rfl⟩
  obtain ⟨s, run, first, second⟩ := run
  exact ⟨s, run, first, second, ((distinctPaths_iff newServer_start run).mpr
    boundStreams_unclaimed).2⟩

/-- Two clients get a stream, the first of them not yet bound to its path. -/
def unboundStreams : List StreamAction :=
  [.accept (some 4), .accept (some 5), .setNewStream ⟨some 6, true, true, true⟩ 4,
    .setNewStream ⟨some 7, true, true, true⟩ 5]

/-- The second client is given the path of the first. -/
theorem unboundStreams_same : ∃ s, streams.Reachable StartServer s ∧ ¬ s.DistinctPaths ∧
    (s.world.pool.slot 0).clientStreamPath = some "/tmp/opc_stream0.sock" ∧
    (s.world.pool.slot 1).clientStreamPath = some "/tmp/opc_stream0.sock" := by
  refine ⟨_, ⟨_, newServer, newServer_start, unboundStreams, rfl⟩, fun distinct => ?_, ?_, ?_⟩
  · exact (distinct 0 1 Nat.zero_ne_one rfl rfl).1 rfl
  · decide
  · decide

/-- So the second stream was made under the name of the first. -/
theorem unboundStreams_claimed : ¬ streams.Along Unclaimed newServer unboundStreams := by
  intro unclaimed
  have last := (((unclaimed.2 _ _ rfl).2 _ _ rfl).2 _ _ rfl).1
  refine (last 1 rfl ?_ 0 Nat.zero_ne_one rfl).1 "/tmp/opc_stream0.sock" rfl ⟨0, ?_, ?_, ?_⟩
  · decide
  · decide
  · decide
  · simp

end OdroidPlayer
