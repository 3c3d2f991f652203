import OdroidPlayer.Server.Connections
import OdroidPlayer.Server.Serving

/-!
What is done for a node is done to the client of the node.

The descriptor of a node may be closed before the node is answered, and its number may
then be accepted again. `Owned` says that as long as nobody accepts it the descriptor of
a node is its client's or nobody's, and that the slots which the response thread has
looked up are still those of the descriptor or empty. Every effect in a run that keeps to
`Unmixed` is then one on the client of its node (`effects_own`).
-/

namespace OdroidPlayer

open Transition

/-! ### What a thread leaves alone -/

/-- The thread that takes a step. -/
def ThreadAction.worker : ThreadAction → Worker
  | .accept _ => .server
  | .remove w _ | .go w => w

section Move

variable {s t : Threads} {a : ThreadAction} {es : List Descriptor} (move : ThreadMove s a t es)
include move

theorem ThreadMove.call_other : t.call a.worker.other = s.call a.worker.other := by
  cases move with
  | missing _ _ => rfl
  | _ => exact Threads.goto_call_other ..

/-- A removal goes on with what it has looked up. -/
theorem ThreadMove.removing {fd : Int} {idx : Nat}
    (is : (t.call a.worker).removing = some (fd, idx)) :
    (s.call a.worker).removing = some (fd, idx) ∨ a = .remove a.worker fd := by
  cases move with
  | accept _ _ _ | refused _ | full _ | room _ | noSlot _ | added _ _ | cleared _ =>
      simp only [ThreadAction.worker, Threads.goto_call_self] at is
      cases is
  | missing _ _ => exact .inl is
  | found _ _ =>
      simp only [ThreadAction.worker, Threads.goto_call_self] at is
      cases is
      exact .inr rfl
  | walk at_ same _ =>
      simp only [ThreadAction.worker, Threads.goto_call_self, same] at is
      exact .inl (at_.trans is)
  | @streamClosed w _ _ _ _ at_ =>
      simp only [ThreadAction.worker, Threads.goto_call_self] at is
      left
      change (s.call w).removing = _
      rw [at_]
      exact is

/-- A descriptor is opened by `accept` and gets its client in `add_client`. -/
theorem ThreadMove.sockets (fd : Int) :
    t.sockets fd = s.sockets fd ∨ t.sockets fd = none ∨ a = .accept fd ∨
      (s.call a.worker).connecting = some fd := by
  have closes : ∀ fd', Function.update s.sockets fd' none fd = s.sockets fd ∨
      Function.update s.sockets fd' none fd = none := by
    intro fd'
    by_cases same : fd = fd'
    · rw [same, Function.update_self]
      exact .inr rfl
    · rw [Function.update_of_ne same]
      exact .inl rfl
  cases move with
  | @accept fd' _ _ _ =>
      by_cases same : fd = fd'
      · exact .inr (.inr (.inl (by rw [same])))
      · exact .inl (Function.update_of_ne same ..)
  | @refused _ fd' _ | @noSlot _ fd' _ | @streamClosed _ _ fd' _ _ _ | @cleared _ fd' _ _ =>
      rcases closes fd' with same | closed
      · exact .inl same
      · exact .inr (.inl closed)
  | full _ | room _ | missing _ _ | found _ _ | walk _ _ _ => exact .inl rfl
  | @added w fd' _ at_ _ =>
      by_cases same : fd = fd'
      · refine .inr (.inr (.inr ?_))
        change (s.call w).connecting = _
        rw [at_, same]
        rfl
      · exact .inl (Function.update_of_ne same ..)

/-- A slot is cleared with its descriptor, and filled when it is the lowest free one. -/
theorem ThreadMove.fds :
    t.pool.fds = s.pool.fds ∨
      (∃ fd idx, s.call a.worker = .clear fd idx ∧ t.pool.fds = s.pool.fds.set idx 0 ∧
        t.sockets fd = none) ∨
      ∃ fd idx, s.call a.worker = .adding fd ∧ a = .go a.worker ∧
        s.pool.fds.findIdx? (fun fd => fd = 0) = some idx ∧
        t.pool.fds = s.pool.fds.set idx fd := by
  cases move with
  | accept _ _ _ | refused _ | full _ | room _ | noSlot _ | missing _ _ | found _ _
  | walk _ _ _ => exact .inl rfl
  | streamClosed _ => exact .inl (clearStream_same _ s.world).fds
  | @added w fd pool at_ added =>
      obtain ⟨idx, lowest, _, rfl⟩ := addClient_some added
      exact .inr (.inr ⟨fd, idx, at_, rfl, lowest, fillClient_fds ..⟩)
  | @cleared w fd idx at_ =>
      exact .inr (.inl ⟨fd, idx, at_, clearClient_fds .., Function.update_self ..⟩)

theorem ThreadMove.closed {fd : Int} (mem : Descriptor.closed fd ∈ es) :
    (s.call a.worker).connecting = some fd ∨ (s.call a.worker).closing = some fd ∨
      ∃ idx, s.call a.worker = .clear fd idx := by
  cases move with
  | accept _ _ _ => simp at mem
  | full _ | room _ | missing _ _ | found _ _ | walk _ _ _ | added _ _ => cases mem
  | @refused w fd' at_ | @noSlot w fd' at_ =>
      obtain rfl : fd = fd' := by simpa using mem
      left
      change (s.call w).connecting = _
      rw [at_]
      rfl
  | @streamClosed w _ fd' _ _ at_ =>
      obtain rfl : fd = fd' := by simpa using mem
      right
      left
      change (s.call w).closing = _
      rw [at_]
      rfl
  | @cleared w fd' idx at_ =>
      obtain rfl : fd = fd' := by simpa using mem
      exact .inr (.inr ⟨idx, at_⟩)

end Move

/-- The descriptor is not open for another client. -/
def Threads.NotOthers (s : Threads) (clientId fd : Int) : Prop :=
  ∀ socket, s.sockets fd = some socket → socket = .client clientId ∨ socket = .stream

theorem Consistent.notOthers {s t : Threads} {a : ThreadAction} {es : List Descriptor}
    (inv : Consistent s) (move : ThreadMove s a t es) {clientId fd : Int}
    (accept : a ≠ .accept fd) (notOthers : s.NotOthers clientId fd) :
    t.NotOthers clientId fd := by
  intro socket isOpen
  rcases move.sockets fd with same | closed | accepted | connecting
  · rw [same] at isOpen
    exact notOthers socket isOpen
  · rw [closed] at isOpen
    cases isOpen
  · exact absurd accepted accept
  · obtain ⟨_, _, accepted, _⟩ := inv.connecting _ fd connecting
    rcases notOthers _ accepted with client | stream
    · cases client
    · cases stream

/-! ### What holds between the steps -/

/-- The server thread has read the slot and the id of the client whose descriptor it has. -/
def ScanAt.Sees (t : Threads) : ScanAt → Prop
  | .outside => True
  | .found idx fd => 0 < fd ∧
      (t.pool.fds[idx]? = some fd ∨ ∀ socket, t.sockets fd = some socket → socket = .stream)
  | .receiving clientId fd => t.NotOthers clientId fd

structure Owned (s : Serving) : Prop where
  consistent : Consistent s.clients
  nodes : ∀ node ∈ s.nodes, s.clients.NotOthers node.clientId node.clientFd
  scanning : s.scan ≠ .outside → s.clients.call .server = .idle
  sees : s.scan.Sees s.clients
  removes : ∀ fd idx, (s.clients.call .response).removing = some (fd, idx) →
    ∃ node, s.respond = .removing node ∧ node.clientFd = fd
  /-- the slot has the client of the node, unless the server thread has cleared it -/
  slot : ∀ node call idx, s.respond = .slot node call idx → call ≠ .checkStreamIsSet →
    s.clients.pool.fds[idx]? = some node.clientFd ∨ s.clients.pool.fds[idx]? = some 0

variable {s : Serving}

theorem Serving.mem_nodes {node : Node} (is : s.respond.node = some node) : node ∈ s.nodes := by
  rw [Serving.nodes, is]
  exact List.mem_cons_self

theorem NoRequests.owned (init : NoRequests s) : Owned s := by
  obtain ⟨noCalls, queue, scan, respond, _⟩ := init
  constructor
  case consistent => exact noCalls.consistent
  case nodes =>
      intro node mem
      rw [Serving.nodes, respond, queue] at mem
      cases mem
  case scanning =>
      intro scanning
      exact absurd scan scanning
  case sees =>
      rw [scan]
      trivial
  case removes =>
      intro fd idx removing
      rw [noCalls.2.2] at removing
      cases removing
  case slot =>
      intro node call idx slot
      rw [respond] at slot
      cases slot

/-- The response thread is not in `disconnect_client`. -/
theorem Owned.notRemoving (inv : Owned s) (other : ∀ node, s.respond ≠ .removing node) :
    (s.clients.call .response).removing = none := by
  cases removing : (s.clients.call .response).removing with
  | none => rfl
  | some held =>
      obtain ⟨node, is, _⟩ := inv.removes held.1 held.2 removing
      exact absurd is (other node)

/-- The client in a slot that was looked up for a node is the one of the node. -/
theorem Owned.entry (inv : Owned s) {node : Node} {idx : Nat} (mem : node ∈ s.nodes)
    (has : s.clients.pool.fds[idx]? = some node.clientFd ∨ s.clients.pool.fds[idx]? = some 0)
    {effect : Client → Effect}
    (own : ∀ entry : Client, entry.clientId = node.clientId → (effect entry).Own) :
    ∀ e ∈ s.entry idx effect, e.Own := by
  intro e made
  unfold Serving.entry at made
  split at made
  next connected =>
      obtain rfl : e = effect (s.clients.pool.slot idx) := by simpa using made
      have pos : 0 < (s.clients.pool.slot idx).clientFd := by
        simpa [Client.connected] using connected
      rw [Pool.slot_clientFd, List.getD_eq_getElem?_getD] at pos
      rcases has with here | free
      · rw [here] at pos
        have owned := inv.consistent.owned idx node.clientFd pos here
        rcases inv.nodes node mem _ owned with client | stream
        · injection client with same
          exact own _ same
        · cases stream
      · rw [free] at pos
        exact absurd pos (lt_irrefl 0)
  · cases made

/-- The response thread goes on with its node or takes the next one. -/
theorem Owned.respond (inv : Owned s) {respond : RespondAt} (queue : List Node)
    (nodes : ∀ node ∈ respond.node.toList ++ queue, node ∈ s.nodes)
    (other : ∀ node, s.respond ≠ .removing node)
    (slot : ∀ node call idx, respond = .slot node call idx → call ≠ .checkStreamIsSet →
      s.clients.pool.fds[idx]? = some node.clientFd ∨ s.clients.pool.fds[idx]? = some 0) :
    Owned { s with respond := respond, queue := queue } where
  consistent := inv.consistent
  nodes := by
    intro node mem
    exact inv.nodes node (nodes node mem)
  scanning := inv.scanning
  sees := inv.sees
  removes := by
    intro fd idx removing
    have none := inv.notRemoving other
    rw [none] at removing
    cases removing
  slot := slot

/-- The slots and descriptors of clients are the same. -/
structure SameSockets (s t : Threads) : Prop where
  call : t.call = s.call
  clients : SameClients s.pool t.pool
  sockets : ∀ fd, t.sockets fd = s.sockets fd ∨
    (∀ socket, s.sockets fd = some socket → socket = .stream) ∧
      ∀ socket, t.sockets fd = some socket → socket = .stream

theorem SameSockets.notOthers {t u : Threads} (same : SameSockets t u) {clientId fd : Int}
    (notOthers : t.NotOthers clientId fd) : u.NotOthers clientId fd := by
  intro socket isOpen
  rcases same.sockets fd with eq | ⟨_, streams⟩
  · rw [eq] at isOpen
    exact notOthers socket isOpen
  · exact .inr (streams socket isOpen)

/-- Streams come and go. -/
theorem Owned.streams (inv : Owned s) {t : Threads} (same : SameSockets s.clients t) :
    Owned { s with clients := t } where
  consistent := by
    apply inv.consistent.streams same.call same.clients
    intro fd socket isOpen other
    rcases same.sockets fd with eq | ⟨streams, _⟩
    · rw [eq, isOpen]
    · exact absurd (streams socket isOpen) other
  nodes := by
    intro node mem
    exact same.notOthers (inv.nodes node mem)
  scanning := by
    rw [same.call]
    exact inv.scanning
  sees := by
    have sees := inv.sees
    change s.scan.Sees t
    cases at_ : s.scan with
    | outside => trivial
    | receiving clientId fd =>
        rw [at_] at sees
        exact same.notOthers sees
    | found idx fd =>
        rw [at_] at sees
        refine ⟨sees.1, ?_⟩
        rw [same.clients.fds]
        rcases sees.2 with here | streams
        · exact .inl here
        · right
          rcases same.sockets fd with eq | ⟨_, streams'⟩
          · rw [eq]
            exact streams
          · exact streams'
  removes := by
    rw [same.call]
    exact inv.removes
  slot := by
    rw [same.clients.fds]
    exact inv.slot

/-! ### Clients come and go -/

section Clients

variable {t : Threads} {a : ThreadAction} {es : List Descriptor}

/-- The slot of a removal of the response thread is held. -/
theorem Owned.held (inv : Owned s) {fd : Int} {idx : Nat}
    (removing : (s.clients.call .response).removing = some (fd, idx)) : s.held = some idx := by
  obtain ⟨node, at_, _⟩ := inv.removes fd idx removing
  rw [Serving.held, at_]
  change (s.clients.call .response).removing.map Prod.snd = some idx
  rw [removing]
  rfl

theorem Owned.steady (inv : Owned s) (move : ThreadMove s.clients a t es)
    (accept : ∀ fd, a = .accept fd → ∀ node ∈ s.nodes, node.clientFd ≠ fd)
    (fill : ∀ fd idx, a = .go .server → s.clients.call .server = .adding fd → s.held = some idx →
      s.clients.pool.fds.findIdx? (fun fd => fd = 0) ≠ some idx)
    (stream : ∀ w fd, a = .go w → (s.clients.call w).closing = some fd →
      ∀ socket, s.clients.sockets fd = some socket → socket = .stream) : Steady s.clients a where
  accept := by
    rintro fd rfl v idx removing
    cases v with
    | server =>
        cases move with
        | accept idle _ _ =>
            rw [idle] at removing
            cases removing
    | response =>
        obtain ⟨node, at_, same⟩ := inv.removes fd idx removing
        exact accept fd rfl node (Serving.mem_nodes (by rw [at_]; rfl)) same
  fill := by
    rintro w fd rfl at_ v fd' idx removing
    obtain rfl : w = .server := (inv.consistent.connecting w fd (by rw [at_]; rfl)).1
    cases v with
    | server =>
        rw [at_] at removing
        cases removing
    | response => exact fill fd idx rfl at_ (inv.held removing)
  stream := by
    rintro w fd idx streamFd stream' rfl at_
    apply stream w streamFd rfl
    rw [at_]
    rfl

/-- The server thread does not fill the slot that is held. -/
theorem Owned.slotMove (inv : Owned s) (move : ThreadMove s.clients a t es)
    (server : a.worker = .server)
    (fill : ∀ fd idx, a = .go .server → s.clients.call .server = .adding fd → s.held = some idx →
      s.clients.pool.fds.findIdx? (fun fd => fd = 0) ≠ some idx)
    {node : Node} {call : StreamCall} {idx : Nat} (at_ : s.respond = .slot node call idx)
    (changes : call ≠ .checkStreamIsSet) :
    t.pool.fds[idx]? = some node.clientFd ∨ t.pool.fds[idx]? = some 0 := by
  have held : s.held = some idx := by
    rw [Serving.held, at_]
    exact if_neg changes
  have has := inv.slot node call idx at_ changes
  rcases move.fds with same | ⟨fd, cleared, _, fds, _⟩ | ⟨fd, filled, adding, go, lowest, fds⟩
  · rw [same]
    exact has
  · rw [fds]
    by_cases here : cleared = idx
    · have bound : idx < s.clients.pool.fds.length := by
        rcases has with is | is <;> exact (List.getElem?_eq_some_iff.mp is).1
      rw [here]
      exact .inr (List.getElem?_set_self bound)
    · rw [List.getElem?_set_ne here]
      exact has
  · rw [server] at adding go
    have elsewhere : filled ≠ idx := by
      rintro rfl
      exact fill fd filled go adding held lowest
    rw [fds, List.getElem?_set_ne elsewhere]
    exact has

/-- The server thread takes a client in or disconnects one. -/
theorem Owned.serverMove (inv : Owned s) (move : ThreadMove s.clients a t es)
    (server : a.worker = .server)
    (accept : ∀ fd, a = .accept fd → ∀ node ∈ s.nodes, node.clientFd ≠ fd)
    (fill : ∀ fd idx, a = .go .server → s.clients.call .server = .adding fd → s.held = some idx →
      s.clients.pool.fds.findIdx? (fun fd => fd = 0) ≠ some idx)
    (stream : ∀ fd, a = .go .server → (s.clients.call .server).closing = some fd →
      ∀ socket, s.clients.sockets fd = some socket → socket = .stream) :
    Owned { s with clients := t, scan := .outside } := by
  have call := move.call_other
  rw [server] at call
  constructor
  case consistent =>
      refine inv.consistent.keep (inv.steady move accept fill ?_) move
      rintro w fd rfl
      obtain rfl : w = .server := server
      exact stream fd rfl
  case nodes =>
      intro node mem
      refine inv.consistent.notOthers move ?_ (inv.nodes node mem)
      intro accepted
      exact accept _ accepted node mem rfl
  case scanning =>
      intro scanning
      exact absurd rfl scanning
  case sees => trivial
  case removes =>
      intro fd idx removing
      exact inv.removes fd idx (call ▸ removing)
  case slot =>
      intro node streamCall idx at_ changes
      exact inv.slotMove move server fill at_ changes

theorem Owned.notConnecting (inv : Owned s) (fd : Int) :
    (s.clients.call .response).connecting ≠ some fd := by
  intro connecting
  cases (inv.consistent.connecting .response fd connecting).1

/-- The slot that the server thread has read keeps its descriptor until that is closed. -/
theorem Owned.seesMove (inv : Owned s) (move : ThreadMove s.clients a t es)
    (response : a.worker = .response) : s.scan.Sees t := by
  have noAccept : ∀ fd, a ≠ .accept fd := by
    rintro fd rfl
    cases response
  have sees := inv.sees
  cases scan : s.scan with
  | outside => trivial
  | receiving clientId fd =>
      rw [scan] at sees
      exact inv.consistent.notOthers move (noAccept fd) sees
  | found idx fd =>
      rw [scan] at sees
      obtain ⟨pos, here | streams⟩ := sees
      · refine ⟨pos, ?_⟩
        rcases move.fds with same | ⟨fd', cleared, clears, fds, closed⟩ | ⟨fd', _, adding, _⟩
        · rw [same]
          exact .inl here
        · rw [fds]
          by_cases mine : cleared = idx
          · -- the slot that is cleared is the one whose descriptor is closed
            obtain ⟨_, has, _⟩ := inv.consistent.held a.worker fd' cleared (by rw [clears]; rfl)
            have same : fd' = fd := by
              rw [mine, here] at has
              rcases has with is | zero
              · exact (Option.some.inj is).symm
              · have none := Option.some.inj zero
                omega
            right
            intro socket isOpen
            rw [← same, closed] at isOpen
            cases isOpen
          · rw [List.getElem?_set_ne mine]
            exact .inl here
        · rw [response] at adding
          exact absurd (by rw [adding]; rfl) (inv.notConnecting fd')
      · refine ⟨pos, .inr ?_⟩
        intro socket isOpen
        rcases move.sockets fd with same | closed | accepted | connecting
        · exact streams socket (same ▸ isOpen)
        · rw [closed] at isOpen
          cases isOpen
        · exact absurd accepted (noAccept fd)
        · exact absurd (response ▸ connecting) (inv.notConnecting fd)

/-- The response thread disconnects the client of its node. -/
theorem Owned.responseMove (inv : Owned s) {node : Node} (at_ : s.respond = .removing node)
    (move : ThreadMove s.clients a t es) (response : a.worker = .response)
    (remove : ∀ fd, a = .remove .response fd → fd = node.clientFd)
    (stream : ∀ fd, (s.clients.call .response).closing = some fd →
      ∀ socket, s.clients.sockets fd = some socket → socket = .stream) :
    Owned { s with
      clients := t
      respond := if t.call .response = .idle then .waiting else .removing node } := by
  have noAccept : ∀ fd, a ≠ .accept fd := by
    rintro fd rfl
    cases response
  have call := move.call_other
  rw [response] at call
  constructor
  case consistent =>
      refine inv.consistent.keep (inv.steady move ?_ ?_ ?_) move
      · intro fd accepted
        exact absurd accepted (noAccept fd)
      · rintro fd idx rfl
        cases response
      · rintro w fd rfl
        obtain rfl : w = .response := response
        exact stream fd
  case nodes =>
      intro node' mem
      refine inv.consistent.notOthers move (noAccept _) (inv.nodes node' ?_)
      simp only [Serving.nodes, at_] at mem ⊢
      split at mem
      · exact List.mem_append_right _ mem
      · exact mem
  case scanning =>
      intro scanning
      exact call.trans (inv.scanning scanning)
  case sees => exact inv.seesMove move response
  case removes =>
      intro fd idx removing
      have busy : t.call .response ≠ .idle := by
        intro idle
        change (t.call .response).removing = _ at removing
        rw [idle] at removing
        cases removing
      refine ⟨node, if_neg busy, ?_⟩
      rcases move.removing (response ▸ removing) with before | looked
      · obtain ⟨node', is, same⟩ := inv.removes fd idx (response ▸ before)
        rw [at_] at is
        cases is
        exact same
      · exact (remove fd (response ▸ looked)).symm
  case slot =>
      intro node' call' idx is
      change (if t.call .response = .idle then RespondAt.waiting else .removing node) = _ at is
      split at is
      · cases is
      · cases is

end Clients

/-! ### The response thread goes on with its node -/

/-- Where the response thread goes with a node, unless it has looked a slot up. -/
inductive Continues (node : Node) : RespondAt → Prop where
  | waiting : Continues node .waiting
  | lookup (call : StreamCall) : Continues node (.lookup node call)
  | executing : Continues node (.executing node)
  | sending (left : Nat) (part : SendPart) : Continues node (.sending node left part)
  | removing : Continues node (.removing node)

theorem Continues.node {node : Node} {respond : RespondAt} (next : Continues node respond) :
    ∀ node' ∈ respond.node, node' = node := by
  intro node' mem
  cases next with
  | waiting => cases mem
  | _ => exact (Option.mem_some.mp mem).symm

theorem Continues.notSlot {node node' : Node} {respond : RespondAt} {call : StreamCall} {idx : Nat}
    (next : Continues node respond) : respond ≠ .slot node' call idx := by
  rintro rfl
  cases next

theorem StreamCall.after_continues (node : Node) (set : Bool) (call : StreamCall) :
    Continues node (call.after node set) := by
  cases call with
  | checkStreamIsSet =>
      cases set with
      | true => exact .executing
      | false => exact .lookup _
  | createClientStream => exact .executing
  | setClientStreamFunc => exact .sending _ _

theorem RespondAt.again_continues (node : Node) (left : Nat) (timeout : Bool) :
    Continues node (.again node left timeout) := by
  unfold RespondAt.again
  split
  · exact .removing
  · split
    · exact .waiting
    · exact .sending _ _

theorem SendPart.after_continues (node : Node) (left : Nat) (r : SendRet) (part : SendPart) :
    Continues node (part.after node left r) := by
  cases part with
  | length =>
      rw [SendPart.after]
      split
      · exact .sending _ _
      · exact .sending _ _
  | message =>
      rw [SendPart.after]
      split
      · exact .waiting
      · exact .sending _ _
  | noticeLength timeout =>
      rw [SendPart.after]
      split
      · exact .sending _ _
      · exact RespondAt.again_continues node left timeout
  | noticeMessage timeout => exact RespondAt.again_continues node left timeout

theorem Owned.continues (inv : Owned s) {node : Node} {here respond : RespondAt}
    (at_ : s.respond = here) (is : here.node = some node) (other : ∀ node, here ≠ .removing node)
    (next : Continues node respond) : Owned { s with respond := respond } := by
  rw [← at_] at is other
  refine inv.respond s.queue ?_ other ?_
  · intro node' mem
    rcases List.mem_append.mp mem with mine | queued
    · rw [next.node node' (Option.mem_toList.mp mine)]
      exact Serving.mem_nodes is
    · exact List.mem_append_right _ queued
  · intro node' call idx is
    exact absurd is next.notSlot

/-! ### Streams -/

theorem createSocketUds_events (env : SocketEnv) (path : String) (files : List String) :
    (createSocketUds env .dgram path files).2.2 = [] ∨ ∃ fd : Nat, env.socket = some fd ∧
      ((createSocketUds env .dgram path files).2.2 = [.opened fd] ∨
        (createSocketUds env .dgram path files).2.2 = [.opened fd, .closed fd]) := by
  unfold createSocketUds
  split
  · exact .inl rfl
  next fd made =>
      right
      refine ⟨fd, made, ?_⟩
      dsimp only
      split
      · exact .inl rfl
      · split
        · exact .inr rfl
        · exact .inl rfl

theorem createStreamAt_events (env : SocketEnv) (idx : Nat) (w : World) :
    (createStreamAt env idx w).2.2 = [] ∨ ∃ fd : Nat, env.socket = some fd ∧
      ((createStreamAt env idx w).2.2 = [.opened fd] ∨
        (createStreamAt env idx w).2.2 = [.opened fd, .closed fd]) := by
  unfold createStreamAt
  dsimp only
  split
  next files' _ serverSocket _ _ _ =>
      have events := createSocketUds_events env serverSocket
        (unlink (w.pool.slot idx).clientStreamPath
          (unlink (w.pool.slot idx).serverStreamPath w.files))
      split
      next made =>
          rw [made] at events
          exact events
      next made =>
          rw [made] at events
          exact events
  · exact .inl rfl

/-- The sockets of a stream that is made take numbers that are not in use. -/
theorem streamSockets_cases {sockets : Int → Option Socket} {es : List Descriptor} {fd : Int}
    (free : sockets fd = none) (events : es = [.opened fd] ∨ es = [.opened fd, .closed fd])
    (fd' : Int) : streamSockets sockets es fd' = sockets fd' ∨
      (∀ socket, sockets fd' = some socket → socket = .stream) ∧
        ∀ socket, streamSockets sockets es fd' = some socket → socket = .stream := by
  by_cases same : fd' = fd
  · right
    rw [same]
    constructor
    · intro socket isOpen
      rw [free] at isOpen
      cases isOpen
    · rcases events with rfl | rfl
      · intro socket isOpen
        rw [streamSockets, streamSockets, Function.update_self] at isOpen
        exact (Option.some.inj isOpen).symm
      · intro socket isOpen
        rw [streamSockets, streamSockets, streamSockets, Function.update_self] at isOpen
        cases isOpen
  · left
    rcases events with rfl | rfl
    · rw [streamSockets, streamSockets, Function.update_of_ne same]
    · rw [streamSockets, streamSockets, streamSockets, Function.update_of_ne same,
        Function.update_of_ne same]

theorem createStreamAt_sameSockets {t : Threads} {env : SocketEnv}
    (free : ∀ fd : Nat, env.socket = some fd → t.sockets fd = none) (idx : Nat) :
    SameSockets t { t with
      world := (createStreamAt env idx t.world).2.1
      sockets := streamSockets t.sockets (createStreamAt env idx t.world).2.2 } where
  call := rfl
  clients := createStreamAt_same env idx t.world
  sockets := by
    intro fd'
    rcases createStreamAt_events env idx t.world with none | ⟨fd, made, events⟩
    · left
      change streamSockets t.sockets (createStreamAt env idx t.world).2.2 fd' = _
      rw [none]
      rfl
    · exact streamSockets_cases (free fd made) events fd'

theorem closeStream_sameSockets {t : Threads} {streamFd : Int} (idx : Nat)
    (stream : ∀ socket, t.sockets streamFd = some socket → socket = .stream) :
    SameSockets t (t.closeStream streamFd idx) where
  call := rfl
  clients := clearStream_same idx t.world
  sockets := by
    intro fd
    change Function.update t.sockets streamFd none fd = _ ∨ _ ∧
      ∀ socket, Function.update t.sockets streamFd none fd = some socket → socket = .stream
    by_cases same : fd = streamFd
    · right
      rw [same]
      refine ⟨stream, ?_⟩
      intro socket isOpen
      rw [Function.update_self] at isOpen
      cases isOpen
    · exact .inl (Function.update_of_ne same ..)

/-! ### One step -/

section Step

variable {t : Serving} {es : List Effect}

theorem Effect.own_nil : ∀ e ∈ ([] : List Effect), e.Own := by
  intro e mem
  cases mem

theorem Owned.serverStep (inv : Owned s) (outside : s.scan = .outside) {u : Threads}
    {a : ThreadAction} {log : List Descriptor} (move : ThreadMove s.clients a u log)
    (server : a.worker = .server)
    (accept : ∀ fd, a = .accept fd → ∀ node ∈ s.nodes, node.clientFd ≠ fd)
    (fill : ∀ fd idx, a = .go .server → s.clients.call .server = .adding fd → s.held = some idx →
      s.clients.pool.fds.findIdx? (fun fd => fd = 0) ≠ some idx)
    (stream : ∀ fd, a = .go .server → (s.clients.call .server).closing = some fd →
      ∀ socket, s.clients.sockets fd = some socket → socket = .stream) :
    Owned { s with clients := u } := by
  have moved := inv.serverMove move server accept fill stream
  rw [← outside] at moved
  exact moved

theorem Owned.scanFound (inv : Owned s) {idx : Nat}
    (idle : s.clients.call .server = .idle) :
    Owned { s with
      scan := if findClient idx s.clients.pool ≤ 0 then .outside
        else .found idx (findClient idx s.clients.pool) } := by
  by_cases none : findClient idx s.clients.pool ≤ 0
  · rw [if_pos none]
    exact { inv with scanning := fun scanning => absurd rfl scanning, sees := trivial }
  · rw [if_neg none]
    have pos := not_le.mp none
    have here : s.clients.pool.fds[idx]? = some (findClient idx s.clients.pool) := by
      rw [findClient, Pool.slot_clientFd, List.getD_eq_getElem?_getD] at pos ⊢
      cases is : s.clients.pool.fds[idx]? with
      | none =>
          rw [is] at pos
          exact absurd pos (lt_irrefl 0)
      | some fd => rfl
    exact { inv with scanning := fun _ => idle, sees := ⟨pos, .inl here⟩ }

/-- The id is read from the slot that the descriptor has been read from. -/
theorem Owned.scanReceiving (inv : Owned s) {idx : Nat} {fd : Int} (at_ : s.scan = .found idx fd) :
    Owned { s with
      scan := if findClientId idx s.clients.pool < 0 then .outside
        else .receiving (findClientId idx s.clients.pool) fd } := by
  have idle := inv.scanning (by rw [at_]; rintro ⟨⟩)
  have sees := inv.sees
  rw [at_] at sees
  split
  · exact { inv with scanning := fun scanning => absurd rfl scanning, sees := trivial }
  · have notOthers : s.clients.NotOthers (findClientId idx s.clients.pool) fd := by
      intro socket isOpen
      rcases sees.2 with here | streams
      · rw [inv.consistent.owned idx fd sees.1 here] at isOpen
        exact .inl (Option.some.inj isOpen).symm
      · exact .inr (streams socket isOpen)
    exact { inv with scanning := fun _ => idle, sees := notOthers }

theorem Owned.receive (inv : Owned s) {clientId fd : Int} (at_ : s.scan = .receiving clientId fd)
    {r : Reception} (step : s.receive clientId fd r = some t) : Owned t := by
  have sees := inv.sees
  rw [at_] at sees
  have outside : ∀ scanning : ScanAt.outside ≠ .outside, s.clients.call .server = .idle :=
    fun scanning => absurd rfl scanning
  cases r with
  | message msg enqueued =>
      simp only [Serving.receive] at step
      split at step
      · cases step
      · cases step
        refine { inv with scanning := outside, sees := trivial, nodes := ?_ }
        intro node mem
        rcases List.mem_append.mp mem with mine | queued
        · exact inv.nodes node (List.mem_append_left _ mine)
        · cases enqueued with
          | false => exact inv.nodes node (List.mem_append_right _ queued)
          | true =>
              rcases List.mem_append.mp queued with old | new
              · exact inv.nodes node (List.mem_append_right _ old)
              · rw [List.mem_singleton.mp new]
                exact sees
  | timeout =>
      simp only [Serving.receive] at step
      split at step
      · cases step
      · cases step
        exact { inv with scanning := outside, sees := trivial }
  | failed =>
      simp only [Serving.receive, Option.map_eq_some_iff] at step
      obtain ⟨⟨u, log⟩, step, rfl⟩ := step
      exact inv.serverMove (threads_move step) rfl nofun nofun nofun

theorem Owned.dequeue (inv : Owned s) (waiting : s.respond = .waiting) {node : Node}
    {queue : List Node} (first : s.queue = node :: queue) {respond : RespondAt}
    (next : Continues node respond) :
    Owned { s with queue := queue, respond := respond } := by
  refine inv.respond queue ?_ ?_ ?_
  · intro node' mem
    rw [Serving.nodes, first]
    rcases List.mem_append.mp mem with mine | queued
    · rw [next.node node' (Option.mem_toList.mp mine)]
      simp
    · simp [queued]
  · intro node' is
    rw [waiting] at is
    cases is
  · intro node' call idx is
    exact absurd is next.notSlot

theorem Owned.lookup (inv : Owned s) {node : Node} {call : StreamCall}
    (at_ : s.respond = .lookup node call) {idx : Nat}
    (found : findClientIndex node.clientFd s.clients.pool .clientFd = some idx) :
    Owned { s with respond := .slot node call idx } := by
  refine inv.respond s.queue ?_ ?_ ?_
  · intro node' mem
    rw [Serving.nodes, at_]
    exact mem
  · intro node' is
    rw [at_] at is
    cases is
  · intro node' call' idx' is _
    cases is
    exact .inl (findClientIndex_some found).2

theorem Owned.slotBlock (inv : Owned s) {node : Node} {call : StreamCall} {idx : Nat}
    (at_ : s.respond = .slot node call idx) {env : SocketEnv}
    (step : s.slotBlock env node idx call = some (t, es)) : Owned t ∧ ∀ e ∈ es, e.Own := by
  have entry : call ≠ .checkStreamIsSet → ∀ e ∈ s.entry idx (.streamed node), e.Own := by
    intro changes
    have mem : node ∈ s.nodes := Serving.mem_nodes (by rw [at_]; rfl)
    exact inv.entry mem (inv.slot node call idx at_ changes) (fun _ own => own)
  have other : ∀ node', RespondAt.slot node call idx ≠ .removing node' := by
    rintro node' ⟨⟩
  cases call with
  | checkStreamIsSet =>
      simp only [Serving.slotBlock] at step
      cases step
      have next := inv.continues at_ rfl other (StreamCall.checkStreamIsSet.after_continues
        node (s.clients.pool.slot idx).streamSet)
      exact ⟨next, Effect.own_nil⟩
  | createClientStream =>
      simp only [Serving.slotBlock] at step
      split at step
      next unused =>
          cases step
          have free : ∀ fd : Nat, env.socket = some fd → s.clients.sockets fd = none := by
            intro fd made
            rw [made] at unused
            simpa using unused
          have made := inv.streams (createStreamAt_sameSockets free idx)
          have next := made.continues at_ rfl other
            (StreamCall.createClientStream.after_continues node true)
          exact ⟨next, entry (by rintro ⟨⟩)⟩
      · cases step
  | setClientStreamFunc =>
      simp only [Serving.slotBlock] at step
      cases step
      have same : SameSockets s.clients
          (s.clients.setPool (setFuncAt idx .getStreamTime s.clients.pool)) :=
        ⟨rfl, setFuncAt_same idx _ _, fun fd => .inl rfl⟩
      have next := (inv.streams same).continues at_ rfl other
        (StreamCall.setClientStreamFunc.after_continues node true)
      exact ⟨next, entry (by rintro ⟨⟩)⟩

theorem Owned.send (inv : Owned s) {node : Node} {left : Nat} {part : SendPart} {r : SendRet}
    (at_ : s.respond = .sending node left part) (step : s.send node left part r = some (t, es)) :
    Owned t ∧ ∀ e ∈ es, e.Own := by
  have next := inv.continues at_ rfl (by rintro node' ⟨⟩) (part.after_continues node left r)
  unfold Serving.send at step
  split at step
  · cases step
    exact ⟨next, Effect.own_nil⟩
  · split at step
    · cases step
    · cases step
    next socket isOpen client =>
        cases step
        refine ⟨next, ?_⟩
        intro e made
        split at made
        · obtain rfl : e = .written node socket := by simpa using made
          have mem : node ∈ s.nodes := Serving.mem_nodes (by rw [at_]; rfl)
          rcases inv.nodes node mem socket client with mine | stream
          · exact mine
          · exact absurd stream isOpen
        · cases made

theorem Owned.disconnect (inv : Owned s) {node : Node} (at_ : s.respond = .removing node)
    (stream : ∀ fd, (s.clients.call .response).closing = some fd →
      ∀ socket, s.clients.sockets fd = some socket → socket = .stream)
    (step : s.disconnect node = some (t, es)) : Owned t ∧ ∀ e ∈ es, e.Own := by
  simp only [Serving.disconnect, Option.map_eq_some_iff] at step
  obtain ⟨⟨u, log⟩, step, made⟩ := step
  cases made
  have mem : node ∈ s.nodes := Serving.mem_nodes (by rw [at_]; rfl)
  have move := threads_move step
  have mine : ∀ fd idx, (s.clients.call .response).removing = some (fd, idx) →
      node.clientFd = fd := by
    intro fd idx removing
    obtain ⟨node', is, same⟩ := inv.removes fd idx removing
    rw [at_] at is
    cases is
    exact same
  constructor
  · refine inv.responseMove at_ move ?_ ?_ stream
    · split <;> rfl
    · intro fd is
      split at is
      · cases is
        rfl
      · cases is
  · intro e made
    rcases List.mem_append.mp made with closed | removed
    · obtain ⟨d, among, closes⟩ := List.mem_filterMap.mp closed
      cases d with
      | opened fd => cases closes
      | closed fd =>
          simp only [Serving.closes, Option.map_eq_some_iff] at closes
          obtain ⟨socket, isOpen, rfl⟩ := closes
          have response : (if s.clients.call .response = .idle then
              ThreadAction.remove .response node.clientFd else .go .response).worker =
              .response := by
            split <;> rfl
          have ends := move.closed among
          rw [response] at ends
          rcases ends with connecting | closing | ⟨idx, clear⟩
          · cases (inv.consistent.connecting .response fd connecting).1
          · exact .inr (stream fd closing socket isOpen)
          · have same := mine fd idx (by rw [clear]; rfl)
            rw [← same] at isOpen
            exact inv.nodes node mem socket isOpen
    · unfold Serving.clears at removed
      split at removed
      next fd idx clear =>
          have removing : (s.clients.call .response).removing = some (fd, idx) := by rw [clear]; rfl
          have has := (inv.consistent.held .response fd idx removing).2.1
          rw [← mine fd idx removing] at has
          refine inv.entry mem has ?_ e removed
          intro entry same
          exact same
      · cases removed

theorem Owned.removeStream (inv : Owned s) {block : StreamBlock}
    (stream : ∀ fd, block.closing = some fd →
      ∀ socket, s.clients.sockets fd = some socket → socket = .stream) :
    Owned (s.removeStream block) := by
  unfold Serving.removeStream
  split
  next streamFd idx =>
      exact { inv.streams (closeStream_sameSockets idx (stream streamFd rfl)) with }
  · split
    · exact { inv with }
    · exact { inv with }

theorem Owned.keep (inv : Owned s) {a : ServeAction} (unmixed : Unmixed s a)
    (step : serving.step s a = some (t, es)) : Owned t ∧ ∀ e ∈ es, e.Own := by
  cases a with
  | accept fd =>
      simp only [serving] at step
      split at step
      next outside =>
          simp only [Option.map_eq_some_iff] at step
          obtain ⟨⟨u, log⟩, step, made⟩ := step
          cases made
          refine ⟨inv.serverStep outside (threads_move step) rfl ?_ nofun nofun, Effect.own_nil⟩
          rintro fd' ⟨⟩
          exact unmixed.accept fd rfl
      · cases step
  | server =>
      simp only [serving] at step
      split at step
      next outside =>
          simp only [Option.map_eq_some_iff] at step
          obtain ⟨⟨u, log⟩, step, made⟩ := step
          cases made
          refine ⟨inv.serverStep outside (threads_move step) rfl nofun ?_ ?_, Effect.own_nil⟩
          · intro fd idx _ adding held
            exact unmixed.fill fd idx rfl adding held
          · intro fd _ closing
            exact unmixed.stream fd closing
      · cases step
  | findClient idx =>
      simp only [serving] at step
      split at step
      next can =>
          cases step
          exact ⟨inv.scanFound can.2.1, Effect.own_nil⟩
      · cases step
  | findClientId =>
      simp only [serving] at step
      split at step
      next at_ =>
          cases step
          exact ⟨inv.scanReceiving at_, Effect.own_nil⟩
      · cases step
  | receive r =>
      simp only [serving] at step
      split at step
      next at_ =>
          simp only [Option.map_eq_some_iff] at step
          obtain ⟨u, step, made⟩ := step
          cases made
          exact ⟨inv.receive at_ step, Effect.own_nil⟩
      · cases step
  | dequeue =>
      simp only [serving] at step
      split at step
      next waiting first =>
          cases step
          refine ⟨inv.dequeue waiting first ?_, Effect.own_nil⟩
          split
          · exact .lookup _
          · exact .executing
      · cases step
  | lookup =>
      simp only [serving] at step
      split at step
      next node call at_ =>
          split at step
          · cases step
            have next := inv.continues at_ rfl (by rintro node' ⟨⟩)
              (call.after_continues node false)
            exact ⟨next, Effect.own_nil⟩
          next found =>
              cases step
              exact ⟨inv.lookup at_ found, Effect.own_nil⟩
      · cases step
  | slot env =>
      simp only [serving] at step
      split at step
      next at_ => exact inv.slotBlock at_ step
      · cases step
  | execute malloc paths =>
      simp only [serving] at step
      split at step
      next node at_ =>
          cases step
          refine ⟨inv.continues at_ rfl (by rintro node' ⟨⟩) ?_, Effect.own_nil⟩
          split
          · exact .waiting
          split
          · exact .sending _ _
          split
          · split
            · exact .lookup _
            · exact .sending _ _
          · exact .waiting
      · cases step
  | send r =>
      simp only [serving] at step
      split at step
      next at_ => exact inv.send at_ step
      · cases step
  | disconnect =>
      simp only [serving] at step
      split at step
      next at_ => exact inv.disconnect at_ unmixed.stream step
      · cases step
  | findStream idx =>
      simp only [serving] at step
      split at step
      · cases step
        exact ⟨{ inv with }, Effect.own_nil⟩
      · cases step
  | sendStream sent =>
      simp only [serving] at step
      split at step
      · cases step
        exact ⟨{ inv with }, Effect.own_nil⟩
      · cases step
  | removeStream =>
      simp only [serving] at step
      split at step
      next at_ =>
          cases step
          refine ⟨inv.removeStream ?_, Effect.own_nil⟩
          intro fd closing
          apply unmixed.stream fd
          simp only [Serving.closing, at_]
          exact closing
      · cases step

end Step

/-- In every run in which nothing that is still in use for one client is taken for another
one, a response is sent only to the client of its node, and only that client is
disconnected when it cannot be sent. -/
theorem effects_own {s t : Serving} {as : List ServeAction} {log : List Effect}
    (init : NoRequests s) (unmixed : serving.Along Unmixed s as)
    (run : serving.exec s as = some (t, log)) : ∀ e ∈ log, e.Own := by
  have keep : ∀ (u : Serving) (before : List Effect) (a : ServeAction) (v : Serving)
      (es : List Effect), (Owned u ∧ ∀ e ∈ before, e.Own) → Unmixed u a →
      serving.step u a = some (v, es) → Owned v ∧ ∀ e ∈ before ++ es, e.Own := by
    rintro u before a v es ⟨inv, own⟩ met step
    obtain ⟨inv', own'⟩ := inv.keep met step
    refine ⟨inv', ?_⟩
    intro e mem
    rcases List.mem_append.mp mem with old | new
    · exact own e old
    · exact own' e new
  exact (System.exec_rec_of_along keep unmixed [] ⟨init.owned, Effect.own_nil⟩ run).2

def noRequests : Serving := ⟨noCalls, [], .outside, .waiting, .outside⟩

theorem noRequests_init : NoRequests noRequests := ⟨noCalls_init, rfl, rfl, rfl, rfl⟩

/-- `connect_new_client` takes a client in. -/
def comes : List ServeAction := [.accept 5, .server, .server]

/-- The first client sends a PLAY. -/
def sendsPlay : List ServeAction :=
  [.findClient 0, .findClientId,
    .receive (.message ⟨0, CmdType.command.value, Cmd.play.value, 1, [cString "play"]⟩ true)]

/-- The node of the PLAY. -/
def playNode : Node :=
  ⟨0, 5, 1, .success, CmdType.command.value, Cmd.play.value, [cString "play"]⟩

/-- The length of the response is sent, and nothing after it. -/
def breaksOff : List ServeAction :=
  [.dequeue, .execute true true, .send .sent, .send .failed, .send .failed]

/-- The client of the node is disconnected. -/
def hangsUp : List ServeAction := [.disconnect, .disconnect, .disconnect, .disconnect]

/-- The client leaves and another one gets its descriptor before the PLAY is answered. -/
def reused : List ServeAction :=
  comes ++ sendsPlay ++
    [.findClient 0, .findClientId, .receive .failed, .server, .server, .server] ++
    comes ++ breaksOff ++ hangsUp

theorem reused_mixed : ∃ t log, NoRequests noRequests ∧
    serving.exec noRequests reused = some (t, log) ∧
    log = [.written playNode (.client 1), .closed playNode (.client 1),
      .removed playNode ⟨1, 5, 0, none, none, none⟩] ∧
    ¬ ∀ e ∈ log, e.Own := by
  refine ⟨_, _, noRequests_init, rfl, rfl, ?_⟩
  intro own
  have same := own _ List.mem_cons_self
  cases same

/-- The client stays until its PLAY is answered. -/
def answered : List ServeAction := comes ++ (sendsPlay ++ breaksOff) ++ hangsUp

theorem Unmixed.of_other {a : ServeAction} (accept : ∀ fd, a ≠ .accept fd) (server : a ≠ .server)
    (closing : s.closing a = none) : Unmixed s a where
  accept := by
    intro fd is
    exact absurd is (accept fd)
  fill := by
    intro fd idx is
    exact absurd is server
  stream := by
    intro fd is
    rw [closing] at is
    cases is

theorem Unmixed.of_waiting {a : ServeAction} (nodes : s.nodes = []) (held : s.held = none)
    (closing : s.closing a = none) : Unmixed s a where
  accept := by
    intro fd _ node mem
    rw [nodes] at mem
    cases mem
  fill := by
    intro fd idx _ _ is
    rw [held] at is
    cases is
  stream := by
    intro fd is
    rw [closing] at is
    cases is

theorem answered_own : ∃ t log, serving.exec noRequests answered = some (t, log) ∧
    log = [.written playNode (.client 0), .closed playNode (.client 0),
      .removed playNode ⟨0, 5, 0, none, none, none⟩] ∧
    ∀ e ∈ log, e.Own := by
  have front : serving.Along Unmixed noRequests comes := by
    refine System.along_cons (.of_waiting rfl rfl rfl) rfl ?_
    refine System.along_cons (.of_waiting rfl rfl rfl) rfl ?_
    exact System.along_cons (.of_waiting rfl rfl rfl) rfl trivial
  have middle : ∀ s, serving.Along Unmixed s (sendsPlay ++ breaksOff) := by
    apply System.along_of_forall
    intro a mem s
    simp only [sendsPlay, breaksOff, List.mem_append, List.mem_cons, List.not_mem_nil,
      or_false] at mem
    rcases mem with (rfl | rfl | rfl) | rfl | rfl | rfl | rfl | rfl <;>
      exact .of_other nofun nofun rfl
  have unmixed : serving.Along Unmixed noRequests answered := by
    refine System.along_append (System.along_append front rfl (middle _)) rfl ?_
    -- the client has no stream that could be closed
    refine System.along_cons (.of_other nofun nofun rfl) rfl ?_
    refine System.along_cons (.of_other nofun nofun rfl) rfl ?_
    refine System.along_cons (.of_other nofun nofun rfl) rfl ?_
    exact System.along_cons (.of_other nofun nofun rfl) rfl trivial
  exact ⟨_, _, rfl, rfl, effects_own noRequests_init unmixed rfl⟩

end OdroidPlayer
