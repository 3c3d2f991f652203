import OdroidPlayer.Lib.Transition
import Mathlib.Data.List.Perm.Basic
import Mathlib.Logic.Function.Basic

/-!
Frames on a byte stream: a header of fixed width that carries a length, then a body of
that length.

The first part parses a stream of frames. The second part lets several writers share
one stream, each writing the header and the body of a frame by two separate writes; the
stream parses to the bodies written exactly when no writer starts a frame while another
one has a frame open.
-/

namespace Framing

open Transition

universe u v

/-- Headers that carry the length of the body behind them. -/
structure Header (β : Type u) where
  width : Nat
  /-- lengths below the bound survive the header -/
  bound : Nat
  encode : Nat → List β
  decode : List β → Nat
  width_pos : 0 < width
  length_encode : ∀ n, (encode n).length = width
  decode_encode : ∀ n, n < bound → decode (encode n) = n

namespace Header

variable {β : Type u} (H : Header β)

def frame (body : List β) : List β := H.encode body.length ++ body

def stream (bodies : List (List β)) : List β := (bodies.map H.frame).flatten

/-- Read a length and then that many bytes, at most `fuel` times. -/
def parseUpTo : Nat → List β → Option (List (List β))
  | _, [] => some []
  | 0, _ :: _ => none
  | fuel + 1, b :: bs =>
      if (b :: bs).length < H.width then none
      else
        let rest := (b :: bs).drop H.width
        let n := H.decode ((b :: bs).take H.width)
        if rest.length < n then none
        else (parseUpTo fuel (rest.drop n)).map (rest.take n :: ·)

/-- Every frame has at least one byte, so the length of the stream is fuel enough. -/
def parse (bytes : List β) : Option (List (List β)) := H.parseUpTo bytes.length bytes

variable {H}

theorem parseUpTo_nil (fuel : Nat) : H.parseUpTo fuel [] = some [] := by
  cases fuel <;> rfl

theorem parseUpTo_of_le {fuel more : Nat} {bytes : List β} (enough : bytes.length ≤ fuel)
    (le : fuel ≤ more) : H.parseUpTo more bytes = H.parseUpTo fuel bytes := by
  induction fuel generalizing more bytes with
  | zero =>
      have none : bytes = [] := List.length_eq_zero_iff.mp (Nat.le_zero.mp enough)
      rw [none, parseUpTo_nil, parseUpTo_nil]
  | succ fuel ih =>
      obtain ⟨more, rfl⟩ : ∃ k, more = k + 1 := ⟨more - 1, by omega⟩
      cases bytes with
      | nil => rfl
      | cons b bs =>
          have shorter : (((b :: bs).drop H.width).drop
              (H.decode ((b :: bs).take H.width))).length ≤ fuel := by
            have pos := H.width_pos
            simp only [List.length_drop]
            omega
          simp only [parseUpTo, ih shorter (Nat.le_of_succ_le_succ le)]

/-- One frame more or less in front. -/
theorem parse_header_append {n : Nat} (small : n < H.bound) (rest : List β) :
    H.parse (H.encode n ++ rest) =
      if rest.length < n then none else (H.parse (rest.drop n)).map (rest.take n :: ·) := by
  have width := H.length_encode n
  have pos := H.width_pos
  cases bytes : H.encode n ++ rest with
  | nil =>
      have none : (H.encode n ++ rest).length = 0 := by rw [bytes]; rfl
      rw [List.length_append] at none
      omega
  | cons b bs =>
      have length : bs.length + 1 = H.width + rest.length := by
        have total := congrArg List.length bytes
        simpa [width, eq_comm] using total
      have wide : ¬ (b :: bs).length < H.width := by
        rw [List.length_cons]
        omega
      have drop : (b :: bs).drop H.width = rest := by rw [← bytes, ← width, List.drop_left]
      have take : (b :: bs).take H.width = H.encode n := by rw [← bytes, ← width, List.take_left]
      have fuel : H.parseUpTo bs.length (rest.drop n) = H.parse (rest.drop n) := by
        apply parseUpTo_of_le le_rfl
        rw [List.length_drop]
        omega
      rw [parse, List.length_cons]
      simp only [parseUpTo, if_neg wide, drop, take, H.decode_encode n small, fuel]

theorem parse_frame_append {body : List β} (small : body.length < H.bound) (rest : List β) :
    H.parse (H.frame body ++ rest) = (H.parse rest).map (body :: ·) := by
  have long : ¬ (body ++ rest).length < body.length := by
    rw [List.length_append]
    omega
  rw [frame, List.append_assoc, parse_header_append small, if_neg long, List.drop_left,
    List.take_left]

theorem parse_stream_append {bodies : List (List β)}
    (small : ∀ body ∈ bodies, body.length < H.bound) (rest : List β) :
    H.parse (H.stream bodies ++ rest) = (H.parse rest).map (bodies ++ ·) := by
  induction bodies with
  | nil =>
      change H.parse rest = (H.parse rest).map fun tail => tail
      rw [Option.map_id']
  | cons body bodies ih =>
      have tail := ih fun b mem => small b (List.mem_cons_of_mem _ mem)
      have split : H.stream (body :: bodies) ++ rest =
          H.frame body ++ (H.stream bodies ++ rest) := by simp [stream]
      rw [split, parse_frame_append (small body List.mem_cons_self), tail, Option.map_map]
      rfl

theorem parse_stream {bodies : List (List β)}
    (small : ∀ body ∈ bodies, body.length < H.bound) :
    H.parse (H.stream bodies) = some bodies := by
  have whole := parse_stream_append small []
  rw [List.append_nil] at whole
  rw [whole, parse, parseUpTo_nil, Option.map_some, List.append_nil]

@[simp] theorem stream_append (front back : List (List β)) :
    H.stream (front ++ back) = H.stream front ++ H.stream back := by
  simp [stream]

theorem stream_cons (body : List β) (bodies : List (List β)) :
    H.stream (body :: bodies) = H.encode body.length ++ (body ++ H.stream bodies) := by
  simp [stream, frame]

theorem length_stream_cons (body : List β) (bodies : List (List β)) :
    (H.stream (body :: bodies)).length = H.width + body.length + (H.stream bodies).length := by
  rw [stream_cons, List.length_append, List.length_append, H.length_encode, Nat.add_assoc]

/-- Inside the first frame no frame of the stream begins. -/
theorem drop_stream_ne {body : List β} {bodies front rest : List (List β)} {n : Nat}
    (split : body :: bodies = front ++ rest) (pos : 0 < n) (inside : n < H.width + body.length) :
    (H.stream (body :: bodies)).drop n ≠ H.stream rest := by
  intro eq
  have lengths := congrArg List.length eq
  rw [List.length_drop] at lengths
  cases front with
  | nil =>
      rw [List.nil_append] at split
      have total := H.length_stream_cons body bodies
      rw [← split] at lengths
      omega
  | cons first front =>
      rw [List.cons_append] at split
      obtain ⟨rfl, rfl⟩ := List.cons.inj split
      rw [length_stream_cons, stream_append, List.length_append] at lengths
      omega

end Header

/-! ### Writers that share a stream -/

/-- One of the two writes of a frame. -/
inductive Write (β : Type u) where
  | header (n : Nat)
  | body (bytes : List β)
  deriving DecidableEq

variable {β : Type u} {ι : Type v}

def Header.bytes (H : Header β) : Write β → List β
  | .header n => H.encode n
  | .body bytes => bytes

/-- The bytes on the stream after some writes. -/
def Header.received (H : Header β) (log : List (Write β)) : List β := log.flatMap H.bytes

/-- The bodies written, in order. -/
def bodies (log : List (Write β)) : List (List β) :=
  log.filterMap fun
    | .header _ => none
    | .body bytes => some bytes

/-- The writes of one writer for the frames of `todo`. -/
def writes (todo : List (List β)) : List (Write β) :=
  todo.flatMap fun body => [.header body.length, .body body]

/-- The writes that each writer has left. A step is one write of one writer. -/
def shared (ι : Type v) (β : Type u) [DecidableEq ι] :
    System (ι → List (Write β)) ι (Write β) where
  step s i :=
    match s i with
    | [] => none
    | w :: rest => some (Function.update s i rest, [w])

/-- The header of a frame has been written and its body has not. -/
def Open (left : List (Write β)) : Prop := ∃ body rest, left = .body body :: rest

/-- A frame is started only when no frame is open. -/
def Exclusive (s : ι → List (Write β)) (i : ι) : Prop :=
  ∀ n rest, s i = .header n :: rest → ∀ j, ¬ Open (s j)

/-- The stream parses into exactly the bodies written, in some order. -/
def Header.Parses (H : Header β) (log : List (Write β)) : Prop :=
  ∃ parsed, H.parse (H.received log) = some parsed ∧ parsed.Perm (bodies log)

/-- A body that cannot be mistaken for bytes that begin with a header. -/
def Header.Distinct (H : Header β) (body : List β) : Prop :=
  ∀ n rest, body ≠ (H.encode n ++ rest).take body.length

@[simp] theorem Header.received_append (H : Header β) (front back : List (Write β)) :
    H.received (front ++ back) = H.received front ++ H.received back :=
  List.flatMap_append

@[simp] theorem bodies_append (front back : List (Write β)) :
    bodies (front ++ back) = bodies front ++ bodies back :=
  List.filterMap_append

theorem writes_cons (body : List β) (todo : List (List β)) :
    writes (body :: todo) = .header body.length :: .body body :: writes todo := rfl

section Shared

variable [DecidableEq ι] {H : Header β}

theorem shared_step {s t : ι → List (Write β)} {i : ι} {es : List (Write β)}
    (step : (shared ι β).step s i = some (t, es)) :
    ∃ w rest, s i = w :: rest ∧ t = Function.update s i rest ∧ es = [w] := by
  cases left : s i with
  | nil => simp [shared, left] at step
  | cons w rest =>
      simp only [shared, left, Option.some.injEq, Prod.mk.injEq] at step
      exact ⟨w, rest, rfl, step.1.symm, step.2.symm⟩

/-- What the writers have left and have written, as long as no two frames overlap. -/
inductive Tidy (H : Header β) (s : ι → List (Write β)) (log : List (Write β)) : Prop where
  | closed (left : ∀ i, ∃ todo, s i = writes todo) (eq : H.received log = H.stream (bodies log))
  | opened {i : ι} {body : List β} (mine : ∃ todo, s i = .body body :: writes todo)
      (left : ∀ j, j ≠ i → ∃ todo, s j = writes todo)
      (eq : H.received log = H.stream (bodies log) ++ H.encode body.length)

theorem writes_not_open (todo : List (List β)) : ¬ Open (writes todo) := by
  rintro ⟨body, rest, eq⟩
  cases todo with
  | nil => cases eq
  | cons first todo =>
      rw [writes_cons] at eq
      cases eq

theorem Tidy.keep {s t : ι → List (Write β)} {log es : List (Write β)} {i : ι}
    (tidy : Tidy H s log) (exclusive : Exclusive s i)
    (step : (shared ι β).step s i = some (t, es)) : Tidy H t (log ++ es) := by
  obtain ⟨w, rest, here, rfl, rfl⟩ := shared_step step
  cases tidy with
  | closed left eq =>
      obtain ⟨todo, mine⟩ := left i
      cases todo with
      | nil =>
          rw [here] at mine
          cases mine
      | cons body todo =>
          rw [here, writes_cons] at mine
          obtain ⟨rfl, rfl⟩ := List.cons.inj mine
          refine .opened (i := i) ⟨todo, Function.update_self ..⟩ ?_ ?_
          · intro j other
            rw [Function.update_of_ne other]
            exact left j
          · rw [H.received_append, bodies_append, eq]
            simp [Header.received, Header.bytes, bodies]
  | @opened j body mine left eq =>
      obtain ⟨todo, mine⟩ := mine
      by_cases same : i = j
      · subst same
        rw [here] at mine
        obtain ⟨rfl, rfl⟩ := List.cons.inj mine
        refine .closed (fun k => ?_) ?_
        · by_cases is : k = i
          · rw [is]
            exact ⟨todo, Function.update_self ..⟩
          · rw [Function.update_of_ne is]
            exact left k is
        · rw [H.received_append, bodies_append, eq]
          simp [Header.received, Header.bytes, bodies, Header.stream, Header.frame]
      · -- another writer would have to start a frame
        obtain ⟨todo', others⟩ := left i same
        cases todo' with
        | nil =>
            rw [here] at others
            cases others
        | cons first todo' =>
            exact absurd ⟨body, _, mine⟩ (exclusive _ _ (others.trans (writes_cons first todo')) j)

theorem Tidy.exec {s t : ι → List (Write β)} {log : List (Write β)} {as : List ι}
    (left : ∀ i, ∃ todo, s i = writes todo) (along : (shared ι β).Along Exclusive s as)
    (run : (shared ι β).exec s as = some (t, log)) : Tidy H t log := by
  have start : Tidy H s [] := .closed left rfl
  have keep : ∀ (u : ι → List (Write β)) (before : List (Write β)) (i : ι)
      (v : ι → List (Write β)) (es : List (Write β)), Tidy H u before → Exclusive u i →
      (shared ι β).step u i = some (v, es) → Tidy H v (before ++ es) := by
    intro u before i v es tidy exclusive step
    exact tidy.keep exclusive step
  simpa using System.exec_rec_of_along keep along [] start run

/-- Every write comes from the writer's list. -/
theorem mem_of_exec {s t : ι → List (Write β)} {log : List (Write β)} {as : List ι}
    (run : (shared ι β).exec s as = some (t, log)) :
    (∀ i, ∀ w ∈ t i, ∃ j, w ∈ s j) ∧ ∀ w ∈ log, ∃ j, w ∈ s j := by
  let I := fun (u : ι → List (Write β)) (before : List (Write β)) =>
    (∀ i, ∀ w ∈ u i, ∃ j, w ∈ s j) ∧ ∀ w ∈ before, ∃ j, w ∈ s j
  have keep : ∀ (u : ι → List (Write β)) (before : List (Write β)) (i : ι)
      (v : ι → List (Write β)) (es : List (Write β)), I u before →
      (shared ι β).step u i = some (v, es) → I v (before ++ es) := by
    rintro u before i v es ⟨left, written⟩ step
    obtain ⟨w, rest, here, rfl, rfl⟩ := shared_step step
    constructor
    · intro j x mem
      by_cases same : j = i
      · subst same
        rw [Function.update_self] at mem
        exact left j x (here ▸ List.mem_cons_of_mem _ mem)
      · rw [Function.update_of_ne same] at mem
        exact left j x mem
    · intro x mem
      rcases List.mem_append.mp mem with old | new
      · exact written x old
      · rw [List.mem_singleton] at new
        exact left i x (by rw [here, new]; exact List.mem_cons_self)
  exact System.exec_rec keep [] ⟨fun i w mem => ⟨i, mem⟩, by simp⟩ run

theorem mem_bodies {log : List (Write β)} {body : List β} :
    body ∈ bodies log ↔ .body body ∈ log := by
  simp only [bodies, List.mem_filterMap]
  constructor
  · rintro ⟨w, mem, is⟩
    cases w with
    | header n => cases is
    | body bytes =>
        cases is
        exact mem
  · intro mem
    exact ⟨.body body, mem, rfl⟩

/-- Whole frames only, so that every body written is below the bound of the header. -/
theorem parses_iff_exclusive {s t : ι → List (Write β)} {log : List (Write β)} {as : List ι}
    (left : ∀ i, ∃ todo, s i = writes todo)
    (small : ∀ i body, .body body ∈ s i → body.length < H.bound)
    (distinct : ∀ i body, .body body ∈ s i → H.Distinct body)
    (run : (shared ι β).exec s as = some (t, log)) (closed : ∀ i, ¬ Open (t i)) :
    H.Parses log ↔ (shared ι β).Along Exclusive s as := by
  have fits : ∀ body ∈ bodies log, body.length < H.bound := by
    intro body mem
    obtain ⟨i, from_⟩ := (mem_of_exec run).2 _ (mem_bodies.mp mem)
    exact small i body from_
  constructor
  · rintro ⟨parsed, parses, perm⟩
    rcases System.along_or_first_break (C := Exclusive) run with
      along | ⟨front, i, back, m, before, after, rfl, along, run', broken, run'', rfl⟩
    · exact along
    · exfalso
      simp only [Exclusive, not_forall, not_not] at broken
      obtain ⟨n, rest, here, j, body, rest', other⟩ := broken
      -- the open frame's length is followed by the header of the overlapping one
      cases Tidy.exec (H := H) left along run' with
      | closed left' =>
          obtain ⟨todo, is⟩ := left' j
          exact writes_not_open todo ⟨body, rest', is ▸ other⟩
      | @opened k body' mine left' eq =>
          obtain ⟨todo, mine⟩ := mine
          obtain ⟨u, es, log', step, _, rfl⟩ := System.exec_cons.mp run''
          obtain ⟨w, rest₃, here', _, rfl⟩ := shared_step step
          obtain ⟨rfl, rfl⟩ := List.cons.inj (here'.symm.trans here)
          obtain ⟨k', from_⟩ := (mem_of_exec run').1 k (.body body')
            (by rw [mine]; exact List.mem_cons_self)
          have bytes : H.received (before ++ ([.header n] ++ log')) = H.stream (bodies before) ++
              (H.encode body'.length ++ (H.encode n ++ H.received log')) := by
            rw [H.received_append, H.received_append, eq]
            simp [Header.received, Header.bytes]
          have earlier : ∀ b ∈ bodies before, b.length < H.bound := fun b mem =>
            fits b (by rw [bodies_append]; exact List.mem_append_left _ mem)
          rw [bytes, Header.parse_stream_append earlier,
            Header.parse_header_append (small k' body' from_)] at parses
          split at parses
          · cases parses
          · rename_i long
            have taken := List.length_take_of_le (not_lt.mp long)
            obtain ⟨tail, parses', rfl⟩ := Option.map_eq_some_iff.mp parses
            obtain ⟨tail', _, rfl⟩ := Option.map_eq_some_iff.mp parses'
            have mem : (H.encode n ++ H.received log').take body'.length ∈
                bodies (before ++ ([.header n] ++ log')) :=
              perm.mem_iff.mp (List.mem_append_right _ List.mem_cons_self)
            obtain ⟨k₂, from₂⟩ := (mem_of_exec run).2 _ (mem_bodies.mp mem)
            refine distinct k₂ _ from₂ n (H.received log') ?_
            rw [taken]
  · intro along
    cases Tidy.exec (H := H) left along run with
    | closed _ eq =>
        exact ⟨bodies log, by rw [eq, Header.parse_stream fits], List.Perm.refl _⟩
    | @opened i body mine =>
        obtain ⟨todo, is⟩ := mine
        exact absurd ⟨body, writes todo, is⟩ (closed i)

end Shared

/-! ### Frames that are left without their body -/

/-- A frame whose header has been written, and perhaps its body. -/
structure Begun (β : Type u) where
  body : List β
  finished : Bool

def Header.begun (H : Header β) (f : Begun β) : List β :=
  H.encode f.body.length ++ if f.finished then f.body else []

section Begun

variable {H : Header β}

theorem Header.Distinct.ne_nil {body : List β} (distinct : H.Distinct body) : body ≠ [] := by
  rintro rfl
  exact distinct 0 [] rfl

/-- Each frame has its header at least. -/
theorem Header.eq_nil_of_begun {fs : List (Begun β)} (empty : fs.flatMap H.begun = []) :
    fs = [] := by
  cases fs with
  | nil => rfl
  | cons f fs =>
      have none := congrArg List.length empty
      have pos := H.width_pos
      rw [List.flatMap_cons, begun, List.length_append, List.length_append, H.length_encode] at none
      change _ = 0 at none
      omega

/-- Frames that are all finished are a stream. -/
theorem Header.begun_of_finished {fs : List (Begun β)} (all : ∀ f ∈ fs, f.finished = true) :
    fs.flatMap H.begun = H.stream (fs.map Begun.body) := by
  induction fs with
  | nil => rfl
  | cons f fs ih =>
      have first : H.begun f = H.frame f.body := by
        rw [begun, if_pos (all f List.mem_cons_self)]
        rfl
      have rest := ih fun g mem => all g (List.mem_cons_of_mem _ mem)
      rw [List.flatMap_cons, first, rest]
      rfl

/-- A header without its body cannot be read as a part of a stream of bodies that do not look
like headers. -/
theorem Header.finished_of_stream {fs : List (Begun β)} {bodies : List (List β)}
    (small : ∀ f ∈ fs, f.finished = true → f.body.length < H.bound)
    (smallBodies : ∀ body ∈ bodies, body.length < H.bound)
    (distinct : ∀ body ∈ bodies, H.Distinct body)
    (eq : fs.flatMap H.begun = H.stream bodies) : ∀ f ∈ fs, f.finished = true := by
  induction fs generalizing bodies with
  | nil => simp
  | cons f fs ih =>
      cases bodies with
      | nil => cases eq_nil_of_begun eq
      | cons body bodies =>
          rw [List.flatMap_cons, begun, List.append_assoc, stream_cons] at eq
          have widths : (H.encode f.body.length).length = (H.encode body.length).length := by
            rw [H.length_encode, H.length_encode]
          obtain ⟨headers, rest⟩ := List.append_inj eq widths
          have own := distinct body List.mem_cons_self
          have first : f.finished = true := by
            by_contra bare
            rw [if_neg bare, List.nil_append] at rest
            cases fs with
            | nil =>
                -- the stream ends behind the header
                have none := (List.append_eq_nil_iff.mp rest.symm).1
                exact own.ne_nil none
            | cons g fs =>
                -- the next header stands in the place of the body
                refine own g.body.length
                  ((if g.finished then g.body else []) ++ fs.flatMap H.begun) ?_
                rw [List.flatMap_cons, begun, List.append_assoc] at rest
                rw [rest, List.take_left]
          rw [if_pos first] at rest
          have lengths : f.body.length = body.length := by
            have mine := H.decode_encode _ (small f List.mem_cons_self first)
            have its := H.decode_encode _ (smallBodies body List.mem_cons_self)
            rw [← mine, headers, its]
          obtain ⟨_, tail⟩ := List.append_inj rest lengths
          intro g mem
          rcases List.mem_cons.mp mem with rfl | later
          · exact first
          · exact ih (fun f mem => small f (List.mem_cons_of_mem _ mem))
              (fun b mem => smallBodies b (List.mem_cons_of_mem _ mem))
              (fun b mem => distinct b (List.mem_cons_of_mem _ mem)) tail g later

end Begun

end Framing
