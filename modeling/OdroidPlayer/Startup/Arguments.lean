import OdroidPlayer.Startup.Filelist
import Mathlib.Algebra.Order.Ring.Int

/-!
The command line (`handle_option`, `handle_argument` and `main` of `server/main.c`).

An argument is the list of its bytes before the NUL. `namedIn` says which files an argument
names, itself or on the lines of a playlist file, as the usage text of the program has it.
`sources` says which of them are read: a playlist file takes the place of all other
arguments, and it is the file whose name is the first word behind `--file=`.
`handleArgument_fills` says that `handle_argument` puts what it finds under the names that
are read into `filelist` and nothing else.
-/

namespace OdroidPlayer.Startup

open Stdio

/-! ### The formats of `sscanf` -/

def isSpace (b : UInt8) : Bool := b == 32 || (9 ≤ b && b ≤ 13)

def isDigit (b : UInt8) : Bool := 48 ≤ b && b ≤ 57

/-- What follows the literal text of a format, past the white space that `%s` and `%d` skip. -/
def scanLiteral (literal data : List UInt8) : Option (List UInt8) :=
  if literal.isPrefixOf data then some ((data.drop literal.length).dropWhile isSpace) else none

/-- `safe_sscanf` with `%s` behind a literal; `none` when nothing is converted. -/
def safeSscanf (literal : List UInt8) (bufLen : Nat) (data : List UInt8) : Option (List UInt8) :=
  match (scanLiteral literal data).map fun rest =>
      (rest.takeWhile fun b => !isSpace b).take (bufLen - 1) with
  | none | some [] => none
  | some word => some word

def decimal (digits : List UInt8) : Int :=
  digits.foldl (fun (n : Int) digit => 10 * n + (digit.toNat - 48)) 0

/-- What `%d` stores of a number: `strtol` stops at the bounds of a `long`, and an `int` keeps
the low bits. -/
def storedInt (n : Int) : Int := (max (-2 ^ 63) (min n (2 ^ 63 - 1))).bmod (2 ^ 32)

/-- `sscanf` with `%d` behind a literal. -/
def sscanfInt (literal data : List UInt8) : Option Int :=
  let scan (sign : Int) (rest : List UInt8) : Option Int :=
    match rest.takeWhile isDigit with
    | [] => none
    | digits => some (storedInt (sign * decimal digits))
  match scanLiteral literal data with
  | none => none
  | some (45 :: rest) => scan (-1) rest
  | some (43 :: rest) => scan 1 rest
  | some rest => scan 1 rest

def toLower (buffer : List UInt8) : List UInt8 :=
  buffer.map fun b => if 65 ≤ b && b ≤ 90 then b + 32 else b

/-! ### The options -/

inductive OptionArg where
  | help
  | loop (value : List UInt8)
  | logLevel (level : Int)
  | file (name : List UInt8)
  | invalid
  deriving DecidableEq, Repr

/-- The conditions of `handle_option`, in their order. -/
def optionArg (arg : List UInt8) : OptionArg :=
  if strncmpEq arg (bytes "--help") 7 then .help
  else match safeSscanf (bytes "--loop=") 8 arg with
    | some value => .loop value
    | none => match sscanfInt (bytes "--log-level=") arg with
      | some level => .logLevel level
      | none => match safeSscanf (bytes "--file=") bufferSize arg with
        | some name => .file name
        | none => .invalid

/-- What the arguments set. -/
structure Settings where
  filelist : Filelist
  fileFlag : Bool
  isLoop : Bool
  level : Int

/-- The locals of `main` before `handle_argument`; the level is `QUIET`. -/
def Settings.initial : Settings := ⟨.cleared, false, true, 6⟩

def handleOption (host : Host) (arg : List UInt8) (s : Settings) : Except Stop Settings :=
  match optionArg arg with
  | .help => .error (.exit .success)
  | .loop value =>
      if strncmpEq (toLower value) (bytes "false") 6 || strncmpEq (toLower value) (bytes "0") 2 then
        .ok { s with isLoop := false }
      else .ok s
  | .logLevel level => .ok (if 0 ≤ level ∧ level ≤ 6 then { s with level } else s)
  | .file name =>
      match host.fopen name with
      | none => .ok { s with fileFlag := true }
      | some content =>
          ((fgetsAll (bufferSize - 2) content).foldlM (fun filelist buffer =>
            handleFilelist host (strtok newline (untilNul buffer)) filelist) s.filelist).map
              fun filelist => { s with fileFlag := true, filelist }
  | .invalid => .error (.exit .failure)

/-- `strncmp(arg, "--", 2) == 0` -/
def isOption (arg : List UInt8) : Bool := strncmpEq arg (bytes "--") 2

/-- The first loop of `handle_argument`. -/
def handleOptions (host : Host) (args : List (List UInt8)) (s : Settings) : Except Stop Settings :=
  args.foldlM (fun s arg => if isOption arg then handleOption host arg s else .ok s) s

/-- The second loop of `handle_argument`. -/
def handleFiles (host : Host) (args : List (List UInt8)) (filelist : Filelist) :
    Except Stop Filelist :=
  args.foldlM (fun filelist arg =>
    if isOption arg then .ok filelist else handleFilelist host (some arg) filelist) filelist

/-- `handle_argument` on the arguments behind the name of the program. -/
def handleArgument (host : Host) (args : List (List UInt8)) (s : Settings) :
    Except Stop Settings :=
  match handleOptions host args { s with fileFlag := false } with
  | .error stop => .error stop
  | .ok s =>
      if s.fileFlag then .ok s
      else (handleFiles host args s.filelist).map fun filelist => { s with filelist }

/-- What `main` asks for between the arguments and the player. -/
structure Launch where
  /-- `geteuid() == 0` -/
  root : Bool
  /-- `access(SERVER_SOCKET_PATH, F_OK) == 0` -/
  socket : Bool
  /-- `create_player` returns a player -/
  created : Bool

/-- `main` up to `start_player`; `none` when `prepare_player` returns false. -/
def main (host : Host) (launch : Launch) (args : List (List UInt8)) :
    Except Stop (Option Player) :=
  if args.isEmpty then .error (.exit .failure)
  else match handleArgument host args .initial with
    | .error stop => .error stop
    | .ok s =>
        if !launch.root || launch.socket || !launch.created then
          match freeFilelist s.filelist.slots with
          | .error stop => .error stop
          | .ok _ => .error (.exit .failure)
        else match preparePlayer (createPlayer s.isLoop) s.filelist.slots with
          | .error stop => .error stop
          | .ok none => (freeFilelist s.filelist.slots).map fun _ => none
          | .ok (some player) => .ok (some player)

/-! ### The names on a command line -/

/-- Where the name of a file is given. -/
inductive Source where
  | argument (path : List UInt8)
  | line (path : List UInt8)
  deriving DecidableEq, Repr

def Source.path : Source → List UInt8
  | .argument path | .line path => path

/-- The names that `handle_filelist` is handed for it. -/
def Source.names : Source → List (List UInt8)
  | .argument path => [path]
  | .line path => tokens (bufferSize - 2) path

/-- The lines of a playlist file that are not empty. -/
def linesOf (content : List UInt8) : List Source :=
  ((content.splitOn newline).filter (· ≠ [])).map .line

/-- What follows `literal` in an argument that begins with it. -/
def after (literal arg : List UInt8) : Option (List UInt8) :=
  if literal.isPrefixOf arg then some (arg.drop literal.length) else none

/-- An argument that begins with `--` is an option. -/
def dashed (arg : List UInt8) : Bool := (after (bytes "--") arg).isSome

/-- NAME of `--file=NAME`. -/
def playlistName (arg : List UInt8) : Option (List UInt8) := after (bytes "--file=") arg

def linesIn (host : Host) (name : List UInt8) : List Source := linesOf ((host.fopen name).getD [])

/-- The files that an argument names: the FILE that it is, or the lines of the playlist file
that it gives. -/
def namedIn (host : Host) (arg : List UInt8) : List Source :=
  if dashed arg then ((playlistName arg).map (linesIn host)).getD [] else [.argument arg]

/-- The value of an option is not white space alone. -/
def hasWord (value : List UInt8) : Bool := value.any fun b => !isSpace b

/-- The value of an option begins with a number, behind white space and a sign. -/
def startsNumber (value : List UInt8) : Bool :=
  match value.dropWhile isSpace with
  | 43 :: rest | 45 :: rest => rest.head?.any isDigit
  | rest => rest.head?.any isDigit

/-- The options behind which `handle_option` goes on; it exits on `--help` and on all others. -/
def understood (arg : List UInt8) : Bool :=
  (after (bytes "--loop=") arg).any hasWord || (after (bytes "--log-level=") arg).any startsNumber ||
    (playlistName arg).any hasWord

/-- The first word of a NAME, as far as the buffer of `handle_option` holds it. -/
def firstWord (name : List UInt8) : List UInt8 :=
  ((name.dropWhile isSpace).takeWhile fun b => !isSpace b).take (bufferSize - 1)

/-- The lines of the file that is opened for an option. -/
def openedIn (host : Host) (arg : List UInt8) : List Source :=
  ((playlistName arg).map fun name => linesIn host (firstWord name)).getD []

/-- The options that are handled, up to the first on which `handle_option` exits. -/
def handledOptions (args : List (List UInt8)) : List (List UInt8) :=
  (args.filter dashed).takeWhile understood

/-- `handle_argument` does not return. -/
def Exits (args : List (List UInt8)) : Prop :=
  ∃ arg ∈ args, dashed arg = true ∧ understood arg = false

instance (args : List (List UInt8)) : Decidable (Exits args) :=
  inferInstanceAs (Decidable (∃ arg ∈ args, _ ∧ _))

/-- An option gives a playlist file. -/
def hasPlaylist (args : List (List UInt8)) : Bool :=
  args.any fun arg => dashed arg && (playlistName arg).isSome

/-- What is read of an argument, on a command line with or without a playlist file. -/
def readIn (host : Host) (playlist : Bool) (arg : List UInt8) : List Source :=
  if dashed arg then openedIn host arg else if playlist then [] else [.argument arg]

/-- The names that are read of a command line. -/
def sources (host : Host) (args : List (List UInt8)) : List Source :=
  if Exits args then (handledOptions args).flatMap (openedIn host)
  else args.flatMap (readIn host (hasPlaylist args))

/-- The strings that `handle_filelist` makes of what is found under these names. -/
def entries (host : Host) (given : List Source) : List (List UInt8) :=
  uris host (given.flatMap Source.names)

/-! ### How an option is read -/

section Options

variable {arg literal value : List UInt8}

theorem after_eq_some_iff : after literal arg = some value ↔ arg = literal ++ value := by
  rw [after]
  split
  next begins =>
      obtain ⟨rest, rfl⟩ := List.isPrefixOf_iff_prefix.mp begins
      rw [List.drop_left, Option.some.injEq, List.append_cancel_left_eq]
  next other =>
      refine iff_of_false (fun eq => by cases eq) fun eq => other ?_
      exact List.isPrefixOf_iff_prefix.mpr ⟨value, eq.symm⟩

/-- An argument begins with one of two literals that differ. -/
theorem after_eq_none {other : List UInt8} (i : Nat) (here : i < literal.length)
    (there : i < other.length) (differ : literal[i]? ≠ other[i]?)
    (begins : after literal arg = some value) : after other arg = none := by
  cases rest : after other arg with
  | none => rfl
  | some value' =>
      refine absurd ?_ differ
      have first : (literal ++ value)[i]? = literal[i]? := List.getElem?_append_left here
      have second : (other ++ value')[i]? = other[i]? := List.getElem?_append_left there
      rw [← first, ← second, ← after_eq_some_iff.mp begins, ← after_eq_some_iff.mp rest]

theorem any_after {test : List UInt8 → Bool} :
    (after literal arg).any test = true ↔ ∃ value, after literal arg = some value ∧ test value := by
  cases after literal arg <;> simp

theorem scanLiteral_eq (literal arg : List UInt8) :
    scanLiteral literal arg = (after literal arg).map (List.dropWhile isSpace) := by
  rw [scanLiteral, after]
  split <;> rfl

theorem hasWord_iff (value : List UInt8) :
    hasWord value = true ↔ ((value.dropWhile isSpace).takeWhile fun b => !isSpace b) ≠ [] := by
  rw [hasWord]
  induction value with
  | nil => simp
  | cons b value ih => by_cases space : isSpace b = true <;> simp_all

theorem any_of_filter {given : Option (List UInt8)} {test : List UInt8 → Bool}
    (none_ : given.filter test = none) : given.any test = false := by
  cases given with
  | none => rfl
  | some value => simpa [Option.filter] using none_

/-- `%s` converts something if there is a word. -/
theorem safeSscanf_eq (literal : List UInt8) (room : Nat) (arg : List UInt8) :
    safeSscanf literal (room + 2) arg = ((after literal arg).filter hasWord).map fun value =>
      ((value.dropWhile isSpace).takeWhile fun b => !isSpace b).take (room + 1) := by
  rw [safeSscanf, scanLiteral_eq, Option.map_map]
  cases after literal arg with
  | none => rfl
  | some value =>
      have word := hasWord_iff value
      simp only [Option.map_some, Function.comp]
      cases scanned : (value.dropWhile isSpace).takeWhile fun b => !isSpace b with
      | nil =>
          have none_ : hasWord value = false := by simpa [scanned] using word
          simp [Option.filter, none_]
      | cons b rest =>
          have some_ : hasWord value = true := by simpa [scanned] using word
          simp [Option.filter, some_, scanned]

/-- `%d` converts something if there is a number. -/
theorem sscanfInt_isSome (literal arg : List UInt8) :
    (sscanfInt literal arg).isSome = (after literal arg).any startsNumber := by
  rw [sscanfInt, scanLiteral_eq]
  cases after literal arg with
  | none => rfl
  | some value =>
      have digits (rest : List UInt8) (sign : Int) :
          (match rest.takeWhile isDigit with
            | [] => none
            | digits => some (storedInt (sign * decimal digits))).isSome =
          rest.head?.any isDigit := by
        cases rest with
        | nil => rfl
        | cons b rest =>
            rw [List.takeWhile_cons, List.head?_cons, Option.any_some]
            cases isDigit b <;> rfl
      simp only [Option.map_some, Option.any_some, startsNumber]
      generalize value.dropWhile isSpace = value
      split
      next eq => cases eq
      next rest eq =>
          cases eq
          exact digits rest (-1)
      next rest eq =>
          cases eq
          exact digits rest 1
      next minus plus eq =>
          cases eq
          rw [digits _ 1]
          split
          next => exact absurd rfl (plus _)
          next => exact absurd rfl (minus _)
          next => rfl

/-- What `handle_option` makes of an option. -/
inductive Reads (arg : List UInt8) : OptionArg → Prop where
  | help (exits : understood arg = false) : Reads arg .help
  | loop {value : List UInt8} (goes : understood arg = true) (other : playlistName arg = none) :
      Reads arg (.loop value)
  | logLevel {level : Int} (goes : understood arg = true) (other : playlistName arg = none) :
      Reads arg (.logLevel level)
  | file {name : List UInt8} (goes : understood arg = true) (given : playlistName arg = some name) :
      Reads arg (.file (firstWord name))
  | invalid (exits : understood arg = false) : Reads arg .invalid

theorem begins_of_strncmp {n : Nat} (noNul : (0 : UInt8) ∉ literal) (long : literal.length ≤ n)
    (same : strncmpEq arg literal n = true) : ∃ value, after literal arg = some value := by
  have taken : (arg ++ [0]).take n = (literal ++ [0]).take n := by simpa [strncmpEq] using same
  have begins : literal <+: (arg ++ [0]).take n :=
    taken ▸ List.prefix_take_iff.mpr ⟨List.prefix_append literal [0], long⟩
  rcases List.prefix_concat_iff.mp (List.prefix_take_iff.mp begins).1 with rfl | ⟨value, eq⟩
  · simp at noNul
  · exact ⟨value, after_eq_some_iff.mpr eq.symm⟩

theorem isOption_eq (arg : List UInt8) : isOption arg = dashed arg := by
  rw [Bool.eq_iff_iff, dashed, Option.isSome_iff_exists]
  constructor
  · exact begins_of_strncmp (by decide) (by decide)
  · rintro ⟨value, begins⟩
    rw [after_eq_some_iff.mp begins]
    rfl

theorem optionArg_reads (arg : List UInt8) : Reads arg (optionArg arg) := by
  rw [optionArg]
  split
  next help =>
      obtain ⟨value, begins⟩ := begins_of_strncmp (by decide) (by decide) help
      refine .help ?_
      rw [understood, playlistName, after_eq_none 2 (by decide) (by decide) (by decide) begins,
        after_eq_none 2 (by decide) (by decide) (by decide) begins,
        after_eq_none 2 (by decide) (by decide) (by decide) begins]
      rfl
  · rw [safeSscanf_eq (bytes "--loop=") 6 arg]
    split
    next value read =>
        obtain ⟨rest, some_, -⟩ := Option.map_eq_some_iff.mp read
        obtain ⟨begins, word⟩ := Option.filter_eq_some_iff.mp some_
        refine .loop ?_ (after_eq_none 2 (by decide) (by decide) (by decide) begins)
        simp [understood, begins, word]
    next loop =>
        have noLoop : (after (bytes "--loop=") arg).any hasWord = false :=
          any_of_filter (Option.map_eq_none_iff.mp loop)
        have number := sscanfInt_isSome (bytes "--log-level=") arg
        split
        next level read =>
            rw [read, Option.isSome_some, eq_comm] at number
            obtain ⟨rest, begins, starts⟩ := any_after.mp number
            refine .logLevel ?_ (after_eq_none 2 (by decide) (by decide) (by decide) begins)
            simp [understood, number]
        next level =>
            rw [level, Option.isSome_none, eq_comm] at number
            rw [show bufferSize = 1022 + 2 from rfl, safeSscanf_eq]
            split
            next name read =>
                obtain ⟨rest, some_, rfl⟩ := Option.map_eq_some_iff.mp read
                obtain ⟨given, word⟩ := Option.filter_eq_some_iff.mp some_
                refine .file ?_ given
                simp [understood, playlistName, given, word]
            next file =>
                refine .invalid ?_
                have noFile : (playlistName arg).any hasWord = false :=
                  any_of_filter (Option.map_eq_none_iff.mp file)
                rw [understood, noLoop, number, noFile]
                rfl

/-- `%s` stops at the space. -/
example (host : Host) :
    openedIn host (bytes "--file=my list.txt") = linesIn host (bytes "my") := rfl

end Options

/-! ### How the arguments fill the array -/

section Fills

variable {host : Host} {files : List (List UInt8)} {s : Settings}

theorem uris_append (host : Host) (front back : List (List UInt8)) :
    uris host (front ++ back) = uris host front ++ uris host back := by
  rw [uris, List.filter_append, List.map_append, uris, uris]

theorem entries_append (host : Host) (front back : List Source) :
    entries host (front ++ back) = entries host front ++ entries host back := by
  rw [entries, List.flatMap_append, uris_append, entries, entries]

/-- The outcomes of a part of `handle_argument` that finds these files, and may exit. -/
inductive Fills (files : List (List UInt8)) (exits : Prop) (fileFlag : Bool) :
    Except Stop Settings → Prop where
  | fault (full : maxFilenum < files.length) : Fills files exits fileFlag (.error .fault)
  | exit (fits : files.length ≤ maxFilenum) (exits_ : exits) (code : ExitCode) :
      Fills files exits fileFlag (.error (.exit code))
  | ok (fits : files.length ≤ maxFilenum) (returns : ¬ exits) (s : Settings)
      (holds : s.filelist = .holding files) (flag : s.fileFlag = fileFlag) :
      Fills files exits fileFlag (.ok s)

theorem Fills.of_fill {exits : Prop} (returns : ¬ exits) (result : Except Stop Filelist)
    (eq : result = Filelist.fill files) (with_ : Filelist → Settings) {fileFlag : Bool}
    (holds : ∀ filelist, (with_ filelist).filelist = filelist)
    (flag : ∀ filelist, (with_ filelist).fileFlag = fileFlag) :
    Fills files exits fileFlag (result.map with_) := by
  subst eq
  by_cases fits : files.length ≤ maxFilenum
  · rw [Filelist.fill, if_pos fits]
    exact .ok fits returns _ (holds _) (flag _)
  · rw [Filelist.fill, if_neg fits]
    exact .fault (Nat.lt_of_not_le fits)

/-- A buffer without a name is passed over. -/
theorem foldlM_buffers (buffers : List (List UInt8)) (filelist : Filelist) :
    buffers.foldlM (fun filelist buffer =>
        handleFilelist host (strtok newline (untilNul buffer)) filelist) filelist =
      (buffers.filterMap fun buffer => strtok newline (untilNul buffer)).foldlM
        (fun filelist name => handleFilelist host (some name) filelist) filelist := by
  induction buffers generalizing filelist with
  | nil => rfl
  | cons buffer buffers ih =>
      rw [List.foldlM_cons, List.filterMap_cons]
      cases strtok newline (untilNul buffer) with
      | none =>
          rw [handleFilelist_none]
          exact ih filelist
      | some name =>
          rw [List.foldlM_cons]
          exact bind_congr fun filelist => ih filelist

/-- The names in a playlist file are those in its lines. -/
theorem tokens_linesOf (content : List UInt8) :
    (linesOf content).flatMap Source.names = tokens (bufferSize - 2) content := by
  rw [tokens_eq_lines, linesOf, List.flatMap_map]
  induction content.splitOn newline with
  | nil => rfl
  | cons line lines ih =>
      rw [List.flatMap_cons, List.filter_cons]
      by_cases nonempty : line = []
      · rw [nonempty, if_neg (by simp), tokens_nil, ih]
        rfl
      · rw [if_pos (by simp [nonempty]), List.flatMap_cons, ih]
        rfl

/-- What `handle_option` finds on an option, and whether it exits. -/
theorem handleOption_fills (host : Host) (holds : s.filelist = .holding files)
    (fits : files.length ≤ maxFilenum) (arg : List UInt8) :
    Fills (files ++ entries host (if understood arg then openedIn host arg else []))
      (understood arg = false) (s.fileFlag || (playlistName arg).isSome)
      (handleOption host arg s) := by
  have none_ : files ++ entries host [] = files := List.append_nil files
  have goesOn (goes : understood arg = true) : ¬ understood arg = false := by simp [goes]
  have read := optionArg_reads arg
  rw [handleOption]
  generalize optionArg arg = option at read
  cases read with
  | help exits | invalid exits =>
      rw [exits, if_neg (by decide), none_]
      exact .exit fits rfl _
  | loop goes other =>
      rw [if_pos goes, openedIn, other, Option.map_none, Option.getD_none, none_, Option.isSome_none,
        Bool.or_false]
      dsimp only
      split <;> exact .ok fits (goesOn goes) _ holds rfl
  | logLevel goes other =>
      rw [if_pos goes, openedIn, other, Option.map_none, Option.getD_none, none_, Option.isSome_none,
        Bool.or_false]
      dsimp only
      split <;> exact .ok fits (goesOn goes) _ holds rfl
  | @file name goes given =>
      rw [if_pos goes, openedIn, given, Option.map_some, Option.getD_some, Option.isSome_some,
        Bool.or_true, linesIn]
      dsimp only
      cases opened : host.fopen (firstWord name) with
      | none =>
          have empty : entries host (linesOf []) = [] := rfl
          rw [Option.getD_none, empty, List.append_nil]
          exact .ok fits (goesOn goes) _ holds rfl
      | some content =>
          refine .of_fill (goesOn goes) _ ?_ _ (fun _ => rfl) fun _ => rfl
          rw [foldlM_buffers, holds, entries, Option.getD_some, tokens_linesOf]
          exact foldlM_handleFilelist _ fits

theorem handledOptions_cons (arg : List UInt8) (args : List (List UInt8)) :
    handledOptions (arg :: args) =
      if dashed arg then
        if understood arg then arg :: handledOptions args else []
      else handledOptions args := by
  rw [handledOptions, List.filter_cons]
  by_cases option : dashed arg = true
  · rw [if_pos option, if_pos option, List.takeWhile_cons]
    rfl
  · rw [if_neg option, if_neg option]
    rfl

theorem exits_cons (arg : List UInt8) (args : List (List UInt8)) :
    Exits (arg :: args) ↔ dashed arg = true ∧ understood arg = false ∨ Exits args := by
  simp [Exits]

/-- The options are handled in their order, each on the array that those before it have
left. -/
theorem handleOptions_fills (host : Host) (holds : s.filelist = .holding files)
    (fits : files.length ≤ maxFilenum) (args : List (List UInt8)) :
    Fills (files ++ entries host ((handledOptions args).flatMap (openedIn host)))
      (Exits args) (s.fileFlag || hasPlaylist args) (handleOptions host args s) := by
  induction args generalizing s files with
  | nil =>
      have none_ : files ++ entries host [] = files := List.append_nil files
      refine .ok ?_ (by simp [Exits]) s ?_ (Bool.or_false _).symm
      · exact none_.symm ▸ fits
      · exact none_.symm ▸ holds
  | cons arg args ih =>
      rw [handleOptions, List.foldlM_cons, isOption_eq, handledOptions_cons, exits_cons]
      by_cases option : dashed arg = true
      · have flag : (s.fileFlag || hasPlaylist (arg :: args)) =
            ((s.fileFlag || (playlistName arg).isSome) || hasPlaylist args) := by
          rw [hasPlaylist, List.any_cons, option, Bool.true_and, Bool.or_assoc]
          rfl
        rw [if_pos option, if_pos option, flag]
        have first := handleOption_fills host holds fits arg
        generalize handleOption host arg s = result at first
        cases goes : understood arg with
        | false =>
            have none_ : files ++ entries host [] = files := List.append_nil files
            rw [if_neg Bool.false_ne_true, List.flatMap_nil, none_]
            rw [goes, if_neg Bool.false_ne_true, none_] at first
            cases first with
            | fault full => exact absurd fits (Nat.not_le.mpr full)
            | exit _ _ code => exact .exit fits (.inl ⟨option, rfl⟩) code
            | ok _ returns => exact absurd rfl returns
        | true =>
            have exits : (dashed arg = true ∧ true = false ∨ Exits args) ↔ Exits args :=
              or_iff_right fun both => Bool.noConfusion both.2
            rw [goes, if_pos rfl] at first
            rw [if_pos rfl, List.flatMap_cons, entries_append, ← List.append_assoc, exits]
            cases first with
            | fault full =>
                apply Fills.fault
                rw [List.length_append]
                exact Nat.lt_add_right _ full
            | exit _ exits_ => cases exits_
            | ok fits' _ t holds' flag' =>
                rw [← flag']
                exact ih holds' fits'
      · have flag : hasPlaylist (arg :: args) = hasPlaylist args := by
          simp [hasPlaylist, option]
        have exits : dashed arg = true ∧ understood arg = false ∨ Exits args ↔ Exits args :=
          or_iff_right fun both => option both.1
        rw [if_neg option, if_neg option, flag, exits]
        exact ih holds fits

/-- The arguments that are no options are handed over as they are. -/
theorem handleFiles_eq (args : List (List UInt8)) (filelist : Filelist) :
    handleFiles host args filelist =
      (args.filter fun arg => !dashed arg).foldlM
        (fun filelist arg => handleFilelist host (some arg) filelist) filelist := by
  induction args generalizing filelist with
  | nil => rfl
  | cons arg args ih =>
      rw [handleFiles, List.foldlM_cons, List.filter_cons, isOption_eq]
      cases dashed arg with
      | true => exact ih filelist
      | false => exact bind_congr ih

theorem names_arguments (args : List (List UInt8)) :
    (args.map Source.argument).flatMap Source.names = args := by
  rw [List.flatMap_map]
  exact List.flatMap_singleton' args

/-- With a playlist file, only what its options open is read. -/
theorem readIn_playlist (host : Host) {args : List (List UInt8)} (returns : ¬ Exits args) :
    args.flatMap (readIn host true) = (handledOptions args).flatMap (openedIn host) := by
  induction args with
  | nil => rfl
  | cons arg args ih =>
      rw [exits_cons, not_or] at returns
      rw [List.flatMap_cons, ih returns.2, handledOptions_cons, readIn]
      by_cases option : dashed arg = true
      · have goes : understood arg = true := by simpa [option] using returns.1
        rw [if_pos option, if_pos option, if_pos goes, List.flatMap_cons]
      · rw [if_neg option, if_neg option, if_pos rfl, List.nil_append]

/-- Without one, the arguments that are no options are. -/
theorem readIn_files (host : Host) {args : List (List UInt8)} (none_ : hasPlaylist args = false) :
    args.flatMap (readIn host false) = (args.filter fun arg => !dashed arg).map .argument ∧
      (handledOptions args).flatMap (openedIn host) = [] := by
  have unopened : ∀ arg ∈ args, dashed arg = true → openedIn host arg = [] := by
    intro arg mem option
    have other : playlistName arg = none := by
      simpa [option] using List.any_eq_false.mp none_ arg mem
    rw [openedIn, other]
    rfl
  constructor
  · induction args with
    | nil => rfl
    | cons arg args ih =>
        rw [hasPlaylist, List.any_cons, Bool.or_eq_false_iff] at none_
        have rest := ih none_.2 fun arg mem => unopened arg (.tail _ mem)
        rw [List.flatMap_cons, rest, readIn, List.filter_cons]
        by_cases option : dashed arg = true
        · rw [if_pos option, unopened arg List.mem_cons_self option, if_neg (by simp [option])]
          rfl
        · rw [if_neg option, if_neg Bool.false_ne_true, if_pos (by simp [option])]
          rfl
  · refine List.flatMap_eq_nil_iff.mpr fun arg mem => ?_
    obtain ⟨given, option⟩ := List.mem_filter.mp ((List.takeWhile_sublist _).subset mem)
    exact unopened arg given option

/-- `handle_argument` fills the array with what it finds under the names that are read, unless
it exits or finds too much. -/
theorem handleArgument_fills (host : Host) (cleared : s.filelist = .cleared)
    (args : List (List UInt8)) :
    Fills (entries host (sources host args)) (Exits args) (hasPlaylist args)
      (handleArgument host args s) := by
  have options : Fills (entries host ((handledOptions args).flatMap (openedIn host)))
      (Exits args) (hasPlaylist args) (handleOptions host args { s with fileFlag := false }) := by
    have empty : s.filelist = .holding [] := cleared.trans Filelist.cleared_eq
    have filled := handleOptions_fills host (s := { s with fileFlag := false }) empty
      (Nat.zero_le _) args
    rwa [List.nil_append, Bool.false_or] at filled
  rw [handleArgument, sources]
  generalize handleOptions host args { s with fileFlag := false } = result at options
  by_cases exits : Exits args
  · rw [if_pos exits]
    cases options with
    | fault full => exact .fault full
    | exit fits exits code => exact .exit fits exits code
    | ok _ returns => exact absurd exits returns
  rw [if_neg exits]
  cases list : hasPlaylist args with
  | true =>
      rw [readIn_playlist host exits]
      rw [list] at options
      cases options with
      | fault full => exact .fault full
      | exit _ exits_ => exact absurd exits_ exits
      | ok fits returns t holds flag =>
          simp only [flag]
          exact .ok fits returns t holds flag
  | false =>
      obtain ⟨given, unread⟩ := readIn_files host list
      rw [given, entries, names_arguments]
      rw [unread, list] at options
      cases options with
      | fault full => cases full
      | exit _ exits_ => exact absurd exits_ exits
      | ok _ returns t holds flag =>
          simp only [flag]
          refine .of_fill returns _ ?_ _ (fun _ => rfl) fun _ => rfl
          rw [handleFiles_eq, holds]
          exact foldlM_handleFilelist _ (Nat.zero_le _)

end Fills

end OdroidPlayer.Startup
