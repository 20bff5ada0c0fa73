import FilecoinHarness.Pipe
import FilecoinHarness.Runs

/-!
# A daemon's lifetime: `Start`, `ReadStdout`/`ReadStderr` and the three shutdowns

Reference model of how a test drives the daemon process `NewDaemon` defines (lines 282-350
and 688-705):

* `NewDaemon` connects the daemon's stdout and stderr to the harness with `StdoutPipe()` and
  `StderrPipe()`, and nothing else ever reads them.  The daemon is a `Writer C` over those
  two pipes: once started it writes its script byte by byte, and it exits only once a signal
  has reached it and its script is done.
* `Op`, `Stop`, `lifeProgram` — a test's use of the daemon as the harness's instructions:
  `Start`, then commands through `Run` (other processes, which never touch the daemon's
  pipes), `ReadStdout` and `ReadStderr`, then `Shutdown`, `ShutdownSuccess` or `ShutdownEasy`.
* `LifeState`, `lifeStep`, `lifeRun` — the daemon and the harness as one transition system.
  `ReadStdout`/`ReadStderr` is `ioutil.ReadAll`: it takes the pipe's bytes as they come and
  returns at end-of-file, once the pipe is empty and the daemon has exited.  Whether
  `Process.Signal` succeeds is an argument of the move, so its error paths are runs too.  The
  failing signal is allowed on a live daemon, which Linux does not do: an over-approximation,
  so every result below also holds of the runs that can really happen.

Results:

* `lifeInv_run` — no byte is lost or duplicated, and the daemon exits only after a signal
  has reached it, with its script done.
* `readAll_returns_only_after_exit`, `readAll_frozen_of_unsignalled` — a `ReadStdout` or
  `ReadStderr` returns only once the daemon has exited, so one issued before the shutdown
  never returns: nothing drains the pipes while the daemon runs.
* `blocked_run` — a daemon blocked on a full pipe that no remaining instruction reads stays
  blocked and never exits.
* `exited_false_of_overflow` — when the daemon's stdout output overflows a pipe nobody reads,
  the daemon never exits, and so no `ReadAll` returns, the shutdown's included.
* `draining_returns` — when it fits, the shutdown's `ReadStderr` returns on every schedule,
  with all of the daemon's stderr output.
* `lifeRun_length_le` — every run is finite.
-/

set_option autoImplicit false

namespace FilecoinHarness

/-! ## The harness's instructions -/

/-- One instruction of the harness's side of a test. -/
inductive Instr where
  /-- `td.process.Start()` in `Start`; the `WaitForAPI` checks and the key imports after it
  are commands of other processes -/
  | start
  /-- a command through `Run`, `RunSuccess` or `RunFail`: another `go-filecoin` process -/
  | command
  /-- `ioutil.ReadAll(td.Stdout)` or `ioutil.ReadAll(td.Stderr)`, to end-of-file -/
  | readAll (x : Stream)
  /-- `td.process.Process.Signal(...)`; on an error `Shutdown` reads stderr and stops the
  test, the other shutdowns go on -/
  | signal (readStderrOnError : Bool)
  deriving DecidableEq, Repr

/-- The streams an instruction may read: a `ReadAll`'s own, and stderr for `Shutdown`'s
signal, whose error path reads it. -/
def Instr.reads : Instr → List Stream
  | .readAll x => [x]
  | .signal true => [.stderr]
  | _ => []

/-- The operations a test performs on a started daemon. -/
inductive Op where
  | run
  | readStdout
  | readStderr
  deriving DecidableEq, Repr

/-- How a test stops the daemon. -/
inductive Stop where
  | shutdown
  | shutdownSuccess
  | shutdownEasy
  deriving DecidableEq, Repr

/-- An operation's instructions. -/
def Op.instrs : Op → List Instr
  | .run => [.command]
  | .readStdout => [.readAll .stdout]
  | .readStderr => [.readAll .stderr]

/-- `Shutdown` (lines 320-331): `Signal(SIGTERM)`, then `os.RemoveAll(td.repoDir)`, which
touches no pipe.  `ShutdownSuccess` and `ShutdownEasy` (lines 334-350): `Signal`, an
`assert.NoError` that lets the test go on, then `ReadStderr()`. -/
def Stop.instrs : Stop → List Instr
  | .shutdown => [.signal true]
  | .shutdownSuccess => [.signal false, .readAll .stderr]
  | .shutdownEasy => [.signal false, .readAll .stderr]

/-- A test's instructions: `Start`, the operations, the shutdown. -/
def lifeProgram (ops : List Op) (stop : Stop) : List Instr :=
  .start :: ops.flatMap Op.instrs ++ stop.instrs

/-- Only `ReadStdout` reads the daemon's stdout. -/
theorem lifeProgram_not_reads_stdout {ops : List Op} (stop : Stop) (h : Op.readStdout ∉ ops) :
    ∀ i ∈ lifeProgram ops stop, Stream.stdout ∉ i.reads := by
  have hops : ∀ o ∈ ops, ∀ i ∈ o.instrs, Stream.stdout ∉ i.reads := by
    intro o ho
    cases o with
    | readStdout => exact absurd ho h
    | run | readStderr => decide
  have hstop : ∀ i ∈ stop.instrs, Stream.stdout ∉ i.reads := by cases stop <;> decide
  intro i hi
  simp only [lifeProgram, List.mem_append, List.mem_cons, List.mem_flatMap] at hi
  rcases hi with (rfl | ⟨o, ho, hi⟩) | hi
  · decide
  · exact hops o ho i hi
  · exact hstop i hi

/-! ## The daemon and the harness -/

variable {C : Nat}

/-- The daemon's writing side, whether `Start` has run, whether a signal has reached the
daemon and whether it has exited (closing its write ends), the harness's remaining
instructions, and every byte the harness has read, in order, with its stream. -/
structure LifeState (C : Nat) where
  daemon : Writer C
  started : Bool
  signalled : Bool
  exited : Bool
  prog : List Instr
  reads : List (Stream × Char)

/-- What `NewDaemon` returns: the process defined with both pipes connected and empty, not
yet started, and the harness about to run `prog`. -/
def LifeState.init (C : Nat) (script : List Write) (prog : List Instr) : LifeState C :=
  ⟨Writer.init C script, false, false, false, prog, []⟩

/-- The moves of the daemon and of the harness. -/
inductive LifeAction where
  /-- the daemon writes its next byte -/
  | write
  /-- the daemon, signalled and with its script done, exits -/
  | exit
  /-- `td.process.Start()` -/
  | start
  /-- a command through `Run` completes -/
  | command
  /-- the current `ReadAll` takes a byte or sees end-of-file -/
  | read
  /-- `Signal` returns `nil` (`ok`) or an error -/
  | signal (ok : Bool)
  deriving DecidableEq, Repr

/-- `ioutil.ReadAll` on stream `x` makes progress: it takes the oldest byte of the pipe, or at
end-of-file (pipe empty, daemon exited) the harness goes on to `rest`. -/
def readAllStep (x : Stream) (rest : List Instr) (s : LifeState C) : Option (LifeState C) :=
  match s.daemon.take? x with
  | some (c, w) => some { s with daemon := w, reads := s.reads ++ [(x, c)] }
  | none => if s.exited then some { s with prog := rest } else none

/-- `Signal` returns: the signal reaches the daemon, or on an error `Shutdown` goes on to
`ReadStderr()` before `Fatalf`, and the other shutdowns to what follows. -/
def signalStep (ok readStderrOnError : Bool) (rest : List Instr) (s : LifeState C) :
    LifeState C :=
  if ok then { s with signalled := true, prog := rest }
  else if readStderrOnError then { s with prog := [.readAll .stderr] }
  else { s with prog := rest }

/-- One move; `none` when it is not enabled.  A signal needs a started process: before
`Start`, `td.process.Process` is `nil`.  `signal false` is enabled on a live daemon too, where
Linux's `kill(2)` would succeed: an over-approximation of `Process.Signal`'s error paths. -/
def lifeStep (a : LifeAction) (s : LifeState C) : Option (LifeState C) :=
  match a with
  | .write =>
    if s.started && !s.exited then s.daemon.write?.map fun w => { s with daemon := w } else none
  | .exit =>
    if s.signalled && !s.exited && s.daemon.pending.isEmpty then some { s with exited := true }
    else none
  | .start =>
    match s.prog with
    | .start :: rest => some { s with started := true, prog := rest }
    | _ => none
  | .command =>
    match s.prog with
    | .command :: rest => some { s with prog := rest }
    | _ => none
  | .read =>
    match s.prog with
    | .readAll x :: rest => readAllStep x rest s
    | _ => none
  | .signal ok =>
    match s.prog with
    | .signal e :: rest => if s.started then some (signalStep ok e rest s) else none
    | _ => none

/-- A run of the moves. -/
def lifeRun (as : List LifeAction) (s : LifeState C) : Option (LifeState C) :=
  runSteps lifeStep as s

/-- Every move, each signal outcome included. -/
def lifeActions : List LifeAction :=
  [.write, .exit, .start, .command, .read, .signal true, .signal false]

theorem mem_lifeActions (a : LifeAction) : a ∈ lifeActions := by
  cases a with
  | signal ok => cases ok <;> simp [lifeActions]
  | _ => simp [lifeActions]

/-- Some move is enabled. -/
def canMove (s : LifeState C) : Bool := lifeActions.any fun a => (lifeStep a s).isSome

theorem canMove_of_step {a : LifeAction} {s s' : LifeState C} (h : lifeStep a s = some s') :
    canMove s = true :=
  List.any_eq_true.2 ⟨a, mem_lifeActions a, by simp [h]⟩

/-- Once the harness is done and the daemon has exited, nothing moves. -/
theorem lifeStep_eq_none_of_done {s : LifeState C} (hp : s.prog = []) (hx : s.exited = true)
    (a : LifeAction) : lifeStep a s = none := by
  cases a <;> simp [lifeStep, hp, hx]

/-! ## One move at a time -/

section Moves

variable {s s' : LifeState C}

theorem lifeStep_write_eq_some :
    lifeStep .write s = some s' ↔ s.started = true ∧ s.exited = false ∧
      ∃ w, s.daemon.write? = some w ∧ { s with daemon := w } = s' := by
  simp only [lifeStep]
  cases s.started <;> cases s.exited <;> simp [Option.map_eq_some']

theorem lifeStep_exit_eq_some :
    lifeStep .exit s = some s' ↔ s.signalled = true ∧ s.exited = false ∧
      s.daemon.pending = [] ∧ { s with exited := true } = s' := by
  simp only [lifeStep]
  cases s.signalled <;> cases s.exited <;> simp [List.isEmpty_iff]

theorem lifeStep_start_eq_some :
    lifeStep .start s = some s' ↔ ∃ rest, s.prog = .start :: rest ∧
      { s with started := true, prog := rest } = s' := by
  simp only [lifeStep]
  split <;> simp_all

theorem lifeStep_command_eq_some :
    lifeStep .command s = some s' ↔ ∃ rest, s.prog = .command :: rest ∧
      { s with prog := rest } = s' := by
  simp only [lifeStep]
  split <;> simp_all

theorem readAllStep_eq_some {x : Stream} {rest : List Instr} :
    readAllStep x rest s = some s' ↔
      (∃ c w, s.daemon.take? x = some (c, w) ∧
          { s with daemon := w, reads := s.reads ++ [(x, c)] } = s') ∨
        (s.daemon.take? x = none ∧ s.exited = true ∧ { s with prog := rest } = s') := by
  unfold readAllStep
  split
  · rename_i c w h
    simp [h, and_assoc]
  · rename_i h
    cases s.exited <;> simp [h]

theorem lifeStep_read_eq_some :
    lifeStep .read s = some s' ↔ ∃ x rest, s.prog = .readAll x :: rest ∧
      readAllStep x rest s = some s' := by
  simp only [lifeStep]
  split <;> simp_all [and_assoc]

theorem lifeStep_signal_eq_some {ok : Bool} :
    lifeStep (.signal ok) s = some s' ↔ s.started = true ∧ ∃ e rest,
      s.prog = .signal e :: rest ∧ signalStep ok e rest s = s' := by
  simp only [lifeStep]
  split
  · rename_i e rest hp
    cases s.started <;> simp [hp, and_assoc]
  · simp_all

/-- The signal moves only the harness, and delivers the signal exactly when it succeeds. -/
theorem signalStep_fields (ok e : Bool) (rest : List Instr) (s : LifeState C) :
    (signalStep ok e rest s).daemon = s.daemon ∧ (signalStep ok e rest s).exited = s.exited ∧
      (signalStep ok e rest s).reads = s.reads ∧ (signalStep ok e rest s).started = s.started ∧
      (signalStep ok e rest s).signalled = (ok || s.signalled) ∧
      ((signalStep ok e rest s).prog = rest ∨
        (ok = false ∧ e = true ∧ (signalStep ok e rest s).prog = [.readAll .stderr])) := by
  unfold signalStep
  cases ok <;> cases e <;> simp

/-- Once exited, the daemon stays exited. -/
theorem exited_step {a : LifeAction} (h : lifeStep a s = some s') (hx : s.exited = true) :
    s'.exited = true := by
  cases a with
  | write => simp [(lifeStep_write_eq_some.1 h).2.1] at hx
  | exit => obtain ⟨-, -, -, rfl⟩ := lifeStep_exit_eq_some.1 h; rfl
  | start => obtain ⟨_, -, rfl⟩ := lifeStep_start_eq_some.1 h; exact hx
  | command => obtain ⟨_, -, rfl⟩ := lifeStep_command_eq_some.1 h; exact hx
  | read =>
    obtain ⟨x, rest, -, h⟩ := lifeStep_read_eq_some.1 h
    obtain ⟨c, w, -, rfl⟩ | ⟨-, -, rfl⟩ := readAllStep_eq_some.1 h <;> exact hx
  | signal ok =>
    obtain ⟨-, e, rest, -, rfl⟩ := lifeStep_signal_eq_some.1 h
    rw [(signalStep_fields ok e rest s).2.1]
    exact hx

end Moves

/-! ## No byte lost or duplicated -/

/-- The invariant of a lifetime whose daemon runs `script`. -/
structure LifeInv (script : List Write) (s : LifeState C) : Prop where
  /-- what the harness has read, then the pipe, then the unwritten bytes: the script's
  output -/
  conserve : ∀ x, bytesOn x s.reads ++ s.daemon.queued x = written x script
  /-- the daemon exits only once signalled and with its script done -/
  exited_done : s.exited = true → s.signalled = true ∧ s.daemon.pending = []
  /-- only a started process is signalled -/
  signalled_started : s.signalled = true → s.started = true

theorem lifeInv_init (script : List Write) (prog : List Instr) :
    LifeInv script (LifeState.init C script prog) where
  conserve x := by simp [LifeState.init, Writer.queued, bytesOn_toBytes]
  exited_done h := by simp [LifeState.init] at h
  signalled_started h := by simp [LifeState.init] at h

section Preservation

variable {script : List Write} {s s' : LifeState C}

/-- **Every move keeps the invariant.** -/
theorem LifeInv.step (hi : LifeInv script s) {a : LifeAction} (h : lifeStep a s = some s') :
    LifeInv script s' := by
  cases a with
  | write =>
    obtain ⟨-, hx, w, hw, rfl⟩ := lifeStep_write_eq_some.1 h
    exact ⟨fun x => by simpa [Writer.write?_conserve hw x] using hi.conserve x,
      fun h => by simp [hx] at h, hi.signalled_started⟩
  | exit =>
    obtain ⟨hs, -, hp, rfl⟩ := lifeStep_exit_eq_some.1 h
    exact ⟨hi.conserve, fun _ => ⟨hs, hp⟩, hi.signalled_started⟩
  | start =>
    obtain ⟨_, -, rfl⟩ := lifeStep_start_eq_some.1 h
    exact ⟨hi.conserve, hi.exited_done, fun _ => rfl⟩
  | command =>
    obtain ⟨_, -, rfl⟩ := lifeStep_command_eq_some.1 h
    exact ⟨hi.conserve, hi.exited_done, hi.signalled_started⟩
  | read =>
    obtain ⟨x, rest, -, h⟩ := lifeStep_read_eq_some.1 h
    obtain ⟨c, w, ht, rfl⟩ | ⟨-, -, rfl⟩ := readAllStep_eq_some.1 h
    · refine ⟨fun y => ?_, fun h => by simpa [(Writer.take?_conserve ht x).2] using
        hi.exited_done h, hi.signalled_started⟩
      have hq := (Writer.take?_conserve ht y).1
      by_cases hy : y = x
      · subst hy
        simpa [← hq] using hi.conserve y
      · simpa [bytesOn_cons_of_ne (Ne.symm hy), hy, ← hq] using hi.conserve y
    · exact ⟨hi.conserve, hi.exited_done, hi.signalled_started⟩
  | signal ok =>
    obtain ⟨hst, e, rest, -, rfl⟩ := lifeStep_signal_eq_some.1 h
    obtain ⟨hd, hx, hr, hs, hsig, -⟩ := signalStep_fields ok e rest s
    refine ⟨fun x => by simpa [hd, hr] using hi.conserve x, fun h => ?_, fun _ => hs ▸ hst⟩
    rw [hx] at h
    rw [hsig, hd, (hi.exited_done h).1, Bool.or_true]
    exact ⟨rfl, (hi.exited_done h).2⟩

theorem LifeInv.run (hi : LifeInv script s) {as : List LifeAction} (h : lifeRun as s = some s') :
    LifeInv script s' :=
  runSteps_preserves lifeStep (LifeInv script) (fun _ => True) (fun _ _ _ _ hi h => hi.step h)
    (fun _ _ => trivial) hi h

/-- **No byte is lost or duplicated**, and the daemon exits only after a signal has reached
it, in every reachable state, whatever the operations, the shutdown and the schedule. -/
theorem lifeInv_run (script : List Write) (prog : List Instr) {as : List LifeAction}
    {s : LifeState C} (h : lifeRun as (LifeState.init C script prog) = some s) :
    LifeInv script s :=
  (lifeInv_init script prog).run h

end Preservation

/-! ## Nothing drains a pipe but the harness's own `ReadAll` -/

section Frames

variable {s s' : LifeState C}

/-- In a `ReadAll`, only the daemon's moves and the read itself are enabled. -/
theorem lifeStep_of_readAll {x : Stream} {rest : List Instr} (hp : s.prog = .readAll x :: rest)
    {a : LifeAction} (h : lifeStep a s = some s') : a = .write ∨ a = .exit ∨ a = .read := by
  cases a with
  | write => exact .inl rfl
  | exit => exact .inr (.inl rfl)
  | read => exact .inr (.inr rfl)
  | start => obtain ⟨_, h', -⟩ := lifeStep_start_eq_some.1 h; simp [hp] at h'
  | command => obtain ⟨_, h', -⟩ := lifeStep_command_eq_some.1 h; simp [hp] at h'
  | signal ok => obtain ⟨-, e, rest', h', -⟩ := lifeStep_signal_eq_some.1 h; simp [hp] at h'

/-- **A `ReadAll` returns only after the daemon has exited**: along any run from a state in
a `ReadAll`, the harness is still there or the daemon has exited. -/
theorem readAll_returns_only_after_exit {x : Stream} {rest : List Instr}
    (hp : s.prog = .readAll x :: rest) {as : List LifeAction} (h : lifeRun as s = some s') :
    s'.prog = s.prog ∨ s'.exited = true := by
  refine runSteps_preserves lifeStep (fun t => t.prog = s.prog ∨ t.exited = true) (fun _ => True)
    ?_ (fun _ _ => trivial) (.inl rfl) h
  rintro a t t' - (ht | hx) h
  · rcases lifeStep_of_readAll (ht.trans hp) h with rfl | rfl | rfl
    · obtain ⟨-, -, w, -, rfl⟩ := lifeStep_write_eq_some.1 h; exact .inl ht
    · obtain ⟨-, -, -, rfl⟩ := lifeStep_exit_eq_some.1 h; exact .inr rfl
    · obtain ⟨y, rest', -, h⟩ := lifeStep_read_eq_some.1 h
      obtain ⟨c, w, -, rfl⟩ | ⟨-, hx, rfl⟩ := readAllStep_eq_some.1 h
      · exact .inl ht
      · exact .inr hx
  · exact .inr (exited_step h hx)

/-- **A `ReadStdout` or `ReadStderr` issued before any signal never returns**: the daemon
exits only once signalled, and the harness, stuck in the `ReadAll`, never sends the signal. -/
theorem readAll_frozen_of_unsignalled {script : List Write} (hi : LifeInv script s)
    {x : Stream} {rest : List Instr} (hp : s.prog = .readAll x :: rest)
    (hs : s.signalled = false) {as : List LifeAction} (h : lifeRun as s = some s') :
    s'.prog = s.prog := by
  have hx : s.exited = false := by
    cases hx : s.exited
    · rfl
    · simp [(hi.exited_done hx).1] at hs
  refine (runSteps_preserves lifeStep
    (fun t => t.prog = s.prog ∧ t.signalled = false ∧ t.exited = false) (fun _ => True)
    ?_ (fun _ _ => trivial) ⟨rfl, hs, hx⟩ h).1
  rintro a t t' - ⟨ht, hts, htx⟩ h
  rcases lifeStep_of_readAll (ht.trans hp) h with rfl | rfl | rfl
  · obtain ⟨-, -, w, -, rfl⟩ := lifeStep_write_eq_some.1 h; exact ⟨ht, hts, htx⟩
  · simp [(lifeStep_exit_eq_some.1 h).1] at hts
  · obtain ⟨y, rest', -, h⟩ := lifeStep_read_eq_some.1 h
    obtain ⟨c, w, -, rfl⟩ | ⟨-, hx', -⟩ := readAllStep_eq_some.1 h
    · exact ⟨ht, hts, htx⟩
    · simp [htx] at hx'

/-- One move when no instruction left reads stream `x`: still none does, the harness has
read nothing more from `x`, and unless the daemon writes or exits, pipe `x`, the daemon's
script and its exit are as they were. -/
theorem unread_step {x : Stream} (hno : ∀ i ∈ s.prog, x ∉ i.reads) {a : LifeAction}
    (h : lifeStep a s = some s') :
    (∀ i ∈ s'.prog, x ∉ i.reads) ∧ bytesOn x s'.reads = bytesOn x s.reads ∧
      (a = .write ∨ a = .exit ∨ (s'.daemon.pipe x = s.daemon.pipe x ∧
        s'.daemon.pending = s.daemon.pending ∧ s'.exited = s.exited)) := by
  cases a with
  | write => obtain ⟨-, -, w, -, rfl⟩ := lifeStep_write_eq_some.1 h; exact ⟨hno, rfl, .inl rfl⟩
  | exit => obtain ⟨-, -, -, rfl⟩ := lifeStep_exit_eq_some.1 h; exact ⟨hno, rfl, .inr (.inl rfl)⟩
  | start =>
    obtain ⟨rest, hp, rfl⟩ := lifeStep_start_eq_some.1 h
    exact ⟨fun i hi => hno i (by simp [hp, hi]), rfl, .inr (.inr ⟨rfl, rfl, rfl⟩)⟩
  | command =>
    obtain ⟨rest, hp, rfl⟩ := lifeStep_command_eq_some.1 h
    exact ⟨fun i hi => hno i (by simp [hp, hi]), rfl, .inr (.inr ⟨rfl, rfl, rfl⟩)⟩
  | read =>
    obtain ⟨y, rest, hp, h⟩ := lifeStep_read_eq_some.1 h
    have hxy : y ≠ x := fun hxy => hno (.readAll y) (by simp [hp]) (by simp [hxy, Instr.reads])
    obtain ⟨c, w, ht, rfl⟩ | ⟨-, -, rfl⟩ := readAllStep_eq_some.1 h
    · exact ⟨hno, by simp [bytesOn_cons_of_ne hxy], .inr (.inr
        ⟨Writer.take?_pipe_of_ne ht hxy.symm, (Writer.take?_conserve ht x).2, rfl⟩)⟩
    · exact ⟨fun i hi => hno i (by simp [hp, hi]), rfl, .inr (.inr ⟨rfl, rfl, rfl⟩)⟩
  | signal ok =>
    obtain ⟨-, e, rest, hp, rfl⟩ := lifeStep_signal_eq_some.1 h
    obtain ⟨hd, hx, hr, -, -, hprog⟩ := signalStep_fields ok e rest s
    refine ⟨fun i hi => ?_, by rw [hr], .inr (.inr ⟨by rw [hd], by rw [hd], hx⟩)⟩
    rcases hprog with hprog | ⟨-, rfl, hprog⟩
    · exact hno i (by rw [hp]; exact List.mem_cons_of_mem _ (hprog ▸ hi))
    · have hx : x ≠ .stderr := fun hx => hno (.signal true) (by simp [hp]) (by simp [hx, Instr.reads])
      simp only [hprog, List.mem_singleton] at hi
      simp [hi, Instr.reads, hx]

/-- **A daemon blocked on a full pipe that nothing left reads stays blocked**: along every
run, with the same script still to write, and it never exits. -/
theorem blocked_run {x : Stream} (hb : s.daemon.Blocked x) (hno : ∀ i ∈ s.prog, x ∉ i.reads)
    {as : List LifeAction} (h : lifeRun as s = some s') :
    s'.daemon.Blocked x ∧ s'.exited = s.exited := by
  refine (runSteps_preserves lifeStep
    (fun t => t.daemon.Blocked x ∧ (∀ i ∈ t.prog, x ∉ i.reads) ∧ t.exited = s.exited)
    (fun _ => True) ?_ (fun _ _ => trivial) ⟨hb, hno, rfl⟩ h).imp id (·.2)
  rintro a t t' - ⟨⟨c, rest, hp, hfull⟩, hno, hx⟩ h
  obtain ⟨hno', -, hrest⟩ := unread_step hno h
  rcases hrest with rfl | rfl | ⟨hpipe, hpend, hx'⟩
  · obtain ⟨-, -, w, hw, -⟩ := lifeStep_write_eq_some.1 h
    simp [(Writer.write?_eq_none _).2 (.inr ⟨x, c, rest, hp, hfull⟩)] at hw
  · simp [(lifeStep_exit_eq_some.1 h).2.2.1] at hp
  · exact ⟨⟨c, rest, hpend ▸ hp, hpipe ▸ hfull⟩, hno', hx'.trans hx⟩

/-- Nobody reads stream `x`, now or later: no instruction left reads it, and the harness has
read nothing from it. -/
def NoReader (x : Stream) (s : LifeState C) : Prop :=
  (∀ i ∈ s.prog, x ∉ i.reads) ∧ bytesOn x s.reads = []

theorem noReader_run {x : Stream} (hn : NoReader x s) {as : List LifeAction}
    (h : lifeRun as s = some s') : NoReader x s' :=
  runSteps_preserves lifeStep (NoReader x) (fun _ => True)
    (fun _ _ _ _ ⟨hno, hr⟩ h => ⟨(unread_step hno h).1, (unread_step hno h).2.1.trans hr⟩)
    (fun _ _ => trivial) hn h

/-- **A daemon whose stdout output overflows a pipe nobody reads never exits**: to exit it
would have to write all of it. -/
theorem exited_false_of_overflow {script : List Write} (hi : LifeInv script s)
    (hn : NoReader .stdout s) (hover : C < (written .stdout script).length) :
    s.exited = false := by
  cases hx : s.exited
  · rfl
  · have hq := hi.conserve .stdout
    have hbound := (s.daemon.pipe .stdout).bounded
    simp only [hn.2, (hi.exited_done hx).2, Writer.queued, bytesOn_nil, List.nil_append,
      List.append_nil] at hq
    rw [← hq] at hover
    omega

end Frames

/-! ## Every run is finite -/

/-- An instruction's share of the measure: `Shutdown`'s signal counts for two, since its error
path leaves a `ReadAll` behind. -/
def Instr.weight : Instr → Nat
  | .signal true => 2
  | _ => 1

/-- The weight of the harness's remaining instructions. -/
def progWeight : List Instr → Nat
  | [] => 0
  | i :: is => i.weight + progWeight is

/-- A measure every move decreases: each unwritten byte counts twice (it is written, then
read), each buffered byte once, plus the harness's remaining instructions and the daemon's
exit. -/
def lifeMeasure (s : LifeState C) : Nat :=
  s.daemon.pending.length + (s.daemon.queued .stdout).length + (s.daemon.queued .stderr).length +
    progWeight s.prog + (if s.exited then 0 else 1)

theorem lifeMeasure_step {a : LifeAction} {s s' : LifeState C} (h : lifeStep a s = some s') :
    lifeMeasure s' < lifeMeasure s := by
  cases a with
  | write =>
    obtain ⟨-, -, w, hw, rfl⟩ := lifeStep_write_eq_some.1 h
    obtain ⟨x, c, hp⟩ := Writer.write?_pending hw
    simp only [lifeMeasure, Writer.write?_conserve hw, hp, List.length_cons]
    omega
  | exit =>
    obtain ⟨-, hx, -, rfl⟩ := lifeStep_exit_eq_some.1 h
    simp [lifeMeasure, hx]
  | start =>
    obtain ⟨rest, hp, rfl⟩ := lifeStep_start_eq_some.1 h
    simp [lifeMeasure, hp, progWeight, Instr.weight]
  | command =>
    obtain ⟨rest, hp, rfl⟩ := lifeStep_command_eq_some.1 h
    simp [lifeMeasure, hp, progWeight, Instr.weight]
  | read =>
    obtain ⟨x, rest, hp, h⟩ := lifeStep_read_eq_some.1 h
    obtain ⟨c, w, ht, rfl⟩ | ⟨-, -, rfl⟩ := readAllStep_eq_some.1 h
    · have h1 := congrArg List.length (Writer.take?_conserve ht .stdout).1
      have h2 := congrArg List.length (Writer.take?_conserve ht .stderr).1
      simp only [lifeMeasure, (Writer.take?_conserve ht .stdout).2]
      cases x <;> simp at h1 h2 <;> omega
    · simp [lifeMeasure, hp, progWeight, Instr.weight]
  | signal ok =>
    obtain ⟨-, e, rest, hp, rfl⟩ := lifeStep_signal_eq_some.1 h
    cases ok <;> cases e <;> simp [lifeMeasure, signalStep, hp, progWeight, Instr.weight]
    omega

/-- **Every run is finite**: at most `lifeMeasure s` moves from `s`. -/
theorem lifeRun_length_le {as : List LifeAction} {s s' : LifeState C}
    (h : lifeRun as s = some s') : as.length ≤ lifeMeasure s :=
  runSteps_length_le lifeStep lifeMeasure (fun _ _ _ h => lifeMeasure_step h) h

/-! ## The shutdown's `ReadStderr` when stdout fits -/

section Draining

variable {script : List Write} {s s' : LifeState C}

/-- In the shutdown's `ReadStderr` after the signal has reached the daemon: the harness reads
stderr to end-of-file, and nobody has read stdout. -/
structure Draining (script : List Write) (s : LifeState C) : Prop where
  inv : LifeInv script s
  signalled : s.signalled = true
  stdout_unread : bytesOn .stdout s.reads = []
  prog : s.prog = [.readAll .stderr] ∨
    (s.prog = [] ∧ s.exited = true ∧ (s.daemon.pipe .stderr).buf = [])

theorem Draining.step (hd : Draining script s) {a : LifeAction} (h : lifeStep a s = some s') :
    Draining script s' := by
  have hi := hd.inv.step h
  rcases hd.prog with hp | ⟨hp, hx, -⟩
  · rcases lifeStep_of_readAll hp h with rfl | rfl | rfl
    · obtain ⟨-, -, w, -, rfl⟩ := lifeStep_write_eq_some.1 h
      exact ⟨hi, hd.signalled, hd.stdout_unread, .inl hp⟩
    · obtain ⟨-, -, -, rfl⟩ := lifeStep_exit_eq_some.1 h
      exact ⟨hi, hd.signalled, hd.stdout_unread, .inl hp⟩
    · obtain ⟨x, rest, hp', h⟩ := lifeStep_read_eq_some.1 h
      obtain ⟨rfl, rfl⟩ : x = .stderr ∧ rest = [] := by simpa [hp, eq_comm] using hp'
      obtain ⟨c, w, -, rfl⟩ | ⟨ht, hx, rfl⟩ := readAllStep_eq_some.1 h
      · exact ⟨hi, hd.signalled, by simpa using hd.stdout_unread, .inl hp⟩
      · exact ⟨hi, hd.signalled, hd.stdout_unread,
          .inr ⟨rfl, hx, (Writer.take?_eq_none _ _).1 ht⟩⟩
  · simp [lifeStep_eq_none_of_done hp hx] at h

/-- **Progress**: when the daemon's stdout output fits in a pipe, some move is enabled until
the shutdown's `ReadStderr` has returned. -/
theorem Draining.canMove (hC : 0 < C) (hfit : (written .stdout script).length ≤ C)
    (hd : Draining script s) (hne : s.prog ≠ []) : canMove s = true := by
  have hp : s.prog = [.readAll .stderr] := hd.prog.resolve_right fun h => hne h.1
  by_cases hb : (s.daemon.pipe .stderr).buf = []
  · have ht := (Writer.take?_eq_none _ _).2 hb
    cases hx : s.exited
    · cases hpend : s.daemon.pending with
      | nil => exact canMove_of_step (lifeStep_exit_eq_some.2 ⟨hd.signalled, hx, hpend, rfl⟩)
      | cons b rest =>
        obtain ⟨y, c⟩ := b
        have hroom : (s.daemon.pipe y).buf.length < C := by
          cases y with
          | stderr => simp [hb, hC]
          | stdout =>
            have := congrArg List.length (hd.inv.conserve .stdout)
            simp only [hd.stdout_unread, Writer.queued, hpend, bytesOn_cons_self, List.nil_append,
              List.length_append, List.length_cons] at this
            omega
        obtain ⟨w, hw⟩ := Writer.write?_of_room hpend hroom
        exact canMove_of_step (lifeStep_write_eq_some.2
          ⟨hd.inv.signalled_started hd.signalled, hx, w, hw, rfl⟩)
    · exact canMove_of_step (lifeStep_read_eq_some.2
        ⟨.stderr, [], hp, readAllStep_eq_some.2 (.inr ⟨ht, hx, rfl⟩)⟩)
  · obtain ⟨⟨c, w⟩, ht⟩ :=
      Option.ne_none_iff_exists'.1 fun h => hb ((Writer.take?_eq_none _ _).1 h)
    exact canMove_of_step (lifeStep_read_eq_some.2
      ⟨.stderr, [], hp, readAllStep_eq_some.2 (.inl ⟨c, w, ht, rfl⟩)⟩)

/-- **The shutdown's `ReadStderr` returns when the daemon's stdout fits in a pipe**: no state
reached from it is stuck before it has returned, some schedule gets it to return, and when it
has returned the harness has read everything the daemon wrote to stderr. -/
theorem draining_returns (hC : 0 < C) (hfit : (written .stdout script).length ≤ C)
    (hd : Draining script s) :
    (∀ bs t, lifeRun bs s = some t → t.prog ≠ [] → canMove t = true) ∧
      (∃ bs t, lifeRun bs s = some t ∧ t.prog = []) ∧
      (∀ bs t, lifeRun bs s = some t → t.prog = [] →
        bytesOn .stderr t.reads = written .stderr script) := by
  have hrun : ∀ {bs t}, lifeRun bs s = some t → Draining script t := fun h =>
    runSteps_preserves lifeStep (Draining script) (fun _ => True)
      (fun _ _ _ _ hd h => hd.step h) (fun _ _ => trivial) hd h
  refine ⟨fun _ _ h => (hrun h).canMove hC hfit, ?_, fun _ _ h hp => ?_⟩
  · obtain ⟨bs, t, -, hr, ht⟩ := exists_terminal_run lifeStep lifeMeasure
      (fun _ _ _ h => lifeMeasure_step h) (fun _ => True) s
    refine ⟨bs, t, hr, Classical.byContradiction fun hp => ?_⟩
    obtain ⟨a, -, ha⟩ := List.any_eq_true.1 ((hrun hr).canMove hC hfit hp)
    simp [ht a trivial] at ha
  · obtain ⟨hi, -, -, hprog⟩ := hrun h
    obtain ⟨-, hx, hbuf⟩ := hprog.resolve_left (by simp [hp])
    simpa [Writer.queued, hbuf, (hi.exited_done hx).2] using hi.conserve .stderr

end Draining

/-! ## A whole lifetime -/

/-- A daemon printing `ab` on stdout through one-byte pipes, stopped by `ShutdownSuccess` with
no operation in between: after its first byte it waits for room in the stdout pipe, the
harness waits in `ReadStderr` for an end-of-file, and no move is enabled. -/
theorem shutdownSuccess_stuck_two_bytes :
    ∃ s, lifeRun [.start, .write, .signal true]
        (LifeState.init 1 [⟨.stdout, ['a', 'b']⟩] (lifeProgram [] .shutdownSuccess)) = some s ∧
      s.daemon.Blocked .stdout ∧ s.prog = [.readAll .stderr] ∧ canMove s = false :=
  ⟨_, rfl, ⟨'b', [], rfl, rfl⟩, rfl, by decide⟩

/-- **What a daemon's lifetime guarantees.**  For every `C` (the bytes a pipe accepts unread),
daemon script, operations and shutdown, in every reachable state: no byte is lost or
duplicated; the daemon has exited only after a signal reached it, with its script done; every
run from here is finite; a `ReadAll` returns only once the daemon has exited; a `ReadAll`
issued before any signal never returns; a daemon blocked on a full pipe that no remaining
instruction reads stays blocked and never exits; without a `ReadStdout`, a daemon whose stdout
output overflows a pipe never exits and no `ReadAll` returns; and when that output fits, the
shutdown's `ReadStderr`, once the signal has reached the daemon, returns on every schedule
with all of the daemon's stderr output. -/
theorem daemonLifetime_spec (script : List Write) (ops : List Op) (stop : Stop)
    {as : List LifeAction} {s : LifeState C}
    (h : lifeRun as (LifeState.init C script (lifeProgram ops stop)) = some s) :
    (∀ x, bytesOn x s.reads ++ s.daemon.queued x = written x script) ∧
      (s.exited = true → s.signalled = true ∧ s.daemon.pending = []) ∧
      (∀ bs t, lifeRun bs s = some t → bs.length ≤ lifeMeasure s) ∧
      (∀ x rest, s.prog = .readAll x :: rest →
        ∀ bs t, lifeRun bs s = some t → t.prog = s.prog ∨ t.exited = true) ∧
      (∀ x rest, s.prog = .readAll x :: rest → s.signalled = false →
        ∀ bs t, lifeRun bs s = some t → t.prog = s.prog) ∧
      (∀ x, s.daemon.Blocked x → (∀ i ∈ s.prog, x ∉ i.reads) →
        ∀ bs t, lifeRun bs s = some t → t.daemon.Blocked x ∧ t.exited = false) ∧
      (Op.readStdout ∉ ops → C < (written .stdout script).length →
        s.exited = false ∧ ∀ x rest, s.prog = .readAll x :: rest →
          ∀ bs t, lifeRun bs s = some t → t.prog = s.prog) ∧
      (0 < C → Op.readStdout ∉ ops → (written .stdout script).length ≤ C →
        s.prog = [.readAll .stderr] → s.signalled = true →
          (∀ bs t, lifeRun bs s = some t → t.prog ≠ [] → canMove t = true) ∧
          (∃ bs t, lifeRun bs s = some t ∧ t.prog = []) ∧
          (∀ bs t, lifeRun bs s = some t → t.prog = [] →
            bytesOn .stderr t.reads = written .stderr script)) := by
  have hi := lifeInv_run script _ h
  have hn : Op.readStdout ∉ ops → NoReader .stdout s := fun hno =>
    noReader_run (show NoReader .stdout (LifeState.init C script (lifeProgram ops stop)) from
      ⟨lifeProgram_not_reads_stdout stop hno, rfl⟩) h
  refine ⟨hi.conserve, hi.exited_done, fun _ _ h => lifeRun_length_le h,
    fun _ _ hp _ _ h => readAll_returns_only_after_exit hp h,
    fun _ _ hp hs _ _ h => readAll_frozen_of_unsignalled hi hp hs h,
    fun x hb hno _ _ h => ?_, fun hno hover => ?_, fun hC hno hfit hp hs => ?_⟩
  · have hx : s.exited = false := by
      obtain ⟨c, rest, hp, -⟩ := hb
      cases hx : s.exited
      · rfl
      · simp [(hi.exited_done hx).2] at hp
    exact (blocked_run hb hno h).imp_right (·.trans hx)
  · refine ⟨exited_false_of_overflow hi (hn hno) hover, fun _ _ hp _ _ ht => ?_⟩
    refine (readAll_returns_only_after_exit hp ht).resolve_right ?_
    simp [exited_false_of_overflow (hi.run ht) (noReader_run (hn hno) ht) hover]
  · exact draining_returns hC hfit ⟨hi, hs, (hn hno).2, .inl hp⟩

/-- A daemon writing `a` to stdout and `ef` to stderr through one-byte pipes, one command, then
`ShutdownSuccess` whose signal succeeds: after the signal the harness is in the shutdown's
`ReadStderr`, which can return and returns `ef`.  With `ab` on stdout instead, the daemon never
exits and that `ReadStderr` never returns. -/
theorem daemonLifetime_spec_one_byte_pipes :
    (∃ s : LifeState 1, lifeRun [.start, .command, .signal true]
        (LifeState.init 1 [⟨.stdout, ['a']⟩, ⟨.stderr, ['e', 'f']⟩]
          (lifeProgram [.run] .shutdownSuccess)) = some s ∧
      s.prog = [.readAll .stderr] ∧ s.signalled = true ∧
      (∃ bs t, lifeRun bs s = some t ∧ t.prog = []) ∧
      ∀ bs t, lifeRun bs s = some t → t.prog = [] → bytesOn .stderr t.reads = ['e', 'f']) ∧
    (∃ s : LifeState 1, lifeRun [.start, .command, .signal true]
        (LifeState.init 1 [⟨.stdout, ['a', 'b']⟩] (lifeProgram [.run] .shutdownSuccess)) = some s ∧
      s.prog = [.readAll .stderr] ∧ s.exited = false ∧
      ∀ bs t, lifeRun bs s = some t → t.prog = s.prog) := by
  have hfits := (@daemonLifetime_spec 1 [⟨.stdout, ['a']⟩, ⟨.stderr, ['e', 'f']⟩] [.run]
    .shutdownSuccess [.start, .command, .signal true] _ rfl).2.2.2.2.2.2.2
    (by decide) (by decide) (by decide) rfl rfl
  have hover := (@daemonLifetime_spec 1 [⟨.stdout, ['a', 'b']⟩] [.run]
    .shutdownSuccess [.start, .command, .signal true] _ rfl).2.2.2.2.2.2.1 (by decide)
    (by decide)
  exact ⟨⟨_, rfl, rfl, rfl, hfits.2.1, hfits.2.2⟩,
    ⟨_, rfl, rfl, hover.1, hover.2 .stderr [] rfl⟩⟩

end FilecoinHarness
