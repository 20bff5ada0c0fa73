import FilecoinHarness.Output
import FilecoinHarness.Pipe
import FilecoinHarness.Config
import FilecoinHarness.Runs

/-!
# `RunWithStdin`: the command line and the drain of the child's two pipes

Reference model of `TestDaemon.RunWithStdin` (lines 142-204):

* `cmdArgs` / `finalArgs` — lines 150-155: a lone argument is split at spaces (the
  `Run("cmd subcmd")` shortcut), then `--repodir=` and `--cmdapiaddr=` are appended.
* `RunState`, `step`, `run` — one call as a transition system of the child and the harness
  over two pipes that each accept `C` bytes unread.  The child writes its script byte by byte and exits; the
  harness runs lines 172-187 in order: `ioutil.ReadAll(stderr)` to end-of-file, then
  `ioutil.ReadAll(stdout)` to end-of-file, then `cmd.Wait()`.  The action `kill` is the
  context's deadline firing (`exec.CommandContext` kills the child); a run "without the
  deadline" is one that does not use it.
* `runOutput` — the `Output` the call returns; `runSuccess` / `runFail` — `RunSuccess` and
  `RunFail`, the call followed by `AssertSuccess` or `AssertFail`.

Results:

* `runWithStdin_args_join` — the single-string and the tokenized forms of a command build the
  same argument vector and the same `Output.Args`.
* `inv_run` — in every reachable state no byte is lost or duplicated: for each stream, what
  `ReadAll` has read, what is in the pipe and what the child has still to write make up
  everything the script writes to that stream.
* `run_length_le` — every run is finite: `measure` drops at each step.
* `canStep_of_fits`, `runWithStdin_completes` — when the child's stdout output is at most the
  `C` bytes a pipe accepts unread, no reachable state is stuck and a finished call holds
  exactly what the child wrote.
* `readStderr_of_overflow`, `runWithStdin_overflow_stuck` — when it does not fit, no run
  without the deadline ever gets past `ReadAll(stderr)`, and some run gets stuck: the child
  blocks on the full stdout pipe while the harness waits for end-of-file on stderr.
* `runWithStdin_deadline_completes` — with the deadline no state is stuck, and what the call
  returns is every byte the child wrote before it was killed.
* `runSuccess_runFail_done` — once a call without the deadline's kill has returned, the
  verdict of `RunSuccess` and of `RunFail` depends only on the child: its exit status and
  everything it wrote to each stream.
-/

set_option autoImplicit false

namespace FilecoinHarness

/-! ## Arguments -/

/-- Lines 150-153, the `Run("cmd subcmd")` shortcut: a lone argument is split at spaces. -/
def cmdArgs : List String → List String
  | [a] => split a ' '
  | args => args

/-- Line 155: `append(args, "--repodir="+td.repoDir, "--cmdapiaddr="+td.cmdAddr)`. -/
def finalArgs (td : TestDaemon) (args : List String) : List String :=
  cmdArgs args ++ ["--repodir=" ++ td.repoDir, "--cmdapiaddr=" ++ td.cmdAddr]

/-- Tokens free of spaces go through the shortcut unchanged. -/
theorem cmdArgs_of_forall_not_mem {ts : List String} (h : ∀ t ∈ ts, ' ' ∉ t.data) :
    cmdArgs ts = ts := by
  match ts, h with
  | [], _ => rfl
  | [a], h =>
    show split a ' ' = [a]
    simpa using @split_join [a] ' ' h (List.cons_ne_nil _ _)
  | _ :: _ :: _, _ => rfl

/-! ## The child and the harness -/

/-- Where the harness is in lines 172-187. -/
inductive Pc where
  /-- in `ioutil.ReadAll(stderr)` -/
  | readStderr
  /-- in `ioutil.ReadAll(stdout)` -/
  | readStdout
  /-- in `cmd.Wait()` -/
  | waiting
  /-- `RunWithStdin` returns -/
  | done
  deriving DecidableEq, Repr

/-- The stream the harness is reading at `pc`, and where it goes at end-of-file. -/
def Pc.reading : Pc → Option (Stream × Pc)
  | .readStderr => some (.stderr, .readStdout)
  | .readStdout => some (.stdout, .waiting)
  | _ => none

theorem Pc.reading_eq_some {pc next : Pc} {x : Stream} :
    pc.reading = some (x, next) ↔
      (pc = .readStderr ∧ x = .stderr ∧ next = .readStdout) ∨
      (pc = .readStdout ∧ x = .stdout ∧ next = .waiting) := by
  cases pc <;> simp [Pc.reading, eq_comm, and_comm]

variable {C : Nat}

/-- One `RunWithStdin` call in flight: the child's writing side, whether it has exited (and so
closed its write ends), where the harness is, and what each `ReadAll` has read. -/
structure RunState (C : Nat) where
  child : Writer C
  exited : Bool
  pc : Pc
  stdoutBytes : List Char
  stderrBytes : List Char

/-- The call as `cmd.Start()` leaves it: the child about to run `script`. -/
def RunState.init (C : Nat) (script : List Write) : RunState C :=
  ⟨Writer.init C script, false, .readStderr, [], []⟩

/-- What `ReadAll` has read from stream `x` so far. -/
def RunState.got (s : RunState C) : Stream → List Char
  | .stdout => s.stdoutBytes
  | .stderr => s.stderrBytes

/-- `ReadAll` on stream `x` appends byte `c` to its buffer. -/
def RunState.record (s : RunState C) (x : Stream) (c : Char) : RunState C :=
  match x with
  | .stdout => { s with stdoutBytes := s.stdoutBytes ++ [c] }
  | .stderr => { s with stderrBytes := s.stderrBytes ++ [c] }

@[simp] theorem RunState.got_record_self (s : RunState C) (x : Stream) (c : Char) :
    (s.record x c).got x = s.got x ++ [c] := by
  cases x <;> rfl

@[simp] theorem RunState.got_record_of_ne (s : RunState C) {x y : Stream} (h : y ≠ x)
    (c : Char) : (s.record x c).got y = s.got y := by
  cases x <;> cases y <;> first | rfl | exact absurd rfl h

@[simp] theorem RunState.record_child (s : RunState C) (x : Stream) (c : Char) :
    (s.record x c).child = s.child ∧ (s.record x c).exited = s.exited ∧
      (s.record x c).pc = s.pc := by
  cases x <;> exact ⟨rfl, rfl, rfl⟩

@[simp] theorem RunState.got_stdout (s : RunState C) : s.got .stdout = s.stdoutBytes := rfl

/-- The moves of one call. -/
inductive Action where
  /-- the child writes its next byte -/
  | write
  /-- the child, its script done, exits -/
  | exit
  /-- the context's deadline fires and the child is killed -/
  | kill
  /-- the harness's current `ReadAll` takes a byte or sees end-of-file -/
  | read
  /-- `cmd.Wait()` returns -/
  | wait
  deriving DecidableEq, Repr

/-- `ioutil.ReadAll` on stream `x` makes progress: it takes the oldest byte of the pipe, or at
end-of-file (pipe empty, child exited) the harness goes on to `next`. -/
def readAll (x : Stream) (next : Pc) (s : RunState C) : Option (RunState C) :=
  match s.child.take? x with
  | some (c, w) => some ({ s with child := w }.record x c)
  | none => if s.exited then some { s with pc := next } else none

/-- One move; `none` when it is not enabled. -/
def step (a : Action) (s : RunState C) : Option (RunState C) :=
  match a with
  | .write => if s.exited then none else s.child.write?.map fun w => { s with child := w }
  | .exit => if !s.exited && s.child.pending.isEmpty then some { s with exited := true } else none
  | .kill => if s.exited then none else some { s with exited := true }
  | .read =>
    match s.pc.reading with
    | some (x, next) => readAll x next s
    | none => none
  | .wait => if s.pc == .waiting && s.exited then some { s with pc := .done } else none

/-- A run of the call's moves. -/
def run (as : List Action) (s : RunState C) : Option (RunState C) := runSteps step as s

/-- Some move other than the deadline is enabled. -/
def canStep (s : RunState C) : Bool :=
  [Action.write, .exit, .read, .wait].any fun a => (step a s).isSome

/-- Stuck: the call has not returned and, short of the deadline, nothing can move. -/
def Stuck (s : RunState C) : Prop := s.pc ≠ .done ∧ canStep s = false

instance (s : RunState C) : Decidable (Stuck s) :=
  inferInstanceAs (Decidable (_ ∧ _))

/-! ## One move at a time -/

section Moves

variable {s s' : RunState C}

theorem step_write_eq_some :
    step .write s = some s' ↔ s.exited = false ∧ ∃ w, s.child.write? = some w ∧
      { s with child := w } = s' := by
  simp only [step]
  cases s.exited <;> simp [Option.map_eq_some']

theorem step_exit_eq_some :
    step .exit s = some s' ↔ s.exited = false ∧ s.child.pending = [] ∧
      { s with exited := true } = s' := by
  simp only [step]
  cases s.exited <;> simp [List.isEmpty_iff]

theorem step_kill_eq_some :
    step .kill s = some s' ↔ s.exited = false ∧ { s with exited := true } = s' := by
  simp only [step]
  cases s.exited <;> simp

theorem readAll_eq_some {x : Stream} {next : Pc} :
    readAll x next s = some s' ↔
      (∃ c w, s.child.take? x = some (c, w) ∧ { s with child := w }.record x c = s') ∨
      (s.child.take? x = none ∧ s.exited = true ∧ { s with pc := next } = s') := by
  unfold readAll
  split
  · rename_i c w h
    simp [h, and_assoc]
  · rename_i h
    cases s.exited <;> simp [h]

theorem step_read_eq_some :
    step .read s = some s' ↔ ∃ x next, s.pc.reading = some (x, next) ∧
      readAll x next s = some s' := by
  simp only [step]
  split
  · rename_i x next h
    simp [h, and_assoc]
  · simp_all

theorem step_wait_eq_some :
    step .wait s = some s' ↔ s.pc = .waiting ∧ s.exited = true ∧
      { s with pc := .done } = s' := by
  simp only [step]
  cases s.exited <;> cases h : s.pc <;> simp

end Moves

/-! ## No byte lost or duplicated -/

/-- The invariant of a call whose child runs `script`. -/
structure Inv (script : List Write) (s : RunState C) : Prop where
  /-- what `ReadAll` has read, then the pipe, then the unwritten bytes: the script's output -/
  conserve : ∀ x, s.got x ++ s.child.queued x = written x script
  /-- past `ReadAll(stderr)`, the stderr pipe is drained and closed -/
  stderr_eof : s.pc ≠ .readStderr → (s.child.pipe .stderr).buf = [] ∧ s.exited = true
  /-- past `ReadAll(stdout)`, the stdout pipe is drained and closed -/
  stdout_eof : s.pc = .waiting ∨ s.pc = .done →
    (s.child.pipe .stdout).buf = [] ∧ s.exited = true
  /-- `ReadAll(stdout)` has read nothing while `ReadAll(stderr)` runs -/
  stdout_unread : s.pc = .readStderr → s.stdoutBytes = []

theorem inv_init (script : List Write) : Inv script (RunState.init C script) where
  conserve x := by
    cases x <;> simp [RunState.init, Writer.queued, RunState.got, bytesOn_toBytes, Writer.init,
      Writer.pipe, Pipe.empty]
  stderr_eof h := absurd rfl h
  stdout_eof h := by simp [RunState.init] at h
  stdout_unread _ := rfl

section Preservation

variable {script : List Write} {s s' : RunState C}

theorem Inv.write (hi : Inv script s) (hx : s.exited = false) {w : Writer C}
    (hw : s.child.write? = some w) : Inv script { s with child := w } where
  conserve x := by simpa [Writer.write?_conserve hw x] using hi.conserve x
  stderr_eof h := absurd (hi.stderr_eof h).2 (by simp [hx])
  stdout_eof h := absurd (hi.stdout_eof h).2 (by simp [hx])
  stdout_unread := hi.stdout_unread

theorem Inv.exit (hi : Inv script s) : Inv script { s with exited := true } where
  conserve := hi.conserve
  stderr_eof h := ⟨(hi.stderr_eof h).1, rfl⟩
  stdout_eof h := ⟨(hi.stdout_eof h).1, rfl⟩
  stdout_unread := hi.stdout_unread

theorem Inv.readByte (hi : Inv script s) {x : Stream} {next : Pc}
    (hr : s.pc.reading = some (x, next)) {c : Char} {w : Writer C}
    (ht : s.child.take? x = some (c, w)) : Inv script ({ s with child := w }.record x c) where
  conserve y := by
    obtain ⟨hq, -⟩ := Writer.take?_conserve ht y
    by_cases hy : y = x
    · subst hy
      simpa [← hq] using hi.conserve y
    · simp only [hy, if_false, List.nil_append] at hq
      simpa [RunState.got_record_of_ne _ hy, hq] using hi.conserve y
  stderr_eof h := by
    rcases Pc.reading_eq_some.1 hr with ⟨hpc, rfl, rfl⟩ | ⟨hpc, rfl, rfl⟩
    · simp [hpc] at h
    · obtain ⟨p, -, rfl⟩ := Writer.take?_eq_some.1 ht
      simpa using hi.stderr_eof (by simp [hpc])
  stdout_eof h := by
    rcases Pc.reading_eq_some.1 hr with ⟨hpc, -, -⟩ | ⟨hpc, -, -⟩ <;> simp [hpc] at h
  stdout_unread h := by
    rcases Pc.reading_eq_some.1 hr with ⟨hpc, rfl, rfl⟩ | ⟨hpc, rfl, rfl⟩
    · exact hi.stdout_unread hpc
    · simp [hpc] at h

theorem Inv.readEof (hi : Inv script s) {x : Stream} {next : Pc}
    (hr : s.pc.reading = some (x, next)) (ht : s.child.take? x = none) (hx : s.exited = true) :
    Inv script { s with pc := next } where
  conserve := hi.conserve
  stderr_eof _ := by
    rw [Writer.take?_eq_none] at ht
    rcases Pc.reading_eq_some.1 hr with ⟨hpc, rfl, rfl⟩ | ⟨hpc, rfl, rfl⟩
    · exact ⟨ht, hx⟩
    · exact hi.stderr_eof (by simp [hpc])
  stdout_eof h := by
    rw [Writer.take?_eq_none] at ht
    rcases Pc.reading_eq_some.1 hr with ⟨hpc, rfl, rfl⟩ | ⟨hpc, rfl, rfl⟩
    · simp at h
    · exact ⟨ht, hx⟩
  stdout_unread h := by
    rcases Pc.reading_eq_some.1 hr with ⟨hpc, rfl, rfl⟩ | ⟨hpc, rfl, rfl⟩ <;> simp at h

theorem Inv.wait (hi : Inv script s) (hpc : s.pc = .waiting) :
    Inv script { s with pc := .done } where
  conserve := hi.conserve
  stderr_eof _ := hi.stderr_eof (by simp [hpc])
  stdout_eof _ := hi.stdout_eof (.inl hpc)
  stdout_unread h := by simp at h

/-- **Every move keeps the invariant.** -/
theorem Inv.step (hi : Inv script s) {a : Action} (h : step a s = some s') : Inv script s' := by
  cases a with
  | write =>
    obtain ⟨hx, w, hw, rfl⟩ := step_write_eq_some.1 h
    exact hi.write hx hw
  | exit =>
    obtain ⟨-, -, rfl⟩ := step_exit_eq_some.1 h
    exact hi.exit
  | kill =>
    obtain ⟨-, rfl⟩ := step_kill_eq_some.1 h
    exact hi.exit
  | read =>
    obtain ⟨x, next, hr, h⟩ := step_read_eq_some.1 h
    rcases readAll_eq_some.1 h with ⟨c, w, ht, rfl⟩ | ⟨ht, hx, rfl⟩
    · exact hi.readByte hr ht
    · exact hi.readEof hr ht hx
  | wait =>
    obtain ⟨hpc, -, rfl⟩ := step_wait_eq_some.1 h
    exact hi.wait hpc

theorem Inv.run (hi : Inv script s) {as : List Action} (h : run as s = some s') :
    Inv script s' :=
  runSteps_preserves FilecoinHarness.step (Inv script) (fun _ => True)
    (fun _ _ _ _ hi h => hi.step h)
    (fun _ _ => trivial) hi h

/-- **No byte is lost or duplicated** in any reachable state, whatever the moves and with or
without the deadline. -/
theorem inv_run (script : List Write) {as : List Action} {s : RunState C}
    (h : run as (RunState.init C script) = some s) : Inv script s :=
  (inv_init script).run h

end Preservation

/-! ## Runs without the deadline -/

/-- Without the deadline the child exits only once its script is done. -/
def ExitedDone (s : RunState C) : Prop := s.exited = true → s.child.pending = []

theorem exitedDone_step {a : Action} {s s' : RunState C} (ha : a ≠ .kill) (hd : ExitedDone s)
    (h : step a s = some s') : ExitedDone s' := by
  intro hx
  cases a with
  | write =>
    obtain ⟨hx', w, -, rfl⟩ := step_write_eq_some.1 h
    simp [hx'] at hx
  | exit =>
    obtain ⟨-, hp, rfl⟩ := step_exit_eq_some.1 h
    exact hp
  | kill => exact absurd rfl ha
  | read =>
    obtain ⟨x, next, -, h⟩ := step_read_eq_some.1 h
    rcases readAll_eq_some.1 h with ⟨c, w, ht, rfl⟩ | ⟨-, hx', rfl⟩
    · simp only [RunState.record_child] at hx ⊢
      rw [(Writer.take?_conserve ht .stdout).2]
      exact hd hx
    · exact hd hx'
  | wait =>
    obtain ⟨-, hx', rfl⟩ := step_wait_eq_some.1 h
    exact hd hx'

theorem exitedDone_run (script : List Write) {as : List Action} {s : RunState C}
    (hk : Action.kill ∉ as) (h : run as (RunState.init C script) = some s) : ExitedDone s :=
  runSteps_preserves step ExitedDone (· ≠ .kill) (fun _ _ _ ha hd h => exitedDone_step ha hd h)
    (fun a ha he => hk (he ▸ ha)) (fun h => by simp [RunState.init] at h) h

/-! ## Every run is finite -/

/-- How far the harness still has to go in lines 172-187. -/
def Pc.rank : Pc → Nat
  | .readStderr => 3
  | .readStdout => 2
  | .waiting => 1
  | .done => 0

/-- A measure every move decreases: each unwritten byte counts twice (it is written, then
read), each buffered byte once, plus the harness's remaining phases and the child's exit. -/
def measure (s : RunState C) : Nat :=
  s.child.pending.length + (s.child.queued .stdout).length + (s.child.queued .stderr).length +
    s.pc.rank + (if s.exited then 0 else 1)

theorem measure_step {a : Action} {s s' : RunState C} (h : step a s = some s') :
    measure s' < measure s := by
  cases a with
  | write =>
    obtain ⟨hx, w, hw, rfl⟩ := step_write_eq_some.1 h
    obtain ⟨x, c, hp⟩ := Writer.write?_pending hw
    simp only [measure, Writer.write?_conserve hw, hp, List.length_cons]
    omega
  | exit =>
    obtain ⟨hx, -, rfl⟩ := step_exit_eq_some.1 h
    simp [measure, hx]
  | kill =>
    obtain ⟨hx, rfl⟩ := step_kill_eq_some.1 h
    simp [measure, hx]
  | read =>
    obtain ⟨x, next, hr, h⟩ := step_read_eq_some.1 h
    rcases readAll_eq_some.1 h with ⟨c, w, ht, rfl⟩ | ⟨-, -, rfl⟩
    · have h1 := (Writer.take?_conserve ht .stdout).1
      have h2 := (Writer.take?_conserve ht .stderr).1
      have h3 := congrArg List.length h1
      have h4 := congrArg List.length h2
      simp only [measure, RunState.record_child, (Writer.take?_conserve ht .stdout).2]
      cases x <;> simp at h3 h4 <;> omega
    · rcases Pc.reading_eq_some.1 hr with ⟨hpc, rfl, rfl⟩ | ⟨hpc, rfl, rfl⟩ <;>
        simp [measure, hpc, Pc.rank]
  | wait =>
    obtain ⟨hpc, -, rfl⟩ := step_wait_eq_some.1 h
    simp [measure, hpc, Pc.rank]

/-- **Every run is finite**: at most `measure s` moves from `s`. -/
theorem run_length_le {as : List Action} {s s' : RunState C} (h : run as s = some s') :
    as.length ≤ measure s :=
  runSteps_length_le step measure (fun _ _ _ h => measure_step h) h

/-- A child printing `ab` on stdout through one-byte pipes: at most eight moves in all. -/
theorem run_length_le_two_bytes :
    ∃ s, run [.write] (RunState.init 1 [⟨.stdout, ['a', 'b']⟩]) = some s ∧
      [Action.write].length ≤ measure (RunState.init 1 [⟨.stdout, ['a', 'b']⟩]) ∧
      measure (RunState.init 1 [⟨.stdout, ['a', 'b']⟩]) = 8 :=
  ⟨_, rfl, run_length_le rfl, rfl⟩

/-! ## Enabled moves -/

section Enabled

variable {s : RunState C}

theorem canStep_of_step {a : Action} (ha : a ≠ .kill) {s' : RunState C}
    (h : step a s = some s') : canStep s = true := by
  cases a <;> simp_all [canStep]

theorem exists_step_of_canStep (h : canStep s = true) :
    ∃ a s', a ≠ .kill ∧ step a s = some s' := by
  simp only [canStep, List.any_cons, List.any_nil, Bool.or_false, Bool.or_eq_true,
    Option.isSome_iff_exists] at h
  obtain ⟨s', h⟩ | ⟨s', h⟩ | ⟨s', h⟩ | ⟨s', h⟩ := h <;> exact ⟨_, s', by decide, h⟩

/-- The harness's `ReadAll` can move when its pipe holds a byte or the child has exited. -/
theorem canStep_of_reading {x : Stream} {next : Pc} (hr : s.pc.reading = some (x, next))
    (h : (s.child.pipe x).buf ≠ [] ∨ s.exited = true) : canStep s = true := by
  cases ht : s.child.take? x with
  | none =>
    have hx : s.exited = true := h.resolve_left (by simpa using (Writer.take?_eq_none _ _).1 ht)
    exact canStep_of_step (show Action.read ≠ .kill by decide)
      (step_read_eq_some.2 ⟨x, next, hr, readAll_eq_some.2 (.inr ⟨ht, hx, rfl⟩)⟩)
  | some r =>
    exact canStep_of_step (show Action.read ≠ .kill by decide)
      (step_read_eq_some.2 ⟨x, next, hr, readAll_eq_some.2 (.inl ⟨r.1, r.2, ht, rfl⟩)⟩)

/-- From any state, some run without the deadline ends where nothing more can move. -/
theorem exists_terminal (s : RunState C) :
    ∃ as t, Action.kill ∉ as ∧ run as s = some t ∧ canStep t = false := by
  obtain ⟨as, t, hk, hr, ht⟩ :=
    exists_terminal_run step measure (fun _ _ _ h => measure_step h) (· ≠ .kill) s
  refine ⟨as, t, fun h => hk _ h rfl, hr, ?_⟩
  simp [canStep, ht .write (by decide), ht .exit (by decide), ht .read (by decide),
    ht .wait (by decide)]

end Enabled

/-! ## When the child's stdout fits in the pipe -/

section Fits

variable {script : List Write} {s : RunState C}

/-- While `ReadAll(stderr)` runs nobody reads stdout: the stdout pipe and the child's
unwritten stdout bytes are the whole of the script's stdout. -/
theorem Inv.stdout_queued (hi : Inv script s) (hpc : s.pc = .readStderr) :
    s.child.queued .stdout = written .stdout script := by
  simpa [hi.stdout_unread hpc] using hi.conserve .stdout

/-- **Progress**: when the child's stdout output fits in a pipe, some move other than the
deadline is enabled in every state with the invariants that has not returned. -/
theorem canStep_of_fits (hC : 0 < C) (hfit : (written .stdout script).length ≤ C)
    (hi : Inv script s) (hpc : s.pc ≠ .done) : canStep s = true := by
  cases hp : s.pc with
  | done => exact absurd hp hpc
  | waiting =>
    exact canStep_of_step (show Action.wait ≠ .kill by decide)
      (step_wait_eq_some.2 ⟨hp, (hi.stdout_eof (.inl hp)).2, rfl⟩)
  | readStdout =>
    exact canStep_of_reading (show s.pc.reading = some (.stdout, .waiting) by simp [hp, Pc.reading])
      (.inr (hi.stderr_eof (by simp [hp])).2)
  | readStderr =>
    have hr : s.pc.reading = some (.stderr, .readStdout) := by simp [hp, Pc.reading]
    by_cases hb : (s.child.pipe .stderr).buf ≠ [] ∨ s.exited = true
    · exact canStep_of_reading hr hb
    simp only [not_or, not_not, Bool.not_eq_true] at hb
    cases hpend : s.child.pending with
    | nil =>
      exact canStep_of_step (show Action.exit ≠ .kill by decide)
        (step_exit_eq_some.2 ⟨hb.2, hpend, rfl⟩)
    | cons b rest =>
      obtain ⟨x, c⟩ := b
      have hroom : (s.child.pipe x).buf.length < C := by
        cases x with
        | stderr => simp [hb.1, hC]
        | stdout =>
          have := congrArg List.length (hi.stdout_queued hp)
          simp only [Writer.queued, hpend, bytesOn_cons_self, List.length_append,
            List.length_cons] at this
          omega
      obtain ⟨w, hw⟩ := Writer.write?_of_room hpend hroom
      exact canStep_of_step (show Action.write ≠ .kill by decide)
        (step_write_eq_some.2 ⟨hb.2, w, hw, rfl⟩)

/-- A call that has returned holds exactly what the child wrote, when nothing was cut off. -/
theorem Inv.got_of_done (hi : Inv script s) (hd : ExitedDone s) (hpc : s.pc = .done) (x : Stream) :
    s.got x = written x script := by
  have hout := hi.stdout_eof (.inr hpc)
  have herr := hi.stderr_eof (by simp [hpc])
  have hpend := hd hout.2
  have := hi.conserve x
  cases x <;> simpa [Writer.queued, hout.1, herr.1, hpend] using this

end Fits

/-- **`RunWithStdin` completes when the child's stdout fits in a pipe.**  For every `C ≥ 1`,
the bytes a pipe accepts unread, and every script whose stdout output is at most `C` bytes, in every state reachable
without the deadline the call is not stuck and can still be finished, and once it has
returned `o.stdout` and `o.stderr` are exactly everything the child wrote to each stream. -/
theorem runWithStdin_completes (script : List Write) (hC : 0 < C)
    (hfit : (written .stdout script).length ≤ C) {as : List Action} {s : RunState C}
    (hk : Action.kill ∉ as) (h : run as (RunState.init C script) = some s) :
    ¬Stuck s ∧ (∃ bs t, Action.kill ∉ bs ∧ run bs s = some t ∧ t.pc = .done) ∧
      (s.pc = .done → s.stdoutBytes = written .stdout script ∧
        s.stderrBytes = written .stderr script) := by
  have hi := inv_run script h
  have hd := exitedDone_run script hk h
  refine ⟨fun ⟨hpc, hc⟩ => by simp [canStep_of_fits hC hfit hi hpc] at hc, ?_,
    fun hpc => ⟨hi.got_of_done hd hpc .stdout, hi.got_of_done hd hpc .stderr⟩⟩
  obtain ⟨bs, t, hkb, hr, ht⟩ := exists_terminal s
  refine ⟨bs, t, hkb, hr, Classical.byContradiction fun hpc => ?_⟩
  simp [canStep_of_fits hC hfit (inv_run script (runSteps_trans step h hr)) hpc] at ht

/-- A child writing `e` to stderr and `o` to stdout through one-byte pipes, after its first
write: the call is not stuck, can still finish, and returns exactly `o` and `e`. -/
theorem runWithStdin_completes_one_byte :
    ∃ s, run [.write] (RunState.init 1 [⟨.stderr, ['e']⟩, ⟨.stdout, ['o']⟩]) = some s ∧
      ¬Stuck s ∧ (∃ bs t, Action.kill ∉ bs ∧ run bs s = some t ∧ t.pc = .done) ∧
      (s.pc = .done → s.stdoutBytes = ['o'] ∧ s.stderrBytes = ['e']) :=
  ⟨_, rfl, @runWithStdin_completes 1 [⟨.stderr, ['e']⟩, ⟨.stdout, ['o']⟩] (by decide) (by decide)
    [.write] _ (by decide) rfl⟩

/-! ## When it does not fit -/

/-- `RunWithStdin` never gets past `ReadAll(stderr)` when the child's stdout overflows a
pipe.  Without the deadline, in every reachable state the harness is still reading stderr
and the child has not exited: to exit it would have to write all its stdout, which nobody
reads before stderr reaches end-of-file. -/
theorem readStderr_of_overflow (script : List Write) (hover : C < (written .stdout script).length)
    {as : List Action} {s : RunState C} (hk : Action.kill ∉ as)
    (h : run as (RunState.init C script) = some s) :
    s.pc = .readStderr ∧ s.exited = false := by
  refine (runSteps_preserves step
    (fun s => Inv script s ∧ s.pc = .readStderr ∧ s.exited = false) (· ≠ .kill)
    ?_ (fun a ha he => hk (he ▸ ha)) ⟨inv_init script, rfl, rfl⟩ h).2
  rintro a s s' ha ⟨hi, hpc, hx⟩ hs
  refine ⟨hi.step hs, ?_⟩
  cases a with
  | write =>
    obtain ⟨-, w, -, rfl⟩ := step_write_eq_some.1 hs
    exact ⟨hpc, hx⟩
  | exit =>
    obtain ⟨-, hp, rfl⟩ := step_exit_eq_some.1 hs
    have := congrArg List.length (hi.stdout_queued hpc)
    have := (s.child.pipe .stdout).bounded
    simp only [Writer.queued, hp, bytesOn_nil, List.append_nil] at *
    omega
  | kill => exact absurd rfl ha
  | read =>
    obtain ⟨x, next, hr, h⟩ := step_read_eq_some.1 hs
    rcases readAll_eq_some.1 h with ⟨c, w, -, rfl⟩ | ⟨-, hx', -⟩
    · simpa using ⟨hpc, hx⟩
    · simp [hx] at hx'
  | wait =>
    obtain ⟨hw, -, -⟩ := step_wait_eq_some.1 hs
    simp [hpc] at hw

/-- **When the child's stdout overflows a pipe, `RunWithStdin` deadlocks without the
deadline**: no run without it gets past `ReadAll(stderr)` or sees the child exit, and some such
run reaches a stuck state, where nothing but the deadline can move. -/
theorem runWithStdin_overflow_stuck (script : List Write)
    (hover : C < (written .stdout script).length) :
    (∀ as s, Action.kill ∉ as → run as (RunState.init C script) = some s →
      s.pc = .readStderr ∧ s.exited = false) ∧
    ∃ as s, Action.kill ∉ as ∧ run as (RunState.init C script) = some s ∧ Stuck s := by
  refine ⟨fun _ _ hk h => readStderr_of_overflow script hover hk h, ?_⟩
  obtain ⟨as, t, hk, hr, ht⟩ := exists_terminal (RunState.init C script)
  exact ⟨as, t, hk, hr, by simp [(readStderr_of_overflow script hover hk hr).1], ht⟩

/-- A child printing `ab` on stdout through one-byte pipes: after its first byte nothing but
the deadline moves. -/
theorem runWithStdin_overflow_stuck_two_bytes :
    1 < (written .stdout [⟨.stdout, ['a', 'b']⟩]).length ∧
      (∀ as s, Action.kill ∉ as → run as (RunState.init 1 [⟨.stdout, ['a', 'b']⟩]) = some s →
        s.pc = .readStderr ∧ s.exited = false) ∧
      ∃ as s, Action.kill ∉ as ∧ run as (RunState.init 1 [⟨.stdout, ['a', 'b']⟩]) = some s ∧
        Stuck s :=
  ⟨by decide, runWithStdin_overflow_stuck _ (by decide)⟩

/-- The stuck state above for a child printing `ab` on stdout through one-byte pipes: after
its first byte the child waits for room in the stdout pipe, and the harness for end-of-file
on stderr. -/
theorem runWithStdin_stuck_two_bytes :
    ∃ s, run [.write] (RunState.init 1 [⟨.stdout, ['a', 'b']⟩]) = some s ∧ Stuck s :=
  ⟨_, rfl, by decide⟩

/-! ## With the deadline -/

/-- **With the deadline no byte is lost.**  When the context may kill the child, in every
reachable state no byte is lost or duplicated and some move is enabled until the call has
returned, and a call that has returned holds, for each stream, exactly the bytes the child
wrote to it before it was killed (its script less what it never wrote). -/
theorem runWithStdin_deadline_completes (script : List Write) {as : List Action}
    {s : RunState C} (h : run as (RunState.init C script) = some s) :
    (∀ x, s.got x ++ s.child.queued x = written x script) ∧
      (s.pc ≠ .done → ∃ a s', step a s = some s') ∧
      (s.pc = .done → ∀ x, s.got x ++ bytesOn x s.child.pending = written x script) := by
  have hi := inv_run script h
  refine ⟨hi.conserve, fun hpc => ?_, fun hpc x => ?_⟩
  · cases hx : s.exited
    · exact ⟨.kill, _, step_kill_eq_some.2 ⟨hx, rfl⟩⟩
    · cases hr : s.pc.reading with
      | some r =>
        obtain ⟨x, next⟩ := r
        obtain ⟨a, s', -, h⟩ := exists_step_of_canStep (canStep_of_reading hr (.inr hx))
        exact ⟨a, s', h⟩
      | none =>
        have hp : s.pc = .waiting := by cases hp : s.pc <;> simp_all [Pc.reading]
        exact ⟨.wait, _, step_wait_eq_some.2 ⟨hp, hx, rfl⟩⟩
  · have hout := (hi.stdout_eof (.inr hpc)).1
    have herr := (hi.stderr_eof (by simp [hpc])).1
    have hempty : (s.child.pipe x).buf = [] := by cases x <;> assumption
    simpa [Writer.queued, hempty] using hi.conserve x

/-- A child printing `ab` on stdout through one-byte pipes, killed by the deadline after its
first byte: the call returns `a`, and `b` is the byte the child never wrote. -/
theorem runWithStdin_deadline_two_bytes :
    ∃ s, run [.write, .kill, .read, .read, .read, .wait]
        (RunState.init 1 [⟨.stdout, ['a', 'b']⟩]) = some s ∧
      s.pc = .done ∧ s.stdoutBytes = ['a'] ∧ s.child.pending = [(.stdout, 'b')] ∧
      (∀ x, s.got x ++ s.child.queued x = written x [⟨.stdout, ['a', 'b']⟩]) ∧
      (s.pc ≠ .done → ∃ a s', step a s = some s') ∧
      (s.pc = .done → ∀ x, s.got x ++ bytesOn x s.child.pending =
        written x [⟨.stdout, ['a', 'b']⟩]) :=
  ⟨_, rfl, rfl, rfl, rfl, @runWithStdin_deadline_completes 1 [⟨.stdout, ['a', 'b']⟩]
    [.write, .kill, .read, .read, .read, .wait] _ rfl⟩

/-! ## The returned `Output` -/

/-- The `Output` of lines 178-201: the arguments after the shortcut, what the two `ReadAll`s
read, and what `cmd.Wait()` returned. -/
def runOutput (td : TestDaemon) (args : List String) (s : RunState C) (deadlineExceeded : Bool)
    (r : WaitResult) : Output :=
  recordWait ⟨cmdArgs args, 0, none, s.stdoutBytes, s.stderrBytes⟩ (join (finalArgs td args) " ")
    deadlineExceeded r

/-- `TestDaemon.RunSuccess(args...)` (lines 206-210): `Run(args...)`, which is
`RunWithStdin(nil, args...)`, then `AssertSuccess`. -/
def runSuccess (td : TestDaemon) (args : List String) (s : RunState C) (deadlineExceeded : Bool)
    (r : WaitResult) : Bool :=
  assertSuccess (runOutput td args s deadlineExceeded r)

/-- `TestDaemon.RunFail(err, args...)` (lines 228-233): `Run(args...)`, then `AssertFail(err)`. -/
def runFail (err : String) (td : TestDaemon) (args : List String) (s : RunState C)
    (deadlineExceeded : Bool) (r : WaitResult) : Bool :=
  assertFail (runOutput td args s deadlineExceeded r) err

/-- **What `RunSuccess` and `RunFail` decide about a call that has returned.**  For every
script and every run without the deadline's kill that has got past `cmd.Wait()`, the verdict
depends only on what the child did: `RunSuccess` passes exactly when `cmd.Wait()` returned nil
and the child's whole stderr output holds none of the four markers, and `RunFail(err)` passes
exactly when the child exited non-zero with the context not expired, wrote nothing to stdout,
and wrote `err` somewhere in its stderr output. -/
theorem runSuccess_runFail_done (td : TestDaemon) (args : List String) (script : List Write)
    {as : List Action} {s : RunState C} (hk : Action.kill ∉ as)
    (h : run as (RunState.init C script) = some s) (hpc : s.pc = .done) (dl : Bool)
    (r : WaitResult) (err : String) :
    (runSuccess td args s dl r = true ↔
      r = .ok ∧ noMarkers assertSuccessMarkers ⟨written .stderr script⟩ = true) ∧
    (runFail err td args s dl r = true ↔ (∃ m, r = .exitError m) ∧ dl = false ∧
      written .stdout script = [] ∧ contains ⟨written .stderr script⟩ err = true) := by
  have hi := inv_run script h
  have hd := exitedDone_run script hk h
  have hout : s.stdoutBytes = written .stdout script := hi.got_of_done hd hpc .stdout
  have herr : s.stderrBytes = written .stderr script := hi.got_of_done hd hpc .stderr
  simp only [runSuccess, runFail, runOutput, hout, herr]
  exact ⟨assertSuccess_recordWait _ _ _ _ _ _, assertFail_recordWait _ _ _ _ _ _ _⟩

/-- A child that writes `e` to stderr and `o` to stdout and exits 0, through one-byte pipes:
`RunSuccess("id")` passes and `RunFail("e", "id")` does not. -/
theorem runSuccess_runFail_done_one_byte :
    ∃ s, run [.write, .write, .exit, .read, .read, .read, .read, .wait]
        (RunState.init 1 [⟨.stderr, ['e']⟩, ⟨.stdout, ['o']⟩]) = some s ∧ s.pc = .done ∧
      (runSuccess (newDaemon 3453 3454 "/tmp/go-fil-test" "genesis.car" [] []) ["id"] s false
          .ok = true ↔
        WaitResult.ok = .ok ∧ noMarkers assertSuccessMarkers
          ⟨written .stderr [⟨.stderr, ['e']⟩, ⟨.stdout, ['o']⟩]⟩ = true) ∧
      (runFail "e" (newDaemon 3453 3454 "/tmp/go-fil-test" "genesis.car" [] []) ["id"] s false
          .ok = true ↔
        (∃ m, WaitResult.ok = .exitError m) ∧ false = false ∧
          written .stdout [⟨.stderr, ['e']⟩, ⟨.stdout, ['o']⟩] = [] ∧
          contains ⟨written .stderr [⟨.stderr, ['e']⟩, ⟨.stdout, ['o']⟩]⟩ "e" = true) :=
  ⟨_, rfl, rfl, @runSuccess_runFail_done 1 _ _ [⟨.stderr, ['e']⟩, ⟨.stdout, ['o']⟩]
    [.write, .write, .exit, .read, .read, .read, .read, .wait] _ (by decide) rfl rfl _ _ _⟩

/-- **The two forms of a command agree.**  For every non-empty list of tokens without spaces,
`RunWithStdin(stdin, strings.Join(ts, " "))` and `RunWithStdin(stdin, ts...)` build the same
argument vector `ts ++ ["--repodir=…", "--cmdapiaddr=…"]` and the same `Output.Args = ts`. -/
theorem runWithStdin_args_join (td : TestDaemon) (ts : List String) (hne : ts ≠ [])
    (h : ∀ t ∈ ts, ' ' ∉ t.data) :
    split (join ts " ") ' ' = ts ∧
      finalArgs td [join ts " "] = ts ++ ["--repodir=" ++ td.repoDir, "--cmdapiaddr=" ++ td.cmdAddr] ∧
      finalArgs td ts = ts ++ ["--repodir=" ++ td.repoDir, "--cmdapiaddr=" ++ td.cmdAddr] ∧
      ∀ (C : Nat) (s : RunState C) (dl : Bool) (r : WaitResult),
        (runOutput td [join ts " "] s dl r).args = ts ∧ (runOutput td ts s dl r).args = ts := by
  have hsplit : split (join ts " ") ' ' = ts := split_join h hne
  have hone : cmdArgs [join ts " "] = ts := hsplit
  have hts : cmdArgs ts = ts := cmdArgs_of_forall_not_mem h
  refine ⟨hsplit, by simp [finalArgs, hone], by simp [finalArgs, hts], fun C s dl r => ?_⟩
  simp only [runOutput, (recordWait_args _ _ _ _).1, hone, hts, and_self]

/-- `RunSuccess("mining once")` and `RunSuccess("mining", "once")` on a fresh daemon. -/
theorem runWithStdin_args_join_mining_once :
    (["mining", "once"] ≠ [] ∧ ∀ t ∈ ["mining", "once"], ' ' ∉ t.data) ∧
      (split (join ["mining", "once"] " ") ' ' = ["mining", "once"] ∧
      finalArgs (newDaemon 3453 3454 "/tmp/go-fil-test" "genesis.car" [] [])
          [join ["mining", "once"] " "] =
        ["mining", "once", "--repodir=/tmp/go-fil-test", "--cmdapiaddr=:3453"] ∧
      finalArgs (newDaemon 3453 3454 "/tmp/go-fil-test" "genesis.car" [] []) ["mining", "once"] =
        ["mining", "once", "--repodir=/tmp/go-fil-test", "--cmdapiaddr=:3453"] ∧
      ∀ (C : Nat) (s : RunState C) (dl : Bool) (r : WaitResult),
        (runOutput (newDaemon 3453 3454 "/tmp/go-fil-test" "genesis.car" [] [])
          [join ["mining", "once"] " "] s dl r).args = ["mining", "once"] ∧
        (runOutput (newDaemon 3453 3454 "/tmp/go-fil-test" "genesis.car" [] [])
          ["mining", "once"] s dl r).args = ["mining", "once"]) :=
  ⟨⟨by simp, by decide⟩, runWithStdin_args_join _ _ (by simp) (by decide)⟩

end FilecoinHarness
