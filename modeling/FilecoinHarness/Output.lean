import FilecoinHarness.GoStrings
import Mathlib.Data.List.Forall2
import Mathlib.Data.String.Basic

/-!
# Command results and the helpers that read them

Reference model of `Output` and of the functions of `testhelpers/commands.go` that only read
a finished command's result:

* `recordWait` — lines 187-201 of `RunWithStdin`: the exit code and error recorded from what
  `cmd.Wait()` returned (`*exec.ExitError` gives code 1, and an error only when the context's
  deadline was exceeded; any other error is stored with code 0).
* `assertSuccess` / `assertFail` — `Output.AssertSuccess` / `Output.AssertFail`, as the
  conjunction of their `require` checks; `noMarkers` is the run of `require.NotContains`
  shared with `ShutdownSuccess`'s assertions, `shutdownSuccessAsserts`.
* `readStdoutTrimNewlines`, `runSuccessLines`, `runSuccessFirstLine` — the line helpers;
  `makeDealNegid` — the deal id `MakeDeal` cuts out of `client propose-deal`'s output.
* `mustUnmarshalChain` / `getChainHead` — `TestDaemon.MustUnmarshalChain` and
  `TestDaemon.GetChainHead`, over a JSON decoder `decode` of one line into a tipset (the
  decoder is `encoding/json` and `types.Block`, outside the repository's sources).

Principal result: `runSuccessLines_spec` — for every command output the lines are non-empty,
free of line breaks and join back to the trimmed output; the decoding loop either stops at the
first line that does not decode or returns exactly one tipset per line, in order; and neither
`[0]` index (`RunSuccessFirstLine`, `GetChainHead`) is ever out of range.  The converse round
trips: `runSuccessLines_of_join` (printed lines are read back, line breaks around them
ignored, nothing else stripped) and `mustUnmarshalChain_of_join` (a printed chain is decoded
back and its first tipset is the head).
-/

set_option autoImplicit false

namespace FilecoinHarness

/-- An error recorded in `Output.Error`. -/
inductive CmdError where
  /-- `errors.Wrapf(err, "context deadline exceeded for command: %q", cmdLine)` -/
  | deadlineExceeded (cmdLine cause : String)
  /-- an error of another type returned by `cmd.Wait()`, stored as it is -/
  | wait (msg : String)
  deriving DecidableEq, Repr

/-- `Output` (lines 35-53): the fields the modelled functions write and read.  `Input` is never
set by `RunWithStdin` and never read; the pipe handles and the lock are not modelled. -/
structure Output where
  args : List String
  code : Nat
  error : Option CmdError
  stdout : List Char
  stderr : List Char
  deriving DecidableEq, Repr

/-- What `cmd.Wait()` returned. -/
inductive WaitResult where
  | ok
  /-- a `*exec.ExitError`: the process ran and exited non-zero or was killed -/
  | exitError (msg : String)
  /-- an error of any other type -/
  | other (msg : String)
  deriving DecidableEq, Repr

/-- Lines 187-201: the `switch` on the error `cmd.Wait()` returned.  `deadlineExceeded` is
`ctx.Err() == context.DeadlineExceeded`, `cmdLine` is `strings.Join(finalArgs, " ")`.  Every
`ExitError` records code 1, whatever the child's exit status, and one before the deadline
records no error. -/
def recordWait (o : Output) (cmdLine : String) (deadlineExceeded : Bool) : WaitResult → Output
  | .exitError msg =>
    { o with
      error := if deadlineExceeded then some (.deadlineExceeded cmdLine msg) else o.error
      code := 1 }
  | .other msg => { o with error := some (.wait msg) }
  | .ok => o

theorem recordWait_args (o : Output) (cmdLine : String) (dl : Bool) (r : WaitResult) :
    (recordWait o cmdLine dl r).args = o.args ∧ (recordWait o cmdLine dl r).stdout = o.stdout ∧
      (recordWait o cmdLine dl r).stderr = o.stderr := by
  cases r <;> exact ⟨rfl, rfl, rfl⟩

/-- `Output.ReadStdout`. -/
def readStdout (o : Output) : String := ⟨o.stdout⟩

/-- `Output.ReadStderr`. -/
def readStderr (o : Output) : String := ⟨o.stderr⟩

/-! ## Assertions -/

/-- A run of `require.NotContains(s, m)` over `markers`: `true` when all of them pass. -/
def noMarkers (markers : List String) (s : String) : Bool :=
  markers.all (fun m => !contains s m)

/-- The stderr markers `Output.AssertSuccess` refuses (lines 219-222). -/
def assertSuccessMarkers : List String := ["CRITICAL", "ERROR", "WARNING", "Error:"]

/-- The stderr markers `ShutdownSuccess` refuses (lines 339-341). -/
def shutdownSuccessMarkers : List String := ["CRITICAL", "ERROR", "WARNING"]

/-- `Output.AssertSuccess`: `true` when every `require` passes. -/
def assertSuccess (o : Output) : Bool :=
  o.error.isNone && o.code == 0 && noMarkers assertSuccessMarkers (readStderr o)

/-- `Output.AssertFail(err)`. -/
def assertFail (o : Output) (err : String) : Bool :=
  o.error.isNone && o.code == 1 && (readStdout o).isEmpty && contains (readStderr o) err

/-- `ShutdownSuccess`'s assertions (lines 336-341) once `ReadStderr()` has returned `tdErr`:
`assert.NoError` on the signal's error, twice, then the markers.  The daemon's exit status is
never checked. -/
def shutdownSuccessAsserts (signalOk : Bool) (tdErr : String) : Bool :=
  signalOk && signalOk && noMarkers shutdownSuccessMarkers tdErr

/-- On the record `RunWithStdin` builds, `AssertSuccess` passes exactly when `cmd.Wait()`
returned nil and stderr holds no marker; an expired deadline alone does not fail it. -/
theorem assertSuccess_recordWait (args : List String) (out err : List Char) (cmdLine : String)
    (dl : Bool) (r : WaitResult) :
    assertSuccess (recordWait ⟨args, 0, none, out, err⟩ cmdLine dl r) = true ↔
      r = .ok ∧ noMarkers assertSuccessMarkers ⟨err⟩ = true := by
  cases r <;> cases dl <;> simp [recordWait, assertSuccess, readStderr]

/-- On the record `RunWithStdin` builds, `AssertFail(e)` passes exactly when the command
exited non-zero before the deadline, wrote nothing to stdout and wrote `e` to stderr. -/
theorem assertFail_recordWait (args : List String) (out err : List Char) (cmdLine e : String)
    (dl : Bool) (r : WaitResult) :
    assertFail (recordWait ⟨args, 0, none, out, err⟩ cmdLine dl r) e = true ↔
      (∃ m, r = .exitError m) ∧ dl = false ∧ out = [] ∧ contains ⟨err⟩ e = true := by
  cases r <;> cases dl <;>
    simp [recordWait, assertFail, readStdout, readStderr, String.isEmpty_iff, String.ext_iff]

/-! ## Lines of stdout -/

/-- `Output.ReadStdoutTrimNewlines`: `strings.Trim` drops line breaks at both ends, not only
the trailing ones its comment names. -/
def readStdoutTrimNewlines (o : Output) : String := trim (readStdout o) '\n'

/-- `RunSuccessLines`, on the `Output` that `td.RunSuccess(args...)` returned. -/
def runSuccessLines (o : Output) : List String := split (readStdoutTrimNewlines o) '\n'

/-- `RunSuccessFirstLine`: `RunSuccessLines(td, args...)[0]`, where `none` stands for Go's
index-out-of-range panic. -/
def runSuccessFirstLine (o : Output) : Option String := (runSuccessLines o)[0]?

/-- The deal id `MakeDeal` reads from the stdout of `client propose-deal` (line 546),
`strings.Split(strings.Split(out, "\n")[1], " ")[1]`; `none` stands for Go's index-out-of-range
panic. -/
def makeDealNegid (o : Output) : Option String :=
  (split (readStdout o) '\n')[1]? >>= fun line => (split line ' ')[1]?

/-- A split has a second piece exactly when the separator occurs. -/
theorem split_getElem?_one_eq_none (s : String) (sep : Char) :
    (split s sep)[1]? = none ↔ sep ∉ s.data := by
  rw [List.getElem?_eq_none_iff, length_split, ← List.count_eq_zero (l := s.data)]
  omega

/-- **`MakeDeal` panics exactly when the output has no second line, or a second line without a
space**, and otherwise reads the second word of the second line: for lines free of line breaks
whose second is words free of spaces, it reads the second word. -/
theorem makeDealNegid_spec (o : Output) :
    (makeDealNegid o = none ↔ '\n' ∉ o.stdout ∨
      ∃ l, (split (readStdout o) '\n')[1]? = some l ∧ ' ' ∉ l.data) ∧
    ∀ (l0 w0 negid : String) (ws rest : List String),
      (∀ l ∈ l0 :: join (w0 :: negid :: ws) " " :: rest, '\n' ∉ l.data) →
      (∀ w ∈ w0 :: negid :: ws, ' ' ∉ w.data) →
      o.stdout = (join (l0 :: join (w0 :: negid :: ws) " " :: rest) "\n").data →
      makeDealNegid o = some negid := by
  refine ⟨?_, fun l0 w0 negid ws rest hl hw ho => ?_⟩
  · unfold makeDealNegid
    cases h : (split (readStdout o) '\n')[1]? with
    | none => exact iff_of_true rfl (.inl ((split_getElem?_one_eq_none _ _).1 h))
    | some l =>
      have hmem : '\n' ∈ o.stdout := by
        by_contra hn
        exact absurd ((split_getElem?_one_eq_none (readStdout o) '\n').2 hn) (by simp [h])
      show (split l ' ')[1]? = none ↔ _
      rw [split_getElem?_one_eq_none]
      simp [hmem]
  · have hs : readStdout o = join (l0 :: join (w0 :: negid :: ws) " " :: rest) "\n" := by
      rw [readStdout, ho]
    simp [makeDealNegid, hs, split_join hl (List.cons_ne_nil _ _),
      split_join hw (List.cons_ne_nil _ _)]

/-- **`RunSuccessLines` reads back every printed list of lines.**  For every non-empty list of
lines free of line breaks whose first and last lines are non-empty, an output made of the lines
joined by `"\n"`, with any number of line breaks before and after, gives the lines back, and
`RunSuccessFirstLine` the first of them.  Nothing else is stripped: the `'\r'` that ends each
line of a Windows-style output stays in every line. -/
theorem runSuccessLines_of_join (o : Output) {L : List String} (hL : ∀ l ∈ L, '\n' ∉ l.data)
    (hne : L ≠ []) (hhead : L.head? ≠ some "") (hlast : L.getLast? ≠ some "") (j k : Nat)
    (ho : o.stdout = List.replicate j '\n' ++ (join L "\n").data ++ List.replicate k '\n') :
    runSuccessLines o = L ∧ runSuccessFirstLine o = L.head? := by
  have h : runSuccessLines o = L := by
    rw [runSuccessLines, readStdoutTrimNewlines, readStdout, ho]
    exact split_trim_pad_join hL hne hhead hlast j k
  exact ⟨h, by rw [runSuccessFirstLine, h, List.head?_eq_getElem?]⟩

/-- The output `"a\r\nb\r\n"` of a command ending its lines Windows-style. -/
theorem runSuccessLines_of_join_crlf :
    runSuccessLines ⟨[], 0, none, "a\r\nb\r\n".data, []⟩ = ["a\r", "b\r"] ∧
      runSuccessFirstLine ⟨[], 0, none, "a\r\nb\r\n".data, []⟩ = some "a\r" :=
  runSuccessLines_of_join _ (by decide) (by decide) (by decide) (by decide) 0 1 (by decide)

section Chain

variable {Blk : Type} (decode : String → Except String (List Blk))

/-- The `for` loop of `MustUnmarshalChain` (lines 492-498) over the lines still to decode,
`bs` holding the tipsets decoded so far; `td.test.Fatal(err)` ends it with `.error err`. -/
def unmarshalLines : List String → List (List Blk) → Except String (List (List Blk))
  | [], bs => .ok bs
  | line :: rest, bs =>
    match decode line with
    | .error err => .error err
    | .ok b => unmarshalLines rest (bs ++ [b])

/-- `TestDaemon.MustUnmarshalChain`. -/
def mustUnmarshalChain (input : String) : Except String (List (List Blk)) :=
  unmarshalLines decode (split (trim input '\n') '\n') []

/-- `TestDaemon.GetChainHead`, on the output of `td.RunSuccess("chain", "ls", "--enc=json")`:
`bc[0]`, with `.ok none` standing for Go's index-out-of-range panic. -/
def getChainHead (o : Output) : Except String (Option (List Blk)) :=
  (mustUnmarshalChain decode (readStdout o)).map (·[0]?)

/-- The loop returns exactly one decoded tipset per line, in order, after the ones it had. -/
theorem unmarshalLines_eq_ok (lines : List String) (acc bs : List (List Blk)) :
    unmarshalLines decode lines acc = .ok bs ↔
      ∃ ds, List.Forall₂ (fun l b => decode l = .ok b) lines ds ∧ bs = acc ++ ds := by
  induction lines generalizing acc with
  | nil => simp [unmarshalLines, eq_comm]
  | cons line rest ih =>
    simp only [unmarshalLines, List.forall₂_cons_left_iff]
    cases hd : decode line with
    | error err => simp
    | ok b =>
      simp only [ih, hd, Except.ok.injEq, List.append_assoc, List.singleton_append]
      exact ⟨fun ⟨ds, h1, h2⟩ => ⟨b :: ds, ⟨b, ds, rfl, h1, rfl⟩, h2⟩,
        fun ⟨_, ⟨_, ds, rfl, h1, rfl⟩, h2⟩ => ⟨ds, h1, h2⟩⟩

/-- The loop stops at the first line that does not decode, with that line's error. -/
theorem unmarshalLines_eq_error (lines : List String) (acc : List (List Blk)) (err : String) :
    unmarshalLines decode lines acc = .error err ↔
      ∃ pre l post, lines = pre ++ l :: post ∧ (∀ p ∈ pre, ∃ b, decode p = .ok b) ∧
        decode l = .error err := by
  induction lines generalizing acc with
  | nil => simp [unmarshalLines]
  | cons line rest ih =>
    simp only [unmarshalLines]
    cases hd : decode line with
    | error e =>
      simp only [Except.error.injEq]
      constructor
      · rintro rfl; exact ⟨[], line, rest, rfl, by simp, hd⟩
      · rintro ⟨_ | ⟨p, pre⟩, l, post, heq, hpre, hl⟩
        · simp_all
        · obtain ⟨rfl, -⟩ := List.cons_eq_cons.1 heq
          simp [hd] at hpre
    | ok b =>
      rw [ih]
      constructor
      · rintro ⟨pre, l, post, rfl, hpre, hl⟩
        exact ⟨line :: pre, l, post, rfl, by simp_all, hl⟩
      · rintro ⟨_ | ⟨p, pre⟩, l, post, heq, hpre, hl⟩
        · simp_all
        · obtain ⟨rfl, rfl⟩ := List.cons_eq_cons.1 heq
          exact ⟨pre, l, post, rfl, fun q hq => hpre q (by simp [hq]), hl⟩

/-- The lines of every output: at least one. -/
theorem mustUnmarshalChain_ne_nil {input : String} {bs : List (List Blk)}
    (h : mustUnmarshalChain decode input = .ok bs) : bs ≠ [] := by
  obtain ⟨ds, hds, rfl⟩ := (unmarshalLines_eq_ok decode _ _ _).1 h
  have hlen := hds.length_eq
  have hne := split_ne_nil (trim input '\n') '\n'
  exact List.ne_nil_of_length_pos (by simpa [← hlen] using List.length_pos.2 hne)

/-- `GetChainHead` never takes the panicking branch of `bc[0]`: it stops its goroutine or
returns a head. -/
theorem getChainHead_outcome (o : Output) :
    (∃ err, getChainHead decode o = .error err) ∨ ∃ blks, getChainHead decode o = .ok (some blks) := by
  cases hm : mustUnmarshalChain decode (readStdout o) with
  | error e => exact .inl ⟨e, by simp [getChainHead, hm, Except.map]⟩
  | ok bs =>
    obtain ⟨b, bs', rfl⟩ := List.exists_cons_of_ne_nil (mustUnmarshalChain_ne_nil decode hm)
    exact .inr ⟨b, by simp [getChainHead, hm, Except.map]⟩

/-- **The line helpers and the chain decoder on every command output.** -/
theorem runSuccessLines_spec (o : Output) :
    let L := split (trim (readStdout o) '\n') '\n'
    runSuccessLines o = L ∧ L ≠ [] ∧ (∀ l ∈ L, '\n' ∉ l.data) ∧
      join L "\n" = trim (readStdout o) '\n' ∧
      (∀ bs, mustUnmarshalChain decode (readStdout o) = .ok bs ↔
        List.Forall₂ (fun l b => decode l = .ok b) L bs) ∧
      (∀ err, mustUnmarshalChain decode (readStdout o) = .error err ↔
        ∃ pre l post, L = pre ++ l :: post ∧ (∀ p ∈ pre, ∃ b, decode p = .ok b) ∧
          decode l = .error err) ∧
      (runSuccessFirstLine o).isSome ∧ getChainHead decode o ≠ .ok none := by
  intro L
  have hne : L ≠ [] := split_ne_nil _ _
  refine ⟨rfl, hne, fun l hl => not_mem_of_mem_split hl, join_split _ _,
    fun bs => by simp [mustUnmarshalChain, unmarshalLines_eq_ok, L],
    fun err => unmarshalLines_eq_error decode _ _ err, ?_, ?_⟩
  · show L[0]?.isSome = true
    obtain ⟨l, ls, hl⟩ := List.exists_cons_of_ne_nil hne
    simp [hl]
  · rcases getChainHead_outcome decode o with ⟨err, h⟩ | ⟨blks, h⟩ <;> simp [h]

/-- **`MustUnmarshalChain` reads back every printed chain.**  For every non-empty chain and
every encoding of tipsets as non-empty lines free of line breaks that `decode` inverts, the
listing of the chain, one tipset per line with any line breaks before and after, decodes to
exactly that chain, and `GetChainHead` returns its first tipset. -/
theorem mustUnmarshalChain_of_join (encode : List Blk → String)
    (hdec : ∀ b, decode (encode b) = .ok b) (henc : ∀ b, '\n' ∉ (encode b).data ∧ encode b ≠ "")
    (o : Output) {chain : List (List Blk)} (hne : chain ≠ []) (j k : Nat)
    (ho : o.stdout =
      List.replicate j '\n' ++ (join (chain.map encode) "\n").data ++ List.replicate k '\n') :
    mustUnmarshalChain decode (readStdout o) = .ok chain ∧
      getChainHead decode o = .ok chain.head? := by
  have hL : split (trim (readStdout o) '\n') '\n' = chain.map encode := by
    rw [readStdout, ho]
    refine split_trim_pad_join (by simpa using fun b _ => (henc b).1) (by simpa using hne) ?_ ?_
      j k
    · simpa [List.head?_map] using fun b _ => (henc b).2
    · simpa [List.getLast?_map] using fun b _ => (henc b).2
  have hc : mustUnmarshalChain decode (readStdout o) = .ok chain := by
    rw [mustUnmarshalChain, hL, unmarshalLines_eq_ok]
    exact ⟨chain, List.forall₂_map_left_iff.2 (List.forall₂_same.2 fun b _ => hdec b), rfl⟩
  exact ⟨hc, by simp [getChainHead, hc, Except.map, List.head?_eq_getElem?]⟩

/-- A chain of two tipsets, of one and of two blocks, each block printed as `x`: the listing
`"\n[x]\n[xx]\n"`. -/
theorem mustUnmarshalChain_of_join_two :
    mustUnmarshalChain (fun s => .ok (List.replicate (s.length - 2) ()))
        (readStdout ⟨[], 0, none, "\n[x]\n[xx]\n".data, []⟩) = .ok [[()], [(), ()]] ∧
      getChainHead (fun s => .ok (List.replicate (s.length - 2) ()))
        ⟨[], 0, none, "\n[x]\n[xx]\n".data, []⟩ = .ok (some [()]) :=
  mustUnmarshalChain_of_join _ (fun bs => ⟨'[' :: List.replicate bs.length 'x' ++ [']']⟩)
    (fun bs => by
      simpa [String.length] using (List.eq_replicate_iff.2 ⟨rfl, fun _ _ => rfl⟩).symm)
    (fun bs => ⟨by simp, by simp [String.ext_iff]⟩) _ (by decide) 1 1 (by decide)

end Chain

end FilecoinHarness
