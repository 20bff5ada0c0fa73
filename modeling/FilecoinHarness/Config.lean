import FilecoinHarness.GoStrings
import Mathlib.Data.List.Nodup

/-!
# A test daemon's configuration and the command lines built from it

Reference model of the configuration half of `TestDaemon`:

* `TestDaemon` — the configuration fields (addresses, repository directory, wallet and genesis
  inputs, key files, flags, command timeout).  The process handle, the pipes, the lock and the
  `testing.T` are the subject of `FilecoinHarness.Lifetime` or are not modelled.
* `DaemonOption`, `DaemonOption.apply` — the seven option constructors `SwarmAddr`, `RepoDir`,
  `ShouldInit`, `CmdTimeout`, `WalletFile`, `WalletAddr`, `GenesisFile`.  The field
  `mockMine` is unexported and no option sets it.
* `newDaemon` — `NewDaemon`'s defaults and the options applied in order; the free ports, the
  temporary directory, `GenesisFilePath()` and `KeyFilePaths()` come from outside the sources
  and are parameters.
* `initArgs`, `daemonArgs` — the `go-filecoin init` and `go-filecoin daemon` argument vectors
  (lines 667-689); `runCommandArgs` — `RunCommand`'s vector, which ignores its `cmd` and
  always runs `init`.
* `waitForAPI`, `start` — `WaitForAPI`'s 100 checks over the outcomes of `tryAPICheck` (an
  HTTP request, a parameter here), and `Start`: the checks, then on first start one
  `wallet import` per key file (`importKeys`), each through `RunSuccess`, whose failing
  `require` stops the test at that import.

Result: `newDaemon_lastOptions` — options of different fields commute and a later option of a
field overrides an earlier one, so only the last option of each field counts, in any order.
-/

set_option autoImplicit false

namespace FilecoinHarness

/-- `DefaultDaemonCmdTimeout`: one minute, as a `time.Duration` in nanoseconds. -/
def DefaultDaemonCmdTimeout : Nat := 60 * 1000000000

/-- The configuration fields of `TestDaemon` (lines 93-117). -/
structure TestDaemon where
  cmdAddr : String
  swarmAddr : String
  repoDir : String
  walletFile : String
  walletAddr : String
  genesisFile : String
  mockMine : Bool
  keyFiles : List String
  firstRun : Bool
  init : Bool
  cmdTimeout : Nat
  deriving DecidableEq, Repr

/-- The option constructors of lines 574-622. -/
inductive DaemonOption where
  | SwarmAddr (addr : String)
  | RepoDir (dir : String)
  | ShouldInit (i : Bool)
  | CmdTimeout (t : Nat)
  | WalletFile (f : String)
  | WalletAddr (a : String)
  | GenesisFile (a : String)
  deriving DecidableEq, Repr

/-- The closure each option constructor returns. -/
def DaemonOption.apply : DaemonOption → TestDaemon → TestDaemon
  | .SwarmAddr addr, td => { td with swarmAddr := addr }
  | .RepoDir dir, td => { td with repoDir := dir }
  | .ShouldInit i, td => { td with init := i }
  | .CmdTimeout t, td => { td with cmdTimeout := t }
  | .WalletFile f, td => { td with walletFile := f }
  | .WalletAddr a, td => { td with walletAddr := a }
  | .GenesisFile a, td => { td with genesisFile := a }

/-- `NewDaemon` up to the flags (lines 647-664): the defaults, then `option(td)` for each
option in order.  `cmdPort`, `swarmPort` and `dir` are what `GetFreePort` and
`ioutil.TempDir` returned; `genesis` and `keys` are `GenesisFilePath()` and `KeyFilePaths()`. -/
def newDaemon (cmdPort swarmPort : Nat) (dir genesis : String) (keys : List String)
    (options : List DaemonOption) : TestDaemon :=
  options.foldl (fun td o => o.apply td)
    { cmdAddr := ":" ++ toString cmdPort
      swarmAddr := "/ip4/127.0.0.1/tcp/" ++ toString swarmPort
      repoDir := dir
      walletFile := ""
      walletAddr := ""
      genesisFile := genesis
      mockMine := true
      keyFiles := keys
      firstRun := true
      init := true
      cmdTimeout := DefaultDaemonCmdTimeout }

/-! ## Which option wins -/

/-- The field of `TestDaemon` each option constructor sets. -/
inductive DaemonField where
  | swarmAddr | repoDir | init | cmdTimeout | walletFile | walletAddr | genesisFile
  deriving DecidableEq, Repr

/-- Which field an option's closure assigns. -/
def DaemonOption.field : DaemonOption → DaemonField
  | .SwarmAddr _ => .swarmAddr
  | .RepoDir _ => .repoDir
  | .ShouldInit _ => .init
  | .CmdTimeout _ => .cmdTimeout
  | .WalletFile _ => .walletFile
  | .WalletAddr _ => .walletAddr
  | .GenesisFile _ => .genesisFile

/-- Options that set different fields commute. -/
theorem DaemonOption.apply_comm {o o' : DaemonOption} (h : o.field ≠ o'.field)
    (td : TestDaemon) :
    o.apply (o'.apply td) = o'.apply (o.apply td) := by
  cases o <;> cases o' <;> first | rfl | exact absurd rfl h

/-- A later option of the same field overrides an earlier one. -/
theorem DaemonOption.apply_apply_of_field_eq {o o' : DaemonOption} (h : o.field = o'.field)
    (td : TestDaemon) : o'.apply (o.apply td) = o'.apply td := by
  cases o <;> cases o' <;> first | rfl | cases h

/-- An option followed by one of the same field has no effect on the fold. -/
theorem foldl_apply_of_overridden {o : DaemonOption} {os : List DaemonOption}
    (h : ∃ o' ∈ os, o'.field = o.field) (td : TestDaemon) :
    os.foldl (fun td o => o.apply td) (o.apply td) = os.foldl (fun td o => o.apply td) td := by
  induction os generalizing td with
  | nil => simp at h
  | cons o' os ih =>
    simp only [List.foldl_cons]
    by_cases hf : o'.field = o.field
    · rw [DaemonOption.apply_apply_of_field_eq hf.symm]
    · rw [← DaemonOption.apply_comm (Ne.symm hf)]
      obtain ⟨o'', ho'', hf''⟩ := h
      exact ih ⟨o'', (List.mem_cons.1 ho'').resolve_left (by rintro rfl; exact hf hf''), hf''⟩ _

/-- The options no later option of the same field overrides, in their order. -/
def lastOptions : List DaemonOption → List DaemonOption
  | [] => []
  | o :: os => if os.any (·.field == o.field) then lastOptions os else o :: lastOptions os

/-- Dropping the overridden options does not change the fold. -/
theorem foldl_lastOptions (options : List DaemonOption) (td : TestDaemon) :
    (lastOptions options).foldl (fun td o => o.apply td) td =
      options.foldl (fun td o => o.apply td) td := by
  induction options generalizing td with
  | nil => rfl
  | cons o os ih =>
    simp only [lastOptions, List.foldl_cons]
    split
    · rename_i h
      obtain ⟨o', ho', hf⟩ := List.any_eq_true.1 h
      rw [ih, foldl_apply_of_overridden ⟨o', ho', by simpa using hf⟩]
    · exact ih _

/-- `lastOptions` only drops options. -/
theorem lastOptions_sublist (options : List DaemonOption) :
    List.Sublist (lastOptions options) options := by
  induction options with
  | nil => exact List.Sublist.slnil
  | cons o os ih =>
    simp only [lastOptions]
    split
    · exact ih.cons o
    · exact ih.cons₂ o

/-- `lastOptions` keeps at most one option of each field. -/
theorem nodup_field_lastOptions (options : List DaemonOption) :
    ((lastOptions options).map DaemonOption.field).Nodup := by
  induction options with
  | nil => exact List.nodup_nil
  | cons o os ih =>
    simp only [lastOptions]
    split
    · exact ih
    · rename_i h
      refine List.nodup_cons.2 ⟨fun hm => h ?_, ih⟩
      obtain ⟨o', ho', hf⟩ := List.mem_map.1 hm
      exact List.any_eq_true.2 ⟨o', (lastOptions_sublist os).subset ho', by simpa using hf⟩

/-- **Only the last option of each field counts, in any order.**  For every list of options,
`lastOptions` keeps, in order, each option that no later option of the same field follows:
at most one option per field, and `NewDaemon` gives the same daemon from any reordering of
them as from the whole list. -/
theorem newDaemon_lastOptions (cmdPort swarmPort : Nat) (dir genesis : String)
    (keys : List String) (options : List DaemonOption) :
    List.Sublist (lastOptions options) options ∧
      ((lastOptions options).map DaemonOption.field).Nodup ∧
      ∀ l, l.Perm (lastOptions options) →
        newDaemon cmdPort swarmPort dir genesis keys l =
          newDaemon cmdPort swarmPort dir genesis keys options := by
  refine ⟨lastOptions_sublist options, nodup_field_lastOptions options, fun l hl => ?_⟩
  have hnd := nodup_field_lastOptions options
  rw [newDaemon, newDaemon, ← foldl_lastOptions options]
  refine hl.foldl_eq' (fun x hx y hy td => ?_) _
  by_cases hf : x.field = y.field
  · rw [List.inj_on_of_nodup_map hnd (hl.subset hx) (hl.subset hy) hf]
  · exact DaemonOption.apply_comm (Ne.symm hf) td

/-! ## Command lines -/

/-- `fmt.Sprintf("--name=%s", value)`. -/
def flag (name value : String) : String := "--" ++ name ++ "=" ++ value

/-- `fmt.Sprintf("%t", b)`. -/
def boolText (b : Bool) : String := if b then "true" else "false"

/-- `mockMineFlag` (lines 674-678): `"--mock-mine"`, or the empty string. -/
def mockMineFlag (td : TestDaemon) : String := if td.mockMine then "--mock-mine" else ""

/-- The arguments of `RunInit(repoDirFlag, cmdAPIAddrFlag, walletFileFlag, walletAddrFlag,
testGenesisFlag, genesisFileFlag)` (line 681). -/
def initArgs (td : TestDaemon) : List String :=
  [flag "repodir" td.repoDir, flag "cmdapiaddr" td.cmdAddr, flag "walletfile" td.walletFile,
    flag "walletaddr" td.walletAddr, flag "testgenesis" (boolText (td.walletFile != "")),
    flag "genesisfile" td.genesisFile]

/-- `exec.Command(filecoinBin, "daemon", repoDirFlag, cmdAPIAddrFlag, mockMineFlag,
swarmListenFlag)` (line 689): the arguments after the binary. -/
def daemonArgs (td : TestDaemon) : List String :=
  ["daemon", flag "repodir" td.repoDir, flag "cmdapiaddr" td.cmdAddr, mockMineFlag td,
    flag "swarmlisten" td.swarmAddr]

/-- `RunCommand(cmd, opts...)` (lines 714-722): the arguments after the binary. -/
def runCommandArgs (_cmd : String) (opts : List String) : List String :=
  "init" :: opts

/-- `RunInit(opts...)`. -/
def runInitArgs (opts : List String) : List String := runCommandArgs "init" opts

/-! ## `Start` -/

/-- The error `WaitForAPI` returns after its last attempt (line 362).  Its checks sleep 100 ms
each, about 10 s in all, not the 20 seconds the message names. -/
def waitForAPIError : String :=
  "filecoin node failed to come online in given time period (20 seconds)"

/-- Lines 355-361 from attempt `i` with `n` attempts left, over the outcomes of
`tryAPICheck`: `check i` is `true` when the `i`-th check returns `nil`.  The result, and the
milliseconds slept by `time.Sleep(time.Millisecond * 100)`. -/
def waitForAPILoop (check : Nat → Bool) (i : Nat) : Nat → Except String Unit × Nat
  | 0 => (.error waitForAPIError, 0)
  | n + 1 =>
    if check i then (.ok (), 0)
    else
      let r := waitForAPILoop check (i + 1) n
      (r.1, 100 + r.2)

/-- `WaitForAPI` (lines 354-363): at most 100 checks. -/
def waitForAPI (check : Nat → Bool) : Except String Unit × Nat := waitForAPILoop check 0 100

/-- The key imports of lines 310-314: `RunSuccess("wallet", "import", file)` for each key file
in order, where `imported file` is whether that call passes `AssertSuccess`; the first
failing `require` stops the test.  The commands run, and whether every one passed. -/
def importKeys (imported : String → Bool) : List String → List (List String) × Bool
  | [] => ([], true)
  | file :: rest =>
    if imported file then
      let r := importKeys imported rest
      (["wallet", "import", file] :: r.1, r.2)
    else ([["wallet", "import", file]], false)

/-- The imports run are the key files up to and including the first that fails, and they all
pass exactly when every key file is imported. -/
theorem importKeys_eq (imported : String → Bool) (files : List String) :
    (importKeys imported files).1 =
        (files.takeWhile imported ++ (files.dropWhile imported).take 1).map
          (fun file => ["wallet", "import", file]) ∧
      (importKeys imported files).2 = files.all imported := by
  induction files with
  | nil => exact ⟨rfl, rfl⟩
  | cons file rest ih => cases h : imported file <;> simp [importKeys, h, ih]

/-- `Start` once `td.process.Start()` has succeeded (lines 305-317): the `wallet import`
commands it runs, and whether it returns.  A failed `require`, on `WaitForAPI`'s error or in
an import's `RunSuccess`, stops the test. -/
def start (check : Nat → Bool) (imported : String → Bool) (td : TestDaemon) :
    List (List String) × Bool :=
  match (waitForAPI check).1 with
  | .ok () => if td.firstRun then importKeys imported td.keyFiles else ([], true)
  | .error _ => ([], false)

end FilecoinHarness
