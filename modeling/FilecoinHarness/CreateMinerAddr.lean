import FilecoinHarness.Runs

/-!
# `CreateMinerAddr`: a goroutine, a wait group and a shared address

Reference model of `TestDaemon.CreateMinerAddr` (lines 369-393) after its first
`mining once`, as a transition system over the interleavings of its two goroutines:

* the goroutine of lines 377-384 (`Worker`): `miner create --from fromAddr 1000000 1000` (not
  the `100000 20` of the function's comment) and the parse of its output
  (`types.NewAddressFromString`, outside the sources, so the parse's result is an argument of
  the move), the two `require` checks, `minerAddr = addr`, `wg.Done()`.  A failed `require`
  outside the test goroutine runs `runtime.Goexit`: the goroutine ends without `wg.Done()`;
* the test goroutine (`Main`): `mpool --wait-for-count=1`, `mining once`, `wg.Wait()`, then
  `return minerAddr`.

Results:

* `minerInv_run` — in every reachable state the counter is one until the goroutine calls
  `wg.Done()` and zero after, and the shared `minerAddr` is the zero `Address{}` until the
  goroutine writes its address.
* `createMinerAddr_spec` — the call returns only the address the goroutine parsed, never
  the zero address; it can always still return while the goroutine has not stopped; and once
  a `require` in the goroutine has failed, `wg.Wait()` never returns: the test hangs, with no
  timeout to end it.
-/

set_option autoImplicit false

namespace FilecoinHarness

/-- The goroutine of lines 377-384. -/
inductive Worker (Addr : Type) where
  /-- running `miner create` and parsing its output -/
  | creating
  /-- both `require`s passed; `minerAddr = addr` next -/
  | parsed (addr : Addr)
  /-- `wg.Done()` next -/
  | assigned (addr : Addr)
  /-- returned after `wg.Done()` -/
  | done (addr : Addr)
  /-- a failed `require` ran `runtime.Goexit` -/
  | exited
  deriving DecidableEq, Repr

/-- Where the test goroutine is, after `wg.Add(1)` and the `go` statement. -/
inductive Main where
  | mpool
  | mining
  | waiting
  | returned
  deriving DecidableEq, Repr

/-- The two goroutines, the wait group's counter, the shared `minerAddr` and what the call
returned. -/
structure MinerState (Addr : Type) where
  worker : Worker Addr
  main : Main
  counter : Int
  minerAddr : Addr
  result : Option Addr

/-- The state after `wg.Add(1)` and `go func() {...}()`: `minerAddr` is the zero value. -/
def MinerState.init {Addr : Type} (zero : Addr) : MinerState Addr :=
  ⟨.creating, .mpool, 1, zero, none⟩

/-- The moves.  `create out` is the goroutine's `RunSuccess` and parse: an address, or
`none` for a failed `RunSuccess` or `require.NoError`. -/
inductive MinerAction (Addr : Type) where
  | create (out : Option Addr)
  | assign
  | done
  | mpool
  | mining
  | wgWait

section Model

variable {Addr : Type} [DecidableEq Addr] (zero : Addr)

/-- One move; `none` when it is not enabled.  `require.NotEqual(addr, types.Address{})`
stops the goroutine on the zero address. -/
def minerStep (a : MinerAction Addr) (s : MinerState Addr) : Option (MinerState Addr) :=
  match a with
  | .create out =>
    match s.worker, out with
    | .creating, some addr =>
      if addr = zero then some { s with worker := .exited }
      else some { s with worker := .parsed addr }
    | .creating, none => some { s with worker := .exited }
    | _, _ => none
  | .assign =>
    match s.worker with
    | .parsed addr => some { s with worker := .assigned addr, minerAddr := addr }
    | _ => none
  | .done =>
    match s.worker with
    | .assigned addr => some { s with worker := .done addr, counter := s.counter - 1 }
    | _ => none
  | .mpool => if s.main = .mpool then some { s with main := .mining } else none
  | .mining => if s.main = .mining then some { s with main := .waiting } else none
  | .wgWait =>
    if s.main = .waiting ∧ s.counter = 0 then
      some { s with main := .returned, result := some s.minerAddr }
    else none

/-- A run of the moves. -/
def minerRun (as : List (MinerAction Addr)) (s : MinerState Addr) : Option (MinerState Addr) :=
  runSteps (minerStep zero) as s

end Model

/-! ## One move at a time -/

section Moves

variable {Addr : Type} [DecidableEq Addr] {zero : Addr} {s s' : MinerState Addr}

theorem minerStep_create {out : Option Addr} :
    minerStep zero (.create out) s = some s' ↔ s.worker = .creating ∧
      ((∃ addr, out = some addr ∧ addr ≠ zero ∧ { s with worker := .parsed addr } = s') ∨
        ((out = none ∨ out = some zero) ∧ { s with worker := .exited } = s')) := by
  simp only [minerStep]
  split
  · rename_i addr hw
    by_cases h : addr = zero <;> simp [hw, h]
  · rename_i hw
    simp [hw]
  · rename_i hne
    constructor
    · intro h; cases h
    · rintro ⟨hw, ⟨addr, rfl, -, -⟩ | ⟨rfl | rfl, -⟩⟩ <;> exact absurd hw (by simp_all)

theorem minerStep_assign :
    minerStep zero .assign s = some s' ↔ ∃ addr, s.worker = .parsed addr ∧
      { s with worker := .assigned addr, minerAddr := addr } = s' := by
  simp only [minerStep]
  split <;> simp_all

theorem minerStep_done :
    minerStep zero .done s = some s' ↔ ∃ addr, s.worker = .assigned addr ∧
      { s with worker := .done addr, counter := s.counter - 1 } = s' := by
  simp only [minerStep]
  split <;> simp_all

theorem minerStep_mpool :
    minerStep zero .mpool s = some s' ↔ s.main = .mpool ∧ { s with main := .mining } = s' := by
  simp only [minerStep]
  split <;> simp_all

theorem minerStep_mining :
    minerStep zero .mining s = some s' ↔ s.main = .mining ∧ { s with main := .waiting } = s' := by
  simp only [minerStep]
  split <;> simp_all

theorem minerStep_wgWait :
    minerStep zero .wgWait s = some s' ↔ s.main = .waiting ∧ s.counter = 0 ∧
      { s with main := .returned, result := some s.minerAddr } = s' := by
  simp only [minerStep]
  split <;> simp_all

/-- A goroutine stopped by `runtime.Goexit` stays stopped. -/
theorem worker_exited_step {a : MinerAction Addr} (h : minerStep zero a s = some s')
    (hx : s.worker = .exited) : s'.worker = .exited := by
  cases a with
  | create out => obtain ⟨hw, -⟩ := minerStep_create.1 h; simp [hx] at hw
  | assign => obtain ⟨_, hw, -⟩ := minerStep_assign.1 h; simp [hx] at hw
  | done => obtain ⟨_, hw, -⟩ := minerStep_done.1 h; simp [hx] at hw
  | mpool => obtain ⟨-, rfl⟩ := minerStep_mpool.1 h; exact hx
  | mining => obtain ⟨-, rfl⟩ := minerStep_mining.1 h; exact hx
  | wgWait => obtain ⟨-, -, rfl⟩ := minerStep_wgWait.1 h; exact hx

end Moves

/-! ## The invariant -/

section Invariant

variable {Addr : Type} [DecidableEq Addr] {zero : Addr} {s s' : MinerState Addr}

/-- What the goroutine's position says about the counter and `minerAddr`. -/
def WorkerInv (zero : Addr) (s : MinerState Addr) : Prop :=
  match s.worker with
  | .creating | .exited => s.counter = 1 ∧ s.minerAddr = zero
  | .parsed addr => s.counter = 1 ∧ s.minerAddr = zero ∧ addr ≠ zero
  | .assigned addr => s.counter = 1 ∧ s.minerAddr = addr ∧ addr ≠ zero
  | .done addr => s.counter = 0 ∧ s.minerAddr = addr ∧ addr ≠ zero

/-- The invariant of a `CreateMinerAddr` call. -/
structure MinerInv (zero : Addr) (s : MinerState Addr) : Prop where
  worker : WorkerInv zero s
  /-- the call returns only after `wg.Done()`, with the goroutine's address -/
  returned : s.main = .returned → ∃ addr, s.worker = .done addr ∧ s.result = some addr

omit [DecidableEq Addr] in
theorem minerInv_init : MinerInv zero (MinerState.init zero) :=
  ⟨⟨rfl, rfl⟩, fun h => by cases h⟩

/-- **Every move keeps the invariant.** -/
theorem MinerInv.step (hi : MinerInv zero s) {a : MinerAction Addr}
    (h : minerStep zero a s = some s') : MinerInv zero s' := by
  obtain ⟨hwi, hr⟩ := hi
  cases a with
  | create out =>
    obtain ⟨hw, ⟨addr, -, hne, rfl⟩ | ⟨-, rfl⟩⟩ := minerStep_create.1 h <;>
    · simp only [WorkerInv, hw] at hwi
      refine ⟨by simp [WorkerInv, hwi, *], fun hm => ?_⟩
      obtain ⟨_, hd, -⟩ := hr hm
      simp [hw] at hd
  | assign =>
    obtain ⟨addr, hw, rfl⟩ := minerStep_assign.1 h
    simp only [WorkerInv, hw] at hwi
    refine ⟨⟨hwi.1, rfl, hwi.2.2⟩, fun hm => ?_⟩
    obtain ⟨_, hd, -⟩ := hr hm
    simp [hw] at hd
  | done =>
    obtain ⟨addr, hw, rfl⟩ := minerStep_done.1 h
    simp only [WorkerInv, hw] at hwi
    refine ⟨⟨by simp [hwi.1], hwi.2⟩, fun hm => ?_⟩
    obtain ⟨_, hd, -⟩ := hr hm
    simp [hw] at hd
  | mpool =>
    obtain ⟨-, rfl⟩ := minerStep_mpool.1 h
    exact ⟨hwi, fun hm => by cases hm⟩
  | mining =>
    obtain ⟨-, rfl⟩ := minerStep_mining.1 h
    exact ⟨hwi, fun hm => by cases hm⟩
  | wgWait =>
    obtain ⟨-, h0, rfl⟩ := minerStep_wgWait.1 h
    refine ⟨hwi, fun _ => ?_⟩
    unfold WorkerInv at hwi
    split at hwi <;> first
      | (rename_i addr hw; exact ⟨addr, hw, by simp [hwi.2.1]⟩)
      | simp [h0] at hwi

theorem MinerInv.run (hi : MinerInv zero s) {as : List (MinerAction Addr)}
    (h : minerRun zero as s = some s') : MinerInv zero s' :=
  runSteps_preserves _ (MinerInv zero) (fun _ => True) (fun _ _ _ _ hi h => hi.step h)
    (fun _ _ => trivial) hi h

/-- **The invariant holds in every reachable state.** -/
theorem minerInv_run {as : List (MinerAction Addr)}
    (h : minerRun zero as (MinerState.init zero) = some s) : MinerInv zero s :=
  minerInv_init.run h

end Invariant

/-! ## Returning, or hanging -/

section Live

variable {Addr : Type} [DecidableEq Addr] {zero : Addr} {s : MinerState Addr}

theorem minerRun_cons {a : MinerAction Addr} {bs : List (MinerAction Addr)}
    {t u : MinerState Addr} (h : minerStep zero a s = some t) (h' : minerRun zero bs t = some u) :
    minerRun zero (a :: bs) s = some u :=
  (runSteps_cons_eq_some _).2 ⟨t, h, h'⟩

/-- Once the goroutine has called `wg.Done()`, the test goroutine can run to its `return`. -/
theorem MinerInv.exists_run_returned_of_done (hi : MinerInv zero s) {addr : Addr}
    (hw : s.worker = .done addr) :
    ∃ bs t, minerRun zero bs s = some t ∧ t.main = .returned := by
  have h0 : s.counter = 0 := by
    have := hi.worker
    simp only [WorkerInv, hw] at this
    exact this.1
  have hwait (u : MinerState Addr) (hu : u.main = .waiting) (hu0 : u.counter = 0) :
      ∃ bs t, minerRun zero bs u = some t ∧ t.main = .returned :=
    ⟨[.wgWait], _, minerRun_cons (minerStep_wgWait.2 ⟨hu, hu0, rfl⟩) rfl, rfl⟩
  have hmining (u : MinerState Addr) (hu : u.main = .mining) (hu0 : u.counter = 0) :
      ∃ bs t, minerRun zero bs u = some t ∧ t.main = .returned := by
    obtain ⟨bs, t, h, ht⟩ := hwait { u with main := .waiting } rfl hu0
    exact ⟨.mining :: bs, t, minerRun_cons (minerStep_mining.2 ⟨hu, rfl⟩) h, ht⟩
  cases hm : s.main with
  | returned => exact ⟨[], s, rfl, hm⟩
  | waiting => exact hwait s hm h0
  | mining => exact hmining s hm h0
  | mpool =>
    obtain ⟨bs, t, h, ht⟩ := hmining { s with main := .mining } rfl h0
    exact ⟨.mpool :: bs, t, minerRun_cons (minerStep_mpool.2 ⟨hm, rfl⟩) h, ht⟩

/-- A goroutine that has not stopped can run to `wg.Done()` when `miner create` yields a
non-zero address, the test goroutine staying where it is. -/
theorem MinerInv.exists_run_done (hi : MinerInv zero s) (hx : s.worker ≠ .exited) {addr : Addr}
    (haddr : addr ≠ zero) :
    ∃ bs t, minerRun zero bs s = some t ∧ MinerInv zero t ∧ ∃ a, t.worker = .done a := by
  have hdone (u : MinerState Addr) (hu : MinerInv zero u) (a : Addr) (hw : u.worker = .assigned a) :
      ∃ bs t, minerRun zero bs u = some t ∧ MinerInv zero t ∧ ∃ a, t.worker = .done a :=
    have h : minerStep zero .done u = some { u with worker := .done a, counter := u.counter - 1 } :=
      minerStep_done.2 ⟨a, hw, rfl⟩
    ⟨[.done], _, minerRun_cons h rfl, hu.step h, a, rfl⟩
  have hassign (u : MinerState Addr) (hu : MinerInv zero u) (a : Addr) (hw : u.worker = .parsed a) :
      ∃ bs t, minerRun zero bs u = some t ∧ MinerInv zero t ∧ ∃ a, t.worker = .done a := by
    have h : minerStep zero .assign u = some { u with worker := .assigned a, minerAddr := a } :=
      minerStep_assign.2 ⟨a, hw, rfl⟩
    obtain ⟨bs, t, hr, ht⟩ := hdone _ (hu.step h) a rfl
    exact ⟨.assign :: bs, t, minerRun_cons h hr, ht⟩
  cases hw : s.worker with
  | exited => exact absurd hw hx
  | done a => exact ⟨[], s, rfl, hi, a, hw⟩
  | assigned a => exact hdone s hi a hw
  | parsed a => exact hassign s hi a hw
  | creating =>
    have h : minerStep zero (.create (some addr)) s = some { s with worker := .parsed addr } :=
      minerStep_create.2 ⟨hw, .inl ⟨addr, rfl, haddr, rfl⟩⟩
    obtain ⟨bs, t, hr, ht⟩ := hassign _ (hi.step h) addr rfl
    exact ⟨.create (some addr) :: bs, t, minerRun_cons h hr, ht⟩

end Live

/-- **`CreateMinerAddr` returns the goroutine's address, or hangs.**  In every reachable
state: if the call has returned, it returned the non-zero address the goroutine parsed, after
its `wg.Done()`; while the goroutine has not stopped, some schedule (with `miner create`
yielding a non-zero address) makes the call return; and once a `require` in the goroutine has
failed, no schedule does: `wg.Wait()` blocks for ever. -/
theorem createMinerAddr_spec {Addr : Type} [DecidableEq Addr] {zero addr : Addr}
    (haddr : addr ≠ zero) {as : List (MinerAction Addr)} {s : MinerState Addr}
    (h : minerRun zero as (MinerState.init zero) = some s) :
    (s.main = .returned → ∃ a, a ≠ zero ∧ s.worker = .done a ∧ s.result = some a) ∧
      (s.worker ≠ .exited → ∃ bs t, minerRun zero bs s = some t ∧ t.main = .returned) ∧
      (s.worker = .exited → ∀ bs t, minerRun zero bs s = some t → t.main ≠ .returned) := by
  have hi := minerInv_run h
  refine ⟨fun hm => ?_, fun hx => ?_, fun hx bs t ht htm => ?_⟩
  · obtain ⟨a, hw, hr⟩ := hi.returned hm
    have := hi.worker
    simp only [WorkerInv, hw] at this
    exact ⟨a, this.2.2, hw, hr⟩
  · obtain ⟨bs, t, hr, hit, a, hw⟩ := hi.exists_run_done hx haddr
    obtain ⟨cs, u, hu, hum⟩ := hit.exists_run_returned_of_done hw
    exact ⟨bs ++ cs, u, runSteps_trans _ hr hu, hum⟩
  · have htx := runSteps_preserves _ (fun u => u.worker = .exited) (fun _ => True)
      (fun _ _ _ _ hu h => worker_exited_step h hu) (fun _ _ => trivial) hx ht
    obtain ⟨a, hw, -⟩ := (hi.run ht).returned htm
    simp [htx] at hw

/-- Addresses as numbers with zero as `Address{}`: when `miner create` prints `7` the call
returns `7`; when it fails the goroutine stops and the call never returns. -/
theorem createMinerAddr_spec_seven :
    (7 : Nat) ≠ 0 ∧
    (∃ s, minerRun 0 [.create (some 7), .mpool, .assign, .mining, .done, .wgWait]
        (MinerState.init 0) = some s ∧ s.main = .returned ∧
      ∃ a, a ≠ 0 ∧ s.worker = .done a ∧ s.result = some a) ∧
    (∃ s, minerRun 0 [.mpool, .create none] (MinerState.init 0) = some s ∧
      s.worker = .exited ∧ ∀ bs t, minerRun 0 bs s = some t → t.main ≠ .returned) :=
  ⟨by decide, ⟨_, rfl, rfl, (@createMinerAddr_spec Nat instDecidableEqNat 0 7 (by decide)
      [.create (some 7), .mpool, .assign, .mining, .done, .wgWait] _ rfl).1 rfl⟩,
    ⟨_, rfl, rfl, (@createMinerAddr_spec Nat instDecidableEqNat 0 7 (by decide)
      [.mpool, .create none] _ rfl).2.2 rfl⟩⟩

end FilecoinHarness
