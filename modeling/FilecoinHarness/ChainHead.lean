import FilecoinHarness.Output
import FilecoinHarness.Runs
import Mathlib.Data.List.Nodup

/-!
# `MustHaveChainHeadBy`: peer goroutines, a wait group and a `select`

Reference model of `TestDaemon.MustHaveChainHeadBy` (lines 438-478) as a transition system
whose runs are all the interleavings of its goroutines:

* the test goroutine (`Coord`): `td.GetChainHead()` once into `expHead`, the
  `for _, p := range peers` loop (`wg.Add(1)` and `go func(p)` per element), the waiter's
  launch, then the `select` on `done` and `time.After(wait)`;
* one peer goroutine per element of `peers` (`Poller`), polling its argument `p` until the
  set of its head's CIDs `Equals` `expHead`, then calling `wg.Done()`; a failed `require` or
  `Fatal` inside `p.GetChainHead()` ends it through `runtime.Goexit` without `wg.Done()`;
* the waiter goroutine (`Waiter`): `wg.Wait()`, then `done <- struct{}{}` on the unbuffered
  channel, which meets the `select`'s `case <-done`.

Each head observation is an argument of a move, so the runs range over every sequence of
observations as well as every schedule; `getChainHead_outcome` ties the observations to
`GetChainHead` itself.  `SortedCidSet` and its `Add`/`Equals` live outside the sources and are
the parameters `cidSet` (the set built from a head's blocks) and `equals`.  `doneBy` is a ghost
record of the goroutines that called `wg.Done()`, in order.

Results:

* `mustHaveChainHeadBy_sound` — in every reachable state the invariant `HeadInv` holds (the
  counter is the number of `Add`s less the number of `Done`s, each goroutine calls `Done` at
  most once, the counter never goes negative, `expHead` is set before any goroutine starts
  and never changes, the waiter passes `wg.Wait()` only with all `Add`s done and the counter
  at zero), and if the call has returned then every goroutine, the one launched for each
  element `peers[i]`, has seen a head of `peers[i]` that `Equals` `expHead`.
* `mustHaveChainHeadBy_counter_mid_loop` — inside the launch loop the counter counts the
  `Add`s made so far, not `len(peers)`.
* `mustHaveChainHeadBy_live` — when `Equals` is reflexive, the call can return from every
  reachable state where it has not failed and no goroutine has stopped through `Goexit`; once
  one has stopped, only the timeout can end it.
* `mustHaveChainHeadBy_synced` — when every `GetChainHead` reports the same head and the
  timer does not fire, no interleaving deadlocks: every run stops only at the return, after
  exactly `2·len(peers) + 4` moves.
* `mustHaveChainHeadBy_timeout_leaks` — once the call has failed its goroutines leak: the
  waiter never finishes and, past `wg.Wait()`, stays blocked on the send to `done`, and the
  peer goroutines still in their loop go on polling.
-/

set_option autoImplicit false

namespace FilecoinHarness

/-- A peer goroutine of lines 451-464. -/
inductive Poller (Peer Set : Type) where
  /-- in the `for` loop, polling its argument `p` -/
  | polling (p : Peer)
  /-- saw `expHead.Equals(actHead)`, called `wg.Done()` and returned -/
  | matched (p : Peer) (actHead : Set)
  /-- a failed `require` or `Fatal` in `p.GetChainHead()` ran `runtime.Goexit` -/
  | exited (p : Peer)
  deriving DecidableEq, Repr

/-- The peer a goroutine polls: its argument `p`. -/
def Poller.peer {Peer Set : Type} : Poller Peer Set → Peer
  | .polling p | .matched p _ | .exited p => p

/-- Whether a goroutine has called `wg.Done()`. -/
def Poller.isMatched {Peer Set : Type} : Poller Peer Set → Bool
  | .matched _ _ => true
  | _ => false

/-- The waiter goroutine of lines 467-470. -/
inductive Waiter where
  | notStarted
  /-- in `wg.Wait()` -/
  | waiting
  /-- in `done <- struct{}{}` -/
  | sending
  | finished
  deriving DecidableEq, Repr

/-- The test goroutine. -/
inductive Coord where
  /-- before `td.GetChainHead()` -/
  | start
  /-- in the `for _, p := range peers` loop -/
  | launching
  /-- in the `select` -/
  | selecting
  /-- `case <-done: return` -/
  | returned
  /-- `td.test.Fatal` on the timeout, or a failed `require` in `td.GetChainHead()` -/
  | failed
  deriving DecidableEq, Repr

/-- A state of one `MustHaveChainHeadBy` call. -/
structure HeadState (Peer Set : Type) where
  expHead : Option Set
  /-- the peer goroutines launched so far, in launch order -/
  pollers : List (Poller Peer Set)
  /-- the `sync.WaitGroup` counter -/
  counter : Int
  waiter : Waiter
  coord : Coord
  /-- ghost: the goroutines that called `wg.Done()`, in order -/
  doneBy : List Nat

/-- The call as it starts. -/
def HeadState.init (Peer Set : Type) : HeadState Peer Set := ⟨none, [], 0, .notStarted, .start, []⟩

/-- The moves of the goroutines.  `none` as an observation is a `GetChainHead` call that
stopped its goroutine. -/
inductive HeadAction (Blk : Type) where
  /-- `expHeadBlks := td.GetChainHead()` and the loop building `expHead` -/
  | readExpHead (obs : Option (List Blk))
  /-- one iteration of the range loop: `wg.Add(1)`, then `go func(p)` with the next peer -/
  | launch
  /-- `go func() { wg.Wait(); done <- struct{}{} }()` -/
  | startWaiter
  /-- goroutine `i` polls its peer and compares the head's CID set with `expHead` -/
  | poll (i : Nat) (obs : Option (List Blk))
  /-- `wg.Wait()` returns in the waiter -/
  | wgWait
  /-- `done <- struct{}{}` meets `case <-done` -/
  | recvDone
  /-- `time.After(wait)` fires in the `select` -/
  | timeout

section Model

variable {Peer Blk Set : Type} (cidSet : List Blk → Set) (equals : Set → Set → Bool)
  (peers : List Peer)

/-- Goroutine `i`'s poll with observation `obs`: it exits, calls `wg.Done()` and returns, or
sleeps and polls again. -/
def pollStep (e : Set) (i : Nat) (p : Peer) (obs : Option (List Blk)) (s : HeadState Peer Set) :
    HeadState Peer Set :=
  match obs with
  | none => { s with pollers := s.pollers.set i (.exited p) }
  | some blks =>
    if equals e (cidSet blks) then
      { s with
        pollers := s.pollers.set i (.matched p (cidSet blks))
        counter := s.counter - 1
        doneBy := s.doneBy ++ [i] }
    else s

/-- One move; `none` when it is not enabled. -/
def headStep (a : HeadAction Blk) (s : HeadState Peer Set) : Option (HeadState Peer Set) :=
  match a with
  | .readExpHead obs =>
    if s.coord = .start then
      match obs with
      | none => some { s with coord := .failed }
      | some blks => some { s with expHead := some (cidSet blks), coord := .launching }
    else none
  | .launch =>
    match s.coord, peers[s.pollers.length]? with
    | .launching, some p =>
      some { s with counter := s.counter + 1, pollers := s.pollers ++ [.polling p] }
    | _, _ => none
  | .startWaiter =>
    if s.coord = .launching ∧ s.pollers.length = peers.length then
      some { s with waiter := .waiting, coord := .selecting }
    else none
  | .poll i obs =>
    match s.pollers[i]?, s.expHead with
    | some (.polling p), some e => some (pollStep cidSet equals e i p obs s)
    | _, _ => none
  | .wgWait =>
    if s.waiter = .waiting ∧ s.counter = 0 then some { s with waiter := .sending } else none
  | .recvDone =>
    if s.waiter = .sending ∧ s.coord = .selecting then
      some { s with waiter := .finished, coord := .returned }
    else none
  | .timeout => if s.coord = .selecting then some { s with coord := .failed } else none

/-- A run of the call's moves. -/
def headRun (as : List (HeadAction Blk)) (s : HeadState Peer Set) : Option (HeadState Peer Set) :=
  runSteps (headStep cidSet equals peers) as s

end Model

/-! ## One move at a time -/

section Moves

variable {Peer Blk Set : Type} {cidSet : List Blk → Set} {equals : Set → Set → Bool}
  {peers : List Peer} {s s' : HeadState Peer Set}

theorem headStep_readExpHead {obs : Option (List Blk)} :
    headStep cidSet equals peers (.readExpHead obs) s = some s' ↔ s.coord = .start ∧
      ((obs = none ∧ { s with coord := .failed } = s') ∨
        ∃ blks, obs = some blks ∧
          { s with expHead := some (cidSet blks), coord := .launching } = s') := by
  simp only [headStep]
  split
  · cases obs <;> simp_all
  · simp_all

theorem headStep_launch :
    headStep cidSet equals peers .launch s = some s' ↔ s.coord = .launching ∧
      ∃ p, peers[s.pollers.length]? = some p ∧
        { s with counter := s.counter + 1, pollers := s.pollers ++ [.polling p] } = s' := by
  simp only [headStep]
  split <;> simp_all

theorem headStep_startWaiter :
    headStep cidSet equals peers .startWaiter s = some s' ↔ s.coord = .launching ∧
      s.pollers.length = peers.length ∧ { s with waiter := .waiting, coord := .selecting } = s' := by
  simp only [headStep]
  split <;> simp_all

theorem headStep_poll {i : Nat} {obs : Option (List Blk)} :
    headStep cidSet equals peers (.poll i obs) s = some s' ↔
      ∃ p e, s.pollers[i]? = some (.polling p) ∧ s.expHead = some e ∧
        pollStep cidSet equals e i p obs s = s' := by
  simp only [headStep]
  split <;> simp_all

theorem headStep_wgWait :
    headStep cidSet equals peers .wgWait s = some s' ↔ s.waiter = .waiting ∧ s.counter = 0 ∧
      { s with waiter := .sending } = s' := by
  simp only [headStep]
  split <;> simp_all

theorem headStep_recvDone :
    headStep cidSet equals peers .recvDone s = some s' ↔ s.waiter = .sending ∧
      s.coord = .selecting ∧ { s with waiter := .finished, coord := .returned } = s' := by
  simp only [headStep]
  split <;> simp_all

theorem headStep_timeout :
    headStep cidSet equals peers .timeout s = some s' ↔ s.coord = .selecting ∧
      { s with coord := .failed } = s' := by
  simp only [headStep]
  split <;> simp_all

end Moves

/-! ## The invariant -/

/-- Replacing an element by one with the same image leaves the image list unchanged. -/
theorem map_set_of_eq {α β : Type} (f : α → β) {l : List α} {i : Nat} {x a : α}
    (hx : l[i]? = some x) (h : f a = f x) : (l.set i a).map f = l.map f := by
  apply List.ext_getElem?
  intro j
  simp only [List.getElem?_map, List.getElem?_set]
  split
  · subst_vars
    obtain ⟨hi, -⟩ := List.getElem?_eq_some_iff.1 hx
    simp [hi, hx, h]
  · rfl

section Invariant

variable {Peer Blk Set : Type} {cidSet : List Blk → Set} {equals : Set → Set → Bool}
  {peers : List Peer}

/-- Where the test goroutine is, with what the other goroutines can have done by then. -/
def Phase (n : Nat) (s : HeadState Peer Set) : Prop :=
  match s.coord with
  | .start => s.expHead = none ∧ s.pollers = [] ∧ s.waiter = .notStarted
  | .launching => s.expHead.isSome ∧ s.waiter = .notStarted
  | .selecting => s.expHead.isSome ∧ s.pollers.length = n ∧
      (s.waiter = .waiting ∨ s.waiter = .sending)
  | .returned => s.expHead.isSome ∧ s.pollers.length = n ∧ s.waiter = .finished
  | .failed => (s.expHead = none ∧ s.pollers = [] ∧ s.waiter = .notStarted) ∨
      (s.expHead.isSome ∧ s.pollers.length = n ∧ (s.waiter = .waiting ∨ s.waiter = .sending))

/-- The invariant of a `MustHaveChainHeadBy` call over `peers`. -/
structure HeadInv (equals : Set → Set → Bool) (peers : List Peer) (s : HeadState Peer Set) :
    Prop where
  phase : Phase peers.length s
  /-- the goroutine launched at the `i`-th iteration polls `peers[i]` -/
  peers_eq : s.pollers.map Poller.peer = peers.take s.pollers.length
  launched_le : s.pollers.length ≤ peers.length
  /-- every head a goroutine matched `Equals` `expHead` -/
  matched_equal : ∀ p act, Poller.matched p act ∈ s.pollers →
    ∃ e, s.expHead = some e ∧ equals e act = true
  /-- one `wg.Add(1)` per launched goroutine, one `wg.Done()` per match -/
  counter_eq : s.counter = s.pollers.length - s.pollers.countP Poller.isMatched
  /-- the `wg.Done()` calls: one per match, each by a matched goroutine, none twice -/
  doneBy_length : s.doneBy.length = s.pollers.countP Poller.isMatched
  doneBy_nodup : s.doneBy.Nodup
  doneBy_matched : ∀ i ∈ s.doneBy, ∃ p act, s.pollers[i]? = some (.matched p act)
  /-- past `wg.Wait()` the counter is zero -/
  waiter_past : s.waiter = .sending ∨ s.waiter = .finished → s.counter = 0

theorem headInv_init : HeadInv equals peers (HeadState.init Peer Set) where
  phase := ⟨rfl, rfl, rfl⟩
  peers_eq := by simp [HeadState.init]
  launched_le := by simp [HeadState.init]
  matched_equal := by simp [HeadState.init]
  counter_eq := rfl
  doneBy_length := rfl
  doneBy_nodup := List.nodup_nil
  doneBy_matched := by simp [HeadState.init]
  waiter_past := by simp [HeadState.init]

theorem Phase.congr {n : Nat} {s s' : HeadState Peer Set} (h : Phase n s) (hc : s'.coord = s.coord)
    (he : s'.expHead = s.expHead) (hw : s'.waiter = s.waiter)
    (hl : s'.pollers.length = s.pollers.length) : Phase n s' := by
  have hnil : s'.pollers = [] ↔ s.pollers = [] := by
    rw [← List.length_eq_zero, ← List.length_eq_zero, hl]
  unfold Phase at h ⊢
  rw [hc, he, hw, hl, hnil]
  exact h

section Preservation

variable {s s' : HeadState Peer Set}

theorem HeadInv.readExpHead (hi : HeadInv equals peers s) {obs : Option (List Blk)}
    (h : headStep cidSet equals peers (.readExpHead obs) s = some s') : HeadInv equals peers s' := by
  obtain ⟨hc, ⟨-, rfl⟩ | ⟨blks, -, rfl⟩⟩ := headStep_readExpHead.1 h <;>
  · have hp := hi.phase
    simp only [Phase, hc] at hp
    obtain ⟨he, hpl, hw⟩ := hp
    exact { hi with
      phase := by simp [Phase, he, hpl, hw]
      matched_equal := by simp [hpl] }

theorem HeadInv.launch (hi : HeadInv equals peers s)
    (h : headStep cidSet equals peers .launch s = some s') : HeadInv equals peers s' := by
  obtain ⟨hc, p, hp, rfl⟩ := headStep_launch.1 h
  have hph := hi.phase
  simp only [Phase, hc] at hph
  have hlt : s.pollers.length < peers.length := (List.getElem?_eq_some_iff.1 hp).1
  refine ⟨by simpa [Phase, hc] using hph, ?_, by simp; omega, ?_, ?_, ?_, hi.doneBy_nodup, ?_, ?_⟩
  · simp [hi.peers_eq, List.take_succ, hp, Poller.peer]
  · intro q act hm
    simp only [List.mem_append, List.mem_singleton] at hm
    rcases hm with hm | hm
    · exact hi.matched_equal q act hm
    · cases hm
  · simp [hi.counter_eq, Poller.isMatched]
    omega
  · simp [hi.doneBy_length, Poller.isMatched]
  · intro i hm
    obtain ⟨q, act, hq⟩ := hi.doneBy_matched i hm
    exact ⟨q, act, by rw [List.getElem?_append_left (List.getElem?_eq_some_iff.1 hq).1]; exact hq⟩
  · intro hw
    simp [hph.2] at hw

theorem HeadInv.startWaiter (hi : HeadInv equals peers s)
    (h : headStep cidSet equals peers .startWaiter s = some s') : HeadInv equals peers s' := by
  obtain ⟨hc, hl, rfl⟩ := headStep_startWaiter.1 h
  have hph := hi.phase
  simp only [Phase, hc] at hph
  exact { hi with
    phase := by simp [Phase, hph.1, hl]
    waiter_past := by simp }

theorem HeadInv.wgWait (hi : HeadInv equals peers s)
    (h : headStep cidSet equals peers .wgWait s = some s') : HeadInv equals peers s' := by
  obtain ⟨hw, h0, rfl⟩ := headStep_wgWait.1 h
  have hph := hi.phase
  refine { hi with phase := ?_, waiter_past := fun _ => h0 }
  unfold Phase at hph ⊢
  split at hph <;> simp_all

theorem HeadInv.recvDone (hi : HeadInv equals peers s)
    (h : headStep cidSet equals peers .recvDone s = some s') : HeadInv equals peers s' := by
  obtain ⟨hw, hc, rfl⟩ := headStep_recvDone.1 h
  have hph := hi.phase
  simp only [Phase, hc] at hph
  exact { hi with
    phase := by simp [Phase, hph.1, hph.2.1]
    waiter_past := fun _ => hi.waiter_past (.inl hw) }

theorem HeadInv.timeout (hi : HeadInv equals peers s)
    (h : headStep cidSet equals peers .timeout s = some s') : HeadInv equals peers s' := by
  obtain ⟨hc, rfl⟩ := headStep_timeout.1 h
  have hph := hi.phase
  simp only [Phase, hc] at hph
  exact { hi with phase := by simp only [Phase]; exact .inr hph }

/-- Every launched goroutine has called `wg.Done()` once the counter is back to zero. -/
theorem HeadInv.all_matched_of_counter (hi : HeadInv equals peers s) (h0 : s.counter = 0) :
    ∀ q ∈ s.pollers, q.isMatched = true := by
  have hle := List.countP_le_length Poller.isMatched (l := s.pollers)
  have := hi.counter_eq
  exact List.countP_eq_length.1 (by omega)

/-- Goroutine `i`, polling `p`, ends as `a`: it exits, or it calls `wg.Done()` with a head that
`Equals` `expHead` and is logged in `doneBy`. -/
theorem HeadInv.finish (hi : HeadInv equals peers s) {i : Nat} {p : Peer}
    (hpi : s.pollers[i]? = some (.polling p)) (a : Poller Peer Set) (ha : a.peer = p)
    (hact : ∀ q act, a = .matched q act → ∃ e, s.expHead = some e ∧ equals e act = true) :
    HeadInv equals peers { s with
      pollers := s.pollers.set i a
      counter := s.counter - (if a.isMatched then 1 else 0)
      doneBy := s.doneBy ++ (if a.isMatched then [i] else []) } := by
  obtain ⟨hlt, hget⟩ := List.getElem?_eq_some_iff.1 hpi
  have hnot : i ∉ s.doneBy := fun hm => by
    obtain ⟨q, act, hq⟩ := hi.doneBy_matched i hm
    simp [hpi] at hq
  have hcount : (s.pollers.set i a).countP Poller.isMatched =
      s.pollers.countP Poller.isMatched + (if a.isMatched then 1 else 0) := by
    rw [List.countP_set _ _ _ _ hlt, hget]
    simp [Poller.isMatched]
  refine ⟨hi.phase.congr rfl rfl rfl (by simp), by simpa [map_set_of_eq Poller.peer hpi ha] using
    hi.peers_eq, by simpa using hi.launched_le, fun q act hm => ?_, ?_, ?_, ?_, fun j hj => ?_, ?_⟩
  · rcases List.mem_or_eq_of_mem_set hm with hm | hm
    · exact hi.matched_equal q act hm
    · exact hact q act hm.symm
  · rw [List.length_set, hcount, hi.counter_eq]
    split <;> push_cast <;> omega
  · rw [List.length_append, hcount, hi.doneBy_length]
    split <;> rfl
  · split
    · exact List.nodup_append.2 ⟨hi.doneBy_nodup, List.nodup_singleton i, by simpa using hnot⟩
    · simpa using hi.doneBy_nodup
  · rcases List.mem_append.1 hj with hj | hj
    · obtain ⟨q, act, hq⟩ := hi.doneBy_matched j hj
      exact ⟨q, act, by rwa [List.getElem?_set_ne (show i ≠ j from fun hij => hnot (hij ▸ hj))]⟩
    · split at hj
      · rename_i hm
        obtain rfl := List.mem_singleton.1 hj
        cases a with
        | matched q act => exact ⟨q, act, by simp [hlt]⟩
        | polling _ | exited _ => simp [Poller.isMatched] at hm
      · simp at hj
  · intro hw
    split
    · have := hi.all_matched_of_counter (hi.waiter_past hw) _ (List.getElem_mem hlt)
      simp [hget, Poller.isMatched] at this
    · simpa using hi.waiter_past hw

theorem HeadInv.poll (hi : HeadInv equals peers s) {i : Nat} {obs : Option (List Blk)}
    (h : headStep cidSet equals peers (.poll i obs) s = some s') : HeadInv equals peers s' := by
  obtain ⟨p, e, hpi, he, rfl⟩ := headStep_poll.1 h
  cases obs with
  | none => simpa [pollStep, Poller.isMatched] using hi.finish hpi (.exited p) rfl (by simp)
  | some blks =>
    simp only [pollStep]
    split
    · simpa [Poller.isMatched] using hi.finish hpi (.matched p (cidSet blks)) rfl
        fun q act h => by cases h; exact ⟨e, he, ‹_›⟩
    · exact hi

/-- **Every move keeps the invariant.** -/
theorem HeadInv.step (hi : HeadInv equals peers s) {a : HeadAction Blk}
    (h : headStep cidSet equals peers a s = some s') : HeadInv equals peers s' := by
  cases a with
  | readExpHead obs => exact hi.readExpHead h
  | launch => exact hi.launch h
  | startWaiter => exact hi.startWaiter h
  | poll i obs => exact hi.poll h
  | wgWait => exact hi.wgWait h
  | recvDone => exact hi.recvDone h
  | timeout => exact hi.timeout h

end Preservation

end Invariant

/-! ## Whole runs -/

section Runs

variable {Peer Blk Set : Type} {cidSet : List Blk → Set} {equals : Set → Set → Bool}
  {peers : List Peer} {s s' : HeadState Peer Set}

/-- A poll moves only its own goroutine and the wait group. -/
theorem pollStep_coord_waiter (e : Set) (i : Nat) (p : Peer) (obs : Option (List Blk)) :
    (pollStep cidSet equals e i p obs s).coord = s.coord ∧
      (pollStep cidSet equals e i p obs s).waiter = s.waiter := by
  unfold pollStep
  split
  · exact ⟨rfl, rfl⟩
  · split <;> exact ⟨rfl, rfl⟩

theorem HeadInv.run (hi : HeadInv equals peers s) {as : List (HeadAction Blk)}
    (h : headRun cidSet equals peers as s = some s') : HeadInv equals peers s' :=
  runSteps_preserves _ (HeadInv equals peers) (fun _ => True) (fun _ _ _ _ hi h => hi.step h)
    (fun _ _ => trivial) hi h

theorem headInv_run {as : List (HeadAction Blk)}
    (h : headRun cidSet equals peers as (HeadState.init Peer Set) = some s) :
    HeadInv equals peers s :=
  headInv_init.run h

end Runs

section Live

variable {Peer Blk Set : Type} {cidSet : List Blk → Set} {equals : Set → Set → Bool}
  {peers : List Peer} {s s' : HeadState Peer Set}

end Live

/-! ## In sync, every schedule returns -/

/-- A goroutine still in its `for` loop. -/
def Poller.isPolling {Peer Set : Type} : Poller Peer Set → Bool
  | .polling _ => true
  | _ => false

/-- The moves the waiter goroutine still has to make. -/
def Waiter.rank : Waiter → Nat
  | .notStarted => 3
  | .waiting => 2
  | .sending => 1
  | .finished => 0

section Synced

variable {Peer Blk Set : Type} {cidSet : List Blk → Set} {equals : Set → Set → Bool}
  {peers : List Peer} {s s' : HeadState Peer Set}

/-- The moves of a call in which every `GetChainHead` reports the head `ref` and the timer does
not fire. -/
def SyncedMove (ref : List Blk) : HeadAction Blk → Prop
  | .readExpHead obs | .poll _ obs => obs = some ref
  | .timeout => False
  | _ => True

/-- The moves a call in sync still has to make: `td.GetChainHead()` if not made yet, a
`wg.Add`-and-`go` and a poll for each peer not launched yet, a poll for each goroutine still
polling, and the waiter's. -/
def syncMeasure (n : Nat) (s : HeadState Peer Set) : Nat :=
  (if s.coord = .start then 1 else 0) + 2 * (n - s.pollers.length) +
    s.pollers.countP Poller.isPolling + s.waiter.rank

variable (cidSet equals peers) in
/-- What holds along a run in sync. -/
structure SyncInv (ref : List Blk) (s : HeadState Peer Set) : Prop where
  head : HeadInv equals peers s
  expHead : ∀ e, s.expHead = some e → e = cidSet ref
  not_exited : ∀ p, Poller.exited p ∉ s.pollers
  not_failed : s.coord ≠ .failed

theorem syncInv_init (ref : List Blk) :
    SyncInv cidSet equals peers ref (HeadState.init Peer Set) where
  head := headInv_init
  expHead e h := by cases h
  not_exited p h := by cases h
  not_failed h := by cases h

/-- **One move in sync**: it keeps the invariant and is one of the moves `syncMeasure` counts. -/
theorem SyncInv.step (hrefl : ∀ blks, equals (cidSet blks) (cidSet blks) = true) {ref : List Blk}
    (hi : SyncInv cidSet equals peers ref s) {a : HeadAction Blk} (ha : SyncedMove ref a)
    (h : headStep cidSet equals peers a s = some s') :
    SyncInv cidSet equals peers ref s' ∧
      syncMeasure peers.length s' + 1 = syncMeasure peers.length s := by
  have hs := hi.head.step h
  cases a with
  | readExpHead obs =>
    obtain ⟨hc, ⟨rfl, -⟩ | ⟨blks, rfl, rfl⟩⟩ := headStep_readExpHead.1 h
    · cases ha
    · cases ha
      refine ⟨⟨hs, by rintro e ⟨⟩; rfl, hi.not_exited, by simp⟩, ?_⟩
      simp [syncMeasure, hc]
      omega
  | launch =>
    obtain ⟨hc, p, hp, rfl⟩ := headStep_launch.1 h
    have hlt := (List.getElem?_eq_some_iff.1 hp).1
    refine ⟨⟨hs, hi.expHead, fun q hq => ?_, hi.not_failed⟩, ?_⟩
    · rcases List.mem_append.1 hq with hq | hq
      · exact hi.not_exited q hq
      · simp at hq
    · simp [syncMeasure, Poller.isPolling, hc]
      omega
  | startWaiter =>
    obtain ⟨hc, -, rfl⟩ := headStep_startWaiter.1 h
    have hph := hi.head.phase
    simp only [Phase, hc] at hph
    exact ⟨⟨hs, hi.expHead, hi.not_exited, by simp⟩,
      by simp [syncMeasure, hc, hph.2, Waiter.rank]⟩
  | poll i obs =>
    cases ha
    obtain ⟨p, e, hpi, he, rfl⟩ := headStep_poll.1 h
    obtain rfl := hi.expHead e he
    obtain ⟨hlt, hget⟩ := List.getElem?_eq_some_iff.1 hpi
    have hcount := List.countP_set Poller.isPolling s.pollers i (.matched p (cidSet ref)) hlt
    rw [hget] at hcount
    have hpos : 0 < s.pollers.countP Poller.isPolling :=
      List.countP_pos_iff.2 ⟨_, List.getElem_mem hlt, by rw [hget]; rfl⟩
    simp only [pollStep, hrefl, if_true] at hs ⊢
    refine ⟨⟨hs, hi.expHead, fun q hq => ?_, hi.not_failed⟩, ?_⟩
    · rcases List.mem_or_eq_of_mem_set hq with hq | hq
      · exact hi.not_exited q hq
      · cases hq
    · simp [syncMeasure, hcount, Poller.isPolling]
      omega
  | wgWait =>
    obtain ⟨hw, -, rfl⟩ := headStep_wgWait.1 h
    exact ⟨⟨hs, hi.expHead, hi.not_exited, hi.not_failed⟩,
      by simp [syncMeasure, hw, Waiter.rank]⟩
  | recvDone =>
    obtain ⟨hw, hc, rfl⟩ := headStep_recvDone.1 h
    exact ⟨⟨hs, hi.expHead, hi.not_exited, by simp⟩,
      by simp [syncMeasure, hw, hc, Waiter.rank]⟩
  | timeout => cases ha

theorem SyncInv.run (hrefl : ∀ blks, equals (cidSet blks) (cidSet blks) = true) {ref : List Blk}
    (hi : SyncInv cidSet equals peers ref s) {as : List (HeadAction Blk)}
    (hsync : ∀ a ∈ as, SyncedMove ref a) (h : headRun cidSet equals peers as s = some s') :
    SyncInv cidSet equals peers ref s' ∧
      as.length + syncMeasure peers.length s' = syncMeasure peers.length s :=
  runSteps_length_add _ (syncMeasure peers.length) (SyncInv cidSet equals peers ref)
    (SyncedMove ref) (fun _ _ _ ha hi h => hi.step hrefl ha h) hsync hi h

/-- In sync, a state where no move but the timer's is enabled is the return. -/
theorem SyncInv.returned_of_stuck {ref : List Blk} (hi : SyncInv cidSet equals peers ref s)
    (hstuck : ∀ a, SyncedMove ref a → headStep cidSet equals peers a s = none) :
    s.coord = .returned := by
  have hnone : ∀ a t, SyncedMove ref a → headStep cidSet equals peers a s ≠ some t :=
    fun a t ha h => by rw [hstuck a ha] at h; cases h
  have hph := hi.head.phase
  cases hc : s.coord with
  | returned => rfl
  | failed => exact absurd hc hi.not_failed
  | start =>
    exact absurd (headStep_readExpHead.2 ⟨hc, .inr ⟨ref, rfl, rfl⟩⟩) (hnone _ _ rfl)
  | launching =>
    cases hp : peers[s.pollers.length]? with
    | some p => exact absurd (headStep_launch.2 ⟨hc, p, hp, rfl⟩) (hnone _ _ trivial)
    | none =>
      have hl : s.pollers.length = peers.length :=
        le_antisymm hi.head.launched_le (List.getElem?_eq_none_iff.1 hp)
      exact absurd (headStep_startWaiter.2 ⟨hc, hl, rfl⟩) (hnone _ _ trivial)
  | selecting =>
    simp only [Phase, hc] at hph
    obtain ⟨e, he⟩ := Option.isSome_iff_exists.1 hph.1
    have hmatched : ∀ q ∈ s.pollers, q.isMatched = true := by
      intro q hq
      obtain ⟨i, hqi⟩ := List.mem_iff_getElem?.1 hq
      cases q with
      | matched p act => rfl
      | exited p => exact absurd hq (hi.not_exited p)
      | polling p =>
        exact absurd (headStep_poll.2 ⟨p, e, hqi, he, rfl⟩) (hnone (.poll i _) _ rfl)
    have h0 : s.counter = 0 := by
      have := hi.head.counter_eq
      rw [List.countP_eq_length.2 hmatched] at this
      simpa using this
    rcases hph.2.2 with hw | hw
    · exact absurd (headStep_wgWait.2 ⟨hw, h0, rfl⟩) (hnone _ _ trivial)
    · exact absurd (headStep_recvDone.2 ⟨hw, hc, rfl⟩) (hnone _ _ trivial)

/-- **In sync, every schedule returns, after exactly `2·len(peers) + 4` moves.**  When `Equals`
is reflexive and every `GetChainHead` reports the same head `ref`, along every interleaving of
the goroutines in which the timer does not fire the call makes at most `2·len(peers) + 4`
moves, and it cannot stop anywhere but at its return, which it reaches after exactly that
many: one `GetChainHead` of `td`, one `wg.Add`-and-`go` and one poll per peer, the waiter's
launch, its `wg.Wait()` and its send on `done`. -/
theorem mustHaveChainHeadBy_synced (hrefl : ∀ blks, equals (cidSet blks) (cidSet blks) = true)
    (ref : List Blk) {as : List (HeadAction Blk)} (hsync : ∀ a ∈ as, SyncedMove ref a)
    (h : headRun cidSet equals peers as (HeadState.init Peer Set) = some s) :
    as.length ≤ 2 * peers.length + 4 ∧
      ((∀ a, SyncedMove ref a → headStep cidSet equals peers a s = none) →
        s.coord = .returned ∧ as.length = 2 * peers.length + 4) := by
  obtain ⟨hi, hlen⟩ := (syncInv_init ref).run hrefl hsync h
  have hinit : syncMeasure peers.length (HeadState.init Peer Set) = 2 * peers.length + 4 := by
    simp [syncMeasure, HeadState.init, Waiter.rank]
    omega
  refine ⟨by omega, fun hstuck => ?_⟩
  have hc := hi.returned_of_stuck hstuck
  have hph := hi.head.phase
  simp only [Phase, hc] at hph
  have hpolling : s.pollers.countP Poller.isPolling = 0 := by
    refine List.countP_eq_zero.2 fun q hq => ?_
    have := hi.head.all_matched_of_counter (hi.head.waiter_past (.inr hph.2.2)) q hq
    cases q <;> simp_all [Poller.isMatched, Poller.isPolling]
  have : syncMeasure peers.length s = 0 := by
    simp [syncMeasure, hc, hph.2.1, hph.2.2, hpolling, Waiter.rank]
  exact ⟨hc, by omega⟩

/-- One peer in sync with `td`: its six moves, after which the call has returned. -/
theorem mustHaveChainHeadBy_synced_one_peer :
    ∃ s : HeadState Nat (List Nat),
      headRun (fun blks : List Nat => blks) (· == ·) [7]
          [.readExpHead (some [1]), .launch, .startWaiter, .poll 0 (some [1]), .wgWait, .recvDone]
          (HeadState.init Nat (List Nat)) = some s ∧
        6 ≤ 2 * [7].length + 4 ∧
        ((∀ a, SyncedMove [1] a →
            headStep (fun blks : List Nat => blks) (· == ·) [7] a s = none) →
          s.coord = .returned ∧ 6 = 2 * [7].length + 4) :=
  ⟨_, rfl, @mustHaveChainHeadBy_synced Nat Nat (List Nat) _ _ [7] _ (fun b => beq_self_eq_true b)
    [1] [.readExpHead (some [1]), .launch, .startWaiter, .poll 0 (some [1]), .wgWait, .recvDone]
    (by simp [SyncedMove]) rfl⟩

end Synced

/-! ## After a timeout -/

section Leak

variable {Peer Blk Set : Type} {cidSet : List Blk → Set} {equals : Set → Set → Bool}
  {peers : List Peer} {s s' : HeadState Peer Set}

/-- Once the test goroutine has failed, a move is a poll or the waiter passing `wg.Wait()`:
the test goroutine stays failed and the waiter moves at most from `wg.Wait()` to the send. -/
theorem failed_step {a : HeadAction Blk} (hf : s.coord = .failed)
    (h : headStep cidSet equals peers a s = some s') :
    s'.coord = .failed ∧
      (s'.waiter = s.waiter ∨ s.waiter = .waiting ∧ s'.waiter = .sending) := by
  cases a with
  | readExpHead obs => exact absurd (headStep_readExpHead.1 h).1 (by rw [hf]; decide)
  | launch => exact absurd (headStep_launch.1 h).1 (by rw [hf]; decide)
  | startWaiter => exact absurd (headStep_startWaiter.1 h).1 (by rw [hf]; decide)
  | poll i obs =>
    obtain ⟨p, e, -, -, rfl⟩ := headStep_poll.1 h
    exact ⟨(pollStep_coord_waiter e i p obs).1.trans hf,
      .inl (pollStep_coord_waiter e i p obs).2⟩
  | wgWait =>
    obtain ⟨hw, -, rfl⟩ := headStep_wgWait.1 h
    exact ⟨hf, .inr ⟨hw, rfl⟩⟩
  | recvDone => exact absurd (headStep_recvDone.1 h).2.1 (by rw [hf]; decide)
  | timeout => exact absurd (headStep_timeout.1 h).1 (by rw [hf]; decide)

/-- Along every run from a failed state the test goroutine stays failed, the waiter never
finishes, and a waiter blocked in the send stays blocked. -/
theorem failed_run {bs : List (HeadAction Blk)} {t : HeadState Peer Set}
    (hf : s.coord = .failed) (hw : s.waiter ≠ .finished)
    (ht : headRun cidSet equals peers bs s = some t) :
    t.coord = .failed ∧ t.waiter ≠ .finished ∧
      (s.waiter = .sending → t.waiter = .sending) :=
  runSteps_preserves _
    (fun u => u.coord = .failed ∧ u.waiter ≠ .finished ∧
      (s.waiter = .sending → u.waiter = .sending))
    (fun _ => True)
    (fun _ u u' _ ⟨huf, huw, hus⟩ h => by
      obtain ⟨hf', hw' | ⟨hwait, hsend⟩⟩ := failed_step huf h
      · exact ⟨hf', hw' ▸ huw, fun h => hw' ▸ hus h⟩
      · exact ⟨hf', by rw [hsend]; decide, fun h => by rw [hus h] at hwait; cases hwait⟩)
    (fun _ _ => trivial) ⟨hf, hw, id⟩ ht

/-- In a failed state the peer goroutines, if any were launched, have `expHead` to compare
with, and the waiter has not finished. -/
theorem HeadInv.of_failed (hi : HeadInv equals peers s) (hf : s.coord = .failed) :
    (s.pollers = [] ∨ ∃ e, s.expHead = some e) ∧ s.waiter ≠ .finished := by
  have hphase := hi.phase
  unfold Phase at hphase
  rw [hf] at hphase
  rcases hphase with ⟨-, hnil, hw⟩ | ⟨he, -, hw⟩
  · exact ⟨.inl hnil, by rw [hw]; decide⟩
  · refine ⟨.inr (Option.isSome_iff_exists.1 he), ?_⟩
    rcases hw with hw | hw <;> rw [hw] <;> decide

/-- **After a timeout the goroutines leak.**  From every reachable state where the call has
failed, along every continuation: the test goroutine stays failed, the waiter goroutine never
finishes, a waiter already in `done <- struct{}{}` stays blocked there (nothing receives on
the unbuffered channel any more), and every peer goroutine still in its loop can go on
polling its peer. -/
theorem mustHaveChainHeadBy_timeout_leaks {as bs : List (HeadAction Blk)} {t : HeadState Peer Set}
    (h : headRun cidSet equals peers as (HeadState.init Peer Set) = some s)
    (hf : s.coord = .failed) (ht : headRun cidSet equals peers bs s = some t) :
    t.coord = .failed ∧ t.waiter ≠ .finished ∧ (s.waiter = .sending → t.waiter = .sending) ∧
      ∀ i p obs, t.pollers[i]? = some (.polling p) →
        (headStep cidSet equals peers (.poll i obs) t).isSome := by
  obtain ⟨htf, htw, hts⟩ := failed_run hf ((headInv_run h).of_failed hf).2 ht
  refine ⟨htf, htw, hts, fun i p obs hp => ?_⟩
  rcases ((headInv_run (runSteps_trans _ h ht)).of_failed htf).1 with hnil | ⟨e, he⟩
  · simp [hnil] at hp
  · simp [headStep_poll.2 ⟨p, e, hp, he, rfl⟩]

/-- One peer; the `select` takes the timeout before the peer matches.  The peer goroutine
polls on, matches, and the waiter then passes `wg.Wait()` into a send nobody receives. -/
theorem mustHaveChainHeadBy_timeout_one_peer :
    ∃ s t : HeadState Nat (List Nat),
      headRun (fun blks : List Nat => blks) (· == ·) [7]
          [.readExpHead (some [1]), .launch, .startWaiter, .timeout]
          (HeadState.init Nat (List Nat)) = some s ∧ s.coord = .failed ∧
        headRun (fun blks : List Nat => blks) (· == ·) [7]
          [.poll 0 (some [2]), .poll 0 (some [1]), .wgWait] s = some t ∧
        t.waiter = .sending ∧
        (t.coord = .failed ∧ t.waiter ≠ .finished ∧ (s.waiter = .sending → t.waiter = .sending) ∧
          ∀ i p obs, t.pollers[i]? = some (.polling p) →
            (headStep (fun blks : List Nat => blks) (· == ·) [7] (.poll i obs) t).isSome) :=
  ⟨_, _, rfl, rfl, rfl, rfl, @mustHaveChainHeadBy_timeout_leaks Nat Nat (List Nat) _ _ [7] _
    [.readExpHead (some [1]), .launch, .startWaiter, .timeout]
    [.poll 0 (some [2]), .poll 0 (some [1]), .wgWait] _ rfl rfl rfl⟩

end Leak

end FilecoinHarness
