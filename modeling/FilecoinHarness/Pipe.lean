import Mathlib.Data.List.Basic

/-!
# Pipes from a child process to the harness

`cmd.StdoutPipe()` and `cmd.StderrPipe()` connect a child's output to the harness through OS
pipes: FIFO byte buffers.  `C` is the number of bytes a pipe is guaranteed to accept while
none is read; a write past it blocks.  It is not the kernel's nominal pipe size: a Linux pipe
holds 16 page slots and small unread writes can fill them after far fewer bytes, so on a real
system the model's threshold is an upper bound.  A read blocks while the pipe is empty and its
write end is open.  Whether the write end is closed (the child has exited) is kept by each
system that uses a pipe.

* `Pipe C` — the unread bytes, oldest first, with `buf.length ≤ C` as a field.
* `Pipe.write?` / `Pipe.read?` — one byte in, one byte out; `none` when the call blocks.
* `Stream`, `Write` — a child's output is a finite list of writes of any size to stdout or
  stderr.  A write of `n` bytes moves into its pipe byte by byte as room appears (the
  blocking `write(2)` on a pipe), so a script runs as its flattened bytes `toBytes`.
* `Writer C` — the writing side: the bytes still to write and the two pipes.
  `Writer.write?` writes the next byte, `Writer.take?` is the reader taking the oldest byte
  of one pipe.

`Writer.write?_conserve` and `Writer.take?_conserve` say that neither step loses or
duplicates a byte; the systems of `RunWithStdin` and of a daemon's lifetime build their
invariants on them.
-/

set_option autoImplicit false

namespace FilecoinHarness

/-- The two output streams of a child process. -/
inductive Stream where
  | stdout
  | stderr
  deriving DecidableEq, Repr

/-- One write of a child's script. -/
structure Write where
  stream : Stream
  bytes : List Char
  deriving DecidableEq, Repr

/-- A script as the bytes it moves, in order, each tagged with its stream. -/
def toBytes (script : List Write) : List (Stream × Char) :=
  script.flatMap fun w => w.bytes.map (w.stream, ·)

/-- The bytes of `l` bound for stream `x`, in order. -/
def bytesOn (x : Stream) (l : List (Stream × Char)) : List Char :=
  (l.filter (·.1 == x)).map (·.2)

/-- Everything `script` writes to stream `x`, concatenated. -/
def written (x : Stream) (script : List Write) : List Char :=
  (script.filter (·.stream == x)).flatMap (·.bytes)

@[simp] theorem bytesOn_nil (x : Stream) : bytesOn x [] = [] := rfl

@[simp] theorem bytesOn_cons_self (x : Stream) (c : Char) (l : List (Stream × Char)) :
    bytesOn x ((x, c) :: l) = c :: bytesOn x l := by
  simp [bytesOn]

@[simp] theorem bytesOn_cons_of_ne {x y : Stream} (h : y ≠ x) (c : Char)
    (l : List (Stream × Char)) : bytesOn x ((y, c) :: l) = bytesOn x l := by
  simp [bytesOn, h]

theorem bytesOn_toBytes (x : Stream) (script : List Write) :
    bytesOn x (toBytes script) = written x script := by
  induction script with
  | nil => rfl
  | cons w ws ih =>
    by_cases h : w.stream = x <;>
      simp_all [bytesOn, toBytes, written, List.filter_map, Function.comp_def]

@[simp] theorem bytesOn_append (x : Stream) (l l' : List (Stream × Char)) :
    bytesOn x (l ++ l') = bytesOn x l ++ bytesOn x l' := by
  simp [bytesOn]

/-- A pipe that accepts `C` unread bytes: the bytes written and not yet read, oldest first. -/
structure Pipe (C : Nat) where
  buf : List Char
  bounded : buf.length ≤ C

variable {C : Nat}

@[ext] theorem Pipe.ext {p q : Pipe C} (h : p.buf = q.buf) : p = q := by
  cases p; cases q; cases h; rfl

/-- An empty pipe. -/
def Pipe.empty (C : Nat) : Pipe C := ⟨[], Nat.zero_le _⟩

/-- A one-byte `write(2)`: `none` while the pipe is full. -/
def Pipe.write? (p : Pipe C) (c : Char) : Option (Pipe C) :=
  if h : p.buf.length < C then some ⟨p.buf ++ [c], by simpa using h⟩ else none

/-- A one-byte `read(2)`: the oldest byte and the rest, `none` while the pipe is empty. -/
def Pipe.read? (p : Pipe C) : Option (Char × Pipe C) :=
  match h : p.buf with
  | [] => none
  | c :: rest => some (c, ⟨rest, by have := p.bounded; simp only [h, List.length_cons] at this; omega⟩)

theorem Pipe.write?_eq_some {p q : Pipe C} {c : Char} :
    p.write? c = some q ↔ p.buf.length < C ∧ q.buf = p.buf ++ [c] := by
  unfold Pipe.write?
  split
  · simp only [Option.some.injEq]
    exact ⟨fun h => h ▸ ⟨‹_›, rfl⟩, fun h => Pipe.ext h.2.symm⟩
  · simp_all

theorem Pipe.write?_eq_none {p : Pipe C} {c : Char} : p.write? c = none ↔ p.buf.length = C := by
  have := p.bounded
  unfold Pipe.write?
  split <;> simp <;> omega

theorem Pipe.read?_eq_some {p q : Pipe C} {c : Char} :
    p.read? = some (c, q) ↔ p.buf = c :: q.buf := by
  unfold Pipe.read?
  split
  · simp_all
  · rename_i d rest h
    simp only [h, Option.some.injEq, Prod.mk.injEq, List.cons.injEq]
    exact ⟨fun ⟨h1, h2⟩ => ⟨h1, h2 ▸ rfl⟩, fun ⟨h1, h2⟩ => ⟨h1, Pipe.ext h2⟩⟩

theorem Pipe.read?_eq_none {p : Pipe C} : p.read? = none ↔ p.buf = [] := by
  unfold Pipe.read?
  split <;> simp_all

/-- The writing side of a child process: its bytes still to write and its two pipes. -/
structure Writer (C : Nat) where
  pending : List (Stream × Char)
  out : Pipe C
  err : Pipe C

/-- A child about to run `script`, with both pipes empty. -/
def Writer.init (C : Nat) (script : List Write) : Writer C :=
  ⟨toBytes script, .empty C, .empty C⟩

/-- The pipe of stream `x`. -/
def Writer.pipe (w : Writer C) : Stream → Pipe C
  | .stdout => w.out
  | .stderr => w.err

/-- Replace the pipe of stream `x`. -/
def Writer.setPipe (w : Writer C) (x : Stream) (p : Pipe C) : Writer C :=
  match x with
  | .stdout => { w with out := p }
  | .stderr => { w with err := p }

@[simp] theorem Writer.pipe_setPipe_self (w : Writer C) (x : Stream) (p : Pipe C) :
    (w.setPipe x p).pipe x = p := by
  cases x <;> rfl

@[simp] theorem Writer.pipe_setPipe_of_ne (w : Writer C) {x y : Stream} (h : y ≠ x)
    (p : Pipe C) : (w.setPipe x p).pipe y = w.pipe y := by
  cases x <;> cases y <;> first | rfl | exact absurd rfl h

@[simp] theorem Writer.pending_setPipe (w : Writer C) (x : Stream) (p : Pipe C) :
    (w.setPipe x p).pending = w.pending := by
  cases x <;> rfl

@[simp] theorem Writer.pipe_withPending (w : Writer C) (l : List (Stream × Char)) (y : Stream) :
    ({ w with pending := l } : Writer C).pipe y = w.pipe y := by
  cases y <;> rfl

@[simp] theorem Writer.pending_init (script : List Write) :
    (Writer.init C script).pending = toBytes script := rfl

@[simp] theorem Writer.pipe_init (script : List Write) (x : Stream) :
    ((Writer.init C script).pipe x).buf = [] := by
  cases x <;> rfl

/-- The child writes its next byte: `none` when its script is done or the pipe the byte goes
to is full. -/
def Writer.write? (w : Writer C) : Option (Writer C) :=
  match w.pending with
  | [] => none
  | (x, c) :: rest => ((w.pipe x).write? c).map fun p => { w with pending := rest }.setPipe x p

/-- The reader of pipe `x` takes its oldest byte: `none` while the pipe is empty. -/
def Writer.take? (w : Writer C) (x : Stream) : Option (Char × Writer C) :=
  (w.pipe x).read?.map fun r => (r.1, w.setPipe x r.2)

/-- The child is blocked: its next byte goes to a full pipe. -/
def Writer.Blocked (w : Writer C) (x : Stream) : Prop :=
  ∃ c rest, w.pending = (x, c) :: rest ∧ (w.pipe x).buf.length = C

/-- What stream `x` still holds for its reader: the bytes in the pipe, then the unwritten. -/
def Writer.queued (w : Writer C) (x : Stream) : List Char :=
  (w.pipe x).buf ++ bytesOn x w.pending

theorem Writer.write?_eq_none (w : Writer C) :
    w.write? = none ↔ w.pending = [] ∨ ∃ x, w.Blocked x := by
  unfold Writer.write? Writer.Blocked
  split
  · simp_all
  · rename_i x c rest h
    simp [h, Pipe.write?_eq_none]

/-- The child can write its next byte when that byte's pipe has room. -/
theorem Writer.write?_of_room {w : Writer C} {x : Stream} {c : Char} {rest : List (Stream × Char)}
    (hp : w.pending = (x, c) :: rest) (hroom : (w.pipe x).buf.length < C) :
    ∃ w', w.write? = some w' := by
  refine Option.ne_none_iff_exists'.1 fun h => ?_
  rcases (Writer.write?_eq_none w).1 h with h | ⟨y, c', rest', hy, hfull⟩
  · simp [hp] at h
  · rw [hp] at hy
    obtain ⟨⟨rfl, -⟩, -⟩ := List.cons.inj hy
    omega

/-- Writing moves a byte from the script into its pipe: nothing is lost or duplicated. -/
theorem Writer.write?_conserve {w w' : Writer C} (h : w.write? = some w') (y : Stream) :
    w'.queued y = w.queued y := by
  unfold Writer.write? at h
  split at h
  · cases h
  · rename_i x c rest hp
    obtain ⟨p, hw, rfl⟩ := Option.map_eq_some'.1 h
    obtain ⟨-, hbuf⟩ := Pipe.write?_eq_some.1 hw
    by_cases hy : y = x
    · subst hy
      simp [Writer.queued, hp, hbuf]
    · simp [Writer.queued, hp, Writer.pipe_setPipe_of_ne _ hy, bytesOn_cons_of_ne (Ne.symm hy)]

/-- Writing takes the head of the script. -/
theorem Writer.write?_pending {w w' : Writer C} (h : w.write? = some w') :
    ∃ x c, w.pending = (x, c) :: w'.pending := by
  unfold Writer.write? at h
  split at h
  · cases h
  · rename_i x c rest hp
    obtain ⟨p, -, rfl⟩ := Option.map_eq_some'.1 h
    exact ⟨x, c, by simp [hp]⟩

theorem Writer.take?_eq_some {w w' : Writer C} {x : Stream} {c : Char} :
    w.take? x = some (c, w') ↔ ∃ p, (w.pipe x).read? = some (c, p) ∧ w.setPipe x p = w' := by
  simp only [Writer.take?, Option.map_eq_some', Prod.exists, Prod.mk.injEq]
  exact ⟨fun ⟨_, p, h, rfl, hw⟩ => ⟨p, h, hw⟩, fun ⟨p, h, hw⟩ => ⟨c, p, h, rfl, hw⟩⟩

/-- Taking the oldest byte of pipe `x`: it leaves that stream's queue and no other. -/
theorem Writer.take?_conserve {w w' : Writer C} {x : Stream} {c : Char}
    (h : w.take? x = some (c, w')) (y : Stream) :
    (if y = x then [c] else []) ++ w'.queued y = w.queued y ∧ w'.pending = w.pending := by
  unfold Writer.take? at h
  obtain ⟨⟨d, p⟩, hr, he⟩ := Option.map_eq_some'.1 h
  simp only [Prod.mk.injEq] at he
  obtain ⟨rfl, rfl⟩ := he
  have hbuf := Pipe.read?_eq_some.1 hr
  by_cases hy : y = x
  · subst hy; simp [Writer.queued, hbuf]
  · simp [Writer.queued, hy, Writer.pipe_setPipe_of_ne _ hy]

/-- Taking from pipe `y` leaves the other pipe alone. -/
theorem Writer.take?_pipe_of_ne {w w' : Writer C} {x y : Stream} {c : Char}
    (h : w.take? y = some (c, w')) (hx : x ≠ y) : w'.pipe x = w.pipe x := by
  obtain ⟨p, -, rfl⟩ := Writer.take?_eq_some.1 h
  exact Writer.pipe_setPipe_of_ne _ hx _

theorem Writer.take?_eq_none (w : Writer C) (x : Stream) :
    w.take? x = none ↔ (w.pipe x).buf = [] := by
  simp [Writer.take?, Pipe.read?_eq_none]

end FilecoinHarness
