import Mathlib.Data.List.Basic
import Mathlib.Data.List.Infix

/-!
# Go's `strings` functions used by the harness

`testhelpers/commands.go` splits, joins and trims command lines and command output with Go's
standard library.  A Go string is modelled by a Lean `String`, that is by its list of
characters; every separator and cutset the harness passes (`" "`, `"\n"`, `'\n'`) is one
ASCII character, so reading the string byte by byte or character by character gives the same
pieces.

* `split` — `strings.Split(s, sep)` and `bytes.Split(s, sep)` for a one-character `sep`: the
  pieces between consecutive separators, `Count(s, sep) + 1` of them (`length_split`).
* `join` — `strings.Join(elems, sep)`.
* `trim` — `strings.Trim(s, cutset)` for a one-character cutset.
* `contains` — `strings.Contains(s, substr)`.

Laws: `split_ne_nil`, `not_mem_of_mem_split` (no piece holds the separator), `join_split`
(splitting loses nothing) and `split_join` (tokens free of the separator survive a join and a
split); `split_trim_pad_join` adds `Trim` to the last, for text padded with separators.  The last two are Mathlib's `List.intercalate_splitOn` and `List.splitOn_intercalate`
read through the `String` wrapper.
-/

set_option autoImplicit false

namespace FilecoinHarness

/-- `strings.Split(s, string(sep))`. -/
def split (s : String) (sep : Char) : List String :=
  (s.data.splitOn sep).map String.mk

/-- `strings.Join(elems, sep)`. -/
def join (elems : List String) (sep : String) : String :=
  ⟨sep.data.intercalate (elems.map String.data)⟩

/-- `strings.Trim(s, string(c))`: every leading and every trailing `c` removed. -/
def trim (s : String) (c : Char) : String :=
  ⟨((s.data.dropWhile (· == c)).reverse.dropWhile (· == c)).reverse⟩

/-- `strings.Contains(s, substr)`. -/
def contains (s substr : String) : Bool :=
  decide (substr.data <:+: s.data)

@[simp] theorem join_singleton (a sep : String) : join [a] sep = a := by
  simp [join, List.intercalate]

theorem not_mem_of_mem_splitOn (sep : Char) (xs : List Char) :
    ∀ l ∈ xs.splitOn sep, sep ∉ l := by
  induction xs with
  | nil => simp [List.splitOn, List.splitOnP, List.splitOnP.go]
  | cons x xs ih =>
    simp only [List.splitOn, List.splitOnP_cons] at ih ⊢
    split
    · simpa using ih
    · rename_i hx
      obtain ⟨w, ws, hw⟩ := List.exists_cons_of_ne_nil (List.splitOnP_ne_nil (· == sep) xs)
      simp only [hw, List.modifyHead_cons, List.mem_cons, forall_eq_or_imp] at ih ⊢
      refine ⟨?_, ih.2⟩
      simp only [List.mem_cons, not_or]
      exact ⟨fun h => hx (by simp [h]), ih.1⟩

theorem split_ne_nil (s : String) (sep : Char) : split s sep ≠ [] := by
  simpa [split] using List.splitOnP_ne_nil _ s.data

/-- No piece of a split holds the separator. -/
theorem not_mem_of_mem_split {s t : String} {sep : Char} (h : t ∈ split s sep) :
    sep ∉ t.data := by
  obtain ⟨l, hl, rfl⟩ := List.mem_map.1 h
  exact not_mem_of_mem_splitOn sep s.data l hl

/-- **Splitting loses nothing**: joining the pieces with the separator gives `s` back. -/
theorem join_split (s : String) (sep : Char) : join (split s sep) ⟨[sep]⟩ = s := by
  have hid : String.data ∘ String.mk = id := rfl
  simp only [join, split, List.map_map, hid, List.map_id, List.intercalate_splitOn]

/-- **Joining then splitting is the identity** on non-empty lists of tokens that do not hold
the separator. -/
theorem split_join {ts : List String} {sep : Char} (h : ∀ t ∈ ts, sep ∉ t.data)
    (hne : ts ≠ []) : split (join ts ⟨[sep]⟩) sep = ts := by
  have hdata : ∀ l ∈ ts.map String.data, sep ∉ l := by
    simpa using h
  simp only [split, join]
  rw [List.splitOn_intercalate _ sep hdata (by simpa using hne), List.map_map]
  exact (List.map_id' _).trans rfl

/-- Go's documented piece count: `Count(s, sep) + 1`. -/
theorem length_split (s : String) (sep : Char) :
    (split s sep).length = s.data.count sep + 1 := by
  simp only [split, List.length_map, List.splitOn]
  induction s.data with
  | nil => rfl
  | cons x xs ih =>
    obtain ⟨w, ws, hw⟩ := List.exists_cons_of_ne_nil (List.splitOnP_ne_nil (· == sep) xs)
    rw [List.splitOnP_cons, List.count_cons]
    split <;> simp_all

/-! ## Padded lines -/

/-- Dropping leading `c`s removes a run of them in front of a text that does not start with
`c`. -/
theorem dropWhile_replicate_append (c : Char) (j : Nat) {y : List Char} (hy : y.head? ≠ some c) :
    (List.replicate j c ++ y).dropWhile (· == c) = y := by
  induction j with
  | zero =>
    cases y with
    | nil => rfl
    | cons a y => exact List.dropWhile_cons_of_neg (by simpa using hy)
  | succ j ih =>
    rw [List.replicate_succ, List.cons_append, List.dropWhile_cons_of_pos (by simp), ih]

/-- `strings.Trim(s, c)` removes exactly the run of `c`s on each side of a text that neither
starts nor ends with `c`. -/
theorem trim_pad (c : Char) (j k : Nat) {x : List Char} (hh : x.head? ≠ some c)
    (hl : x.getLast? ≠ some c) :
    trim ⟨List.replicate j c ++ x ++ List.replicate k c⟩ c = ⟨x⟩ := by
  rcases x with _ | ⟨a, x⟩
  · simp [trim, List.dropWhile_replicate]
  · have hy : (a :: x ++ List.replicate k c).head? ≠ some c := by simpa using hh
    have hr : (a :: x).reverse.head? ≠ some c := by rwa [List.head?_reverse]
    simp only [trim, List.append_assoc, dropWhile_replicate_append c j hy, List.reverse_append,
      List.reverse_replicate, dropWhile_replicate_append c k hr, List.reverse_reverse]

theorem intercalate_cons_of_ne_nil {α : Type} (sep x : List α) {xs : List (List α)}
    (h : xs ≠ []) : sep.intercalate (x :: xs) = x ++ sep ++ sep.intercalate xs := by
  obtain ⟨y, ys, rfl⟩ := List.exists_cons_of_ne_nil h
  simp [List.intercalate]

/-- A join starts with its first element. -/
theorem head?_join {l : String} {rest : List String} {sep : String} (hl : l.data ≠ []) :
    (join (l :: rest) sep).data.head? = l.data.head? := by
  cases rest with
  | nil => simp
  | cons m rest =>
    simp only [join, List.map_cons]
    rw [intercalate_cons_of_ne_nil _ _ (List.cons_ne_nil _ _), List.append_assoc,
      List.head?_append_of_ne_nil _ hl]

/-- A join ends with its last element. -/
theorem getLast?_join (init : List String) {l : String} {sep : String} (hl : l.data ≠ []) :
    (join (init ++ [l]) sep).data.getLast? = l.data.getLast? := by
  induction init with
  | nil => simp
  | cons m init ih =>
    simp only [join, List.map_cons, List.cons_append, List.map_append, List.map_nil] at ih ⊢
    have hne : sep.data.intercalate (init.map String.data ++ [l.data]) ≠ [] := fun h => by
      rw [h, List.getLast?_nil, eq_comm, List.getLast?_eq_none_iff] at ih
      exact hl ih
    rw [intercalate_cons_of_ne_nil _ _ (by simp), List.getLast?_append_of_ne_nil _ hne, ih]

/-- **Lines round trip**: lines free of `c` joined by `c`, padded with any number of `c`s on
each side, come back from `Trim` and `Split` when the first and the last line are non-empty
(an empty one there would be taken for padding). -/
theorem split_trim_pad_join {L : List String} {c : Char} (hL : ∀ l ∈ L, c ∉ l.data)
    (hne : L ≠ []) (hhead : L.head? ≠ some "") (hlast : L.getLast? ≠ some "") (j k : Nat) :
    split (trim ⟨List.replicate j c ++ (join L ⟨[c]⟩).data ++ List.replicate k c⟩ c) c = L := by
  have hh : (join L ⟨[c]⟩).data.head? ≠ some c := by
    obtain ⟨l, rest, rfl⟩ := List.exists_cons_of_ne_nil hne
    have hl : l.data ≠ [] := fun h => hhead (by rw [show l = "" from String.ext h]; rfl)
    rw [head?_join hl]
    exact fun h => hL l (List.mem_cons_self _ _) (List.mem_of_mem_head? h)
  have hl : (join L ⟨[c]⟩).data.getLast? ≠ some c := by
    obtain ⟨init, l, rfl⟩ := (List.eq_nil_or_concat L).resolve_left hne
    rw [List.concat_eq_append] at hL hlast ⊢
    have hl : l.data ≠ [] := fun h =>
      hlast (by rw [List.getLast?_concat, show l = "" from String.ext h])
    rw [getLast?_join init hl]
    exact fun h => hL l (by simp) (List.mem_of_mem_getLast? h)
  rw [trim_pad c j k hh hl]
  exact split_join hL hne

end FilecoinHarness
