/-
**The lines of a text, whatever its pieces.**

A text over any alphabet is cut at a break symbol, which is dropped.

* `cut`, `feed` — a cutter that is fed with symbols: the complete lines so far and the begun one.
* `lines` — the lines of a whole text.
* `feed_append` — it does not matter how the text is cut into pieces.
* `feed_break` — a piece up to its first break ends the begun line.
* `feed_size`, `feed_count` — no symbol is lost, and there is a line for every break.
* `first_break` — where the first break of a text is.
-/

import Mathlib.Algebra.GroupWithZero.Nat
import Mathlib.Data.List.Basic

namespace UniSet.Lib

section Lines

variable {α : Type*} [DecidableEq α] (nl : α)

/-- One symbol for the cutter. -/
def cut (s : List (List α) × List α) (c : α) : List (List α) × List α :=
  if c = nl then (s.1 ++ [s.2], []) else (s.1, s.2 ++ [c])

/-- **The cutter** after more text: the complete lines and the begun one. -/
def feed (s : List (List α) × List α) (text : List α) : List (List α) × List α := text.foldl (cut nl) s

/-- **The lines of a text**, one that does not end included. -/
def lines (text : List α) : List (List α) :=
  let read := feed nl ([], []) text
  read.1 ++ if read.2 = [] then [] else [read.2]

variable {nl} {lines : List (List α)} {begun a b : List α}

variable {s : List (List α) × List α}

/-- **Pieces do not show.** -/
theorem feed_append : feed nl s (a ++ b) = feed nl (feed nl s a) b :=
  List.foldl_append

@[simp] theorem feed_nil : feed nl s [] = s := rfl

theorem feed_of_not_mem (unbroken : nl ∉ a) : feed nl (lines, begun) a = (lines, begun ++ a) := by
  induction a generalizing begun with
  | nil => rw [feed_nil, List.append_nil]
  | cons c a ih =>
    rw [List.mem_cons, not_or] at unbroken
    show feed nl (cut nl (lines, begun) c) a = _
    rw [cut, if_neg (Ne.symm unbroken.1), ih unbroken.2, List.append_assoc, List.singleton_append]

/-- **A break ends the begun line.** -/
theorem feed_break (unbroken : nl ∉ a) :
    feed nl (lines, begun) (a ++ nl :: b) = feed nl (lines ++ [begun ++ a], []) b := by
  rw [feed_append, feed_of_not_mem unbroken]
  show feed nl (cut nl (lines, begun ++ a) nl) b = _
  rw [cut, if_pos rfl]

theorem feed_lines (lines : List (List α)) (begun : List α) :
    feed nl (lines, begun) a = (lines ++ (feed nl ([], begun) a).1, (feed nl ([], begun) a).2) := by
  induction a generalizing lines begun with
  | nil => rw [feed_nil, feed_nil, List.append_nil]
  | cons c a ih =>
    show feed nl (cut nl (lines, begun) c) a = (lines ++ (feed nl (cut nl ([], begun) c) a).1,
      (feed nl (cut nl ([], begun) c) a).2)
    rw [cut, cut]
    split
    · rw [ih (lines ++ [begun]) [], ih ([] ++ [begun]) [], List.nil_append, List.append_assoc]
    · exact ih lines _

/-- The symbols of complete lines with their breaks. -/
def size (lines : List (List α)) : Nat := (lines.map fun line => line.length + 1).sum

omit [DecidableEq α] in
@[simp] theorem size_append {more : List (List α)} : size (lines ++ more) = size lines + size more := by
  simp [size]

omit [DecidableEq α] in
@[simp] theorem size_singleton : size [a] = a.length + 1 := by
  simp [size]

/-- **No symbol is lost.** -/
theorem feed_size :
    size (feed nl s a).1 + (feed nl s a).2.length = size s.1 + s.2.length + a.length := by
  induction a generalizing s with
  | nil => simp
  | cons c a ih =>
    show size (feed nl (cut nl s c) a).1 + (feed nl (cut nl s c) a).2.length = _
    rw [ih, cut]
    split
    · simp only [size_append, size_singleton, List.length_nil, List.length_cons]
      omega
    · simp only [List.length_append, List.length_cons, List.length_nil]
      omega

/-- **Every break ends a line.** -/
theorem feed_count : (feed nl s a).1.length = s.1.length + a.count nl := by
  induction a generalizing s with
  | nil => simp
  | cons c a ih =>
    show (feed nl (cut nl s c) a).1.length = _
    rw [ih, cut, List.count_cons]
    split
    · simp_all [Nat.add_comm, Nat.add_left_comm]
    · simp_all

/-- A text that ends with a break leaves no line begun, any other does. -/
theorem feed_begun (some' : a ≠ []) : (feed nl s a).2 = [] ↔ a.getLast some' = nl := by
  obtain ⟨front, final, rfl⟩ := List.eq_nil_or_concat' a |>.resolve_left some'
  rw [feed_append, List.getLast_append_singleton]
  show (cut nl (feed nl s front) final).2 = [] ↔ _
  rw [cut]
  split
  · simp_all
  · simp_all

/-- **Where the first break is.** -/
theorem first_break {pos : Nat} (found : a.idxOf? nl = some pos) :
    pos < a.length ∧ nl ∉ a.take pos ∧ a = a.take pos ++ nl :: a.drop (pos + 1) := by
  rw [List.idxOf?, List.findIdx?_eq_some_iff_getElem] at found
  obtain ⟨inside, here, before⟩ := found
  have symbol : a[pos] = nl := by simpa using here
  refine ⟨inside, fun member => ?_, ?_⟩
  · obtain ⟨i, within, same⟩ := List.mem_iff_getElem.mp member
    rw [List.length_take] at within
    rw [List.getElem_take] at same
    exact before i (by omega) (by simpa using same)
  · rw [← symbol, List.getElem_cons_drop, List.take_append_drop]

end Lines

end UniSet.Lib
