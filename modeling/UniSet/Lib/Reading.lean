/-
**Words read off the front of a text.**

A reader takes a word off the front of a text and returns a value with the rest of the text; it may
refuse. A text of fields is read by a loop: one step takes one field and goes on with another state,
until the text is at its end.

* `Reads read word a` — whatever stands behind the word, the reader takes the word and gives `a`.
* `fields` — the loop.
* `Takes step s text t` — the text is a sequence of words that take the state `s` to `t`;
  `Takes.append`: one text after another.
* **`Takes.fields`** — such a text is read to its end and leaves the last state.
-/

import Mathlib.Data.List.Basic

namespace UniSet.Lib

variable {Symbol Value State : Type*}

/-- A reader. -/
abbrev Reader (Symbol Value : Type*) := List Symbol → Option (Value × List Symbol)

/-- The reader takes exactly the word off every text that begins with it. -/
def Reads (read : Reader Symbol Value) (word : List Symbol) (a : Value) : Prop :=
  ∀ rest, read (word ++ rest) = some (a, rest)

/-- One reader after another, with what is made of both values. -/
theorem Reads.bind {Other : Type*} {read : Reader Symbol Value} {word more : List Symbol} {a : Value}
    {b : Other} {next : Value → Reader Symbol Other} (first : Reads read word a)
    (second : Reads (next a) more b) :
    Reads (fun text => (read text).bind fun got => next got.1 got.2) (word ++ more) b := by
  intro rest
  dsimp only
  rw [List.append_assoc, first, Option.bind_some]
  exact second rest

theorem Reads.map {Other : Type*} {read : Reader Symbol Value} {word : List Symbol} {a : Value}
    (reads : Reads read word a) (f : Value → Other) :
    Reads (fun text => (read text).map fun got => (f got.1, got.2)) word (f a) := by
  intro rest
  dsimp only
  rw [reads, Option.map_some]

/-- At most `n` fields are taken. -/
def fieldsWithin (step : State → Reader Symbol State) : Nat → State → List Symbol → Option State
  | _, s, [] => some s
  | 0, _, _ :: _ => none
  | n + 1, s, symbol :: text =>
    (step s (symbol :: text)).bind fun got => fieldsWithin step n got.1 got.2

/-- **The loop over the fields** of a text. A field has a symbol at least, so there are no more fields
than symbols. -/
def fields (step : State → Reader Symbol State) (s : State) (text : List Symbol) : Option State :=
  fieldsWithin step text.length s text

/-- **The text takes `s` to `t`**, one word after another. -/
inductive Takes (step : State → Reader Symbol State) : State → List Symbol → State → Prop
  | done (s : State) : Takes step s [] s
  | field {s t u : State} {word text : List Symbol} (some : word ≠ []) (reads : Reads (step s) word t)
      (more : Takes step t text u) : Takes step s (word ++ text) u

variable {step : State → Reader Symbol State} {s t u : State}

theorem Takes.single {word : List Symbol} (some : word ≠ []) (reads : Reads (step s) word t) :
    Takes step s word t := by
  rw [← List.append_nil word]
  exact .field some reads (.done t)

/-- **One text after another.** -/
theorem Takes.append {text more : List Symbol} (first : Takes step s text t)
    (second : Takes step t more u) : Takes step s (text ++ more) u := by
  induction first with
  | done s => exact second
  | field some reads _ ih =>
    rw [List.append_assoc]
    exact .field some reads (ih second)

/-- **A text of words is read to its end.** -/
theorem Takes.fieldsWithin {text : List Symbol} (takes : Takes step s text t) {n : Nat}
    (enough : text.length ≤ n) : Lib.fieldsWithin step n s text = some t := by
  induction takes generalizing n with
  | done s => rw [Lib.fieldsWithin]
  | @field s t u word text some reads _ ih =>
    obtain ⟨symbol, word, rfl⟩ := List.exists_cons_of_ne_nil some
    rw [List.length_append, List.length_cons] at enough
    cases n with
    | zero => omega
    | succ n =>
      rw [List.cons_append, Lib.fieldsWithin, ← List.cons_append, reads, Option.bind_some]
      exact ih (by omega)

theorem Takes.fields {text : List Symbol} (takes : Takes step s text t) :
    Lib.fields step s text = some t :=
  takes.fieldsWithin (Nat.le_refl _)

end UniSet.Lib
