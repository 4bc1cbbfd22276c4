/-
**The tokens of an SQL text.**

A text is read symbol by symbol. A literal stands between single quotes, where a doubled quote is one quote of the
literal and every other symbol stands for itself; outside of literals there are words and punctuation.

* `lex` — the tokens of a text, none if it ends within a literal.
* `InsertStmt` — an `INSERT` statement, and its tokens; `Reads` is a text that is such a statement.
* `run_literal`, `run_word`, `run_field` — how pieces of a text are read.
* **`literal_of_run`** — a literal that is read has stood in the text with its quotes doubled.
* **`no_quote_of_reads`** — a text that has been put between quotes as it is, and is read back, has no quote.
* `row_iff` — so it is for one value among others that have no quotes.
* `odd_quotes` — a text with an odd number of quotes is none at all.
-/

import Mathlib.Data.List.Basic
import Mathlib.Data.List.Infix
import Mathlib.Tactic.Tauto

namespace UniSet.Lib.Sql

/-- The single quote. -/
def quote : Char := Char.ofNat 39

/-- A token. -/
inductive Token where
  | literal (s : List Char)
  | word (s : List Char)
  | punct (c : Char)
deriving DecidableEq, Repr

/-- Where the reader is: in a word, which may be empty, in a literal, or behind a quote in one. -/
inductive Mode where
  | out (w : List Char)
  | inside (l : List Char)
  | closing (l : List Char)
deriving DecidableEq, Repr

/-- **The reader**: the tokens so far, and where it is. -/
structure Reader where
  done : List Token
  mode : Mode
deriving DecidableEq, Repr

def isBlank (c : Char) : Bool := c = ' ' || c = '\n' || c = '\t' || c = '\r'

def isPunct (c : Char) : Bool := c = '(' || c = ')' || c = ',' || c = ';'

/-- The tokens with a word that has ended. -/
def flush (done : List Token) (w : List Char) : List Token := if w = [] then done else done ++ [.word w]

/-- A symbol outside of literals. -/
def outside (done : List Token) (w : List Char) (c : Char) : Reader :=
  if c = quote then ⟨flush done w, .inside []⟩
  else if isBlank c then ⟨flush done w, .out []⟩
  else if isPunct c then ⟨flush done w ++ [.punct c], .out []⟩
  else ⟨done, .out (w ++ [c])⟩

/-- **One symbol.** -/
def step : Reader → Char → Reader
  | ⟨done, .out w⟩, c => outside done w c
  | ⟨done, .inside l⟩, c => if c = quote then ⟨done, .closing l⟩ else ⟨done, .inside (l ++ [c])⟩
  | ⟨done, .closing l⟩, c =>
    if c = quote then ⟨done, .inside (l ++ [quote])⟩ else outside (done ++ [.literal l]) [] c

/-- A piece of a text. -/
def run (r : Reader) (text : List Char) : Reader := text.foldl step r

/-- The tokens at the end of a text. -/
def finish (r : Reader) : Option (List Token) :=
  match r.mode with
  | .out w => some (flush r.done w)
  | .inside _ => none
  | .closing l => some (r.done ++ [.literal l])

/-- **The tokens of a text.** -/
def lex (text : List Char) : Option (List Token) := finish (run ⟨[], .out []⟩ text)

/-- **An `INSERT` statement**: each value is an expression without a comma of its own. -/
structure InsertStmt where
  table : List Char
  columns : List (List Char)
  values : List (List Token)
deriving DecidableEq

/-- The tokens before the values. -/
def InsertStmt.head (s : InsertStmt) : List Token :=
  [.word "INSERT".toList, .word "INTO".toList, .word s.table, .punct '('] ++
    [Token.punct ','].intercalate (s.columns.map fun c => [.word c]) ++
    [.punct ')', .word "VALUES".toList, .punct '(']

/-- The tokens of a statement. -/
def InsertStmt.tokens (s : InsertStmt) : List Token := s.head ++ [Token.punct ','].intercalate s.values ++ [.punct ')']

/-- **The text is one `INSERT` statement**, with as many values as columns; a semicolon may end it. -/
def Reads (text : List Char) (s : InsertStmt) : Prop :=
  s.columns.length = s.values.length ∧
    (lex text = some s.tokens ∨ lex text = some (s.tokens ++ [.punct ';']))

instance (text : List Char) (s : InsertStmt) : Decidable (Reads text s) :=
  inferInstanceAs (Decidable (_ ∧ (_ ∨ _)))

variable {r : Reader} {done tokens : List Token} {a b l w : List Char} {c : Char}

@[simp] theorem step_out : step ⟨done, .out w⟩ c = outside done w c := rfl

@[simp] theorem step_inside : step ⟨done, .inside l⟩ c =
    if c = quote then ⟨done, .closing l⟩ else ⟨done, .inside (l ++ [c])⟩ := rfl

@[simp] theorem step_closing : step ⟨done, .closing l⟩ c =
    if c = quote then ⟨done, .inside (l ++ [quote])⟩ else outside (done ++ [.literal l]) [] c := rfl

@[simp] theorem run_nil : run r [] = r := rfl

theorem run_cons : run r (c :: a) = run (step r c) a := rfl

theorem run_append : run r (a ++ b) = run (run r a) b := List.foldl_append

/-- **A literal without quotes** is read as it is. -/
theorem run_literal (plain : quote ∉ a) : run ⟨done, .inside l⟩ a = ⟨done, .inside (l ++ a)⟩ := by
  induction a generalizing l with
  | nil => rw [List.append_nil]; rfl
  | cons c a ih =>
    rw [List.mem_cons, not_or] at plain
    rw [run_cons, step_inside, if_neg (Ne.symm plain.1), ih plain.2, List.append_assoc, List.singleton_append]

/-- The symbols of words. -/
def IsWord (w : List Char) : Prop := ∀ c ∈ w, c ≠ quote ∧ isBlank c = false ∧ isPunct c = false

theorem run_word (word : IsWord a) : run ⟨done, .out w⟩ a = ⟨done, .out (w ++ a)⟩ := by
  induction a generalizing w with
  | nil => rw [List.append_nil]; rfl
  | cons c a ih =>
    obtain ⟨⟨notQuote, notBlank, notPunct⟩, later⟩ := List.forall_mem_cons.mp word
    rw [run_cons, step_out, outside, if_neg notQuote, notBlank, notPunct, if_neg Bool.false_ne_true,
      if_neg Bool.false_ne_true, ih later, List.append_assoc, List.singleton_append]

/-- **A field and the way to the next one.** -/
theorem run_field (plain : quote ∉ a) :
    run ⟨done, .inside []⟩ (a ++ [quote, ',', quote]) = ⟨done ++ [.literal a, .punct ','], .inside []⟩ := by
  rw [run_append, run_literal plain, List.nil_append]
  show Reader.mk (done ++ [.literal a] ++ [.punct ',']) (.inside []) = _
  rw [List.append_assoc, List.singleton_append]

/-- A text with its quotes doubled. -/
def escape (s : List Char) : List Char := s.flatMap fun c => if c = quote then [quote, quote] else [c]

theorem escape_quote (s : List Char) : escape (quote :: s) = [quote, quote] ++ escape s := by
  rw [escape, List.flatMap_cons, if_pos rfl]
  rfl

theorem escape_of_ne (notQuote : c ≠ quote) (s : List Char) : escape (c :: s) = c :: escape s := by
  rw [escape, List.flatMap_cons, if_neg notQuote]
  rfl

/-! ### What has been read -/

theorem prefix_flush : done <+: flush done w := by
  rw [flush]
  split
  · exact List.prefix_refl _
  · exact List.prefix_append _ _

theorem prefix_outside : done <+: (outside done w c).done := by
  rw [outside]
  split
  · exact prefix_flush
  split
  · exact prefix_flush
  split
  · exact prefix_flush.trans (List.prefix_append _ _)
  · exact List.prefix_refl _

theorem prefix_step : r.done <+: (step r c).done := by
  obtain ⟨done, _ | _ | l⟩ := r
  · exact prefix_outside
  · rw [step_inside]
    split <;> exact List.prefix_refl _
  · rw [step_closing]
    split
    · exact List.prefix_refl _
    · exact (List.prefix_append _ _).trans prefix_outside

/-- **The tokens of a piece stay.** -/
theorem prefix_of_finish (read : finish (run r a) = some tokens) : r.done <+: tokens := by
  induction a generalizing r with
  | nil =>
    obtain ⟨done, w | l | l⟩ := r
    · exact Option.some.inj read ▸ prefix_flush
    · cases read
    · exact Option.some.inj read ▸ List.prefix_append _ _
  | cons c a ih => exact prefix_step.trans (ih read)

/-- **A literal that is read** has stood in the text with its quotes doubled. -/
theorem literal_of_run : ∀ (a l : List Char), finish (run ⟨done, .inside l⟩ a) = some tokens →
    ∃ s, done ++ [.literal (l ++ s)] <+: tokens ∧ escape s ++ [quote] <+: a
  | [], l, read => absurd read (by simp [finish])
  | c :: a, l, read => by
    rw [run_cons, step_inside] at read
    by_cases ends : c = quote
    · rw [if_pos ends] at read
      cases a with
      | nil =>
        refine ⟨[], ?_, ?_⟩
        · rw [List.append_nil]
          exact Option.some.inj read ▸ List.prefix_refl _
        · exact ends ▸ List.prefix_refl _
      | cons d a =>
        rw [run_cons, step_closing] at read
        by_cases doubled : d = quote
        · rw [if_pos doubled] at read
          obtain ⟨s, shown, stood⟩ := literal_of_run a (l ++ [quote]) read
          refine ⟨quote :: s, ?_, ?_⟩
          · rwa [List.append_assoc, List.singleton_append] at shown
          · rw [ends, doubled]
            exact List.cons_prefix_cons.mpr ⟨rfl, List.cons_prefix_cons.mpr ⟨rfl, stood⟩⟩
        · rw [if_neg doubled] at read
          refine ⟨[], ?_, ?_⟩
          · rw [List.append_nil]
            exact prefix_outside.trans (prefix_of_finish read)
          · rw [ends]
            exact List.cons_prefix_cons.mpr ⟨rfl, List.nil_prefix⟩
    · rw [if_neg ends] at read
      obtain ⟨s, shown, stood⟩ := literal_of_run a (l ++ [c]) read
      refine ⟨c :: s, ?_, ?_⟩
      · rwa [List.append_assoc, List.singleton_append] at shown
      · rw [escape_of_ne ends]
        exact List.cons_prefix_cons.mpr ⟨rfl, stood⟩

/-- **The quotes of a text come too early**: behind some quotes already, its escaped form does not fit before a quote
and a symbol that is none. -/
theorem escape_not_fits (notQuote : c ≠ quote) : ∀ (s : List Char) (k : Nat),
    ¬ (List.replicate (k + 1) quote ++ escape s ++ [quote] <+: s ++ quote :: c :: b)
  | [], k => by
    intro fits
    rw [List.replicate_succ] at fits
    have next := (List.cons_prefix_cons.mp fits).2
    cases k with
    | zero => exact notQuote (List.cons_prefix_cons.mp next).1.symm
    | succ k => exact notQuote (List.cons_prefix_cons.mp next).1.symm
  | d :: s, k => by
    intro fits
    have same := List.cons_prefix_cons.mp fits
    obtain rfl := same.1
    refine escape_not_fits notQuote s (k + 1) ?_
    have more : List.replicate k quote ++ escape (quote :: s) ++ [quote] <+: s ++ quote :: c :: b := same.2
    rw [escape_quote, ← List.append_assoc] at more
    rw [Nat.add_assoc, List.replicate_add]
    exact more

/-- A text whose escaped form fits before a quote and a symbol that is none has no quote. -/
theorem no_quote_of_fits (notQuote : c ≠ quote) :
    ∀ s : List Char, escape s ++ [quote] <+: s ++ quote :: c :: b → quote ∉ s
  | [], _ => List.not_mem_nil
  | d :: s, fits => by
    by_cases ends : d = quote
    · rw [ends, escape_quote] at fits
      exact absurd (List.cons_prefix_cons.mp fits).2 (escape_not_fits notQuote s 0)
    · rw [escape_of_ne ends] at fits
      rw [List.mem_cons, not_or]
      exact ⟨Ne.symm ends, no_quote_of_fits notQuote s (List.cons_prefix_cons.mp fits).2⟩

variable {s : List Char}

/-- **A text that is read back has no quote**, where it has been put before a quote and a symbol as it is. -/
theorem no_quote_of_reads {rest : List Token} (notQuote : c ≠ quote)
    (read : finish (run ⟨done, .inside []⟩ (s ++ quote :: c :: b)) = some (done ++ .literal s :: rest)) :
    quote ∉ s := by
  obtain ⟨s', shown, stood⟩ := literal_of_run _ _ read
  have same := (List.cons_prefix_cons.mp ((List.prefix_append_right_inj done).mp shown)).1
  rw [List.nil_append, Token.literal.injEq] at same
  exact no_quote_of_fits notQuote s (same ▸ stood)

/-- **A text with its quotes doubled is read back.** -/
theorem run_escape : run ⟨done, .inside l⟩ (escape s) = ⟨done, .inside (l ++ s)⟩ := by
  induction s generalizing l with
  | nil => rw [List.append_nil]; rfl
  | cons c s ih =>
    by_cases ends : c = quote
    · rw [ends, escape_quote]
      show run ⟨done, .inside (l ++ [quote])⟩ (escape s) = _
      rw [ih, List.append_assoc, List.singleton_append]
    · rw [escape_of_ne ends, run_cons, step_inside, if_neg ends, ih, List.append_assoc, List.singleton_append]

/-! ### Values in a row -/

/-- Values between quotes, each with the way to the next one. -/
def fieldText (fields : List (List Char)) : List Char := fields.flatMap (· ++ [quote, ',', quote])

/-- Their tokens. -/
def fieldTokens (fields : List (List Char)) : List Token := fields.flatMap fun f => [.literal f, .punct ',']

theorem run_fields {fields : List (List Char)} (plain : ∀ f ∈ fields, quote ∉ f) :
    run ⟨done, .inside []⟩ (fieldText fields) = ⟨done ++ fieldTokens fields, .inside []⟩ := by
  induction fields generalizing done with
  | nil => rw [fieldTokens, List.flatMap_nil, List.append_nil]; rfl
  | cons f fields ih =>
    obtain ⟨here, later⟩ := List.forall_mem_cons.mp plain
    rw [fieldText, List.flatMap_cons, run_append, run_field here]
    show run _ (fieldText fields) = _
    rw [ih later, fieldTokens, fieldTokens, List.flatMap_cons, List.append_assoc]

theorem run_last (plain : quote ∉ a) :
    run ⟨done, .inside []⟩ (a ++ [quote, ')']) = ⟨done ++ [.literal a, .punct ')'], .out []⟩ := by
  rw [run_append, run_literal plain, List.nil_append]
  show Reader.mk (done ++ [.literal a] ++ [.punct ')']) (.out []) = _
  rw [List.append_assoc, List.singleton_append]

/-- The text of a row: one value among others. -/
def rowText (a : List Char) (before : List (List Char)) (s : List Char) (after : List (List Char))
    (final : List Char) : List Char :=
  a ++ (fieldText before ++ (s ++ quote :: ',' :: quote :: (fieldText after ++ (final ++ [quote, ')']))))

/-- The tokens of a row. -/
def rowTokens (done : List Token) (before : List (List Char)) (s : List Char) (after : List (List Char))
    (final : List Char) : List Token :=
  done ++ (fieldTokens before ++ (.literal s :: .punct ',' :: (fieldTokens after ++ [.literal final, .punct ')'])))

theorem intercalate_literals (fields : List (List Char)) (final : List Char) :
    [Token.punct ','].intercalate ((fields ++ [final]).map fun f => [Token.literal f]) =
      fieldTokens fields ++ [.literal final] := by
  induction fields with
  | nil => rfl
  | cons f fields ih =>
    rw [fieldTokens, List.flatMap_cons]
    cases fields with
    | nil => rfl
    | cons g fields =>
      show [Token.literal f] ++ ([.punct ','] ++ [Token.punct ','].intercalate
        ((g :: fields ++ [final]).map fun f => [Token.literal f])) = _
      rw [ih]
      rfl

/-- **The tokens of a row of literals.** -/
theorem tokens_of_literals {row : InsertStmt} {before after : List (List Char)} {final : List Char}
    (values : row.values = (before ++ s :: after ++ [final]).map fun f => [Token.literal f]) :
    row.tokens = rowTokens row.head before s after final := by
  rw [InsertStmt.tokens, values, intercalate_literals, rowTokens, fieldTokens, List.flatMap_append, List.flatMap_cons]
  simp [fieldTokens]

/-- **One value among others that have no quotes.** It is read back exactly if it has no quote either. -/
theorem row_iff {before after : List (List Char)} {final : List Char} {more : List Token}
    (head : run ⟨[], .out []⟩ a = ⟨done, .inside []⟩) (plainBefore : ∀ f ∈ before, quote ∉ f)
    (plainAfter : ∀ f ∈ after, quote ∉ f) (plainFinal : quote ∉ final) :
    (lex (rowText a before s after final) = some (rowTokens done before s after final) ∨
      lex (rowText a before s after final) = some (rowTokens done before s after final ++ more)) ↔ quote ∉ s := by
  have reached : lex (rowText a before s after final) = finish (run ⟨done ++ fieldTokens before, .inside []⟩
      (s ++ quote :: ',' :: quote :: (fieldText after ++ (final ++ [quote, ')'])))) := by
    rw [rowText, lex, run_append, head, run_append, run_fields plainBefore]
  rw [reached, rowTokens, ← List.append_assoc done]
  constructor
  · rintro (read | read)
    · exact no_quote_of_reads (by decide : ',' ≠ quote) read
    · rw [List.append_assoc, List.cons_append] at read
      exact no_quote_of_reads (by decide : ',' ≠ quote) read
  · intro plain
    left
    have split : s ++ quote :: ',' :: quote :: (fieldText after ++ (final ++ [quote, ')'])) =
        (s ++ [quote, ',', quote]) ++ (fieldText after ++ (final ++ [quote, ')'])) := by simp
    rw [split, run_append, run_field plain, run_append, run_fields plainAfter, run_last plainFinal]
    show some (done ++ fieldTokens before ++ [.literal s, .punct ','] ++ fieldTokens after ++
      [.literal final, .punct ')']) = some _
    simp

/-! ### Quotes in pairs -/

/-- The reader is in a literal. -/
def Within (r : Reader) : Prop := ∃ l, r.mode = .inside l

theorem within_outside : Within (outside done w c) ↔ c = quote := by
  rw [outside]
  by_cases ends : c = quote
  · rw [if_pos ends]
    exact iff_of_true ⟨[], rfl⟩ ends
  · rw [if_neg ends]
    refine iff_of_false ?_ ends
    split
    · rintro ⟨_, ⟨⟩⟩
    split
    · rintro ⟨_, ⟨⟩⟩
    · rintro ⟨_, ⟨⟩⟩

/-- **Every quote leads into a literal or out of it.** -/
theorem within_step : Within (step r c) ↔ (Within r ↔ c ≠ quote) := by
  obtain ⟨done, w | l | l⟩ := r
  · rw [step_out, within_outside]
    have outside : ¬ Within ⟨done, .out w⟩ := by rintro ⟨_, ⟨⟩⟩
    simp [outside]
  · have inside : Within ⟨done, .inside l⟩ := ⟨l, rfl⟩
    rw [step_inside]
    by_cases ends : c = quote
    · rw [if_pos ends]
      have closing : ¬ Within ⟨done, .closing l⟩ := by rintro ⟨_, ⟨⟩⟩
      simp [closing, inside, ends]
    · rw [if_neg ends]
      exact iff_of_true ⟨_, rfl⟩ (iff_of_true inside ends)
  · have closing : ¬ Within ⟨done, .closing l⟩ := by rintro ⟨_, ⟨⟩⟩
    rw [step_closing]
    by_cases ends : c = quote
    · rw [if_pos ends]
      exact iff_of_true ⟨_, rfl⟩ (iff_of_false closing (not_not_intro ends))
    · rw [if_neg ends, within_outside]
      simp [closing, ends]

theorem within_run : Within (run r a) ↔ (Within r ↔ a.count quote % 2 = 0) := by
  induction a generalizing r with
  | nil => simp
  | cons c a ih =>
    rw [run_cons, ih, within_step, List.count_cons]
    by_cases ends : c = quote
    · simp only [ends, beq_self_eq_true, if_true, ne_eq, not_true]
      have parity : (a.count quote + 1) % 2 = 0 ↔ ¬ a.count quote % 2 = 0 := by omega
      rw [parity]
      tauto
    · simp [ends]

/-- **A text with an odd number of quotes is none at all.** -/
theorem odd_quotes (odd : a.count quote % 2 = 1) : lex a = none := by
  have start : ¬ Within ⟨[], .out []⟩ := by rintro ⟨_, ⟨⟩⟩
  obtain ⟨l, inside⟩ : Within (run ⟨[], .out []⟩ a) := within_run.mpr (iff_of_false start (by omega))
  rw [lex, finish, inside]

end UniSet.Lib.Sql
