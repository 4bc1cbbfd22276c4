/-
**Templates: texts with places for other texts.**

A place is a mark and a name. A template is read from left to right into symbols and places, and filled with a text
for each place.

* `scan`, `fill` — the parts of a template, and the text that they make.
* `replaceAll` — every occurrence of a text replaced, from left to right, and nothing that has been put in looked at
  again.
* **`replaceAll_fill`** — replacing one place after another is filling them all at once, if the texts that are put in
  cannot be taken for marks or names.
* `fill_eq_self_iff` — a template without places is what it says, and only such a one.
* `fill_eq_fill_iff` — another text for a place shows exactly if the place is there.
* `decimal` — numbers in digits, `decimal_injective`.
-/

import Mathlib.Data.List.Basic
import Mathlib.Data.List.Infix
import Mathlib.Algebra.Order.BigOperators.Group.List
import Mathlib.Algebra.Order.Group.Nat

namespace UniSet.Lib.Template

variable {ι : Type}

/-! ### Parts -/

/-- The place that stands behind a mark. -/
def named (names : List (List Char × ι)) (s : List Char) : Option (List Char × ι) :=
  names.find? fun p => p.1.isPrefixOf s

/-- **The parts of a template**; the symbols of a name that has been read are skipped. -/
def scan (mark : Char) (names : List (List Char × ι)) : Nat → List Char → List (Char ⊕ ι)
  | _, [] => []
  | skip + 1, _ :: s => scan mark names skip s
  | 0, c :: s =>
    match if c = mark then named names s else none with
    | some place => .inr place.2 :: scan mark names place.1.length s
    | none => .inl c :: scan mark names 0 s

/-- One part, with a text for each place. -/
def part (value : ι → List Char) : Char ⊕ ι → List Char
  | .inl c => [c]
  | .inr i => value i

/-- **The text of the parts.** -/
def fill (value : ι → List Char) (parts : List (Char ⊕ ι)) : List Char := parts.flatMap (part value)

/-- **Every occurrence of a text replaced**; the symbols of an occurrence are skipped. -/
def replaceAll (old new : List Char) : Nat → List Char → List Char
  | _, [] => []
  | skip + 1, _ :: s => replaceAll old new skip s
  | 0, c :: s =>
    if old.isPrefixOf (c :: s) then new ++ replaceAll old new (old.length - 1) s else c :: replaceAll old new 0 s

variable {mark c : Char} {names : List (List Char × ι)} {s old new : List Char} {value value' : ι → List Char}
  {parts : List (Char ⊕ ι)} {i : ι}

theorem fill_cons (p : Char ⊕ ι) : fill value (p :: parts) = part value p ++ fill value parts := rfl

theorem scan_skip (skip : Nat) : scan mark names skip s = scan mark names 0 (s.drop skip) := by
  induction s generalizing skip with
  | nil =>
    rw [List.drop_nil]
    cases skip <;> rfl
  | cons c s ih =>
    cases skip with
    | zero => rfl
    | succ skip => exact ih skip

theorem scan_of_ne (other : c ≠ mark) : scan mark names 0 (c :: s) = .inl c :: scan mark names 0 s := by
  rw [scan, if_neg other]

theorem scan_unnamed (none : named names s = none) :
    scan mark names 0 (mark :: s) = .inl mark :: scan mark names 0 s := by
  rw [scan, if_pos rfl, none]

theorem scan_named {place : List Char × ι} (some : named names s = some place) :
    scan mark names 0 (mark :: s) = .inr place.2 :: scan mark names 0 (s.drop place.1.length) := by
  rw [scan, if_pos rfl, some, ← scan_skip]

theorem replaceAll_skip (skip : Nat) : replaceAll old new skip s = replaceAll old new 0 (s.drop skip) := by
  induction s generalizing skip with
  | nil =>
    rw [List.drop_nil]
    cases skip <;> rfl
  | cons c s ih =>
    cases skip with
    | zero => rfl
    | succ skip => exact ih skip

theorem replaceAll_of_ne (other : c ≠ mark) :
    replaceAll (mark :: old) new 0 (c :: s) = c :: replaceAll (mark :: old) new 0 s := by
  rw [replaceAll, if_neg]
  rw [List.isPrefixOf_iff_prefix, List.cons_prefix_cons]
  exact fun stands => other stands.1.symm

theorem replaceAll_mark : replaceAll (mark :: old) new 0 (mark :: s) =
    if old <+: s then new ++ replaceAll (mark :: old) new 0 (s.drop old.length)
    else mark :: replaceAll (mark :: old) new 0 s := by
  rw [replaceAll, replaceAll_skip]
  simp only [List.isPrefixOf_iff_prefix, List.cons_prefix_cons, true_and, List.length_cons, Nat.add_sub_cancel]

theorem replaceAll_append {a : List Char} (plain : mark ∉ a) :
    replaceAll (mark :: old) new 0 (a ++ s) = a ++ replaceAll (mark :: old) new 0 s := by
  induction a with
  | nil => rfl
  | cons c a ih =>
    rw [List.mem_cons, not_or] at plain
    rw [List.cons_append, replaceAll_of_ne (Ne.symm plain.1), ih plain.2, List.cons_append]

theorem scan_append {a : List Char} (plain : mark ∉ a) :
    scan mark names 0 (a ++ s) = a.map .inl ++ scan mark names 0 s := by
  induction a with
  | nil => rfl
  | cons c a ih =>
    rw [List.mem_cons, not_or] at plain
    rw [List.cons_append, scan_of_ne (Ne.symm plain.1), ih plain.2, List.map_cons, List.cons_append]

@[simp] theorem fill_symbols (a : List Char) : fill value (a.map .inl ++ parts) = a ++ fill value parts := by
  induction a with
  | nil => rfl
  | cons c a ih =>
    rw [List.map_cons, List.cons_append, fill_cons, ih]
    rfl

/-- **A template without names of places** has none. -/
theorem fill_scan_nil : fill value (scan mark [] 0 s) = s := by
  induction s with
  | nil => rfl
  | cons c s ih =>
    by_cases same : c = mark
    · rw [same, scan_unnamed rfl, fill_cons, ih]
      rfl
    · rw [scan_of_ne same, fill_cons, ih]
      rfl

/-! ### One place after another -/

/-- **Texts that cannot be taken for places**: they are not empty, and have no mark and no symbol of a name. -/
structure Apart (mark : Char) (names : List (List Char × ι)) (value : ι → List Char) : Prop where
  unmarked : ∀ p ∈ names, mark ∉ p.1
  some : ∀ i, value i ≠ []
  other : ∀ i, ∀ c ∈ value i, c ≠ mark ∧ ∀ p ∈ names, c ∉ p.1

theorem Apart.mono {fewer : List (List Char × ι)} (apart : Apart mark names value) (known : fewer ⊆ names) :
    Apart mark fewer value :=
  ⟨fun p member => apart.unmarked p (known member), apart.some, fun i c member =>
    ⟨(apart.other i c member).1, fun p stands => (apart.other i c member).2 p (known stands)⟩⟩

theorem Apart.cons_ne (apart : Apart mark names value) (a b : List Char) : value i ++ a ≠ mark :: b := by
  intro same
  cases text : value i with
  | nil => exact apart.some i text
  | cons c rest =>
    rw [text] at same
    exact (apart.other i c (by rw [text]; exact List.mem_cons_self)).1 (List.cons.inj same).1

/-- **A name stands in the filled text exactly if it stood in the template.** -/
theorem prefix_fill_iff {q : List Char} (unmarked : mark ∉ q) (some : ∀ i, value i ≠ [])
    (other : ∀ i, ∀ c ∈ value i, c ∉ q) : q <+: fill value (scan mark names 0 s) ↔ q <+: s := by
  induction q generalizing s with
  | nil => exact iff_of_true List.nil_prefix List.nil_prefix
  | cons d q ih =>
    rw [List.mem_cons, not_or] at unmarked
    cases s with
    | nil => exact Iff.rfl
    | cons c s =>
      by_cases same : c = mark
      · have notHere : ¬ d :: q <+: c :: s := fun stands =>
          unmarked.1 (same ▸ (List.cons_prefix_cons.mp stands).1.symm)
        refine iff_of_false ?_ notHere
        rw [same]
        cases place : named names s with
        | none =>
          rw [scan_unnamed place, fill_cons]
          exact fun stands => unmarked.1 (List.cons_prefix_cons.mp stands).1.symm
        | some place' =>
          rw [scan_named place, fill_cons]
          show ¬ d :: q <+: value place'.2 ++ _
          cases text : value place'.2 with
          | nil => exact absurd text (some place'.2)
          | cons e rest =>
            intro stands
            have first : e ∈ value place'.2 := by rw [text]; exact List.mem_cons_self
            exact other place'.2 e first (List.mem_cons.mpr (.inl (List.cons_prefix_cons.mp stands).1.symm))
      · rw [scan_of_ne same, fill_cons]
        show d :: q <+: c :: fill value (scan mark names 0 s) ↔ _
        rw [List.cons_prefix_cons, List.cons_prefix_cons,
          ih unmarked.2 fun i e member => fun inQ => other i e member (List.mem_cons_of_mem _ inQ)]

theorem named_append (q : List Char) : named (names ++ [(q, i)]) s =
    (named names s).or (if q <+: s then some (q, i) else none) := by
  rw [named, List.find?_append, ← named, List.find?_singleton]
  simp only [List.isPrefixOf_iff_prefix]

/-- **One place more.** Replacing its mark and name in the filled text is filling it with the others. -/
theorem replaceAll_fill {q : List Char} (apart : Apart mark (names ++ [(q, i)]) value) :
    replaceAll (mark :: q) (value i) 0 (fill value (scan mark names 0 s)) =
      fill value (scan mark (names ++ [(q, i)]) 0 s) := by
  have last : (q, i) ∈ names ++ [(q, i)] := List.mem_append_right _ (List.mem_singleton.mpr rfl)
  have unmarked : mark ∉ q := apart.unmarked _ last
  have plain (j : ι) : mark ∉ value j := fun member => (apart.other j mark member).1 rfl
  -- A place takes several symbols at once.
  induction length : s.length using Nat.strong_induction_on generalizing s with
  | h length' ih =>
    subst length
    cases s with
    | nil => rfl
    | cons c s =>
      by_cases same : c = mark
      · rw [same]
        cases place : named names s with
        | some place' =>
          have here : named (names ++ [(q, i)]) s = some place' := by rw [named_append, place, Option.some_or]
          rw [scan_named place, scan_named here, fill_cons, fill_cons, part, replaceAll_append (plain _)]
          have shorter : (s.drop place'.1.length).length < (c :: s).length := by
            rw [List.length_drop, List.length_cons]
            omega
          rw [ih _ shorter rfl]
        | none =>
          rw [scan_unnamed place, fill_cons]
          show replaceAll (mark :: q) (value i) 0 (mark :: fill value (scan mark names 0 s)) = _
          have stands : q <+: fill value (scan mark names 0 s) ↔ q <+: s :=
            prefix_fill_iff unmarked apart.some fun j c member => (apart.other j c member).2 _ last
          rw [replaceAll_mark]
          by_cases here : q <+: s
          · have found : named (names ++ [(q, i)]) s = some (q, i) := by
              rw [named_append, place, Option.none_or, if_pos here]
            rw [if_pos (stands.mpr here), scan_named found, fill_cons, part]
            obtain ⟨rest, rfl⟩ := here
            rw [scan_append unmarked, fill_symbols, List.drop_left, List.drop_left]
            have shorter : rest.length < (c :: (q ++ rest)).length := by
              rw [List.length_cons, List.length_append]
              omega
            rw [ih _ shorter rfl]
          · have found : named (names ++ [(q, i)]) s = none := by
              rw [named_append, place, Option.none_or, if_neg here]
            rw [if_neg (fun before => here (stands.mp before)), scan_unnamed found, fill_cons,
              ih _ (by simp) rfl]
            rfl
      · rw [scan_of_ne same, scan_of_ne same, fill_cons, fill_cons, part, List.singleton_append,
          replaceAll_of_ne same, ih _ (by simp) rfl, List.singleton_append]

/-! ### Which places there are -/

/-- **Only a template without places is what it says.** -/
theorem fill_eq_self_iff (apart : Apart mark names value) :
    fill value (scan mark names 0 s) = s ↔ ∀ i, .inr i ∉ scan mark names 0 s := by
  induction s with
  | nil => exact iff_of_true rfl fun _ => List.not_mem_nil
  | cons c s ih =>
    have symbol : fill value (.inl c :: scan mark names 0 s) = c :: s ↔
        ∀ i, .inr i ∉ (.inl c :: scan mark names 0 s : List (Char ⊕ ι)) := by
      rw [fill_cons, part, List.singleton_append, List.cons_inj_right, ih]
      simp
    by_cases same : c = mark
    · subst same
      cases place : named names s with
      | none =>
        rw [scan_unnamed place]
        exact symbol
      | some place' =>
        rw [scan_named place, fill_cons]
        exact iff_of_false (apart.cons_ne _ _) fun none => none _ List.mem_cons_self
    · rw [scan_of_ne same]
      exact symbol

/-- **Pieces of the same lengths** make the same text exactly if they are the same. -/
theorem flatMap_eq_iff {α β : Type} {f g : α → List β} {l : List α} (lengths : ∀ a ∈ l, (f a).length = (g a).length) :
    l.flatMap f = l.flatMap g ↔ ∀ a ∈ l, f a = g a := by
  induction l with
  | nil => simp
  | cons a l ih =>
    rw [List.forall_mem_cons] at lengths ⊢
    rw [List.flatMap_cons, List.flatMap_cons]
    constructor
    · intro same
      obtain ⟨here, later⟩ := List.append_inj same lengths.1
      exact ⟨here, (ih lengths.2).mp later⟩
    · rintro ⟨here, later⟩
      rw [here, (ih lengths.2).mpr later]

theorem length_fill_lt (shorter : (value i).length < (value' i).length) (others : ∀ j, j ≠ i → value j = value' j)
    (stands : .inr i ∈ parts) : (fill value parts).length < (fill value' parts).length := by
  rw [fill, fill, List.length_flatMap, List.length_flatMap]
  refine List.sum_lt_sum _ _ (fun p _ => ?_) ⟨.inr i, stands, shorter⟩
  cases p with
  | inl c => exact Nat.le_refl _
  | inr j =>
    by_cases same : j = i
    · exact same ▸ shorter.le
    · exact (congrArg List.length (others j same)).le

/-- **Another text for one place** shows exactly if the place is there. -/
theorem fill_eq_fill_iff (others : ∀ j, j ≠ i → value j = value' j) :
    fill value parts = fill value' parts ↔ value i = value' i ∨ .inr i ∉ parts := by
  have length_iff (lengths : (value i).length = (value' i).length) :
      fill value parts = fill value' parts ↔ ∀ p ∈ parts, part value p = part value' p := by
    refine flatMap_eq_iff fun p _ => ?_
    cases p with
    | inl c => rfl
    | inr j =>
      by_cases same : j = i
      · exact same ▸ lengths
      · exact congrArg List.length (others j same)
  constructor
  · intro same
    by_cases stands : .inr i ∈ parts
    · obtain shorter | lengths | longer := Nat.lt_trichotomy (value i).length (value' i).length
      · exact absurd (congrArg List.length same) (length_fill_lt shorter others stands).ne
      · exact .inl ((length_iff lengths).mp same _ stands)
      · have others' (j : ι) (other : j ≠ i) : value' j = value j := (others j other).symm
        exact absurd (congrArg List.length same) (length_fill_lt longer others' stands).ne'
    · exact .inr stands
  · intro known
    refine List.flatMap_congr fun p member => ?_
    cases p with
    | inl c => rfl
    | inr j =>
      by_cases same : j = i
      · subst same
        exact known.resolve_right (not_not_intro member)
      · exact others j same

/-! ### Numbers -/

/-- **A number in digits.** -/
def decimal (n : Int) : List Char := if n < 0 then '-' :: Nat.toDigits 10 n.natAbs else Nat.toDigits 10 n.natAbs

theorem mem_decimal {n : Int} (member : c ∈ decimal n) : c = '-' ∨ c.isDigit := by
  rw [decimal] at member
  have digit {k : Nat} (member : c ∈ Nat.toDigits 10 k) : c.isDigit :=
    Nat.isDigit_of_mem_toDigits (by decide) (by decide) member
  split at member
  · exact (List.mem_cons.mp member).imp_right digit
  · exact .inr (digit member)

theorem decimal_ne_nil (n : Int) : decimal n ≠ [] := by
  rw [decimal]
  split
  · exact List.cons_ne_nil _ _
  · exact Nat.toDigits_ne_nil

theorem toDigits_inj {a b : Nat} (same : Nat.toDigits 10 a = Nat.toDigits 10 b) : a = b := by
  have value := congrArg (Nat.ofDigitChars 10 · 0) same
  simpa only [Nat.ofDigitChars_ten_toDigits] using value

theorem decimal_injective : Function.Injective decimal := by
  intro a b same
  have minus (k : Nat) : '-' ∉ Nat.toDigits 10 k := fun member => by
    have digit := Nat.isDigit_of_mem_toDigits (by decide) (by decide) member
    exact absurd digit (by decide)
  simp only [decimal] at same
  split at same <;> split at same
  · have digits := toDigits_inj (List.cons.inj same).2
    omega
  · exact absurd (same ▸ List.mem_cons_self) (minus b.natAbs)
  · exact absurd (same ▸ List.mem_cons_self) (minus a.natAbs)
  · have digits := toDigits_inj same
    omega

end UniSet.Lib.Template
