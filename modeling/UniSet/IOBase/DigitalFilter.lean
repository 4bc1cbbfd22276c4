/-
**The median filter.**

A `DigitalFilter` keeps the newest values and a sorted copy of them, with a flag that the copy is filled.

* `DigitalFilter` — the buffer and the copy; `init`, `add`, `median`, `setSettings` and `currentMedian` as in the
  source, `none` where an element is taken that is not there.
* `Right` — after a call the buffer holds the newest values that were given, as many as it is set to, and the
  value that is returned is the middle one of them.
* `Copies` — the copy has the values of the last `median`, cut or filled with zeros by later settings.
* **`calls_right_iff`** — the calls of a run are all right exactly if the buffer is made larger only where the values
  it should hold are all zero, and the current median is asked for only while it is that of the last `median`.
-/

import Mathlib.Data.List.Sort
import UniSet.Lib.Machine
import UniSet.Lib.Window

namespace UniSet

open Lib (Machine newest newest_nil newest_push newest_shrink newest_grow_iff takeD_larger)

/-- **`DigitalFilter`**: what the median filter uses of it. -/
structure DigitalFilter where
  buf : List Int
  maxsize : Nat
  mvec : List Int
  mvec_sorted : Bool
  deriving DecidableEq, Repr

namespace DigitalFilter

/-- `sort`. -/
def sort (values : List Int) : List Int := values.insertionSort (· ≤ ·)

/-- **`init`.** -/
def init (d : DigitalFilter) (val : Int) : DigitalFilter := { d with buf := List.replicate d.maxsize val }

/-- The constructor. -/
def construct (bufsize : Nat) : DigitalFilter := init ⟨[], bufsize, [], false⟩ 0

/-- **`setSettings`.** -/
def setSettings (d : DigitalFilter) (bufsize : Nat) : DigitalFilter :=
  let maxsize := if bufsize < 1 then 1 else bufsize
  let buf := if d.buf.length > maxsize then d.buf.drop (d.buf.length - maxsize) else d.buf
  { d with maxsize := maxsize, buf := buf.takeD maxsize 0, mvec := d.mvec.takeD maxsize 0 }

/-- **`add`**: there has to be a first element. -/
def add (d : DigitalFilter) (newval : Int) : Option DigitalFilter :=
  match d.buf with
  | [] => none
  | _ :: rest => some { d with buf := rest ++ [newval] }

/-- **`median`.** -/
def median (d : DigitalFilter) (newval : Int) : Option (DigitalFilter × Int) :=
  if d.maxsize < 1 then some (d, newval)
  else (d.add newval).bind fun d =>
    let mvec := sort d.buf
    mvec[d.maxsize / 2]?.map fun value => ({ d with mvec := mvec, mvec_sorted := true }, value)

/-- **`currentMedian`**: it leaves the flag as it is. -/
def currentMedian (d : DigitalFilter) : Option (DigitalFilter × Int) :=
  let mvec := if d.mvec_sorted then d.mvec else sort d.buf
  mvec[d.maxsize / 2]?.map fun value => ({ d with mvec := mvec }, value)

/-- The calls for a filter. -/
inductive Op
  | init (val : Int)
  | add (newval : Int)
  | median (newval : Int)
  | setSettings (bufsize : Nat)
  | currentMedian
  deriving DecidableEq, Repr

/-- A call for a filter, with the value that it returns. -/
def call (d : DigitalFilter) : Op → Option (DigitalFilter × Option Int)
  | .init val => some (d.init val, none)
  | .add newval => (d.add newval).map fun d => (d, none)
  | .median newval => (d.median newval).map fun done => (done.1, some done.2)
  | .setSettings bufsize => some (d.setSettings bufsize, none)
  | .currentMedian => d.currentMedian.map fun done => (done.1, some done.2)

/-! ### What was given -/

/-- The values that were given to a filter: the one it was filled with, and those after it, newest first. -/
structure Given where
  first : Int
  came : List Int
  deriving DecidableEq, Repr

/-- The values after a call. -/
def Given.record (g : Given) : Op → Given
  | .init val => ⟨val, []⟩
  | .add newval => { g with came := newval :: g.came }
  | .median newval => { g with came := newval :: g.came }
  | .setSettings _ => g
  | .currentMedian => g

/-- The newest of them. -/
def Given.newest (g : Given) (n : Nat) : List Int := Lib.newest n g.came g.first

/-- The newest of them, sorted. -/
def Given.sorted (g : Given) (n : Nat) : List Int := sort (g.newest n).reverse

/-- A filter, what was given to it, and the sorted values of the last `median`, which later settings cut or fill with
zeros. -/
structure Run where
  filter : DigitalFilter
  given : Given
  atMedian : Option (List Int)
  deriving DecidableEq, Repr

/-- The sorted values of the last `median` after a call. -/
def Run.record (r : Run) : Op → Option (List Int)
  | .median newval => some ((r.given.record (.median newval)).sorted r.filter.maxsize)
  | .setSettings bufsize => r.atMedian.map fun values => values.takeD (if bufsize < 1 then 1 else bufsize) 0
  | _ => r.atMedian

/-- **The calls for a filter**, from a constructed one on. -/
def machine : Machine Run Op where
  start r := ∃ bufsize, r = ⟨construct bufsize, ⟨0, []⟩, none⟩
  step r op := (r.filter.call op).map fun done => ⟨done.1, r.given.record op, r.record op⟩

/-- **The buffer holds the newest values**, as many as it is set to. -/
structure Holds (d : DigitalFilter) (given : Given) : Prop where
  size : d.buf.length = d.maxsize
  values : d.buf.reverse = given.newest d.maxsize

/-- The functions that return the median. -/
def Returns : Op → Prop
  | .median _ => True
  | .currentMedian => True
  | _ => False

/-- **A call that is right.** -/
def Right (r : Run) (op : Op) : Prop :=
  ∃ done, r.filter.call op = some done ∧ Holds done.1 (r.given.record op) ∧
    (Returns op → ∃ value, done.2 = some value ∧ (sort done.1.buf)[done.1.maxsize / 2]? = some value)

/-- **Where a call is right**: a value is put in or asked for only where there is place for one, the buffer is made
larger only where the values it should hold are zero, and the middle value of those of the last `median` is still that
of the newest ones where it is asked for. -/
def Kept (r : Run) : Op → Prop
  | .init _ => True
  | .add _ => r.filter.maxsize ≠ 0
  | .median _ => r.filter.maxsize ≠ 0
  | .setSettings bufsize =>
    let maxsize := if bufsize < 1 then 1 else bufsize
    maxsize ≤ r.filter.maxsize ∨ ∀ x ∈ r.given.newest maxsize, x = 0
  | .currentMedian => r.filter.maxsize ≠ 0 ∧ ∀ values ∈ r.atMedian,
    values[r.filter.maxsize / 2]? = (r.given.sorted r.filter.maxsize)[r.filter.maxsize / 2]?

instance (r : Run) : ∀ op, Decidable (Kept r op)
  | .init _ => inferInstanceAs (Decidable True)
  | .add _ => inferInstanceAs (Decidable (_ ≠ _))
  | .median _ => inferInstanceAs (Decidable (_ ≠ _))
  | .setSettings _ => inferInstanceAs (Decidable (_ ∨ _))
  | .currentMedian => inferInstanceAs (Decidable (_ ∧ _))

section Calls

variable {d : DigitalFilter} {given : Given} {copied : Option (List Int)}

theorem Holds.sorted_eq (holds : Holds d given) : given.sorted d.maxsize = sort d.buf := by
  rw [Given.sorted, ← holds.values, List.reverse_reverse]

theorem exists_middle (holds : Holds d given) (some : d.maxsize ≠ 0) :
    ∃ value, (sort d.buf)[d.maxsize / 2]? = Option.some value := by
  refine ⟨_, List.getElem?_eq_getElem ?_⟩
  rw [sort, List.length_insertionSort, holds.size]
  exact Nat.div_lt_self (Nat.pos_of_ne_zero some) (by decide)

theorem holds_init (val : Int) : Holds (d.init val) (given.record (.init val)) where
  size := List.length_replicate
  values := by
    show (List.replicate d.maxsize val).reverse = newest d.maxsize [] val
    rw [List.reverse_replicate, newest_nil]

/-- **`add`**, where there is place for a value. -/
theorem add_holds (holds : Holds d given) (newval : Int) :
    (d.maxsize = 0 ∧ d.add newval = none) ∨
      ∃ e, d.add newval = some e ∧ e.maxsize = d.maxsize ∧ d.maxsize ≠ 0 ∧ Holds e (given.record (.add newval)) := by
  obtain ⟨buf, maxsize, mvec, mvec_sorted⟩ := d
  cases buf with
  | nil => exact Or.inl ⟨holds.size.symm, rfl⟩
  | cons oldest rest =>
    have size : rest.length + 1 = maxsize := holds.size
    have some : maxsize ≠ 0 := by omega
    refine Or.inr ⟨_, rfl, rfl, some, ⟨?_, ?_⟩⟩
    · rw [List.length_append]
      exact size
    · show (rest ++ [newval]).reverse = newest maxsize (newval :: given.came) given.first
      have values : (oldest :: rest).reverse = newest maxsize given.came given.first := holds.values
      rw [newest_push some, ← values, List.reverse_cons, List.dropLast_concat, List.reverse_append]
      rfl

/-- **A smaller buffer.** -/
theorem holds_smaller (holds : Holds d given) {maxsize : Nat} (smaller : maxsize ≤ d.maxsize) :
    ((if d.buf.length > maxsize then d.buf.drop (d.buf.length - maxsize) else d.buf).takeD maxsize 0).reverse =
      given.newest maxsize := by
  have kept : (if d.buf.length > maxsize then d.buf.drop (d.buf.length - maxsize) else d.buf) =
      d.buf.drop (d.buf.length - maxsize) := by
    split
    · rfl
    · next short => rw [Nat.sub_eq_zero_of_le (Nat.le_of_not_lt short), List.drop_zero]
  have length : (d.buf.drop (d.buf.length - maxsize)).length = maxsize := by
    rw [List.length_drop, holds.size]
    exact Nat.sub_sub_self smaller
  rw [kept, List.takeD_eq_take _ length.ge, List.take_of_length_le length.le, ← List.take_reverse, holds.values]
  exact newest_shrink smaller given.came given.first

/-- **A larger buffer** gets zeros in the place of the newest values. -/
theorem holds_larger_iff (holds : Holds d given) {maxsize : Nat} (larger : d.maxsize < maxsize) :
    ((if d.buf.length > maxsize then d.buf.drop (d.buf.length - maxsize) else d.buf).takeD maxsize 0).reverse =
      given.newest maxsize ↔ ∀ x ∈ given.newest maxsize, x = 0 := by
  have short : d.buf.length ≤ maxsize := by
    rw [holds.size]
    exact larger.le
  rw [if_neg (Nat.not_lt.mpr short), takeD_larger short, List.reverse_append, List.reverse_replicate, holds.values,
    holds.size]
  exact eq_comm.trans (newest_grow_iff larger given.came given.first 0)

/-- **`setSettings`** keeps the newest values, unless it makes the buffer larger. -/
theorem setSettings_holds_iff (holds : Holds d given) (bufsize : Nat) :
    Holds (d.setSettings bufsize) given ↔ Kept ⟨d, given, copied⟩ (.setSettings bufsize) := by
  have values : Holds (d.setSettings bufsize) given ↔
      (d.setSettings bufsize).buf.reverse = given.newest (d.setSettings bufsize).maxsize :=
    ⟨fun held => held.values, fun same => ⟨List.takeD_length _ _ _, same⟩⟩
  rw [values]
  by_cases smaller : (d.setSettings bufsize).maxsize ≤ d.maxsize
  · exact iff_of_true (holds_smaller holds smaller) (Or.inl smaller)
  · refine (holds_larger_iff holds (Nat.lt_of_not_le smaller)).trans ?_
    exact (or_iff_right smaller).symm

variable {r : Run}

theorem right_quiet_iff {op : Op} {e : DigitalFilter} (done : r.filter.call op = some (e, none))
    (quiet : ¬ Returns op) : Right r op ↔ Holds e (r.given.record op) := by
  constructor
  · rintro ⟨_, same, held, -⟩
    obtain rfl := Option.some.inj (done.symm.trans same)
    exact held
  · exact fun held => ⟨_, done, held, fun returns => absurd returns quiet⟩

theorem currentMedian_done {done : DigitalFilter × Option Int} (called : d.call .currentMedian = some done) :
    done.1.buf = d.buf ∧ done.1.maxsize = d.maxsize ∧
      done.2 = (if d.mvec_sorted then d.mvec else sort d.buf)[d.maxsize / 2]? := by
  obtain ⟨pair, found, rfl⟩ := Option.map_eq_some_iff.mp called
  obtain ⟨value, there, rfl⟩ := Option.map_eq_some_iff.mp found
  exact ⟨rfl, rfl, there.symm⟩

/-- Where there is place for no value, there is no median. -/
theorem not_right_empty (holds : Holds r.filter r.given) (empty : r.filter.maxsize = 0) {op : Op}
    (returns : Returns op)
    (same : ∀ done, r.filter.call op = some done → done.1.buf = r.filter.buf) :
    ¬ Right r op := by
  rintro ⟨done, called, -, middle⟩
  obtain ⟨value, -, there⟩ := middle returns
  have none : done.1.buf = [] := (same done called).trans (List.eq_nil_of_length_eq_zero (holds.size.trans empty))
  rw [none] at there
  exact absurd there.symm (Option.some_ne_none value)

/-- **`median`** returns the middle value. -/
theorem right_median_iff (holds : Holds r.filter r.given) (newval : Int) :
    Right r (.median newval) ↔ r.filter.maxsize ≠ 0 := by
  rcases add_holds holds newval with ⟨empty, -⟩ | ⟨e, added, size, some, held⟩
  · have called : r.filter.call (.median newval) = some (r.filter, some newval) := by
      rw [call, median, if_pos (empty ▸ Nat.zero_lt_one)]
      rfl
    refine iff_of_false (not_right_empty holds empty trivial fun done same => ?_) fun some => some empty
    obtain rfl := Option.some.inj (called.symm.trans same)
    rfl
  · obtain ⟨value, middle⟩ := exists_middle held (size ▸ some)
    have called : r.filter.call (.median newval) =
        .some ({ e with mvec := sort e.buf, mvec_sorted := true }, .some value) := by
      rw [call, median, if_neg (Nat.not_lt.mpr (Nat.one_le_iff_ne_zero.mpr some)), added]
      show ((sort e.buf)[e.maxsize / 2]?.map _).map _ = _
      rw [middle]
      rfl
    exact iff_of_true ⟨_, called, ⟨held.size, held.values⟩, fun _ => ⟨value, rfl, middle⟩⟩ some

/-- **The copy** has the values of the last `median`, if there was one. -/
structure Copies (r : Run) : Prop where
  flag : r.filter.mvec_sorted = r.atMedian.isSome
  copy : ∀ values ∈ r.atMedian, r.filter.mvec = values

/-- Where `currentMedian` finds the middle value. -/
theorem Copies.kept_iff (copies : Copies r) (holds : Holds r.filter r.given)
    (some : r.filter.maxsize ≠ 0) :
    (if r.filter.mvec_sorted then r.filter.mvec else sort r.filter.buf)[r.filter.maxsize / 2]? =
        (sort r.filter.buf)[r.filter.maxsize / 2]? ↔ Kept r .currentMedian := by
  have kept : Kept r .currentMedian ↔
      ∀ values ∈ r.atMedian, values[r.filter.maxsize / 2]? = (sort r.filter.buf)[r.filter.maxsize / 2]? := by
    rw [Kept, and_iff_right some, holds.sorted_eq]
  rw [kept, copies.flag]
  cases made : r.atMedian with
  | none => exact iff_of_true rfl fun _ member => absurd member (Option.some_ne_none _).symm
  | some values =>
    rw [copies.copy values made]
    constructor
    · intro same other member
      obtain rfl := Option.some.inj member
      exact same
    · exact fun all => all values rfl

/-- **`currentMedian`** returns it if it is that of the last `median`. -/
theorem right_currentMedian_iff (holds : Holds r.filter r.given) (copies : Copies r) :
    Right r .currentMedian ↔ Kept r .currentMedian := by
  by_cases empty : r.filter.maxsize = 0
  · exact iff_of_false (not_right_empty holds empty trivial fun _ called => (currentMedian_done called).1)
      fun kept => kept.1 empty
  obtain ⟨value, middle⟩ := exists_middle holds empty
  rw [← copies.kept_iff holds empty, middle]
  constructor
  · rintro ⟨done, called, -, returned⟩
    obtain ⟨buf, maxsize, found⟩ := currentMedian_done called
    obtain ⟨value', same, there⟩ := returned trivial
    rw [buf, maxsize, middle] at there
    rw [← found, same, there]
  · intro found
    have called : ∃ done, r.filter.call .currentMedian = some done := by
      rw [call, currentMedian, found]
      exact ⟨_, rfl⟩
    obtain ⟨done, called⟩ := called
    obtain ⟨buf, maxsize, returned⟩ := currentMedian_done called
    refine ⟨done, called, ⟨?_, ?_⟩, fun _ => ⟨value, returned.trans found, ?_⟩⟩
    · rw [buf, maxsize]
      exact holds.size
    · rw [buf, maxsize]
      exact holds.values
    · rw [buf, maxsize]
      exact middle

/-- **Which calls are right.** -/
theorem right_call_iff (holds : Holds r.filter r.given) (copies : Copies r) (op : Op) :
    Right r op ↔ Kept r op := by
  cases op with
  | init val => exact iff_of_true ((right_quiet_iff rfl id).mpr (holds_init val)) trivial
  | add newval =>
    rcases add_holds holds newval with ⟨empty, nothing⟩ | ⟨e, added, -, some, held⟩
    · refine iff_of_false ?_ fun some => some empty
      rintro ⟨done, same, -⟩
      rw [call, nothing] at same
      exact absurd same (Option.some_ne_none _).symm
    · refine iff_of_true ((right_quiet_iff ?_ id).mpr held) some
      rw [call, added]
      rfl
  | median newval => exact right_median_iff holds newval
  | setSettings bufsize =>
    exact (right_quiet_iff rfl id).trans (setSettings_holds_iff holds bufsize)
  | currentMedian => exact right_currentMedian_iff holds copies

theorem add_frame {e : DigitalFilter} {newval : Int} (added : d.add newval = some e) :
    e.mvec = d.mvec ∧ e.mvec_sorted = d.mvec_sorted ∧ e.maxsize = d.maxsize := by
  obtain ⟨buf, maxsize, mvec, mvec_sorted⟩ := d
  cases buf with
  | nil => exact absurd added (Option.some_ne_none e).symm
  | cons oldest rest =>
    obtain rfl := Option.some.inj added
    exact ⟨rfl, rfl, rfl⟩

/-- **One call** and the copy. -/
theorem copies_step {u : Run} {op : Op} (copies : Copies r) (kept : Kept r op)
    (held : Holds u.filter u.given) (stepped : machine.step r op = some u) : Copies u := by
  obtain ⟨done, called, rfl⟩ := Option.map_eq_some_iff.mp stepped
  cases op with
  | init val =>
    obtain rfl := Option.some.inj called
    exact ⟨copies.flag, copies.copy⟩
  | add newval =>
    obtain ⟨e, added, rfl⟩ := Option.map_eq_some_iff.mp called
    obtain ⟨mvec, flag, -⟩ := add_frame added
    exact ⟨flag.trans copies.flag, fun values member => mvec.trans (copies.copy values member)⟩
  | median newval =>
    have some : ¬ r.filter.maxsize < 1 := fun none => kept (Nat.lt_one_iff.mp none)
    obtain ⟨pair, found, rfl⟩ := Option.map_eq_some_iff.mp called
    rw [median, if_neg some] at found
    obtain ⟨e, added, found⟩ := Option.bind_eq_some_iff.mp found
    obtain ⟨value, -, rfl⟩ := Option.map_eq_some_iff.mp found
    refine ⟨rfl, fun values member => ?_⟩
    obtain rfl := Option.some.inj member
    have sorted := held.sorted_eq
    rw [← (add_frame added).2.2]
    exact sorted.symm
  | setSettings bufsize =>
    obtain rfl := Option.some.inj called
    refine ⟨copies.flag.trans (Option.isSome_map).symm, fun values member => ?_⟩
    obtain ⟨before, same, rfl⟩ := Option.map_eq_some_iff.mp member
    exact congrArg (fun mvec => List.takeD _ mvec 0) (copies.copy before same)
  | currentMedian =>
    obtain ⟨pair, found, rfl⟩ := Option.map_eq_some_iff.mp called
    obtain ⟨value, -, rfl⟩ := Option.map_eq_some_iff.mp found
    refine ⟨copies.flag, fun values member => ?_⟩
    have made : r.filter.mvec_sorted = true := by
      rw [copies.flag, Option.isSome_iff_exists]
      exact ⟨values, member⟩
    exact (if_pos made).trans (copies.copy values member)

/-- **The runs whose calls are right.** -/
theorem calls_right_iff {r : Run} (started : machine.start r) (ops : List Op) :
    machine.Meets Right r ops ↔ machine.Meets Kept r ops := by
  obtain ⟨bufsize, rfl⟩ := started
  refine Machine.meets_iff_meets (P := fun r => Holds r.filter r.given ∧ Copies r)
    (fun r op known (_ : True) => right_call_iff known.1 known.2 op) ?_ (fun _ _ => trivial)
    ⟨@holds_init ⟨[], bufsize, [], false⟩ ⟨0, []⟩ 0, rfl, fun _ member => absurd member (Option.some_ne_none _).symm⟩
  rintro r op u ⟨holds, copies⟩ - right stepped
  have kept := (right_call_iff holds copies op).mp right
  obtain ⟨done, same, held, -⟩ := right
  have moved : machine.step r op = some ⟨done.1, r.given.record op, r.record op⟩ := congrArg (Option.map _) same
  obtain rfl := Option.some.inj (moved.symm.trans stepped)
  exact ⟨held, copies_step copies kept held stepped⟩

/-- **A filter of five values** that is made smaller, and asked for its median right after a value. -/
theorem right_smaller : machine.Meets Right ⟨construct 5, ⟨0, []⟩, none⟩
    [.init 2, .add 7, .currentMedian, .setSettings 3, .median 9, .currentMedian, .init 1, .median 4] :=
  (calls_right_iff ⟨5, rfl⟩ _).mpr (by decide)

/-- **A value that is added after a median** is not seen in the copy. -/
theorem currentMedian_stale :
    (¬ ∀ (r : Run) (ops : List Op), machine.start r → machine.Meets Right r ops) ∧
    ∃ t, machine.run ⟨construct 3, ⟨0, []⟩, none⟩ [.median 9, .add 9] = some t ∧ sort t.filter.buf = [0, 9, 9] ∧
      (t.filter.call .currentMedian).map Prod.snd = some (some 0) := by
  constructor
  · intro all
    have meets := all ⟨construct 3, ⟨0, []⟩, none⟩ [.median 9, .add 9, .currentMedian] ⟨3, rfl⟩
    obtain ⟨done, called, -, returned⟩ := ((meets.2 _ rfl).2 _ rfl).1
    obtain rfl := Option.some.inj called
    obtain ⟨value, same, there⟩ := returned trivial
    obtain rfl := Option.some.inj same
    exact absurd there (by decide)
  · exact ⟨_, rfl, by decide, by decide⟩

end Calls

end DigitalFilter

end UniSet
