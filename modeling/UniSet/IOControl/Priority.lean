/-
**The priority list of the I/O controller.**

`initIOItem` notes the place of an item with `iopriority` before it has made all its checks.

* `initIOItem` — an item of the configuration is put into `iomap`, or refused.
* `result` — all items one after another, then `iomap.resize(maxItem)`.
* `Right` — `iomap` is the accepted items, and `pmap` has one entry for each of them that has a priority, and no
  others.
* `NoneLate` — no item with a priority is refused for its channel, its range or its connection.
* **`right_iff`** — the lists are right exactly if none is.
-/

import UniSet.IOControl.Control
import UniSet.Lib.Window

namespace UniSet.IOControl.Priority

open ModbusMaster (ObjectId IOType)
open Lib (takeD_larger)

/-- **An item of the configuration**: what `initIOItem` and `IOBase::initItem` read of it. -/
structure Item where
  /-- The sensor of `id` or `name`. -/
  sid : Option ObjectId
  iofront : String
  iotype : Option IOType
  /-- The sensors named here, `some none` if there is none of the name. -/
  depend : Option (Option ObjectId)
  thresholdAid : Option (Option ObjectId)
  /-- `none` if there is no text. -/
  card : Option Int
  subdev : Int
  jack : String
  iopriority : Int
  channel : Int
  lamp : Bool
  noIotestlamp : Bool
  enableTestmode : Bool
  disableTestmode : Bool
  range : Int
  aref : Int
  adelay : Int
  deriving DecidableEq, Repr

/-- What `IOBase::initItem` fills. -/
structure Base where
  si : ObjectId
  stype : IOType
  t_ai : Option ObjectId
  deriving DecidableEq, Repr

/-- **`IOInfo`.** -/
structure Info extends Base where
  ncard : Int
  subdev : Int
  channel : Int
  lamp : Bool
  noTestlamp : Bool
  enableTestmode : Bool
  disableTestmode : Bool
  aref : Int
  range : Int
  adelay : Int
  deriving DecidableEq, Repr

def defaultSubdev : Int := -1
def defaultChannel : Int := -1

/-- **`IOBase::initItem`**: its checks. -/
def Item.base (it : Item) : Option Base :=
  match it.sid with
  | none => none
  | some sid =>
    if it.iofront ≠ "" && it.iofront ≠ "01" && it.iofront ≠ "10" then none
    else
      match it.iotype with
      | none => none
      | some stype =>
        if it.depend = some none then none
        else if stype = .AI || stype = .AO then some ⟨sid, stype, none⟩
        else if it.thresholdAid = some none then none
        else some ⟨sid, stype, it.thresholdAid.join⟩

/-- The controller, as far as `initIOItem` changes it. -/
structure Init where
  iomap : List (Option Info)
  pmap : List (Nat × Nat)
  maxItem : Nat
  deriving DecidableEq, Repr

/-- The constructor. -/
def start : Init := ⟨List.replicate 100 none, [], 0⟩

/-- `iomap.resize`. -/
def resize (n : Nat) (iomap : List (Option Info)) : List (Option Info) := iomap.takeD n none

section

variable (cards : Nat) (defCardNum : Int)

/-- The number of the card. -/
def Item.ncard (it : Item) : Int :=
  match it.card with
  | none => defCardNum
  | some ncard => if ncard < 0 || ncard ≥ cards then defCardNum else ncard

/-- The subdevice, by its number or its jack. -/
def Item.subdevice (it : Item) : Int :=
  if it.jack ≠ "" then
    if it.jack = "J1" then 0
    else if it.jack = "J2" then 1
    else if it.jack = "J3" then 2
    else if it.jack = "J4" then 3
    else if it.jack = "J5" then 4
    else defaultSubdev
  else if it.subdev < 0 then defaultSubdev
  else it.subdev

/-- **The second part of `initIOItem`**: what is put into `iomap`, `none` if the item is refused. -/
def Item.checked (it : Item) (base : Base) : Option Info :=
  let inf : Info :=
    ⟨base, it.ncard cards defCardNum, it.subdevice, defaultChannel, false, false, false, false, 0, 0, 0⟩
  if base.t_ai ≠ none then some inf
  else if it.channel < 0 || it.channel > 32 then none
  else
    let inf : Info := { inf with
      channel := it.channel, lamp := it.lamp, noTestlamp := it.noIotestlamp, enableTestmode := it.enableTestmode
      disableTestmode := it.disableTestmode, aref := 0, range := 0, adelay := 10000 }
    if base.stype = .AI || base.stype = .AO then
      if it.range < 0 || it.range > 3 then none
      else if it.aref < 0 || it.aref > 3 then none
      else some { inf with range := it.range, aref := it.aref, adelay := it.adelay }
    else some inf

/-- The entry of an item in `pmap`. -/
def Item.entry (it : Item) (maxItem : Nat) : List (Nat × Nat) :=
  if it.iopriority > 0 then [(it.iopriority.toNat, maxItem)] else []

/-- `iomap`, with place for one more item. -/
def Init.grown (s : Init) : List (Option Info) :=
  if s.maxItem ≥ s.iomap.length then resize (s.maxItem + 30) s.iomap else s.iomap

/-- **`initIOItem`**: the controller after it, and whether the item is accepted. -/
def initIOItem (s : Init) (it : Item) : Init × Bool :=
  match it.base with
  | none => (s, false)
  | some base =>
    let iomap := s.grown
    let pmap := s.pmap ++ it.entry s.maxItem
    match it.checked cards defCardNum base with
    | none => (⟨iomap, pmap, s.maxItem⟩, false)
    | some inf => (⟨iomap.set s.maxItem (some inf), pmap, s.maxItem + 1⟩, true)

/-- **The items of the configuration**, then `iomap.resize(maxItem)`. -/
def result (items : List Item) : Init :=
  let s := items.foldl (fun s it => (initIOItem cards defCardNum s it).1) start
  { s with iomap := resize s.maxItem s.iomap }

/-! ### What the lists should be -/

/-- What an accepted item is in `iomap`. -/
def Item.info (it : Item) : Option Info := it.base.bind (it.checked cards defCardNum)

/-- The accepted items, in their order. -/
def accepted (items : List Item) : List (Item × Info) :=
  items.filterMap fun it => (it.info cards defCardNum).map fun inf => (it, inf)

/-- **The lists are right.** -/
structure Right (items : List Item) : Prop where
  iomap : (result cards defCardNum items).iomap = (accepted cards defCardNum items).map fun a => some a.2
  entries : ∀ p ∈ (result cards defCardNum items).pmap,
    ∃ a, (accepted cards defCardNum items)[p.2]? = some a ∧ a.1.iopriority = p.1
  once : ∀ i a, (accepted cards defCardNum items)[i]? = some a → 0 < a.1.iopriority →
    (result cards defCardNum items).pmap.countP (fun p => p.2 = i) = 1
  polled : ∀ c : Config, c.pmap = (result cards defCardNum items).pmap → ∀ above, ∀ i ∈ State.prior c above,
    i < (result cards defCardNum items).iomap.length

end

/-- An item that `IOBase::initItem` accepts and that is refused for its channel, its range or its connection. -/
def Late (it : Item) : Prop :=
  ∃ base ∈ it.base, base.t_ai = none ∧
    ((it.channel < 0 ∨ it.channel > 32) ∨
      (base.stype = .AI ∨ base.stype = .AO) ∧ ((it.range < 0 ∨ it.range > 3) ∨ it.aref < 0 ∨ it.aref > 3))

/-- **No item with a priority is refused late.** -/
def NoneLate (items : List Item) : Prop := ∀ it ∈ items, 0 < it.iopriority → ¬ Late it

section Items

variable {cards : Nat} {defCardNum : Int}

theorem checked_eq_none_iff {it : Item} {base : Base} : it.checked cards defCardNum base = none ↔
    base.t_ai = none ∧ ((it.channel < 0 ∨ it.channel > 32) ∨
      (base.stype = .AI ∨ base.stype = .AO) ∧ ((it.range < 0 ∨ it.range > 3) ∨ it.aref < 0 ∨ it.aref > 3)) := by
  simp only [Item.checked, Bool.or_eq_true, decide_eq_true_eq]
  by_cases threshold : base.t_ai = none
  · rw [if_neg (not_not_intro threshold), and_iff_right threshold]
    by_cases channel : it.channel < 0 ∨ it.channel > 32
    · rw [if_pos channel]
      exact iff_of_true rfl (Or.inl channel)
    · rw [if_neg channel, or_iff_right channel]
      by_cases analog : base.stype = .AI ∨ base.stype = .AO
      · rw [if_pos analog, and_iff_right analog]
        by_cases range : it.range < 0 ∨ it.range > 3
        · rw [if_pos range]
          exact iff_of_true rfl (Or.inl range)
        · rw [if_neg range, or_iff_right range]
          by_cases aref : it.aref < 0 ∨ it.aref > 3
          · rw [if_pos aref]
            exact iff_of_true rfl aref
          · rw [if_neg aref]
            exact iff_of_false (Option.some_ne_none _) aref
      · rw [if_neg analog]
        exact iff_of_false (Option.some_ne_none _) fun both => analog both.1
  · rw [if_pos threshold]
    exact iff_of_false (Option.some_ne_none _) fun both => threshold both.1

/-- **What `initIOItem` does**: it refuses the item at once, refuses it late, or accepts it. -/
theorem initIOItem_cases (s : Init) (it : Item) :
    (it.base = none ∧ ¬ Late it ∧ it.info cards defCardNum = none ∧ initIOItem cards defCardNum s it = (s, false)) ∨
    (it.base ≠ none ∧ Late it ∧ it.info cards defCardNum = none ∧
      initIOItem cards defCardNum s it = (⟨s.grown, s.pmap ++ it.entry s.maxItem, s.maxItem⟩, false)) ∨
    (it.base ≠ none ∧ ¬ Late it ∧ ∃ inf, it.info cards defCardNum = some inf ∧ initIOItem cards defCardNum s it =
      (⟨s.grown.set s.maxItem (some inf), s.pmap ++ it.entry s.maxItem, s.maxItem + 1⟩, true)) := by
  rw [initIOItem, Item.info]
  cases found : it.base with
  | none =>
    refine Or.inl ⟨rfl, ?_, rfl, rfl⟩
    rintro ⟨base, there, -⟩
    exact absurd (found.symm.trans there) (Option.some_ne_none base).symm
  | some base =>
    have late : Late it ↔ it.checked cards defCardNum base = none := by
      rw [checked_eq_none_iff]
      constructor
      · rintro ⟨other, there, bad⟩
        obtain rfl := Option.some.inj (found.symm.trans there)
        exact bad
      · exact fun bad => ⟨base, found, bad⟩
    rw [Option.bind_some]
    dsimp only
    cases done : it.checked cards defCardNum base with
    | none => exact Or.inr (Or.inl ⟨Option.some_ne_none base, late.mpr done, rfl, rfl⟩)
    | some inf =>
      refine Or.inr (Or.inr ⟨Option.some_ne_none base, fun bad => ?_, inf, rfl, rfl⟩)
      exact absurd (done.symm.trans (late.mp bad)) (Option.some_ne_none inf)

/-- The items are put in one after another. -/
structure Filled (s : Init) (infos : List Info) : Prop where
  count : s.maxItem = infos.length
  place : s.maxItem ≤ s.iomap.length
  items : s.iomap.take s.maxItem = infos.map some

theorem Filled.grown {s : Init} {infos : List Info} (filled : Filled s infos) :
    s.maxItem < s.grown.length ∧ s.grown.take s.maxItem = infos.map some := by
  rw [Init.grown]
  by_cases full : s.maxItem ≥ s.iomap.length
  · have larger : s.iomap.length ≤ s.maxItem + 30 := Nat.le_add_right_of_le full
    rw [if_pos full, resize, List.takeD_length, takeD_larger larger, List.take_append_of_le_length filled.place]
    exact ⟨by omega, filled.items⟩
  · rw [if_neg full]
    exact ⟨Nat.lt_of_not_le full, filled.items⟩

/-- **One item** more. -/
theorem Filled.step {s : Init} {infos : List Info} (filled : Filled s infos) (it : Item) :
    Filled (initIOItem cards defCardNum s it).1 (infos ++ (it.info cards defCardNum).toList) := by
  obtain ⟨place, items⟩ := filled.grown
  rcases @initIOItem_cases cards defCardNum s it with
    ⟨-, -, refused, done⟩ | ⟨-, -, refused, done⟩ | ⟨-, -, inf, taken, done⟩
  · rw [done, refused, Option.toList_none, List.append_nil]
    exact filled
  · rw [done, refused, Option.toList_none, List.append_nil]
    exact ⟨filled.count, place.le, items⟩
  · rw [done, taken]
    refine ⟨?_, ?_, ?_⟩
    · rw [Option.toList_some, List.length_append, ← filled.count]
      rfl
    · rw [List.length_set]
      exact place
    · show (s.grown.set s.maxItem (some inf)).take (s.maxItem + 1) = (infos ++ [inf]).map some
      rw [List.take_add_one, List.take_set_of_le (Nat.le_refl _), items, List.getElem?_set_self place, List.map_append]
      rfl

/-- The entries that a list of items gives, with the place of the first one. -/
def entries (cards : Nat) (defCardNum : Int) : Nat → List Item → List (Nat × Nat)
  | _, [] => []
  | maxItem, it :: rest =>
    if it.base = none then entries cards defCardNum maxItem rest
    else if it.info cards defCardNum = none then it.entry maxItem ++ entries cards defCardNum maxItem rest
    else it.entry maxItem ++ entries cards defCardNum (maxItem + 1) rest

/-- **All items**: `iomap` gets the accepted ones, and `pmap` the entries. -/
theorem foldl_initIOItem (items : List Item) {s : Init} {infos : List Info} (filled : Filled s infos) :
    Filled (items.foldl (fun s it => (initIOItem cards defCardNum s it).1) s)
        (infos ++ (accepted cards defCardNum items).map Prod.snd) ∧
      (items.foldl (fun s it => (initIOItem cards defCardNum s it).1) s).pmap =
        s.pmap ++ entries cards defCardNum s.maxItem items := by
  induction items generalizing s infos with
  | nil =>
    rw [entries, List.append_nil]
    refine ⟨?_, rfl⟩
    show Filled s (infos ++ [])
    rwa [List.append_nil]
  | cons it rest ih =>
    have next := ih (@Filled.step cards defCardNum s infos filled it)
    have infosNext : infos ++ (it.info cards defCardNum).toList ++ (accepted cards defCardNum rest).map Prod.snd =
        infos ++ (accepted cards defCardNum (it :: rest)).map Prod.snd := by
      rw [List.append_assoc, accepted, accepted, List.filterMap_cons]
      cases it.info cards defCardNum <;> rfl
    rw [infosNext] at next
    rw [List.foldl_cons]
    refine ⟨next.1, next.2.trans ?_⟩
    rcases @initIOItem_cases cards defCardNum s it with
      ⟨unknown, -, -, done⟩ | ⟨known, -, refused, done⟩ | ⟨known, -, inf, taken, done⟩
    · rw [done, entries, if_pos unknown]
    · rw [done, entries, if_neg known, if_pos refused, ← List.append_assoc]
    · have taken' : it.info cards defCardNum ≠ none := by
        rw [taken]
        exact Option.some_ne_none inf
      rw [done, entries, if_neg known, if_neg taken', ← List.append_assoc]

variable {maxItem : Nat}

theorem mem_entry_iff {it : Item} {p : Nat × Nat} :
    p ∈ it.entry maxItem ↔ 0 < it.iopriority ∧ p = (it.iopriority.toNat, maxItem) := by
  rw [Item.entry]
  by_cases priority : it.iopriority > 0
  · rw [if_pos priority, List.mem_singleton]
    exact (and_iff_right priority).symm
  · rw [if_neg priority]
    exact iff_of_false List.not_mem_nil fun both => priority both.1

/-- **The entries of a list** are those of its first item and of the others. -/
theorem entries_cons (it : Item) (rest : List Item) (maxItem : Nat) :
    (it.info cards defCardNum = none ∧ ¬ Late it ∧
      entries cards defCardNum maxItem (it :: rest) = entries cards defCardNum maxItem rest) ∨
    (it.info cards defCardNum = none ∧ Late it ∧ entries cards defCardNum maxItem (it :: rest) =
      it.entry maxItem ++ entries cards defCardNum maxItem rest) ∨
    (¬ Late it ∧ ∃ inf, it.info cards defCardNum = some inf ∧ entries cards defCardNum maxItem (it :: rest) =
      it.entry maxItem ++ entries cards defCardNum (maxItem + 1) rest) := by
  rcases @initIOItem_cases cards defCardNum start it with
    ⟨unknown, early, refused, -⟩ | ⟨known, late, refused, -⟩ | ⟨known, good, inf, taken, -⟩
  · exact Or.inl ⟨refused, early, by rw [entries, if_pos unknown]⟩
  · exact Or.inr (Or.inl ⟨refused, late, by rw [entries, if_neg known, if_pos refused]⟩)
  · have taken' : it.info cards defCardNum ≠ none := by
      rw [taken]
      exact Option.some_ne_none inf
    exact Or.inr (Or.inr ⟨good, inf, taken, by rw [entries, if_neg known, if_neg taken']⟩)

theorem le_of_mem_entries {items : List Item} {p : Nat × Nat}
    (member : p ∈ entries cards defCardNum maxItem items) : maxItem ≤ p.2 := by
  induction items generalizing maxItem with
  | nil => exact absurd member List.not_mem_nil
  | cons it rest ih =>
    have own : p ∈ it.entry maxItem → maxItem ≤ p.2 := fun first => by rw [(mem_entry_iff.mp first).2]
    rcases @entries_cons cards defCardNum it rest maxItem with ⟨-, -, same⟩ | ⟨-, -, same⟩ | ⟨-, inf, -, same⟩
    · rw [same] at member
      exact ih member
    · rw [same] at member
      exact (List.mem_append.mp member).elim own ih
    · rw [same] at member
      exact (List.mem_append.mp member).elim own fun later => Nat.le_of_succ_le (ih later)

theorem accepted_cons (it : Item) (rest : List Item) : accepted cards defCardNum (it :: rest) =
    ((it.info cards defCardNum).map fun inf => (it, inf)).toList ++ accepted cards defCardNum rest := by
  rw [accepted, List.filterMap_cons]
  cases it.info cards defCardNum <;> rfl

/-- An accepted item with a priority has an entry. -/
theorem mem_entries {items : List Item} {i : Nat} {a : Item × Info}
    (there : (accepted cards defCardNum items)[i]? = some a) (priority : 0 < a.1.iopriority) (maxItem : Nat) :
    (a.1.iopriority.toNat, maxItem + i) ∈ entries cards defCardNum maxItem items := by
  induction items generalizing maxItem i with
  | nil => exact absurd there.symm (Option.some_ne_none a)
  | cons it rest ih =>
    rw [accepted_cons] at there
    rcases @entries_cons cards defCardNum it rest maxItem with
      ⟨refused, -, same⟩ | ⟨refused, -, same⟩ | ⟨-, inf, taken, same⟩
    · rw [refused] at there
      rw [same]
      exact ih there maxItem
    · rw [refused] at there
      rw [same]
      exact List.mem_append_right _ (ih there maxItem)
    · rw [taken] at there
      rw [same]
      cases i with
      | zero =>
        obtain rfl := Option.some.inj there
        exact List.mem_append_left _ (mem_entry_iff.mpr ⟨priority, rfl⟩)
      | succ i =>
        have later := ih there (maxItem + 1)
        rw [Nat.add_right_comm] at later
        exact List.mem_append_right _ later

/-- **The entries that are right**, where the first item has the place `maxItem`. -/
structure EntriesRight (maxItem : Nat) (all : List (Nat × Nat)) (accepted : List (Item × Info)) : Prop where
  entries : ∀ p ∈ all, ∃ i a, p.2 = maxItem + i ∧ accepted[i]? = some a ∧ a.1.iopriority = p.1
  once : ∀ i a, accepted[i]? = some a → 0 < a.1.iopriority → all.countP (fun p => p.2 = maxItem + i) = 1

/-- The first place is not in a list of entries behind it. -/
theorem countP_behind {later : List (Nat × Nat)} (behind : ∀ p ∈ later, maxItem + 1 ≤ p.2) :
    later.countP (fun p => p.2 = maxItem) = 0 := by
  refine List.countP_eq_zero.mpr fun p member => ?_
  have far := behind p member
  rw [decide_eq_true_eq]
  omega

/-- **An accepted item before the others.** -/
theorem entriesRight_cons_iff {it : Item} {inf : Info} {later : List (Nat × Nat)}
    {accepted : List (Item × Info)} (behind : ∀ p ∈ later, maxItem + 1 ≤ p.2) :
    EntriesRight maxItem (it.entry maxItem ++ later) ((it, inf) :: accepted) ↔
      EntriesRight (maxItem + 1) later accepted := by
  have own : ∀ i, (it.entry maxItem).countP (fun p => p.2 = maxItem + (i + 1)) = 0 := by
    intro i
    refine List.countP_eq_zero.mpr fun p member => ?_
    rw [(mem_entry_iff.mp member).2, decide_eq_true_eq]
    omega
  have moved : ∀ i, maxItem + (i + 1) = maxItem + 1 + i := fun i => by omega
  constructor
  · refine fun right => ⟨fun p member => ?_, fun i a there priority => ?_⟩
    · obtain ⟨i, a, place, there, same⟩ := right.entries p (List.mem_append_right _ member)
      have far := behind p member
      cases i with
      | zero => omega
      | succ i => exact ⟨i, a, place.trans (moved i), there, same⟩
    · have one := right.once (i + 1) a there priority
      rwa [List.countP_append, own, Nat.zero_add, moved] at one
  · refine fun right => ⟨fun p member => ?_, fun i a there priority => ?_⟩
    · rcases List.mem_append.mp member with first | member
      · obtain ⟨priority, rfl⟩ := mem_entry_iff.mp first
        exact ⟨0, _, rfl, rfl, (Int.toNat_of_nonneg priority.le).symm⟩
      · obtain ⟨i, a, place, there, same⟩ := right.entries p member
        exact ⟨i + 1, a, place.trans (moved i).symm, there, same⟩
    · rw [List.countP_append]
      cases i with
      | zero =>
        obtain rfl := Option.some.inj there
        rw [Nat.add_zero, countP_behind behind, Item.entry, if_pos priority, List.countP_singleton]
        exact if_pos (decide_eq_true rfl)
      | succ i =>
        rw [own, Nat.zero_add, moved]
        exact right.once i a there priority

/-- **When the entries are right.** -/
theorem entriesRight_iff (items : List Item) (maxItem : Nat) :
    EntriesRight maxItem (entries cards defCardNum maxItem items) (accepted cards defCardNum items) ↔
      NoneLate items := by
  induction items generalizing maxItem with
  | nil =>
    refine iff_of_true ⟨fun _ member => absurd member List.not_mem_nil, fun i a there => ?_⟩
      fun _ member => absurd member List.not_mem_nil
    exact absurd there.symm (Option.some_ne_none a)
  | cons it rest ih =>
    have noneLate : NoneLate (it :: rest) ↔ (0 < it.iopriority → ¬ Late it) ∧ NoneLate rest := List.forall_mem_cons
    rw [noneLate, accepted_cons]
    rcases @entries_cons cards defCardNum it rest maxItem with
      ⟨refused, early, same⟩ | ⟨refused, late, same⟩ | ⟨good, inf, taken, same⟩
    · rw [same, refused, and_iff_right fun _ => early]
      exact ih maxItem
    · rw [same, refused]
      by_cases priority : 0 < it.iopriority
      · refine iff_of_false (fun right => ?_) fun none => none.1 priority late
        -- the place of the refused item is that of the next accepted one, which has an entry of its own
        have own : (it.iopriority.toNat, maxItem) ∈ it.entry maxItem := mem_entry_iff.mpr ⟨priority, rfl⟩
        obtain ⟨i, a, place, there, value⟩ := right.entries _ (List.mem_append_left _ own)
        have positive : 0 < a.1.iopriority := by
          rw [value]
          exact Int.natCast_pos.mpr (Int.pos_iff_toNat_pos.mp priority)
        have twice := right.once i a there positive
        have first : 0 < (it.entry maxItem).countP fun p => p.2 = maxItem + i :=
          List.countP_pos_iff.mpr ⟨_, own, decide_eq_true place⟩
        have second : 0 < (entries cards defCardNum maxItem rest).countP fun p => p.2 = maxItem + i :=
          List.countP_pos_iff.mpr ⟨_, mem_entries there positive maxItem, decide_eq_true rfl⟩
        rw [List.countP_append] at twice
        omega
      · rw [Item.entry, if_neg priority, List.nil_append, and_iff_right fun positive => absurd positive priority]
        exact ih maxItem
    · rw [same, taken, and_iff_right fun _ => good]
      exact (entriesRight_cons_iff fun p member => le_of_mem_entries member).trans (ih (maxItem + 1))

/-- **What all items leave.** -/
theorem result_eq (items : List Item) :
    (result cards defCardNum items).iomap = (accepted cards defCardNum items).map (fun a => some a.2) ∧
      (result cards defCardNum items).pmap = entries cards defCardNum 0 items := by
  obtain ⟨filled, pmap⟩ := @foldl_initIOItem cards defCardNum items start [] ⟨rfl, Nat.zero_le _, rfl⟩
  refine ⟨?_, pmap⟩
  have cut := List.takeD_eq_take (none : Option Info) filled.place
  refine (cut.trans filled.items).trans ?_
  rw [List.nil_append, List.map_map]
  rfl

/-- **When the lists are right.** -/
theorem right_iff (items : List Item) : Right cards defCardNum items ↔ NoneLate items := by
  obtain ⟨iomap, pmap⟩ := @result_eq cards defCardNum items
  rw [← @entriesRight_iff cards defCardNum items 0]
  constructor
  · refine fun right => ⟨fun p member => ?_, fun i a there priority => ?_⟩
    · obtain ⟨a, there, same⟩ := right.entries p (pmap ▸ member)
      exact ⟨p.2, a, (Nat.zero_add _).symm, there, same⟩
    · rw [Nat.zero_add, ← pmap]
      exact right.once i a there priority
  · intro right
    have entries : ∀ p ∈ (result cards defCardNum items).pmap,
        ∃ a, (accepted cards defCardNum items)[p.2]? = some a ∧ a.1.iopriority = p.1 := by
      intro p member
      obtain ⟨i, a, place, there, same⟩ := right.entries p (pmap ▸ member)
      rw [Nat.zero_add] at place
      exact ⟨a, place ▸ there, same⟩
    refine ⟨iomap, entries, fun i a there priority => ?_, fun c same above i polled => ?_⟩
    · rw [pmap, ← Nat.zero_add i]
      exact right.once i a there priority
    · obtain ⟨p, member, rfl⟩ := List.mem_map.mp polled
      obtain ⟨a, there, -⟩ := entries p (same ▸ (List.mem_filter.mp member).1)
      rw [iomap, List.length_map]
      exact (List.getElem?_eq_some_iff.mp there).1

/-- An item with a priority, whose channel is refused. -/
def badChannel : Item :=
  ⟨some 1, "", some .DI, none, none, some 1, 0, "", 2, 33, false, false, false, false, 0, 0, 0⟩

/-- **A channel that is refused**: the item has an entry and no place in `iomap`, and the next item gets the entry. -/
theorem entry_refused :
    (¬ ∀ (cards : Nat) (defCardNum : Int) (items : List Item), Right cards defCardNum items) ∧
    (result 2 (-1) [badChannel]).pmap = [(2, 0)] ∧ (result 2 (-1) [badChannel]).iomap = [] ∧
    (result 2 (-1) [badChannel, { badChannel with channel := 0, iopriority := 0 }]).pmap = [(2, 0)] := by
  refine ⟨fun all => ?_, by decide, by decide, by decide⟩
  obtain ⟨a, there, -⟩ := (all 2 (-1) [badChannel]).entries (2, 0) (by decide)
  exact absurd there.symm (Option.some_ne_none a)

end Items

end UniSet.IOControl.Priority
