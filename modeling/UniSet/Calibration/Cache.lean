/-
**The cache of a calibration diagram.**

`getValue` keeps the last values it has looked up, the often used ones first. A new cache has entries with the
reserved raw value `outOfRange`; a hit counts, and every so many hits the entries are sorted again.

* `CacheInfo` — an entry; `before` is its comparison.
* **`sorts_iff`** — the comparison is a strict weak ordering of entries exactly if none of them is a placeholder.
* `Cache` — the cache of a diagram with its counters; `Sorting` is whatever order a sort leaves.
* `cacheCalls` — the calls for a diagram; `Transparent` is a call that answers as without the cache.
* **`cacheCalls_transparent`** — every call of every run does.
-/

import Mathlib.Order.Defs.Unbundled
import UniSet.Lib.Machine
import UniSet.Calibration.Parts

namespace UniSet.CalibrationDiagram

open Lib (Machine)

/-- **An entry of the cache.** -/
structure CacheInfo where
  val : ℤ
  raw : ℤ
  cnt : UInt64
deriving DecidableEq

namespace CacheInfo

/-- The constructor without arguments: an entry that has no value yet. -/
def placeholder : CacheInfo := ⟨0, outOfRange, 0⟩

/-- The constructor of a value that has been looked up. -/
def looked (r v : ℤ) : CacheInfo := ⟨v, r, 0⟩

/-- `operator<`: the often used entries first, the placeholders last. -/
def before (c r : CacheInfo) : Bool :=
  if r.raw = outOfRange then true
  else if c.raw = outOfRange then false
  else c.cnt > r.cnt

variable {a b : CacheInfo}

theorem before_placeholder (reserved : b.raw = outOfRange) : a.before b = true := if_pos reserved

/-- Between entries with a value, the comparison is that of the counters. -/
theorem before_iff (left : a.raw ≠ outOfRange) (right : b.raw ≠ outOfRange) : a.before b = true ↔ b.cnt < a.cnt := by
  rw [before, if_neg right, if_neg left, decide_eq_true_eq]

end CacheInfo

/-- **The comparison as the sorts need it.** It is irreflexive and transitive, and so asymmetric, and entries that
are equivalent to a third are so to each other, exactly if none of the entries is a placeholder. -/
theorem sorts_iff (entries : List CacheInfo) :
    IsStrictWeakOrder {c // c ∈ entries} (fun a b => a.1.before b.1 = true) ↔ ∀ c ∈ entries, c.raw ≠ outOfRange := by
  constructor
  · intro sorts c member reserved
    exact sorts.irrefl ⟨c, member⟩ (CacheInfo.before_placeholder reserved)
  · intro valued
    have compares : ∀ a b : {c // c ∈ entries}, a.1.before b.1 = true ↔ b.1.cnt < a.1.cnt := fun a b =>
      CacheInfo.before_iff (valued a.1 a.2) (valued b.1 b.2)
    simp only [compares]
    refine { irrefl := ?_, trans := ?_, incomp_trans := ?_ }
    · exact fun a => UInt64.lt_irrefl a.1.cnt
    · exact fun a b c first second => UInt64.lt_trans second first
    · rintro a b c ⟨ab, ba⟩ ⟨bc, cb⟩
      rw [UInt64.not_lt] at ab ba bc cb ⊢
      exact ⟨UInt64.le_trans ab bc, UInt64.not_lt.mpr (UInt64.le_trans cb ba)⟩

/-! ### The calls -/

/-- What a sort does: it leaves the same entries in some order. -/
structure Sorting where
  order : List CacheInfo → List CacheInfo
  perm : ∀ entries, (order entries).Perm entries

/-- **The cache.** -/
structure Cache where
  entries : List CacheInfo
  szCache : Nat
  numCacheResort : UInt64
  numCallToCache : UInt64

namespace Cache

/-- The cache that the constructors make. -/
def new : Cache := ⟨List.replicate 5 CacheInfo.placeholder, 5, 20, 5⟩

/-- The first entry with the raw value counts a call: its value, and the entries. -/
def hit (raw : ℤ) : List CacheInfo → Option (ℤ × List CacheInfo)
  | [] => none
  | c :: rest =>
    if c.raw = raw then some (c.val, { c with cnt := c.cnt + 1 } :: rest)
    else (hit raw rest).map fun found => (found.1, c :: found.2)

variable (s : Cache) (sort : Sorting)

/-- `insertToCache`: the new entry takes the place of the last one. -/
def insertToCache (raw val : ℤ) : Cache :=
  { s with entries := sort.order (s.entries.dropLast ++ [CacheInfo.looked raw val]) }

/-- `setCacheSize`. -/
def setCacheSize (sz : Nat) : Cache :=
  { s with
    entries := (sort.order s.entries).take sz ++ List.replicate (sz - s.entries.length) CacheInfo.placeholder
    szCache := sz }

/-- `setCacheResortCycle`. -/
def setCacheResortCycle (n : UInt64) : Cache := { s with numCacheResort := n, numCallToCache := n }

/-- The end of a hit: after so many of them the entries are sorted. -/
def called (entries : List CacheInfo) : Cache :=
  if s.numCallToCache - 1 ≠ 0 then { s with entries := entries, numCallToCache := s.numCallToCache - 1 }
  else { s with entries := sort.order entries, numCallToCache := s.numCacheResort }

/-- **`getValue`**: its answer and the cache after it, none if the lookup does not return. What a lookup inserts is
what it answers. -/
def getValue (pvec : List Part) (raw : ℤ) (cropRaw : Bool) : Option (ℤ × Cache) :=
  if raw < leftRaw pvec then some (if cropRaw then leftVal pvec else outOfRange, s)
  else if raw > rightRaw pvec then some (if cropRaw then rightVal pvec else outOfRange, s)
  else
    ((if s.szCache ≠ 0 then hit raw s.entries else none).map fun found => (found.1, s.called sort found.2)).or
      ((compute pvec raw).map fun val => (val, if s.szCache ≠ 0 then s.insertToCache sort raw val else s))

end Cache

/-- A call, with what its sort does. -/
inductive CacheCall where
  | getValue (raw : ℤ) (cropRaw : Bool) (sort : Sorting)
  | setCacheSize (sz : Nat) (sort : Sorting)
  | setCacheResortCycle (n : UInt64)

/-- **The calls for a diagram**, from its constructor on. -/
def cacheCalls (pvec : List Part) : Machine Cache CacheCall where
  start s := s = Cache.new
  step s
    | .getValue raw cropRaw sort => (s.getValue sort pvec raw cropRaw).map Prod.snd
    | .setCacheSize sz sort => some (s.setCacheSize sort sz)
    | .setCacheResortCycle n => some (s.setCacheResortCycle n)

/-- **A call that answers as without the cache.** -/
def Transparent (pvec : List Part) (s : Cache) : CacheCall → Prop
  | .getValue raw cropRaw sort => (s.getValue sort pvec raw cropRaw).map Prod.fst =
      (Cache.getValue { s with szCache := 0 } sort pvec raw cropRaw).map Prod.fst
  | _ => True

/-! ### What the cache has -/

section Entries

variable {pvec : List Part}

/-- An entry is a placeholder or has what the lookup gives. -/
def Holds (pvec : List Part) (c : CacheInfo) : Prop := c.raw = outOfRange ∨ compute pvec c.raw = some c.val

/-- **What every call keeps**: the entries hold, and there are as many as the cache is large. -/
structure Cached (pvec : List Part) (s : Cache) : Prop where
  holds : ∀ c ∈ s.entries, Holds pvec c
  size : s.entries.length = s.szCache

theorem holds_placeholder : Holds pvec CacheInfo.placeholder := .inl rfl

theorem cached_new : Cached pvec Cache.new :=
  ⟨fun _ member => List.eq_of_mem_replicate member ▸ holds_placeholder, List.length_replicate⟩

theorem hit_some {raw val : ℤ} : ∀ {entries after : List CacheInfo}, Cache.hit raw entries = some (val, after) →
    (∃ c ∈ entries, c.raw = raw ∧ c.val = val) ∧ after.length = entries.length ∧
      ∀ c ∈ after, ∃ old ∈ entries, c.raw = old.raw ∧ c.val = old.val
  | [], after, found => absurd found (by simp [Cache.hit])
  | c :: rest, after, found => by
    rw [Cache.hit] at found
    by_cases here : c.raw = raw
    · rw [if_pos here] at found
      simp only [Option.some.injEq, Prod.mk.injEq] at found
      obtain ⟨rfl, rfl⟩ := found
      refine ⟨⟨c, List.mem_cons_self, here, rfl⟩, rfl, fun other member => ?_⟩
      rcases List.mem_cons.mp member with rfl | member
      · exact ⟨c, List.mem_cons_self, rfl, rfl⟩
      · exact ⟨other, List.mem_cons_of_mem _ member, rfl, rfl⟩
    · rw [if_neg here] at found
      obtain ⟨⟨val', after'⟩, later, same⟩ := Option.map_eq_some_iff.mp found
      simp only [Prod.mk.injEq] at same
      obtain ⟨rfl, rfl⟩ := same
      obtain ⟨⟨c', member, raws⟩, length, olds⟩ := hit_some later
      refine ⟨⟨c', List.mem_cons_of_mem _ member, raws⟩, congrArg (· + 1) length, fun other member => ?_⟩
      rcases List.mem_cons.mp member with rfl | member
      · exact ⟨other, List.mem_cons_self, rfl, rfl⟩
      · obtain ⟨old, member, sames⟩ := olds other member
        exact ⟨old, List.mem_cons_of_mem _ member, sames⟩

variable {s t : Cache} {sort : Sorting}

theorem holds_sorted {entries : List CacheInfo} (holds : ∀ c ∈ entries, Holds pvec c) :
    ∀ c ∈ sort.order entries, Holds pvec c :=
  fun c member => holds c ((sort.perm entries).mem_iff.mp member)

theorem cached_called (cached : Cached pvec s) {entries : List CacheInfo} (length : entries.length = s.entries.length)
    (holds : ∀ c ∈ entries, Holds pvec c) : Cached pvec (s.called sort entries) := by
  have size := length.trans cached.size
  rw [Cache.called]
  split
  · exact ⟨holds, size⟩
  · exact ⟨holds_sorted holds, (sort.perm entries).length_eq.trans size⟩

/-- **An insertion takes the last entry out of a cache that has one.** -/
theorem cached_insert (cached : Cached pvec s) (room : s.szCache ≠ 0) {raw val : ℤ}
    (computed : compute pvec raw = some val) : Cached pvec (s.insertToCache sort raw val) := by
  refine ⟨holds_sorted fun c member => ?_, ?_⟩
  · rcases List.mem_append.mp member with old | new
    · exact cached.holds c (List.dropLast_subset _ old)
    · rw [List.mem_singleton.mp new]
      exact .inr computed
  · have one : 1 ≤ s.entries.length := cached.size ▸ Nat.one_le_iff_ne_zero.mpr room
    show (sort.order _).length = s.szCache
    rw [(sort.perm _).length_eq, List.length_append, List.length_dropLast, List.length_singleton,
      Nat.sub_add_cancel one, cached.size]

theorem cached_setCacheSize (cached : Cached pvec s) (sz : Nat) : Cached pvec (s.setCacheSize sort sz) := by
  refine ⟨fun c member => ?_, ?_⟩
  · rcases List.mem_append.mp member with old | new
    · exact holds_sorted cached.holds c (List.mem_of_mem_take old)
    · exact List.eq_of_mem_replicate new ▸ holds_placeholder
  · show (List.take sz (sort.order s.entries) ++ _).length = sz
    rw [List.length_append, List.length_take, (sort.perm _).length_eq, List.length_replicate]
    omega

/-- **Every call keeps what the cache has.** -/
theorem cached_step (cached : Cached pvec s) {call : CacheCall} (stepped : (cacheCalls pvec).step s call = some t) :
    Cached pvec t := by
  cases call with
  | setCacheSize sz sort => exact Option.some.inj stepped ▸ cached_setCacheSize cached sz
  | setCacheResortCycle n => exact Option.some.inj stepped ▸ ⟨cached.holds, cached.size⟩
  | getValue raw cropRaw sort =>
    obtain ⟨⟨val, after⟩, answered, rfl⟩ := Option.map_eq_some_iff.mp stepped
    rw [Cache.getValue] at answered
    split at answered
    · exact Option.some.inj answered ▸ cached
    split at answered
    · exact Option.some.inj answered ▸ cached
    rcases Option.or_eq_some_iff.mp answered with inCache | ⟨-, looked⟩
    · obtain ⟨⟨val', entries⟩, found, same⟩ := Option.map_eq_some_iff.mp inCache
      obtain ⟨-, rfl⟩ := Prod.mk.inj same
      by_cases room : s.szCache ≠ 0
      · rw [if_pos room] at found
        obtain ⟨-, length, olds⟩ := hit_some found
        refine cached_called cached length fun c member => ?_
        obtain ⟨old, kept, raws, vals⟩ := olds c member
        rw [Holds, raws, vals]
        exact cached.holds old kept
      · rw [if_neg room] at found
        cases found
    · obtain ⟨val', computed, same⟩ := Option.map_eq_some_iff.mp looked
      obtain ⟨-, rfl⟩ := Prod.mk.inj same
      by_cases room : s.szCache ≠ 0
      · rw [if_pos room]
        exact cached_insert cached room computed
      · rw [if_neg room]
        exact cached

/-- The answer of a lookup, whatever it does to the cache. -/
theorem map_looked {computed : Option ℤ} {after : ℤ → Cache} :
    (computed.map fun val => (val, after val)).map Prod.fst = computed := by
  rw [Option.map_map]
  exact Option.map_id'

/-- **A cache of size zero is none.** -/
theorem getValue_without {raw : ℤ} {cropRaw : Bool} :
    (Cache.getValue { s with szCache := 0 } sort pvec raw cropRaw).map Prod.fst =
    CalibrationDiagram.getValue pvec raw cropRaw := by
  rw [Cache.getValue, CalibrationDiagram.getValue]
  split
  · rfl
  split
  · rfl
  rw [if_neg (not_not_intro rfl), Option.map_none, Option.none_or, map_looked]

/-- **Where the reserved value is beyond the limits, a hit has what the lookup gives.** -/
theorem transparent_of_cached (beyond : rightRaw pvec < outOfRange) (cached : Cached pvec s) (call : CacheCall) :
    Transparent pvec s call := by
  cases call with
  | setCacheSize sz sort => trivial
  | setCacheResortCycle n => trivial
  | getValue raw cropRaw sort =>
    rw [Transparent, getValue_without, Cache.getValue, CalibrationDiagram.getValue]
    split
    · rfl
    split
    · rfl
    rename_i _ notAbove
    by_cases room : s.szCache ≠ 0
    · rw [if_pos room]
      cases found : Cache.hit raw s.entries with
      | none =>
        rw [Option.map_none, Option.none_or, map_looked]
      | some hit =>
        obtain ⟨val, entries⟩ := hit
        obtain ⟨c, member, rfl, rfl⟩ := (hit_some found).1
        rcases cached.holds c member with reserved | computed
        · omega
        · rw [computed]
          rfl
    · rw [if_neg room]
      rw [Option.map_none, Option.none_or, map_looked]

end Entries

/-! ### The reserved value -/

/-- A value of the type `float`: 24 bits and a power of two. -/
def IsFloat (q : ℚ) : Prop := ∃ m e : ℤ, |m| < 2 ^ 24 ∧ q = m * 2 ^ e

/-- **No `float` is cut to `outOfRange`**: those next to it are multiples of a power of two above the distance. -/
theorem toLong_ne_outOfRange {q : ℚ} (float : IsFloat q) : toLong q ≠ outOfRange := by
  intro reserved
  have near : ((2 ^ 63 - 1 : ℤ) : ℚ) ≤ q ∧ q < 2 ^ 63 := by
    rw [toLong] at reserved
    split at reserved
    · obtain ⟨lower, upper⟩ := Int.floor_eq_iff.mp reserved
      refine ⟨lower, lt_of_lt_of_le upper ?_⟩
      norm_num [outOfRange]
    · rename_i negative
      have nonpos := Int.ceil_le.mpr (by simpa using le_of_not_ge negative : q ≤ ((0 : ℤ) : ℚ))
      rw [reserved] at nonpos
      exact absurd nonpos (by decide)
  obtain ⟨m, e, bits, rfl⟩ := float
  have top : m ≤ 2 ^ 24 - 1 := by have := (abs_lt.mp bits).2; omega
  rcases le_or_gt e 39 with small | large
  · have power : (2 : ℚ) ^ e ≤ 2 ^ (39 : ℤ) := zpow_le_zpow_right₀ (by norm_num) small
    have most : (m : ℚ) * 2 ^ e ≤ (2 ^ 24 - 1) * 2 ^ (39 : ℤ) := by
      have cast : (m : ℚ) ≤ 2 ^ 24 - 1 := by exact_mod_cast top
      have positive : (0 : ℚ) < 2 ^ e := zpow_pos (by norm_num) e
      calc (m : ℚ) * 2 ^ e ≤ (2 ^ 24 - 1) * 2 ^ e := by gcongr
        _ ≤ (2 ^ 24 - 1) * 2 ^ (39 : ℤ) := mul_le_mul_of_nonneg_left power (by norm_num)
    have below := le_trans near.1 most
    norm_num at below
  · obtain ⟨n, shift⟩ := Int.eq_ofNat_of_zero_le (by omega : 0 ≤ e - 40)
    have whole : (m : ℚ) * 2 ^ e = ((m * 2 ^ n * 2 ^ 40 : ℤ) : ℚ) := by
      have exponent : e = n + 40 := by omega
      rw [exponent, zpow_add₀ (by norm_num)]
      push_cast
      rw [zpow_natCast]
      ring
    rw [whole] at near
    have lower : (2 ^ 63 - 1 : ℤ) ≤ m * 2 ^ n * 2 ^ 40 := by exact_mod_cast near.1
    have upper : m * 2 ^ n * 2 ^ 40 < (2 ^ 63 : ℤ) := by exact_mod_cast near.2
    omega

/-- The limits of a diagram with `float` points are below the reserved value. -/
theorem rightRaw_lt {points : List Point} (d : Characteristic points) (many : 2 ≤ points.length)
    (floats : ∀ p ∈ points, IsFloat p.x) (long : rightRaw d.pvec ≤ outOfRange) : rightRaw d.pvec < outOfRange := by
  have inside := last_lt (d.pvec_ne_nil many)
  have member : part d.pvec (last d.pvec) ∈ segments points := by
    rw [part_eq inside]
    exact d.perm.mem_iff.mp (List.getElem_mem inside)
  exact lt_of_le_of_ne long (toLong_ne_outOfRange (floats _ (ends_mem member).2))

/-- **The cache does not show.** Whatever the calls for a diagram and whatever order its sorts leave, every call
answers as without the cache. -/
theorem cacheCalls_transparent {points : List Point} (d : Characteristic points) (many : 2 ≤ points.length)
    (floats : ∀ p ∈ points, IsFloat p.x) (long : rightRaw d.pvec ≤ outOfRange) (calls : List CacheCall) :
    (cacheCalls d.pvec).Meets (Transparent d.pvec) Cache.new calls :=
  Machine.meets_of_invariant (P := Cached d.pvec)
    (fun _ _ _ cached _ stepped => cached_step cached stepped)
    (fun _ call cached _ => transparent_of_cached (rightRaw_lt d many floats long) cached call)
    cached_new (Machine.meets_true calls)

/-- The sort that leaves the entries as they are. -/
def unsorted : Sorting := ⟨id, fun _ => List.Perm.refl _⟩

theorem isFloat_intCast {m : ℤ} (bits : |m| < 2 ^ 24) : IsFloat m := ⟨m, 0, bits, by rw [zpow_zero, mul_one]⟩

/-- A run with hits, and with a cache that is made larger in between. -/
theorem cacheCalls_testcal : (cacheCalls testcal.pvec).Meets (Transparent testcal.pvec) Cache.new
    [.getValue 75 false unsorted, .getValue 75 true unsorted, .setCacheSize 7 unsorted, .setCacheResortCycle 0,
      .getValue 75 false unsorted, .getValue 300 false unsorted] := by
  refine cacheCalls_transparent testcal (by decide) (fun p member => ?_) (by decide +kernel) _
  simp only [List.mem_cons, List.not_mem_nil, or_false] at member
  rcases member with rfl | rfl | rfl | rfl | rfl | rfl | rfl
  · exact_mod_cast isFloat_intCast (m := -200) (by decide)
  · exact_mod_cast isFloat_intCast (m := -100) (by decide)
  · exact_mod_cast isFloat_intCast (m := -50) (by decide)
  · exact_mod_cast isFloat_intCast (m := 0) (by decide)
  · exact_mod_cast isFloat_intCast (m := 50) (by decide)
  · exact_mod_cast isFloat_intCast (m := 100) (by decide)
  · exact_mod_cast isFloat_intCast (m := 200) (by decide)

/-- **The sorts of a new cache compare placeholders**: such an entry comes before itself. -/
theorem new_not_sorts :
    ¬ IsStrictWeakOrder {c // c ∈ Cache.new.entries} (fun a b => a.1.before b.1 = true) := by
  intro sorts
  have member : CacheInfo.placeholder ∈ Cache.new.entries := List.mem_cons_self
  exact sorts.irrefl ⟨CacheInfo.placeholder, member⟩ rfl

end UniSet.CalibrationDiagram
