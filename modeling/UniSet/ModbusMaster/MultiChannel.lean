/-
**The choice of the channel of a multi-master.**

The list of channels is walked from its end; it is meant to be sorted by priority, but it is a list of
pointers and sorted as such. `initMB` chooses a channel and `check_thread` looks after those that are
not in use; the flag `use` of a channel tells the latter that there is nothing to look at.

* `MBSlaveInfo` — a channel.
* `Master.initMB` — the current channel, the first choice, the second one that does not look at
  `ignore`.
* `Master.checkThread` — a pass over all channels.
* `Follows`, `Highest`, `OwnCheck` — what a step should achieve.
* `Smooth` — the condition on a step.
* **`channels_follow`** — in a run whose steps are smooth every step achieves it.
* `lower_priority_chosen` — two channels, the flag of the constructor and the order of the list.
-/

import UniSet.ModbusMaster.Reload
import UniSet.Timers

namespace UniSet.ModbusMaster

namespace MultiChannel

open Reload (Gate Node Multi)

/-- **`MBSlaveInfo`**: a channel with the state of its connection. -/
structure MBSlaveInfo where
  gate : Gate
  respond : Bool
  respondInit : Bool
  respondDelay : DelayTimer
  use : Bool
  initOK : Bool
  ignore : Bool
  ptIgnoreTimeout : PassiveTimer
deriving DecidableEq, Repr

namespace MBSlaveInfo

/-- A channel of `initGateList`. -/
def ofGate (now : Nat) (gate : Gate) : MBSlaveInfo where
  gate := gate
  respond := false
  respondInit := false
  respondDelay := .set now 0 gate.channelTimeout
  use := false
  initOK := false
  ignore := false
  ptIgnoreTimeout := .setTiming now gate.ignoreTimeout

/-- **`MBSlaveInfo::setUse`.** -/
def setUse (st : Bool) (c : MBSlaveInfo) : MBSlaveInfo :=
  { c with respondInit := !(st && !c.use), use := st }

/-- **`MBSlaveInfo::check`**, with the answer of the channel if it is asked. -/
def check (answer : Bool) (c : MBSlaveInfo) : Bool := c.use || answer

/-- **`MBSlaveInfo::init`**, with the result of the connection. The first time it is not looked at. -/
def init (connects : Bool) (c : MBSlaveInfo) : Bool := !c.initOK || connects

/-- The flag `ignore` is set as long as the timer runs. -/
def refresh (now : Nat) (c : MBSlaveInfo) : MBSlaveInfo :=
  { c with ignore := !c.ptIgnoreTimeout.checkTime now }

/-- A channel in a pass of `check_thread`. The log line does not count. -/
def checked (now : Nat) (answer : Bool) (c : MBSlaveInfo) : MBSlaveInfo :=
  let r := c.check answer
  let delayed := if c.respondInit then c.respondDelay.check now r else (r, c.respondDelay)
  { c.refresh now with
    respondDelay := delayed.2
    respondInit := c.respondInit || c.gate.respondId.isSome
    respond := delayed.1 }

end MBSlaveInfo

/-- The places of `initMB` where the net is asked. -/
inductive Stage
  | current | first | second
deriving DecidableEq, Repr

/-- The answers of the net in one call of `initMB`. -/
structure Net where
  /-- The current channel still has its connection. -/
  isConnection : Bool
  check : Stage → Nat → Bool
  connect : Stage → Nat → Bool

/-- **`MBTCPMultiMaster`**; `mbi` and `mb` are places in the list, `none` is `rend` and `nullptr`. -/
structure Master where
  mblist : List MBSlaveInfo
  mbi : Option Nat
  mb : Option Nat
  now : Nat
deriving DecidableEq, Repr

/-- The last place before `n` that has `p`. -/
def lastPlace (p : Nat → Bool) : Nat → Option Nat
  | 0 => none
  | n + 1 => if p n then some n else lastPlace p n

namespace Master

/-- The flags `ignore` are set and cleared. -/
def refresh (m : Master) : Master := { m with mblist := m.mblist.map (MBSlaveInfo.refresh m.now) }

/-- The current channel is given up for the time of its timer. -/
def giveUp (m : Master) : Master :=
  match m.mbi with
  | none => m
  | some i =>
    { m with
      mblist := m.mblist.modify i fun c =>
        { c.setUse false with ignore := true, ptIgnoreTimeout := c.ptIgnoreTimeout.reset m.now } }

/-- The current channel, if there is one that responds and is not ignored: whether it is kept. -/
def look (net : Net) (m : Master) : Bool × Master :=
  match m.mbi with
  | none => (false, m)
  | some i =>
    match m.mblist[i]? with
    | none => (false, m)
    | some c =>
      if c.ignore || !c.respond then (false, m)
      else
        let respond := c.check (net.check .current i)
        let keep := respond && (net.isConnection || c.init (net.connect .current i))
        (keep, { m with
          mb := if keep then some i else m.mb
          mblist := m.mblist.modify i fun c =>
            { c.setUse keep with
              respond := respond
              initOK := c.initOK || (respond && !net.isConnection) } })

/-- The first part of `initMB`. -/
def prepare (reopen : Bool) (net : Net) (m : Master) : Bool × Master :=
  (if reopen then m.refresh.giveUp else m.refresh).look net

/-- The first loop takes this channel. -/
def first (net : Net) (m : Master) (i : Nat) : Bool :=
  m.mblist[i]?.any fun c => c.respond && !c.ignore && c.init (net.connect .first i)

/-- The second loop takes this channel. -/
def second (net : Net) (m : Master) (i : Nat) : Bool :=
  m.mblist[i]?.any fun c =>
    c.respond && c.check (net.check .second i) && c.init (net.connect .second i)

/-- A channel is chosen. -/
def select (i : Nat) (ignore : MBSlaveInfo → Bool) (m : Master) : Master :=
  { m with
    mbi := some i
    mb := some i
    mblist := m.mblist.modify i fun c =>
      { c.setUse true with initOK := true, ignore := ignore c } }

/-- The loops of `initMB`. -/
def choose (net : Net) (m : Master) : Master :=
  match lastPlace (m.first net) m.mblist.length with
  | some i => m.select i fun c => c.ignore
  | none =>
    match lastPlace (m.second net) m.mblist.length with
    | some i => m.select i fun _ => false
    | none => { m with mbi := none, mb := none }

/-- **`MBTCPMultiMaster::initMB`**, with `checktime` greater than zero. -/
def initMB (reopen : Bool) (net : Net) (m : Master) : Master :=
  if (m.prepare reopen net).1 then (m.prepare reopen net).2
  else (m.prepare reopen net).2.choose net

/-- **A pass of `MBTCPMultiMaster::check_thread`.** -/
def checkThread (answers : Nat → Bool) (m : Master) : Master :=
  { m with mblist := m.mblist.mapIdx fun i c => c.checked m.now (answers i) }

/-- The constructor: `initGateList` makes the last channel the current one and sets it in use. Its client
is returned by nothing yet. -/
def construct (now : Nat) (gates : List Gate) : Master where
  mblist := (gates.map (MBSlaveInfo.ofGate now)).modify (gates.length - 1) (MBSlaveInfo.setUse true)
  mbi := some (gates.length - 1)
  mb := none
  now := now

end Master

/-- A step. -/
inductive Label
  | wait (ns : Nat)
  | initMB (reopen : Bool) (net : Net)
  | checkThread (answers : Nat → Bool)

/-- **The channels of a multi-master**, from any gate list on. -/
def machine : Lib.Machine Master Label where
  start s := ∃ alloc node multi multi' now,
    Multi.initGateList alloc node multi = some multi' ∧ s = .construct now multi'.mblist
  step
    | m, .wait ns => some { m with now := m.now + ns }
    | m, .initMB reopen net => some (m.initMB reopen net)
    | m, .checkThread answers => some (m.checkThread answers)

/-! ### What a step should achieve, and when it does -/

namespace Master

def InUse (m : Master) (i : Nat) : Prop := ∃ c ∈ m.mblist[i]?, c.use = true

/-- The channel responds, is not ignored, and can be connected. -/
def Ready (net : Net) (m : Master) (i : Nat) : Prop :=
  ∃ c ∈ m.mblist[i]?, c.respond = true ∧ c.ignore = false ∧ net.connect .first i = true

/-- The channel in use is the one whose client is returned. -/
def Follows (m : Master) : Prop := ∀ i, m.InUse i ↔ m.mb = some i

/-- If `initMB` goes over to another channel while one is ready, it takes a ready one, and none of a
higher priority is ready. -/
def Highest (reopen : Bool) (net : Net) (m : Master) : Prop :=
  ∀ i, (m.initMB reopen net).mb = some i → m.mbi ≠ some i → (∃ j, (m.prepare reopen net).2.Ready net j) →
    (m.prepare reopen net).2.Ready net i ∧
      ∀ j, (m.prepare reopen net).2.Ready net j →
        ∀ c ∈ m.mblist[i]?, ∀ c' ∈ m.mblist[j]?, c'.gate.priority ≤ c.gate.priority

/-- A channel that is not in use responds only if its own check says so. The report of a loss is
delayed. -/
def OwnCheck (answers : Nat → Bool) (m : Master) : Prop :=
  ∀ i, m.mb ≠ some i → ∀ c ∈ (m.checkThread answers).mblist[i]?,
    c.respond = true → answers i = true ∨ c.respondDelay.waitingOff = true

/-- The current channel is given up, or looked at again. -/
def Released (reopen : Bool) (m : Master) (i : Nat) : Prop :=
  m.mbi = some i ∧
    (reopen = true ∨
      ∃ c ∈ m.mblist[i]?, c.respond = true ∧ c.ptIgnoreTimeout.checkTime m.now = true)

/-- The channel is the next one from the end. -/
def Next (net : Net) (m : Master) (i : Nat) : Prop :=
  (m.first net i = true ∧ ∀ j, i < j → m.first net j = false) ∨
    ((∀ j, m.first net j = false) ∧ m.second net i = true ∧ ∀ j, i < j → m.second net j = false)

end Master

/-- **What a step should achieve.** -/
def Achieves (m : Master) : Label → Prop
  | .wait _ => True
  | .initMB reopen net => (m.initMB reopen net).Follows ∧ m.Highest reopen net
  | .checkThread answers => m.OwnCheck answers

/-- **`initMB` does not leave a channel in use behind, the list is in the order of the priorities, and a
channel that responds connects when this is tried for the first time.** -/
structure SmoothInit (reopen : Bool) (net : Net) (m : Master) : Prop where
  used : ∀ i, m.InUse i →
    m.Released reopen i ∨ ((m.mbi = none ∨ m.mbi = some i) ∧ m.refresh.Next net i)
  sorted : m.mblist.Pairwise fun c c' => c.gate.priority ≤ c'.gate.priority
  connects : ∀ i, ∀ c ∈ m.refresh.mblist[i]?,
    c.respond = true → c.ignore = false → c.initOK = false → net.connect .first i = true

/-- The condition on a step. -/
def Smooth (m : Master) : Label → Prop
  | .wait _ => True
  | .initMB reopen net => SmoothInit reopen net m
  | .checkThread answers => ∀ i, m.InUse i → m.mb = some i ∨ answers i = true

/-! ### Places in the list -/

variable {i : Nat} {c : MBSlaveInfo}

theorem lastPlace_eq_some {p : Nat → Bool} {n : Nat} :
    lastPlace p n = some i ↔ i < n ∧ p i = true ∧ ∀ j, i < j → j < n → p j = false := by
  induction n with
  | zero =>
    rw [lastPlace]
    exact ⟨fun no => (Option.some_ne_none _ no.symm).elim, fun no => absurd no.1 (Nat.not_lt_zero i)⟩
  | succ n ih =>
    rw [lastPlace]
    by_cases here : p n = true
    · rw [if_pos here, Option.some_inj]
      constructor
      · rintro rfl
        exact ⟨Nat.lt_succ_self n, here, fun j above below => by omega⟩
      · rintro ⟨inside, -, above⟩
        refine Classical.byContradiction fun ne => ?_
        rw [above n (by omega) (Nat.lt_succ_self n)] at here
        cases here
    · rw [if_neg here, ih]
      have not : p n = false := Bool.eq_false_iff.mpr here
      constructor
      · rintro ⟨inside, has, above⟩
        refine ⟨Nat.lt_succ_of_lt inside, has, fun j later below => ?_⟩
        rcases Nat.lt_succ_iff_lt_or_eq.mp below with earlier | rfl
        · exact above j later earlier
        · exact not
      · rintro ⟨inside, has, above⟩
        rcases Nat.lt_succ_iff_lt_or_eq.mp inside with earlier | rfl
        · exact ⟨earlier, has, fun j later below => above j later (Nat.lt_succ_of_lt below)⟩
        · rw [not] at has
          cases has

theorem lastPlace_eq_none {p : Nat → Bool} {n : Nat} :
    lastPlace p n = none ↔ ∀ j, j < n → p j = false := by
  induction n with
  | zero => exact ⟨fun _ j no => absurd no (Nat.not_lt_zero j), fun _ => rfl⟩
  | succ n ih =>
    rw [lastPlace]
    by_cases here : p n = true
    · rw [if_pos here]
      refine ⟨fun no => (Option.some_ne_none _ no).elim, fun none => ?_⟩
      rw [none n (Nat.lt_succ_self n)] at here
      cases here
    · rw [if_neg here, ih]
      refine ⟨fun earlier j below => ?_, fun none j below => none j (Nat.lt_succ_of_lt below)⟩
      rcases Nat.lt_succ_iff_lt_or_eq.mp below with less | rfl
      · exact earlier j less
      · exact Bool.eq_false_iff.mpr here

theorem mem_modify {l : List MBSlaveInfo} {f : MBSlaveInfo → MBSlaveInfo} {j : Nat} :
    c ∈ (l.modify i f)[j]? ↔ ∃ old ∈ l[j]?, (if i = j then f old else old) = c := by
  rw [List.getElem?_modify]
  exact Option.mem_map

/-! ### The first part of `initMB` -/

/-- **What the first part of `initMB` leaves of a channel.** -/
structure Left (c₀ c : MBSlaveInfo) : Prop where
  gate : c.gate = c₀.gate
  respondDelay : c.respondDelay = c₀.respondDelay
  ignore : c.ignore = false → c₀.ignore = false
  initOK : c.initOK = false → c₀.initOK = false
  respond : c.respond = true → c₀.respond = true

theorem Left.refl (c : MBSlaveInfo) : Left c c := ⟨rfl, rfl, id, id, id⟩

theorem Left.trans {c₀ c₁ : MBSlaveInfo} (first : Left c₀ c₁) (second : Left c₁ c) : Left c₀ c :=
  ⟨second.gate.trans first.gate, second.respondDelay.trans first.respondDelay, fun h => first.ignore (second.ignore h),
    fun h => first.initOK (second.initOK h), fun h => first.respond (second.respond h)⟩

namespace Master

variable {m : Master} {net : Net} {reopen : Bool}

theorem mem_refresh : c ∈ m.refresh.mblist[i]? ↔ ∃ old ∈ m.mblist[i]?, old.refresh m.now = c := by
  rw [refresh, List.getElem?_map]
  exact Option.mem_map

theorem inUse_refresh : m.refresh.InUse i ↔ m.InUse i := by
  constructor
  · rintro ⟨c, member, use⟩
    obtain ⟨old, member', rfl⟩ := mem_refresh.mp member
    exact ⟨old, member', use⟩
  · rintro ⟨c, member, use⟩
    exact ⟨_, mem_refresh.mpr ⟨c, member, rfl⟩, use⟩

/-- The current channel is looked at, or nothing is done. -/
theorem look_cases (net : Net) (m : Master) :
    (m.look net = (false, m) ∧ ∀ i, m.mbi = some i → ∀ c ∈ m.mblist[i]?,
      c.respond = true → c.ignore = true) ∨
    ∃ i c keep f, m.mbi = some i ∧ c ∈ m.mblist[i]? ∧ c.respond = true ∧ c.ignore = false ∧
      Left c (f c) ∧ (f c).use = keep ∧
      m.look net =
        (keep, { m with mb := if keep then some i else m.mb, mblist := m.mblist.modify i f }) := by
  rw [look]
  split
  · rename_i none'
    exact .inl ⟨rfl, fun i some' => by rw [none'] at some'; cases some'⟩
  · rename_i i some'
    split
    · rename_i absent
      refine .inl ⟨rfl, fun j same c member => ?_⟩
      rw [some'] at same
      cases same
      rw [absent] at member
      cases member
    · rename_i c here
      split_ifs with skip
      · refine .inl ⟨rfl, fun j same c' member responds => ?_⟩
        rw [some'] at same
        cases same
        rw [here] at member
        cases member
        rw [responds, Bool.not_true, Bool.or_false] at skip
        exact skip
      · rw [Bool.or_eq_true, not_or, Bool.not_eq_true, Bool.not_eq_true', Bool.not_eq_false] at skip
        refine .inr ⟨i, c, _, fun c' =>
          { c'.setUse (c.check (net.check .current i) &&
              (net.isConnection || c.init (net.connect .current i))) with
            respond := c.check (net.check .current i)
            initOK := c'.initOK || (c.check (net.check .current i) && !net.isConnection) },
          some', here, skip.2, skip.1, ⟨rfl, rfl, id, ?_, fun _ => skip.2⟩, rfl, rfl⟩
        intro uninitialised
        exact (Bool.or_eq_false_iff.mp uninitialised).1

theorem giveUp_left (member : c ∈ m.giveUp.mblist[i]?) :
    ∃ c₀ ∈ m.mblist[i]?, Left c₀ c ∧ (c.use = true → c₀.use = true ∧ m.mbi ≠ some i) := by
  rw [giveUp] at member
  split at member
  · rename_i none'
    exact ⟨c, member, .refl c, fun use => ⟨use, by rw [none']; exact fun no => by cases no⟩⟩
  · rename_i k current
    obtain ⟨old, member', rfl⟩ := mem_modify.mp member
    refine ⟨old, member', ?_⟩
    split_ifs with same
    · exact ⟨⟨rfl, rfl, fun no => Bool.noConfusion no, id, id⟩, fun no => Bool.noConfusion no⟩
    · refine ⟨.refl old, fun use => ⟨use, fun here => ?_⟩⟩
      rw [current] at here
      exact same (Option.some.inj here)

theorem look_left (member : c ∈ (m.look net).2.mblist[i]?) :
    ∃ c₀ ∈ m.mblist[i]?, Left c₀ c ∧
      (c.use = true → c₀.use = true ∧ (m.mbi = some i → c₀.respond = true → c₀.ignore = true) ∨
        (m.look net).1 = true ∧ m.mbi = some i) := by
  rcases look_cases net m with ⟨same, ignored⟩ | ⟨k, old, keep, f, current, here, -, -, later, use, eq⟩
  · rw [same] at member ⊢
    exact ⟨c, member, .refl c, fun use => .inl ⟨use, fun here => ignored i here c member⟩⟩
  · rw [eq] at member ⊢
    obtain ⟨c₀, member', rfl⟩ := mem_modify.mp member
    refine ⟨c₀, member', ?_⟩
    by_cases same : k = i
    · subst same
      rw [if_pos rfl, Option.mem_unique member' here]
      exact ⟨later, fun used => .inr ⟨use.symm.trans used, current⟩⟩
    · rw [if_neg same]
      refine ⟨.refl c₀, fun used => .inl ⟨used, fun no => ?_⟩⟩
      rw [current] at no
      exact absurd (Option.some.inj no) same

/-- **A channel after the first part of `initMB`.** -/
theorem prepare_left (member : c ∈ (m.prepare reopen net).2.mblist[i]?) :
    ∃ c₀ ∈ m.refresh.mblist[i]?, Left c₀ c ∧
      (c.use = true → m.InUse i ∧ ¬ m.Released reopen i ∨
        (m.prepare reopen net).1 = true ∧ m.mbi = some i) := by
  rw [prepare] at member ⊢
  obtain ⟨c₁, member₁, left₁, use₁⟩ := look_left member
  cases reopen with
  | true =>
    rw [if_pos rfl] at member₁ use₁ ⊢
    obtain ⟨c₀, member₀, left₀, use₀⟩ := giveUp_left member₁
    have current : m.refresh.giveUp.mbi = m.mbi := by
      rw [giveUp]
      split
      · rfl
      · rfl
    refine ⟨c₀, member₀, left₀.trans left₁, fun used => ?_⟩
    rw [current] at use₁
    refine (use₁ used).imp (fun kept => ?_) id
    obtain ⟨used₀, other⟩ := use₀ kept.1
    exact ⟨inUse_refresh.mp ⟨c₀, member₀, used₀⟩, fun released => other released.1⟩
  | false =>
    rw [if_neg Bool.false_ne_true] at member₁ use₁ ⊢
    refine ⟨c₁, member₁, left₁, fun used => (use₁ used).imp (fun kept => ?_) id⟩
    obtain ⟨used₁, ignored⟩ := kept
    refine ⟨inUse_refresh.mp ⟨c₁, member₁, used₁⟩, ?_⟩
    rintro ⟨current, no | ⟨old, member₀, responds, expired⟩⟩
    · cases no
    · obtain ⟨old', member', rfl⟩ := mem_refresh.mp member₁
      rw [Option.mem_unique member' member₀] at ignored
      have held := ignored current responds
      rw [MBSlaveInfo.refresh, expired] at held
      cases held

theorem prepare_kept (kept : (m.prepare reopen net).1 = true) :
    ∃ i, m.mbi = some i ∧ (m.prepare reopen net).2.mb = some i ∧ (m.prepare reopen net).2.InUse i := by
  have current : ∀ b : Bool, (if b then m.refresh.giveUp else m.refresh).mbi = m.mbi := by
    intro b
    cases b with
    | true =>
      rw [if_pos rfl, giveUp]
      split
      · rfl
      · rfl
    | false => rfl
  rw [prepare] at kept ⊢
  rcases look_cases net (if reopen then m.refresh.giveUp else m.refresh) with
    ⟨same, -⟩ | ⟨i, old, keep, f, here, member, -, -, -, use, eq⟩
  · rw [same] at kept
    cases kept
  · rw [eq] at kept ⊢
    dsimp only at kept
    subst kept
    refine ⟨i, (current reopen).symm.trans here, rfl, f old, mem_modify.mpr ⟨old, member, ?_⟩, use⟩
    rw [if_pos rfl]

/-- Where no channel but this one is the current one, and it is neither given up nor looked at, nothing
is done. -/
theorem prepare_eq (not : ¬ m.Released reopen i) (current : m.mbi = none ∨ m.mbi = some i) :
    m.prepare reopen net = (false, m.refresh) := by
  have mbi : m.refresh.mbi = m.mbi := rfl
  have same : (if reopen then m.refresh.giveUp else m.refresh) = m.refresh := by
    cases reopen with
    | true =>
      rcases current with none' | here
      · rw [if_pos rfl, giveUp, mbi, none']
      · exact absurd ⟨here, .inl rfl⟩ not
    | false => rfl
  rw [prepare, same]
  rcases look_cases net m.refresh with ⟨eq, -⟩ | ⟨k, c, keep, f, here, member, responds, ignored, -⟩
  · exact eq
  · rw [mbi] at here
    rcases current with none' | here'
    · rw [none'] at here
      cases here
    · rw [here'] at here
      cases here
      obtain ⟨old, member', rfl⟩ := mem_refresh.mp member
      refine absurd ⟨here', .inr ⟨old, member', responds, ?_⟩⟩ not
      simpa only [MBSlaveInfo.refresh, Bool.not_eq_false'] using ignored

end Master

/-! ### The choice -/

namespace Master

variable {m : Master} {net : Net} {reopen : Bool}

/-- The loops do not look behind the end of the list. -/
theorem lt_of_first (takes : m.first net i = true) : i < m.mblist.length := by
  obtain ⟨c, here, -⟩ := (Option.any_eq_true _ _).mp takes
  exact (List.getElem?_eq_some_iff.mp here).1

theorem lt_of_second (takes : m.second net i = true) : i < m.mblist.length := by
  obtain ⟨c, here, -⟩ := (Option.any_eq_true _ _).mp takes
  exact (List.getElem?_eq_some_iff.mp here).1

/-- A channel that is chosen is the one in use, if no other was. -/
theorem select_follows {ignore : MBSlaveInfo → Bool} (inside : i < m.mblist.length)
    (others : ∀ j, m.InUse j → j = i) : (m.select i ignore).Follows := by
  intro j
  constructor
  · rintro ⟨c, member, use⟩
    obtain ⟨old, member', rfl⟩ := mem_modify.mp member
    by_cases same : i = j
    · exact congrArg some same
    · rw [if_neg same] at use
      exact congrArg some (others j ⟨old, member', use⟩).symm
  · intro same
    cases Option.some.inj same
    refine ⟨_, mem_modify.mpr ⟨m.mblist[i], List.getElem?_eq_getElem inside, rfl⟩, ?_⟩
    rw [if_pos rfl]
    rfl

/-- **The loops take the next channel.** -/
theorem choose_of_next (next : m.Next net i) :
    m.choose net = m.select i (fun c => c.ignore) ∨ m.choose net = m.select i fun _ => false := by
  rw [choose]
  rcases next with ⟨takes, last⟩ | ⟨none', takes, last⟩
  · rw [lastPlace_eq_some.mpr ⟨lt_of_first takes, takes, fun j above _ => last j above⟩]
    exact .inl rfl
  · rw [lastPlace_eq_none.mpr fun j _ => none' j,
      lastPlace_eq_some.mpr ⟨lt_of_second takes, takes, fun j above _ => last j above⟩]
    exact .inr rfl

theorem choose_follows (others : ∀ j, m.InUse j → m.Next net j) : (m.choose net).Follows := by
  have unique : ∀ i j, m.Next net i → m.Next net j → i = j := by
    intro i j ni nj
    have mi : (m.choose net).mb = some i := by
      rcases choose_of_next ni with eq | eq <;> rw [eq] <;> rfl
    have mj : (m.choose net).mb = some j := by
      rcases choose_of_next nj with eq | eq <;> rw [eq] <;> rfl
    exact Option.some.inj (mi.symm.trans mj)
  rw [choose]
  split
  · rename_i i found
    obtain ⟨inside, takes, last⟩ := lastPlace_eq_some.mp found
    refine select_follows inside fun j used => unique j i (others j used) (.inl ⟨takes, fun k above => ?_⟩)
    by_cases below : k < m.mblist.length
    · exact last k above below
    · exact Bool.eq_false_iff.mpr fun no => below (lt_of_first no)
  · rename_i absent
    have none' : ∀ k, m.first net k = false := by
      intro k
      by_cases below : k < m.mblist.length
      · exact lastPlace_eq_none.mp absent k below
      · exact Bool.eq_false_iff.mpr fun no => below (lt_of_first no)
    split
    · rename_i i found
      obtain ⟨inside, takes, last⟩ := lastPlace_eq_some.mp found
      refine select_follows inside fun j used =>
        unique j i (others j used) (.inr ⟨none', takes, fun k above => ?_⟩)
      by_cases below : k < m.mblist.length
      · exact last k above below
      · exact Bool.eq_false_iff.mpr fun no => below (lt_of_second no)
    · rename_i absent'
      intro j
      refine ⟨fun used => ?_, fun no => by cases no⟩
      rcases others j used with ⟨takes, -⟩ | ⟨-, takes, -⟩
      · rw [none' j] at takes
        cases takes
      · rw [lastPlace_eq_none.mp absent' j (lt_of_second takes)] at takes
        cases takes

/-- **The channel in use is the one that is returned.** -/
theorem initMB_follows (smooth : SmoothInit reopen net m) : (m.initMB reopen net).Follows := by
  -- whoever is in use and was not given up is the next one
  have stale : ∀ j, m.InUse j → ¬ m.Released reopen j →
      (m.mbi = none ∨ m.mbi = some j) ∧ m.refresh.Next net j :=
    fun j used not => (smooth.used j used).resolve_left not
  rw [initMB]
  split_ifs with kept
  · obtain ⟨i, current, mb, used⟩ := prepare_kept kept
    intro j
    rw [mb]
    refine ⟨fun usedJ => ?_, fun same => Option.some.inj same ▸ used⟩
    obtain ⟨c, member, use⟩ := usedJ
    obtain ⟨-, -, -, source⟩ := prepare_left member
    rcases source use with ⟨before, not⟩ | ⟨-, here⟩
    · rcases (stale j before not).1 with none' | here
      · rw [none'] at current
        cases current
      · exact current.symm.trans here
    · exact current.symm.trans here
  · refine choose_follows fun j used => ?_
    obtain ⟨c, member, use⟩ := used
    obtain ⟨-, -, -, source⟩ := prepare_left member
    rcases source use with ⟨before, not⟩ | ⟨no, -⟩
    · obtain ⟨current, next⟩ := stale j before not
      rw [prepare_eq not current]
      exact next
    · exact absurd no kept

/-- A channel that is ready is taken by the first loop. -/
theorem first_of_ready (ready : m.Ready net i) : m.first net i = true := by
  obtain ⟨c, member, responds, ignored, connects⟩ := ready
  rw [first, Option.any_eq_true]
  refine ⟨c, member, ?_⟩
  rw [responds, ignored, MBSlaveInfo.init, connects, Bool.or_true]
  rfl

/-- **The highest priority is taken.** -/
theorem initMB_highest (smooth : SmoothInit reopen net m) : m.Highest reopen net := by
  intro i returned other some'
  obtain ⟨r, ready⟩ := some'
  rw [initMB] at returned
  split_ifs at returned with kept
  · obtain ⟨k, current, mb, -⟩ := prepare_kept kept
    rw [mb] at returned
    exact absurd (current.trans returned) other
  · have takes := first_of_ready ready
    rw [choose] at returned
    split at returned
    · rename_i k found
      obtain rfl : k = i := Option.some.inj returned
      obtain ⟨-, takes, last⟩ := lastPlace_eq_some.mp found
      refine ⟨?_, ?_⟩
      · obtain ⟨c, member, has⟩ := (Option.any_eq_true _ _).mp takes
        simp only [Bool.and_eq_true, Bool.not_eq_true', MBSlaveInfo.init, Bool.or_eq_true] at has
        obtain ⟨⟨responds, ignored⟩, connects⟩ := has
        refine ⟨c, member, responds, ignored, connects.elim (fun fresh => ?_) id⟩
        obtain ⟨c₀, member₀, left, -⟩ := prepare_left member
        exact smooth.connects k c₀ member₀ (left.respond responds) (left.ignore ignored) (left.initOK fresh)
      · intro j readyJ c here c' here'
        have takesJ := first_of_ready readyJ
        have le : j ≤ k := by
          refine Nat.le_of_not_lt fun above => ?_
          rw [last j above (lt_of_first takesJ)] at takesJ
          cases takesJ
        rcases Nat.eq_or_lt_of_le le with rfl | lt
        · rw [Option.mem_unique here here']
        · obtain ⟨insideK, rfl⟩ := List.getElem?_eq_some_iff.mp here
          obtain ⟨insideJ, rfl⟩ := List.getElem?_eq_some_iff.mp here'
          exact List.pairwise_iff_getElem.mp smooth.sorted j k insideJ insideK lt
    · rename_i absent
      rw [lastPlace_eq_none.mp absent r (lt_of_first takes)] at takes
      cases takes

end Master

/-! ### Runs -/

/-- The report of a connection is not delayed. -/
def Prompt (m : Master) : Prop := ∀ i : Nat, ∀ c ∈ m.mblist[i]?, c.respondDelay.Prompt

theorem Prompt.of_left {m t : Master} (prompt : Prompt m)
    (left : ∀ i : Nat, ∀ c ∈ t.mblist[i]?, ∃ c₀ ∈ m.mblist[i]?, c.respondDelay = c₀.respondDelay) :
    Prompt t := by
  intro i c member
  obtain ⟨c₀, member₀, same⟩ := left i c member
  rw [same]
  exact prompt i c₀ member₀

theorem Prompt.initMB {m : Master} (prompt : Prompt m) (reopen : Bool) (net : Net) :
    Prompt (m.initMB reopen net) := by
  have prepared : Prompt (m.prepare reopen net).2 := by
    refine prompt.of_left fun i c member => ?_
    obtain ⟨c₁, member₁, left, -⟩ := Master.prepare_left member
    obtain ⟨c₀, member₀, rfl⟩ := Master.mem_refresh.mp member₁
    exact ⟨c₀, member₀, left.respondDelay⟩
  have selected : ∀ k ignore, Prompt ((m.prepare reopen net).2.select k ignore) := by
    intro k ignore
    refine prepared.of_left fun i c member => ?_
    obtain ⟨old, member', rfl⟩ := mem_modify.mp member
    refine ⟨old, member', ?_⟩
    split_ifs
    · rfl
    · rfl
  rw [Master.initMB]
  split_ifs
  · exact prepared
  · rw [Master.choose]
    split
    · exact selected _ _
    · split
      · exact selected _ _
      · exact prepared

theorem Prompt.checkThread {m : Master} (prompt : Prompt m) (answers : Nat → Bool) :
    Prompt (m.checkThread answers) := by
  intro i c member
  rw [Master.checkThread, List.getElem?_mapIdx] at member
  obtain ⟨old, here, rfl⟩ := Option.mem_map.mp member
  have before := prompt i old here
  rw [MBSlaveInfo.checked]
  dsimp only
  split_ifs
  · exact before.check _ _
  · exact before

theorem construct_prompt (now : Nat) (gates : List Gate) : Prompt (.construct now gates) := by
  intro i c member
  obtain ⟨old, member', rfl⟩ := mem_modify.mp member
  rw [List.getElem?_map] at member'
  obtain ⟨gate, -, rfl⟩ := Option.mem_map.mp member'
  split_ifs
  · exact ⟨rfl, Int.le_refl 0⟩
  · exact ⟨rfl, Int.le_refl 0⟩

/-- **A channel that is not in use is asked itself.** -/
theorem checkThread_ownCheck {m : Master} {answers : Nat → Bool} (prompt : Prompt m)
    (smooth : ∀ i, m.InUse i → m.mb = some i ∨ answers i = true) : m.OwnCheck answers := by
  intro i other c member responds
  rw [Master.checkThread, List.getElem?_mapIdx] at member
  obtain ⟨old, here, rfl⟩ := Option.mem_map.mp member
  cases answer : answers i with
  | true => exact .inl rfl
  | false =>
    have unused : old.use = false := by
      refine Bool.eq_false_iff.mpr fun used => ?_
      rcases smooth i ⟨old, here, used⟩ with current | yes
      · exact other current
      · rw [answer] at yes
        cases yes
    have asked : old.check false = false := by
      rw [MBSlaveInfo.check, unused]
      rfl
    rw [answer, MBSlaveInfo.checked, asked] at responds
    rw [MBSlaveInfo.checked, asked]
    dsimp only at responds ⊢
    split_ifs at responds ⊢
    exact .inr ((prompt i old here).waitingOff responds)

/-- **In a run whose steps are smooth, the channel in use is the one that is returned, the highest
priority is taken, and a channel that is not in use is asked itself.** -/
theorem channels_follow (m : Master) (labels : List Label) (started : machine.start m)
    (smooth : machine.Meets Smooth m labels) : machine.Meets Achieves m labels := by
  refine Lib.Machine.meets_of_invariant (P := Prompt) ?_ ?_ ?_ smooth
  · intro m label t prompt _ stepped
    cases label <;> cases stepped
    · exact prompt
    · exact prompt.initMB _ _
    · exact prompt.checkThread _
  · intro m label prompt smooth
    cases label with
    | wait ns => trivial
    | initMB reopen net => exact ⟨Master.initMB_follows smooth, Master.initMB_highest smooth⟩
    | checkThread answers => exact checkThread_ownCheck prompt smooth
  · obtain ⟨-, -, -, -, now, -, rfl⟩ := started
    exact construct_prompt now _

/-! ### Two channels -/

/-- A channel of the file. -/
def twoGate (ip : String) (priority : Int) : Reload.GateProps where
  ignore := false
  ip := ip
  port := 502
  respondSensor := none
  priority := priority
  ignoreTimeout := some 0
  timeout := none

/-- Two channels with these priorities. -/
def twoNode (first second : Int) : Node where
  checktime := 5000
  persistentConnection := none
  ignoreTimeout := 0
  channelTimeout := 0
  checkFunc := 0
  gateList := some [twoGate "10.0.0.1" first, twoGate "10.0.0.2" second]

def twoMulti : Multi := ⟨[], .rbegin, 5000, true, 0, 1000, 1000⟩

/-- The second channel is put behind the first one. -/
def twoChannels (first second : Int) : Master :=
  .construct 0 (((twoNode first second).gateList.getD []).mapIdx fun i g =>
    Multi.initGate (twoNode first second) twoMulti i g)

/-- Every attempt succeeds. -/
def allUp : Net := ⟨true, fun _ _ => true, fun _ _ => true⟩

theorem twoChannels_start (first second : Int) : machine.start (twoChannels first second) :=
  ⟨id, twoNode first second, twoMulti, _, 0, rfl, rfl⟩

/-- The first channel is given up before any has responded; then both respond, and the one with the
higher priority, which is the last one, is chosen. -/
theorem higher_priority_chosen :
    machine.Meets Achieves (twoChannels 1 2)
      [.initMB true allUp, .checkThread fun _ => true, .initMB false allUp] := by
  refine channels_follow _ _ (twoChannels_start 1 2) ⟨⟨?_, by decide +kernel, fun _ _ _ _ _ _ => rfl⟩, ?_⟩
  · rintro i ⟨c, member, use⟩
    match i, member with
    | 0, member => cases member; exact absurd use (by decide +kernel)
    | 1, member => exact .inl ⟨rfl, .inl rfl⟩
    | i + 2, member => cases member
  · intro t stepped
    cases stepped
    refine ⟨fun i _ => .inr rfl, fun u stepped => ?_⟩
    cases stepped
    refine ⟨⟨?_, by decide +kernel, fun _ _ _ _ _ _ => rfl⟩, fun v stepped => trivial⟩
    rintro i ⟨c, member, use⟩
    match i, member with
    | 0, member => cases member; exact absurd use (by decide +kernel)
    | 1, member => cases member; exact absurd use (by decide +kernel)
    | i + 2, member => cases member

/-- **The list is not in the order of the priorities, the flag of the constructor stays where the first
channel is not found, and a channel is taken to respond because of it.** -/
theorem lower_priority_chosen :
    (machine.start (twoChannels 2 1) ∧
      ∃ m, machine.run (twoChannels 2 1) [.initMB false allUp, .checkThread fun _ => true] = some m ∧
        ¬ m.Highest false allUp) ∧
    (machine.start (twoChannels 1 2) ∧
      ¬ machine.Meets Achieves (twoChannels 1 2) [.initMB false allUp] ∧
      ¬ machine.Meets Achieves (twoChannels 1 2) [.checkThread fun _ => false]) := by
  refine ⟨⟨twoChannels_start 2 1, _, rfl, fun highest => ?_⟩, twoChannels_start 1 2, fun meets => ?_,
    fun meets => ?_⟩
  · have ready : ∀ i, i < 2 → ((((twoChannels 2 1).initMB false allUp).checkThread fun _ => true).prepare
        false allUp).2.Ready allUp i := by
      intro i below
      match i, below with
      | 0, _ => exact ⟨_, rfl, by decide +kernel, by decide +kernel, rfl⟩
      | 1, _ => exact ⟨_, rfl, by decide +kernel, by decide +kernel, rfl⟩
    have le := (highest 1 (by decide +kernel) (by decide +kernel) ⟨0, ready 0 (by decide)⟩).2 0
      (ready 0 (by decide)) _ rfl _ rfl
    exact absurd le (by decide +kernel)
  · obtain ⟨follows, -⟩ := meets.1
    have used : ((twoChannels 1 2).initMB false allUp).InUse 1 := ⟨_, rfl, by decide +kernel⟩
    exact absurd ((follows 1).mp used) (by decide +kernel)
  · have own : (twoChannels 1 2).OwnCheck fun _ => false := meets.1
    rcases own 1 (by decide +kernel) _ rfl (by decide +kernel) with no | no
    · cases no
    · exact absurd no (by decide +kernel)

end MultiChannel

end UniSet.ModbusMaster
