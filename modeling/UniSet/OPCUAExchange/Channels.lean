/-
**The switching between the two channels of an OPC UA exchange.**

* `timerInfo` — one check: the edge of the active channel, the change of the channel and the respond
  sensors.
* `firstLost` — the first check of the present loss of a channel.
* `Law` — what a check should do.
* `Inv.active`: the timer of the active channel runs from its first check without connection.
* **`channels_law_iff`**: a check does what it should exactly if no inactive channel without connection has a
  timer that has run out before its loss has lasted that long.
-/

import Mathlib.Data.Fin.Basic
import Mathlib.Data.List.FinRange
import Mathlib.Data.List.Induction
import Mathlib.Logic.Function.Basic
import UniSet.Timers

namespace UniSet.OPCUAExchange

/-- **`Channel`**: what `timerInfo` keeps of it, and the value written to its respond sensor last. -/
structure Channel where
  trStatus : Trigger
  ptTimeout : PassiveTimer
  respond : Option Bool
deriving DecidableEq, Repr

/-- **The channels**, the active one and the value for the common respond sensor. -/
structure Channels where
  channel : Fin 2 → Channel
  currentChannel : Fin 2
  respondOk : Bool

/-- One check: its instant and the state of the connections. -/
structure Check where
  now : Nat
  status : Fin 2 → Bool

namespace Channels

/-- The channels after the constructor. -/
def init (now : Nat) (timeout : Int) : Channels where
  channel := fun _ => ⟨⟨true⟩, .setTiming now timeout, none⟩
  currentChannel := 0
  respondOk := false

/-- The edge is looked for on the active channel. A loss restarts its timer. -/
def checkActive (s : Channels) (c : Check) : Channels :=
  let ch := s.channel s.currentChannel
  let edge := ch.trStatus.change (c.status s.currentChannel)
  let ptTimeout := if edge.1 && !edge.2.oldstate then ch.ptTimeout.reset c.now else ch.ptTimeout
  { s with
    channel := Function.update s.channel s.currentChannel
      { ch with trStatus := edge.2, ptTimeout := ptTimeout } }

/-- The channel is lost and its timer has run out. -/
def expired (s : Channels) (c : Check) (i : Fin 2) : Bool :=
  !c.status i && (s.channel i).ptTimeout.checkTime c.now

/-- The active channel is changed to the first one with a connection. -/
def change (s : Channels) (c : Check) : Channels :=
  if s.expired c s.currentChannel then
    match (List.finRange 2).find? c.status with
    | some i =>
      { s with
        currentChannel := i
        channel := Function.update s.channel i
          { s.channel i with
            ptTimeout := (s.channel i).ptTimeout.reset c.now
            trStatus := (s.channel i).trStatus.hi true } }
    | none => s
  else s

/-- The respond sensors are written. -/
def writeRespond (s : Channels) (c : Check) : Channels :=
  { s with
    channel := fun i => { s.channel i with respond := some !s.expired c i }
    respondOk := (List.finRange 2).any fun i => !s.expired c i }

/-- **`timerInfo`**, as far as it is about channels. -/
def timerInfo (s : Channels) (c : Check) : Channels := ((s.checkActive c).change c).writeRespond c

/-- The channels after some checks. -/
def after (start : Nat) (timeout : Int) (checks : List Check) : Channels :=
  checks.foldl timerInfo (init start timeout)

/-! ### What a check should do -/

/-- **The channel has been without connection at every check during at least the last timeout**: at each
of the last checks, of which the first one is that long ago. -/
def LostFor (timeout : Int) (checks : List Check) (now : Nat) (i : Fin 2) : Prop :=
  ∃ past first loss, checks = past ++ first :: loss ∧ (∀ c ∈ first :: loss, c.status i = false) ∧
    timeout * 1000000 ≤ ((now - first.now : Nat) : Int)

/-- **What the last check should do**: the active channel changes only to one with a connection, and does
so if it has been lost for the timeout; the respond sensor of a channel is 0 exactly if it has been lost
for the timeout. -/
structure Law (start : Nat) (timeout : Int) (checks : List Check) (c : Check) : Prop where
  connected : (after start timeout (checks ++ [c])).currentChannel ≠
      (after start timeout checks).currentChannel →
    c.status (after start timeout (checks ++ [c])).currentChannel = true
  switched : LostFor timeout (checks ++ [c]) c.now (after start timeout checks).currentChannel →
    ∀ i, c.status i = true → (after start timeout (checks ++ [c])).currentChannel = i
  respond : ∀ i, ((after start timeout (checks ++ [c])).channel i).respond = some false ↔
    LostFor timeout (checks ++ [c]) c.now i

/-- The instant of the first check of the present loss. -/
def firstLost (checks : List Check) (i : Fin 2) : Option Nat :=
  checks.foldl (fun since c => if c.status i then none else some (since.getD c.now)) none

/-- **The condition**: where an inactive channel is without connection and its timer has run out, its loss
has lasted for the timeout. -/
def TimerFits (start : Nat) (timeout : Int) (checks : List Check) (c : Check) : Prop :=
  ∀ i, i ≠ (after start timeout checks).currentChannel → c.status i = false →
    ((after start timeout checks).channel i).ptTimeout.checkTime c.now = true →
      timeout * 1000000 ≤ ((c.now - (firstLost checks i).getD c.now : Nat) : Int)

/-! ### Losses -/

variable {start : Nat} {timeout : Int} {checks : List Check} {c : Check} {i : Fin 2}

theorem after_append : after start timeout (checks ++ [c]) = (after start timeout checks).timerInfo c := by
  rw [after, List.foldl_append]
  rfl

theorem firstLost_append : firstLost (checks ++ [c]) i =
    if c.status i then none else some ((firstLost checks i).getD c.now) := by
  rw [firstLost, List.foldl_append]
  rfl

theorem firstLost_spec {t : Nat} (found : firstLost checks i = some t) :
    ∃ past first loss, checks = past ++ first :: loss ∧ (∀ c ∈ first :: loss, c.status i = false) ∧
      first.now = t := by
  induction checks using List.reverseRecOn generalizing t with
  | nil => cases found
  | append_singleton checks c ih =>
    rw [firstLost_append] at found
    split at found
    · cases found
    · next lost =>
      have no : c.status i = false := Bool.eq_false_iff.mpr lost
      cases before : firstLost checks i with
      | none =>
        rw [before] at found
        exact ⟨checks, c, [], rfl, by simpa using no, Option.some.inj found⟩
      | some t' =>
        rw [before] at found
        obtain ⟨past, first, loss, rfl, lossOf, later⟩ := ih before
        refine ⟨past, first, loss ++ [c], by simp, fun c' mem => ?_, later.trans (Option.some.inj found)⟩
        rw [← List.cons_append, List.mem_append, List.mem_singleton] at mem
        rcases mem with mem | rfl
        · exact lossOf c' mem
        · exact no

/-- What is without connection since some check has been so since that check or an earlier one. -/
theorem firstLost_le {past loss : List Check} {first : Check}
    (sorted : ((past ++ first :: loss).map Check.now).Pairwise (· ≤ ·))
    (lost : ∀ c ∈ first :: loss, c.status i = false) :
    ∃ t ≤ first.now, firstLost (past ++ first :: loss) i = some t := by
  induction loss using List.reverseRecOn with
  | nil =>
    rw [firstLost_append, lost first List.mem_cons_self, if_neg Bool.false_ne_true]
    refine ⟨_, ?_, rfl⟩
    cases before : firstLost past i with
    | none => exact Nat.le_refl _
    | some t =>
      obtain ⟨past', first', loss', rfl, -, rfl⟩ := firstLost_spec before
      rw [List.map_append, List.pairwise_append] at sorted
      exact sorted.2.2 _ (by simp) _ (by simp)
  | append_singleton loss c ih =>
    have same : past ++ first :: (loss ++ [c]) = past ++ first :: loss ++ [c] := by simp
    rw [same] at sorted ⊢
    rw [List.map_append, List.pairwise_append] at sorted
    obtain ⟨t, found, fst⟩ := ih sorted.1 fun c' mem => lost c' (by
      rcases List.mem_cons.mp mem with rfl | mem
      · exact List.mem_cons_self
      · exact List.mem_cons_of_mem _ (List.mem_append_left _ mem))
    refine ⟨t, found, ?_⟩
    rw [firstLost_append, lost c (by simp), if_neg Bool.false_ne_true, fst]
    rfl

/-- **Being lost for the timeout**, by the first check of the loss. -/
theorem lostFor_iff (sorted : ((checks ++ [c]).map Check.now).Pairwise (· ≤ ·)) :
    LostFor timeout (checks ++ [c]) c.now i ↔ c.status i = false ∧
      timeout * 1000000 ≤ ((c.now - (firstLost checks i).getD c.now : Nat) : Int) := by
  constructor
  · rintro ⟨past, first, loss, listed, lossOf, time⟩
    have last : c ∈ first :: loss := by
      have same := congrArg List.getLast? listed
      rw [List.getLast?_append, List.getLast?_append] at same
      simp only [Option.some_or, List.getLast?_cons] at same
      have last : c = loss.getLast?.getD first := Option.some.inj same
      cases ended : loss.getLast? with
      | none =>
        rw [last, ended]
        exact List.mem_cons_self
      | some c' =>
        rw [last, ended]
        exact List.mem_cons_of_mem _ (List.mem_of_getLast? ended)
    have lost' := lossOf c last
    rw [listed] at sorted
    obtain ⟨t, found, found⟩ := firstLost_le sorted lossOf
    rw [← listed, firstLost_append, lost', if_neg Bool.false_ne_true] at found
    rw [Option.some.inj found]
    exact ⟨lost', by omega⟩
  · rintro ⟨lost', time⟩
    have found : firstLost (checks ++ [c]) i = some ((firstLost checks i).getD c.now) := by
      rw [firstLost_append, lost', if_neg Bool.false_ne_true]
    obtain ⟨past, first, loss, listed, lossOf, later⟩ := firstLost_spec found
    exact ⟨past, first, loss, listed, lossOf, later ▸ time⟩

theorem checkTime_iff {pt : PassiveTimer} (msec : pt.tMsec = timeout) (timed : timeout < 2 ^ 31)
    (now : Nat) :
    pt.checkTime now = true ↔ timeout * 1000000 ≤ ((now - pt.tStart : Nat) : Int) := by
  rw [PassiveTimer.checkTime, msec, if_neg (by rw [waitUpTime]; omega)]
  split
  · exact iff_of_true rfl (by omega)
  · rw [decide_eq_true_eq]
    omega

/-! ### The invariant -/

/-- **What holds after the checks**: the trigger of the active channel has its last state, and its timer
runs from the first check of its present loss. The timer of any channel was started no later. -/
structure Inv (start : Nat) (timeout : Int) (checks : List Check) (s : Channels) : Prop where
  timing : ∀ i, (s.channel i).ptTimeout.tMsec = timeout
  times : ∀ i, (s.channel i).ptTimeout.tStart ∈ start :: checks.map Check.now
  trigger : (s.channel s.currentChannel).trStatus.oldstate = (firstLost checks s.currentChannel).isNone
  active : ∀ t, firstLost checks s.currentChannel = some t →
    (s.channel s.currentChannel).ptTimeout.tStart = t
  started : ∀ i t, firstLost checks i = some t → (s.channel i).ptTimeout.tStart ≤ t

theorem Inv.init (start : Nat) (timeout : Int) : Inv start timeout [] (init start timeout) where
  timing _ := rfl
  times _ := List.mem_cons_self
  trigger := rfl
  active _ inv := nomatch inv
  started _ _ inv := nomatch inv

section Step

variable {s : Channels} (inv : Inv start timeout checks s)
  (sorted : (start :: (checks ++ [c]).map Check.now).Pairwise (· ≤ ·)) (timed : timeout < 2 ^ 31)
include inv

/-- **The timer of the active channel runs from the first check of its loss.** -/
theorem Inv.checkActive_timer (lost : c.status s.currentChannel = false) :
    ((s.checkActive c).channel s.currentChannel).ptTimeout =
      ⟨timeout, (firstLost checks s.currentChannel).getD c.now⟩ := by
  have timed := inv.timing s.currentChannel
  simp only [checkActive, Function.update_self, Trigger.change, lost]
  cases first : firstLost checks s.currentChannel with
  | none =>
    rw [inv.trigger, first]
    simp [PassiveTimer.reset, timed]
  | some t =>
    rw [inv.trigger, first, ← timed, ← inv.active t first]
    simp

omit inv in
theorem checkActive_trigger :
    ((s.checkActive c).channel s.currentChannel).trStatus = ⟨c.status s.currentChannel⟩ := by
  simp [checkActive, Trigger.change]

omit inv in
theorem checkActive_of_ne (apart : i ≠ s.currentChannel) : (s.checkActive c).channel i = s.channel i :=
  Function.update_of_ne apart _ _

omit inv in
theorem change_cases (s : Channels) (c : Check) :
    (s.change c = s ∧ (s.expired c s.currentChannel = true → ∀ i, c.status i = false)) ∨
      ∃ i, s.expired c s.currentChannel = true ∧ c.status i = true ∧ s.change c =
        { s with
          currentChannel := i
          channel := Function.update s.channel i
            { s.channel i with ptTimeout := (s.channel i).ptTimeout.reset c.now, trStatus := ⟨true⟩ } } := by
  rw [change]
  split
  · next expired =>
    cases found : (List.finRange 2).find? c.status with
    | none =>
      refine Or.inl ⟨rfl, fun _ i => ?_⟩
      have nothing := List.find?_eq_none.mp found i (List.mem_finRange i)
      simpa using nothing
    | some i => exact Or.inr ⟨i, expired, List.find?_some found, rfl⟩
  · next expired => exact Or.inl ⟨rfl, fun up => absurd up expired⟩

omit inv in
/-- The change of the channel is for none that is lost. -/
theorem change_expired (s : Channels) (c : Check) (i : Fin 2) :
    (s.change c).expired c i = s.expired c i := by
  rcases change_cases s c with ⟨same, -⟩ | ⟨j, -, up, same⟩
  · rw [same]
  · rw [same, expired, expired]
    by_cases own : i = j
    · subst own
      simp [up]
    · simp [own]

/-- A timer was started no later than the first check of the present loss. -/
theorem Inv.started_le (sorted : (start :: (checks ++ [c]).map Check.now).Pairwise (· ≤ ·)) (i : Fin 2) :
    (s.channel i).ptTimeout.tStart ≤ (firstLost checks i).getD c.now := by
  cases first : firstLost checks i with
  | none =>
    have mem := inv.times i
    rw [List.map_append, ← List.cons_append, List.pairwise_append] at sorted
    exact sorted.2.2 _ mem _ (by simp)
  | some t => exact inv.started i t first

include sorted timed

/-- The channel has been lost for the timeout, as `timerInfo` finds it for the active one. -/
theorem Inv.expired_active : (s.checkActive c).expired c s.currentChannel = true ↔
    LostFor timeout (checks ++ [c]) c.now s.currentChannel := by
  rw [lostFor_iff (List.pairwise_cons.mp sorted).2, expired, Bool.and_eq_true, Bool.not_eq_true']
  refine and_congr_right fun lost => ?_
  rw [inv.checkActive_timer lost]
  exact checkTime_iff rfl timed c.now

/-- For an inactive one it is so where its timer fits. -/
theorem Inv.expired_other (apart : i ≠ s.currentChannel) :
    ((s.checkActive c).expired c i = true ↔ LostFor timeout (checks ++ [c]) c.now i) ↔
      (c.status i = false → (s.channel i).ptTimeout.checkTime c.now = true →
        timeout * 1000000 ≤ ((c.now - (firstLost checks i).getD c.now : Nat) : Int)) := by
  rw [lostFor_iff (List.pairwise_cons.mp sorted).2, expired, checkActive_of_ne apart, Bool.and_eq_true,
    Bool.not_eq_true']
  have below := inv.started_le sorted i
  have time := checkTime_iff (inv.timing i) timed c.now
  constructor
  · intro iff lost timer
    exact (iff.mp ⟨lost, timer⟩).2
  · intro fits
    refine and_congr_right fun lost => ⟨fits lost, fun lasted => ?_⟩
    rw [time]
    omega

omit timed

/-- The invariant after the edge is looked for: only the active channel may have changed. -/
theorem Inv.checkActive : Inv start timeout (checks ++ [c]) (s.checkActive c) := by
  have holds : c.status s.currentChannel = true →
      ((s.checkActive c).channel s.currentChannel).ptTimeout = (s.channel s.currentChannel).ptTimeout :=
    fun state => by simp [Channels.checkActive, Trigger.change, state]
  have mem : ∀ i, (s.channel i).ptTimeout.tStart ∈ start :: (checks ++ [c]).map Check.now := by
    intro i
    rw [List.map_append, ← List.cons_append]
    exact List.mem_append_left _ (inv.times i)
  refine ⟨fun i => ?_, fun i => ?_, ?_, fun t first => ?_, fun i t first => ?_⟩
  · by_cases same : i = s.currentChannel
    · subst same
      cases state : c.status s.currentChannel with
      | true => exact holds state ▸ inv.timing _
      | false => rw [inv.checkActive_timer state]
    · rw [checkActive_of_ne same]
      exact inv.timing i
  · by_cases same : i = s.currentChannel
    · subst same
      cases state : c.status s.currentChannel with
      | true => exact holds state ▸ mem _
      | false =>
        rw [inv.checkActive_timer state]
        cases first : firstLost checks s.currentChannel with
        | none => simp
        | some t => exact inv.active t first ▸ mem _
    · rw [checkActive_of_ne same]
      exact mem i
  · show ((s.checkActive c).channel s.currentChannel).trStatus.oldstate =
      (firstLost (checks ++ [c]) s.currentChannel).isNone
    rw [checkActive_trigger, firstLost_append]
    cases c.status s.currentChannel <;> rfl
  · rw [firstLost_append] at first
    split at first
    · cases first
    · next lost =>
      show ((s.checkActive c).channel s.currentChannel).ptTimeout.tStart = t
      rw [inv.checkActive_timer (Bool.eq_false_iff.mpr lost)]
      exact Option.some.inj first
  · rw [firstLost_append] at first
    split at first
    · cases first
    · next lost =>
      rw [← Option.some.inj first]
      by_cases same : i = s.currentChannel
      · subst same
        rw [inv.checkActive_timer (Bool.eq_false_iff.mpr lost)]
      · rw [checkActive_of_ne same]
        exact inv.started_le sorted i

/-- **One check.** A channel that becomes the active one has a connection, so no loss is under way. -/
theorem Inv.timerInfo : Inv start timeout (checks ++ [c]) (s.timerInfo c) := by
  have edge := inv.checkActive sorted
  have inv : Inv start timeout (checks ++ [c]) ((s.checkActive c).change c) := by
    rcases change_cases (s.checkActive c) c with ⟨same, -⟩ | ⟨i, -, up, same⟩
    · rw [same]
      exact edge
    · have found : firstLost (checks ++ [c]) i = none := by rw [firstLost_append, up, if_pos rfl]
      rw [same]
      refine ⟨fun j => ?_, fun j => ?_, ?_, fun t first => ?_, fun j t first => ?_⟩
      · by_cases own : j = i
        · subst own
          simpa [PassiveTimer.reset] using edge.timing j
        · simpa [own] using edge.timing j
      · by_cases own : j = i
        · subst own
          simp [PassiveTimer.reset]
        · simpa [own] using edge.times j
      · simp [found]
      · cases found.symm.trans first
      · by_cases own : j = i
        · subst own
          cases found.symm.trans first
        · simpa [own] using edge.started j t first
  exact ⟨inv.timing, inv.times, inv.trigger, inv.active, inv.started⟩

end Step

theorem inv_after (sorted : (start :: checks.map Check.now).Pairwise (· ≤ ·)) :
    Inv start timeout checks (after start timeout checks) := by
  induction checks using List.reverseRecOn with
  | nil => exact Inv.init start timeout
  | append_singleton checks c ih =>
    rw [after_append]
    refine Inv.timerInfo (ih ?_) sorted
    rw [List.map_append, ← List.cons_append, List.pairwise_append] at sorted
    exact sorted.1

/-- **A check does what it should exactly if the timers of the inactive channels fit.** -/
theorem channels_law_iff (sorted : (start :: (checks ++ [c]).map Check.now).Pairwise (· ≤ ·))
    (timed : timeout < 2 ^ 31) : Law start timeout checks c ↔ TimerFits start timeout checks c := by
  have less : (start :: checks.map Check.now).Pairwise (· ≤ ·) := by
    rw [List.map_append, ← List.cons_append, List.pairwise_append] at sorted
    exact sorted.1
  have inv : Inv start timeout checks (after start timeout checks) := inv_after less
  have found : ∀ i, ((after start timeout (checks ++ [c])).channel i).respond = some false ↔
      ((after start timeout checks).checkActive c).expired c i = true := by
    intro i
    rw [after_append, ← change_expired]
    show some (!(((after start timeout checks).checkActive c).change c).expired c i) = some false ↔ _
    rw [Option.some_inj, Bool.not_eq_false']
  constructor
  · intro law i own
    refine (inv.expired_other sorted timed own).mp ?_
    rw [← found]
    exact law.respond i
  · intro fits
    refine ⟨fun changed => ?_, fun lost i up => ?_, fun i => ?_⟩
    · rw [after_append] at changed ⊢
      rcases change_cases ((after start timeout checks).checkActive c) c with
        ⟨same, -⟩ | ⟨j, -, up, same⟩
      · refine absurd ?_ changed
        show (((after start timeout checks).checkActive c).change c).currentChannel = _
        rw [same]
        rfl
      · show c.status (((after start timeout checks).checkActive c).change c).currentChannel = true
        rw [same]
        exact up
    · have expired := (inv.expired_active sorted timed).mpr lost
      rw [after_append]
      show (((after start timeout checks).checkActive c).change c).currentChannel = i
      rcases change_cases ((after start timeout checks).checkActive c) c with
        ⟨-, nothing⟩ | ⟨j, -, raised, same⟩
      · rw [nothing expired i] at up
        cases up
      · rw [same]
        -- the lost channel is neither of the two
        have down : c.status (after start timeout checks).currentChannel = false := by
          have lost' := (lostFor_iff (List.pairwise_cons.mp sorted).2).mp lost
          exact lost'.1
        have holds : ∀ k, c.status k = true → k ≠ (after start timeout checks).currentChannel := by
          rintro k working rfl
          rw [down] at working
          cases working
        have own := holds i up
        have apart := holds j raised
        show j = i
        omega
    · rw [found]
      by_cases own : i = (after start timeout checks).currentChannel
      · subst own
        exact inv.expired_active sorted timed
      · exact (inv.expired_other sorted timed own).mpr (fits i own)

/-! ### Two runs with a timeout of a second -/

/-- A check at some second, with the channels that have a connection. -/
def second (sec : Nat) (up : List (Fin 2)) : Check := ⟨sec * 1000000000, fun i => decide (i ∈ up)⟩

/-- The first channel is lost and the second one becomes active a second later. -/
theorem lost_second : Law 0 1000 [second 1 [0, 1], second 2 [1]] (second 3 [1]) := by
  refine (channels_law_iff (by decide) (by decide)).mpr fun i own lost => ?_
  have current : (after 0 1000 [second 1 [0, 1], second 2 [1]]).currentChannel = 0 := by decide +kernel
  have apart : i ≠ 1 := by
    rintro rfl
    revert lost
    decide
  rw [current] at own
  omega

/-- **The second channel is lost while the first one is active**: nobody restarts its timer, and its respond
sensor becomes 0 at once. -/
theorem inactive_early : ([0, (second 2 [0, 1]).now, (second 3 [0]).now].Pairwise (· ≤ ·)) ∧
    ((after 0 1000 [second 2 [0, 1], second 3 [0]]).channel 1).respond = some false ∧
      ¬Law 0 1000 [second 2 [0, 1]] (second 3 [0]) := by
  refine ⟨by decide, by decide +kernel, fun law => ?_⟩
  have lost := (law.respond 1).mp (by decide +kernel)
  have time := ((lostFor_iff (by decide)).mp lost).2
  revert time
  decide +kernel

end Channels

end UniSet.OPCUAExchange
