/-
**Redundant channels: `UNetExchange::receiverEvent` and `checkConnection`.**

A node may be received over two channels. Both receivers read the network; one of them writes to the
shared memory and the other is locked. `receiverEvent` switches over when a channel reports a timeout
or a recovery.

* `Honest` — after the event exactly one channel of every node is unlocked, no counter has decreased,
  and a counter that has increased did so for a switch.
* **`counts_switches_iff`** — along a run every event is honest exactly if every event is `Fresh`:
  a channel that reports a timeout to a working peer is the unlocked one, and after the first switch a
  channel that takes over from a dead peer is the locked one.
* `Node` — the two receivers of a node with their timers and triggers, in any order of expiries,
  receptions and checks; `Covered` says that the only channel alive is the unlocked one.
* **`fail_over_iff`** — along a run every state is covered, also once both checks have run, exactly if
  no step is `Missed`: a channel returns to what its trigger shows, unseen, while the lock does not
  agree with the triggers.
-/

import Mathlib.Data.List.Nodup
import Mathlib.Logic.Function.Basic
import UniSet.Lib.Machine

set_option linter.unusedSectionVars false

namespace UniSet.UNet

open Function

/-- `UNetReceiver::Event`. -/
inductive ReceiverEvent
  | evOK | evTimeout
deriving DecidableEq, Repr

/-- `UNetExchange::ReceiverInfo`: the channels of a node. -/
structure ReceiverInfo (α : Type) where
  r1 : Option α
  r2 : Option α
  channelSwitchCount : Int

/-- The channels of all nodes, and which receivers are locked. -/
structure Exchange (α : Type) where
  recvlist : List (ReceiverInfo α)
  lockUpdate : α → Bool

/-- An event of a receiver, with the answers of `isRecvOK` while it is handled. -/
structure Delivery (α : Type) where
  receiver : α
  ev : ReceiverEvent
  isRecvOK : α → Bool

/-! ### `receiverEvent` -/

section

variable {α : Type} [DecidableEq α]

/-- The branch of `receiverEvent` for the channel `own`; `peer` is the other channel of the node. -/
def channelEvent (d : Delivery α) (own : α) (peer : Option α) (count : Int)
    (lockUpdate : α → Bool) : Int × (α → Bool) :=
  match d.ev, peer with
  | .evTimeout, none => (count, lockUpdate)
  | .evTimeout, some peer =>
    if d.isRecvOK peer then
      (count + 1, update (update lockUpdate own true) peer false)
    else (count, lockUpdate)
  | .evOK, none =>
    (if 0 < count then count + 1 else count, update lockUpdate own false)
  | .evOK, some peer =>
    if d.isRecvOK peer then (count, lockUpdate)
    else (if 0 < count then count + 1 else count,
      update (update lockUpdate own false) peer true)

/-- The turn of the loop of `receiverEvent` for one node; `none` when the event is not of its
channels and the loop goes on. -/
def ReceiverInfo.event (it : ReceiverInfo α) (d : Delivery α) (lockUpdate : α → Bool) :
    Option (ReceiverInfo α × (α → Bool)) :=
  if it.r1 = some d.receiver then
    let after := channelEvent d d.receiver it.r2 it.channelSwitchCount lockUpdate
    some ({ it with channelSwitchCount := after.1 }, after.2)
  else if it.r2 = some d.receiver then
    let after := channelEvent d d.receiver it.r1 it.channelSwitchCount lockUpdate
    some ({ it with channelSwitchCount := after.1 }, after.2)
  else none

/-- The loop of `receiverEvent`. -/
def eventLoop (d : Delivery α) (lockUpdate : α → Bool) :
    List (ReceiverInfo α) → List (ReceiverInfo α) × (α → Bool)
  | [] => ([], lockUpdate)
  | it :: rest =>
    match it.event d lockUpdate with
    | some (it, lockUpdate) => (it :: rest, lockUpdate)
    | none =>
      let after := eventLoop d lockUpdate rest
      (it :: after.1, after.2)

/-- **`UNetExchange::receiverEvent`.** -/
def Exchange.receiverEvent (x : Exchange α) (d : Delivery α) : Exchange α :=
  let after := eventLoop d x.lockUpdate x.recvlist
  ⟨after.1, after.2⟩

/-! ### What an event does to a node -/

/-- The channels of a node. -/
def ReceiverInfo.receivers (it : ReceiverInfo α) : List α := it.r1.toList ++ it.r2.toList

/-- `own` and `peer` are the two channels of the node. -/
def ReceiverInfo.Pair (it : ReceiverInfo α) (own peer : α) : Prop :=
  (it.r1 = some own ∧ it.r2 = some peer) ∨ (it.r2 = some own ∧ it.r1 = some peer)

/-- No receiver belongs to two nodes or is both channels of one. -/
def Distinct (recvlist : List (ReceiverInfo α)) : Prop :=
  (recvlist.flatMap ReceiverInfo.receivers).Nodup

variable {d : Delivery α} {it : ReceiverInfo α} {own peer : α} {lockUpdate : α → Bool}

theorem ReceiverInfo.Pair.symm (pair : it.Pair own peer) : it.Pair peer own :=
  pair.elim (fun h => .inr ⟨h.2, h.1⟩) (fun h => .inl ⟨h.2, h.1⟩)

theorem ReceiverInfo.mem_receivers {a : α} :
    a ∈ it.receivers ↔ it.r1 = some a ∨ it.r2 = some a := by
  simp [receivers, Option.mem_toList]

theorem ReceiverInfo.Pair.mem (pair : it.Pair own peer) : own ∈ it.receivers :=
  mem_receivers.mpr (pair.imp And.left And.left)

/-- A receiver that is neither channel keeps its lock. -/
theorem channelEvent_other {peer : Option α} {count : Int} {a : α} (notOwn : a ≠ own)
    (notPeer : peer ≠ some a) : (channelEvent d own peer count lockUpdate).2 a = lockUpdate a := by
  unfold channelEvent
  split
  · rfl
  · rename_i q _
    have apart : a ≠ q := fun same => notPeer (by rw [same])
    split
    · dsimp only
      rw [update_of_ne apart, update_of_ne notOwn]
    · rfl
  · dsimp only
    rw [update_of_ne notOwn]
  · rename_i q _
    have apart : a ≠ q := fun same => notPeer (by rw [same])
    split
    · rfl
    · dsimp only
      rw [update_of_ne apart, update_of_ne notOwn]

theorem ReceiverInfo.event_isSome : (it.event d lockUpdate).isSome ↔ d.receiver ∈ it.receivers := by
  rw [mem_receivers, event]
  split
  · rename_i first
    simp [first]
  · split
    · rename_i second
      simp [second]
    · rename_i first second
      simp [first, second]

/-- The turn of a node keeps its channels and the locks of all others. -/
theorem ReceiverInfo.event_frame {after : ReceiverInfo α × (α → Bool)}
    (handled : it.event d lockUpdate = some after) :
    after.1.r1 = it.r1 ∧ after.1.r2 = it.r2 ∧
      ∀ a, a ∉ it.receivers → after.2 a = lockUpdate a := by
  rw [event] at handled
  split at handled
  · rename_i first
    cases handled
    refine ⟨rfl, rfl, fun a outside => channelEvent_other ?_ ?_⟩
    · rintro rfl
      exact outside (mem_receivers.mpr (.inl first))
    · exact fun second => outside (mem_receivers.mpr (.inr second))
  · split at handled
    · rename_i second
      cases handled
      refine ⟨rfl, rfl, fun a outside => channelEvent_other ?_ ?_⟩
      · rintro rfl
        exact outside (mem_receivers.mpr (.inr second))
      · exact fun first => outside (mem_receivers.mpr (.inl first))
    · cases handled

variable {recvlist : List (ReceiverInfo α)} {i : Nat}

/-- The loop keeps the locks of the receivers that are in no node. -/
theorem eventLoop_frame {a : α} (outside : a ∉ recvlist.flatMap ReceiverInfo.receivers) :
    (eventLoop d lockUpdate recvlist).2 a = lockUpdate a := by
  induction recvlist with
  | nil => rfl
  | cons it rest ih =>
    rw [List.flatMap_cons, List.mem_append, not_or] at outside
    rw [eventLoop]
    split
    · rename_i handled
      exact (ReceiverInfo.event_frame handled).2.2 a outside.1
    · exact ih outside.2

/-- **What the loop does to a node**: its own event, or nothing. -/
theorem eventLoop_node (distinct : Distinct recvlist) (here : recvlist[i]? = some it) :
    ∃ after, (eventLoop d lockUpdate recvlist).1[i]? = some after ∧
      (d.receiver ∈ it.receivers →
        it.event d lockUpdate = some (after, (eventLoop d lockUpdate recvlist).2)) ∧
      (d.receiver ∉ it.receivers → after = it ∧
        ∀ a ∈ it.receivers, (eventLoop d lockUpdate recvlist).2 a = lockUpdate a) := by
  induction recvlist generalizing i with
  | nil => cases here
  | cons first rest ih =>
    rw [Distinct, List.flatMap_cons, List.nodup_append'] at distinct
    obtain ⟨-, later, disjoint⟩ := distinct
    have inRest : ∀ {j : Nat}, rest[j]? = some it → ∀ a ∈ it.receivers,
        a ∈ rest.flatMap ReceiverInfo.receivers := fun found a member =>
      List.mem_flatMap.mpr ⟨it, List.mem_of_getElem? found, member⟩
    rw [eventLoop]
    cases handled : first.event d lockUpdate with
    | some after =>
      have own : d.receiver ∈ first.receivers := ReceiverInfo.event_isSome.mp (by rw [handled]; rfl)
      cases i with
      | zero =>
        cases here
        exact ⟨after.1, rfl, fun _ => handled, fun other => absurd own other⟩
      | succ i =>
        have found : rest[i]? = some it := here
        refine ⟨it, found, fun member => ?_, fun _ => ⟨rfl, fun a member => ?_⟩⟩
        · exact absurd (inRest found _ member) (disjoint own)
        · refine (ReceiverInfo.event_frame handled).2.2 a fun inFirst => ?_
          exact disjoint inFirst (inRest found a member)
    | none =>
      have other : d.receiver ∉ first.receivers := fun member => by
        have some : (first.event d lockUpdate).isSome := ReceiverInfo.event_isSome.mpr member
        rw [handled] at some
        cases some
      cases i with
      | zero =>
        cases here
        refine ⟨it, rfl, fun member => absurd member other, fun _ => ⟨rfl, fun a member => ?_⟩⟩
        exact eventLoop_frame (disjoint member)
      | succ i => exact ih later here

/-- **The event of a channel with a peer.** -/
theorem ReceiverInfo.event_pair (pair : it.Pair d.receiver peer) (apart : d.receiver ≠ peer) :
    it.event d lockUpdate = some
      ({ it with channelSwitchCount :=
          (channelEvent d d.receiver (some peer) it.channelSwitchCount lockUpdate).1 },
        (channelEvent d d.receiver (some peer) it.channelSwitchCount lockUpdate).2) := by
  rcases pair with ⟨first, second⟩ | ⟨second, first⟩
  · rw [event, if_pos first, second]
  · have other : it.r1 ≠ some d.receiver := by
      rw [first]
      exact fun same => apart (Option.some.inj same).symm
    rw [event, if_neg other, if_pos second, first]

/-- **What the event of a channel does**: a timeout hands over to a working peer, a recovery takes over
from a dead one. -/
theorem channelEvent_peer (apart : own ≠ peer) (count : Int) (lockUpdate : α → Bool) :
    (d.ev = .evTimeout ∧ d.isRecvOK peer = true ∧
      (channelEvent d own (some peer) count lockUpdate).1 = count + 1 ∧
      (channelEvent d own (some peer) count lockUpdate).2 own = true ∧
      (channelEvent d own (some peer) count lockUpdate).2 peer = false) ∨
    (d.ev = .evOK ∧ d.isRecvOK peer = false ∧
      (channelEvent d own (some peer) count lockUpdate).1 =
        (if 0 < count then count + 1 else count) ∧
      (channelEvent d own (some peer) count lockUpdate).2 own = false ∧
      (channelEvent d own (some peer) count lockUpdate).2 peer = true) ∨
    ((d.ev = .evTimeout ↔ d.isRecvOK peer = false) ∧
      channelEvent d own (some peer) count lockUpdate = (count, lockUpdate)) := by
  cases ev : d.ev with
  | evTimeout =>
    cases ok : d.isRecvOK peer with
    | true =>
      have handed : channelEvent d own (some peer) count lockUpdate =
          (count + 1, update (update lockUpdate own true) peer false) := by
        simp [channelEvent, ev, ok]
      rw [handed]
      exact .inl ⟨rfl, rfl, rfl, by simp [update_of_ne apart], by simp⟩
    | false => exact .inr (.inr ⟨by simp, by simp [channelEvent, ev, ok]⟩)
  | evOK =>
    cases ok : d.isRecvOK peer with
    | true => exact .inr (.inr ⟨by simp, by simp [channelEvent, ev, ok]⟩)
    | false =>
      have taken : channelEvent d own (some peer) count lockUpdate =
          (if 0 < count then count + 1 else count,
            update (update lockUpdate own false) peer true) := by
        simp [channelEvent, ev, ok]
      rw [taken]
      exact .inr (.inl ⟨rfl, rfl, rfl, by simp [update_of_ne apart], by simp⟩)

theorem channelEvent_one (apart : own ≠ peer) (count : Int)
    (one : lockUpdate own ≠ lockUpdate peer) :
    (channelEvent d own (some peer) count lockUpdate).2 own ≠
      (channelEvent d own (some peer) count lockUpdate).2 peer := by
  obtain ⟨-, -, -, locked, free⟩ | ⟨-, -, -, free, locked⟩ | ⟨-, same⟩ :=
    channelEvent_peer (d := d) apart count lockUpdate
  · rw [locked, free]
    decide
  · rw [locked, free]
    decide
  · rw [same]
    exact one

/-! ### One active channel, and what is counted -/

/-- The configured state: the channels are distinct, the first is unlocked and the second locked. -/
structure Configured (x : Exchange α) : Prop where
  distinct : Distinct x.recvlist
  first : ∀ it ∈ x.recvlist, ∀ a, it.r1 = some a → x.lockUpdate a = false
  second : ∀ it ∈ x.recvlist, ∀ b, it.r2 = some b → x.lockUpdate b = true
  counts : ∀ it ∈ x.recvlist, it.channelSwitchCount = 0

/-- **All sequences of events.** -/
def exchanges (α : Type) [DecidableEq α] : Lib.Machine (Exchange α) (Delivery α) where
  start := Configured
  step x d := some (x.receiverEvent d)

/-- After the event exactly one channel of the node is unlocked; its counter has not decreased, and if
it has changed, the event has changed which channel is unlocked. -/
def HonestAt (x : Exchange α) (d : Delivery α) (i : Nat) (it : ReceiverInfo α) (own peer : α) :
    Prop :=
  (x.receiverEvent d).lockUpdate own ≠ (x.receiverEvent d).lockUpdate peer ∧
    ∃ count, (x.receiverEvent d).recvlist[i]? = some { it with channelSwitchCount := count } ∧
      it.channelSwitchCount ≤ count ∧ (it.channelSwitchCount ≠ count →
        (x.receiverEvent d).lockUpdate own ≠ x.lockUpdate own)

/-- **An honest event**, for every node with two channels. -/
def Honest (x : Exchange α) (d : Delivery α) : Prop :=
  ∀ (i : Nat) (it : ReceiverInfo α) (own peer : α), x.recvlist[i]? = some it → it.Pair own peer →
    HonestAt x d i it own peer

/-- **The condition.** A timeout reported to a working peer is that of the unlocked channel; after the
first switch a recovery with a dead peer is that of the locked channel. -/
def Fresh (x : Exchange α) (d : Delivery α) : Prop :=
  ∀ it ∈ x.recvlist, ∀ peer, it.Pair d.receiver peer →
    (d.ev = .evTimeout → d.isRecvOK peer = true → x.lockUpdate d.receiver = false) ∧
    (d.ev = .evOK → d.isRecvOK peer = false → 0 < it.channelSwitchCount →
      x.lockUpdate d.receiver = true)

/-- **The invariant.** -/
structure OneActive (x : Exchange α) : Prop where
  distinct : Distinct x.recvlist
  one : ∀ it ∈ x.recvlist, ∀ own peer, it.Pair own peer → x.lockUpdate own ≠ x.lockUpdate peer

variable {x : Exchange α}

theorem Configured.oneActive (configured : Configured x) : OneActive x where
  distinct := configured.distinct
  one it member own peer pair := by
    rcases pair with ⟨first, second⟩ | ⟨second, first⟩
    · rw [configured.first it member own first, configured.second it member peer second]
      decide
    · rw [configured.first it member peer first, configured.second it member own second]
      decide

theorem Distinct.apart (distinct : Distinct recvlist) (member : it ∈ recvlist)
    (pair : it.Pair own peer) : own ≠ peer := by
  have nodup : it.receivers.Nodup := (List.nodup_flatMap.mp distinct).1 it member
  rintro rfl
  rcases pair with ⟨first, second⟩ | ⟨second, first⟩
  · simp [ReceiverInfo.receivers, first, second] at nodup
  · simp [ReceiverInfo.receivers, first, second] at nodup

/-- **What an event does to a node.** -/
theorem Exchange.receiverEvent_node (distinct : Distinct x.recvlist) (d : Delivery α)
    (here : x.recvlist[i]? = some it) :
    ∃ after, (x.receiverEvent d).recvlist[i]? = some after ∧
      (d.receiver ∈ it.receivers →
        it.event d x.lockUpdate = some (after, (x.receiverEvent d).lockUpdate)) ∧
      (d.receiver ∉ it.receivers → after = it ∧
        ∀ a ∈ it.receivers, (x.receiverEvent d).lockUpdate a = x.lockUpdate a) :=
  eventLoop_node distinct here

/-- The event of another node's channel leaves the node alone. -/
theorem OneActive.other_event (active : OneActive x) (here : x.recvlist[i]? = some it)
    (pair : it.Pair own peer) (other : d.receiver ∉ it.receivers) : HonestAt x d i it own peer := by
  obtain ⟨after, found, -, kept⟩ := x.receiverEvent_node active.distinct d here
  obtain ⟨rfl, locks⟩ := kept other
  have one := active.one after (List.mem_of_getElem? here) own peer pair
  refine ⟨?_, after.channelSwitchCount, found, Int.le_refl _, fun changed => absurd rfl changed⟩
  rw [locks own pair.mem, locks peer pair.symm.mem]
  exact one

theorem OneActive.own_event (active : OneActive x) (here : x.recvlist[i]? = some it)
    (pair : it.Pair d.receiver peer) :
    (x.receiverEvent d).recvlist[i]? = some { it with channelSwitchCount :=
      (channelEvent d d.receiver (some peer) it.channelSwitchCount x.lockUpdate).1 } ∧
    (x.receiverEvent d).lockUpdate =
      (channelEvent d d.receiver (some peer) it.channelSwitchCount x.lockUpdate).2 := by
  have apart := active.distinct.apart (List.mem_of_getElem? here) pair
  obtain ⟨after, found, handled, -⟩ := x.receiverEvent_node active.distinct d here
  have same := handled pair.mem
  rw [ReceiverInfo.event_pair pair apart, Option.some.injEq, Prod.mk.injEq] at same
  refine ⟨?_, same.2.symm⟩
  rw [found, same.1]

/-- Which channel of a node is meant does not matter. -/
theorem HonestAt.symm (honest : HonestAt x d i it own peer)
    (one : x.lockUpdate own ≠ x.lockUpdate peer) : HonestAt x d i it peer own := by
  obtain ⟨apart, count, found, grows, switched⟩ := honest
  refine ⟨apart.symm, count, found, grows, fun changed same => switched changed ?_⟩
  rw [Bool.eq_not_of_ne apart, Bool.eq_not_of_ne one, same]

/-- **When the event of a channel is honest.** -/
theorem OneActive.honestAt_iff (active : OneActive x) (here : x.recvlist[i]? = some it)
    (pair : it.Pair d.receiver peer) :
    HonestAt x d i it d.receiver peer ↔
      (d.ev = .evTimeout → d.isRecvOK peer = true → x.lockUpdate d.receiver = false) ∧
      (d.ev = .evOK → d.isRecvOK peer = false → 0 < it.channelSwitchCount →
        x.lockUpdate d.receiver = true) := by
  have member := List.mem_of_getElem? here
  have one := active.one it member d.receiver peer pair
  obtain ⟨entry, locks⟩ := active.own_event here pair
  have unfolded : HonestAt x d i it d.receiver peer ↔
      (channelEvent d d.receiver (some peer) it.channelSwitchCount x.lockUpdate).2 d.receiver ≠
        (channelEvent d d.receiver (some peer) it.channelSwitchCount x.lockUpdate).2 peer ∧
      it.channelSwitchCount ≤
        (channelEvent d d.receiver (some peer) it.channelSwitchCount x.lockUpdate).1 ∧
      (it.channelSwitchCount ≠
        (channelEvent d d.receiver (some peer) it.channelSwitchCount x.lockUpdate).1 →
        (channelEvent d d.receiver (some peer) it.channelSwitchCount x.lockUpdate).2 d.receiver ≠
          x.lockUpdate d.receiver) := by
    rw [HonestAt, locks]
    refine and_congr_right fun _ => ⟨?_, fun rest => ⟨_, entry, rest⟩⟩
    rintro ⟨count, found, rest⟩
    rw [entry] at found
    have same := congrArg ReceiverInfo.channelSwitchCount (Option.some.inj found)
    dsimp only at same
    rw [same]
    exact rest
  rw [unfolded]
  obtain ⟨timeout, working, counted, locked, free⟩ | ⟨recovered, dead, counted, free, locked⟩ |
    ⟨neither, same⟩ := channelEvent_peer (d := d) (active.distinct.apart member pair)
      it.channelSwitchCount x.lockUpdate
  · rw [counted, locked, free, timeout, working]
    have more : it.channelSwitchCount ≤ it.channelSwitchCount + 1 := by omega
    have other : it.channelSwitchCount ≠ it.channelSwitchCount + 1 := by omega
    simp [more, other]
  · rw [counted, locked, free, recovered, dead]
    by_cases positive : 0 < it.channelSwitchCount
    · have more : it.channelSwitchCount ≤ it.channelSwitchCount + 1 := by omega
      have other : it.channelSwitchCount ≠ it.channelSwitchCount + 1 := by omega
      simp [positive, more, other]
    · simp [positive]
  · rw [same]
    refine ⟨fun _ => ⟨fun timeout working => ?_, fun recovered dead => ?_⟩,
      fun _ => ⟨one, Int.le_refl _, fun changed => absurd rfl changed⟩⟩
    · rw [neither.mp timeout] at working
      cases working
    · rw [neither.mpr dead] at recovered
      cases recovered

theorem ReceiverInfo.Pair.own_or_peer (pair : it.Pair own peer) {a : α} (member : a ∈ it.receivers) :
    a = own ∨ a = peer := by
  rcases ReceiverInfo.mem_receivers.mp member with first | second
  · rcases pair with ⟨r1, -⟩ | ⟨-, r1⟩
    · exact .inl (Option.some.inj (first.symm.trans r1))
    · exact .inr (Option.some.inj (first.symm.trans r1))
  · rcases pair with ⟨-, r2⟩ | ⟨r2, -⟩
    · exact .inr (Option.some.inj (second.symm.trans r2))
    · exact .inl (Option.some.inj (second.symm.trans r2))

/-- **An event is honest exactly if it is fresh.** -/
theorem OneActive.honest_iff (active : OneActive x) : Honest x d ↔ Fresh x d := by
  constructor
  · intro honest it member peer pair
    obtain ⟨i, here⟩ := List.mem_iff_getElem?.mp member
    exact (active.honestAt_iff here pair).mp (honest i it d.receiver peer here pair)
  · intro fresh i it own peer here pair
    have member := List.mem_of_getElem? here
    by_cases inside : d.receiver ∈ it.receivers
    · rcases pair.own_or_peer inside with rfl | rfl
      · exact (active.honestAt_iff here pair).mpr (fresh it member peer pair)
      · have mirrored := (active.honestAt_iff here pair.symm).mpr (fresh it member own pair.symm)
        exact mirrored.symm (active.one it member own _ pair).symm
    · exact active.other_event here pair inside

/-- The loop keeps the channels of every node. -/
theorem eventLoop_receivers (d : Delivery α) (lockUpdate : α → Bool)
    (recvlist : List (ReceiverInfo α)) :
    (eventLoop d lockUpdate recvlist).1.map (fun it => (it.r1, it.r2)) =
      recvlist.map fun it => (it.r1, it.r2) := by
  induction recvlist with
  | nil => rfl
  | cons it rest ih =>
    rw [eventLoop]
    split
    · rename_i handled
      obtain ⟨first, second, -⟩ := ReceiverInfo.event_frame handled
      dsimp only at first second
      simp only [List.map_cons, first, second]
    · simp only [List.map_cons, ih]

/-- **Every event keeps exactly one channel unlocked.** -/
theorem OneActive.step (active : OneActive x) (d : Delivery α) : OneActive (x.receiverEvent d) := by
  have channels := eventLoop_receivers d x.lockUpdate x.recvlist
  constructor
  · have flat : ∀ l : List (ReceiverInfo α), l.flatMap ReceiverInfo.receivers =
        (l.map fun it => (it.r1, it.r2)).flatMap fun p => p.1.toList ++ p.2.toList := by
      intro l
      rw [List.flatMap_map]
      rfl
    have distinct := active.distinct
    rw [Distinct, flat] at distinct ⊢
    rw [Exchange.receiverEvent, channels]
    exact distinct
  · intro after member own peer pair
    obtain ⟨i, found⟩ := List.mem_iff_getElem?.mp member
    obtain ⟨it, here, first, second⟩ : ∃ it, x.recvlist[i]? = some it ∧ it.r1 = after.r1 ∧
        it.r2 = after.r2 := by
      have same := congrArg (fun l => l[i]?) channels
      have entry : (eventLoop d x.lockUpdate x.recvlist).1[i]? = some after := found
      rw [List.getElem?_map, List.getElem?_map, entry] at same
      obtain ⟨it, here, equal⟩ := Option.map_eq_some_iff.mp same.symm
      exact ⟨it, here, congrArg Prod.fst equal, congrArg Prod.snd equal⟩
    have pair : it.Pair own peer := by
      rw [ReceiverInfo.Pair, first, second]
      exact pair
    have member := List.mem_of_getElem? here
    have one := active.one it member own peer pair
    by_cases inside : d.receiver ∈ it.receivers
    · rcases pair.own_or_peer inside with rfl | rfl
      · rw [(active.own_event here pair).2]
        exact channelEvent_one (active.distinct.apart member pair) _ one
      · rw [(active.own_event here pair.symm).2]
        exact (channelEvent_one (active.distinct.apart member pair.symm) _ one.symm).symm
    · exact (active.other_event here pair inside).1

/-! ### The result for the counters -/

/-- **Exactly the switches are counted, exactly if every event is fresh.** Along every sequence of
events from the configured state. -/
theorem counts_switches_iff (configured : Configured x) (events : List (Delivery α)) :
    (exchanges α).Meets Honest x events ↔ (exchanges α).Meets Fresh x events := by
  have active := configured.oneActive
  clear configured
  induction events generalizing x with
  | nil => exact Iff.rfl
  | cons d rest ih =>
    refine and_congr active.honest_iff (forall_congr' fun y => ?_)
    refine imp_congr_right fun stepped => ?_
    cases stepped
    exact ih (active.step d)

end

/-- The two channels of a node. -/
inductive Channel
  | first | second
deriving DecidableEq, Repr

/-- The configured state of one node. -/
def twoChannels : Exchange Channel where
  recvlist := [⟨some .first, some .second, 0⟩]
  lockUpdate
    | .first => false
    | .second => true

theorem twoChannels_configured : Configured twoChannels where
  distinct := by
    show [Channel.first, Channel.second].Nodup
    decide
  first := by
    intro it member a r1
    cases List.mem_singleton.mp member
    cases r1
    rfl
  second := by
    intro it member b r2
    cases List.mem_singleton.mp member
    cases r2
    rfl
  counts := by
    intro it member
    cases List.mem_singleton.mp member
    rfl

/-- The first channel reports a timeout while the second works. -/
def firstTimeout : Delivery Channel := ⟨.first, .evTimeout, fun _ => true⟩

/-- One switch, and it is counted. -/
theorem counts_switches_once : (exchanges Channel).Meets Honest twoChannels [firstTimeout] := by
  refine (counts_switches_iff twoChannels_configured [firstTimeout]).mpr ⟨?_, fun _ _ => trivial⟩
  intro it member peer pair
  exact ⟨fun _ _ => rfl, nofun⟩

/-- **An event without a switch is counted.** The first channel fails, recovers and fails again while
the second works: the second channel is unlocked throughout the last event, which is counted. -/
theorem repeated_timeout_is_counted : Configured twoChannels ∧
    ¬ (exchanges Channel).Meets Honest twoChannels
      [firstTimeout, ⟨.first, .evOK, fun _ => true⟩, firstTimeout] := by
  refine ⟨twoChannels_configured, ?_⟩
  rintro ⟨-, rest⟩
  obtain ⟨-, rest⟩ := rest _ rfl
  obtain ⟨honest, -⟩ := rest _ rfl
  obtain ⟨-, count, found, -, switched⟩ := honest 0 _ .first .second rfl (.inl ⟨rfl, rfl⟩)
  have two : (2 : Int) = count :=
    congrArg ReceiverInfo.channelSwitchCount (Option.some.inj found)
  refine switched ?_ rfl
  rw [← two]
  decide

/-! ### `checkConnection` -/

/-- `Trigger::change`, with the state it leaves. -/
def triggerChange (oldstate state : Bool) : Bool × Bool :=
  if oldstate != state then (true, state) else (false, oldstate)

/-- **The two receivers of a node.** -/
structure Node where
  exchange : Exchange Channel
  /-- `ptRecvTimeout.checkTime()` of the channel. -/
  expired : Channel → Bool
  /-- The state of the trigger `trTimeout`. -/
  oldstate : Channel → Bool
  /-- `checkConnection` has run since the last expiry or reception. -/
  checked : Channel → Bool

/-- A new node: nothing has expired yet. -/
def Node.new : Node := ⟨twoChannels, fun _ => false, fun _ => false, fun _ => true⟩

namespace Node

variable (s : Node) (i : Channel)

/-- **`UNetReceiver::isRecvOK`.** -/
def isRecvOK : Bool := !s.expired i

/-- The event that `checkConnection` reports. -/
def report : Delivery Channel := ⟨i, if s.expired i then .evTimeout else .evOK, s.isRecvOK⟩

/-- **`UNetReceiver::checkConnection`**, the prepare time passed. -/
def checkConnection : Node :=
  let (changed, oldstate) := triggerChange (s.oldstate i) (s.expired i)
  { s with
    oldstate := update s.oldstate i oldstate
    exchange := if changed then s.exchange.receiverEvent (s.report i) else s.exchange
    checked := update s.checked i true }

/-- The timer of the channel is set or expires. -/
def setExpired (tout : Bool) : Node :=
  { s with
    expired := update s.expired i tout
    checked := update s.checked i false }

end Node

/-- One step of a node. -/
inductive NodeLabel
  /-- The receive timeout of the channel expires. -/
  | expire (i : Channel)
  /-- The channel receives a packet, which resets its timer. -/
  | receive (i : Channel)
  | check (i : Channel)
deriving DecidableEq, Repr

/-- **One step.** -/
def Node.step (s : Node) : NodeLabel → Node
  | .expire i => s.setExpired i true
  | .receive i => s.setExpired i false
  | .check i => s.checkConnection i

/-- **All orders of expiries, receptions and checks.** -/
def nodes : Lib.Machine Node NodeLabel where
  start s := s = .new
  step s label := some (s.step label)

/-- The other channel. -/
def Channel.other : Channel → Channel
  | .first => .second
  | .second => .first

/-- **The only channel alive is the unlocked one**, once both checks have run. -/
def Covered (s : Node) : Prop :=
  (∀ i, s.checked i = true) → ∀ i, s.isRecvOK i = true → s.isRecvOK i.other = false →
    s.exchange.lockUpdate i = false ∧ s.exchange.lockUpdate i.other = true

/-- The triggers show one channel alive, and it is locked. -/
def Stranded (s : Node) : Prop :=
  ∃ i, s.oldstate i = false ∧ s.oldstate i.other = true ∧ s.exchange.lockUpdate i = true

/-- The channel returns to what its trigger shows before its own check, while the other trigger is up
to date and the lock does not agree with the two. -/
def Missed (s : Node) (i : Channel) (tout : Bool) : Prop :=
  s.expired i ≠ s.oldstate i ∧ tout = s.oldstate i ∧ s.expired i.other = s.oldstate i.other ∧
    Stranded s

/-- **The condition.** -/
def Seen (s : Node) : NodeLabel → Prop
  | .expire i => ¬ Missed s i true
  | .receive i => ¬ Missed s i false
  | .check _ => True

/-- **The invariant**: a checked channel is what its trigger shows, and if both are, the lock agrees. -/
structure Agrees (s : Node) : Prop where
  entry : ∃ count, s.exchange.recvlist = [⟨some .first, some .second, count⟩]
  one : s.exchange.lockUpdate .first ≠ s.exchange.lockUpdate .second
  shown : ∀ i, s.checked i = true → s.oldstate i = s.expired i
  right : (∀ i, s.oldstate i = s.expired i) → ¬ Stranded s

/-- **The event of one of two channels.** -/
theorem twoChannels_event {x : Exchange Channel} {count : Int}
    (entry : x.recvlist = [⟨some .first, some .second, count⟩]) (d : Delivery Channel) :
    x.receiverEvent d =
      ⟨[⟨some .first, some .second,
          (channelEvent d d.receiver (some d.receiver.other) count x.lockUpdate).1⟩],
        (channelEvent d d.receiver (some d.receiver.other) count x.lockUpdate).2⟩ := by
  rw [Exchange.receiverEvent, entry]
  cases own : d.receiver with
  | first => simp [eventLoop, ReceiverInfo.event, own, Channel.other]
  | second => simp [eventLoop, ReceiverInfo.event, own, Channel.other]

theorem Channel.ne_other (i : Channel) : i ≠ i.other := by
  cases i <;> decide

theorem Channel.eq_or_other (i j : Channel) : j = i ∨ j = i.other := by
  cases i <;> cases j <;> decide

theorem Channel.other_other (i : Channel) : i.other.other = i := by
  cases i <;> rfl

variable {s : Node} {i : Channel}

theorem Agrees.one_of (agrees : Agrees s) (i : Channel) :
    s.exchange.lockUpdate i ≠ s.exchange.lockUpdate i.other := by
  cases i with
  | first => exact agrees.one
  | second => exact agrees.one.symm

theorem check_same (same : s.oldstate i = s.expired i) :
    s.checkConnection i = { s with checked := update s.checked i true } := by
  have quiet : triggerChange (s.oldstate i) (s.expired i) = (false, s.oldstate i) := by
    simp [triggerChange, same]
  simp [Node.checkConnection, quiet]

theorem check_changed (changed : s.oldstate i ≠ s.expired i) :
    s.checkConnection i =
      { s with
        oldstate := update s.oldstate i (s.expired i)
        exchange := s.exchange.receiverEvent (s.report i)
        checked := update s.checked i true } := by
  simp [Node.checkConnection, triggerChange, changed]

/-- **What a reported change does**: the only channel alive is unlocked. -/
theorem Agrees.reported (agrees : Agrees s) (i : Channel) {x : Exchange Channel}
    (event : s.exchange.receiverEvent (s.report i) = x) :
    (∃ count, x.recvlist = [⟨some .first, some .second, count⟩]) ∧
      x.lockUpdate .first ≠ x.lockUpdate .second ∧
      ∀ j, s.expired j = false → s.expired j.other = true → x.lockUpdate j = false := by
  obtain ⟨count, entry⟩ := agrees.entry
  rw [twoChannels_event entry] at event
  subst event
  have one := channelEvent_one (d := s.report i) i.ne_other count (agrees.one_of i)
  refine ⟨⟨_, rfl⟩, ?_, fun j alive dead => ?_⟩
  · cases i with
    | first => exact one
    | second => exact one.symm
  · rcases i.eq_or_other j with rfl | rfl
    · obtain ⟨timeout, -⟩ | ⟨-, -, -, free, -⟩ | ⟨neither, -⟩ := channelEvent_peer
        (d := s.report j) j.ne_other count s.exchange.lockUpdate
      · simp [Node.report, alive] at timeout
      · exact free
      · simp [Node.report, alive, dead, Node.isRecvOK] at neither
    · rw [i.other_other] at dead
      obtain ⟨-, -, -, -, free⟩ | ⟨recovered, -⟩ | ⟨neither, -⟩ := channelEvent_peer
        (d := s.report i) i.ne_other count s.exchange.lockUpdate
      · exact free
      · simp [Node.report, dead] at recovered
      · simp [Node.report, alive, dead, Node.isRecvOK] at neither

/-- **A check keeps the invariant.** -/
theorem Agrees.check (agrees : Agrees s) (i : Channel) : Agrees (s.checkConnection i) := by
  by_cases same : s.oldstate i = s.expired i
  · rw [check_same same]
    refine ⟨agrees.entry, agrees.one, fun j checked => ?_, agrees.right⟩
    by_cases own : j = i
    · rw [own]
      exact same
    · exact agrees.shown j (by simpa [update_of_ne own] using checked)
  · rw [check_changed same]
    generalize event : s.exchange.receiverEvent (s.report i) = x
    obtain ⟨entry, one, alive⟩ := agrees.reported i event
    refine ⟨entry, one, fun j checked => ?_, fun shown => ?_⟩
    · dsimp only at checked ⊢
      by_cases own : j = i
      · rw [own, update_self]
      · rw [update_of_ne own] at checked ⊢
        exact agrees.shown j checked
    · rintro ⟨j, isAlive, isDead, locked⟩
      rw [shown] at isAlive isDead
      have free := alive j isAlive isDead
      dsimp only at locked
      rw [locked] at free
      cases free

/-- **An expiry or a reception that is not missed keeps the invariant.** -/
theorem Agrees.set (agrees : Agrees s) {tout : Bool} (seen : ¬ Missed s i tout) :
    Agrees (s.setExpired i tout) := by
  refine ⟨agrees.entry, agrees.one, fun j checked => ?_, fun shown stranded => ?_⟩
  · by_cases own : j = i
    · rw [own] at checked
      simp [Node.setExpired] at checked
    · have before : s.checked j = true := by
        simpa [Node.setExpired, update_of_ne own] using checked
      simp only [Node.setExpired, update_of_ne own]
      exact agrees.shown j before
  · have atI : s.oldstate i = tout := by simpa [Node.setExpired] using shown i
    have atOther : s.oldstate i.other = s.expired i.other := by
      simpa [Node.setExpired, update_of_ne i.ne_other.symm] using shown i.other
    by_cases same : s.oldstate i = s.expired i
    · refine agrees.right (fun j => ?_) stranded
      rcases i.eq_or_other j with rfl | rfl
      · exact same
      · exact atOther
    · exact seen ⟨fun equal => same equal.symm, atI.symm, atOther.symm, stranded⟩

theorem Agrees.step (agrees : Agrees s) {label : NodeLabel} (seen : Seen s label) :
    Agrees (s.step label) := by
  cases label with
  | expire i => exact agrees.set seen
  | receive i => exact agrees.set seen
  | check i => exact agrees.check i

theorem Agrees.new : Agrees .new where
  entry := ⟨0, rfl⟩
  one := by decide
  shown _ _ := rfl
  right _ := by
    rintro ⟨i, -, dead, -⟩
    cases dead

theorem Agrees.covered (agrees : Agrees s) : Covered s := by
  intro checked i alive dead
  have shown : ∀ j, s.oldstate j = s.expired j := fun j => agrees.shown j (checked j)
  have free : s.exchange.lockUpdate i = false := by
    by_contra locked
    refine agrees.right shown ⟨i, ?_, ?_, eq_true_of_ne_false locked⟩
    · rw [shown]
      simpa [Node.isRecvOK] using alive
    · rw [shown]
      simpa [Node.isRecvOK] using dead
  refine ⟨free, ?_⟩
  have one := agrees.one_of i
  rw [free] at one
  exact eq_true_of_ne_false one.symm

/-- The state is covered, also once both checks have run. -/
def Fine (s : Node) : Prop :=
  Covered s ∧ Covered ((s.checkConnection .first).checkConnection .second)

/-- **After a missed step the wrong channel stays unlocked.** -/
theorem not_fine_of_missed {tout : Bool} (missed : Missed s i tout) :
    ¬ Fine (s.setExpired i tout) := by
  rintro ⟨-, covered⟩
  obtain ⟨-, back, other, k, alive, dead, locked⟩ := missed
  have shown : ∀ j, (s.setExpired i tout).oldstate j = (s.setExpired i tout).expired j := by
    intro j
    rcases i.eq_or_other j with rfl | rfl
    · simp [Node.setExpired, back]
    · simp [Node.setExpired, update_of_ne i.ne_other.symm, other]
  have checks : ((s.setExpired i tout).checkConnection .first).checkConnection .second =
      { s.setExpired i tout with
        checked := update (update (s.setExpired i tout).checked .first true)
          .second true } := by
    rw [check_same (shown .first)]
    exact check_same (shown .second)
  rw [checks] at covered
  have isAlive : (s.setExpired i tout).isRecvOK k = true := by
    rw [Node.isRecvOK, ← shown k]
    exact (congrArg (!·) alive)
  have isDead : (s.setExpired i tout).isRecvOK k.other = false := by
    rw [Node.isRecvOK, ← shown k.other]
    exact (congrArg (!·) dead)
  obtain ⟨free, -⟩ := covered (fun j => by cases j <;> rfl) k isAlive isDead
  have locked' : s.exchange.lockUpdate k = false := free
  rw [locked] at locked'
  cases locked'

theorem seen_of_fine {label : NodeLabel} (fine : Fine (s.step label)) : Seen s label := by
  cases label with
  | expire i => exact fun missed => not_fine_of_missed missed fine
  | receive i => exact fun missed => not_fine_of_missed missed fine
  | check i => trivial

/-! ### The result for the fail-over -/

theorem Agrees.fine_iff (agrees : Agrees s) (labels : List NodeLabel) :
    (∀ n t, nodes.run s (labels.take n) = some t → Fine t) ↔ nodes.Meets Seen s labels := by
  induction labels generalizing s with
  | nil =>
    refine ⟨fun _ => trivial, fun _ n t ran => ?_⟩
    rw [List.take_nil] at ran
    cases ran
    exact ⟨agrees.covered, ((agrees.check .first).check .second).covered⟩
  | cons label rest ih =>
    constructor
    · intro fine
      have seen : Seen s label := seen_of_fine (fine 1 _ rfl)
      refine ⟨seen, fun t stepped => ?_⟩
      cases stepped
      exact (ih (agrees.step seen)).mp fun n t ran => fine (n + 1) t ran
    · rintro ⟨seen, later⟩ n t ran
      cases n with
      | zero =>
        cases ran
        exact ⟨agrees.covered, ((agrees.check .first).check .second).covered⟩
      | succ n => exact (ih (agrees.step seen)).mpr (later _ rfl) n t ran

/-- **The fail-over is never missed, exactly if no step is.** For every run of a new node. -/
theorem fail_over_iff (labels : List NodeLabel) :
    (∀ n t, nodes.run .new (labels.take n) = some t → Fine t) ↔ nodes.Meets Seen .new labels :=
  Agrees.new.fine_iff labels

/-- Both channels expire, the first is checked, the second receives a packet and is checked. -/
def lateRecovery : List NodeLabel :=
  [.expire .first, .expire .second, .check .first, .receive .second, .check .second]

/-- **A recovery before its own check is missed**: the second channel is the only one alive, both
checks have run, and it stays locked. -/
theorem recovery_is_missed : ∃ s, nodes.Reachable (fun _ _ => True) s ∧
    (∀ i, s.checked i = true) ∧ s.isRecvOK .second = true ∧ s.isRecvOK .first = false ∧
    s.exchange.lockUpdate .second = true ∧ ¬ Covered s := by
  obtain ⟨s, ran, checked, alive, dead, locked⟩ : ∃ s, nodes.run .new lateRecovery = some s ∧
      (∀ i, s.checked i = true) ∧ s.isRecvOK .second = true ∧ s.isRecvOK .first = false ∧
      s.exchange.lockUpdate .second = true :=
    ⟨_, rfl, fun i => by cases i <;> rfl, rfl, rfl, rfl⟩
  refine ⟨s, Lib.Machine.reachable_of_run rfl ran, checked, alive, dead, locked, fun covered => ?_⟩
  obtain ⟨free, -⟩ := covered checked .second alive dead
  rw [locked] at free
  cases free

end UniSet.UNet
