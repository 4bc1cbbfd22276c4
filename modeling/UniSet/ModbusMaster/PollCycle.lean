/-
**The loop of `poll` over a map, whatever the device replies.**

* `readBits`, `readWords` — what `read01` to `read04` take from a reply; a reply to a bit read may bring
  any number of bytes, one to a word read as many as it was asked for.
* `walk`, `back` — the iterator of the map, which is lost where it goes past the end or before the first
  register.
* `pollRTU`, `visit`, `machine` — a request, one turn of the loop, and the loop.
* `Reaches` — no register asks for more registers than there are from it on; joined maps are such.
* `CycleEnds` — every request leaves the iterator on a register that is not before its own, and the loop
  ends.
* **`cycleEnds_iff`** — so it is unless a bit read is answered with no byte at all.
-/

import UniSet.Lib.Bits
import UniSet.Lib.Machine
import UniSet.Modbus.Client
import UniSet.Modbus.RegisterReplies
import UniSet.ModbusMaster.Grouping
import UniSet.ModbusMaster.RegMap
import UniSet.ModbusMaster.Update

namespace UniSet.ModbusMaster.PollCycle

open Update (emWriteOnly emReadOnly)
open Modbus (Byte Message MbErrCode ReadRetMessage maxPduLen)
open Modbus.ModbusClient (recvPdu done)
open UniSet.Lib (Machine byteBits)

/-! ### Replies -/

/-- What `query` leaves: a code, or the reply it has received. The checks of `write05` to `write10` on
their replies are counted to it, since nothing is taken from those. -/
abbrev Reply := Except MbErrCode Message

/-- **`ModbusClient::read01` and `read02`**: the bytes of the reply, however many there are. -/
def readBits (reply : Reply) : Except MbErrCode (List Byte) :=
  reply.bind fun m =>
    if maxPduLen < (m.byteAt 0).toNat then .error .erPacketTooLong
    else .ok ((List.range (m.byteAt 0).toNat).map fun i => m.byteAt (i + 1))

/-- **`ModbusClient::read03` and `read04`**: the words of the reply, which has as many as were asked for.
The count is one of 16 bits. -/
def readWords (count : Nat) (reply : Reply) : Except MbErrCode (List UInt16) :=
  reply.bind fun m =>
    (ReadRetMessage.init m).bind fun ret =>
      if ret.data.length ≠ count % 65536 then .error .erBadDataValue else .ok ret.data

/-! ### The iterator -/

/-- **The iterator moved on over registers**, each of which is changed: where it stands then. `end()` is
the length of the map; a register there is not to be had. -/
def walk : List (RegInfo → RegInfo) → List RegInfo → Nat → Option (List RegInfo × Nat)
  | [], regs, it => some (regs, it)
  | f :: fs, regs, it => if it < regs.length then walk fs (regs.modify it f) (it + 1) else none

/-- `it--`. -/
def back : Nat → Option Nat
  | 0 => none
  | it + 1 => some it

/-- The iterator moved on over registers and back by one. -/
def walkBack (fs : List (RegInfo → RegInfo)) (regs : List RegInfo) (it : Nat) : Option (List RegInfo × Nat) :=
  (walk fs regs it).bind fun moved => (back moved.2).map fun it => (moved.1, it)

/-- A register is given a value. -/
def store (val : Nat) (r : RegInfo) : RegInfo := { r with mbval := val, mbInitOK := true }

/-! ### Requests -/

/-- **A turn of the loop**: whether the process is active before and after the request, the modes, and what
the device replies. -/
structure Turn where
  active : Bool
  activeAfter : Bool
  exchangeMode : Int
  devMode : Int
  reply : Reply

/-- **`MBExchange::isPollEnabled`.** -/
def isPollEnabled (exchangeMode : Int) (wrFunc : Bool) : Bool :=
  if exchangeMode = emWriteOnly ∧ wrFunc = false then false
  else if exchangeMode = emReadOnly ∧ wrFunc = true then false
  else decide (exchangeMode ≠ emSkipExchange)

/-- The registers, the iterator, and what is returned or thrown. -/
abbrev Polled := List RegInfo × Nat × Except MbErrCode Bool

/-- The iterator is moved over so many registers, and the values are stored. -/
def storeAll (vals : List Nat) (regs : List RegInfo) (it : Nat) : Option Polled :=
  (walkBack (vals.map store) regs it).map fun moved => (moved.1, moved.2, .ok true)

/-- The branches of `fnReadInputRegisters` and `fnReadOutputRegisters`. -/
def pollWords (reply : Reply) (regs : List RegInfo) (it qCount : Nat) : Option Polled :=
  match readWords qCount reply with
  | .error ex => some (regs, it, .error ex)
  | .ok data => storeAll ((List.range qCount).map fun i => (data.getD i 0).toNat) regs it

/-- The branches of `fnReadInputStatus` and `fnReadCoilStatus`: as many bits as the bytes have, but no more
than were asked for. -/
def pollBits (reply : Reply) (regs : List RegInfo) (it qCount : Nat) : Option Polled :=
  match readBits reply with
  | .error ex => some (regs, it, .error ex)
  | .ok data => storeAll (((data.flatMap byteBits).take qCount).map Bool.toNat) regs it

/-- **`MBExchange::pollRTU`** at a register; none if the iterator is lost. -/
def pollRTU (turn : Turn) (regs : List RegInfo) (it : Nat) (p : RegInfo) : Option Polled :=
  if turn.devMode = emSkipExchange then some (regs, it, .ok false)
  else if !isPollEnabled turn.exchangeMode p.mbfunc.isWriteFunction then some (regs, it, .ok true)
  else if p.qCount = 0 then some (regs, it, .ok false)
  else
    match p.mbfunc with
    | .fnReadInputRegisters | .fnReadOutputRegisters => pollWords turn.reply regs it p.qCount
    | .fnReadInputStatus | .fnReadCoilStatus => pollBits turn.reply regs it p.qCount
    | .fnWriteOutputSingleRegister | .fnForceSingleCoil =>
      if p.qCount ≠ 1 then some (regs, it, .ok false)
      else if !p.smInitOK then some (regs, it, .ok true)
      else some (regs, it, turn.reply.map fun _ => true)
    | .fnWriteOutputRegisters | .fnForceMultipleCoils =>
      if !p.smInitOK then some (regs, it, .ok true)
      else (walkBack (List.replicate p.qCount id) regs it).map fun moved =>
        (moved.1, moved.2, turn.reply.map fun _ => true)
    | .other _ => some (regs, it, .ok false)

/-! ### The loop -/

/-- **The loop over a map**: at a register, left, or with its iterator lost. -/
inductive Loop
  | here (regs : List RegInfo) (it : Nat)
  | left (regs : List RegInfo)
  | lost
deriving DecidableEq, Repr

/-- `++it`, and the condition of the loop. -/
def next (regs : List RegInfo) (it : Nat) : Loop :=
  if it + 1 < regs.length then .here regs (it + 1) else .left regs

/-- The loop before its first turn. -/
def start (regs : List RegInfo) : Loop := if regs = [] then .left regs else .here regs 0

/-- The turn asks the device. -/
def Turn.asks (turn : Turn) : Bool := turn.active && decide (turn.exchangeMode ≠ emSkipExchange)

/-- A device that does not reply is not asked for the other registers. -/
def givesUp (askEveryReg : Bool) : Except MbErrCode Bool → Bool
  | .error ex => ex = .erTimeOut && !askEveryReg
  | .ok _ => false

/-- The loop behind a request. -/
def after (askEveryReg : Bool) (turn : Turn) : Option Polled → Loop
  | none => .lost
  | some (regs, it, result) =>
    if givesUp askEveryReg result then .left regs
    else if it = regs.length then .left regs
    else if !turn.activeAfter then .left regs
    else next regs it

/-- **A turn of the loop of `MBExchange::poll` over a map.** -/
def visit (askEveryReg : Bool) (turn : Turn) (regs : List RegInfo) (it : Nat) : Loop :=
  match regs[it]? with
  | none => .lost
  | some p =>
    if !turn.active then .left regs
    else if turn.exchangeMode = emSkipExchange then next regs it
    else after askEveryReg turn (pollRTU turn regs it p)

/-- **The loop of `MBExchange::poll` over a map**; a loop that is left takes no turn. -/
def machine (askEveryReg : Bool) : Machine Loop Turn where
  start s := ∃ regs, s = start regs
  step
    | .here regs it, turn => some (visit askEveryReg turn regs it)
    | _, _ => none

/-! ### Maps -/

/-- **No register asks for more registers than there are from it on.** -/
def Reaches : List RegInfo → Prop
  | [] => True
  | r :: rest => r.qCount ≤ rest.length + 1 ∧ Reaches rest

variable {regs regs' : List RegInfo}

theorem Reaches.append (first : Reaches regs) (second : Reaches regs') :
    Reaches (regs ++ regs') := by
  induction regs with
  | nil => exact second
  | cons r rest ih =>
    refine ⟨?_, ih first.2⟩
    show r.qCount ≤ (rest ++ regs').length + 1
    rw [List.length_append]
    exact Nat.le_trans first.1 (by omega)

theorem Reaches.get (reaches : Reaches regs) {it : Nat} {p : RegInfo} (here : regs[it]? = some p) :
    it + p.qCount ≤ regs.length := by
  induction regs generalizing it with
  | nil => cases here
  | cons r rest ih =>
    cases it with
    | zero =>
      cases here
      rw [Nat.zero_add]
      exact reaches.1
    | succ it =>
      have behind := ih reaches.2 here
      rw [List.length_cons]
      omega

theorem reaches_of_ignored (ignored : ∀ r ∈ regs, r.qCount = 0) : Reaches regs := by
  induction regs with
  | nil => trivial
  | cons r rest ih =>
    refine ⟨?_, ih fun r member => ignored r (List.mem_cons_of_mem _ member)⟩
    rw [ignored r List.mem_cons_self]
    exact Nat.zero_le _

/-- The first register of a group asks for its members, and they for nothing. -/
theorem reaches_joined (g : Group) : Reaches g.joined := by
  refine ⟨?_, reaches_of_ignored fun r member => ?_⟩
  · rw [List.length_mapIdx]
    exact Nat.le_refl _
  · obtain ⟨i, inside, rfl⟩ := List.mem_mapIdx.mp member
    rfl

theorem reaches_groups (gs : List Group) : Reaches (gs.flatMap Group.joined) := by
  induction gs with
  | nil => trivial
  | cons g gs ih =>
    rw [List.flatMap_cons]
    exact (reaches_joined g).append ih

/-- A map of one register, which asks for no other. -/
def Alone (regs : List RegInfo) : Prop := regs.length ≤ 1 → ∀ r ∈ regs, r.qCount ≤ 1

/-- **A joined map reaches no further than its end.** -/
theorem Alone.reaches (alone : Alone regs) (maxQueryCount : Nat) :
    Reaches (rtuQueryOptimizationForRegMap maxQueryCount regs) := by
  rw [rtuQueryOptimizationForRegMap]
  split_ifs with single
  · have asks := alone single
    cases regs with
    | nil => trivial
    | cons r rest =>
      have none : rest = [] := List.length_eq_zero_iff.mp (Nat.le_zero.mp (Nat.le_of_succ_le_succ single))
      subst none
      exact ⟨asks r List.mem_cons_self, trivial⟩
  · exact reaches_groups _

/-! ### Configured maps -/

theorem Alone.addReg {regs : List RegInfo} (alone : Alone regs) (item : Item) (regID mbreg : Nat) :
    Alone (addReg item regID mbreg regs) := by
  rw [ModbusMaster.addReg]
  split_ifs
  · exact alone
  · rw [Alone, insertReg_length]
    intro one r member
    have none : regs = [] := List.length_eq_zero_iff.mp (by omega)
    subst none
    rw [insertReg, List.mem_singleton] at member
    rw [member]
    exact Nat.le_refl 1

/-- A register that is changed: where it is the only one, it asks for itself. -/
theorem Alone.modifyReg (alone : Alone regs) {regID : Nat} {f : RegInfo → RegInfo}
    (asks : regs.length ≤ 1 → ∀ r ∈ regs, (f r).qCount ≤ 1) : Alone (modifyReg regID f regs) := by
  rw [Alone, ModbusMaster.modifyReg, List.length_map]
  intro one r' member'
  obtain ⟨r, member, rfl⟩ := List.mem_map.mp member'
  split_ifs
  · exact asks one r member
  · exact alone one r member

/-- The further word of a value: where it is the only register, it asks for itself. -/
theorem alone_addTail (defaultMBinitOK : Bool) (item : Item) (func : MbFunc) (regs : List RegInfo) (i : Nat) :
    Alone (addTail defaultMBinitOK item func regs i) := by
  obtain ⟨word, there, same⟩ :=
    exists_addReg item (genRegID ((item.mbreg + i) % 65536) func.code) ((item.mbreg + i) % 65536) regs
  rw [Alone, addTail, ModbusMaster.modifyReg, List.length_map]
  intro one r' member'
  obtain ⟨r, member, rfl⟩ := List.mem_map.mp member'
  have only : r = word := by
    by_contra other
    exact absurd (two_of_mem member there other) (Nat.not_lt.mpr one)
  rw [only, if_pos same]

theorem alone_foldl_addTail (defaultMBinitOK : Bool) (item : Item) (func : MbFunc) (regs : List RegInfo)
    {is : List Nat} (some : is ≠ []) : Alone (is.foldl (addTail defaultMBinitOK item func) regs) := by
  rw [← List.dropLast_append_getLast some, List.foldl_append]
  exact alone_addTail defaultMBinitOK item func _ _

/-- **A map an item is added to.** A value of several words has at least one further word. -/
theorem Alone.attach (alone : Alone regs) {defaultMBinitOK : Bool} {item : Item} {ri ri' : RegInfo}
    (member : ri ∈ regs) {tails : List RegInfo} {left : SensorInfo}
    (attached : attach defaultMBinitOK item ri regs = some (tails, ri', left)) : Alone tails := by
  obtain ⟨mbInitOK, smInitOK, flags⟩ := initFlags_keeps defaultMBinitOK item ri
  rw [ModbusMaster.attach] at attached
  simp only [flags] at attached
  split_ifs at attached with refused bad several
  all_goals
    simp only [Option.some.injEq, Prod.mk.injEq] at attached
    obtain ⟨rfl, -, -⟩ := attached
  · refine alone_foldl_addTail _ _ _ _ fun none => ?_
    have length : (addProp ri.slst (item.property ri.mtrSize)).2.1.rnum - 1 = 0 := by
      have tail := congrArg List.length none
      rwa [List.length_tail, List.length_range] at tail
    exact Nat.not_lt.mpr (Nat.sub_eq_zero_iff_le.mp length) several
  · have none : (List.range (addProp ri.slst (item.property ri.mtrSize)).2.1.rnum).tail = [] := by
      rw [← List.length_eq_zero_iff, List.length_tail, List.length_range]
      exact Nat.sub_eq_zero_of_le (Nat.not_lt.mp several)
    rw [none]
    exact alone.modifyReg fun one _ _ => alone one ri member

theorem Alone.awaitRead (alone : Alone regs) (regID : Nat) :
    Alone (awaitRead regID regs) := alone.modifyReg fun one r member => alone one r member

section Configuration

variable {items : List Item} {conf conf' : MBConf} {item : Item}

/-- **An item keeps the maps.** -/
theorem initItem_alone (maps : ∀ m ∈ conf.pollmaps, Alone m.regs) (done : initItem conf item = some conf') :
    ∀ m ∈ conf'.pollmaps, Alone m.regs := by
  obtain ⟨ri, tails, ri', left, member, -, attached, result⟩ := initItem_pollmaps done
  have mine : Alone (conf.regmap item) := by
    rw [MBConf.regmap]
    split
    · rename_i m found
      exact maps m (List.mem_of_find?_eq_some found)
    · exact fun _ _ member => absurd member List.not_mem_nil
  have alone : Alone tails := (mine.addReg item _ _).attach member attached
  have set : ∀ regs, Alone regs → ∀ m ∈ (conf.setRegmap item regs).pollmaps, Alone m.regs := by
    intro regs alone m' member'
    rw [MBConf.setRegmap] at member'
    split_ifs at member'
    · obtain ⟨m, member, rfl⟩ := List.mem_map.mp member'
      split_ifs
      · exact alone
      · exact maps m member
    · rcases List.mem_append.mp member' with old | new
      · exact maps m' old
      · rw [List.mem_singleton.mp new]
        exact alone
  rcases result with plain | awaits
  · rw [plain]
    exact set tails alone
  · rw [awaits]
    exact set _ (alone.awaitRead _)

theorem readConfiguration_alone {defaultMBinitOK : Bool}
    (done : readConfiguration defaultMBinitOK items = some conf) : ∀ m ∈ conf.pollmaps, Alone m.regs := by
  have run : ∀ (rest : List Item) (conf₀ : MBConf), (∀ m ∈ conf₀.pollmaps, Alone m.regs) →
      rest.foldlM initItem conf₀ = some conf → ∀ m ∈ conf.pollmaps, Alone m.regs := by
    intro rest
    induction rest with
    | nil =>
      intro conf₀ maps done
      cases done
      exact maps
    | cons item rest ih =>
      intro conf₀ maps done
      rw [List.foldlM_cons] at done
      obtain ⟨conf₁, step, done⟩ := Option.bind_eq_some_iff.mp done
      exact ih conf₁ (initItem_alone maps step) done
  exact run items _ (fun m member => absurd member List.not_mem_nil) done

/-- **A joined map of a configuration.** -/
theorem loadConfig_reaches {params : Params} (loaded : loadConfig params items = some conf)
    (joined : params.noQueryOptimization = false) {m : PollMap} (member : m ∈ conf.pollmaps)
    (cyclic : m.pollfactor ≠ changeOnlyWrite) : Reaches m.regs := by
  rw [loadConfig] at loaded
  obtain ⟨read, done, rfl⟩ := Option.map_eq_some_iff.mp loaded
  rw [if_neg (by rw [joined]; exact Bool.false_ne_true)] at member
  obtain ⟨plain, member', rfl⟩ := List.mem_map.mp member
  by_cases change : plain.pollfactor = changeOnlyWrite
  · rw [if_pos change] at cyclic
    exact absurd change cyclic
  · rw [if_neg change]
    exact (readConfiguration_alone done plain member').reaches _

end Configuration

/-! ### A request -/

/-- What the registers ask for is the same. -/
def SameAsks (regs regs' : List RegInfo) : Prop := regs'.map RegInfo.qCount = regs.map RegInfo.qCount

theorem SameAsks.length (same : SameAsks regs regs') : regs'.length = regs.length := by
  have lengths := congrArg List.length same
  rwa [List.length_map, List.length_map] at lengths

theorem SameAsks.reaches (same : SameAsks regs regs') (reaches : Reaches regs) : Reaches regs' := by
  induction regs generalizing regs' with
  | nil =>
    rw [List.map_eq_nil_iff.mp same]
    trivial
  | cons r rest ih =>
    cases regs' with
    | nil => trivial
    | cons r' rest' =>
      obtain ⟨first, later⟩ := List.cons.inj same
      have later : SameAsks rest rest' := later
      refine ⟨?_, ih later reaches.2⟩
      rw [first, later.length]
      exact reaches.1

/-- A change that leaves what a register asks for. -/
def KeepsAsks (f : RegInfo → RegInfo) : Prop := ∀ r, (f r).qCount = r.qCount

theorem sameAsks_modify {f : RegInfo → RegInfo} (keeps : KeepsAsks f) (regs : List RegInfo) (it : Nat) :
    SameAsks regs (regs.modify it f) := by
  rw [SameAsks]
  apply List.ext_getElem?
  intro i
  rw [List.getElem?_map, List.getElem?_map, List.getElem?_modify]
  cases regs[i]? with
  | none => rfl
  | some r =>
    show some (if it = i then f r else r).qCount = some r.qCount
    split_ifs
    · rw [keeps r]
    · rfl

/-- **The iterator within the map.** -/
theorem walk_inside {fs : List (RegInfo → RegInfo)} (keeps : ∀ f ∈ fs, KeepsAsks f) {it : Nat}
    (inside : it + fs.length ≤ regs.length) :
    ∃ regs', walk fs regs it = some (regs', it + fs.length) ∧ SameAsks regs regs' := by
  induction fs generalizing regs it with
  | nil => exact ⟨regs, rfl, rfl⟩
  | cons f fs ih =>
    rw [List.length_cons] at inside
    have here : it < regs.length := by omega
    have one := sameAsks_modify (keeps f List.mem_cons_self) regs it
    have behind : it + 1 + fs.length ≤ (regs.modify it f).length := by
      rw [one.length]
      omega
    obtain ⟨regs', walked, same⟩ := ih (fun f member => keeps f (List.mem_cons_of_mem _ member)) behind
    refine ⟨regs', ?_, same.trans one⟩
    rw [walk, if_pos here, walked, List.length_cons, Nat.add_assoc, Nat.add_comm 1]

/-- The iterator moved over some registers and back by one. -/
theorem walkBack_inside {fs : List (RegInfo → RegInfo)} (keeps : ∀ f ∈ fs, KeepsAsks f)
    (positive : 0 < fs.length) {it : Nat} (inside : it + fs.length ≤ regs.length) :
    ∃ regs', walkBack fs regs it = some (regs', it + (fs.length - 1)) ∧ SameAsks regs regs' := by
  obtain ⟨regs', walked, same⟩ := walk_inside keeps inside
  refine ⟨regs', ?_, same⟩
  have behind : it + fs.length = it + (fs.length - 1) + 1 := by omega
  rw [walkBack, walked, behind]
  rfl

/-- **An answer without bits** to a request for some. -/
def EmptyBits (turn : Turn) (p : RegInfo) : Prop :=
  turn.devMode ≠ emSkipExchange ∧ isPollEnabled turn.exchangeMode false = true ∧ p.qCount ≠ 0 ∧
    (p.mbfunc = .fnReadInputStatus ∨ p.mbfunc = .fnReadCoilStatus) ∧
    ∃ m, turn.reply = .ok m ∧ m.byteAt 0 = 0

/-- The request leaves the iterator on a register of the map, at it or behind. -/
def Stands (regs : List RegInfo) (it : Nat) (polled : Option Polled) : Prop :=
  ∃ regs' it' result, polled = some (regs', it', result) ∧ SameAsks regs regs' ∧ it ≤ it' ∧ it' < regs.length

section Request

variable {turn : Turn} {regs : List RegInfo} {it : Nat} {p : RegInfo}

/-- A request that does not move the iterator. -/
theorem stands_still (here : regs[it]? = some p) (result : Except MbErrCode Bool) :
    Stands regs it (some (regs, it, result)) :=
  ⟨regs, it, result, rfl, rfl, Nat.le_refl it, (List.getElem?_eq_some_iff.mp here).1⟩

theorem stands_storeAll {vals : List Nat} (positive : 0 < vals.length)
    (inside : it + vals.length ≤ regs.length) : Stands regs it (storeAll vals regs it) := by
  have keeps : ∀ f ∈ vals.map store, KeepsAsks f := by
    intro f member
    obtain ⟨val, -, rfl⟩ := List.mem_map.mp member
    exact fun _ => rfl
  have length : (vals.map store).length = vals.length := List.length_map _
  rw [← length] at positive inside
  obtain ⟨regs', walked, same⟩ := walkBack_inside keeps positive inside
  refine ⟨regs', it + ((vals.map store).length - 1), .ok true, ?_, same, Nat.le_add_right it _, by omega⟩
  rw [storeAll, walked]
  rfl

/-- The bytes of a reply to a bit read that is accepted. -/
theorem readBits_length {reply : Reply} {data : List Byte} (accepted : readBits reply = .ok data) :
    ∃ m, reply = .ok m ∧ data.length = (m.byteAt 0).toNat := by
  cases reply with
  | error ex => cases accepted
  | ok m =>
    have read : (if maxPduLen < (m.byteAt 0).toNat then Except.error MbErrCode.erPacketTooLong
        else .ok ((List.range (m.byteAt 0).toNat).map fun i => m.byteAt (i + 1))) = Except.ok data := accepted
    split_ifs at read
    cases read
    exact ⟨m, rfl, by rw [List.length_map, List.length_range]⟩

/-- A request for bits is answered with eight for each byte, or as many as it was for. -/
theorem bits_length (data : List Byte) (count : Nat) :
    (((data.flatMap byteBits).take count).map Bool.toNat).length = min count (8 * data.length) := by
  rw [List.length_map, List.length_take]
  congr 1
  induction data with
  | nil => rfl
  | cons b data ih =>
    rw [List.flatMap_cons, List.length_append, ih, UniSet.Lib.byteBits_length, List.length_cons]
    omega

/-- A request that writes the registers it is moved over. -/
theorem stands_pass {count : Nat} (inside : it + count ≤ regs.length) (asks : count ≠ 0)
    (result : Except MbErrCode Bool) :
    Stands regs it ((walkBack (List.replicate count id) regs it).map fun moved =>
      (moved.1, moved.2, result)) := by
  have keeps : ∀ f ∈ List.replicate count (id : RegInfo → RegInfo), KeepsAsks f := by
    intro f member
    rw [List.eq_of_mem_replicate member]
    exact fun _ => rfl
  have length : (List.replicate count (id : RegInfo → RegInfo)).length = count := List.length_replicate
  obtain ⟨regs', walked, same⟩ := walkBack_inside keeps (by rw [length]; exact Nat.pos_of_ne_zero asks)
    (by rwa [length])
  rw [length] at walked
  refine ⟨regs', it + (count - 1), result, ?_, same, Nat.le_add_right it _, by omega⟩
  rw [walked]
  rfl

/-- An answer without bits moves the iterator back. -/
theorem not_stands_storeAll_nil : ¬ Stands regs it (storeAll [] regs it) := by
  rintro ⟨regs', it', result, stored, -, behind, -⟩
  cases it with
  | zero => cases stored
  | succ it =>
    cases stored
    exact Nat.not_succ_le_self it behind

/-- A word read brings as many words as it was for. -/
theorem stands_words (here : regs[it]? = some p) (inside : it + p.qCount ≤ regs.length)
    (asks : p.qCount ≠ 0) (reply : Reply) : Stands regs it (pollWords reply regs it p.qCount) := by
  rw [pollWords]
  split
  · exact stands_still here _
  · apply stands_storeAll
    · rw [List.length_map, List.length_range]
      exact Nat.pos_of_ne_zero asks
    · rwa [List.length_map, List.length_range]

/-- A bit read brings some bits if it brings a byte. -/
theorem stands_bits_iff (here : regs[it]? = some p) (inside : it + p.qCount ≤ regs.length)
    (asks : p.qCount ≠ 0) (reply : Reply) :
    Stands regs it (pollBits reply regs it p.qCount) ↔ ¬ ∃ m, reply = .ok m ∧ m.byteAt 0 = 0 := by
  rw [pollBits]
  split
  · rename_i ex refused
    refine iff_of_true (stands_still here _) ?_
    rintro ⟨m, rfl, zero⟩
    have accepted : readBits (.ok m) = .ok [] := by
      show (if maxPduLen < (m.byteAt 0).toNat then Except.error MbErrCode.erPacketTooLong
        else .ok ((List.range (m.byteAt 0).toNat).map fun i => m.byteAt (i + 1))) = _
      rw [zero]
      rfl
    rw [accepted] at refused
    cases refused
  · rename_i data accepted
    obtain ⟨m, rfl, length⟩ := readBits_length accepted
    have bits := bits_length data p.qCount
    by_cases zero : m.byteAt 0 = 0
    · refine iff_of_false ?_ fun brings => brings ⟨m, rfl, zero⟩
      have none : data = [] := List.length_eq_zero_iff.mp (by rw [length, zero]; rfl)
      rw [none, List.flatMap_nil, List.take_nil]
      exact not_stands_storeAll_nil
    · refine iff_of_true ?_ ?_
      · have positive : 0 < (m.byteAt 0).toNat :=
          Nat.pos_of_ne_zero fun same => zero (UInt8.toNat_inj.mp same)
        apply stands_storeAll
        · omega
        · omega
      · rintro ⟨m', same, zero'⟩
        cases same
        exact zero zero'

/-- **A request leaves the iterator in its place**, unless it is answered without bits. -/
theorem pollRTU_stands_iff (reaches : Reaches regs) (here : regs[it]? = some p) :
    Stands regs it (pollRTU turn regs it p) ↔ ¬ EmptyBits turn p := by
  have inside := reaches.get here
  rw [pollRTU]
  by_cases skipped : turn.devMode = emSkipExchange
  · rw [if_pos skipped]
    exact iff_of_true (stands_still here _) fun empty => empty.1 skipped
  rw [if_neg skipped]
  by_cases enabled : isPollEnabled turn.exchangeMode p.mbfunc.isWriteFunction = true
  · rw [if_neg (by rw [enabled]; exact Bool.false_ne_true)]
    by_cases asks : p.qCount = 0
    · rw [if_pos asks]
      exact iff_of_true (stands_still here _) fun empty => empty.2.2.1 asks
    rw [if_neg asks]
    have other : p.mbfunc ≠ .fnReadInputStatus → p.mbfunc ≠ .fnReadCoilStatus → ¬ EmptyBits turn p :=
      fun input coil empty => empty.2.2.2.1.elim input coil
    cases func : p.mbfunc <;> rw [func] at enabled other <;> simp only
    case fnReadInputRegisters | fnReadOutputRegisters =>
      exact iff_of_true (stands_words here inside asks _) (other (by simp) (by simp))
    case fnReadInputStatus =>
      rw [stands_bits_iff here inside asks, not_iff_not]
      exact ⟨fun brings => ⟨skipped, enabled, asks, Or.inl func, brings⟩, fun empty => empty.2.2.2.2⟩
    case fnReadCoilStatus =>
      rw [stands_bits_iff here inside asks, not_iff_not]
      exact ⟨fun brings => ⟨skipped, enabled, asks, Or.inr func, brings⟩, fun empty => empty.2.2.2.2⟩
    case fnWriteOutputSingleRegister | fnForceSingleCoil =>
      refine iff_of_true ?_ (other (by simp) (by simp))
      split_ifs <;> exact stands_still here _
    case fnWriteOutputRegisters | fnForceMultipleCoils =>
      refine iff_of_true ?_ (other (by simp) (by simp))
      split_ifs
      · exact stands_still here _
      · exact stands_pass inside asks _
    case other =>
      exact iff_of_true (stands_still here _) (other (by simp) (by simp))
  · have refused : ¬ EmptyBits turn p := by
      rintro ⟨-, enabled', -, func | func, -⟩
      all_goals
        rw [func] at enabled
        exact enabled enabled'
    have off : (!isPollEnabled turn.exchangeMode p.mbfunc.isWriteFunction) = true := by
      rw [Bool.eq_false_iff.mpr enabled]
      rfl
    rw [if_pos off]
    exact iff_of_true (stands_still here _) refused

end Request

/-! ### A turn -/

/-- **A request leaves the iterator on a register of the map**, at its own or behind. -/
def Proper : Loop → Turn → Prop
  | .here regs it, turn => turn.asks = true → ∀ p, regs[it]? = some p → Stands regs it (pollRTU turn regs it p)
  | _, _ => True

/-- **No request for bits is answered without any.** -/
def Answered : Loop → Turn → Prop
  | .here regs it, turn => turn.asks = true → ∀ p, regs[it]? = some p → ¬ EmptyBits turn p
  | _, _ => True

/-- The loop is at a register of a map that reaches no further than its end, or left. -/
def Inside : Loop → Prop
  | .here regs it => Reaches regs ∧ it < regs.length
  | .left _ => True
  | .lost => False

section Turns

variable {askEveryReg : Bool} {turn : Turn}

theorem proper_iff_answered {s : Loop} (inside : Inside s) : Proper s turn ↔ Answered s turn := by
  cases s with
  | here regs it =>
    exact forall_congr' fun _ => forall_congr' fun p => forall_congr' fun here =>
      pollRTU_stands_iff inside.1 here
  | left _ => exact Iff.rfl
  | lost => exact Iff.rfl

/-- `++it` goes on behind the register, or leaves the loop. -/
theorem next_cases (regs : List RegInfo) (it : Nat) :
    (it + 1 < regs.length ∧ next regs it = .here regs (it + 1)) ∨ next regs it = .left regs := by
  rw [next]
  split_ifs with more
  · exact Or.inl ⟨more, rfl⟩
  · exact Or.inr rfl

/-- **A turn**: the loop is left, or it goes on behind the register. -/
theorem visit_cases {it : Nat} (inside : it < regs.length) (proper : Proper (.here regs it) turn) :
    ∃ regs', SameAsks regs regs' ∧ (visit askEveryReg turn regs it = .left regs' ∨
      ∃ it', it < it' ∧ it' < regs.length ∧ visit askEveryReg turn regs it = .here regs' it') := by
  have here : regs[it]? = some regs[it] := List.getElem?_eq_getElem inside
  rw [visit, here]
  dsimp only
  have moved : ∀ (regs' : List RegInfo) (it' : Nat), SameAsks regs regs' → it ≤ it' →
      next regs' it' = .left regs' ∨
        ∃ it'', it < it'' ∧ it'' < regs.length ∧ next regs' it' = .here regs' it'' := by
    intro regs' it' same behind
    rcases next_cases regs' it' with ⟨more, on⟩ | left
    · rw [same.length] at more
      exact Or.inr ⟨it' + 1, Nat.lt_succ_of_le behind, more, on⟩
    · exact Or.inl left
  by_cases active : turn.active = true
  · rw [if_neg (by rw [active]; exact Bool.false_ne_true)]
    by_cases skipped : turn.exchangeMode = emSkipExchange
    · rw [if_pos skipped]
      exact ⟨regs, rfl, moved regs it rfl (Nat.le_refl it)⟩
    · have asks : turn.asks = true := by rw [Turn.asks, active, decide_eq_true skipped]; rfl
      obtain ⟨regs', it', result, polled, same, behind, -⟩ := proper asks regs[it] here
      rw [if_neg skipped, polled, after]
      refine ⟨regs', same, ?_⟩
      split_ifs
      · exact Or.inl rfl
      · exact Or.inl rfl
      · exact Or.inl rfl
      · exact moved regs' it' same behind
  · rw [if_pos (by rw [Bool.eq_false_iff.mpr active]; rfl)]
    exact ⟨regs, rfl, Or.inl rfl⟩

/-- **A turn keeps the loop inside the map.** -/
theorem step_inside {s t : Loop} (inside : Inside s) (proper : Proper s turn)
    (stepped : (machine askEveryReg).step s turn = some t) : Inside t := by
  cases s with
  | here regs it =>
    cases stepped
    obtain ⟨regs', same, left | ⟨it', -, more, on⟩⟩ := visit_cases inside.2 proper
    · rw [left]
      trivial
    · rw [on]
      exact ⟨same.reaches inside.1, by rwa [same.length]⟩
  | left _ => cases stepped
  | lost => cases stepped

end Turns

/-! ### The cycle -/

/-- The first turns. -/
def firstTurns (turns : Nat → Turn) (n : Nat) : List Turn := (List.range n).map turns

/-- **The loop over a map ends**, and each of its requests leaves the iterator on a register of the map,
not before its own. -/
structure CycleEnds (askEveryReg : Bool) (regs : List RegInfo) (turns : Nat → Turn) : Prop where
  proper : ∀ n, (machine askEveryReg).Meets Proper (start regs) (firstTurns turns n)
  ends : ∃ n ≤ regs.length, ∃ regs', (machine askEveryReg).run (start regs) (firstTurns turns n) =
    some (.left regs')

section Cycle

variable {askEveryReg : Bool} {regs : List RegInfo} {turns : Nat → Turn}

theorem start_inside (reaches : Reaches regs) : Inside (start regs) := by
  rw [start]
  split_ifs with empty
  · trivial
  · exact ⟨reaches, List.length_pos_iff.mpr empty⟩

/-- After some turns the loop is left, or it has gone on with each of them. -/
theorem run_goes_on
    (proper : ∀ n, (machine askEveryReg).Meets Proper (start regs) (firstTurns turns n)) (n : Nat) :
    (∃ k ≤ n, ∃ regs', (machine askEveryReg).run (start regs) (firstTurns turns k) = some (.left regs')) ∨
      ∃ regs' it, (machine askEveryReg).run (start regs) (firstTurns turns n) = some (.here regs' it) ∧
        SameAsks regs regs' ∧ n ≤ it ∧ it < regs.length := by
  induction n with
  | zero =>
    by_cases empty : regs = []
    · exact Or.inl ⟨0, Nat.le_refl 0, regs, congrArg some (if_pos empty)⟩
    · exact Or.inr ⟨regs, 0, congrArg some (if_neg empty), rfl, Nat.le_refl 0, List.length_pos_iff.mpr empty⟩
  | succ n ih =>
    rcases ih with ⟨k, before, left⟩ | ⟨regs', it, ran, same, behind, inside⟩
    · exact Or.inl ⟨k, Nat.le_succ_of_le before, left⟩
    have more : firstTurns turns (n + 1) = firstTurns turns n ++ [turns n] := by
      rw [firstTurns, List.range_succ, List.map_append]
      rfl
    have last := proper (n + 1)
    rw [more] at last
    have within : it < regs'.length := by rwa [same.length]
    have stepped : (machine askEveryReg).run (start regs) (firstTurns turns (n + 1)) =
        some (visit askEveryReg (turns n) regs' it) := by
      rw [more, Machine.run_concat, ran]
      rfl
    obtain ⟨regs'', same', left | ⟨it', later, within', on⟩⟩ := visit_cases within (last.last ran)
    · exact Or.inl ⟨n + 1, Nat.le_refl _, regs'', by rw [stepped, left]⟩
    · refine Or.inr ⟨regs'', it', by rw [stepped, on], same'.trans same, by omega, ?_⟩
      rwa [same.length] at within'

/-- **The loop ends, whatever the device replies**, unless it answers a request for bits without any. -/
theorem cycleEnds_iff_answered (reaches : Reaches regs) :
    CycleEnds askEveryReg regs turns ↔
      ∀ n, (machine askEveryReg).Meets Answered (start regs) (firstTurns turns n) := by
  have same : ∀ n, (machine askEveryReg).Meets Proper (start regs) (firstTurns turns n) ↔
      (machine askEveryReg).Meets Answered (start regs) (firstTurns turns n) := fun n =>
    @Machine.meets_iff_meets Loop Turn (machine askEveryReg) Answered (start regs) Inside (fun _ => True) Proper
      (fun s turn inside _ => proper_iff_answered inside)
      (fun s turn t inside _ proper stepped => step_inside inside proper stepped)
      (firstTurns turns n) (fun _ _ => trivial) (start_inside reaches)
  constructor
  · exact fun cycle n => (same n).mp (cycle.proper n)
  · intro answered
    have proper := fun n => (same n).mpr (answered n)
    refine ⟨proper, ?_⟩
    rcases run_goes_on proper regs.length with left | ⟨regs', it, -, -, behind, inside⟩
    · exact left
    · exact absurd inside (Nat.not_lt.mpr behind)

end Cycle

/-- **The cycle over a joined map of a configuration ends**, with the iterator in its place throughout, in
exactly the runs in which no request for bits is answered without any. The registers may have other values
and flags by now. -/
theorem cycleEnds_iff {params : Params} {items : List Item} {conf : MBConf}
    (loaded : loadConfig params items = some conf) (joined : params.noQueryOptimization = false)
    {m : PollMap} (member : m ∈ conf.pollmaps) (cyclic : m.pollfactor ≠ changeOnlyWrite)
    {regs : List RegInfo} (now : SameAsks m.regs regs) (askEveryReg : Bool) (turns : Nat → Turn) :
    CycleEnds askEveryReg regs turns ↔
      ∀ n, (machine askEveryReg).Meets Answered (start regs) (firstTurns turns n) :=
  cycleEnds_iff_answered (now.reaches (loadConfig_reaches loaded joined member cyclic))

/-- A coil that is read. -/
def coilItem (mbreg : Nat) : Item where
  si := ⟨mbreg, 1⟩
  stype := .DI
  nbit := none
  vType := .vtUnknown
  nbyte := 0
  mask := 0
  default := 0
  mbaddr := 1
  dtype := .dtRTU
  mtrSize := 0
  mbreg := mbreg
  mbfunc := .fnReadCoilStatus
  pollfactor := 0
  smInitOK := false
  preinit := false
  initMbreg := none
  initMbfunc := none

/-- The registers of two coils that are read with a request each. -/
def twoCoils : List RegInfo :=
  [⟨0, .fnReadCoilStatus, genRegID 0 1, 0, 0, false, false, 0, 1, [(coilItem 0).property 0]⟩,
    ⟨5, .fnReadCoilStatus, genRegID 5 1, 0, 0, false, false, 0, 1, [(coilItem 5).property 0]⟩]

/-- A turn that is answered by these bytes of bits. -/
def answeredBy (data : List Byte) : Turn := ⟨true, true, 0, 0, .ok ⟨1, 1, data⟩⟩

def coilParams : Params := ⟨false, false, 125⟩

theorem twoCoils_loaded : loadConfig coilParams [coilItem 0, coilItem 5] =
    some ⟨false, [⟨1, .dtRTU, 0, twoCoils⟩], []⟩ := by
  decide +kernel

/-- A device that answers every request with a byte. -/
theorem cycleEnds_byte : CycleEnds false twoCoils fun _ => answeredBy [1, 0] := by
  refine (cycleEnds_iff twoCoils_loaded rfl List.mem_cons_self (by decide) rfl false fun _ =>
    answeredBy [1, 0]).mpr fun n => Machine.meets_of_forall fun s turn member => ?_
  obtain ⟨i, -, rfl⟩ := List.mem_map.mp member
  cases s with
  | here regs it =>
    rintro - p - ⟨-, -, -, -, m, reply, zero⟩
    cases reply
    exact absurd zero (by decide)
  | left _ => trivial
  | lost => trivial

/-- A byte count of 0, and the check sum. -/
def noBits : List Byte := [0x00, 0x21, 0x90]

/-- The device answers the first request with a byte, and the others without bits. -/
def firstByteOnly (n : Nat) : Turn := answeredBy (if n = 0 then [1, 0] else noBits)

/-- The loop has been left. -/
def Loop.isLeft : Loop → Bool
  | .left _ => true
  | _ => false

/-- **An answer without bits is accepted, and the loop goes back**: the register is asked again for ever;
at the first register of the map the iterator is lost. -/
theorem cycleEnds_fails :
    recvPdu ⟨Modbus.RTUSlave.receiveBlock, id⟩ false 1 1 ⟨1 :: noBits, [], []⟩ =
        done .erNoError ⟨1, 1, noBits⟩ ⟨[], [], []⟩ ∧
      (machine false).run (start twoCoils) (firstTurns (fun _ => answeredBy noBits) 1) = some .lost ∧
      ¬ ∀ (params : Params) (items : List Item) (conf : MBConf), loadConfig params items = some conf →
        params.noQueryOptimization = false → ∀ m ∈ conf.pollmaps, m.pollfactor ≠ changeOnlyWrite →
        ∀ (askEveryReg : Bool) (turns : Nat → Turn), CycleEnds askEveryReg m.regs turns := by
  refine ⟨by decide +kernel, by decide +kernel, fun cycle => ?_⟩
  obtain ⟨n, le, regs', left⟩ := (cycle coilParams _ _ twoCoils_loaded rfl _ List.mem_cons_self (by decide)
    false firstByteOnly).ends
  have never : ∀ k ≤ 2, ((machine false).run (start twoCoils) (firstTurns firstByteOnly k)).any Loop.isLeft =
      false := by
    decide +kernel
  have not_left := never n le
  rw [left] at not_left
  exact Bool.noConfusion not_left

end UniSet.ModbusMaster.PollCycle
