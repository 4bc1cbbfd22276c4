/-
**The consumer list of a sensor: `askSensor`, `askSyncClient` and `send`.**

Unary consumers and stream clients share one list. A unary consumer is matched by its
`ConsumerInfo`, a stream client by its pointer; the entry of a stream client carries the default
`ConsumerInfo`, which is `(0, 0)`.

* `addSyncConsumer`, `removeSyncConsumer`, `addConsumer`, `removeConsumer`, `ask` — the commands.
* `send` — one pass over the list, with the retries and the eviction of lost consumers. The iterator
  moves as in libstdc++: after the erasure of a closed client the next entry is passed over, after
  the eviction of a consumer it is not.
* **`subscription_independent`** — every consumer and client has at most one entry, and has one
  exactly if its own last command was not `UIODontNotify`, in every run in which no unary command
  from `(0, 0)` meets an entry of a stream client and no first notification evicts its consumer.
  `zero_consumer_unsubscribes_client` is a run in which one does.
-/

import Mathlib.Data.List.Nodup
import UniSet.Lib.Machine
import UniSet.Processes.Sensor

set_option linter.unusedSectionVars false

namespace UniSet.Processes.Consumers

/-- `uniset3::UIOCommand`. -/
inductive UIOCommand
  | UIONotify | UIODontNotify | UIONotifyChange | UIONotifyFirstNotNull | UIOSet | UIOGet
deriving DecidableEq, Repr

/-- `uniset3::ConsumerInfo`; both fields default to `0`. -/
structure ConsumerInfo where
  id : ObjectId := 0
  node : ObjectId := 0
deriving DecidableEq, Repr

/-- `ConsumerInfoExt`, for a type `Client` of pointers to stream clients. -/
structure ConsumerInfoExt (Client : Type) where
  client : Option Client
  ci : ConsumerInfo
  attempt : Nat
  lostEvents : Nat := 0
  smCount : Nat := 0
deriving DecidableEq, Repr

structure LostConsumerInfo where
  count : Nat := 0
  lost : Bool := false
deriving DecidableEq, Repr

/-- The configured numbers of attempts, of type `int`. -/
structure Attempts where
  /-- `ConsumerMaxAttempts`: the failures after which a consumer is erased. -/
  maxAttempts : Int
  /-- `ConsumerSendAttempts`: the attempts of one notification. -/
  sendAttempts : Int
  bounds : -0x80000000 ≤ maxAttempts ∧ maxAttempts < 0x80000000

/-- The conversion of `maxAttemtps` to the `size_t` of an entry. -/
def Attempts.first (cfg : Attempts) : Nat := (cfg.maxAttempts % 0x10000000000000000).toNat

theorem Attempts.first_eq (cfg : Attempts) (bounded : 0 < cfg.maxAttempts) :
    cfg.first = cfg.maxAttempts.toNat := by
  have bound := cfg.bounds
  rw [Attempts.first, Int.emod_eq_of_lt (Int.le_of_lt bounded) (by omega)]

/-- `lostConsumers`. -/
abbrev LostMap := ObjectId → Option LostConsumerInfo

variable {Client : Type} [DecidableEq Client] (cfg : Attempts)

/-! ### The list operations -/

/-- Reset the attempts of the first entry that fits; `none` if there is none. -/
def resetFirst (fits : ConsumerInfoExt Client → Bool) (attempt : Nat) :
    List (ConsumerInfoExt Client) → Option (List (ConsumerInfoExt Client))
  | [] => none
  | e :: rest =>
    if fits e then some ({ e with attempt := attempt } :: rest)
    else (resetFirst fits attempt rest).map (e :: ·)

/-- `c->second.lost = false`, if there is such an entry. -/
def clearLost (lost : LostMap) (id : ObjectId) : LostMap :=
  Function.update lost id ((lost id).map fun c => { c with lost := false })

/-- **`IONotifyController::addSyncConsumer`.** -/
def addSyncConsumer (clst : List (ConsumerInfoExt Client)) (cli : Client) :
    List (ConsumerInfoExt Client) :=
  (resetFirst (fun e => e.client = some cli) cfg.first clst).getD
    (⟨some cli, {}, cfg.first, 0, 0⟩ :: clst)

/-- **`IONotifyController::removeSyncConsumer`.** -/
def removeSyncConsumer (clst : List (ConsumerInfoExt Client)) (cli : Client) :
    List (ConsumerInfoExt Client) :=
  clst.eraseP fun e => e.client = some cli

/-- **`IONotifyController::addConsumer`**; the lost flag is cleared on both paths. -/
def addConsumer (clst : List (ConsumerInfoExt Client)) (ci : ConsumerInfo) :
    List (ConsumerInfoExt Client) :=
  (resetFirst (fun e => e.ci = ci) cfg.first clst).getD (⟨none, ci, cfg.first, 0, 0⟩ :: clst)

/-- **`IONotifyController::removeConsumer`.** -/
def removeConsumer (clst : List (ConsumerInfoExt Client)) (ci : ConsumerInfo) :
    List (ConsumerInfoExt Client) :=
  clst.eraseP fun e => e.ci = ci

/-- The list of one sensor (`none` before `ask` creates it) and the lost consumers. -/
structure Lists (Client : Type) where
  clst : Option (List (ConsumerInfoExt Client))
  lost : LostMap

/-- The entries. -/
def Lists.entries (st : Lists Client) : List (ConsumerInfoExt Client) := st.clst.getD []

/-- **`IONotifyController::ask`** for one sensor. -/
def ask (st : Lists Client) (cons : ConsumerInfo) (cmd : UIOCommand) (cli : Option Client) :
    Lists Client :=
  match cmd with
  | .UIONotify | .UIONotifyChange | .UIONotifyFirstNotNull =>
    match cli with
    | some cli => { st with clst := some (addSyncConsumer cfg st.entries cli) }
    | none => ⟨some (addConsumer cfg st.entries cons), clearLost st.lost cons.id⟩
  | .UIODontNotify =>
    match cli with
    | some cli => { st with clst := st.clst.map fun clst => removeSyncConsumer clst cli }
    | none => { st with clst := st.clst.map fun clst => removeConsumer clst cons }
  | .UIOSet | .UIOGet => st

/-! ### `send` -/

/-- What a pass over the list has done so far. -/
structure Pass (Client : Type) where
  lost : LostMap
  /-- The stream clients the message was pushed to. -/
  pushed : List Client
  /-- The consumers of the calls of `ui->send`, one for every attempt. -/
  tried : List ConsumerInfo

/-- What the environment decides during a pass. -/
structure Delivery (Client : Type) where
  closed : Client → Bool
  /-- Whether the `n`-th call of `ui->send` of the pass succeeds. -/
  outcome : Nat → Bool

/-- `--(li->attempt)` on a `size_t`. -/
def pred64 (n : Nat) : Nat := if n = 0 then 0xffffffffffffffff else n - 1

/-- The entry of an evicted consumer in `lostConsumers`. -/
def markLost (lost : LostMap) (id : ObjectId) : LostMap :=
  let c := (lost id).getD {}
  Function.update lost id (some (if c.lost then c else ⟨c.count + 1, true⟩))

/-- The attempts of one notification from the `i`-th on, `left` of them at most. The entry is `none`
when the consumer is erased. -/
def attempts (outcome : Nat → Bool) : (left i : Nat) → ConsumerInfoExt Client → Pass Client →
    Option (ConsumerInfoExt Client) × Pass Client
  | 0, _, e, pass => (some e, pass)
  | left + 1, i, e, pass =>
    let tried := { pass with tried := pass.tried ++ [e.ci] }
    if outcome pass.tried.length then
      (some { e with smCount := e.smCount + 1, attempt := cfg.first }, tried)
    else
      let missed := if 0 < i then { e with lostEvents := e.lostEvents + 1 } else e
      if 0 < cfg.maxAttempts then
        if pred64 missed.attempt = 0 then
          (none, { tried with lost := markLost pass.lost e.ci.id })
        else attempts outcome left (i + 1) { missed with attempt := pred64 missed.attempt } tried
      else attempts outcome left (i + 1) missed tried

/-- **`IONotifyController::send`**, to all entries or to those of one consumer. -/
def send (env : Delivery Client) (ci : Option ConsumerInfo) :
    List (ConsumerInfoExt Client) → Pass Client → List (ConsumerInfoExt Client) × Pass Client
  | [], pass => ([], pass)
  | e :: rest, pass =>
    if ci.any (· ≠ e.ci) then
      let (rest, pass) := send env ci rest pass
      (e :: rest, pass)
    else
      match ci, e.client with
      | none, some cli =>
        if env.closed cli then
          match rest with
          | [] => ([], pass)
          | skipped :: rest =>
            let (rest, pass) := send env ci rest pass
            (skipped :: rest, pass)
        else
          let (rest, pass) := send env ci rest { pass with pushed := pass.pushed ++ [cli] }
          (e :: rest, pass)
      | _, _ =>
        let (kept, pass) := attempts cfg env.outcome cfg.sendAttempts.toNat 0 e pass
        let (rest, pass) := send env ci rest pass
        (kept.toList ++ rest, pass)

/-! ### The commands -/

/-- The first notification is sent with the command. -/
def UIOCommand.notifiesFirst (cmd : UIOCommand) (value : Value) : Bool :=
  cmd = .UIONotify || (cmd = .UIONotifyFirstNotNull && value ≠ 0)

/-- A command on the sensor, with the visible value at that moment and, for a unary consumer, the
outcomes of the attempts of the first notification. -/
inductive Command (Client : Type)
  | askSensor (ci : ConsumerInfo) (cmd : UIOCommand) (value : Value) (outcome : Nat → Bool)
  | askSyncClient (cli : Client) (ci : ConsumerInfo) (cmd : UIOCommand)

/-- **`IONotifyController::askSensor`** of a listed sensor. -/
def askSensor (st : Lists Client) (ci : ConsumerInfo) (cmd : UIOCommand) (value : Value)
    (outcome : Nat → Bool) : Lists Client :=
  let st := ask cfg st ci cmd none
  if cmd.notifiesFirst value then
    match st.clst with
    | none => st
    | some clst =>
      let (clst, pass) := send cfg ⟨fun _ => false, outcome⟩ (some ci) clst ⟨st.lost, [], []⟩
      ⟨some clst, pass.lost⟩
  else st

/-- **`IONotifyController::askSyncClient`** of a listed sensor; the first notification goes to the
queue of the client and leaves the list alone. -/
def askSyncClient (st : Lists Client) (cli : Client) (ci : ConsumerInfo) (cmd : UIOCommand) :
    Lists Client :=
  let id := if ci.id = 0 then defaultObjectId else ci.id
  let node := if ci.node = 0 then defaultObjectId else ci.node
  ask cfg st ⟨id, node⟩ cmd (some cli)

def Command.apply (st : Lists Client) : Command Client → Lists Client
  | .askSensor ci cmd value outcome => Consumers.askSensor cfg st ci cmd value outcome
  | .askSyncClient cli ci cmd => Consumers.askSyncClient cfg st cli ci cmd

/-- **All sequences of commands** on a sensor nobody has asked for. -/
def machine : Lib.Machine (Lists Client) (Command Client) where
  start st := st.clst = none
  step st command := some (command.apply cfg st)

/-! ### Who is subscribed -/

/-- Who an entry belongs to. -/
inductive Subscriber (Client : Type)
  | unary (ci : ConsumerInfo)
  | stream (cli : Client)
deriving DecidableEq, Repr

def ConsumerInfoExt.subscriber (e : ConsumerInfoExt Client) : Subscriber Client :=
  match e.client with
  | some cli => .stream cli
  | none => .unary e.ci

/-- The subscribers of a list, in list order. -/
def subscribers (clst : List (ConsumerInfoExt Client)) : List (Subscriber Client) :=
  clst.map ConsumerInfoExt.subscriber

def Command.subscriber : Command Client → Subscriber Client
  | .askSensor ci .. => .unary ci
  | .askSyncClient cli .. => .stream cli

def Command.cmd : Command Client → UIOCommand
  | .askSensor _ cmd .. | .askSyncClient _ _ cmd => cmd

/-- Who wants notifications after a command of `who`. -/
def obey (wants : Subscriber Client → Bool) (who : Subscriber Client) (cmd : UIOCommand) :
    Subscriber Client → Bool :=
  match cmd with
  | .UIONotify | .UIONotifyChange | .UIONotifyFirstNotNull => Function.update wants who true
  | .UIODontNotify => Function.update wants who false
  | .UIOSet | .UIOGet => wants

/-- **Whose last command was a subscription**: it was given, and it was not `UIODontNotify`. -/
def wantsAfter (commands : List (Command Client)) : Subscriber Client → Bool :=
  commands.foldl (fun wants command => obey wants command.subscriber command.cmd) fun _ => false

/-- **The condition**: a unary command from `(0, 0)` meets no entry of a stream client, and a first
notification is delivered before its attempts run out. -/
def Distinct (st : Lists Client) : Command Client → Prop
  | .askSensor ci cmd value outcome =>
    (ci = {} → ∀ e ∈ st.entries, e.client = none) ∧
    (cmd.notifiesFirst value = true → 0 < cfg.maxAttempts → cfg.maxAttempts ≤ cfg.sendAttempts →
      ∃ n < cfg.maxAttempts.toNat, outcome n = true)
  | .askSyncClient .. => True

instance (st : Lists Client) : ∀ command, Decidable (Distinct cfg st command)
  | .askSensor ci cmd value outcome => inferInstanceAs (Decidable
      ((ci = {} → ∀ e ∈ st.entries, e.client = none) ∧
        (cmd.notifiesFirst value = true → 0 < cfg.maxAttempts →
          cfg.maxAttempts ≤ cfg.sendAttempts → ∃ n < cfg.maxAttempts.toNat, outcome n = true)))
  | .askSyncClient .. => inferInstanceAs (Decidable True)

/-- **The invariant.** -/
structure Tracks (wants : Subscriber Client → Bool) (clst : List (ConsumerInfoExt Client)) : Prop where
  zero : ∀ e ∈ clst, e.client ≠ none → e.ci = {}
  nodup : (subscribers clst).Nodup
  member : ∀ who, who ∈ subscribers clst ↔ wants who = true

variable {ci : ConsumerInfo} {clst : List (ConsumerInfoExt Client)}

section Operations

/-- An entry without its counters. -/
def ConsumerInfoExt.identity (e : ConsumerInfoExt Client) : Option Client × ConsumerInfo :=
  (e.client, e.ci)

variable {fits : ConsumerInfoExt Client → Bool} {who : Subscriber Client}
  {clst : List (ConsumerInfoExt Client)} {cfg}

/-- Only the attempts of an entry change, and only of an entry that fits. -/
theorem resetFirst_spec (key : ∀ e ∈ clst, fits e = true ↔ e.subscriber = who) (attempt : Nat) :
    (resetFirst fits attempt clst = none ∧ who ∉ subscribers clst) ∨
    ∃ before e after, clst = before ++ e :: after ∧ e.subscriber = who ∧
      resetFirst fits attempt clst = some (before ++ { e with attempt := attempt } :: after) := by
  induction clst with
  | nil => exact .inl ⟨rfl, List.not_mem_nil⟩
  | cons e rest ih =>
    have later := ih fun e member => key e (List.mem_cons_of_mem _ member)
    have own := key e List.mem_cons_self
    by_cases here : fits e = true
    · exact .inr ⟨[], e, rest, rfl, own.mp here, by simp [resetFirst, here]⟩
    · rcases later with ⟨none, absent⟩ | ⟨before, found, after, split, same, reset⟩
      · refine .inl ⟨by simp [resetFirst, here, none], ?_⟩
        rw [subscribers, List.map_cons, List.mem_cons, not_or]
        exact ⟨fun same => here (own.mpr same.symm), absent⟩
      · exact .inr ⟨e :: before, found, after, by rw [split]; rfl, same,
          by simp [resetFirst, here, reset]⟩

/-- The subscribers after the entry of one of them was erased. -/
theorem subscribers_eraseP (key : ∀ e ∈ clst, fits e = true ↔ e.subscriber = who) :
    subscribers (clst.eraseP fits) = (subscribers clst).erase who := by
  induction clst with
  | nil => rfl
  | cons e rest ih =>
    have own := key e List.mem_cons_self
    have later := ih fun e member => key e (List.mem_cons_of_mem _ member)
    by_cases here : fits e = true
    · rw [List.eraseP_cons_of_pos here, ← own.mp here]
      exact (List.erase_cons_head ..).symm
    · have other : ¬ (e.subscriber == who) = true := fun same => here (own.mpr (beq_iff_eq.mp same))
      rw [List.eraseP_cons_of_neg here]
      show e.subscriber :: subscribers _ = (e.subscriber :: subscribers rest).erase who
      rw [later, List.erase_cons_tail other]

variable {wants : Subscriber Client → Bool}

theorem Tracks.congr {clst' : List (ConsumerInfoExt Client)} (tracks : Tracks wants clst)
    (same : clst'.map ConsumerInfoExt.identity = clst.map ConsumerInfoExt.identity) :
    Tracks wants clst' := by
  have named : subscribers clst' = subscribers clst := by
    have factor : ∀ l : List (ConsumerInfoExt Client), subscribers l =
        (l.map ConsumerInfoExt.identity).map fun i => i.1.elim (.unary i.2) .stream := by
      intro l
      rw [subscribers, List.map_map]
      refine List.map_congr_left fun e _ => ?_
      obtain ⟨client, ci, attempt, lostEvents, smCount⟩ := e
      cases client <;> rfl
    rw [factor, factor, same]
  refine ⟨fun e member streamed => ?_, named ▸ tracks.nodup, named ▸ tracks.member⟩
  have old : e.identity ∈ clst.map ConsumerInfoExt.identity :=
    same ▸ List.mem_map_of_mem member
  obtain ⟨entry, inside, equal⟩ := List.mem_map.mp old
  obtain ⟨client, ci⟩ := Prod.mk.inj equal
  rw [← ci]
  exact tracks.zero entry inside (client ▸ streamed)

theorem Tracks.remove (tracks : Tracks wants clst)
    (key : ∀ e ∈ clst, fits e = true ↔ e.subscriber = who) :
    Tracks (Function.update wants who false) (clst.eraseP fits) := by
  refine ⟨fun e member => tracks.zero e (List.mem_of_mem_eraseP member), ?_, fun other => ?_⟩
  · rw [subscribers_eraseP key]
    exact tracks.nodup.erase who
  · rw [subscribers_eraseP key, tracks.nodup.mem_erase_iff, tracks.member]
    by_cases same : other = who
    · subst same
      simp
    · simp [same]

/-- **A subscription** leaves one entry of the subscriber, with all attempts left. -/
theorem Tracks.add (tracks : Tracks wants clst)
    (key : ∀ e ∈ clst, fits e = true ↔ e.subscriber = who) (new : ConsumerInfoExt Client)
    (named : new.subscriber = who) (zero : new.client ≠ none → new.ci = {}) :
    Tracks (Function.update wants who true)
      ((resetFirst fits new.attempt clst).getD (new :: clst)) ∧
    ∃ before e after, (resetFirst fits new.attempt clst).getD (new :: clst) = before ++ e :: after ∧
      e.subscriber = who ∧ e.attempt = new.attempt := by
  rcases resetFirst_spec key new.attempt with ⟨none, absent⟩ |
    ⟨before, e, after, split, same, reset⟩
  · rw [none, Option.getD_none]
    refine ⟨⟨?_, ?_, fun other => ?_⟩, [], new, clst, rfl, named, rfl⟩
    · intro e member
      rcases List.mem_cons.mp member with rfl | old
      · exact zero
      · exact tracks.zero e old
    · exact List.nodup_cons.mpr ⟨named ▸ absent, tracks.nodup⟩
    · rw [subscribers, List.map_cons, List.mem_cons, named, ← subscribers, tracks.member]
      by_cases here : other = who
      · simp [here]
      · simp [here]
  · rw [reset, Option.getD_some]
    refine ⟨?_, before, _, after, rfl, same, rfl⟩
    have present : wants who = true := (tracks.member who).mp (by
      rw [split, ← same]
      exact List.mem_map_of_mem (List.mem_append_right _ List.mem_cons_self))
    rw [← present, Function.update_eq_self]
    exact tracks.congr (by rw [split]; simp [ConsumerInfoExt.identity])

/-! ### The first notification -/

variable {e : ConsumerInfoExt Client} {env : Delivery Client}

theorem send_target_other (other : e.ci ≠ ci) (rest : List (ConsumerInfoExt Client))
    (pass : Pass Client) :
    send cfg env (some ci) (e :: rest) pass =
      (e :: (send cfg env (some ci) rest pass).1, (send cfg env (some ci) rest pass).2) := by
  simp [send, Ne.symm other]

theorem send_target_own (own : e.ci = ci) (rest : List (ConsumerInfoExt Client))
    (pass : Pass Client) :
    (send cfg env (some ci) (e :: rest) pass).1 =
      (attempts cfg env.outcome cfg.sendAttempts.toNat 0 e pass).1.toList ++
        (send cfg env (some ci) rest
          (attempts cfg env.outcome cfg.sendAttempts.toNat 0 e pass).2).1 := by
  simp [send, own]

/-- A targeted pass leaves the entries of other consumers. -/
theorem send_others {pass : Pass Client} {before rest : List (ConsumerInfoExt Client)}
    (others : ∀ e ∈ before, e.ci ≠ ci) :
    send cfg env (some ci) (before ++ rest) pass =
      (before ++ (send cfg env (some ci) rest pass).1, (send cfg env (some ci) rest pass).2) := by
  induction before with
  | nil => rfl
  | cons e before ih =>
    have other := others e List.mem_cons_self
    rw [List.cons_append, send_target_other other,
      ih fun e member => others e (List.mem_cons_of_mem _ member)]
    rfl

/-- **The attempts of a notification keep the entry** if one of the first `maxAttempts` succeeds or
there are fewer than `maxAttempts`. -/
theorem attempts_keeps {outcome : Nat → Bool} {left i : Nat} {pass : Pass Client}
    (index : pass.tried.length = i)
    (count : 0 < cfg.maxAttempts → e.attempt + i = cfg.maxAttempts.toNat ∧ 0 < e.attempt)
    (enough : 0 < cfg.maxAttempts → i + left < cfg.maxAttempts.toNat ∨
      ∃ n, i ≤ n ∧ n < cfg.maxAttempts.toNat ∧ outcome n = true) :
    ∃ e', (attempts cfg outcome left i e pass).1 = some e' ∧ e'.identity = e.identity := by
  induction left generalizing i e pass with
  | zero => exact ⟨e, rfl, rfl⟩
  | succ left ih =>
    rw [attempts]
    dsimp only
    by_cases delivered : outcome pass.tried.length = true
    · rw [if_pos delivered]
      exact ⟨_, rfl, rfl⟩
    · rw [if_neg delivered]
      generalize missedEq : (if 0 < i then { e with lostEvents := e.lostEvents + 1 } else e) = missed
      have same : missed.identity = e.identity ∧ missed.attempt = e.attempt := by
        rw [← missedEq]
        split <;> exact ⟨rfl, rfl⟩
      rw [← same.1]
      have next : ({ pass with tried := pass.tried ++ [e.ci] } : Pass Client).tried.length = i + 1 := by
        rw [List.length_append, index, List.length_singleton]
      by_cases bounded : 0 < cfg.maxAttempts
      · have left' := count bounded
        rw [if_pos bounded, same.2, pred64, if_neg (Nat.ne_of_gt left'.2)]
        have still : i + 1 + left < cfg.maxAttempts.toNat ∨
            ∃ n, i + 1 ≤ n ∧ n < cfg.maxAttempts.toNat ∧ outcome n = true := by
          rcases enough bounded with few | ⟨n, later, below, ok⟩
          · exact .inl (by omega)
          · have other : n ≠ i := by
              rintro rfl
              exact delivered (index ▸ ok)
            exact .inr ⟨n, by omega, below, ok⟩
        have remains : i + 1 < cfg.maxAttempts.toNat := by
          rcases still with few | ⟨n, later, below, -⟩ <;> omega
        rw [if_neg (by omega)]
        exact ih next (fun _ => ⟨by dsimp only; omega, by dsimp only; omega⟩) fun _ => still
      · rw [if_neg bounded]
        exact ih next (fun positive => absurd positive bounded) fun positive =>
          absurd positive bounded

/-- A targeted pass keeps the list if its consumer has one entry with all attempts left and is not
evicted. -/
theorem send_target_keeps {before after : List (ConsumerInfoExt Client)} {pass : Pass Client}
    (earlier : ∀ e ∈ before, e.ci ≠ ci) (own : e.ci = ci) (later : ∀ e ∈ after, e.ci ≠ ci)
    (full : e.attempt = cfg.first) (begins : pass.tried = [])
    (delivered : 0 < cfg.maxAttempts → cfg.maxAttempts ≤ cfg.sendAttempts →
      ∃ n < cfg.maxAttempts.toNat, env.outcome n = true) :
    (send cfg env (some ci) (before ++ e :: after) pass).1.map ConsumerInfoExt.identity =
      (before ++ e :: after).map ConsumerInfoExt.identity := by
  obtain ⟨e', kept, same⟩ : ∃ e', (attempts cfg env.outcome cfg.sendAttempts.toNat 0 e pass).1 =
      some e' ∧ e'.identity = e.identity := by
    refine attempts_keeps (by rw [begins]; rfl) (fun positive => ?_) fun positive => ?_
    · rw [full, cfg.first_eq positive]
      omega
    · by_cases few : cfg.maxAttempts ≤ cfg.sendAttempts
      · obtain ⟨n, below, ok⟩ := delivered positive few
        exact .inr ⟨n, Nat.zero_le n, below, ok⟩
      · exact .inl (by omega)
  have rest : ∀ pass, (send cfg env (some ci) after pass).1 = after := fun pass => by
    have skipped : send cfg env (some ci) (after ++ []) pass = _ := send_others later
    rw [List.append_nil] at skipped
    rw [skipped]
    exact List.append_nil after
  rw [send_others earlier, send_target_own own, kept, rest]
  simp [same]

end Operations

/-! ### One command -/

variable {cfg} {st : Lists Client} {wants : Subscriber Client → Bool}

/-- The entry of a stream client is matched by its pointer. -/
theorem stream_key (cli : Client) (e : ConsumerInfoExt Client) :
    decide (e.client = some cli) = true ↔ e.subscriber = .stream cli := by
  obtain ⟨client, ci, attempt, lostEvents, smCount⟩ := e
  cases client <;> simp [ConsumerInfoExt.subscriber]

/-- The entry of a unary consumer is matched by its `ConsumerInfo`, unless that is the default one
and a stream client is in the list. -/
theorem unary_key (tracks : Tracks wants clst) (distinct : ci = {} → ∀ e ∈ clst, e.client = none) :
    ∀ e ∈ clst, decide (e.ci = ci) = true ↔ e.subscriber = .unary ci := by
  intro e member
  have zero := tracks.zero e member
  have alone := fun same => distinct same e member
  obtain ⟨client, info, attempt, lostEvents, smCount⟩ := e
  cases client with
  | none => simp [ConsumerInfoExt.subscriber]
  | some cli =>
    have streamed : info = {} := zero nofun
    have other : info ≠ ci := fun same => nomatch alone (same.symm.trans streamed)
    simp [ConsumerInfoExt.subscriber, other]

/-- A list without stream clients is one in which nobody wants to be one. -/
theorem Tracks.streamless_iff (tracks : Tracks wants clst) :
    (∀ e ∈ clst, e.client = none) ↔ ∀ cli, wants (.stream cli) = false := by
  constructor
  · intro streamless cli
    refine Bool.eq_false_iff.mpr fun wanted => ?_
    obtain ⟨e, member, named⟩ := List.mem_map.mp ((tracks.member _).mpr wanted)
    have streamed := of_decide_eq_true ((stream_key cli e).mpr named)
    rw [streamless e member] at streamed
    cases streamed
  · intro unwanted e member
    cases streamed : e.client with
    | none => rfl
    | some cli =>
      have named := (stream_key cli e).mp (decide_eq_true streamed)
      have wanted := (tracks.member _).mp (List.mem_map_of_mem member)
      rw [named, unwanted cli] at wanted
      cases wanted

/-- Beside the entry of a unary consumer no other one is matched by its `ConsumerInfo`. -/
theorem Tracks.only_entry {before after : List (ConsumerInfoExt Client)}
    {e : ConsumerInfoExt Client} (tracks : Tracks wants (before ++ e :: after))
    (key : ∀ x ∈ before ++ e :: after, decide (x.ci = ci) = true ↔ x.subscriber = .unary ci)
    (named : e.subscriber = .unary ci) : e.ci = ci ∧ ∀ x ∈ before ++ after, x.ci ≠ ci := by
  refine ⟨of_decide_eq_true ((key e (List.mem_append_right _ List.mem_cons_self)).mpr named),
    fun x member same => ?_⟩
  have inside : x ∈ before ++ e :: after := by
    rcases List.mem_append.mp member with here | here
    · exact List.mem_append_left _ here
    · exact List.mem_append_right _ (List.mem_cons_of_mem _ here)
  have twin : x.subscriber = e.subscriber :=
    ((key x inside).mp (decide_eq_true same)).trans named.symm
  have nodup := tracks.nodup
  rw [subscribers, List.map_append, List.map_cons, List.nodup_middle, ← List.map_append] at nodup
  exact (List.nodup_cons.mp nodup).1 (twin ▸ List.mem_map_of_mem member)

/-- `removeConsumer` and `removeSyncConsumer` leave an absent list absent. -/
theorem entries_map {f : List (ConsumerInfoExt Client) → List (ConsumerInfoExt Client)}
    (empty : f [] = []) : ({ st with clst := st.clst.map f } : Lists Client).entries =
      f st.entries := by
  obtain ⟨clst, lost⟩ := st
  cases clst with
  | none => exact empty.symm
  | some clst => rfl


theorem Tracks.askStream (tracks : Tracks wants st.entries) (cons : ConsumerInfo)
    (cmd : UIOCommand) (cli : Client) :
    Tracks (obey wants (.stream cli) cmd) (ask cfg st cons cmd (some cli)).entries := by
  have key := fun e (_ : e ∈ st.entries) => stream_key cli e
  cases cmd with
  | UIODontNotify =>
    rw [ask, entries_map rfl]
    exact tracks.remove key
  | UIOSet => exact tracks
  | UIOGet => exact tracks
  | _ => exact (tracks.add key ⟨some cli, {}, cfg.first, 0, 0⟩ rfl fun _ => rfl).1

theorem Tracks.askUnary (tracks : Tracks wants st.entries)
    (distinct : ci = {} → ∀ e ∈ st.entries, e.client = none) (cmd : UIOCommand) :
    Tracks (obey wants (.unary ci) cmd) (ask cfg st ci cmd none).entries := by
  have key := unary_key tracks distinct
  cases cmd with
  | UIODontNotify =>
    rw [ask, entries_map rfl]
    exact tracks.remove key
  | UIOSet => exact tracks
  | UIOGet => exact tracks
  | _ => exact (tracks.add key ⟨none, ci, cfg.first, 0, 0⟩ rfl (absurd rfl)).1

/-- **The first notification keeps the list**: the consumer has just been given one entry with all
attempts left. -/
theorem Tracks.askSensor (tracks : Tracks wants st.entries) {cmd : UIOCommand} {value : Value}
    {outcome : Nat → Bool} (distinct : Distinct cfg st (.askSensor ci cmd value outcome)) :
    Tracks (obey wants (.unary ci) cmd) (askSensor cfg st ci cmd value outcome).entries := by
  obtain ⟨alone, delivered⟩ := distinct
  have asked : Tracks _ (ask cfg st ci cmd none).entries := tracks.askUnary alone cmd
  unfold Consumers.askSensor
  dsimp only
  by_cases notifies : cmd.notifiesFirst value = true
  · rw [if_pos notifies]
    have subscribes : ask cfg st ci cmd none =
        ⟨some (addConsumer cfg st.entries ci), clearLost st.lost ci.id⟩ := by
      cases cmd <;> first | rfl | cases notifies
    rw [subscribes] at asked ⊢
    obtain ⟨before, e, after, split, named, full⟩ := (tracks.add (unary_key tracks alone)
      ⟨none, ci, cfg.first, 0, 0⟩ rfl (absurd rfl)).2
    change addConsumer cfg st.entries ci = before ++ e :: after at split
    have added : Tracks (Function.update wants (.unary ci) true) (before ++ e :: after) := by
      rw [← split]
      cases cmd <;> first | exact asked | cases notifies
    have key := unary_key added fun zero => added.streamless_iff.mpr fun cli => by
      rw [Function.update_of_ne (show Subscriber.stream cli ≠ .unary ci from nofun)]
      exact tracks.streamless_iff.mp (alone zero) cli
    obtain ⟨own, only⟩ := added.only_entry key named
    refine Tracks.congr asked ?_
    show (send cfg _ (some ci) (addConsumer cfg st.entries ci) _).1.map _ =
      (addConsumer cfg st.entries ci).map _
    rw [split]
    exact send_target_keeps (fun x member => only x (List.mem_append_left _ member)) own
      (fun x member => only x (List.mem_append_right _ member)) full rfl (delivered notifies)
  · rw [if_neg notifies]
    exact asked

/-- A subscriber has at most one entry, and has one exactly if it wants to. -/
theorem Tracks.entries_of (tracks : Tracks wants clst) {fits : ConsumerInfoExt Client → Bool}
    {who : Subscriber Client} (key : ∀ e, fits e = true ↔ e.subscriber = who) :
    (clst.filter fits).length ≤ 1 ∧ ((∃ e ∈ clst, fits e = true) ↔ wants who = true) := by
  constructor
  · rw [← List.countP_eq_length_filter]
    have once := List.nodup_iff_count_le_one.mp tracks.nodup who
    rw [subscribers, List.count, List.countP_map] at once
    refine le_of_eq_of_le (List.countP_congr fun e _ => ?_) once
    rw [key, Function.comp_apply, beq_iff_eq]
  · rw [← tracks.member, subscribers, List.mem_map]
    simp only [key]

/-- **One command** changes the entry of its own consumer only. -/
theorem Tracks.apply (tracks : Tracks wants st.entries) {command : Command Client}
    (distinct : Distinct cfg st command) :
    Tracks (obey wants command.subscriber command.cmd) (command.apply cfg st).entries := by
  cases command with
  | askSensor ci cmd value outcome => exact tracks.askSensor distinct
  | askSyncClient cli ci cmd =>
    simp only [Command.apply, Consumers.askSyncClient]
    exact tracks.askStream _ cmd cli

/-- **Subscription independence.** After every sequence of commands that meets the condition, every
unary consumer and every stream client has at most one entry, and has one exactly if its own last
command was a subscription. -/
theorem subscription_independent (cfg : Attempts) {start st : Lists Client}
    {commands : List (Command Client)} (begins : (machine cfg).start start)
    (distinct : (machine cfg).Meets (Distinct cfg) start commands)
    (ran : (machine cfg).run start commands = some st) :
    (∀ ci, (st.entries.filter fun e => e.client = none ∧ e.ci = ci).length ≤ 1) ∧
    (∀ cli, (st.entries.filter fun e => e.client = some cli).length ≤ 1) ∧
    (∀ ci, (∃ e ∈ st.entries, e.client = none ∧ e.ci = ci) ↔
      wantsAfter commands (.unary ci) = true) ∧
    (∀ cli, (∃ e ∈ st.entries, e.client = some cli) ↔
      wantsAfter commands (.stream cli) = true) := by
  have tracks : Tracks (wantsAfter commands) st.entries := by
    refine Lib.Machine.run_history (P := fun wants (st : Lists Client) => Tracks wants st.entries) _
      (fun wants st command next tracks distinct stepped => ?_) ?_ distinct ran
    · cases stepped
      exact tracks.apply distinct
    · rw [Lists.entries, show start.clst = none from begins]
      exact ⟨nofun, List.nodup_nil, fun who => by simp [subscribers]⟩
  have unary : ∀ (ci : ConsumerInfo) (e : ConsumerInfoExt Client),
      decide (e.client = none ∧ e.ci = ci) = true ↔ e.subscriber = .unary ci := by
    intro ci e
    obtain ⟨client, info, attempt, lostEvents, smCount⟩ := e
    cases client <;> simp [ConsumerInfoExt.subscriber]
  refine ⟨fun ci => (tracks.entries_of (unary ci)).1, fun cli =>
    (tracks.entries_of (stream_key cli)).1, fun ci => ?_, fun cli => ?_⟩
  · simpa using (tracks.entries_of (unary ci)).2
  · simpa using (tracks.entries_of (stream_key cli)).2

/-- The default attempts of the configuration. -/
def defaultAttempts : Attempts := ⟨10, 3, by decide⟩

/-- Nobody has asked. -/
def nobody : Lists Nat := ⟨none, fun _ => none⟩

/-- A stream client subscribes, and the consumer `(0, 0)` withdraws. -/
def zeroWithdraws : List (Command Nat) :=
  [.askSyncClient 7 {} .UIONotifyChange, .askSensor {} .UIODontNotify 0 fun _ => true]

/-- A stream client and a consumer with an identifier, both subscribed at the end. -/
def bothSubscribe : List (Command Nat) :=
  [.askSensor ⟨5, 1⟩ .UIONotify 3 (fun _ => false), .askSyncClient 7 {} .UIONotify,
    .askSensor ⟨6, 1⟩ .UIODontNotify 3 fun _ => true]

/-- Both keep their entry when a third consumer withdraws. -/
theorem subscription_independent_both : ∃ st,
    (machine defaultAttempts).run nobody bothSubscribe = some st ∧
      (∃ e ∈ st.entries, e.client = none ∧ e.ci = ⟨5, 1⟩) ∧
      ∃ e ∈ st.entries, e.client = some 7 := by
  obtain ⟨st, ran⟩ : ∃ st, (machine defaultAttempts).run nobody bothSubscribe = some st := ⟨_, rfl⟩
  have begins : (machine defaultAttempts).start nobody := rfl
  obtain ⟨-, -, unary, stream⟩ :=
    subscription_independent defaultAttempts begins (by decide +kernel) ran
  exact ⟨st, ran, (unary ⟨5, 1⟩).mpr (by decide +kernel), (stream 7).mpr (by decide +kernel)⟩

/-- **The consumer `(0, 0)` unsubscribes a stream client**, whose own last command was a
subscription. -/
theorem zero_consumer_unsubscribes_client : (machine defaultAttempts).start nobody ∧ ∃ st,
    (machine defaultAttempts).run nobody zeroWithdraws = some st ∧
      wantsAfter zeroWithdraws (.stream 7) = true ∧ ¬ ∃ e ∈ st.entries, e.client = some 7 :=
  ⟨rfl, _, rfl, by decide +kernel, by decide +kernel⟩

end UniSet.Processes.Consumers
