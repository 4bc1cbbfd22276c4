/-
**`UInterface`: calls of remote objects.**

A call is made on the reference that is cached for the object, and where there is none on a new one of
the repository. An answer that may be due to a lost connection is followed by another attempt, on a new
reference, up to a number of attempts; any other failure ends the call and removes the reference.

* `resolve` — a reference of the repository, which replaces the one in the cache.
* `attempts`, `request` — the loop of a call and what it throws; `getValue`, `setValue`, `freezeValue`
  and `askRemoteSensor` are this call with the checks and the exceptions of each.
* `client` — whole runs of calls, with any answers of repository and servers.
* **`sent_to_last`** — every request goes to the reference that the repository has given last for the
  object, as long as no two objects in use share a key of the cache.
* **`getValue_returns_iff`** — when a call returns a value, and that a call that does not leaves no
  reference behind.
-/

import Mathlib.Data.Set.Function
import Mathlib.Logic.Function.Basic
import UniSet.Lib.Machine
import UniSet.Processes.Sensor

namespace UniSet.UInterface

open UniSet.Processes (ObjectId Value defaultObjectId)

/-! ### Calls -/

/-- The statuses of `grpc` that are told apart. -/
inductive StatusCode
  | OK | INVALID_ARGUMENT | UNAVAILABLE | DEADLINE_EXCEEDED | other
deriving DecidableEq, Repr

inductive UException
  | IOBadParam | SystemError | TimeOut | ORepFailed | ResolveNameError
deriving DecidableEq, Repr

/-- `continue_or_throw`: what is thrown, or `none` to go on. -/
def continueOrThrow : StatusCode → Option UException
  | .INVALID_ARGUMENT => some .IOBadParam
  | .UNAVAILABLE => none
  | .DEADLINE_EXCEEDED => none
  | .OK => some .SystemError
  | .other => some .SystemError

/-- An object: its identifier and its node. -/
abbrev Object := ObjectId × ObjectId

/-- What happens outside: a reference the repository gives, and a request to one. -/
inductive Event (Ref : Type)
  | resolved (p : Object) (ref : Ref)
  | sent (p : Object) (ref : Ref)
deriving DecidableEq, Repr

/-- **The interface**, with a record of what happened, newest first. -/
structure UI (Ref : Type) where
  mcache : UInt64 → Option Ref
  log : List (Event Ref)

/-- The configuration; `key` is the hash of identifier and node. -/
structure Conf where
  repeatCount : Nat
  isLocalIOR : Bool
  localNode : ObjectId
  myid : ObjectId
  key : Object → UInt64

/-- What a call is answered: the repository at a try of an attempt (`none` for every other answer than a
reference), and the server at an attempt. -/
structure Answers (Ref : Type) where
  repository : Nat → Nat → Option Ref
  server : Nat → StatusCode × Value

/-- How the loop of a call ends. -/
inductive Outcome
  | reply (value : Value)
  | threw (ex : UException)
  | expired
deriving DecidableEq, Repr

/-- How a call ends; `warned` is a return after a warning. -/
inductive Result
  | reply (value : Value)
  | warned
  | exception (ex : UException)
deriving DecidableEq, Repr

section Calls

variable {Ref : Type} (c : Conf) (ui : UI Ref) (p : Object)

/-- `CacheOfResolve::erase`. -/
def erase : UI Ref := { ui with mcache := Function.update ui.mcache (c.key p) none }

/-- `CacheOfResolve::cache`, of a reference the repository has given. -/
def cache (ref : Ref) : UI Ref :=
  ⟨Function.update ui.mcache (c.key p) (some ref), .resolved p ref :: ui.log⟩

/-- The tries of `resolve`: a file is read once. -/
def tries : Nat := if c.isLocalIOR ∧ p.2 = c.localNode then 1 else c.repeatCount

/-- **`resolve`**; `none` is `ResolveNameError`. Every answer but a reference is followed by another
try, also that there is no such object. -/
def resolve (repository : Nat → Option Ref) : UI Ref × Option Ref :=
  if p.1 = defaultObjectId ∨ p.2 = defaultObjectId then (ui, none)
  else match (List.range (tries c p)).findSome? repository with
    | some ref => (cache c (erase c ui p) p ref, some ref)
    | none => (erase c ui p, none)

/-- The reference of an attempt: the one at hand, or a new one. -/
def channel (repository : Nat → Option Ref) : Option Ref → UI Ref × Option Ref
  | some ref => (ui, some ref)
  | none => resolve c ui p repository

/-- A request. -/
def send (ref : Ref) : UI Ref := { ui with log := .sent p ref :: ui.log }

/-- **The loop of a call**, from an attempt on. -/
def attempts (answers : Answers Ref) : Nat → Nat → UI Ref → Option Ref → UI Ref × Outcome
  | 0, _, ui, _ => (ui, .expired)
  | n + 1, i, ui, chan =>
    match channel c ui p (answers.repository i) chan with
    | (ui, none) => (ui, .threw .ResolveNameError)
    | (ui, some ref) =>
      if (answers.server i).1 = .OK then (send ui p ref, .reply (answers.server i).2)
      else match continueOrThrow (answers.server i).1 with
        | some ex => (send ui p ref, .threw ex)
        | none => attempts answers n (i + 1) (send ui p ref) none

/-- **A call**: `passes` says that `IOBadParam` is thrown on as it is, and `expired` is what follows the
last attempt. -/
def request (passes : Bool) (expired : Result) (answers : Answers Ref) : UI Ref × Result :=
  match attempts c p answers c.repeatCount 0 ui (ui.mcache (c.key p)) with
  | (ui, .reply value) => (ui, .reply value)
  | (ui, .threw ex) =>
    if passes ∧ ex = .IOBadParam then (ui, .exception ex) else (erase c ui p, .exception .SystemError)
  | (ui, .expired) => (erase c ui p, expired)

/-- **`getValue`.** -/
def getValue (answers : Answers Ref) : UI Ref × Result :=
  if p.1 = defaultObjectId then (ui, .exception .ORepFailed)
  else if p.2 = defaultObjectId then (ui, .exception .ORepFailed)
  else request c ui p false (.exception .TimeOut) answers

/-- **`setValue`.** -/
def setValue (answers : Answers Ref) : UI Ref × Result :=
  if p.1 = defaultObjectId then (ui, .exception .ORepFailed)
  else if p.2 = defaultObjectId then (ui, .exception .ORepFailed)
  else request c ui p true (.exception .TimeOut) answers

/-- **`freezeValue`**, which asks for the identifier only, and warns where the others throw `TimeOut`. -/
def freezeValue (answers : Answers Ref) : UI Ref × Result :=
  if p.1 = defaultObjectId then (ui, .warned)
  else request c ui p true .warned answers

/-- Who is to be notified. -/
def consumerOf (backid : ObjectId) : ObjectId := if backid = defaultObjectId then c.myid else backid

/-- **`askRemoteSensor`.** -/
def askRemoteSensor (backid : ObjectId) (answers : Answers Ref) : UI Ref × Result :=
  if consumerOf c backid = defaultObjectId then (ui, .exception .IOBadParam)
  else if p.1 = defaultObjectId then (ui, .exception .ORepFailed)
  else if p.2 = defaultObjectId then (ui, .exception .ORepFailed)
  else request c ui p false (.exception .TimeOut) answers

end Calls

/-- A call with its answers. -/
inductive Label (Ref : Type)
  | getValue (p : Object) (answers : Answers Ref)
  | setValue (p : Object) (answers : Answers Ref)
  | freezeValue (p : Object) (answers : Answers Ref)
  | askRemoteSensor (p : Object) (backid : ObjectId) (answers : Answers Ref)

/-- The object of a call. -/
def Label.object {Ref : Type} : Label Ref → Object
  | .getValue p _ | .setValue p _ | .freezeValue p _ | .askRemoteSensor p _ _ => p

def step {Ref : Type} (c : Conf) (ui : UI Ref) : Label Ref → Option (UI Ref)
  | .getValue p answers => some (getValue c ui p answers).1
  | .setValue p answers => some (setValue c ui p answers).1
  | .freezeValue p answers => some (freezeValue c ui p answers).1
  | .askRemoteSensor p backid answers => some (askRemoteSensor c ui p backid answers).1

/-- **The client**, with an empty cache. -/
def client (Ref : Type) (c : Conf) : Lib.Machine (UI Ref) (Label Ref) where
  start ui := (∀ k, ui.mcache k = none) ∧ ui.log = []
  step := step c

/-! ### The references of the requests -/

section References

variable {Ref : Type} {c : Conf} {ui : UI Ref} {p : Object} {used : Set Object}

/-- The reference that was given last for an object. -/
def lastResolved (p : Object) : List (Event Ref) → Option Ref
  | [] => none
  | .resolved q ref :: older => if q = p then some ref else lastResolved p older
  | .sent _ _ :: older => lastResolved p older

/-- Every request went to the reference that had been given last. -/
def Orderly : List (Event Ref) → Prop
  | [] => True
  | .resolved _ _ :: older => Orderly older
  | .sent p ref :: older => lastResolved p older = some ref ∧ Orderly older

theorem Orderly.at {newer older : List (Event Ref)} {ref : Ref}
    (orderly : Orderly (newer ++ .sent p ref :: older)) : lastResolved p older = some ref := by
  induction newer with
  | nil => exact orderly.1
  | cons event newer ih =>
    cases event with
    | resolved q other => exact ih orderly
    | sent q other => exact ih orderly.2

/-- **The invariant**: the cache holds references that were given last. -/
structure Coherent (c : Conf) (used : Set Object) (ui : UI Ref) : Prop where
  cached : ∀ p ∈ used, ∀ ref, ui.mcache (c.key p) = some ref → lastResolved p ui.log = some ref
  orderly : Orderly ui.log

theorem Coherent.erase (coherent : Coherent c used ui) (p : Object) : Coherent c used (erase c ui p) := by
  refine ⟨fun q member ref held => ?_, coherent.orderly⟩
  change Function.update ui.mcache (c.key p) none (c.key q) = some ref at held
  by_cases same : c.key q = c.key p
  · rw [same, Function.update_self] at held
    exact absurd held.symm (Option.some_ne_none ref)
  · rw [Function.update_of_ne same] at held
    exact coherent.cached q member ref held

/-- A new reference, where keys are told apart. -/
theorem Coherent.cache (coherent : Coherent c used ui) (apart : Set.InjOn c.key used) (member : p ∈ used)
    (ref : Ref) : Coherent c used (cache c ui p ref) := by
  refine ⟨fun q other held got => ?_, coherent.orderly⟩
  change Function.update ui.mcache (c.key p) (some ref) (c.key q) = some held at got
  show (if p = q then some ref else lastResolved q ui.log) = some held
  by_cases same : c.key q = c.key p
  · rw [same, Function.update_self] at got
    rw [if_pos (apart other member same).symm, got]
  · rw [Function.update_of_ne same] at got
    rw [if_neg fun equal => same (congrArg c.key equal.symm)]
    exact coherent.cached q other held got

theorem Coherent.send (coherent : Coherent c used ui) {ref : Ref}
    (given : lastResolved p ui.log = some ref) : Coherent c used (send ui p ref) :=
  ⟨coherent.cached, given, coherent.orderly⟩

/-- **What `resolve` does.** -/
theorem resolve_cases (c : Conf) (ui : UI Ref) (p : Object) (repository : Nat → Option Ref) :
    resolve c ui p repository = (ui, none) ∨ resolve c ui p repository = (erase c ui p, none) ∨
      ∃ ref, resolve c ui p repository = (cache c (erase c ui p) p ref, some ref) := by
  unfold resolve
  split
  · exact .inl rfl
  · cases (List.range (tries c p)).findSome? repository with
    | none => exact .inr (.inl rfl)
    | some ref => exact .inr (.inr ⟨ref, rfl⟩)

/-- The reference of an attempt was given last. -/
theorem Coherent.channel (coherent : Coherent c used ui) (apart : Set.InjOn c.key used)
    (member : p ∈ used) (repository : Nat → Option Ref) {chan : Option Ref}
    (given : ∀ ref ∈ chan, lastResolved p ui.log = some ref) :
    Coherent c used (channel c ui p repository chan).1 ∧
      ∀ ref ∈ (channel c ui p repository chan).2,
        lastResolved p (channel c ui p repository chan).1.log = some ref := by
  cases chan with
  | some ref => exact ⟨coherent, given⟩
  | none =>
    show Coherent c used (resolve c ui p repository).1 ∧ ∀ ref ∈ (resolve c ui p repository).2, _
    rcases resolve_cases c ui p repository with same | same | ⟨ref, same⟩
    · rw [same]
      exact ⟨coherent, fun ref absent => absurd absent.symm (Option.some_ne_none ref)⟩
    · rw [same]
      exact ⟨coherent.erase p, fun ref absent => absurd absent.symm (Option.some_ne_none ref)⟩
    · rw [same]
      refine ⟨(coherent.erase p).cache apart member ref, fun other taken => ?_⟩
      cases taken
      show lastResolved p (resolve c ui p repository).1.log = some ref
      rw [same]
      exact if_pos rfl

theorem Coherent.attempts (apart : Set.InjOn c.key used) (member : p ∈ used) (answers : Answers Ref)
    (n i : Nat) (coherent : Coherent c used ui) {chan : Option Ref}
    (given : ∀ ref ∈ chan, lastResolved p ui.log = some ref) :
    Coherent c used (attempts c p answers n i ui chan).1 := by
  induction n generalizing i ui chan with
  | zero => exact coherent
  | succ n ih =>
    obtain ⟨kept, last⟩ := coherent.channel apart member (answers.repository i) given
    unfold UInterface.attempts
    generalize UInterface.channel c ui p (answers.repository i) chan = got at kept last
    obtain ⟨ui, chan⟩ := got
    cases chan with
    | none => exact kept
    | some ref =>
      have sent := kept.send (last ref rfl)
      dsimp only
      split
      · exact sent
      · split
        · exact sent
        · exact ih (i + 1) sent fun ref absent => absurd absent.symm (Option.some_ne_none ref)

theorem Coherent.request (coherent : Coherent c used ui) (apart : Set.InjOn c.key used)
    (member : p ∈ used) (passes : Bool) (expired : Result) (answers : Answers Ref) :
    Coherent c used (request c ui p passes expired answers).1 := by
  have kept : Coherent c used (UInterface.attempts c p answers c.repeatCount 0 ui (ui.mcache (c.key p))).1 :=
    Coherent.attempts apart member answers _ _ coherent fun ref held => coherent.cached p member ref held
  unfold UInterface.request
  generalize UInterface.attempts c p answers c.repeatCount 0 ui (ui.mcache (c.key p)) = got at kept
  obtain ⟨ui, outcome⟩ := got
  cases outcome with
  | reply value => exact kept
  | threw ex =>
    dsimp only
    split
    · exact kept
    · exact kept.erase p
  | expired => exact kept.erase p

theorem Coherent.step (coherent : Coherent c used ui) (apart : Set.InjOn c.key used) {label : Label Ref}
    (member : label.object ∈ used) {after : UI Ref} (stepped : step c ui label = some after) :
    Coherent c used after := by
  cases label
  all_goals
    cases stepped
  case getValue p answers =>
    unfold getValue
    split
    · exact coherent
    · split
      · exact coherent
      · exact coherent.request apart member _ _ answers
  case setValue p answers =>
    unfold setValue
    split
    · exact coherent
    · split
      · exact coherent
      · exact coherent.request apart member _ _ answers
  case freezeValue p answers =>
    unfold freezeValue
    split
    · exact coherent
    · exact coherent.request apart member _ _ answers
  case askRemoteSensor p backid answers =>
    unfold askRemoteSensor
    split
    · exact coherent
    · split
      · exact coherent
      · split
        · exact coherent
        · exact coherent.request apart member _ _ answers

/-- **Requests go to the last reference.** In every run, whatever repository and servers answer, a request
goes to the reference that the repository has given last for the object before, as long as the objects in
use have different keys. -/
theorem sent_to_last {first : UI Ref} (start : (client Ref c).start first)
    (apart : Set.InjOn c.key used) {labels : List (Label Ref)}
    (within : ∀ label ∈ labels, label.object ∈ used) (ran : (client Ref c).run first labels = some ui)
    {newer older : List (Event Ref)} {ref : Ref} (log : ui.log = newer ++ .sent p ref :: older) :
    lastResolved p older = some ref := by
  have begun : Coherent c used first := by
    refine ⟨fun p _ ref held => ?_, ?_⟩
    · rw [start.1] at held
      exact absurd held.symm (Option.some_ne_none ref)
    · rw [start.2]
      trivial
  have coherent : Coherent c used ui := Lib.Machine.run_invariant
    (fun _ _ _ coherent member stepped => coherent.step apart member stepped) begun
    (Lib.Machine.meets_of_forall fun _ => within) ran
  have orderly := coherent.orderly
  rw [log] at orderly
  exact orderly.at

end References

/-! ### When a call returns -/

section Returns

variable {Ref : Type} {c : Conf} {ui : UI Ref} {p : Object}

/-- The repository gives a reference at an attempt. -/
def Resolves (c : Conf) (p : Object) (answers : Answers Ref) (i : Nat) : Prop :=
  ((List.range (tries c p)).findSome? (answers.repository i)).isSome = true

/-- The server does not answer an attempt, and the call goes on. -/
def Transient (answers : Answers Ref) (i : Nat) : Prop :=
  (answers.server i).1 = .UNAVAILABLE ∨ (answers.server i).1 = .DEADLINE_EXCEEDED

/-- **The `k`-th attempt from the `i`-th one on is answered with a value**: all of them have a reference,
and none before it is answered at all. -/
def AnsweredAt (c : Conf) (p : Object) (answers : Answers Ref) (i : Nat) (cached : Bool) (value : Value)
    (k : Nat) : Prop :=
  (∀ j ≤ k, (j = 0 ∧ cached = true) ∨ Resolves c p answers (i + j)) ∧
    (∀ j < k, Transient answers (i + j)) ∧ answers.server (i + k) = (.OK, value)

theorem answeredAt_zero {answers : Answers Ref} {i : Nat} {cached : Bool} {value : Value} :
    AnsweredAt c p answers i cached value 0 ↔
      (cached = true ∨ Resolves c p answers i) ∧ answers.server i = (.OK, value) := by
  simp [AnsweredAt]

theorem answeredAt_succ {answers : Answers Ref} {i : Nat} {cached : Bool} {value : Value} {k : Nat} :
    AnsweredAt c p answers i cached value (k + 1) ↔
      (cached = true ∨ Resolves c p answers i) ∧ Transient answers i ∧
        AnsweredAt c p answers (i + 1) false value k := by
  have shift : ∀ j, i + 1 + j = i + (j + 1) := fun j => by omega
  unfold AnsweredAt
  simp only [shift]
  constructor
  · rintro ⟨given, silent, answered⟩
    refine ⟨?_, silent 0 (Nat.succ_pos k), fun j le => .inr ?_, fun j lt => silent (j + 1) (by omega), answered⟩
    · exact (given 0 (Nat.zero_le _)).imp_left And.right
    · exact (given (j + 1) (by omega)).resolve_left fun first => Nat.succ_ne_zero j first.1
  · rintro ⟨first, quiet, given, silent, answered⟩
    refine ⟨fun j le => ?_, fun j lt => ?_, answered⟩
    · cases j with
      | zero => exact first.imp_left fun held => ⟨rfl, held⟩
      | succ j => exact .inr ((given j (by omega)).resolve_left fun absent => Bool.false_ne_true absent.2)
    · cases j with
      | zero => exact quiet
      | succ j => exact silent j (by omega)

/-- The reference of an attempt is there if it is at hand or the repository gives it. -/
theorem channel_isSome (c : Conf) (ui : UI Ref) (id : p.1 ≠ defaultObjectId) (node : p.2 ≠ defaultObjectId)
    (repository : Nat → Option Ref) (chan : Option Ref) :
    (channel c ui p repository chan).2.isSome = true ↔
      chan.isSome = true ∨ ((List.range (tries c p)).findSome? repository).isSome = true := by
  cases chan with
  | some ref => simp [channel]
  | none =>
    unfold channel resolve
    rw [if_neg (not_or.mpr ⟨id, node⟩)]
    cases (List.range (tries c p)).findSome? repository <;> simp

theorem attempts_reply_iff (id : p.1 ≠ defaultObjectId) (node : p.2 ≠ defaultObjectId)
    (answers : Answers Ref) (value : Value) (n i : Nat) (ui : UI Ref) (chan : Option Ref) :
    (attempts c p answers n i ui chan).2 = .reply value ↔
      ∃ k < n, AnsweredAt c p answers i chan.isSome value k := by
  induction n generalizing i ui chan with
  | zero => simp [attempts]
  | succ n ih =>
    have given := channel_isSome c ui id node (answers.repository i) chan
    have parts : (∃ k < n + 1, AnsweredAt c p answers i chan.isSome value k) ↔
        (chan.isSome = true ∨ Resolves c p answers i) ∧ (answers.server i = (.OK, value) ∨
          Transient answers i ∧ ∃ k < n, AnsweredAt c p answers (i + 1) false value k) := by
      rw [Nat.exists_lt_succ_left, answeredAt_zero]
      simp only [answeredAt_succ]
      constructor
      · rintro (⟨first, answered⟩ | ⟨k, lt, first, quiet, later⟩)
        · exact ⟨first, .inl answered⟩
        · exact ⟨first, .inr ⟨quiet, k, lt, later⟩⟩
      · rintro ⟨first, answered | ⟨quiet, k, lt, later⟩⟩
        · exact .inl ⟨first, answered⟩
        · exact .inr ⟨k, lt, first, quiet, later⟩
    rw [parts]
    unfold attempts
    change _ ↔ _ ∨ Resolves c p answers i at given
    generalize channel c ui p (answers.repository i) chan = got at given
    obtain ⟨ui, chan'⟩ := got
    cases chan' with
    | none =>
      rw [← given]
      simp
    | some ref =>
      have there := given.mp rfl
      rw [and_iff_right there]
      dsimp only
      rcases server : answers.server i with ⟨code, reply⟩
      cases code with
      | OK => simp [Transient, server]
      | INVALID_ARGUMENT => simp [Transient, server, continueOrThrow]
      | UNAVAILABLE => simp [Transient, server, continueOrThrow, ih]
      | DEADLINE_EXCEEDED => simp [Transient, server, continueOrThrow, ih]
      | other => simp [Transient, server, continueOrThrow]

theorem request_reply_iff (id : p.1 ≠ defaultObjectId) (node : p.2 ≠ defaultObjectId) (passes : Bool)
    {expired : Result} (fails : ∀ value, expired ≠ .reply value) (answers : Answers Ref) (value : Value) :
    (request c ui p passes expired answers).2 = .reply value ↔
      ∃ k < c.repeatCount, AnsweredAt c p answers 0 (ui.mcache (c.key p)).isSome value k := by
  rw [← attempts_reply_iff id node answers value c.repeatCount 0 ui (ui.mcache (c.key p))]
  unfold request
  generalize attempts c p answers c.repeatCount 0 ui (ui.mcache (c.key p)) = got
  obtain ⟨ui, outcome⟩ := got
  cases outcome with
  | reply other => simp
  | threw ex =>
    dsimp only
    split <;> simp
  | expired => simp [fails]

/-- **A failure leaves no reference**, unless `IOBadParam` is thrown on. -/
theorem request_fails (passes : Bool) {expired : Result} (answers : Answers Ref)
    (failed : ∀ value, (request c ui p passes expired answers).2 ≠ .reply value)
    (caught : (request c ui p passes expired answers).2 ≠ .exception .IOBadParam) :
    (request c ui p passes expired answers).1.mcache (c.key p) = none := by
  unfold request at failed caught ⊢
  generalize attempts c p answers c.repeatCount 0 ui (ui.mcache (c.key p)) = got at failed caught ⊢
  obtain ⟨ui, outcome⟩ := got
  cases outcome with
  | reply value => exact absurd rfl (failed value)
  | threw ex =>
    dsimp only at caught ⊢
    split
    · rename_i same
      rw [if_pos same, same.2] at caught
      exact absurd rfl caught
    · exact Function.update_self (c.key p) none ui.mcache
  | expired => exact Function.update_self (c.key p) none ui.mcache

/-- **When `getValue` returns.** It returns a value exactly if one of the first `repeatCount` attempts is
answered with it, every attempt up to that one has a reference, the cached one or one of the repository,
and none before it is answered at all. Otherwise it throws, and a call that gets so far leaves no
reference in the cache. -/
theorem getValue_returns_iff (c : Conf) (ui : UI Ref) (p : Object) (answers : Answers Ref) :
    (∀ value, (getValue c ui p answers).2 = .reply value ↔
      p.1 ≠ defaultObjectId ∧ p.2 ≠ defaultObjectId ∧
        ∃ k < c.repeatCount, AnsweredAt c p answers 0 (ui.mcache (c.key p)).isSome value k) ∧
    ((∀ value, (getValue c ui p answers).2 ≠ .reply value) →
      (∃ ex, (getValue c ui p answers).2 = .exception ex) ∧
        (p.1 ≠ defaultObjectId → p.2 ≠ defaultObjectId →
          (getValue c ui p answers).1.mcache (c.key p) = none)) := by
  unfold getValue
  by_cases id : p.1 = defaultObjectId
  · rw [if_pos id]
    exact ⟨fun value => by simp [id], fun _ => ⟨⟨_, rfl⟩, fun known => absurd id known⟩⟩
  by_cases node : p.2 = defaultObjectId
  · rw [if_neg id, if_pos node]
    exact ⟨fun value => by simp [node], fun _ => ⟨⟨_, rfl⟩, fun _ known => absurd node known⟩⟩
  rw [if_neg id, if_neg node]
  refine ⟨fun value => ?_, fun failed => ?_⟩
  · rw [and_iff_right id, and_iff_right node]
    exact request_reply_iff id node false (by simp) answers value
  · have thrown : ∃ ex, (request c ui p false (.exception .TimeOut) answers).2 = .exception ex ∧
        ex ≠ .IOBadParam := by
      unfold request at failed ⊢
      generalize attempts c p answers c.repeatCount 0 ui (ui.mcache (c.key p)) = got at failed ⊢
      obtain ⟨ui, outcome⟩ := got
      cases outcome with
      | reply value => exact absurd rfl (failed value)
      | threw ex => exact ⟨.SystemError, rfl, by decide⟩
      | expired => exact ⟨.TimeOut, rfl, by decide⟩
    obtain ⟨ex, same, other⟩ := thrown
    refine ⟨⟨ex, same⟩, fun _ _ => request_fails false answers failed fun bad => ?_⟩
    rw [same] at bad
    cases bad
    exact other rfl

end Returns

/-! ### An object that has moved -/

/-- Three attempts, and a key that tells small identifiers on small nodes apart. -/
def threeAttempts : Conf where
  repeatCount := 3
  isLocalIOR := false
  localNode := 1
  myid := 2
  key p := UInt64.ofInt (p.1 * 1000 + p.2)

/-- A server that is there. -/
def present (ref : Nat) : Answers Nat := ⟨fun _ _ => some ref, fun _ => (.OK, 7)⟩

/-- The server of the cached reference is gone; the repository gives another one, which answers. -/
def moved (ref : Nat) : Answers Nat :=
  ⟨fun _ _ => some ref, fun i => if i = 0 then (.UNAVAILABLE, 0) else (.OK, 7)⟩

def unknownObjects : UI Nat := ⟨fun _ => none, []⟩

def presentThenMoved : List (Label Nat) := [.getValue (5, 1) (present 10), .getValue (5, 1) (moved 20)]

/-- The last request goes to the new reference. -/
theorem moved_sent :
    ((client Nat threeAttempts).run unknownObjects presentThenMoved).isSome = true ∧
      ∀ ui, (client Nat threeAttempts).run unknownObjects presentThenMoved = some ui →
        ui.log.head? = some (.sent (5, 1) 20) ∧ lastResolved (5, 1) ui.log.tail = some 20 := by
  refine ⟨rfl, fun ui ran => ?_⟩
  have log : ui.log = [] ++ .sent (5, 1) 20 ::
      [.resolved (5, 1) 20, .sent (5, 1) 10, .sent (5, 1) 10, .resolved (5, 1) 10] := by
    cases ran
    rfl
  have last := sent_to_last ⟨fun _ => rfl, rfl⟩ (Set.injOn_singleton threeAttempts.key (5, 1))
    (by simp [presentThenMoved, Label.object]) ran log
  rw [log]
  exact ⟨rfl, last⟩

end UniSet.UInterface
