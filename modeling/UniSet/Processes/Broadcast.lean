/-
**A notification of all consumers: `send` without a target.**

* `Attempted` — how the attempts for an entry end: delivered, failed, or its counter has run out.
* `Visit`, `Visits` — what a pass does with every entry of its list, in order.
* **`send_visits`** — a pass is a list of visits.
* `Complete` — every open client gets the message once, every unary consumer is tried, and only
  closed clients and exhausted consumers leave the list.
* **`complete_iff`**: a pass is complete exactly if a closed client is nowhere but at the end of the
  list, since the entry behind it is passed over.
-/

import UniSet.Processes.Consumers

set_option linter.unusedSectionVars false

namespace UniSet.Processes.Consumers

variable {Client : Type} [DecidableEq Client] {cfg : Attempts}

/-! ### The attempts for one entry -/

/-- The failures that exhaust a counter of type `size_t`. -/
def lives (attempt : Nat) : Nat := if attempt = 0 then 0x10000000000000000 else attempt

theorem lives_pos (attempt : Nat) : 0 < lives attempt := by
  unfold lives
  split
  · decide
  · next h => exact Nat.pos_of_ne_zero h

theorem pred64_eq_zero_iff (attempt : Nat) : pred64 attempt = 0 ↔ lives attempt = 1 := by
  unfold pred64 lives
  split
  · decide
  · omega

theorem lives_pred64 {attempt : Nat} (more : lives attempt ≠ 1) :
    lives (pred64 attempt) = lives attempt - 1 := by
  unfold pred64 lives at *
  split_ifs at * <;> omega

/-- **How the attempts for an entry end**, at most `left` of them: their outcomes, and the entry
unless it is erased. -/
inductive Attempted (cfg : Attempts) (left : Nat) (e : ConsumerInfoExt Client) :
    List Bool → Option (ConsumerInfoExt Client) → Prop
  | delivered {j : Nat} {e' : ConsumerInfoExt Client} (room : j < left)
      (fewer : 0 < cfg.maxAttempts → j < lives e.attempt) (same : e'.identity = e.identity)
      (full : e'.attempt = cfg.first) :
      Attempted cfg left e (List.replicate j false ++ [true]) (some e')
  | failed {e' : ConsumerInfoExt Client} (fewer : 0 < cfg.maxAttempts → left < lives e.attempt)
      (same : e'.identity = e.identity)
      (count : 0 < cfg.maxAttempts → lives e'.attempt = lives e.attempt - left) :
      Attempted cfg left e (List.replicate left false) (some e')
  | erased (bounded : 0 < cfg.maxAttempts) (within : lives e.attempt ≤ left) :
      Attempted cfg left e (List.replicate (lives e.attempt) false) none

variable {e : ConsumerInfoExt Client} {r : Option (ConsumerInfoExt Client)} {left : Nat}

theorem Attempted.fail {next : ConsumerInfoExt Client} {os : List Bool}
    (attempted : Attempted cfg left next os r) (same : next.identity = e.identity)
    (count : 0 < cfg.maxAttempts → lives next.attempt = lives e.attempt - 1 ∧ lives e.attempt ≠ 1) :
    Attempted cfg (left + 1) e (false :: os) r := by
  have positive := lives_pos e.attempt
  cases attempted with
  | @delivered j e' room fewer same' full =>
    refine .delivered (j := j + 1) (Nat.succ_lt_succ room) (fun bounded => ?_) (same'.trans same)
      full
    have := fewer bounded
    have := count bounded
    omega
  | @failed e' fewer same' count' =>
    show Attempted cfg (left + 1) e (List.replicate (left + 1) false) (some e')
    refine .failed (fun bounded => ?_) (same'.trans same) fun bounded => ?_
    · have := fewer bounded
      have := count bounded
      omega
    · have := count' bounded
      have := count bounded
      omega
  | erased bounded within =>
    obtain ⟨less, more⟩ := count bounded
    have whole : lives e.attempt = lives next.attempt + 1 := by omega
    have result : Attempted cfg (left + 1) e (List.replicate (lives e.attempt) false) none :=
      .erased bounded (by omega)
    rw [whole] at result
    exact result

/-- The outcomes of some attempts from the `k`-th on. -/
def outcomes (outcome : Nat → Bool) (k n : Nat) : List Bool :=
  (List.range n).map fun i => outcome (k + i)

theorem outcomes_succ (outcome : Nat → Bool) (k n : Nat) :
    outcomes outcome k (n + 1) = outcome k :: outcomes outcome (k + 1) n := by
  unfold outcomes
  rw [List.range_succ_eq_map, List.map_cons, List.map_map]
  refine congrArg₂ _ rfl (List.map_congr_left fun i _ => ?_)
  show outcome (k + (i + 1)) = outcome (k + 1 + i)
  rw [Nat.add_assoc, Nat.add_comm 1 i]

theorem outcomes_append (outcome : Nat → Bool) (k n m : Nat) :
    outcomes outcome k (n + m) = outcomes outcome k n ++ outcomes outcome (k + n) m := by
  unfold outcomes
  rw [List.range_add, List.map_append, List.map_map]
  refine congrArg _ (List.map_congr_left fun i _ => ?_)
  show outcome (k + (n + i)) = outcome (k + n + i)
  rw [Nat.add_assoc]

/-- What the attempts leave of the map of lost consumers. -/
def lostAfter (lost : LostMap) (e : ConsumerInfoExt Client) (r : Option (ConsumerInfoExt Client)) :
    LostMap :=
  if r.isNone then markLost lost e.ci.id else lost

/-- **What some attempts leave** of an entry and of the pass. -/
def Leaves (cfg : Attempts) (outcome : Nat → Bool) (left : Nat) (e : ConsumerInfoExt Client)
    (pass : Pass Client) (out : Option (ConsumerInfoExt Client) × Pass Client) : Prop :=
  ∃ os r, Attempted cfg left e os r ∧ os = outcomes outcome pass.tried.length os.length ∧
    out = (r, ⟨lostAfter pass.lost e r, pass.pushed, pass.tried ++ List.replicate os.length e.ci⟩)

/-- An attempt that fails, and the attempts behind it for the entry `next`. -/
theorem Leaves.fail {cfg : Attempts} {outcome : Nat → Bool} {next : ConsumerInfoExt Client}
    {pass : Pass Client} {out : Option (ConsumerInfoExt Client) × Pass Client}
    (failed : outcome pass.tried.length = false) (same : next.identity = e.identity)
    (count : 0 < cfg.maxAttempts → lives next.attempt = lives e.attempt - 1 ∧ lives e.attempt ≠ 1)
    (later : Leaves cfg outcome left next { pass with tried := pass.tried ++ [e.ci] } out) :
    Leaves cfg outcome (left + 1) e pass out := by
  obtain ⟨os, r, attempted, drawn, eq⟩ := later
  have ci : next.ci = e.ci := congrArg Prod.snd same
  refine ⟨false :: os, r, attempted.fail same count, ?_, ?_⟩
  · rw [List.length_cons, outcomes_succ, failed]
    rw [List.length_append, List.length_singleton] at drawn
    exact congrArg _ drawn
  · rw [eq]
    unfold lostAfter
    rw [ci, List.length_cons, List.replicate_succ, List.append_assoc]
    rfl

theorem Leaves.erase {cfg : Attempts} {outcome : Nat → Bool} {pass : Pass Client}
    (failed : outcome pass.tried.length = false) (bounded : 0 < cfg.maxAttempts)
    (one : lives e.attempt = 1) :
    Leaves cfg outcome (left + 1) e pass
      (none, ⟨markLost pass.lost e.ci.id, pass.pushed, pass.tried ++ [e.ci]⟩) := by
  have erased : Attempted cfg (left + 1) e (List.replicate (lives e.attempt) false) none :=
    .erased bounded (by omega)
  rw [one] at erased
  refine ⟨[false], none, erased, ?_, rfl⟩
  rw [List.length_singleton, outcomes_succ, failed]
  rfl

/-- **The loop of the attempts** for an entry. -/
theorem attempts_spec (cfg : Attempts) (outcome : Nat → Bool) (left : Nat) :
    ∀ (i : Nat) (e : ConsumerInfoExt Client) (pass : Pass Client), ∃ os r,
      Attempted cfg left e os r ∧
      os = outcomes outcome pass.tried.length os.length ∧
      attempts cfg outcome left i e pass = (r, ⟨lostAfter pass.lost e r, pass.pushed,
        pass.tried ++ List.replicate os.length e.ci⟩) := by
  induction left with
  | zero =>
    intro i e pass
    have none : Attempted cfg 0 e (List.replicate 0 false) (some e) :=
      .failed (fun _ => lives_pos _) rfl fun _ => rfl
    refine ⟨[], some e, none, rfl, ?_⟩
    rw [attempts, List.length_nil, List.replicate_zero, List.append_nil]
    rfl
  | succ left ih =>
    intro i e pass
    rw [attempts]
    dsimp only
    cases delivered : outcome pass.tried.length with
    | true =>
      rw [if_pos rfl]
      refine ⟨[true], some { e with smCount := e.smCount + 1, attempt := cfg.first },
        .delivered (j := 0) (Nat.succ_pos left) (fun _ => lives_pos _) rfl rfl, ?_, rfl⟩
      rw [List.length_singleton, outcomes_succ, delivered]
      rfl
    | false =>
      rw [if_neg Bool.false_ne_true]
      generalize missedEq : (if 0 < i then { e with lostEvents := e.lostEvents + 1 } else e) =
        missed
      have same : missed.identity = e.identity ∧ missed.attempt = e.attempt := by
        rw [← missedEq]
        split
        · exact ⟨rfl, rfl⟩
        · exact ⟨rfl, rfl⟩
      by_cases bounded : 0 < cfg.maxAttempts
      · rw [if_pos bounded]
        by_cases last : pred64 missed.attempt = 0
        · rw [if_pos last]
          have one : lives e.attempt = 1 := by
            rw [← same.2]
            exact (pred64_eq_zero_iff _).mp last
          exact Leaves.erase delivered bounded one
        · rw [if_neg last]
          have more : lives e.attempt ≠ 1 := fun one =>
            last ((pred64_eq_zero_iff _).mpr (same.2 ▸ one))
          have fewer : lives (pred64 missed.attempt) = lives e.attempt - 1 := by
            rw [same.2]
            exact lives_pred64 more
          have later := ih (i + 1) { missed with attempt := pred64 missed.attempt }
            { pass with tried := pass.tried ++ [e.ci] }
          have identity : ({ missed with attempt := pred64 missed.attempt } :
              ConsumerInfoExt Client).identity = e.identity := same.1
          exact Leaves.fail delivered identity (fun _ => ⟨fewer, more⟩) later
      · rw [if_neg bounded]
        exact Leaves.fail delivered same.1 (fun positive => absurd positive bounded)
          (ih (i + 1) missed _)

/-! ### A pass -/

/-- What a pass does with an entry. -/
inductive Visit (Client : Type)
  /-- It is not addressed, or passed over behind a closed client. -/
  | passed (e : ConsumerInfoExt Client)
  /-- A closed client, which is erased. -/
  | closed (e : ConsumerInfoExt Client)
  /-- The message is pushed to a client. -/
  | pushed (e : ConsumerInfoExt Client) (cli : Client)
  /-- Attempts are made, with these outcomes. -/
  | tried (e : ConsumerInfoExt Client) (os : List Bool) (r : Option (ConsumerInfoExt Client))

namespace Visit

/-- The entry before. -/
def entry : Visit Client → ConsumerInfoExt Client
  | passed e | closed e | pushed e _ | tried e _ _ => e

/-- The entry behind the pass. -/
def kept : Visit Client → Option (ConsumerInfoExt Client)
  | passed e | pushed e _ => some e
  | closed _ => none
  | tried _ _ r => r

/-- The client the message is pushed to. -/
def client : Visit Client → Option Client
  | pushed _ cli => some cli
  | _ => none

/-- The outcomes of the attempts. -/
def os : Visit Client → List Bool
  | tried _ os _ => os
  | _ => []

/-- The attempts and their outcomes. -/
def log (v : Visit Client) : List (ConsumerInfo × Bool) := v.os.map fun o => (v.entry.ci, o)

/-- The map of lost consumers behind the visit. -/
def lost (lost : LostMap) : Visit Client → LostMap
  | tried e _ r => lostAfter lost e r
  | _ => lost

end Visit

/-- **A pass is a list of visits**: `ci` is its target, `k` the number of attempts so far. -/
inductive Visits (cfg : Attempts) (env : Delivery Client) (ci : Option ConsumerInfo) :
    Nat → List (ConsumerInfoExt Client) → List (Visit Client) → Prop
  | nil {k : Nat} : Visits cfg env ci k [] []
  | other {k : Nat} {e : ConsumerInfoExt Client} {rest : List (ConsumerInfoExt Client)}
      {vs : List (Visit Client)} (away : ci.any (· ≠ e.ci) = true)
      (later : Visits cfg env ci k rest vs) : Visits cfg env ci k (e :: rest) (.passed e :: vs)
  | last {k : Nat} {e : ConsumerInfoExt Client} {cli : Client} (all : ci = none)
      (client : e.client = some cli) (closed : env.closed cli = true) :
      Visits cfg env ci k [e] [.closed e]
  | closed {k : Nat} {e skipped : ConsumerInfoExt Client} {rest : List (ConsumerInfoExt Client)}
      {vs : List (Visit Client)} {cli : Client} (all : ci = none) (client : e.client = some cli)
      (closed : env.closed cli = true) (later : Visits cfg env ci k rest vs) :
      Visits cfg env ci k (e :: skipped :: rest) (.closed e :: .passed skipped :: vs)
  | pushed {k : Nat} {e : ConsumerInfoExt Client} {rest : List (ConsumerInfoExt Client)}
      {vs : List (Visit Client)} {cli : Client} (all : ci = none) (client : e.client = some cli)
      (open_ : env.closed cli = false) (later : Visits cfg env ci k rest vs) :
      Visits cfg env ci k (e :: rest) (.pushed e cli :: vs)
  | tried {k : Nat} {e : ConsumerInfoExt Client} {rest : List (ConsumerInfoExt Client)}
      {vs : List (Visit Client)} {os : List Bool} {r : Option (ConsumerInfoExt Client)}
      (own : ci.any (· ≠ e.ci) = false) (unary : ci = none → e.client = none)
      (attempted : Attempted cfg cfg.sendAttempts.toNat e os r)
      (drawn : os = outcomes env.outcome k os.length)
      (later : Visits cfg env ci (k + os.length) rest vs) :
      Visits cfg env ci k (e :: rest) (.tried e os r :: vs)

/-- The result of some visits. -/
def afterVisits (pass : Pass Client) (vs : List (Visit Client)) :
    List (ConsumerInfoExt Client) × Pass Client :=
  (vs.filterMap Visit.kept, ⟨vs.foldl Visit.lost pass.lost,
    pass.pushed ++ vs.filterMap Visit.client,
    pass.tried ++ (vs.flatMap Visit.log).map Prod.fst⟩)

/-- The pass behind one visit. -/
def afterVisit (pass : Pass Client) (v : Visit Client) : Pass Client :=
  ⟨v.lost pass.lost, pass.pushed ++ v.client.toList, pass.tried ++ v.log.map Prod.fst⟩

theorem afterVisits_cons (pass : Pass Client) (v : Visit Client) (vs : List (Visit Client)) :
    afterVisits pass (v :: vs) = (v.kept.toList ++ (afterVisits (afterVisit pass v) vs).1,
      (afterVisits (afterVisit pass v) vs).2) := by
  unfold afterVisits afterVisit
  simp only [List.filterMap_cons, List.foldl_cons, List.flatMap_cons, List.map_append,
    List.append_assoc]
  cases v.kept <;> cases v.client <;> rfl

theorem afterVisit_passed (pass : Pass Client) (e : ConsumerInfoExt Client) :
    afterVisit pass (.passed e) = pass ∧ afterVisit pass (.closed e) = pass := by
  obtain ⟨lost, pushed, tried⟩ := pass
  unfold afterVisit
  constructor
  · simp [Visit.lost, Visit.client, Visit.log, Visit.os]
  · simp [Visit.lost, Visit.client, Visit.log, Visit.os]

/-- **What `send` does.** -/
theorem send_visits (cfg : Attempts) (env : Delivery Client) (ci : Option ConsumerInfo)
    (clst : List (ConsumerInfoExt Client)) (pass : Pass Client) :
    ∃ vs, Visits cfg env ci pass.tried.length clst vs ∧
      send cfg env ci clst pass = afterVisits pass vs := by
  fun_induction send cfg env ci clst pass with
  | case1 pass =>
    refine ⟨[], .nil, ?_⟩
    simp [afterVisits]
  | case2 e rest pass away _ _ eq ih =>
    obtain ⟨vs, visits, sent⟩ := ih
    refine ⟨_, .other away visits, ?_⟩
    rw [afterVisits_cons, (afterVisit_passed pass e).1, ← sent, eq]
    rfl
  | case3 e pass _ cli client all closed =>
    refine ⟨_, .last all client closed, ?_⟩
    rw [afterVisits_cons, (afterVisit_passed pass e).2]
    simp [afterVisits, Visit.kept]
  | case4 e pass _ cli client all closed skipped rest _ _ _ ih =>
    obtain ⟨vs, visits, sent⟩ := ih
    refine ⟨_, .closed all client closed visits, ?_⟩
    rw [afterVisits_cons, afterVisits_cons, (afterVisit_passed pass e).2,
      (afterVisit_passed pass skipped).1, ← sent, all]
    rfl
  | case5 e rest pass _ cli client all open_ _ _ _ ih =>
    obtain ⟨vs, visits, sent⟩ := ih
    refine ⟨_, .pushed all client (Bool.eq_false_iff.mpr open_) visits, ?_⟩
    have next : afterVisit pass (.pushed e cli) = { pass with pushed := pass.pushed ++ [cli] } := by
      unfold afterVisit
      simp [Visit.lost, Visit.client, Visit.log, Visit.os]
    rw [afterVisits_cons, next, ← sent, all]
    rfl
  | case6 e rest pass own kept next tried _ _ _ unary ih =>
    obtain ⟨os, r, attempted, drawn, eq⟩ :=
      attempts_spec cfg env.outcome cfg.sendAttempts.toNat 0 e pass
    rw [eq] at tried
    cases tried
    obtain ⟨vs, visits, sent⟩ := ih
    have length : pass.tried.length + os.length =
        (pass.tried ++ List.replicate os.length e.ci).length := by
      rw [List.length_append, List.length_replicate]
    refine ⟨_, .tried (Bool.eq_false_iff.mpr own) (fun all => ?_) attempted drawn
      (length ▸ visits), ?_⟩
    · exact Option.eq_none_iff_forall_ne_some.mpr fun cli client => unary cli all client
    · have next : afterVisit pass (.tried e os kept) = ⟨lostAfter pass.lost e kept, pass.pushed,
          pass.tried ++ List.replicate os.length e.ci⟩ := by
        unfold afterVisit Visit.log
        simp only [Visit.lost, Visit.client, Visit.os, Visit.entry, Option.toList_none,
          List.append_nil, List.map_map]
        congr 2
        exact List.map_const' ..
      rw [afterVisits_cons, next, ← sent]
      rfl

/-! ### What the visits of a pass are -/

/-- What is known about a visit. -/
def Visit.Valid (cfg : Attempts) (env : Delivery Client) (ci : Option ConsumerInfo) :
    Visit Client → Prop
  | .passed _ => True
  | .closed e => ∃ cli, e.client = some cli ∧ env.closed cli = true
  | .pushed e cli => e.client = some cli ∧ env.closed cli = false
  | .tried e os r => Attempted cfg cfg.sendAttempts.toNat e os r ∧ (ci = none → e.client = none) ∧
      ci.any (· ≠ e.ci) = false

section Facts

variable {env : Delivery Client} {ci : Option ConsumerInfo} {k : Nat}
  {clst : List (ConsumerInfoExt Client)} {vs : List (Visit Client)}

theorem Visits.entries (visits : Visits cfg env ci k clst vs) : vs.map Visit.entry = clst := by
  induction visits with
  | nil => rfl
  | other _ _ ih => exact congrArg _ ih
  | last _ _ _ => rfl
  | closed _ _ _ _ ih => exact congrArg (_ :: _ :: ·) ih
  | pushed _ _ _ _ ih => exact congrArg _ ih
  | tried _ _ _ _ _ ih => exact congrArg _ ih

/-- Different visits are to different subscribers. -/
theorem Visits.distinct (visits : Visits cfg env ci k clst vs) (nodup : (subscribers clst).Nodup) :
    (vs.map fun v => v.entry.subscriber).Nodup := by
  rw [← visits.entries, subscribers, List.map_map] at nodup
  exact nodup

theorem Visits.valid (visits : Visits cfg env ci k clst vs) : ∀ v ∈ vs, v.Valid cfg env ci := by
  induction visits with
  | nil => exact fun _ h => nomatch h
  | other _ _ ih => exact List.forall_mem_cons.mpr ⟨trivial, ih⟩
  | last _ client closed => exact List.forall_mem_singleton.mpr ⟨_, client, closed⟩
  | closed _ client closed _ ih =>
    exact List.forall_mem_cons.mpr ⟨⟨_, client, closed⟩, List.forall_mem_cons.mpr ⟨trivial, ih⟩⟩
  | pushed _ client open_ _ ih => exact List.forall_mem_cons.mpr ⟨⟨client, open_⟩, ih⟩
  | tried own unary attempted _ _ ih => exact List.forall_mem_cons.mpr ⟨⟨attempted, unary, own⟩, ih⟩

/-- The outcomes of the visits are those of the calls of `ui->send`, in order. -/
theorem Visits.drawn (visits : Visits cfg env ci k clst vs) :
    (vs.flatMap Visit.log).map Prod.snd = outcomes env.outcome k (vs.flatMap Visit.log).length := by
  have snd : ∀ v : Visit Client, v.log.map Prod.snd = v.os := fun v => by
    unfold Visit.log
    rw [List.map_map]
    exact List.map_id _
  induction visits with
  | nil => rfl
  | other _ _ ih => exact ih
  | last _ _ _ => rfl
  | closed _ _ _ _ ih => exact ih
  | pushed _ _ _ _ ih => exact ih
  | @tried k e rest vs os r _ _ _ drawn _ ih =>
    have length : (Visit.log (.tried e os r)).length = os.length := List.length_map _
    rw [List.flatMap_cons, List.map_append, ih, snd, List.length_append, outcomes_append, length]
    exact congrArg (· ++ _) drawn

/-- The attempts of a pass and their outcomes. -/
def attemptLog (env : Delivery Client) (tried : List ConsumerInfo) : List (ConsumerInfo × Bool) :=
  tried.zip (outcomes env.outcome 0 tried.length)

/-- The outcomes of the attempts for one consumer. -/
def tries (log : List (ConsumerInfo × Bool)) (ci : ConsumerInfo) : List Bool :=
  (log.filter (·.1 = ci)).map Prod.snd

theorem tries_append (log more : List (ConsumerInfo × Bool)) (ci : ConsumerInfo) :
    tries (log ++ more) ci = tries log ci ++ tries more ci := by
  unfold tries
  rw [List.filter_append, List.map_append]

/-- The log of a pass without earlier attempts. -/
theorem Visits.attemptLog_eq (visits : Visits cfg env ci 0 clst vs) :
    attemptLog env ((vs.flatMap Visit.log).map Prod.fst) = vs.flatMap Visit.log := by
  unfold attemptLog
  rw [List.length_map]
  exact (List.zip_of_prod rfl visits.drawn).symm

theorem tries_log_self (v : Visit Client) : tries v.log v.entry.ci = v.os := by
  unfold tries Visit.log
  rw [List.filter_eq_self.mpr, List.map_map]
  · exact List.map_id _
  · intro a ha
    obtain ⟨o, -, rfl⟩ := List.mem_map.mp ha
    exact decide_eq_true rfl

theorem tries_log_other (v : Visit Client) {ci : ConsumerInfo}
    (other : v.os ≠ [] → v.entry.ci ≠ ci) : tries v.log ci = [] := by
  unfold tries Visit.log
  rw [List.map_eq_nil_iff, List.filter_eq_nil_iff]
  intro a ha
  obtain ⟨o, ho, rfl⟩ := List.mem_map.mp ha
  have differs := other (List.ne_nil_of_mem ho)
  exact fun same => differs (of_decide_eq_true same)

theorem subscriber_unary (own : e.client = none) : e.subscriber = .unary e.ci := by
  unfold ConsumerInfoExt.subscriber
  rw [own]

theorem subscriber_stream {cli : Client} (own : e.client = some cli) :
    e.subscriber = .stream cli := by
  unfold ConsumerInfoExt.subscriber
  rw [own]

theorem subscriber_eq_unary {ci : ConsumerInfo} :
    e.subscriber = .unary ci ↔ e.client = none ∧ e.ci = ci := by
  cases own : e.client with
  | none =>
    rw [subscriber_unary own]
    exact ⟨fun same => ⟨rfl, Subscriber.unary.inj same⟩, fun same => congrArg _ same.2⟩
  | some cli =>
    rw [subscriber_stream own]
    exact iff_of_false (fun same => nomatch same) fun same => nomatch same.1

/-- **The attempts for a unary consumer are those of its own visit**, where only unary consumers are
tried. -/
theorem tries_flatMap {vs : List (Visit Client)}
    (nodup : (vs.map fun v => v.entry.subscriber).Nodup)
    (unary : ∀ v ∈ vs, v.os ≠ [] → v.entry.client = none) {v : Visit Client} (member : v ∈ vs)
    (own : v.entry.client = none) : tries (vs.flatMap Visit.log) v.entry.ci = v.os := by
  have others : ∀ us : List (Visit Client), (∀ u ∈ us, u ∈ vs) →
      (v.entry.subscriber ∉ us.map fun u => u.entry.subscriber) →
        tries (us.flatMap Visit.log) v.entry.ci = [] := by
    intro us inside away
    induction us with
    | nil => rfl
    | cons u us ih =>
      rw [List.map_cons, List.mem_cons, not_or] at away
      rw [List.flatMap_cons, tries_append,
        ih (fun u' hu' => inside u' (List.mem_cons_of_mem u hu')) away.2, List.append_nil]
      -- two unary entries of one consumer are one entry
      refine tries_log_other u fun more same => away.1 ?_
      rw [subscriber_unary own, subscriber_unary (unary u (inside u List.mem_cons_self) more), same]
  obtain ⟨before, after, rfl⟩ := List.append_of_mem member
  rw [List.map_append, List.map_cons, List.nodup_middle, List.nodup_cons, List.mem_append,
    not_or] at nodup
  rw [List.flatMap_append, List.flatMap_cons, tries_append, tries_append, tries_log_self,
    others before (fun u hu => List.mem_append_left _ hu) nodup.1.1,
    others after (fun u hu => List.mem_append_right _ (List.mem_cons_of_mem _ hu)) nodup.1.2,
    List.nil_append, List.append_nil]

/-- Only unary consumers are tried, unless the target is also that of a stream client. -/
theorem Visits.tried_unary (visits : Visits cfg env ci k clst vs)
    (fits : ∀ c ∈ ci, ∀ e ∈ clst, e.client ≠ none → e.ci ≠ c) :
    ∀ v ∈ vs, v.os ≠ [] → v.entry.client = none := by
  intro v member more
  have inside : v.entry ∈ clst := visits.entries ▸ List.mem_map_of_mem member
  have here := visits.valid v member
  cases v with
  | tried e os r =>
    cases ci with
    | none => exact here.2.1 rfl
    | some c =>
      have own : decide (c ≠ e.ci) = false := here.2.2
      exact by_contra fun streamed =>
        fits c rfl e inside streamed (of_not_not (of_decide_eq_false own)).symm
  | passed e => exact absurd rfl more
  | closed e => exact absurd rfl more
  | pushed e cli => exact absurd rfl more

/-- The attempts of a whole pass for a unary consumer. -/
theorem Visits.tries_eq (visits : Visits cfg env ci 0 clst vs) (nodup : (subscribers clst).Nodup)
    (unary : ∀ v ∈ vs, v.os ≠ [] → v.entry.client = none) (lost : LostMap)
    {v : Visit Client} (member : v ∈ vs) (own : v.entry.client = none) :
    tries (attemptLog env (afterVisits ⟨lost, [], []⟩ vs).2.tried) v.entry.ci = v.os := by
  have tried : (afterVisits ⟨lost, [], []⟩ vs).2.tried = (vs.flatMap Visit.log).map Prod.fst :=
    List.nil_append _
  rw [tried, visits.attemptLog_eq]
  exact tries_flatMap (visits.distinct nodup) unary member own

end Facts

/-! ### Complete passes -/

/-- The attempts for a consumer have used up its counter. -/
def Exhausted (cfg : Attempts) (env : Delivery Client) (tried : List ConsumerInfo)
    (e : ConsumerInfoExt Client) : Prop :=
  0 < cfg.maxAttempts ∧ tries (attemptLog env tried) e.ci = List.replicate (lives e.attempt) false

instance (env : Delivery Client) (tried : List ConsumerInfo) (e : ConsumerInfoExt Client) :
    Decidable (Exhausted cfg env tried e) :=
  inferInstanceAs (Decidable (_ ∧ _))

/-- An entry that is to stay in the list. -/
def remains (cfg : Attempts) (env : Delivery Client) (tried : List ConsumerInfo)
    (e : ConsumerInfoExt Client) : Bool :=
  match e.client with
  | some cli => !env.closed cli
  | none => !decide (Exhausted cfg env tried e)

/-- **A notification of all consumers**: every open client gets it once, every unary consumer is
tried, and the list loses the closed clients and the exhausted consumers. -/
def Complete (cfg : Attempts) (env : Delivery Client) (clst : List (ConsumerInfoExt Client))
    (result : List (ConsumerInfoExt Client) × Pass Client) : Prop :=
  (∀ e ∈ clst, ∀ cli, e.client = some cli → env.closed cli = false →
    result.2.pushed.count cli = 1) ∧
  (∀ e ∈ clst, e.client = none → e.ci ∈ result.2.tried) ∧
  result.1.map ConsumerInfoExt.identity =
    (clst.filter (remains cfg env result.2.tried)).map ConsumerInfoExt.identity

/-- **The condition**: no closed client is in the list but at its end, and there is an attempt for
every notification if there is a unary consumer. -/
def ClosedLast (cfg : Attempts) (env : Delivery Client) (clst : List (ConsumerInfoExt Client)) :
    Prop :=
  (∀ e ∈ clst.dropLast, ∀ cli, e.client = some cli → env.closed cli = false) ∧
    ((∃ e ∈ clst, e.client = none) → 0 < cfg.sendAttempts)

section Broadcast

variable {env : Delivery Client} {k : Nat} {clst : List (ConsumerInfoExt Client)}
  {vs : List (Visit Client)}

/-- A closed client before the end: the entry behind the first one is passed over. -/
theorem Visits.exists_passed (visits : Visits cfg env none k clst vs) (member : e ∈ clst.dropLast)
    {cli : Client} (client : e.client = some cli) (closed : env.closed cli = true) :
    ∃ x, .passed x ∈ vs := by
  induction visits with
  | nil => cases member
  | @other k e _ _ away _ _ => exact nomatch away
  | last _ _ _ => cases member
  | @closed k e skipped _ _ _ _ _ _ _ _ =>
    exact ⟨skipped, List.mem_cons_of_mem _ List.mem_cons_self⟩
  | @pushed k x rest vs _ _ own open_ _ ih =>
    cases rest with
    | nil => cases member
    | cons y rest =>
      rcases List.mem_cons.mp member with rfl | later
      · rw [client] at own
        cases own
        rw [closed] at open_
        cases open_
      · obtain ⟨x, hx⟩ := ih later
        exact ⟨x, List.mem_cons_of_mem _ hx⟩
  | @tried k x rest vs _ _ _ unary _ _ _ ih =>
    cases rest with
    | nil => cases member
    | cons y rest =>
      rcases List.mem_cons.mp member with rfl | later
      · rw [unary rfl] at client
        cases client
      · obtain ⟨x, hx⟩ := ih later
        exact ⟨x, List.mem_cons_of_mem _ hx⟩

/-- No closed client before the end: no entry is passed over. -/
theorem Visits.not_passed (visits : Visits cfg env none k clst vs)
    (fits : ∀ e ∈ clst.dropLast, ∀ cli, e.client = some cli → env.closed cli = false) :
    ∀ x, .passed x ∉ vs := by
  induction visits with
  | nil => exact fun _ h => nomatch h
  | other away _ _ => exact nomatch away
  | last _ _ _ => simp
  | @closed k e skipped rest _ cli _ client closed _ _ =>
    have open_ := fits e List.mem_cons_self cli client
    rw [closed] at open_
    cases open_
  | @pushed k e rest vs _ _ _ _ _ ih =>
    intro x hx
    refine ih (fun e' he' => fits e' ?_) x ((List.mem_cons.mp hx).resolve_left nofun)
    cases rest with
    | nil => cases he'
    | cons y rest => exact List.mem_cons_of_mem _ he'
  | @tried k e rest vs _ _ _ _ _ _ _ ih =>
    intro x hx
    refine ih (fun e' he' => fits e' ?_) x ((List.mem_cons.mp hx).resolve_left nofun)
    cases rest with
    | nil => cases he'
    | cons y rest => exact List.mem_cons_of_mem _ he'

/-- The clients the message is pushed to are among the subscribers, in order. -/
theorem pushed_sublist (valid : ∀ v ∈ vs, v.Valid cfg env none) :
    ((vs.filterMap Visit.client).map Subscriber.stream).Sublist
      (vs.map fun v => v.entry.subscriber) := by
  induction vs with
  | nil => exact .slnil
  | cons v vs ih =>
    have later := ih fun u hu => valid u (List.mem_cons_of_mem v hu)
    have here := valid v List.mem_cons_self
    cases v with
    | pushed e cli =>
      have own : e.subscriber = .stream cli := subscriber_stream here.1
      show (Subscriber.stream cli :: (vs.filterMap Visit.client).map Subscriber.stream).Sublist
        (e.subscriber :: _)
      rw [own]
      exact later.cons_cons _
    | passed e => exact later.cons _
    | closed e => exact later.cons _
    | tried e os r => exact later.cons _

theorem Attempted.os_ne_nil {os : List Bool} (attempted : Attempted cfg left e os r)
    (some : 0 < left) : os ≠ [] := by
  cases attempted with
  | delivered _ _ _ _ => simp
  | failed _ _ _ =>
    rw [← List.length_pos_iff, List.length_replicate]
    exact some
  | erased _ _ =>
    rw [← List.length_pos_iff, List.length_replicate]
    exact lives_pos _

theorem Attempted.os_eq_nil {os : List Bool} (attempted : Attempted cfg 0 e os r) : os = [] := by
  cases attempted with
  | delivered room _ _ _ => exact absurd room (Nat.not_lt_zero _)
  | failed _ _ _ => rfl
  | erased _ within => exact absurd within (Nat.not_le.mpr (lives_pos _))

/-- **An entry is erased exactly by the failures that use up its counter.** -/
theorem Attempted.none_iff {os : List Bool} (attempted : Attempted cfg left e os r) :
    r = none ↔ 0 < cfg.maxAttempts ∧ os = List.replicate (lives e.attempt) false := by
  cases attempted with
  | delivered _ _ _ _ =>
    refine iff_of_false nofun fun ⟨_, same⟩ => ?_
    have delivered : true ∈ List.replicate (lives e.attempt) false := by
      rw [← same]
      exact List.mem_append_right _ (List.mem_singleton_self _)
    exact nomatch (List.mem_replicate.mp delivered).2
  | failed fewer _ _ =>
    refine iff_of_false nofun fun ⟨bounded, same⟩ => ?_
    have length := congrArg List.length same
    rw [List.length_replicate, List.length_replicate] at length
    exact Nat.ne_of_lt (fewer bounded) length
  | erased bounded _ => exact iff_of_true rfl ⟨bounded, rfl⟩

theorem Attempted.identity {e' : ConsumerInfoExt Client} {os : List Bool}
    (attempted : Attempted cfg left e os (some e')) : e'.identity = e.identity := by
  cases attempted with
  | delivered _ _ same _ => exact same
  | failed _ same _ => exact same

/-- The list behind some visits, entry by entry. -/
theorem map_kept {p : ConsumerInfoExt Client → Bool} (pointwise : ∀ v ∈ vs,
    v.kept.map ConsumerInfoExt.identity = if p v.entry then some v.entry.identity else none) :
    (vs.filterMap Visit.kept).map ConsumerInfoExt.identity =
      ((vs.map Visit.entry).filter p).map ConsumerInfoExt.identity := by
  induction vs with
  | nil => rfl
  | cons v vs ih =>
    have later := ih fun u hu => pointwise u (List.mem_cons_of_mem v hu)
    have here := pointwise v List.mem_cons_self
    rw [List.filterMap_cons, List.map_cons, List.filter_cons]
    cases kept : v.kept with
    | none =>
      rw [kept] at here
      split at here
      · cases here
      · next gone =>
        rw [if_neg gone]
        exact later
    | some e =>
      rw [kept] at here
      split at here
      · next stays =>
        rw [if_pos stays, List.map_cons, List.map_cons, later]
        exact congrArg (· :: _) (Option.some.inj here)
      · cases here

/-- A pass that passes nobody over pushes once to every open client. -/
theorem pushed_once (visits : Visits cfg env none 0 clst vs) (nodup : (subscribers clst).Nodup)
    (none : ∀ x, .passed x ∉ vs) (he : e ∈ clst) {cli : Client} (client : e.client = some cli)
    (open_ : env.closed cli = false) :
    (vs.filterMap Visit.client).count cli = 1 := by
  have valid := visits.valid
  rw [← visits.entries] at he
  obtain ⟨v, hv, rfl⟩ := List.mem_map.mp he
  have here := valid v hv
  have member : cli ∈ vs.filterMap Visit.client := by
    cases v with
    | passed e => exact absurd hv (none e)
    | closed e =>
      obtain ⟨cli', client', closed⟩ := here
      have same : some cli = some cli' := client.symm.trans client'
      cases same
      rw [open_] at closed
      cases closed
    | pushed e cli' =>
      have same : some cli = some cli' := client.symm.trans here.1
      cases same
      exact List.mem_filterMap.mpr ⟨_, hv, rfl⟩
    | tried e os r =>
      have same : some cli = Option.none := client.symm.trans (here.2.1 rfl)
      cases same
  exact List.count_eq_one_of_mem
    (List.Nodup.of_map _ ((visits.distinct nodup).sublist (pushed_sublist valid))) member

/-- It tries every unary consumer, if there are attempts. -/
theorem tried_of_visits (visits : Visits cfg env none 0 clst vs) (none : ∀ x, .passed x ∉ vs)
    (room : 0 < cfg.sendAttempts.toNat) (he : e ∈ clst) (own : e.client = Option.none) :
    e.ci ∈ (vs.flatMap Visit.log).map Prod.fst := by
  rw [← visits.entries] at he
  obtain ⟨v, hv, rfl⟩ := List.mem_map.mp he
  have here := visits.valid v hv
  rw [List.map_flatMap]
  refine List.mem_flatMap.mpr ⟨v, hv, ?_⟩
  cases v with
  | passed e => exact absurd hv (none e)
  | closed e =>
    obtain ⟨cli, client, -⟩ := here
    have same : Option.none = some cli := own.symm.trans client
    cases same
  | pushed e cli =>
    have same : Option.none = some cli := own.symm.trans here.1
    cases same
  | tried e os r =>
    obtain ⟨o, ho⟩ := List.exists_mem_of_ne_nil _ (here.1.os_ne_nil room)
    exact List.mem_map.mpr ⟨(e.ci, o), List.mem_map.mpr ⟨o, ho, rfl⟩, rfl⟩

theorem kept_of_visits (visits : Visits cfg env none 0 clst vs) (nodup : (subscribers clst).Nodup)
    (none : ∀ x, .passed x ∉ vs) (lost : LostMap) :
    (vs.filterMap Visit.kept).map ConsumerInfoExt.identity =
      (clst.filter (remains cfg env (afterVisits ⟨lost, [], []⟩ vs).2.tried)).map
        ConsumerInfoExt.identity := by
  have unary := visits.tried_unary (nofun : ∀ c ∈ (Option.none : Option ConsumerInfo), _)
  rw [← visits.entries]
  refine map_kept fun v hv => ?_
  have here := visits.valid v hv
  unfold remains
  cases v with
  | passed e => exact absurd hv (none e)
  | closed e =>
    obtain ⟨cli, client, closed⟩ := here
    simp [Visit.kept, Visit.entry, client, closed]
  | pushed e cli => simp [Visit.kept, Visit.entry, here.1, here.2]
  | tried e os r =>
    have own : e.client = Option.none := here.2.1 rfl
    have made : tries (attemptLog env (afterVisits ⟨lost, [], []⟩ vs).2.tried) e.ci = os :=
      visits.tries_eq nodup unary lost hv own
    have exhausted : Exhausted cfg env (afterVisits ⟨lost, [], []⟩ vs).2.tried e ↔
        r = Option.none := by
      unfold Exhausted
      rw [made]
      exact here.1.none_iff.symm
    simp only [Visit.kept, Visit.entry, own, exhausted]
    cases r with
    | none => rfl
    | some e' => exact congrArg some here.1.identity

theorem complete_of_visits (visits : Visits cfg env none 0 clst vs)
    (nodup : (subscribers clst).Nodup) (closedLast : ClosedLast cfg env clst) (lost : LostMap) :
    Complete cfg env clst (afterVisits ⟨lost, [], []⟩ vs) := by
  have none := visits.not_passed closedLast.1
  refine ⟨fun e he cli client open_ => ?_, fun e he own => ?_, ?_⟩
  · show ([] ++ vs.filterMap Visit.client).count cli = 1
    rw [List.nil_append]
    exact pushed_once visits nodup none he client open_
  · have room : 0 < cfg.sendAttempts.toNat := by
      have := closedLast.2 ⟨e, he, own⟩
      omega
    show e.ci ∈ [] ++ (vs.flatMap Visit.log).map Prod.fst
    rw [List.nil_append]
    exact tried_of_visits visits none room he own
  · exact kept_of_visits visits nodup none lost

variable {x : ConsumerInfoExt Client}

/-- The subscriber of an entry that is passed over is not tried. -/
theorem not_tried_of_passed (valid : ∀ v ∈ vs, v.Valid cfg env none)
    (distinct : (vs.map fun v => v.entry.subscriber).Nodup) (passed : .passed x ∈ vs)
    (own : x.client = none) :
    x.ci ∉ (vs.flatMap Visit.log).map Prod.fst := by
  intro here
  rw [List.map_flatMap] at here
  obtain ⟨v, hv, inside⟩ := List.mem_flatMap.mp here
  obtain ⟨⟨ci, o⟩, ho, rfl⟩ := List.mem_map.mp inside
  obtain ⟨o', ho', pair⟩ := List.mem_map.mp ho
  cases v with
  | tried e os r =>
    have unary : e.client = none := (valid _ hv).2.1 rfl
    have ci : e.ci = x.ci := congrArg Prod.fst pair
    have same : e.subscriber = x.subscriber := by
      rw [subscriber_unary unary, subscriber_unary own, ci]
    have one := List.inj_on_of_nodup_map distinct hv passed same
    cases one
  | passed e => cases ho'
  | closed e => cases ho'
  | pushed e cli => cases ho'

theorem not_pushed_of_passed (valid : ∀ v ∈ vs, v.Valid cfg env none)
    (distinct : (vs.map fun v => v.entry.subscriber).Nodup) (passed : .passed x ∈ vs) {cli : Client}
    (client : x.client = some cli) :
    cli ∉ vs.filterMap Visit.client := by
  intro here
  obtain ⟨v, hv, own⟩ := List.mem_filterMap.mp here
  cases v with
  | pushed e cli' =>
    cases own
    have same : e.subscriber = x.subscriber := by
      rw [subscriber_stream (valid _ hv).1, subscriber_stream client]
    have one := List.inj_on_of_nodup_map distinct hv passed same
    cases one
  | passed e => cases own
  | closed e => cases own
  | tried e os r => cases own

/-- **A pass that passes an entry over is not complete.** -/
theorem not_complete_of_passed (visits : Visits cfg env none 0 clst vs)
    (nodup : (subscribers clst).Nodup) (passed : .passed x ∈ vs) (lost : LostMap) :
    ¬ Complete cfg env clst (afterVisits ⟨lost, [], []⟩ vs) := by
  rintro ⟨pushes, attempts, left⟩
  have valid := visits.valid
  have distinct := visits.distinct nodup
  have member : x ∈ clst := by
    rw [← visits.entries]
    exact List.mem_map_of_mem passed
  cases client : x.client with
  | none =>
    have here : x.ci ∈ ([] ++ (vs.flatMap Visit.log).map Prod.fst) := attempts x member client
    rw [List.nil_append] at here
    exact not_tried_of_passed valid distinct passed client here
  | some cli =>
    cases closed : env.closed cli with
    | false =>
      have once := pushes x member cli client closed
      have here : cli ∈ [] ++ vs.filterMap Visit.client :=
        List.count_pos_iff.mp (once ▸ Nat.one_pos)
      rw [List.nil_append] at here
      exact not_pushed_of_passed valid distinct passed client here
    | true =>
      have stays : x.identity ∈ (vs.filterMap Visit.kept).map ConsumerInfoExt.identity :=
        List.mem_map_of_mem (List.mem_filterMap.mpr ⟨_, passed, rfl⟩)
      have left : (vs.filterMap Visit.kept).map ConsumerInfoExt.identity = _ := left
      rw [left] at stays
      obtain ⟨e, he, same⟩ := List.mem_map.mp stays
      have own : e.client = some cli := (congrArg Prod.fst same).trans client
      have gone := (List.mem_filter.mp he).2
      unfold remains at gone
      rw [own] at gone
      simp [closed] at gone

/-- **A notification of all consumers is complete** exactly if no closed client is in the list but
at its end, and there are attempts for the unary consumers. -/
theorem complete_iff (env : Delivery Client) {clst : List (ConsumerInfoExt Client)}
    (nodup : (subscribers clst).Nodup) (lost : LostMap) :
    Complete cfg env clst (send cfg env none clst ⟨lost, [], []⟩) ↔ ClosedLast cfg env clst := by
  obtain ⟨vs, visits, sent⟩ := send_visits cfg env none clst ⟨lost, [], []⟩
  rw [sent]
  constructor
  · intro complete
    refine ⟨fun e he cli client => Bool.eq_false_iff.mpr fun closed => ?_, fun ⟨e, he, own⟩ => ?_⟩
    · obtain ⟨x, passed⟩ := visits.exists_passed he client closed
      exact not_complete_of_passed visits nodup passed lost complete
    · have tried : e.ci ∈ [] ++ (vs.flatMap Visit.log).map Prod.fst := complete.2.1 e he own
      rw [List.nil_append, List.map_flatMap] at tried
      obtain ⟨v, hv, here⟩ := List.mem_flatMap.mp tried
      obtain ⟨a, ha, -⟩ := List.mem_map.mp here
      obtain ⟨o, ho, -⟩ := List.mem_map.mp ha
      refine Int.lt_of_not_ge fun few => ?_
      have zero : cfg.sendAttempts.toNat = 0 := Int.toNat_of_nonpos few
      cases v with
      | tried e os r =>
        have attempted := (visits.valid _ hv).1
        rw [zero] at attempted
        exact nomatch attempted.os_eq_nil ▸ ho
      | passed e => cases ho
      | closed e => cases ho
      | pushed e cli => cases ho
  · exact fun closedLast => complete_of_visits visits nodup closedLast lost

end Broadcast

/-! ### An open client behind a closed one -/

/-- A consumer, an open client and, at the end, a closed one. -/
def mixed : List (ConsumerInfoExt Nat) :=
  [⟨none, ⟨5, 1⟩, 10, 0, 0⟩, ⟨some 7, {}, 10, 0, 0⟩, ⟨some 8, {}, 10, 0, 0⟩]

/-- The client `8` is closed, and nothing can be sent to consumers. -/
def eightClosed : Delivery Nat := ⟨fun cli => cli == 8, fun _ => false⟩

theorem mixed_complete : Complete defaultAttempts eightClosed mixed
    (send defaultAttempts eightClosed none mixed ⟨fun _ => none, [], []⟩) := by
  refine (complete_iff eightClosed (by decide) _).mpr
    ⟨fun e he cli client => ?_, fun _ => by decide⟩
  rcases List.mem_cons.mp he with rfl | he
  · cases client
  · cases List.mem_singleton.mp he
    cases client
    rfl

/-- The open client behind the closed one does not get the message. -/
theorem behind_closed_missed : ¬ ∀ (cfg : Attempts) (env : Delivery Nat)
    (clst : List (ConsumerInfoExt Nat)) (lost : LostMap), (subscribers clst).Nodup →
      0 < cfg.sendAttempts → Complete cfg env clst (send cfg env none clst ⟨lost, [], []⟩) := by
  intro holds
  have complete := holds defaultAttempts eightClosed
    [⟨some 8, {}, 10, 0, 0⟩, ⟨some 7, {}, 10, 0, 0⟩] (fun _ => none) (by decide) (by decide)
  have once := complete.1 ⟨some 7, {}, 10, 0, 0⟩ (by decide) 7 rfl rfl
  revert once
  decide

end UniSet.Processes.Consumers
