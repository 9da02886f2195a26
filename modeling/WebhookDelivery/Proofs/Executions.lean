import WebhookDelivery.Proofs.ClaimExclusion
import WebhookDelivery.Proofs.Requests
import WebhookDelivery.Proofs.ResponseHistory

/-!
# WebhookDelivery.Proofs.Executions

Runs of workers told by the claims that they hold and the executions that they conclude. What is
decided after an execution rests on the claim as it was loaded, not on the row as it has become.

* `Execution`, `Execution.Records`: the conclusion of an execution by a unit, and the end of a claim
  that it records; `Execution.effect` says that it does nothing else.
* `Execution.Records.outcome`: why an attempt is retried or fails.
* `Course`: a store that is reached, the claims that were handed out and the executions that were
  concluded on the way.
* `Course.process`, `Course.reap`, `Course.runOnce`: what units do goes on with a course.
-/

namespace WebhookDelivery

namespace RetrySettings

variable {s : RetrySettings} {draws : Draws} {schedule : Option RetrySchedule} {count : Int}
  {failure : Failure}

theorem giveUp?_eq_some {why : GiveUp} (h : s.giveUp? schedule count failure = some why) :
    failure.isRetryable = false ∨ s.ceiling schedule ≤ count := by
  unfold giveUp? at h
  split at h
  · rename_i hr
    exact .inl (by simpa using hr)
  · split at h
    · rename_i hc
      exact .inr hc
    · cases h

theorem giveUp?_eq_none (h : s.giveUp? schedule count failure = none) :
    failure.isRetryable = true ∧ count < s.ceiling schedule := by
  unfold giveUp? at h
  split at h
  · cases h
  · rename_i hr
    split at h
    · cases h
    · rename_i hc
      exact ⟨by simpa using hr, Int.not_le.mp hc⟩

/-- What a failure is given up for, and what it is retried for. -/
theorem decide_cases {now : ClockTime} {d : RetryDecision}
    (h : (s.decide draws schedule count failure now).1 = .ok d) :
    (∃ why, d = .giveUp why ∧ (failure.isRetryable = false ∨ s.ceiling schedule ≤ count)) ∨
    ∃ time delay, d = .retryAt time delay ∧ failure.isRetryable = true ∧
      count < s.ceiling schedule := by
  unfold decide at h
  cases hg : s.giveUp? schedule count failure with
  | some why =>
    rw [hg] at h
    exact .inl ⟨why, (Except.ok.inj h).symm, giveUp?_eq_some hg⟩
  | none =>
    rw [hg] at h
    dsimp only at h
    split at h
    · cases h
    · split at h
      · exact .inr ⟨_, _, (Except.ok.inj h).symm, giveUp?_eq_none hg⟩
      · cases h

end RetrySettings

namespace WorkerUnit

/-- What a unit answers and logs when it has tried to record an outcome. -/
def report (r : Response) (decision : Option RetryDecision) (held : Bool) : Engine Bool :=
  if held then do
    logDecision r decision
    return true
  else return false

theorem keeps_report (r : Response) (decision : Option RetryDecision) (held : Bool) :
    (report r decision held).Keeps := by
  unfold report
  split
  · refine Engine.Keeps.bind ?_ fun _ => .pure true
    unfold logDecision
    split <;> exact Engine.keeps_log _ _ _ _
  · exact .pure false

theorem keeps_decide (u : WorkerUnit) (claim : Claim) (r : Response) (now : Int) :
    (u.decide claim r now).Keeps := by
  intro w
  cases hf : r.failure? with
  | none =>
    unfold decide
    rw [hf]
    rfl
  | some failure => rw [decide_apply hf rfl]

theorem finalize_eq (u : WorkerUnit) (claim : Claim) (r : Response) (now : Int) :
    u.finalize claim r now = u.decide claim r now >>= fun decision =>
      Engine.finalize claim.attempt r now (RetryDecision.time? decision) >>= report r decision := rfl

end WorkerUnit

/-- The conclusion of an execution: a unit records a response under a claim, in a world. -/
structure Execution where
  unit : WorkerUnit
  claim : Claim
  response : Response
  now : Int
  world : World

namespace Execution

def before (x : Execution) : Store := x.world.store

def after (x : Execution) : Store :=
  (x.unit.finalize x.claim x.response x.now x.world).2.store

/-- The outcome was recorded. -/
def IsRecorded (x : Execution) : Prop :=
  (x.unit.finalize x.claim x.response x.now x.world).1 = .ok true

/-- The number of retries after which the attempt fails, by the subscription as it was loaded. -/
def ceiling (x : Execution) : Int := x.unit.policy.ceiling x.claim.subscription.retrySchedule

def decision (x : Execution) : Except OperationError (Option RetryDecision) :=
  (x.unit.decide x.claim x.response x.now x.world).1

/-- A retry is due only after the time at which the claim was picked. -/
def IsLater (x : Execution) : Prop := ∀ decision due k, x.decision = .ok decision →
  RetryDecision.time? decision = some due → x.claim.attempt.token? = some k → k.pickedAt < due

/-- The claim ends as the decision has it. -/
structure Records (x : Execution) (e : Ending) : Prop where
  decided : ∃ decision, x.decision = .ok decision ∧
    e.outcome = Engine.outcomeOf x.response x.now (RetryDecision.time? decision)
  token : x.claim.attempt.token? = some e.token
  response : e.response = x.response
  held : x.before.tables.attempts.any e.token.holds
  finish : x.before.tables.finish? e = .ok x.after.tables

variable {x : Execution} {e : Ending}

/-- Unless no decision is made, the store is left as one operation leaves it. -/
theorem after_eq (x : Execution) : (x.after = x.before ∧ ¬ x.IsRecorded) ∨
    ∃ (c : Call) (decision : Option RetryDecision), x.decision = .ok decision ∧
      c.before = x.before ∧ c.after = x.after ∧
      c.operation = .finalize x.claim.attempt x.response x.now (RetryDecision.time? decision) ∧
      (x.IsRecorded → c.answer = .ok (.flag true)) := by
  have hkeeps := WorkerUnit.keeps_decide x.unit x.claim x.response x.now x.world
  unfold after before decision IsRecorded
  rw [WorkerUnit.finalize_eq, Engine.bind_apply]
  cases hd : x.unit.decide x.claim x.response x.now x.world with
  | mk result v =>
    rw [hd] at hkeeps
    cases result with
    | error e => exact .inl ⟨hkeeps, by simp⟩
    | ok decision =>
      refine .inr ⟨⟨.finalize x.claim.attempt x.response x.now (RetryDecision.time? decision), v⟩,
        decision, rfl, hkeeps, ?_, rfl, fun h => ?_⟩
      · exact (Engine.store_map _ _ v).trans
          (Engine.store_bind_of_keeps _ (WorkerUnit.keeps_report x.response decision) v).symm
      · rw [Call.answer, Operation.run, Engine.map_apply]
        dsimp only at h
        rw [Engine.bind_apply] at h
        cases hf : Engine.finalize x.claim.attempt x.response x.now
            (RetryDecision.time? decision) v with
        | mk held v' =>
          rw [hf] at h
          cases held with
          | error e => cases h
          | ok held =>
            cases held with
            | false => cases h
            | true => rfl

/-- An execution leaves the tables as they were or records the end of its claim. -/
theorem effect (x : Execution) (hi : x.before.IsIdle) :
    (x.after.tables = x.before.tables ∧ ¬ x.IsRecorded) ∨ ∃ e, x.Records e := by
  rcases x.after_eq with ⟨ha, hn⟩ | ⟨c, decision, hd, hb, ha, ho, hrec⟩
  · exact .inl ⟨by rw [ha], hn⟩
  · rw [← hb] at hi
    cases hans : c.answer with
    | error e =>
      refine .inl ⟨by rw [← ha, Call.tables_of_error hi hans, hb], fun h => ?_⟩
      rw [hrec h] at hans
      cases hans
    | ok answer =>
      have hm := (Engine.meets_finalize x.claim.attempt x.response x.now
        (RetryDecision.time? decision)).map Answer.flag
      have hans' := hans
      unfold Call.answer at hans'
      rw [ho] at hans'
      obtain ⟨held, ⟨pickedAt, hp, -, hf⟩, rfl⟩ := (hm c.world).2 answer hans'
      cases held with
      | false =>
        rw [if_neg Bool.false_ne_true] at hf
        have hsame : c.after.tables = c.before.tables := by
          unfold Call.after
          rw [ho]
          exact congrArg Data.tables hf
        refine .inl ⟨by rw [← ha, hsame, hb], fun h => ?_⟩
        rw [hrec h] at hans
        cases hans
      | true =>
        have htok : x.claim.attempt.token? = some
            ⟨x.claim.attempt.attemptId, pickedAt.micros, x.claim.attempt.workerName⟩ := by
          rw [Attempt.token?, hp]
          rfl
        have hends : c.Ends ⟨⟨x.claim.attempt.attemptId, pickedAt.micros,
            x.claim.attempt.workerName⟩, Engine.outcomeOf x.response x.now
              (RetryDecision.time? decision), x.response⟩ := by
          refine ⟨_, hans, ?_⟩
          rw [ho]
          exact ⟨htok, rfl, rfl⟩
        obtain ⟨hheld, hfinish⟩ := hends.finish
        rw [hb] at hheld hfinish
        rw [ha] at hfinish
        exact .inr ⟨_, ⟨decision, hd, rfl⟩, htok, rfl, hheld, hfinish⟩

theorem isIdle_after (hi : x.before.IsIdle) : x.after.IsIdle := by
  rcases x.after_eq with ⟨ha, -⟩ | ⟨c, -, -, hb, ha, -⟩
  · rw [ha]
    exact hi
  · rw [← ha]
    exact Call.isIdle_after (hb ▸ hi)

/-- What an execution does to the tables is the end of a claim, if it is anything. -/
theorem changes (hi : x.before.IsIdle) :
    Tables.Changes x.Records x.before.tables x.after.tables := by
  rcases x.effect hi with ⟨ha, -⟩ | ⟨e, he⟩
  · rw [ha]
  · exact .single (.edit (.finish e he he.held he.finish))

namespace Records

theorem isLater (he : x.Records e) (later : x.IsLater) : e.IsLater := by
  obtain ⟨decision, hd, hout⟩ := he.decided
  intro due hdue
  rw [hout, Engine.outcomeOf.eq_def] at hdue
  split at hdue
  · cases hdue
  · cases ht : RetryDecision.time? decision with
    | none =>
      rw [ht] at hdue
      cases hdue
    | some due' =>
      rw [ht] at hdue
      cases hdue
      exact later decision due e.token hd ht he.token

/-- Why a claim ends as it does. -/
theorem outcome (he : x.Records e) : match e.outcome with
    | .succeeded _ => x.response.isSuccess = true
    | .retried _ => ∃ failure, x.response.failure? = some failure ∧ failure.isRetryable = true ∧
      x.claim.attempt.retryCount < x.ceiling
    | .failed _ => ∃ failure, x.response.failure? = some failure ∧
      (failure.isRetryable = false ∨ x.ceiling ≤ x.claim.attempt.retryCount) := by
  obtain ⟨_, hd, hout⟩ := he.decided
  rw [hout, Engine.outcomeOf.eq_def]
  cases hf : x.response.failure? with
  | none =>
    have hs : x.response.isSuccess = true := by
      unfold Response.failure? at hf
      simpa [Response.isSuccess] using hf
    rw [if_pos hs]
    exact hs
  | some failure =>
    have hs : ¬ x.response.isSuccess = true := by
      unfold Response.failure? at hf
      obtain ⟨kind, hk, -⟩ := Option.map_eq_some_iff.mp hf
      simp [Response.isSuccess, hk]
    rw [if_neg hs]
    cases hp : x.unit.policy.decide x.world.draws x.claim.subscription.retrySchedule
      x.claim.attempt.retryCount failure (.utc x.now) with
    | mk result draws =>
      unfold decision at hd
      rw [WorkerUnit.decide_apply hf hp] at hd
      cases result with
      | error e => cases hd
      | ok d =>
        cases hd
        rcases RetrySettings.decide_cases (congrArg Prod.fst hp) with
          ⟨why, rfl, hwhy⟩ | ⟨time, delay, rfl, hretry⟩
        · exact ⟨failure, rfl, hwhy⟩
        · exact ⟨failure, rfl, hretry⟩

theorem isRegular (he : x.Records e) (hr : x.response.Answers x.claim.attempt) : e.IsRegular := by
  have hout := he.outcome
  refine ⟨?_, ?_⟩
  · obtain ⟨time, -, htok⟩ := Option.map_eq_some_iff.mp he.token
    rw [he.response, hr.attemptId, ← htok]
  · rw [he.response]
    cases ho : e.outcome with
    | succeeded time =>
      rw [ho] at hout
      exact hout
    | retried due =>
      rw [ho] at hout
      obtain ⟨failure, hf, hretry, -⟩ := hout
      exact ⟨failure, hf, hretry⟩
    | failed time =>
      rw [ho] at hout
      obtain ⟨failure, hf, -⟩ := hout
      unfold Response.failure? at hf
      obtain ⟨kind, hk, -⟩ := Option.map_eq_some_iff.mp hf
      simp [Response.isSuccess, hk]

end Records
end Execution

/-! ## Courses -/

/-- The operation records an outcome. -/
def Operation.isFinalize : Operation → Bool
  | .finalize _ _ _ _ => true
  | _ => false

theorem Call.not_ends_of_isFinalize {x : Call} (ho : x.operation.isFinalize = false) (e : Ending) :
    ¬ x.Ends e := by
  rintro ⟨a, -, he⟩
  unfold Operation.Ends at he
  split at he
  · rename_i hop
    rw [hop] at ho
    cases ho
  · exact he

/-- The claims that are handed out with an answer. -/
def Answer.claimsOf : Answer → List Claim
  | .claims found => found
  | _ => []

def Call.HandsOutClaim (x : Call) (claim : Claim) : Prop :=
  ∃ b, x.answer = .ok b ∧ claim ∈ b.claimsOf

/-- A store that is reached in a course of operations and executions, the claims that were handed out
in it, and its executions in turn. Outcomes are recorded only by executions, and those are of claims
that were handed out. -/
inductive Course (onFile : Bool) : Store → (Claim → Prop) → List Execution → Prop
  | create : Course onFile (.create onFile) (fun _ => False) []
  | call {known : Claim → Prop} {done : List Execution} (x : Call)
      (h : Course onFile x.before known done) (ho : x.operation.isFinalize = false) :
      Course onFile x.after (fun claim => known claim ∨ x.HandsOutClaim claim) done
  | conclude {known : Claim → Prop} {done : List Execution} (x : Execution)
      (h : Course onFile x.before known done) (hk : known x.claim)
      (answers : x.response.Answers x.claim.attempt) : Course onFile x.after known (done ++ [x])

namespace Engine

variable {α β : Type} {onFile : Bool} {u : WorkerUnit}

/-- What performs nothing leaves the store alone. -/
theorem Performs.keeps {known : Attempt → Prop} {body : Engine α} {q : α → Prop}
    (h : Performs (fun _ => False) known body q) : body.Keeps := by
  intro w
  obtain ⟨⟨calls, hrun, hnone, -⟩, -⟩ := h w
  have hsame : ∀ {s t : Store}, Run s calls t → t = s := by
    intro s t hrun
    cases hrun with
    | nil => rfl
    | cons _ => exact (hnone _ List.mem_cons_self).elim
  exact hsame hrun

/-- What the body does goes on with every course in which the claims of `pre` are known, by
executions of the unit; after it the claims of `post` are known. -/
def Proceeds (onFile : Bool) (u : WorkerUnit) (pre : List Claim) (body : Engine α)
    (post : α → List Claim) : Prop :=
  ∀ w known done, Course onFile w.store known done → (∀ claim ∈ pre, known claim) →
    ∃ known' more, (∀ claim, known claim → known' claim) ∧
      Course onFile (body w).2.store known' (done ++ more) ∧ (∀ x ∈ more, x.unit = u) ∧
      ∀ a, (body w).1 = .ok a → ∀ claim ∈ post a, known' claim

namespace Proceeds

variable {pre : List Claim} {body : Engine α} {post : α → List Claim}

theorem keeps (h : body.Keeps) : Proceeds onFile u pre body fun _ => pre := by
  intro w known done hw hpre
  refine ⟨known, [], fun _ => id, ?_, fun _ hx => absurd hx List.not_mem_nil, fun _ _ => hpre⟩
  rw [h w, List.append_nil]
  exact hw

theorem weaken {post' : α → List Claim} (h : Proceeds onFile u pre body post)
    (hp : ∀ a, ∀ claim ∈ post' a, claim ∈ post a) : Proceeds onFile u pre body post' := by
  intro w known done hw hpre
  obtain ⟨known', more, hk, hc, hu, hpost⟩ := h w known done hw hpre
  exact ⟨known', more, hk, hc, hu, fun a ha claim hm => hpost a ha claim (hp a claim hm)⟩

theorem none (h : Proceeds onFile u pre body post) : Proceeds onFile u pre body fun _ => [] :=
  h.weaken fun _ _ hm => absurd hm List.not_mem_nil

theorem bind {f : α → Engine β} {post' : β → List Claim} (h : Proceeds onFile u pre body post)
    (hf : ∀ a, Proceeds onFile u (post a) (f a) post') :
    Proceeds onFile u pre (body >>= f) post' := by
  intro w known done hw hpre
  obtain ⟨known', more, hk, hc, hu, hpost⟩ := h w known done hw hpre
  rw [bind_apply]
  cases hr : body w with
  | mk result v =>
    rw [hr] at hc hpost
    cases result with
    | error e => exact ⟨known', more, hk, hc, hu, fun _ hb => by cases hb⟩
    | ok a =>
      obtain ⟨known'', more', hk', hc', hu', hpost'⟩ := hf a v known' _ hc (hpost a rfl)
      refine ⟨known'', more ++ more', fun claim hm => hk' claim (hk claim hm), ?_, ?_, hpost'⟩
      · rw [← List.append_assoc]
        exact hc'
      · intro x hx
        rcases List.mem_append.mp hx with hx | hx
        · exact hu x hx
        · exact hu' x hx

/-- What leaves the store alone does not matter but for its value. -/
theorem quiet_bind {q : α → Prop} {f : α → Engine β} {post' : β → List Claim} (h : body.Keeps)
    (hq : ∀ w a, (body w).1 = .ok a → q a) (hf : ∀ a, q a → Proceeds onFile u pre (f a) post') :
    Proceeds onFile u pre (body >>= f) post' := by
  intro w known done hw hpre
  have hkeeps := h w
  have hvalue := hq w
  rw [bind_apply]
  cases hr : body w with
  | mk result v =>
    rw [hr] at hkeeps hvalue
    rw [← hkeeps] at hw
    cases result with
    | error e =>
      refine ⟨known, [], fun _ => id, ?_, fun _ hx => absurd hx List.not_mem_nil,
        fun _ hb => by cases hb⟩
      rw [List.append_nil]
      exact hw
    | ok a => exact hf a (hvalue a rfl) v known done hw hpre

/-- Claims that are known stay so. -/
theorem frame (h : Proceeds onFile u pre body post) (claims : List Claim) :
    Proceeds onFile u (pre ++ claims) body fun a => post a ++ claims := by
  intro w known done hw hpre
  obtain ⟨known', more, hk, hc, hu, hpost⟩ := h w known done hw fun claim hm =>
    hpre claim (List.mem_append_left _ hm)
  refine ⟨known', more, hk, hc, hu, fun a ha claim hm => ?_⟩
  rcases List.mem_append.mp hm with hm | hm
  · exact hpost a ha claim hm
  · exact hk claim (hpre claim (List.mem_append_right _ hm))

theorem withFields (fields : LogFields) (h : Proceeds onFile u pre body post) :
    Proceeds onFile u pre (withFields fields body) post :=
  fun w => h { w with log := w.log.bind fields }

theorem attempt? (h : Proceeds onFile u pre body fun _ => pre) :
    Proceeds onFile u pre (attempt? body) fun _ => pre := by
  intro w known done hw hpre
  obtain ⟨known', more, hk, hc, hu, -⟩ := h w known done hw hpre
  exact ⟨known', more, hk, hc, hu, fun _ _ claim hm => hk claim (hpre claim hm)⟩

/-- An operation goes on with a course, and the claims that it hands out are known then. -/
theorem operation {o : Operation} (ho : o.isFinalize = false) {answer : α → Answer}
    (h : o.run = answer <$> body) :
    Proceeds onFile u pre body fun a => (answer a).claimsOf := by
  intro w known done hw _
  have hx : o.run w = (answer <$> body) w := by rw [h]
  rw [map_apply] at hx
  have hc := Course.call (x := ⟨o, w⟩) hw ho
  cases hb : body w with
  | mk result v =>
    rw [hb] at hx
    have ha : (⟨o, w⟩ : Call).after = v.store := by
      rw [Call.after, hx]
      cases result <;> rfl
    rw [ha] at hc
    refine ⟨fun claim => known claim ∨ Call.HandsOutClaim ⟨o, w⟩ claim, [], fun _ => Or.inl, ?_,
      fun _ hx => absurd hx List.not_mem_nil, ?_⟩
    · rw [List.append_nil]
      exact hc
    · intro a hres claim hm
      dsimp only at hres
      subst hres
      refine .inr ⟨answer a, ?_, hm⟩
      rw [Call.answer, hx]

end Proceeds
end Engine

namespace WorkerUnit

open Engine

variable {onFile : Bool}

theorem proceeds_finalize (u : WorkerUnit) {claim : Claim} {r : Response}
    (hr : r.Answers claim.attempt) (now : Int) :
    Proceeds onFile u [claim] (u.finalize claim r now) fun _ => [claim] := by
  intro w known done hw hk
  refine ⟨known, [⟨u, claim, r, now, w⟩], fun _ => id, ?_, by simp, fun _ _ => hk⟩
  exact .conclude ⟨u, claim, r, now, w⟩ hw (hk claim List.mem_cons_self) hr

theorem proceeds_process (u : WorkerUnit) (claim : Claim) :
    Proceeds onFile u [claim] (u.process claim) fun _ => [claim] := by
  have hclock : clock.Keeps := fun _ => rfl
  unfold process
  refine (Proceeds.keeps hclock).bind fun now => ?_
  have hexecute : Performs (fun _ => False) (fun _ => False)
      (Client.execute u.settings claim.attempt claim.event claim.subscription now)
      fun r => r.Answers claim.attempt := Client.performs_execute _ _ _ _ _
  refine .quiet_bind hexecute.keeps (fun w r h => (hexecute w).2 r h) fun r hr => ?_
  exact (Proceeds.keeps hclock).bind fun later => u.proceeds_finalize hr later

theorem proceeds_reapAll (u : WorkerUnit) (now : Int) (claims : List Claim) :
    Proceeds onFile u claims (u.reapAll now claims) fun _ => [] := by
  induction claims with
  | nil => exact Proceeds.keeps (.pure 0)
  | cons claim rest ih =>
    have habandoned : (abandonedResponse claim.attempt now).Keeps := fun _ => rfl
    refine .quiet_bind (q := fun r => r.Answers claim.attempt) habandoned
      (fun w r h => by cases h; exact ⟨rfl, rfl⟩) fun r hr => ?_
    have hfirst : Proceeds onFile u [claim] (Engine.withFields (Log.attemptFields claim.attempt) do
        let reaped ← u.finalize claim r now
        if reaped then
          Engine.log .warning logger "Reaped stale claim"
            [("previous_worker", .ofString? claim.attempt.workerName)]
        return reaped) fun _ => [claim] := by
      refine Proceeds.withFields _ ((u.proceeds_finalize hr now).bind fun reaped => .keeps ?_)
      cases reaped with
      | true => exact (keeps_log _ _ _ _).bind fun _ => .pure true
      | false => exact .pure false
    refine (hfirst.frame rest).bind fun reaped => ?_
    have hrest : Proceeds onFile u ([claim] ++ rest) (u.reapAll now rest) fun _ => [] :=
      fun w known done hw hpre => ih w known done hw fun c hc =>
        hpre c (List.mem_append_right _ hc)
    exact hrest.bind fun _ => .keeps (.pure _)

theorem proceeds_reap (u : WorkerUnit) (now : Int) :
    Proceeds onFile u [] (u.reap now) fun _ => [] := by
  refine .quiet_bind (keeps_ofExcept _ _) (fun _ _ _ => trivial) fun age _ =>
    .quiet_bind (keeps_ofExcept _ _) (fun _ _ _ => trivial) fun cutoff _ => ?_
  have hfind : Proceeds onFile u [] (findStale cutoff.micros reapLimit) fun claims => claims :=
    Proceeds.operation (o := .findStale cutoff.micros reapLimit) rfl rfl
  exact hfind.bind fun claims => u.proceeds_reapAll now claims

theorem proceeds_reapIfDue (u : WorkerUnit) (now : Int) :
    Proceeds onFile u [] (u.reapIfDue now) fun _ => [] := by
  unfold reapIfDue
  split
  · exact (u.proceeds_reap now).bind fun _ => .keeps ((keeps_ofExcept _ _).bind fun _ => .pure _)
  · exact .keeps (.pure u)

theorem proceeds_claimAndProcess (u : WorkerUnit) (now : Int) :
    Proceeds onFile u [] (u.claimAndProcess now) fun _ => [] := by
  have hclaim : Proceeds onFile u [] (claimNext u.claimant now) fun found => found.toList :=
    Proceeds.operation (o := .claim u.claimant now) rfl rfl
  refine hclaim.bind fun found => ?_
  cases found with
  | none => exact .keeps (.pure false)
  | some claim =>
    have hsafely : Proceeds onFile u [claim] (u.processSafely claim) fun _ => [claim] := by
      refine Proceeds.withFields _ ((u.proceeds_process claim).attempt?.bind fun result => ?_)
      cases result with
      | ok _ => exact .keeps (.pure ())
      | error e =>
        dsimp only
        split
        · exact .keeps (.throw e)
        · exact .keeps fun _ => rfl
    exact (hsafely.bind fun _ => .keeps (.pure true)).none

/-- Only the time of the next reaping changes in a unit. -/
theorem unit_of_reapIfDue {u u' : WorkerUnit} {now : Int} {w : World}
    (h : (u.reapIfDue now w).1 = .ok u') : ∃ next, u' = { u with nextReap := next } := by
  have hval : ∀ (next : Option ClockTime) (v : World),
      ((pure { u with nextReap := next } : Engine WorkerUnit) v).1 = .ok u' →
        ∃ next, u' = { u with nextReap := next } := by
    intro next v hv
    cases hv
    exact ⟨next, rfl⟩
  unfold reapIfDue at h
  split at h
  · rw [bind_apply] at h
    cases hr : u.reap now w with
    | mk result v =>
      rw [hr] at h
      cases result with
      | error e => cases h
      | ok n =>
        dsimp only at h
        cases ht : (ClockTime.utc now).addSeconds? u.settings.maxPoll with
        | error e =>
          rw [ht] at h
          cases h
        | ok time =>
          rw [ht] at h
          exact hval _ _ h
  · cases h
    exact ⟨u.nextReap, rfl⟩

end WorkerUnit

namespace Course

variable {onFile : Bool} {known : Claim → Prop} {done : List Execution}

/-- Processing a claim goes on with a course. -/
theorem process (u : WorkerUnit) {claim : Claim} {w : World} (h : Course onFile w.store known done)
    (hk : known claim) : ∃ known' more, Course onFile (u.process claim w).2.store known'
      (done ++ more) ∧ ∀ x ∈ more, x.unit.policy = u.policy := by
  obtain ⟨known', more, -, hc, hu, -⟩ := u.proceeds_process claim w known done h
    fun c hc => by rwa [List.mem_singleton.mp hc]
  exact ⟨known', more, hc, fun x hx => by rw [hu x hx]⟩

/-- Reaping goes on with a course. -/
theorem reap (u : WorkerUnit) {w : World} (h : Course onFile w.store known done) (now : Int) :
    ∃ known' more, Course onFile (u.reap now w).2.store known' (done ++ more) ∧
      ∀ x ∈ more, x.unit.policy = u.policy := by
  obtain ⟨known', more, -, hc, hu, -⟩ := u.proceeds_reap now w known done h
    fun _ hc => absurd hc List.not_mem_nil
  exact ⟨known', more, hc, fun x hx => by rw [hu x hx]⟩

/-- A turn of a unit goes on with a course. -/
theorem runOnce (u : WorkerUnit) {w : World} (h : Course onFile w.store known done) :
    ∃ known' more, Course onFile (u.runOnce w).2.2.store known' (done ++ more) ∧
      ∀ x ∈ more, x.unit.policy = u.policy := by
  have hnone : ∀ {known : Claim → Prop}, ∀ claim ∈ ([] : List Claim), known claim :=
    fun _ hc => absurd hc List.not_mem_nil
  obtain ⟨known', more, -, hc, hu, -⟩ := u.proceeds_reapIfDue w.clock w known done h hnone
  have hpolicy : ∀ x ∈ more, x.unit.policy = u.policy := fun x hx => by rw [hu x hx]
  unfold WorkerUnit.runOnce
  dsimp only
  cases hr : u.reapIfDue w.clock w with
  | mk result v =>
    rw [hr] at hc
    cases result with
    | error e => exact ⟨known', more, hc, hpolicy⟩
    | ok u' =>
      obtain ⟨next, rfl⟩ : ∃ next, u' = { u with nextReap := next } :=
        WorkerUnit.unit_of_reapIfDue (w := w) (by rw [hr])
      obtain ⟨known'', more', -, hc', hu', -⟩ :=
        WorkerUnit.proceeds_claimAndProcess { u with nextReap := next } w.clock v known' _ hc hnone
      refine ⟨known'', more ++ more', by rw [← List.append_assoc]; exact hc', fun x hx => ?_⟩
      rcases List.mem_append.mp hx with hx | hx
      · exact hpolicy x hx
      · rw [hu' x hx]

end Course
end WebhookDelivery
