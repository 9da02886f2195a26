import WebhookDelivery.Proofs.WorkerRuns

/-!
# WebhookDelivery.Proofs.Acts

What dispatchers, replays, workers and the recovery of events do to a store, in the order in which
they do it.

* `Act`: a single call, or what a worker or the recovery does in some world.
* `Act.IsMadeOf a calls`: the calls that an act is made of. `Act.exists_isMadeOf` says that every act
  is made of calls.
* `Acts s acts t`: acts lead from a store to another; `Acts.run` gives the run of all their calls.
-/

namespace WebhookDelivery

inductive Act where
  | call (x : Call)
  | process (u : WorkerUnit) (claim : Claim) (w : World)
  | reap (u : WorkerUnit) (now : Int) (w : World)
  | turn (u : WorkerUnit) (w : World)
  | recover (now limit : Int) (w : World)

namespace Act

def before : Act → Store
  | call x => x.before
  | process _ _ w | reap _ _ w | turn _ w | recover _ _ w => w.store

def after : Act → Store
  | call x => x.after
  | process u claim w => (u.process claim w).2.store
  | reap u now w => (u.reap now w).2.store
  | turn u w => (u.runOnce w).2.2.store
  | recover now limit w => (Engine.dispatchPending now limit w).2.store

/-- A call that an act is made of: a call itself, the submission of an event that was not dispatched
yet, or the work of a worker. -/
def Makes : Act → Call → Prop
  | call x, y => y = x
  | recover now limit w, y =>
    ∃ e ∈ w.store.tables.undispatched limit, y.operation = .ingest e now
  | _, y => y.operation.IsWork

structure IsMadeOf (a : Act) (calls : List Call) : Prop where
  run : Run a.before calls a.after
  makes : ∀ x ∈ calls, a.Makes x

theorem isMadeOf_call (x : Call) : (call x).IsMadeOf [x] :=
  ⟨.cons (.nil x.after), fun _ hy => List.mem_singleton.mp hy⟩

/-- Every act is made of calls. -/
theorem exists_isMadeOf (a : Act) : ∃ calls, a.IsMadeOf calls := by
  cases a with
  | call x => exact ⟨[x], isMadeOf_call x⟩
  | process u claim w =>
    have hprocess : Engine.Performs Operation.IsRelease (fun _ => True) (u.process claim)
        fun _ => True := u.performs_process trivial
    obtain ⟨⟨calls, hrun, hrelease, -⟩, -⟩ := hprocess w
    exact ⟨calls, hrun, fun x hx => (hrelease x hx).1⟩
  | reap u now w =>
    obtain ⟨⟨calls, hrun, hrelease, -⟩, -⟩ := u.performs_reap (fun _ => True) now w
    exact ⟨calls, hrun, fun x hx => (hrelease x hx).1⟩
  | turn u w =>
    obtain ⟨calls, hrun, hwork, -⟩ := u.run_runOnce (fun _ => True) w
    exact ⟨calls, hrun, hwork⟩
  | recover now limit w =>
    obtain ⟨calls, hrun, hingest, -⟩ := Engine.run_dispatchPending (fun _ => True) now limit w
    refine ⟨calls, hrun, fun x hx => ?_⟩
    obtain ⟨e, he, -, ho⟩ := hingest x hx
    exact ⟨e, he, ho⟩

/-- What all calls that an act is made of keep holds after the act. -/
theorem preserves {a : Act} {I : Store → Prop} (h : I a.before)
    (hc : ∀ x, a.Makes x → I x.before → I x.after) : I a.after := by
  obtain ⟨calls, hcalls⟩ := a.exists_isMadeOf
  exact (hcalls.run.preserves h fun x hx => hc x (hcalls.makes x hx)).1

/-- Only calls of their own can record outcomes otherwise than workers do. -/
theorem Makes.isRegular {a : Act} {x : Call} (h : a.Makes x)
    (regular : ∀ y, a = call y → y.operation.IsRegular) : x.operation.IsRegular := by
  cases a with
  | call y =>
    rw [show x = y from h]
    exact regular y rfl
  | recover now limit w =>
    obtain ⟨e, -, ho⟩ := h
    rw [ho]
    trivial
  | _ => exact Operation.IsWork.regular h

end Act

inductive Acts : Store → List Act → Store → Prop
  | nil (s : Store) : Acts s [] s
  | cons {a : Act} {acts : List Act} {t : Store} (h : Acts a.after acts t) :
      Acts a.before (a :: acts) t

namespace Acts

variable {s t u : Store} {acts more : List Act}

theorem split (h : Acts s (acts ++ more) u) : ∃ t, Acts s acts t ∧ Acts t more u := by
  induction acts generalizing s with
  | nil => exact ⟨s, .nil s, h⟩
  | cons a rest ih =>
    cases h with
    | cons h =>
      obtain ⟨t, ha, hm⟩ := ih h
      exact ⟨t, .cons ha, hm⟩

theorem around {a : Act} (h : Acts s (acts ++ a :: more) u) :
    Acts s acts a.before ∧ Acts a.after more u := by
  obtain ⟨t, hb, ha⟩ := h.split
  cases ha with
  | cons ha => exact ⟨hb, ha⟩

theorem append (h : Acts s acts t) (h' : Acts t more u) : Acts s (acts ++ more) u := by
  induction h with
  | nil => exact h'
  | cons _ ih => exact .cons (ih h')

/-- What every act keeps holds after all of them. -/
theorem preserves {I : Store → Prop} (h : Acts s acts t) (hs : I s)
    (ha : ∀ a ∈ acts, I a.before → I a.after) : I t := by
  induction h with
  | nil => exact hs
  | cons _ ih =>
    rw [List.forall_mem_cons] at ha
    exact ih (ha.1 hs) ha.2

/-- The calls that acts are made of, in their order. -/
theorem run (h : Acts s acts t) :
    ∃ calls, Run s calls t ∧ ∀ x ∈ calls, ∃ a ∈ acts, a.Makes x := by
  induction h with
  | nil s => exact ⟨[], .nil s, by simp⟩
  | @cons a acts _ _ ih =>
    obtain ⟨more, hmore, hmakes⟩ := ih
    obtain ⟨calls, hcalls⟩ := a.exists_isMadeOf
    refine ⟨calls ++ more, hcalls.run.append hmore, fun x hx => ?_⟩
    rcases List.mem_append.mp hx with hx | hx
    · exact ⟨a, List.mem_cons_self, hcalls.makes x hx⟩
    · obtain ⟨b, hb, hx⟩ := hmakes x hx
      exact ⟨b, List.mem_cons_of_mem a hb, hx⟩

theorem reap {u : WorkerUnit} {now : Int} {w v : World} (hv : (u.reap now w).2 = v)
    (h : Acts v.store acts t) : Acts w.store (.reap u now w :: acts) t := by
  subst hv
  exact .cons (a := .reap u now w) h

/-- A run is made of acts that are single calls. -/
theorem of_run {calls : List Call} (h : Run s calls t) : Acts s (calls.map .call) t := by
  induction h with
  | nil s => exact .nil s
  | @cons x _ _ _ ih => exact .cons (a := .call x) ih

end Acts
end WebhookDelivery
