import WebhookDelivery.Proofs.Operations

/-!
# WebhookDelivery.Proofs.Locality

Operations for which the rows of other applications make no difference.

* `Tables.ofApplication`: the rows of an application.
* `World.Resembles`: two worlds in which an application has the same rows.
* `IsLocal application draws p body q`: in two such worlds `body` fails with the same error, or gives the
  same value and leaves such worlds again. `p` holds of the data before it and `q` of its value and the
  data after it, on either side, and only what `draws` identifiers needs the same supply of them. The
  rules follow the way operations are put together, and what they ask about a query or a change is
  about one store: that it is the same on the application's rows alone.
-/

namespace WebhookDelivery

/-- The rows of an application. -/
def Tables.ofApplication (t : Tables) (application : Uuid) : Tables :=
  { t with
    events := t.events.filter (·.applicationId == application)
    subscriptions := t.subscriptions.filter (·.applicationId == application)
    attempts := t.attempts.filter (·.applicationId == application)
    responses := t.responses.filter (·.applicationId == application) }

/-- The worlds have like connections and hold the same rows of an application, and what they draw is
the same if anything is drawn. -/
structure World.Resembles (application : Uuid) (draws : Bool) (w v : World) : Prop where
  isOpen : v.store.isOpen = w.store.isOpen
  inTransaction : v.store.inTransaction = w.store.inTransaction
  ids : draws → v.ids = w.ids
  rows : v.store.tables.ofApplication application = w.store.tables.ofApplication application

theorem Tables.keepsReferences_of_dangling {before after : Tables} (h : after.dangling = []) :
    keepsReferences before after := by
  simp [keepsReferences, h]

namespace Engine

variable {α β : Type}

def IsLocal (application : Uuid) (draws : Bool) (p : Data → Prop) (body : Engine α)
    (q : α → Data → Prop) : Prop :=
  ∀ w v, w.Resembles application draws v → p w.data → p v.data →
    (∃ e, (body w).1 = .error e ∧ (body v).1 = .error e) ∨
    ∃ x, (body w).1 = .ok x ∧ (body v).1 = .ok x ∧
      (body w).2.Resembles application draws (body v).2 ∧
      q x (body w).2.data ∧ q x (body v).2.data

namespace IsLocal

variable {application : Uuid} {draws : Bool} {p p' : Data → Prop} {body : Engine α}
  {q q' : α → Data → Prop}

theorem of (h : IsLocal application draws p body q) (hp : ∀ d, p' d → p d) :
    IsLocal application draws p' body q :=
  fun w v hwv hw hv => h w v hwv (hp _ hw) (hp _ hv)

/-- What is known of a body in one world may be used in either. -/
theorem meets {post : Data → α → Data → Prop} (h : IsLocal application draws p body q)
    (hm : Meets body post) (hq : ∀ d x d', p d → q x d' → post d x d' → q' x d') :
    IsLocal application draws p body q' := by
  intro w v hwv hw hv
  rcases h w v hwv hw hv with herror | ⟨x, hx, hx', hr, hqw, hqv⟩
  · exact .inl herror
  · exact .inr ⟨x, hx, hx', hr, hq _ x _ hw hqw ((hm w).2 x hx), hq _ x _ hv hqv ((hm v).2 x hx')⟩

theorem mono (h : IsLocal application draws p body q) (hq : ∀ x d, q x d → q' x d) :
    IsLocal application draws p body q' := by
  intro w v hwv hw hv
  rcases h w v hwv hw hv with herror | ⟨x, hx, hx', hr, hqw, hqv⟩
  · exact .inl herror
  · exact .inr ⟨x, hx, hx', hr, hq x _ hqw, hq x _ hqv⟩

theorem pure (x : α) (h : ∀ d, p d → q x d) : IsLocal application draws p (pure x) q :=
  fun _ _ hwv hw hv => .inr ⟨x, rfl, rfl, hwv, h _ hw, h _ hv⟩

/-- What follows from the condition may be assumed. -/
theorem assume {fact : Prop} (hp : ∀ d, p d → fact) (h : fact → IsLocal application draws p body q) :
    IsLocal application draws p body q :=
  fun w v hwv hw hv => h (hp _ hw) w v hwv hw hv

theorem throw (e : OperationError) : IsLocal application draws p (throw e) q :=
  fun _ _ _ _ _ => .inl ⟨e, rfl, rfl⟩

theorem bind {f : α → Engine β} {r : β → Data → Prop} (h : IsLocal application draws p body q)
    (hf : ∀ x, IsLocal application draws (q x) (f x) r) :
    IsLocal application draws p (body >>= f) r := by
  intro w v hwv hw hv
  have hx := h w v hwv hw hv
  rw [bind_apply, bind_apply]
  cases hbw : body w with
  | mk x w' =>
    cases hbv : body v with
    | mk y v' =>
      rw [hbw, hbv] at hx
      rcases hx with ⟨e, rfl, rfl⟩ | ⟨x, rfl, rfl, hr, hqw, hqv⟩
      · exact .inl ⟨e, rfl, rfl⟩
      · exact hf x w' v' hr hqw hqv

theorem map (f : α → β) (h : IsLocal application draws p body q) {r : β → Data → Prop}
    (hr : ∀ x d, q x d → r (f x) d) : IsLocal application draws p (f <$> body) r := by
  rw [map_eq_pure_bind]
  exact h.bind fun x => .pure (f x) (hr x)

theorem mapM {f : α → Engine β} (hf : ∀ x, IsLocal application draws p (f x) fun _ => p)
    (rows : List α) : IsLocal application draws p (rows.mapM f) fun _ => p := by
  induction rows with
  | nil => exact .pure [] fun _ h => h
  | cons x rest ih =>
    rw [List.mapM_cons]
    exact (hf x).bind fun _ => ih.bind fun _ => .pure _ fun _ h => h

/-- A transaction at the end of which no reference is open ends as its body does. -/
theorem atomically (h : IsLocal application draws p body q)
    (hq : ∀ x d, q x d → d.tables.dangling = []) :
    IsLocal application draws p (atomically body) q := by
  intro w v hwv hw hv
  unfold Engine.atomically
  rw [hwv.isOpen, hwv.inTransaction]
  split
  · exact .inl ⟨_, rfl, rfl⟩
  · split
    · exact h w v hwv hw hv
    · have hb := h { w with store := { w.store with inTransaction := true } }
        { v with store := { v.store with inTransaction := true } }
        ⟨hwv.isOpen, rfl, hwv.ids, hwv.rows⟩ hw hv
      cases hbw : body { w with store := { w.store with inTransaction := true } } with
      | mk x w' =>
        cases hbv : body { v with store := { v.store with inTransaction := true } } with
        | mk y v' =>
          rw [hbw, hbv] at hb
          rcases hb with ⟨e, rfl, rfl⟩ | ⟨x, rfl, rfl, hr, hqw, hqv⟩
          · exact .inl ⟨_, rfl, rfl⟩
          · have hkw : Tables.keepsReferences w.store.tables w'.store.tables :=
              Tables.keepsReferences_of_dangling (hq x _ hqw)
            have hkv : Tables.keepsReferences v.store.tables v'.store.tables :=
              Tables.keepsReferences_of_dangling (hq x _ hqv)
            simp only [settle, hkw, hkv, if_true]
            exact .inr ⟨x, rfl, rfl, ⟨hr.isOpen, rfl, hr.ids, hr.rows⟩, hqw, hqv⟩

end IsLocal

/-! ## Single steps -/

variable {application : Uuid} {draws : Bool} {p : Data → Prop}

theorem isLocal_log (level : LogLevel) (logger event : String) (fields : LogFields) :
    IsLocal application draws p (log level logger event fields) fun _ => p :=
  fun _ _ hwv hw hv =>
    .inr ⟨(), rfl, rfl, ⟨hwv.isOpen, hwv.inTransaction, hwv.ids, hwv.rows⟩, hw, hv⟩

theorem isLocal_ofExcept {ε : Type} (wrap : ε → OperationError) (r : Except ε α) :
    IsLocal application draws p (ofExcept wrap r) fun _ => p := by
  cases r with
  | ok x => exact .pure x fun _ h => h
  | error e => exact .throw _

theorem isLocal_checkInteger (n : Int) : IsLocal application draws p (checkInteger n) fun _ => p := by
  unfold checkInteger
  split
  · exact .pure () fun _ h => h
  · exact .throw _

theorem isLocal_drawId {kind : IdKind} {q : Uuid → Data → Prop}
    (h : ∀ d, p d → q (d.ids.next kind) ⟨d.tables, d.ids.advance kind⟩) :
    IsLocal application true p (drawId kind) q := by
  intro w v hwv hw hv
  have hids : v.ids = w.ids := hwv.ids rfl
  have hq := h v.data hv
  refine .inr ⟨w.ids.next kind, rfl, ?_, ?_, h w.data hw, ?_⟩
  · change Except.ok (v.ids.next kind) = _
    rw [hids]
  · exact ⟨hwv.isOpen, hwv.inTransaction, fun _ => congrArg (·.advance kind) hids, hwv.rows⟩
  · change q (v.ids.next kind) _ at hq
    rw [hids] at hq
    exact hq

theorem isLocal_change {f : Tables → α × Tables} {q : α → Data → Prop}
    (hf : ∀ d, p d → f (d.tables.ofApplication application) =
      ((f d.tables).1, (f d.tables).2.ofApplication application))
    (hq : ∀ d, p d → q (f d.tables).1 ⟨(f d.tables).2, d.ids⟩) :
    IsLocal application draws p (change f) q := by
  intro w v hwv hw hv
  have hown := hf w.data hw
  have hsame := hf v.data hv
  change f (w.store.tables.ofApplication application) = _ at hown
  change f (v.store.tables.ofApplication application) = _ at hsame
  rw [hwv.rows, hown, Prod.mk.injEq] at hsame
  obtain ⟨hvalue, hrows⟩ := hsame
  have hqv := hq v.data hv
  rw [← hvalue] at hqv
  refine .inr ⟨_, rfl, ?_, ⟨hwv.isOpen, hwv.inTransaction, hwv.ids, hrows.symm⟩, hq _ hw, hqv⟩
  exact congrArg Except.ok hvalue.symm

/-- A statement that is accepted. -/
theorem isLocal_statement {f : Tables → Except StatementError (α × Tables)} {q : α → Data → Prop}
    (h : ∀ d, p d → ∃ x t, f d.tables = .ok (x, t) ∧
      f (d.tables.ofApplication application) = .ok (x, t.ofApplication application) ∧
      q x ⟨t, d.ids⟩) : IsLocal application draws p (statement f) q := by
  intro w v hwv hw hv
  obtain ⟨x, t, hx, hown, hqw⟩ := h w.data hw
  obtain ⟨y, u, hy, hown', hqv⟩ := h v.data hv
  change f w.store.tables = _ at hx
  change f v.store.tables = _ at hy
  change f (w.store.tables.ofApplication application) = _ at hown
  change f (v.store.tables.ofApplication application) = _ at hown'
  rw [hwv.rows, hown, Except.ok.injEq, Prod.mk.injEq] at hown'
  obtain ⟨rfl, hrows⟩ := hown'
  rw [statement_apply, statement_apply, hx, hy]
  exact .inr ⟨x, rfl, rfl, ⟨hwv.isOpen, hwv.inTransaction, hwv.ids, hrows.symm⟩, hqw, hqv⟩

theorem isLocal_read {f : Tables → α}
    (hf : ∀ d, p d → f (d.tables.ofApplication application) = f d.tables) :
    IsLocal application draws p (do return f (← tables)) fun _ => p := by
  intro w v hwv hw hv
  have hown := hf w.data hw
  have hsame := hf v.data hv
  change f (w.store.tables.ofApplication application) = _ at hown
  change f (v.store.tables.ofApplication application) = _ at hsame
  rw [hwv.rows, hown] at hsame
  exact .inr ⟨_, rfl, congrArg Except.ok hsame.symm, hwv, hw, hv⟩

theorem isLocal_touch (name : TableName) : IsLocal application draws p (touch name) fun _ => p := by
  intro w v hwv hw hv
  have hlost : v.store.tables.lost = w.store.tables.lost := by
    have hrows := congrArg Tables.lost hwv.rows
    exact hrows
  rw [touch_eq, touch_eq, hlost]
  split
  · exact .inl ⟨_, rfl, rfl⟩
  · exact .inr ⟨(), rfl, rfl, hwv, hw, hv⟩

theorem isLocal_query {name : TableName} {f : Tables → α}
    (hd : ∀ d, p d → d.tables.dangling = [])
    (hf : ∀ d, p d → f (d.tables.ofApplication application) = f d.tables) :
    IsLocal application draws p (atomically do touch name; return f (← tables)) fun _ => p :=
  ((isLocal_touch name).bind fun _ => isLocal_read hf).atomically fun _ => hd

/-- A row that is looked up is read as a record. -/
theorem isLocal_getRow {ε : Type} {name : TableName} {f : Tables → Option α}
    {wrap : ε → OperationError} {read : α → Except ε β} (hd : ∀ d, p d → d.tables.dangling = [])
    (hf : ∀ d, p d → f (d.tables.ofApplication application) = f d.tables) :
    IsLocal application draws p (do
      let row ← atomically do
        touch name
        return f (← tables)
      readRow (fun x => ofExcept wrap (read x)) row) fun _ => p := by
  refine (isLocal_query hd hf).bind fun row => ?_
  cases row with
  | none => exact .pure none fun _ h => h
  | some x => exact (isLocal_ofExcept wrap (read x)).map some fun _ _ h => h

end Engine
end WebhookDelivery
