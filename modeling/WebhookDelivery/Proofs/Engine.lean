import WebhookDelivery.Store.Deliveries

/-!
# WebhookDelivery.Proofs.Engine

What an operation of the engine does to the store, told by what its parts do.

* `Meets body post`: `body` keeps the connection as it is, and where it succeeds its value and the
  data before and after it are related by `post`. The rules follow the way operations are put
  together; `Meets.atomically` says that a transaction does what its body does.
* `Reverts body`: where `body` fails outside a transaction, it leaves the tables as they were.
* `Succeeds body`: `body` never fails.
* `Keeps body`: `body` leaves the store alone, whether or not it succeeds.
* `atomically_apply` and the lemmas beside it compute what single parts give.
-/

namespace WebhookDelivery

/-- Two stores behind one connection, which differ at most in their tables. -/
structure Store.SameConnection (s t : Store) : Prop where
  isOpen : t.isOpen = s.isOpen
  onFile : t.onFile = s.onFile
  inTransaction : t.inTransaction = s.inTransaction

theorem Store.SameConnection.refl (s : Store) : s.SameConnection s := ⟨rfl, rfl, rfl⟩

theorem Store.SameConnection.trans {s t u : Store} (h : s.SameConnection t)
    (h' : t.SameConnection u) : s.SameConnection u :=
  ⟨h'.isOpen.trans h.isOpen, h'.onFile.trans h.onFile, h'.inTransaction.trans h.inTransaction⟩

theorem Tables.keepsReferences_self (t : Tables) : keepsReferences t t := by
  simp [keepsReferences]

/-- The part of a world that the store's operations read and write. -/
@[ext]
structure Data where
  tables : Tables
  ids : IdSupply

def World.data (w : World) : Data := ⟨w.store.tables, w.ids⟩

namespace Engine

variable {α β : Type}

theorem bind_apply (x : Engine α) (f : α → Engine β) (w : World) :
    (x >>= f) w = match x w with
      | (.ok a, w') => f a w'
      | (.error e, w') => (.error e, w') := by
  show (ExceptT.bind x f) w = _
  simp only [ExceptT.bind, ExceptT.mk, bind, StateT.bind, ExceptT.bindCont]
  cases h : x w with
  | mk r w' =>
    cases r with
    | ok a => rfl
    | error e => rfl

theorem map_apply (f : α → β) (x : Engine α) (w : World) :
    (f <$> x) w = match x w with
      | (.ok a, w') => (.ok (f a), w')
      | (.error e, w') => (.error e, w') := by
  rw [map_eq_pure_bind, bind_apply]
  cases x w with
  | mk r w' => cases r <;> rfl

def Meets (body : Engine α) (post : Data → α → Data → Prop) : Prop :=
  ∀ w, w.store.SameConnection (body w).2.store ∧
    ∀ x, (body w).1 = .ok x → post w.data x (body w).2.data

namespace Meets

variable {body : Engine α} {post post' : Data → α → Data → Prop}

theorem mono (h : Meets body post) (hp : ∀ d x d', post d x d' → post' d x d') :
    Meets body post' :=
  fun w => ⟨(h w).1, fun x hx => hp _ _ _ ((h w).2 x hx)⟩

theorem pure (a : α) : Meets (pure a) fun d x d' => x = a ∧ d' = d :=
  fun _ => ⟨.refl _, fun x hx => by cases hx; exact ⟨rfl, rfl⟩⟩

theorem throw (e : OperationError) (post : Data → α → Data → Prop) : Meets (throw e) post :=
  fun _ => ⟨.refl _, fun x hx => by cases hx⟩

theorem bind {x : Engine α} {f : α → Engine β} {p : Data → α → Data → Prop}
    {q : α → Data → β → Data → Prop} (hx : Meets x p) (hf : ∀ a, Meets (f a) (q a)) :
    Meets (x >>= f) fun d b d' => ∃ a d₁, p d a d₁ ∧ q a d₁ b d' := by
  intro w
  obtain ⟨hc, hp⟩ := hx w
  rw [bind_apply]
  cases hr : x w with
  | mk r v =>
    rw [hr] at hc hp
    cases r with
    | error e => exact ⟨hc, fun b hb => by cases hb⟩
    | ok a =>
      obtain ⟨hc', hq⟩ := hf a v
      exact ⟨hc.trans hc', fun b hb => ⟨a, v.data, hp a rfl, hq b hb⟩⟩

theorem map (f : α → β) (h : Meets body post) :
    Meets (f <$> body) fun d b d' => ∃ x, post d x d' ∧ b = f x := by
  rw [map_eq_pure_bind]
  refine (h.bind fun a => .pure (f a)).mono ?_
  rintro d b d' ⟨a, _, ha, rfl, rfl⟩
  exact ⟨a, ha, rfl⟩

/-- A transaction that succeeds has done what its body did. -/
theorem atomically (h : Meets body post) : Meets (atomically body) post := by
  intro w
  unfold Engine.atomically
  split
  · exact ⟨.refl _, fun x hx => by cases hx⟩
  · split
    · exact h w
    · rename_i _ ht
      have hf : w.store.inTransaction = false := by simpa using ht
      obtain ⟨hc, hp⟩ := h { w with store := { w.store with inTransaction := true } }
      cases hr : body { w with store := { w.store with inTransaction := true } } with
      | mk r v =>
        rw [hr] at hc hp
        have hc' : w.store.SameConnection { v.store with inTransaction := false } :=
          ⟨hc.isOpen, hc.onFile, hf.symm⟩
        cases r with
        | error e => exact ⟨⟨hc'.isOpen, hc'.onFile, hc'.inTransaction⟩, fun x hx => by cases hx⟩
        | ok a =>
          by_cases hk : Tables.keepsReferences w.store.tables v.store.tables
          · simp only [settle, hk, if_true]
            exact ⟨hc', fun x hx => by cases hx; exact hp a rfl⟩
          · simp only [settle, hk]
            exact ⟨⟨hc'.isOpen, hc'.onFile, hc'.inTransaction⟩, fun x hx => by cases hx⟩

end Meets

/-! ## Failure -/

/-- Where `body` fails outside a transaction, the tables are as they were. -/
def Reverts (body : Engine α) : Prop :=
  ∀ w, w.store.inTransaction = false → ∀ e, (body w).1 = .error e →
    (body w).2.store.tables = w.store.tables

def Succeeds (body : Engine α) : Prop := ∀ w, ∃ x, (body w).1 = .ok x

theorem succeeds_pure (a : α) : Succeeds (pure a) := fun _ => ⟨a, rfl⟩

theorem succeeds_log (level : LogLevel) (logger event : String) (fields : LogFields) :
    Succeeds (log level logger event fields) := fun _ => ⟨(), rfl⟩

theorem Succeeds.bind {x : Engine α} {f : α → Engine β} (hx : Succeeds x)
    (hf : ∀ a, Succeeds (f a)) : Succeeds (x >>= f) := by
  intro w
  obtain ⟨a, ha⟩ := hx w
  rw [bind_apply]
  cases hr : x w with
  | mk r v =>
    rw [hr] at ha
    dsimp only at ha
    subst ha
    exact hf a v

namespace Reverts

variable {body : Engine α}

theorem throw (e : OperationError) : Reverts (throw e : Engine α) := fun _ _ _ _ => rfl

/-- What follows a transaction must not fail. -/
theorem bind {f : α → Engine β} (h : Reverts body) (hf : ∀ a, Succeeds (f a)) :
    Reverts (body >>= f) := by
  intro w ht e he
  have hv := h w ht
  rw [bind_apply] at he ⊢
  cases hr : body w with
  | mk r v =>
    rw [hr] at he hv
    cases r with
    | error e' => exact hv e' rfl
    | ok a =>
      obtain ⟨b, hb⟩ := hf a v
      rw [hb] at he
      cases he

theorem map (f : α → β) (h : Reverts body) : Reverts (f <$> body) := by
  rw [map_eq_pure_bind]
  exact h.bind fun a => succeeds_pure (f a)

theorem atomically (body : Engine α) : Reverts (atomically body) := by
  intro w ht e he
  unfold Engine.atomically at he ⊢
  split
  · rfl
  · rename_i ho
    rw [if_neg ho] at he
    simp only [ht, Bool.false_eq_true, if_false] at he ⊢
    cases hr : body { w with store := { w.store with inTransaction := true } } with
    | mk r v =>
      rw [hr] at he
      cases r with
      | error e => rfl
      | ok a =>
        rw [settle_ok_tables]
        split
        · rename_i hk
          simp [settle, hk] at he
        · rfl

end Reverts

/-! ## Leaving the store alone -/

def Keeps (body : Engine α) : Prop := ∀ w, (body w).2.store = w.store

namespace Keeps

variable {body : Engine α}

theorem pure (a : α) : Keeps (pure a) := fun _ => rfl

theorem throw (e : OperationError) : Keeps (throw e : Engine α) := fun _ => rfl

theorem bind {f : α → Engine β} (h : Keeps body) (hf : ∀ a, Keeps (f a)) : Keeps (body >>= f) := by
  intro w
  have hw := h w
  rw [bind_apply]
  cases hr : body w with
  | mk r v =>
    rw [hr] at hw
    cases r with
    | error e => exact hw
    | ok a => exact (hf a v).trans hw

theorem map (f : α → β) (h : Keeps body) : Keeps (f <$> body) := by
  rw [map_eq_pure_bind]
  exact h.bind fun a => .pure (f a)

theorem mapM {f : α → Engine β} (hf : ∀ a, Keeps (f a)) (rows : List α) : Keeps (rows.mapM f) := by
  induction rows with
  | nil => exact .pure []
  | cons a rest ih =>
    rw [List.mapM_cons]
    exact (hf a).bind fun _ => ih.bind fun _ => .pure _

theorem atomically (h : Keeps body) : Keeps (atomically body) := by
  intro w
  unfold Engine.atomically
  split
  · rfl
  · split
    · exact h w
    · rename_i _ ht
      rw [Bool.not_eq_true] at ht
      have hb := h { w with store := { w.store with inTransaction := true } }
      have hw : { w.store with inTransaction := false } = w.store := by rw [← ht]
      cases hr : body { w with store := { w.store with inTransaction := true } } with
      | mk r v =>
        rw [hr] at hb
        dsimp only at hb ⊢
        have hk : { v.store with inTransaction := false } = w.store := by
          rw [hb]
          exact hw
        have hd : { v.store with tables := w.store.tables, inTransaction := false } = w.store := by
          rw [hb]
          exact hw
        unfold settle
        split
        · exact hd
        · split
          · exact hk
          · exact hd

end Keeps

theorem keeps_tables : Keeps tables := fun _ => rfl

theorem keeps_log (level : LogLevel) (logger event : String) (fields : LogFields) :
    Keeps (log level logger event fields) := fun _ => rfl

theorem keeps_ofExcept {ε : Type} (wrap : ε → OperationError) (r : Except ε α) :
    Keeps (ofExcept wrap r) := by
  cases r with
  | ok a => exact .pure a
  | error e => exact .throw _

theorem keeps_touch (name : TableName) : Keeps (touch name) := by
  refine keeps_tables.bind fun t => ?_
  split
  · exact .throw _
  · exact .pure ()

theorem keeps_checkInteger (n : Int) : Keeps (checkInteger n) := by
  unfold checkInteger
  split
  · exact .pure ()
  · exact .throw _

/-! ## The parts of which operations are made -/

theorem meets_tables : Meets tables fun d t d' => t = d.tables ∧ d' = d :=
  fun _ => ⟨.refl _, fun x hx => by cases hx; exact ⟨rfl, rfl⟩⟩

theorem meets_log (level : LogLevel) (logger event : String) (fields : LogFields) :
    Meets (log level logger event fields) fun d _ d' => d' = d :=
  fun _ => ⟨.refl _, fun x hx => by cases hx; rfl⟩

theorem meets_drawId (kind : IdKind) :
    Meets (drawId kind) fun d id d' => id = d.ids.next kind ∧ d' = ⟨d.tables, d.ids.advance kind⟩ :=
  fun _ => ⟨.refl _, fun x hx => by cases hx; exact ⟨rfl, rfl⟩⟩

theorem meets_change (f : Tables → α × Tables) :
    Meets (change f) fun d x d' => (x, d'.tables) = f d.tables ∧ d'.ids = d.ids :=
  fun _ => ⟨⟨rfl, rfl, rfl⟩, fun x hx => by cases hx; exact ⟨rfl, rfl⟩⟩

theorem meets_touch (name : TableName) : Meets (touch name) fun d _ d' => d' = d := by
  unfold touch
  refine (meets_tables.bind (q := fun _ d _ d' => d' = d) fun t => ?_).mono ?_
  · split
    · exact .throw _ _
    · exact (Meets.pure ()).mono fun _ _ _ h => h.2
  · rintro d x d' ⟨t, _, ⟨-, rfl⟩, h⟩
    exact h

theorem meets_checkInteger (n : Int) : Meets (checkInteger n) fun d _ d' => d' = d := by
  unfold checkInteger
  split
  · exact (Meets.pure ()).mono fun _ _ _ h => h.2
  · exact .throw _ _

theorem statement_apply (f : Tables → Except StatementError (α × Tables)) (w : World) :
    statement f w = match f w.store.tables with
      | .ok (x, t) => (.ok x, { w with store := { w.store with tables := t } })
      | .error e => (.error (.statement e), w) := by
  have ht : tables w = (.ok w.store.tables, w) := rfl
  unfold statement
  rw [bind_apply, ht]
  dsimp only
  cases f w.store.tables <;> rfl

theorem meets_statement (f : Tables → Except StatementError (α × Tables)) :
    Meets (statement f) fun d x d' => f d.tables = .ok (x, d'.tables) ∧ d'.ids = d.ids := by
  intro w
  rw [statement_apply]
  cases hf : f w.store.tables with
  | error e => exact ⟨.refl _, fun x hx => by cases hx⟩
  | ok p => exact ⟨⟨rfl, rfl, rfl⟩, fun x hx => by cases hx; exact ⟨hf, rfl⟩⟩

theorem meets_ofExcept {ε : Type} (wrap : ε → OperationError) (r : Except ε α) :
    Meets (ofExcept wrap r) fun d x d' => r = .ok x ∧ d' = d := by
  cases r with
  | ok a => exact (Meets.pure a).mono fun _ _ _ h => ⟨by rw [h.1], h.2⟩
  | error e => exact .throw _ _

/-! ## Results -/

/-- A transaction whose body succeeds succeeds, if no reference is broken at its end. -/
theorem atomically_apply {body : Engine α} {w v : World} {x : α} (ho : w.store.isOpen = true)
    (ht : w.store.inTransaction = false)
    (hb : body { w with store := { w.store with inTransaction := true } } = (.ok x, v))
    (hk : Tables.keepsReferences w.store.tables v.store.tables) :
    atomically body w = (.ok x, { v with store := { v.store with inTransaction := false } }) := by
  unfold atomically
  rw [if_neg (by simp [ho]), if_neg (by simp [ht]), hb]
  simp only [settle, hk, if_true]

theorem touch_eq (name : TableName) (w : World) : touch name w =
    if w.store.tables.lost.contains name then (.error (.statement (.missingTable name)), w)
    else (.ok (), w) := by
  have ht : tables w = (.ok w.store.tables, w) := rfl
  unfold touch
  rw [bind_apply, ht]
  dsimp only
  split <;> rfl

theorem touch_apply {w : World} (h : w.store.tables.lost = []) (name : TableName) :
    touch name w = (.ok (), w) := by
  rw [touch_eq, h]
  rfl

theorem change_apply (f : Tables → α × Tables) (w : World) :
    change f w = (.ok (f w.store.tables).1,
      { w with store := { w.store with tables := (f w.store.tables).2 } }) := rfl

end Engine
end WebhookDelivery
