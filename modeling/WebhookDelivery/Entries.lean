/-!
# WebhookDelivery.Entries

Lists of named values in the order in which the names were first put, one entry a name.

* `get?_put_self`, `get?_put_of_ne`: putting a value changes what its name has and nothing else.
* `map_fst_put`: a new name goes to the end, and a name that is present keeps its place.
-/

namespace WebhookDelivery
namespace Entries

variable {α β : Type} [BEq α]

def get? (entries : List (α × β)) (name : α) : Option β :=
  (entries.find? (·.1 == name)).map (·.2)

def contains (entries : List (α × β)) (name : α) : Bool := entries.any (·.1 == name)

/-- A name that is present keeps its place and takes the new value; a new one goes to the end. -/
def put (entries : List (α × β)) (name : α) (value : β) : List (α × β) :=
  if contains entries name then
    entries.map fun e => if e.1 == name then (e.1, value) else e
  else entries ++ [(name, value)]

@[simp]
theorem get?_nil (name : α) : get? ([] : List (α × β)) name = none := rfl

theorem get?_cons (e : α × β) (entries : List (α × β)) (name : α) :
    get? (e :: entries) name = if e.1 == name then some e.2 else get? entries name := by
  unfold get?
  rw [List.find?_cons]
  cases h : e.1 == name <;> rfl

theorem isSome_get? (entries : List (α × β)) (name : α) :
    (get? entries name).isSome = contains entries name := by
  induction entries with
  | nil => rfl
  | cons e rest ih =>
    rw [get?_cons, contains, List.any_cons, ← contains, ← ih]
    cases h : e.1 == name <;> rfl

theorem get?_put_self [LawfulBEq α] (entries : List (α × β)) (name : α) (value : β) :
    get? (put entries name value) name = some value := by
  unfold put
  split
  · rename_i h
    induction entries with
    | nil => cases h
    | cons e rest ih =>
      rw [List.map_cons, get?_cons]
      cases he : e.1 == name with
      | true => simp [he]
      | false => simpa [he] using ih (by simpa [contains, he] using h)
  · rename_i h
    induction entries with
    | nil => simp [get?_cons]
    | cons e rest ih =>
      have he : (e.1 == name) = false := by
        cases he : e.1 == name with
        | true => simp [contains, he] at h
        | false => rfl
      rw [List.cons_append, get?_cons, he]
      exact ih (by simpa [contains, he] using h)

theorem get?_put_of_ne [LawfulBEq α] {name other : α} (h : name ≠ other) (entries : List (α × β))
    (value : β) : get? (put entries name value) other = get? entries other := by
  have hn : (name == other) = false := beq_eq_false_iff_ne.2 h
  unfold put
  split
  · rename_i hc
    clear hc
    induction entries with
    | nil => rfl
    | cons e rest ih =>
      rw [List.map_cons, get?_cons, get?_cons, ih]
      cases he : e.1 == name with
      | true =>
        have : (e.1 == other) = false := by rw [eq_of_beq he, hn]
        simp [this]
      | false => rfl
  · rename_i hc
    clear hc
    induction entries with
    | nil => simp [get?_cons, hn]
    | cons e rest ih => rw [List.cons_append, get?_cons, get?_cons, ih]

theorem map_fst_put (entries : List (α × β)) (name : α) (value : β) :
    (put entries name value).map (·.1) =
      if contains entries name then entries.map (·.1) else entries.map (·.1) ++ [name] := by
  unfold put
  split
  · rw [List.map_map]
    exact List.map_congr_left fun e _ => by
      simp only [Function.comp]
      split <;> rfl
  · simp

def ofList (items : List (α × β)) : List (α × β) :=
  items.foldl (fun entries e => put entries e.1 e.2) []

/-- Puts an entry before the first of a greater name. -/
def insertSorted (name : String) (value : β) : List (String × β) → List (String × β)
  | [] => [(name, value)]
  | e :: rest => if e.1 < name then e :: insertSorted name value rest else (name, value) :: e :: rest

/-- The entries in increasing order of their names. -/
def sort (entries : List (String × β)) : List (String × β) :=
  entries.foldr (fun e sorted => insertSorted e.1 e.2 sorted) []

end Entries
end WebhookDelivery
