import WebhookDelivery.Store.Transaction
import WebhookDelivery.Text.Quoted

/-!
# WebhookDelivery.Store.Opening

Opening and closing the store. Opening makes the directory of the database and the tables in it; it
fails where something else stands in their place.
-/

namespace WebhookDelivery

/-- What stands where the database is to be. -/
inductive DatabaseSite where
  | free
  | blocked (reason : String)
  | notDatabase
  deriving DecidableEq, Repr

namespace DatabaseSite

/-- Why the database cannot be opened there, if it cannot. -/
def obstacle? : DatabaseSite → Option String
  | free => none
  | blocked reason => some reason
  | notDatabase => some "file is not a database"

/-- The part of a path before its last slash. -/
def parent (path : List Char) : List Char :=
  ((path.reverse.dropWhile (· != '/')).drop 1).reverse

/-- The site of a path, where a database stands in `file` and nothing else is in the way. A file
cannot be a directory. -/
def ofPath (file path : String) : DatabaseSite :=
  let directory := parent path.toList
  let named := fun code what : String =>
    blocked ("[Errno " ++ code ++ "] " ++ what ++ ": " ++
      Text.quoteString (String.ofList directory))
  if path = file then free
  else if directory = file.toList then named "17" "File exists"
  else if (file.toList ++ ['/']).isPrefixOf directory then named "20" "Not a directory"
  else free

end DatabaseSite

namespace Store

/-- Opens the store at a path; one that is open already stays so. -/
def openAt (path : String) (site : DatabaseSite) (s : Store) : Except EngineError Store :=
  if s.isOpen then .ok s
  else match site.obstacle? with
    | none => .ok s.connect
    | some reason => .error (.storeUnavailable ("Cannot open " ++ path ++ ": " ++ reason))

/-- The store can be used. -/
def requireOpen (s : Store) : Except OperationError Unit :=
  if s.isOpen then .ok () else .error .storeClosed

end Store

namespace Engine

variable {α : Type}

/-- Opens the store at a path, runs an operation and closes the store, whatever became of it. -/
def withStore (path : String) (site : DatabaseSite) (body : Engine α) : Engine α := fun w =>
  match w.store.openAt path site with
  | .error e => (.error (.engine e), w)
  | .ok store =>
    let (result, w) := body { w with store := store }
    (result, { w with store := w.store.close })

end Engine
end WebhookDelivery
