import TeoDB.Api.Ddl

/-!
# The world of a DDL request

What the authorizer, the catalog, the object store and the log answer, and what the
answers change. A call can fail, and a call that fails may have taken effect.

## Implementation notes

Every creation of a table is an incarnation with a number of its own. Objects know which
incarnation of which table wrote them. `purge` is the last purge: the table and the incarnation
that its request dropped, and the paths that it listed.
-/

namespace TeoDB.Api

open TeoDB.Core Lib Query Storage Storage.Wal

structure Table where
  incarnation : Nat
  location : ObjectLocation
  schema : SchemaDefinition

structure StoredObject where
  path : String
  owner : TableIdent
  incarnation : Nat
deriving DecidableEq

/-- What happened to a table. A tombstone is appended, or its append failed. -/
inductive Mark where
  | created (ident : TableIdent)
  | dropped (ident : TableIdent)
  | bufferRemoved (ident : TableIdent)
  | receiptsEvicted (ident : TableIdent)
  | tombstone (ident : TableIdent) (written : Bool)
deriving DecidableEq

structure Purge where
  ident : TableIdent
  incarnation : Nat
  listed : List String
deriving DecidableEq

structure World where
  catalog : TableIdent → Option Table
  born : Nat
  objects : List StoredObject
  buffers : List TableIdent
  receipts : List (TableIdent × String)
  history : List Mark
  purge : Purge
  deleted : List (Purge × StoredObject)

/-- What stays fixed: the policy, and the bucket whose backend is registered. -/
structure Site where
  policy : Action → Resource → Bool
  scheme : StorageScheme
  bucket : String

/-- How a call ends. A failure says whether the call took effect. -/
inductive Choice where
  | succeed
  | fail (error : TeoDBError) (applied : Bool)
  | namespaces (names : List String)
  | tables (idents : List TableIdent)

namespace World

/-- Note an event in the history. -/
def mark (w : World) (m : Mark) : World := { w with history := w.history ++ [m] }

/-- Create a table unless the name is taken. -/
def create (w : World) (request : CreateTableRequest) : World :=
  match w.catalog request.ident with
  | some _ => w
  | none =>
    { w with
      catalog := Function.update w.catalog request.ident
        (some ⟨w.born, request.location, request.schema⟩)
      born := w.born + 1 }.mark (.created request.ident)

/-- Drop a table if there is one. What follows may purge it. -/
def drop (w : World) (ident : TableIdent) : World :=
  match w.catalog ident with
  | none => w
  | some table =>
    { w with
      catalog := Function.update w.catalog ident none
      purge := ⟨ident, table.incarnation, []⟩ }.mark (.dropped ident)

def pathsUnder (w : World) (listPrefix : String) : List String :=
  (w.objects.map StoredObject.path).filter fun path => listPrefix.toList.isPrefixOf path.toList

def recordListing (w : World) (listPrefix : String) : World :=
  { w with purge := { w.purge with listed := w.pathsUnder listPrefix } }

def deleteObject (w : World) (path : String) : World :=
  { w with
    objects := w.objects.filter fun object => object.path ≠ path
    deleted := w.deleted ++
      (w.objects.filter fun object => object.path = path).map fun object => (w.purge, object) }

def services : Services World where
  removeBuffer ident w :=
    { w with buffers := w.buffers.filter (· ≠ ident) }.mark (.bufferRemoved ident)
  evictTable ident w :=
    { w with receipts := w.receipts.filter fun receipt => receipt.1 ≠ ident }.mark
      (.receiptsEvicted ident)
  tables := buffers

end World

/-- The root path of a location in the registered backend. -/
def Site.resolve (site : Site) (location : ObjectLocation) : TeoDBResult String :=
  if site.scheme = location.scheme ∧ site.bucket = location.bucket.getD "" then .ok location.key
  else .error (.config "no storage backend registered")

/-- The answer of a call that succeeds, and the world after it. -/
def Site.succeed (site : Site) (w : World) : (c : Call) → Option (Answer c × World)
  | .authorize action resource =>
    some (if site.policy action resource then .ok () else .error (.forbidden "denied"), w)
  | .createNamespace _ => some (.ok (), w)
  | .createTable request =>
    match w.catalog request.ident with
    | some _ => some (.error (.alreadyExists s!"table {request.ident}"), w)
    | none => some (.ok (), w.create request)
  | .loadTable ident =>
    match w.catalog ident with
    | some table => some (.ok ⟨table.location, .ok table.schema⟩, w)
    | none => some (.error (.notFound s!"table {ident}"), w)
  | .dropTable ident =>
    match w.catalog ident with
    | some _ => some (.ok (), w.drop ident)
    | none => some (.error (.notFound s!"table {ident}"), w)
  | .dropNamespace _ => some (.ok (), w)
  | .resolve location => some (site.resolve location, w)
  | .list listPrefix => some (.ok (w.pathsUnder listPrefix), w.recordListing listPrefix)
  | .delete path => some (.ok (), w.deleteObject path)
  | .appendDropTombstone ident => some (.ok (), w.mark (.tombstone ident true))
  | .runQuery _ => some (.ok 0, w)
  | .listNamespaces => none
  | .listTables _ => none

variable (w : World)

/-- The world after a call that failed. -/
def World.afterFailure (applied : Bool) : Call → World
  | .createTable request => if applied then w.create request else w
  | .dropTable ident => if applied then w.drop ident else w
  | .delete path => if applied then w.deleteObject path else w
  | .appendDropTombstone ident => w.mark (.tombstone ident applied)
  | _ => w

def Site.answer (site : Site) : Choice → World → (c : Call) → Option (Answer c × World)
  | .succeed, w, c => site.succeed w c
  | .fail error applied, w, c => some (.error error, w.afterFailure applied c)
  | .namespaces names, w, .listNamespaces => some (.ok names, w)
  | .tables idents, w, .listTables _ => some (.ok idents, w)
  | _, _, _ => none

/-- The world after a call that its request does not wait for any more. -/
def World.afterAbandon (applied : Bool) : Call → World
  | .appendDropTombstone ident => if applied then w.mark (.tombstone ident true) else w
  | c => w.afterFailure applied c

/-- What other requests leave of the shared state. -/
structure Others where
  catalog : TableIdent → Option Table
  born : Nat
  objects : List StoredObject
  buffers : List TableIdent
  receipts : List (TableIdent × String)

def World.interfere (others : Others) : World :=
  { w with
    catalog := others.catalog
    born := others.born
    objects := others.objects
    buffers := others.buffers
    receipts := others.receipts }

/-- What others decide while a request runs. -/
inductive WorldChoice where
  | answer (choice : Choice)
  | abandon (applied : Bool)
  | others (others : Others)

/-- The requests that can carry DDL. -/
inductive Request where
  | createTable (ns : String) (body : CreateTableRestRequest)
  | dropTable (ident : TableIdent) (purge : Bool)
  | querySql (sql : String)
  | statementUpdate (sql : String)

/-- What the handlers share. -/
structure Frontend (T : Type) where
  parser : Parser T
  warehouse : String

def Request.program {T : Type} (frontend : Frontend T) : Request → Prog World Unit
  | .createTable ns body =>
    restCreateTable World.services frontend.parser.toTexts frontend.warehouse ns body
  | .dropTable ident purge => restDropTable World.services ident purge
  | .querySql sql => Api.querySql World.services frontend.parser frontend.warehouse sql
  | .statementUpdate sql =>
    executeStatementUpdate World.services frontend.parser frontend.warehouse sql

/-- A node that serves requests one after the other, while others change the shared state. -/
def Site.host {P T : Type} (site : Site) (frontend : Frontend T) (requestOf : P → Request) :
    Host io World TeoDBError P WorldChoice where
  start w := w.history = [] ∧ w.deleted = [] ∧ w.purge.listed = []
  program p := (requestOf p).program frontend
  answer choice w c :=
    match choice with
    | .answer choice => site.answer choice w c
    | _ => none
  abandon choice w c :=
    match choice with
    | .abandon applied => some (w.afterAbandon applied c)
    | _ => none
  interfere choice w :=
    match choice with
    | .others others => some (w.interfere others)
    | _ => none

lemma World.create_history (req : CreateTableRequest) : (w.create req).history = w.history ∨
      (w.create req).history = w.history ++ [.created req.ident] := by
  unfold World.create
  split
  · exact Or.inl rfl
  · exact Or.inr rfl

lemma World.drop_history (ident : TableIdent) : (w.drop ident).history = w.history ∨
      (w.drop ident).history = w.history ++ [.dropped ident] := by
  unfold World.drop
  split
  · exact Or.inl rfl
  · exact Or.inr rfl

/-- The mark that a call can leave. -/
def Call.leaves : Call → Mark → Prop
  | .createTable request, .created ident => ident = request.ident
  | .dropTable other, .dropped ident => ident = other
  | .appendDropTombstone other, .tombstone ident _ => ident = other
  | _, _ => False

/-- An answer leaves the history, or adds the mark of its call. -/
def Recorded (c : Call) (w w' : World) : Prop :=
  w'.history = w.history ∨ ∃ m, c.leaves m ∧ w'.history = w.history ++ [m]

lemma recorded_create (req : CreateTableRequest) : Recorded (.createTable req) w (w.create req) :=
  (w.create_history req).imp_right fun h => ⟨.created req.ident, rfl, h⟩

lemma recorded_drop (ident : TableIdent) : Recorded (.dropTable ident) w (w.drop ident) :=
  (w.drop_history ident).imp_right fun h => ⟨.dropped ident, rfl, h⟩

lemma recorded_succeed {site : Site} {w w' : World} {c : Call} {a : Answer c}
    (h : site.succeed w c = some (a, w')) : Recorded c w w' := by
  cases c with
  | createTable req =>
    simp only [Site.succeed] at h
    split at h
    · cases h
      exact Or.inl rfl
    · cases h
      exact recorded_create w req
  | dropTable ident =>
    simp only [Site.succeed] at h
    split at h
    · cases h
      exact recorded_drop w ident
    · cases h
      exact Or.inl rfl
  | loadTable ident =>
    simp only [Site.succeed] at h
    split at h
    · cases h
      exact Or.inl rfl
    · cases h
      exact Or.inl rfl
  | appendDropTombstone ident =>
    cases h
    exact Or.inr ⟨.tombstone ident true, rfl, rfl⟩
  | listNamespaces | listTables ns => cases h
  | _ =>
    cases h
    exact Or.inl rfl

lemma recorded_afterFailure (ap : Bool) (c : Call) : Recorded c w (w.afterFailure ap c) := by
  cases c with
  | createTable req =>
    cases ap with
    | true => exact recorded_create w req
    | false => exact Or.inl rfl
  | dropTable ident =>
    cases ap with
    | true => exact recorded_drop w ident
    | false => exact Or.inl rfl
  | delete path => cases ap <;> exact Or.inl rfl
  | appendDropTombstone ident => exact Or.inr ⟨.tombstone ident ap, rfl, rfl⟩
  | _ => exact Or.inl rfl

lemma recorded_answer {site : Site} {ch : Choice} {w w' : World} {c : Call} {a : Answer c}
    (h : site.answer ch w c = some (a, w')) : Recorded c w w' := by
  cases ch with
  | succeed => exact recorded_succeed h
  | fail error ap =>
    cases h
    exact recorded_afterFailure w ap c
  | namespaces names =>
    cases c with
    | listNamespaces =>
      cases h
      exact Or.inl rfl
    | _ => cases h
  | tables idents =>
    cases c with
    | listTables ns =>
      cases h
      exact Or.inl rfl
    | _ => cases h

end TeoDB.Api
