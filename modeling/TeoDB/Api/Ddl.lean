import TeoDB.Api.TableLocation
import TeoDB.Lib.Async

/-!
# DDL requests

The programs that serve DDL: the executor of SQL plans, the SQL router of REST and Flight, the
effects on buffers and log after a statement, and the REST endpoints for tables.

## Implementation notes

The shared state is a parameter with the operations that the programs use. Responses are left out:
a handler ends with the rows it reports or with the error that it maps to a status.
-/

namespace TeoDB.Api

open TeoDB.Core Lib Query Storage

inductive Action where
  | createTable
  | dropTable
  | alterTable
  | ingest
  | query
  | compact
  | admin
deriving DecidableEq

inductive Resource where
  | cluster
  | nameSpace (ns : String)
  | table (ident : TableIdent)
deriving DecidableEq

structure CreateTableRequest where
  ident : TableIdent
  schema : SchemaDefinition
  partitionSpec : UnboundPartitionSpec
  location : ObjectLocation
  properties : Properties

/-- What the programs read of a loaded table. -/
structure LoadedTable where
  tableLocation : ObjectLocation
  currentSchema : TeoDBResult SchemaDefinition

inductive Call where
  | authorize (action : Action) (resource : Resource)
  | createNamespace (ns : String)
  | createTable (request : CreateTableRequest)
  | loadTable (ident : TableIdent)
  | dropTable (ident : TableIdent)
  | dropNamespace (ns : String)
  | listNamespaces
  | listTables (ns : String)
  | resolve (location : ObjectLocation)
  | list (listPrefix : String)
  | delete (path : String)
  | appendDropTombstone (ident : TableIdent)
  | runQuery (sql : String)

/-- What a call returns if it succeeds. A resolved location is the path of its root in the
store. -/
@[reducible] def Payload : Call → Type
  | .loadTable _ => LoadedTable
  | .listNamespaces => List String
  | .listTables _ => List TableIdent
  | .resolve _ => String
  | .list _ => List String
  | .runQuery _ => Nat
  | _ => Unit

@[reducible] def Answer (c : Call) : Type := TeoDBResult (Payload c)

/-- The atomic actions on the registry of buffers and on the idempotency index. -/
inductive Effect where
  | removeBuffer (ident : TableIdent)
  | evictTable (ident : TableIdent)
  | tables

@[reducible] def io : Interface := ⟨Effect, Call, Answer⟩

abbrev Prog (S α : Type) := Async io S TeoDBError α

/-- What the programs do to the shared state. -/
structure Services (S : Type) where
  removeBuffer : TableIdent → S → S
  evictTable : TableIdent → S → S
  tables : S → List TableIdent

section

variable {S T : Type}

/-- Wait for the answer of a call, which may be an error. -/
def call (c : Call) : Prog S (Answer c) := Async.request (I := io) c

/-- Wait for an answer and stop at an error. -/
def await (c : Call) : Prog S (Payload c) := do
  let answer ← call c
  Async.lift answer

namespace Services

variable (services : Services S)

def remove (ident : TableIdent) : Prog S Unit :=
  Async.perform (I := io) (.removeBuffer ident) fun s => (.ok (), services.removeBuffer ident s)

def evict (ident : TableIdent) : Prog S Unit :=
  Async.perform (I := io) (.evictTable ident) fun s => (.ok (), services.evictTable ident s)

def bufferTables : Prog S (List TableIdent) :=
  Async.perform (I := io) .tables fun s => (.ok (services.tables s), s)

end Services

/-- A row of `SHOW TABLES` or of `DESCRIBE`. -/
inductive DdlRow where
  | table (ident : TableIdent)
  | column (column : ColumnMeta)
deriving DecidableEq

structure DdlResult where
  status : String
  rows : List DdlRow
  changed : Bool
deriving DecidableEq

namespace DdlResult

def change (status : String) : DdlResult := ⟨status, [], true⟩

def unchanged (status : String) : DdlResult := ⟨status, [], false⟩

def withRows (status : String) (rows : List DdlRow) : DdlResult := ⟨status, rows, false⟩

end DdlResult

def partitionFieldSpecs (fields : List PartitionFieldDef) : List PartitionFieldSpec :=
  fields.map fun field => .new field.columnName field.transform

/-- The request that a plan makes, or the error of its partition fields. -/
def createTableRequest (warehouse : String) (plan : CreateTablePlan) :
    TeoDBResult CreateTableRequest :=
  let schema : SchemaDefinition := ⟨0, plan.columns, []⟩
  (PartitionSpecBuilder.build schema (partitionFieldSpecs plan.partitionBy)).map fun spec =>
    ⟨plan.ident, schema, spec, DdlExecutor.tableLocation warehouse plan.ident, OrdMap.empty⟩

def ensureNamespace (ns : String) : Prog S Unit := do
  match ← call (.createNamespace ns) with
  | .ok () => pure ()
  | .error (.alreadyExists _) => pure ()
  | .error error => Async.throw error

namespace DdlExecutor

/-- Create the table of a plan in its namespace. -/
def createTable (warehouse : String) (plan : CreateTablePlan) : Prog S DdlResult := do
  ensureNamespace plan.nameSpace
  let request ← Async.lift (createTableRequest warehouse plan)
  match ← call (.createTable request) with
  | .ok () => pure (.change s!"Table {plan.nameSpace}.{plan.tableName} created")
  | .error error =>
    match plan.ifNotExists, error with
    | true, .alreadyExists _ =>
      pure (.unchanged s!"Table {plan.nameSpace}.{plan.tableName} already exists")
    | _, error => Async.throw error

def createSchema (plan : CreateSchemaPlan) : Prog S DdlResult := do
  match ← call (.createNamespace plan.nameSpace) with
  | .ok () => pure (.change s!"Schema {plan.nameSpace} created")
  | .error error =>
    match plan.ifNotExists, error with
    | true, .alreadyExists _ => pure (.unchanged s!"Schema {plan.nameSpace} already exists")
    | _, error => Async.throw error

end DdlExecutor

/-- The listing prefix of a table, which must not be the whole store. -/
def tablePrefixPath (rootPath : String) : TeoDBResult String :=
  match ((rootPath.toList.dropWhile (· = '/')).reverse.dropWhile (· = '/')).reverse with
  | [] => .error (.config "table location must include a non-empty object prefix before purge")
  | key => .ok (String.ofList key ++ "/")

/-- Delete every object under a table location, one by one. -/
def purgeTableStorage (tableLocation : String) : Prog S Unit := do
  let location ← Async.lift
    ((ObjectLocation.parse tableLocation).mapError fun error => TeoDBError.catalog error.text)
  let rootPath ← await (.resolve location)
  let listPrefix ← Async.lift (tablePrefixPath rootPath)
  let objects ← await (.list listPrefix)
  Async.each (fun path => await (.delete path)) objects

/-- Purge a location, if there is one. -/
def purgeIfAny : Option String → Prog S Unit
  | some location => purgeTableStorage location
  | none => pure ()

namespace DdlExecutor

def missing (ident : TableIdent) : DdlResult :=
  .unchanged s!"Table {ident.nameSpace}.{ident.name} does not exist (IF EXISTS)"

/-- The location to purge, or the end of a statement without a table. -/
def purgeLocation (plan : DropTablePlan) : Prog S (Except DdlResult (Option String)) :=
  if plan.purge then do
    match ← call (.loadTable plan.ident) with
    | .ok loaded => pure (.ok (some loaded.tableLocation.toUri))
    | .error error =>
      match plan.ifExists, error with
      | true, .notFound _ => pure (.error (missing plan.ident))
      | _, error => Async.throw error
  else pure (.ok none)

def dropTable (plan : DropTablePlan) : Prog S DdlResult := do
  match ← purgeLocation plan with
  | .error result => pure result
  | .ok tableLocation =>
    match ← call (.dropTable plan.ident) with
    | .ok () =>
      purgeIfAny tableLocation
      pure (.change s!"Table {plan.ident.nameSpace}.{plan.ident.name} dropped")
    | .error error =>
      match plan.ifExists, error with
      | true, .notFound _ => pure (missing plan.ident)
      | _, error => Async.throw error

def dropSchema (plan : DropSchemaPlan) : Prog S DdlResult := do
  match ← call (.dropNamespace plan.nameSpace) with
  | .ok () => pure (.change s!"Schema {plan.nameSpace} dropped")
  | .error error =>
    match plan.ifExists, error with
    | true, .notFound _ =>
      pure (.unchanged s!"Schema {plan.nameSpace} does not exist (IF EXISTS)")
    | _, error => Async.throw error

/-- List the tables of each namespace. -/
def tableRows : List String → Prog S (List DdlRow)
  | [] => pure []
  | ns :: rest => do
    let tables ← await (.listTables ns)
    let rows ← tableRows rest
    pure (tables.map .table ++ rows)

def showTables (nameSpace : Option String) : Prog S DdlResult := do
  let namespaces ← match nameSpace with
    | some ns => pure [ns]
    | none => await .listNamespaces
  let rows ← tableRows namespaces
  pure (.withRows "OK" rows)

def describeTable (plan : DescribeTablePlan) : Prog S DdlResult := do
  let loaded ← await (.loadTable ⟨plan.nameSpace, plan.tableName⟩)
  let schema ← Async.lift loaded.currentSchema
  pure (.withRows "OK" (schema.columns.map .column))

def execute (warehouse : String) : DdlPlan → Prog S DdlResult
  | .createTable plan => createTable warehouse plan
  | .createSchema plan => createSchema plan
  | .dropTable plan => dropTable plan
  | .dropSchema plan => dropSchema plan
  | .showTables nameSpace => showTables nameSpace
  | .showColumns plan | .describeTable plan => describeTable plan

end DdlExecutor

/-- Write a drop tombstone. A failure is only logged. -/
def appendTombstone (ident : TableIdent) : Prog S Unit := do
  let _ ← call (.appendDropTombstone ident)
  pure ()

variable (services : Services S)

/-- The state that a dropped table leaves on the node. -/
def discardTable (ident : TableIdent) : Prog S Unit := do
  services.remove ident
  services.evict ident
  appendTombstone ident

def applyPostDdl (plan : DdlPlan) (result : DdlResult) : Prog S Unit :=
  if result.changed then
    match plan with
    | .dropTable plan => discardTable services plan.ident
    | .createTable plan => do
      services.remove plan.ident
      services.evict plan.ident
    | .dropSchema plan => do
      let tables ← services.bufferTables
      Async.each (discardTable services)
        (tables.filter fun ident => ident.nameSpace == plan.nameSpace)
    | _ => pure ()
  else pure ()

/-- How a submitted text was handled. -/
inductive SqlRouting where
  | ddl (result : DdlResult)
  | engine
deriving DecidableEq

/-- Execute DDL, or leave the text to the engine. A text that cannot be classified is
left to the engine too. -/
def routeSql (parser : Parser T) (warehouse sql : String) :
    Prog S SqlRouting :=
  match classifySql parser sql with
  | .ok (.ddl plan) => do
    let result ← DdlExecutor.execute warehouse plan
    applyPostDdl services plan result
    pure (.ddl result)
  | .ok (.query _) => pure .engine
  | .error _ => pure .engine

/-- What follows routing: the rows of the engine. -/
def runEngine (sql : String) : SqlRouting → Prog S Unit
  | .ddl _ => pure ()
  | .engine => do
    let _ ← await (.runQuery sql)
    pure ()

/-- `POST /api/v1/query`. -/
def querySql (parser : Parser T) (warehouse sql : String) :
    Prog S Unit := do
  await (.authorize .query .cluster)
  if parser.trim sql = "" then Async.throw (.invalidArgument "sql" "sql must not be empty")
  else do
    let routing ← routeSql services parser warehouse sql
    runEngine sql routing

/-- Flight `CommandStatementUpdate`. -/
def executeStatementUpdate (parser : Parser T) (warehouse sql : String) :
    Prog S Unit := do
  await (.authorize .query .cluster)
  let routing ← routeSql services parser warehouse sql
  runEngine sql routing

def dataTypeFromKeyword (texts : Texts) (keyword : String) : TeoDBResult TeoDataType :=
  match texts.toLowercase keyword with
  | "boolean" | "bool" => .ok .boolean
  | "int8" | "tinyint" => .ok .int8
  | "int16" | "smallint" => .ok .int16
  | "int32" | "int" | "integer" => .ok .int32
  | "int64" | "bigint" | "long" => .ok .int64
  | "uint8" => .ok .uint8
  | "uint16" => .ok .uint16
  | "uint32" => .ok .uint32
  | "uint64" => .ok .uint64
  | "float32" | "float" => .ok .float32
  | "float64" | "double" => .ok .float64
  | "date" | "date32" => .ok .date32
  | "timestamp" => .ok (.timestampMicros (some "UTC"))
  | "time" => .ok .time64Micros
  | "string" | "utf8" | "text" | "varchar" => .ok .utf8
  | "binary" | "bytes" => .ok .binary
  | other => .error (.invalidArgument "data_type" s!"unsupported data type: '{other}'")

/-- The text between an expected beginning and a closing bracket. -/
def argumentOf? (name text : String) : Option String :=
  ((strip? (name ++ "(").toList text.toList).bind (stripSuffix? [')'])).map String.ofList

def parseTransform (texts : Texts) (text : String) : TeoDBResult PartitionTransformSpec :=
  let text := texts.toLowercase (texts.trim text)
  match argumentOf? "bucket" text with
  | some inner =>
    match texts.parseU32 (texts.trim inner) with
    | some n => .ok (.bucket n)
    | none => .error (.invalidArgument "transform" s!"invalid bucket count: '{inner}'")
  | none =>
    match argumentOf? "truncate" text with
    | some inner =>
      match texts.parseU32 (texts.trim inner) with
      | some w => .ok (.truncate w)
      | none => .error (.invalidArgument "transform" s!"invalid truncate width: '{inner}'")
    | none =>
      match text with
      | "identity" => .ok .identity
      | "year" => .ok .year
      | "month" => .ok .month
      | "day" => .ok .day
      | "hour" => .ok .hour
      | other => .error (.invalidArgument "transform"
          (s!"unsupported partition transform: '{other}'. Supported: identity, year, month, " ++
            "day, hour, bucket(N), truncate(W)"))

structure ColumnDefinition where
  name : String
  dataType : String
  nullable : Bool

structure CreateTableRestRequest where
  name : String
  columns : List ColumnDefinition
  partitionBy : List (String × String)
  properties : Properties

/-- The names of a request, in the order in which they are checked. -/
def validateRequest (ns : String) (body : CreateTableRestRequest) : TeoDBResult Unit := do
  validateNames ⟨ns, body.name⟩
  body.columns.forM fun column => validateIdentifier "column" column.name

def restColumns (texts : Texts) (columns : List ColumnDefinition) : TeoDBResult (List ColumnMeta) :=
  columns.zipIdx.mapM fun (column, i) =>
    (dataTypeFromKeyword texts column.dataType).map fun dataType =>
      ⟨i + 1, column.name, dataType, column.nullable, none⟩

/-- The table that a request defines, or the first error in its definition. -/
def restRequest (texts : Texts) (warehouse ns : String) (body : CreateTableRestRequest) :
    TeoDBResult CreateTableRequest := do
  let columns ← restColumns texts body.columns
  let fields ← body.partitionBy.mapM fun (column, transform) =>
    (parseTransform texts transform).map (PartitionFieldSpec.new column)
  let spec ← PartitionSpecBuilder.build ⟨0, columns, []⟩ fields
  return ⟨⟨ns, body.name⟩, ⟨0, columns, []⟩, spec,
    DdlService.tableLocation warehouse ⟨ns, body.name⟩, body.properties⟩

/-- `DdlService::create_table`. -/
def DdlService.createTable (request : CreateTableRequest) : Prog S Unit := do
  await (.createTable request)
  services.remove request.ident
  services.evict request.ident

/-- `POST /api/v1/namespaces/{ns}/tables`. -/
def restCreateTable (texts : Texts) (warehouse ns : String)
    (body : CreateTableRestRequest) : Prog S Unit := do
  Async.lift (validateRequest ns body)
  await (.authorize .createTable (.nameSpace ns))
  let request ← Async.lift (restRequest texts warehouse ns body)
  DdlService.createTable services request

/-- The location that a request wants to purge. -/
def restPurgeLocation (ident : TableIdent) (purge : Bool) : Prog S (Option String) :=
  if purge then do
    let loaded ← await (.loadTable ident)
    pure (some loaded.tableLocation.toUri)
  else pure none

/-- `DELETE /api/v1/namespaces/{ns}/tables/{tbl}`. The node forgets the table before its
objects are purged. -/
def restDropTable (ident : TableIdent) (purge : Bool) : Prog S Unit := do
  await (.authorize .dropTable (.table ident))
  let tableLocation ← restPurgeLocation ident purge
  await (.dropTable ident)
  discardTable services ident
  purgeIfAny tableLocation

end

section

variable {S T : Type} {services : Services S} {calls : Call → Prop}

/-- The actions of the programs, as the services carry them out. -/
def Services.acts (services : Services S) : Effect → (S → S) → Prop
  | .removeBuffer ident, g => g = services.removeBuffer ident
  | .evictTable ident, g => g = services.evictTable ident
  | .tables, g => g = id

lemma confined_call {c : Call} (h : calls c) :
    (call c : Prog S (Answer c)).Confined services.acts calls :=
  Async.confined_request h

lemma confined_await {c : Call} (h : calls c) :
    (await c : Prog S (Payload c)).Confined services.acts calls :=
  (confined_call h).bind fun _ => Async.confined_lift

lemma confined_remove (ident : TableIdent) :
    (services.remove ident).Confined services.acts calls :=
  Async.confined_perform rfl

lemma confined_evict (ident : TableIdent) : (services.evict ident).Confined services.acts calls :=
  Async.confined_perform rfl

/-- The calls that every request may make: all but creating and dropping tables and deleting
objects. -/
def Call.plain : Call → Bool
  | .createTable _ | .dropTable _ | .delete _ => false
  | _ => true

variable (hplain : ∀ c : Call, c.plain = true → calls c)
include hplain

lemma confined_purgeTableStorage (hdel : ∀ path, calls (.delete path)) (loc : String) :
    (purgeTableStorage loc : Prog S Unit).Confined services.acts calls := by
  refine Async.confined_lift.bind fun loc => ?_
  refine (confined_await (hplain _ rfl)).bind fun rootPath => ?_
  refine Async.confined_lift.bind fun listPrefix => ?_
  refine (confined_await (hplain _ rfl)).bind fun objects => ?_
  exact Async.confined_each fun path _ => confined_await (hdel path)

lemma confined_purgeIfAny (hdel : ∀ path, calls (.delete path)) (loc : Option String) :
    (purgeIfAny loc : Prog S Unit).Confined services.acts calls := by
  cases loc with
  | some loc => exact confined_purgeTableStorage hplain hdel loc
  | none => trivial

lemma confined_discardTable (ident : TableIdent) :
    (discardTable services ident).Confined services.acts calls := by
  refine (confined_remove ident).bind fun _ => ?_
  refine (confined_evict ident).bind fun _ => ?_
  exact (confined_call (hplain _ rfl)).bind fun _ => trivial

lemma confined_applyPostDdl (plan : DdlPlan) (res : DdlResult) :
    (applyPostDdl services plan res).Confined services.acts calls := by
  unfold applyPostDdl
  split_ifs
  · cases plan with
    | dropTable plan => exact confined_discardTable hplain _
    | createTable plan => exact (confined_remove _).bind fun _ => confined_evict _
    | dropSchema plan =>
      refine Async.Confined.bind (Async.confined_perform rfl) fun tables => ?_
      exact Async.confined_each fun ident _ => confined_discardTable hplain ident
    | _ => trivial
  · trivial

lemma confined_createTable {wh : String} {plan : CreateTablePlan}
    (h : ∀ req, createTableRequest wh plan = .ok req → calls (.createTable req)) :
    (DdlExecutor.createTable wh plan : Prog S DdlResult).Confined services.acts calls := by
  have hns : (ensureNamespace plan.nameSpace : Prog S Unit).Confined services.acts calls := by
    refine (confined_call (hplain _ rfl)).bind fun ans => ?_
    split <;> trivial
  refine hns.bind fun _ => Async.confined_lift_bind fun req hreq => ?_
  refine (confined_call (h req hreq)).bind fun ans => ?_
  split
  · trivial
  · split <;> trivial

lemma confined_purgeLocation (plan : DropTablePlan) : (DdlExecutor.purgeLocation plan :
      Prog S (Except DdlResult (Option String))).Confined services.acts calls := by
  unfold DdlExecutor.purgeLocation
  split_ifs
  · refine (confined_call (hplain _ rfl)).bind fun answer => ?_
    split
    · trivial
    · split <;> trivial
  · trivial

lemma confined_dropTable {plan : DropTablePlan} (h : calls (.dropTable plan.ident))
    (hdel : ∀ path, calls (.delete path)) :
    (DdlExecutor.dropTable plan : Prog S DdlResult).Confined services.acts calls := by
  refine (confined_purgeLocation hplain plan).bind fun loc => ?_
  split
  · trivial
  · refine (confined_call h).bind fun answer => ?_
    split
    · exact (confined_purgeIfAny hplain hdel _).bind fun _ => trivial
    · split <;> trivial

lemma confined_tableRows (namespaces : List String) :
    (DdlExecutor.tableRows namespaces : Prog S (List DdlRow)).Confined services.acts calls := by
  induction namespaces with
  | nil => trivial
  | cons ns rest ih =>
    refine (confined_await (hplain _ rfl)).bind fun tables => ?_
    exact ih.bind fun rows => trivial

/-- What a plan calls, besides the calls of every request. -/
def PlanCalls (calls : Call → Prop) (warehouse : String) : DdlPlan → Prop
  | .createTable plan => ∀ request, createTableRequest warehouse plan = .ok request →
      calls (.createTable request)
  | .dropTable plan => calls (.dropTable plan.ident) ∧ ∀ path, calls (.delete path)
  | _ => True

lemma confined_execute {wh : String} {plan : DdlPlan} (h : PlanCalls calls wh plan) :
    (DdlExecutor.execute wh plan : Prog S DdlResult).Confined services.acts calls := by
  cases plan with
  | createTable plan => exact confined_createTable hplain h
  | dropTable plan => exact confined_dropTable hplain h.1 h.2
  | createSchema plan | dropSchema plan =>
    refine (confined_call (hplain _ rfl)).bind fun answer => ?_
    split
    · trivial
    · split <;> trivial
  | showTables nameSpace =>
    cases nameSpace with
    | some ns => exact (confined_tableRows hplain _).bind fun _ => trivial
    | none =>
      refine (confined_await (hplain _ rfl)).bind fun namespaces => ?_
      exact (confined_tableRows hplain _).bind fun _ => trivial
  | showColumns plan | describeTable plan =>
    refine (confined_await (hplain _ rfl)).bind fun loaded => ?_
    exact Async.confined_lift.bind fun schema => trivial

lemma confined_routeSql {parser : Parser T} {wh sql : String}
    (h : ∀ plan, classifySql parser sql = .ok (.ddl plan) → PlanCalls calls wh plan) :
    (routeSql services parser wh sql).Confined services.acts calls := by
  unfold routeSql
  split
  · rename_i plan hp
    refine (confined_execute hplain (h plan hp)).bind fun res => ?_
    exact (confined_applyPostDdl hplain plan res).bind fun _ => trivial
  · trivial
  · trivial

lemma confined_restPurgeLocation (ident : TableIdent) (purge : Bool) :
    (restPurgeLocation ident purge : Prog S (Option String)).Confined services.acts calls := by
  unfold restPurgeLocation
  split_ifs
  · exact (confined_await (hplain _ rfl)).bind fun _ => trivial
  · trivial

lemma confined_runEngine (sql : String) (routing : SqlRouting) :
    (runEngine sql routing : Prog S Unit).Confined services.acts calls := by
  cases routing with
  | ddl result => trivial
  | engine => exact (confined_await (hplain _ rfl)).bind fun _ => trivial

end

end TeoDB.Api
