import TeoDB.Core.Schema

/-!
# Classifying SQL statements

A text is parsed, and a single statement that creates, drops or shows something in the
catalog becomes a plan. Everything else is left to the query engine.

## Implementation notes

`Parser` gives the statements of a text, how an expression is printed and the mapping of SQL types.
Identifiers keep the text that the quotes enclose, so any text can be a name.
-/

namespace TeoDB.Query

open TeoDB.Core

/-- A dotted name. A part that is not an identifier has no text. -/
structure ObjectName where
  parts : List (Option String)
  text : String
deriving DecidableEq

/-- An expression of a `PARTITION BY` clause. A function has its arguments, or says why they are not
supported. -/
inductive PartitionExpr where
  | identifier (name : String)
  | compoundIdentifier (parts : List String)
  | value (text : String)
  | function (name : String) (args : Except String (List PartitionExpr))
  | other (text : String)

/-- A whole `PARTITION BY` clause. -/
inductive PartitionClause where
  | single (expr : PartitionExpr)
  | tuple (exprs : List PartitionExpr)
  | nested (inner : PartitionExpr)
  | other (text : String)

/-- A column definition of a statement. -/
structure ColumnDef (T : Type) where
  name : String
  dataType : T
  notNull : Bool

inductive SchemaName where
  | simple (name : ObjectName)
  | unnamedAuthorization (ident : String)
  | namedAuthorization (name : ObjectName)

inductive ObjectType where
  | table
  | schema
  | database
  | other (text : String)
deriving DecidableEq

/-- The statements that the planner tells apart. -/
inductive Statement (T : Type) where
  | createTable (name : ObjectName) (columns : List (ColumnDef T))
      (partitionBy : Option PartitionClause) (hivePartitioned : List String) (ifNotExists : Bool)
  | createSchema (name : SchemaName) (ifNotExists : Bool)
  | createDatabase (name : ObjectName) (ifNotExists : Bool)
  | drop (objectType : ObjectType) (names : List ObjectName) (ifExists purge : Bool)
  | showTables (showIn : Option ObjectName)
  | showColumns (showIn : Option ObjectName)
  | explainTable (name : ObjectName)
  | other

/-- What the standard library does with texts. -/
structure Texts where
  trim : String → String
  toLowercase : String → String
  parseU32 : String → Option Nat

/-- The parser, and what it says of types and expressions. -/
structure Parser (T : Type) extends Texts where
  parse : String → Except String (List (Statement T))
  sqlTypeToTeo : T → TeoDBResult TeoDataType
  display : PartitionExpr → String

structure PartitionFieldDef where
  columnName : String
  transform : PartitionTransformSpec
deriving DecidableEq

structure CreateTablePlan where
  nameSpace : String
  tableName : String
  columns : List ColumnMeta
  partitionBy : List PartitionFieldDef
  ifNotExists : Bool
deriving DecidableEq

def CreateTablePlan.ident (plan : CreateTablePlan) : TableIdent := ⟨plan.nameSpace, plan.tableName⟩

structure CreateSchemaPlan where
  nameSpace : String
  ifNotExists : Bool
deriving DecidableEq

structure DropTablePlan where
  ident : TableIdent
  ifExists : Bool
  purge : Bool
deriving DecidableEq

structure DropSchemaPlan where
  nameSpace : String
  ifExists : Bool
deriving DecidableEq

structure DescribeTablePlan where
  nameSpace : String
  tableName : String
deriving DecidableEq

inductive DdlPlan where
  | createTable (plan : CreateTablePlan)
  | createSchema (plan : CreateSchemaPlan)
  | dropTable (plan : DropTablePlan)
  | dropSchema (plan : DropSchemaPlan)
  | showTables (nameSpace : Option String)
  | showColumns (plan : DescribeTablePlan)
  | describeTable (plan : DescribeTablePlan)
deriving DecidableEq

inductive SqlStatement where
  | ddl (plan : DdlPlan)
  | query (sql : String)
deriving DecidableEq

def objectNameToString (name : ObjectName) : String :=
  (name.parts.getLast?.join).getD ""

/-- The namespace and the table of a name. A catalog in front of them is ignored. -/
def resolveTableName (name : ObjectName) : TeoDBResult (String × String) :=
  match name.parts.filterMap id with
  | [ns, tbl] => .ok (ns, tbl)
  | [tbl] => .ok ("default", tbl)
  | [_, ns, tbl] => .ok (ns, tbl)
  | _ => .error (.invalidArgument "table_name" s!"invalid table name: {name.text}")

variable {T : Type} (parser : Parser T)

def exprToColumnName (expr : PartitionExpr) : TeoDBResult String :=
  match expr with
  | .identifier name => .ok name
  | .compoundIdentifier parts => .ok (parts.getLast?.getD "")
  | other => .error (.invalidArgument "partition_by"
      ("expected column name, got: " ++ parser.display other))

def exprToU32 (expr : PartitionExpr) (context : String) : TeoDBResult Nat :=
  match expr with
  | .value text =>
    match parser.parseU32 text with
    | some n => .ok n
    | none => .error (.invalidArgument "partition_by"
        s!"{context}() expects a positive integer, got: {text}")
  | other => .error (.invalidArgument "partition_by"
      (s!"{context}() expects a numeric literal, got: " ++ parser.display other))

/-- A transform with one argument, the column. -/
def unaryTransform (name : String) (transform : PartitionTransformSpec)
    (args : List PartitionExpr) : TeoDBResult PartitionFieldDef :=
  match args with
  | [column] => (exprToColumnName parser column).map fun columnName => ⟨columnName, transform⟩
  | _ => .error (.invalidArgument "partition_by"
      s!"{name}() expects exactly 1 argument, got {args.length}")

/-- A transform with a number and the column. -/
def numberedTransform (name number : String) (transform : Nat → PartitionTransformSpec)
    (args : List PartitionExpr) : TeoDBResult PartitionFieldDef :=
  match args with
  | [n, column] => do
    let n ← exprToU32 parser n name
    let columnName ← exprToColumnName parser column
    return ⟨columnName, transform n⟩
  | _ => .error (.invalidArgument "partition_by"
      s!"{name}() expects 2 arguments ({number}, col), got {args.length}")

def parsePartitionFunction (name : String) (args : Except String (List PartitionExpr)) :
    TeoDBResult PartitionFieldDef :=
  match args with
  | .error message => .error (.invalidArgument "partition_by" message)
  | .ok args =>
    match name with
    | "year" => unaryTransform parser name .year args
    | "month" => unaryTransform parser name .month args
    | "day" => unaryTransform parser name .day args
    | "hour" => unaryTransform parser name .hour args
    | "identity" => unaryTransform parser name .identity args
    | "bucket" => numberedTransform parser name "n" .bucket args
    | "truncate" => numberedTransform parser name "width" .truncate args
    | _ => .error (.invalidArgument "partition_by"
        (s!"unsupported partition transform: {name}. Supported: identity, year, month, day, " ++
          "hour, bucket(n, col), truncate(w, col)"))

def parsePartitionExpr (expr : PartitionExpr) : TeoDBResult PartitionFieldDef :=
  match expr with
  | .identifier name => .ok ⟨name, .identity⟩
  | .compoundIdentifier parts => .ok ⟨parts.getLast?.getD "", .identity⟩
  | .function name args => parsePartitionFunction parser name args
  | other => .error (.invalidArgument "partition_by"
      ("unsupported partition expression: " ++ parser.display other))

def parsePartitionBy (clause : PartitionClause) : TeoDBResult (List PartitionFieldDef) :=
  match clause with
  | .single expr => (parsePartitionExpr parser expr).map fun field => [field]
  | .tuple exprs => exprs.mapM (parsePartitionExpr parser)
  | .nested inner => (parsePartitionExpr parser inner).map fun field => [field]
  | .other text => .error (.invalidArgument "partition_by"
      s!"unsupported partition expression: {text}")

def parseHivePartition (columns : List String) : List PartitionFieldDef :=
  columns.map fun name => ⟨name, .identity⟩

def convertColumns (columns : List (ColumnDef T)) : TeoDBResult (List ColumnMeta) :=
  columns.zipIdx.mapM fun (column, i) =>
    (parser.sqlTypeToTeo column.dataType).map fun dataType =>
      ⟨i + 1, column.name, dataType, !column.notNull, none⟩

def parseCreateTable (name : ObjectName) (columns : List (ColumnDef T))
    (partitionBy : Option PartitionClause) (hivePartitioned : List String) (ifNotExists : Bool) :
    TeoDBResult DdlPlan := do
  let (ns, tableName) ← resolveTableName name
  let columns ← convertColumns parser columns
  let partitionBy ← match partitionBy with
    | some clause => parsePartitionBy parser clause
    | none => .ok (parseHivePartition hivePartitioned)
  return .createTable ⟨ns, tableName, columns, partitionBy, ifNotExists⟩

def SchemaName.text : SchemaName → String
  | .simple name => objectNameToString name
  | .unnamedAuthorization ident => ident
  | .namedAuthorization name => objectNameToString name

def parseDrop (objectType : ObjectType) (names : List ObjectName) (ifExists purge : Bool) :
    TeoDBResult DdlPlan :=
  match objectType with
  | .table =>
    match names with
    | [name] =>
      (resolveTableName name).map fun resolved =>
        .dropTable ⟨⟨resolved.1, resolved.2⟩, ifExists, purge⟩
    | _ => .error (.invalidArgument "sql" "DROP TABLE supports exactly one table per statement")
  | .schema | .database =>
    match names with
    | [name] => .ok (.dropSchema ⟨objectNameToString name, ifExists⟩)
    | _ => .error (.invalidArgument "sql" "DROP SCHEMA supports exactly one schema per statement")
  | .other text => .error (.invalidArgument "object_type" s!"DROP {text} is not supported")

def parseShowColumns (showIn : Option ObjectName) : TeoDBResult DdlPlan :=
  match showIn with
  | none => .error (.invalidArgument "sql" "SHOW COLUMNS requires FROM <table>")
  | some name => (resolveTableName name).map fun resolved =>
    .showColumns ⟨resolved.1, resolved.2⟩

/-- Plan one statement, or leave it to the query engine. -/
def classifyStatement (sql : String) : Statement T → TeoDBResult SqlStatement
  | .createTable name columns partitionBy hivePartitioned ifNotExists =>
    (parseCreateTable parser name columns partitionBy hivePartitioned ifNotExists).map .ddl
  | .createSchema name ifNotExists => .ok (.ddl (.createSchema ⟨name.text, ifNotExists⟩))
  | .createDatabase name ifNotExists =>
    .ok (.ddl (.createSchema ⟨objectNameToString name, ifNotExists⟩))
  | .drop objectType names ifExists purge => (parseDrop objectType names ifExists purge).map .ddl
  | .showTables showIn => .ok (.ddl (.showTables (showIn.map objectNameToString)))
  | .showColumns showIn => (parseShowColumns showIn).map .ddl
  | .explainTable name => (resolveTableName name).map fun resolved =>
    .ddl (.describeTable ⟨resolved.1, resolved.2⟩)
  | .other => .ok (.query sql)

/-- Parse and classify a text. -/
def classifySql (sql : String) : TeoDBResult SqlStatement :=
  match parser.parse sql with
  | .error error => .error (.invalidArgument "sql" s!"SQL parse error: {error}")
  | .ok [] => .error (.invalidArgument "sql" "empty SQL statement")
  | .ok [statement] => classifyStatement parser sql statement
  | .ok _ => .error (.invalidArgument "sql" "only single statements are supported")

/-- A parser that knows one statement. -/
def oneStatement (sql : String) (statement : Statement Unit) : Parser Unit where
  trim := id
  toLowercase := id
  parseU32 _ := none
  parse text := if text = sql then .ok [statement] else .error "unexpected statement"
  sqlTypeToTeo _ := .ok .int64
  display _ := ""

end TeoDB.Query
