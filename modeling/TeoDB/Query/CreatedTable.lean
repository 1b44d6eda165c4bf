import TeoDB.Catalog.ScalarConversion
import TeoDB.Query.Ddl

/-!
# The table that a statement creates

The name of a created table is the one that was written. DataFusion resolves the name in a
query: it lower-cases the parts that are not quoted and puts its own default schema in front
of a name of one part.

The precision and the scale of a declared decimal are 64-bit numbers. They are cut down to eight
bits for the type of the column and again when the schema is read back.

## Implementation notes

Lower-casing and the default schema are those of the session. The catalog may refuse any
column type.
-/

namespace TeoDB.Query

open TeoDB.Core Catalog

/-- An identifier as it is written in a statement. -/
structure WrittenIdent where
  value : String
  quoted : Bool
deriving DecidableEq

/-- A table name of one or two parts. -/
structure TableSpelling where
  schema : Option WrittenIdent
  table : WrittenIdent
deriving DecidableEq

/-- The name as the parser of statements hands it on. -/
def TableSpelling.objectName (name : TableSpelling) (text : String) : ObjectName where
  parts := (name.schema.toList ++ [name.table]).map fun part => some part.value
  text := text

/-- What DataFusion applies to the names in a query. -/
structure NameSession where
  lowercase : String → String
  defaultSchema : String

namespace NameSession

variable (session : NameSession)

def normalize (part : WrittenIdent) : String :=
  if part.quoted then part.value else session.lowercase part.value

/-- The table that `SELECT * FROM` reads. -/
def queried (name : TableSpelling) : TableIdent where
  nameSpace := (name.schema.map session.normalize).getD session.defaultSchema
  name := session.normalize name.table

/-- A part that is read as it was written. -/
def Stable (part : WrittenIdent) : Prop := part.quoted ∨ session.lowercase part.value = part.value

lemma normalize_eq_iff (part : WrittenIdent) :
    session.normalize part = part.value ↔ session.Stable part := by
  cases hq : part.quoted <;> simp [normalize, Stable, hq]

/-- The same spelling queries a created table exactly if its parts are quoted or in lower case and a
missing schema is `default` on both sides. -/
theorem created_queried_iff {T : Type} {parser : Parser T} {name : TableSpelling} {text : String}
    {columns : List (ColumnDef T)} {partitionBy : Option PartitionClause} {hive : List String}
    {ifNotExists : Bool} {plan : CreateTablePlan}
    (h : parseCreateTable parser (name.objectName text) columns partitionBy hive ifNotExists =
      .ok (.createTable plan)) :
    session.queried name = ⟨plan.nameSpace, plan.tableName⟩ ↔
      session.Stable name.table ∧ (∀ part ∈ name.schema, session.Stable part) ∧
        (name.schema = none → session.defaultSchema = "default") := by
  obtain ⟨schema, table⟩ := name
  have hr : resolveTableName (TableSpelling.objectName ⟨schema, table⟩ text) =
      .ok ((schema.map WrittenIdent.value).getD "default", table.value) := by
    cases schema <;> rfl
  have hp : plan.nameSpace = (schema.map WrittenIdent.value).getD "default" ∧
      plan.tableName = table.value := by
    simp only [parseCreateTable, hr, bind, Except.bind, pure, Except.pure] at h
    split at h
    · cases h
    · split at h
      · split at h
        · cases h
        · cases h
          exact ⟨rfl, rfl⟩
      · cases h
        exact ⟨rfl, rfl⟩
  cases schema with
  | none => simp [queried, hp, normalize_eq_iff, and_comm]
  | some part => simp [queried, hp, normalize_eq_iff, and_comm]

/-- Lower-casing of the one name below, and the default schema of DataFusion. -/
def dataFusion : NameSession where
  lowercase value := if value = "Orders" then "orders" else value
  defaultSchema := "public"

/-- The plan for a table without columns. -/
def createdBy (name : TableSpelling) : TeoDBResult DdlPlan :=
  parseCreateTable (oneStatement "" .other) (name.objectName "") [] none [] false

theorem created_queried_quoted :
    createdBy ⟨some ⟨"shop", false⟩, ⟨"Orders", true⟩⟩ =
      .ok (.createTable ⟨"shop", "Orders", [], [], false⟩) ∧
    dataFusion.queried ⟨some ⟨"shop", false⟩, ⟨"Orders", true⟩⟩ = ⟨"shop", "Orders"⟩ :=
  have h : createdBy ⟨some ⟨"shop", false⟩, ⟨"Orders", true⟩⟩ =
      .ok (.createTable ⟨"shop", "Orders", [], [], false⟩) := rfl
  ⟨h, (created_queried_iff dataFusion h).mpr
    ⟨Or.inl rfl, fun _ hp => Option.some.inj hp ▸ Or.inr rfl, fun hs => by cases hs⟩⟩

/-- A name with a capital letter and a name of one part are created as one table and queried
as another. -/
theorem created_not_queried :
    createdBy ⟨some ⟨"shop", false⟩, ⟨"Orders", false⟩⟩ =
      .ok (.createTable ⟨"shop", "Orders", [], [], false⟩) ∧
    dataFusion.queried ⟨some ⟨"shop", false⟩, ⟨"Orders", false⟩⟩ = ⟨"shop", "orders"⟩ ∧
    createdBy ⟨none, ⟨"orders", false⟩⟩ =
      .ok (.createTable ⟨"default", "orders", [], [], false⟩) ∧
    dataFusion.queried ⟨none, ⟨"orders", false⟩⟩ = ⟨"public", "orders"⟩ := by
  decide

end NameSession

inductive ExactNumberInfo where
  | none
  | precision (p : UInt64)
  | precisionAndScale (p : UInt64) (s : Int64)

def exactNumberInfoToPs : ExactNumberInfo → Nat × Int
  | .precisionAndScale p s => (p.toNat % 2 ^ 8, s.toInt.bmod (2 ^ 8))
  | .precision p => (p.toNat % 2 ^ 8, 0)
  | .none => (38, 10)

/-- `DECIMAL(p)` and `DECIMAL(p, s)`. -/
def declaredDecimal (p : UInt64) : Option Int64 → ExactNumberInfo
  | none => .precision p
  | some s => .precisionAndScale p s

def declaredScale (s : Option Int64) : Int := (s.map Int64.toInt).getD 0

/-- The type of a decimal column. -/
def sqlDecimalToTeo (info : ExactNumberInfo) : TeoDataType :=
  .decimal128 (exactNumberInfoToPs info).1 (exactNumberInfoToPs info).2

/-- The type of a column that is created and read back. -/
def createdType (lib : IcebergScalars) (create : PrimitiveType → TeoDBResult Unit)
    (type : TeoDataType) : TeoDBResult TeoDataType := do
  let primitive ← teodbToIcebergPrimitive type
  create primitive
  icebergPrimitiveToTeodb lib primitive

lemma bmod_eq_self_iff {z : Int} : z.bmod (2 ^ 8) = z ↔ -2 ^ 7 ≤ z ∧ z < 2 ^ 7 := by
  rw [Int.bmod_def]
  split <;> omega

lemma sqlDecimalToTeo_declared (p : UInt64) (s : Option Int64) :
    sqlDecimalToTeo (declaredDecimal p s) =
      .decimal128 (p.toNat % 2 ^ 8) ((declaredScale s).bmod (2 ^ 8)) := by
  cases s <;> rfl

lemma createdType_declared {lib : IcebergScalars} {create : PrimitiveType → TeoDBResult Unit}
    {p : UInt64} {s : Option Int64} {t : TeoDataType}
    (h : createdType lib create (sqlDecimalToTeo (declaredDecimal p s)) = .ok t) :
    t = .decimal128 (p.toNat % 2 ^ 8) ((declaredScale s).bmod (2 ^ 8)) := by
  rw [sqlDecimalToTeo_declared] at h
  generalize declaredScale s = z at h
  have hz : ((((z.bmod (2 ^ 8)) % 2 ^ 32).toNat : Nat) : Int).bmod (2 ^ 8) = z.bmod (2 ^ 8) := by
    simp only [Int.bmod_def]
    split_ifs <;> omega
  simp only [createdType, teodbToIcebergPrimitive, icebergPrimitiveToTeodb, bind, Except.bind] at h
  split at h
  · cases h
  · rw [← Except.ok.inj h, Nat.mod_mod, hz]

/-- A declared decimal keeps its precision and its scale exactly if the table is refused or
both fit into eight bits. -/
theorem decimal_kept_iff (lib : IcebergScalars) (create : PrimitiveType → TeoDBResult Unit)
    (p : UInt64) (s : Option Int64) :
    (∀ t, createdType lib create (sqlDecimalToTeo (declaredDecimal p s)) = .ok t →
      t = .decimal128 p.toNat (declaredScale s)) ↔
    ((∃ t, createdType lib create (sqlDecimalToTeo (declaredDecimal p s)) = .ok t) →
      p.toNat < 2 ^ 8 ∧ -2 ^ 7 ≤ declaredScale s ∧ declaredScale s < 2 ^ 7) := by
  constructor
  · rintro h ⟨t, ht⟩
    obtain ⟨hp, hs⟩ := TeoDataType.decimal128.inj ((createdType_declared ht).symm.trans (h t ht))
    exact ⟨hp ▸ Nat.mod_lt _ (by decide), bmod_eq_self_iff.mp hs⟩
  · intro h t ht
    obtain ⟨hp, hs⟩ := h ⟨t, ht⟩
    rw [createdType_declared ht, Nat.mod_eq_of_lt hp, bmod_eq_self_iff.mpr hs]

/-- `DECIMAL(266, 2)` becomes a decimal of ten digits. -/
theorem decimal_wrapped :
    createdType plainIceberg (fun _ => .ok ()) (sqlDecimalToTeo (declaredDecimal 266 (some 2))) =
      .ok (.decimal128 10 2) := by
  rw [sqlDecimalToTeo_declared]
  decide

end TeoDB.Query
