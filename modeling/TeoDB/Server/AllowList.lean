import TeoDB.Api.Ddl
import TeoDB.Api.Jwt

/-!
# Allow lists

The first rule that matches a principal, an action and a resource decides. The pattern of a
table is split at its first dot, so it speaks of the table whose name it is only if the
namespace has no dot. A trailing star matches any continuation.
-/

namespace TeoDB.Server

open TeoDB.Core Api Storage

structure Rule where
  role : String
  action : String
  resource : String
  allow : Bool

def stripLast (last : Char) (text : List Char) : Option (List Char) :=
  if text.getLast? = some last then some text.dropLast else none

/-- A pattern of one name: a star, the name, or a beginning of it and a star. -/
def matchesName (pattern name : List Char) : Bool :=
  pattern = ['*'] || pattern = name || (stripLast '*' pattern).any (·.isPrefixOf name)

def matchesRole (pattern : String) (principal : Principal) : Bool :=
  pattern = "*" || match stripLast '*' pattern.toList with
    | some first => principal.roles.any fun role => first.isPrefixOf role.toList
    | none => principal.roles.any (· = pattern)

def actionText : Action → String
  | .createTable => "CreateTable"
  | .dropTable => "DropTable"
  | .alterTable => "AlterTable"
  | .ingest => "Ingest"
  | .query => "Query"
  | .compact => "Compact"
  | .admin => "Admin"

def matchesAction (pattern : String) (action : Action) : Bool :=
  pattern = "*" || pattern = actionText action

def splitOnce (text : List Char) : Option (List Char × List Char) :=
  if '.' ∈ text then some (text.takeWhile (· ≠ '.'), (text.dropWhile (· ≠ '.')).tail) else none

/-- What stands in the parentheses of a pattern. -/
def inside (opening pattern : String) : Option (List Char) :=
  (strip? opening.toList pattern.toList).bind (stripLast ')')

def matchesResource (pattern : String) (resource : Resource) : Bool :=
  pattern = "*" || match resource with
    | .cluster => pattern = "Cluster"
    | .nameSpace ns => (inside "Namespace(" pattern).any (matchesName · ns.toList)
    | .table ident => (inside "Table(" pattern).any fun pat =>
      pat = ['*'] || match splitOnce pat with
        | some (ns, tbl) =>
          matchesName ns ident.nameSpace.toList && matchesName tbl ident.name.toList
        | none => pat = ident.fullyQualified.toList

def Rule.covers (rule : Rule) (principal : Principal) (action : Action) (resource : Resource) :
    Bool :=
  matchesRole rule.role principal && matchesAction rule.action action &&
    matchesResource rule.resource resource

/-- The decision of a list of rules; `debug` prints a resource. -/
def authorize (debug : Resource → String) (rules : List Rule) (principal : Principal)
    (action : Action) (resource : Resource) : TeoDBResult Unit :=
  match rules.find? (·.covers principal action resource) with
  | some rule => if rule.allow then .ok () else .error (.forbidden
      s!"{principal.subject} is not authorized to {actionText action} on {debug resource}")
  | none => .error (.forbidden (s!"{principal.subject} is not authorized to " ++
      s!"{actionText action} on {debug resource} (no matching rule)"))

/-- The table of a Flight descriptor, by its path. -/
def parseDescriptor : List String → Except String TableIdent
  | [] => .error "descriptor path must have at least 2 elements: [namespace, table]"
  | [full] => match splitOnce full.toList with
    | some (ns, tbl) => .ok ⟨.ofList ns, .ofList tbl⟩
    | none => .error s!"invalid table path: {full}"
  | ns :: tbl :: _ => .ok ⟨ns, tbl⟩

def tableRule (ident : TableIdent) : String := s!"Table({ident.fullyQualified})"

/-- The pattern of a table matches just that table, both forms of descriptor name the table, and a
rule with the pattern that comes first denies. -/
structure Denies (ident : TableIdent) : Prop where
  exact : ∀ resource, matchesResource (tableRule ident) resource = true ↔ resource = .table ident
  pair : ∀ more, parseDescriptor (ident.nameSpace :: ident.name :: more) = .ok ident
  dotted : parseDescriptor [ident.fullyQualified] = .ok ident
  denied : ∀ debug before rule rest principal action, rule.resource = tableRule ident →
    rule.allow = false → matchesRole rule.role principal = true →
    matchesAction rule.action action = true →
    (∀ r ∈ before, r.covers principal action (.table ident) = false) →
      ∃ message, authorize debug (before ++ rule :: rest) principal action (.table ident) =
        .error (.forbidden message)

variable {ident : TableIdent} {pattern name : List Char}

lemma matchesName_self (name : List Char) : matchesName name name = true := by
  simp [matchesName]

/-- Without a star at its end a pattern matches itself only. -/
lemma matchesName_iff (h : pattern.getLast? ≠ some '*') :
    matchesName pattern name = true ↔ name = pattern := by
  have hs : pattern ≠ ['*'] := by
    rintro rfl
    exact h rfl
  simp [matchesName, stripLast, h, hs, eq_comm]

lemma matchesName_append (h : pattern.getLast? = some '*') (more : List Char) :
    matchesName pattern (pattern ++ more) = true := by
  have hp : pattern.dropLast <+: pattern ++ more :=
    pattern.dropLast_prefix.trans (List.prefix_append _ _)
  simp [matchesName, stripLast, h, hp]

lemma splitOnce_append (h : '.' ∉ pattern) :
    splitOnce (pattern ++ '.' :: name) = some (pattern, name) := by
  have hp : ∀ c ∈ pattern, decide (c ≠ '.') = true := by
    intro c hc
    simpa using fun heq : c = '.' => h (heq ▸ hc)
  rw [splitOnce, if_pos (by simp), List.takeWhile_append_of_pos hp,
    List.dropWhile_append_of_pos hp]
  simp

lemma toList_fullyQualified (ident : TableIdent) :
    ident.fullyQualified.toList = ident.nameSpace.toList ++ '.' :: ident.name.toList := by
  simp [TableIdent.fullyQualified, toString]

lemma toList_tableRule (ident : TableIdent) : (tableRule ident).toList =
    "Table(".toList ++ (ident.fullyQualified.toList ++ [')']) := by
  simp [tableRule, toString]

/-- The pattern of a table matches tables only, by what the parts of its name match. -/
lemma matchesResource_tableRule (resource : Resource) :
    matchesResource (tableRule ident) resource = true ↔ ∃ other, resource = .table other ∧
      ∃ ns tbl, splitOnce ident.fullyQualified.toList = some (ns, tbl) ∧
        matchesName ns other.nameSpace.toList = true ∧
        matchesName tbl other.name.toList = true := by
  have hs : tableRule ident ≠ "*" := fun h => by
    simpa [toList_tableRule] using congrArg String.toList h
  have hc : tableRule ident ≠ "Cluster" := fun h => by
    simpa [toList_tableRule] using congrArg String.toList h
  have hn : inside "Namespace(" (tableRule ident) = none := by
    simp [inside, toList_tableRule, strip?]
  have ht : inside "Table(" (tableRule ident) = some ident.fullyQualified.toList := by
    rw [inside, toList_tableRule, strip?_append]
    simp [stripLast]
  have hd : '.' ∈ ident.fullyQualified.toList := by simp [toList_fullyQualified]
  have hstar : ident.fullyQualified.toList ≠ ['*'] := fun h => by simp [h] at hd
  cases resource with
  | cluster => simp [matchesResource, hs, hc]
  | nameSpace ns => simp [matchesResource, hs, hn]
  | table other => simp [matchesResource, hs, ht, hstar, splitOnce, hd]

/-- The pattern of a table is right exactly if the namespace has no dot and neither part of
the name ends in a star. -/
theorem denies_iff (ident : TableIdent) : Denies ident ↔ '.' ∉ ident.nameSpace.toList ∧
    ident.nameSpace.toList.getLast? ≠ some '*' ∧ ident.name.toList.getLast? ≠ some '*' := by
  constructor
  · intro h
    have hdot : '.' ∉ ident.nameSpace.toList := by
      intro hd
      have hp := h.dotted
      simp only [parseDescriptor, splitOnce, toList_fullyQualified] at hp
      rw [if_pos (by simp)] at hp
      have hns := congrArg String.toList (congrArg TableIdent.nameSpace (Except.ok.inj hp))
      rw [← hns] at hd
      rw [String.toList_ofList] at hd
      have himp := List.mem_takeWhile_imp hd
      simp at himp
    have hmore : ∀ x y, matchesName ident.nameSpace.toList (ident.nameSpace ++ x).toList = true →
        matchesName ident.name.toList (ident.name ++ y).toList = true → x = "" ∧ y = "" := by
      intro x y hx hy
      have hm := (matchesResource_tableRule (.table ⟨ident.nameSpace ++ x, ident.name ++ y⟩)).mpr
        ⟨_, rfl, _, _, by rw [toList_fullyQualified, splitOnce_append hdot], hx, hy⟩
      have heq := Resource.table.inj ((h.exact _).mp hm)
      have hxs := congrArg (String.toList ∘ TableIdent.nameSpace) heq
      have hys := congrArg (String.toList ∘ TableIdent.name) heq
      simpa using And.intro hxs hys
    refine ⟨hdot, fun hs => ?_, fun hs => ?_⟩
    · simpa using hmore "x" "" (by simpa using matchesName_append hs _) (by simp [matchesName_self])
    · simpa using hmore "" "x" (by simp [matchesName_self]) (by simpa using matchesName_append hs _)
  · rintro ⟨hdot, hns, hn⟩
    have hsplit : splitOnce ident.fullyQualified.toList =
        some (ident.nameSpace.toList, ident.name.toList) := by
      rw [toList_fullyQualified, splitOnce_append hdot]
    have hexact : ∀ resource, matchesResource (tableRule ident) resource = true ↔
        resource = .table ident := by
      intro resource
      rw [matchesResource_tableRule]
      constructor
      · rintro ⟨⟨ns, name⟩, rfl, _, _, hs, h1, h2⟩
        cases hsplit.symm.trans hs
        rw [matchesName_iff hns, String.toList_inj] at h1
        rw [matchesName_iff hn, String.toList_inj] at h2
        cases h1
        cases h2
        rfl
      · rintro rfl
        exact ⟨ident, rfl, _, _, hsplit, matchesName_self _, matchesName_self _⟩
    refine ⟨hexact, fun _ => rfl, by simp [parseDescriptor, hsplit], ?_⟩
    intro debug before rule rest principal action hr ha hrole hact hb
    have hc : rule.covers principal action (.table ident) = true := by
      simp [Rule.covers, hr, hrole, hact, hexact]
    have hf : before.find? (·.covers principal action (.table ident)) = none := by
      simpa using hb
    simp [authorize, List.find?_append, hf, hc, ha]

/-- A denied table of a nested namespace. -/
def nestedOrders : TableIdent := ⟨"sales.eu", "orders"⟩

/-- The rule denies another table, and this one can be queried. -/
theorem nested_table_not_denied :
    matchesResource (tableRule nestedOrders) (.table nestedOrders) = false ∧
    matchesResource (tableRule nestedOrders) (.table ⟨"sales", "eu.orders"⟩) = true ∧
    authorize (fun _ => "") [⟨"*", "*", tableRule nestedOrders, false⟩, ⟨"*", "*", "*", true⟩]
      ⟨"reader", [], []⟩ .query (.table nestedOrders) = .ok () := by
  decide +kernel

end TeoDB.Server
