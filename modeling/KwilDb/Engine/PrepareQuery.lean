import KwilDb.Core.EncodedValue

/-!
# Preparing a query: `executionContext.prepareQuery` and the statement cache

Before a SQL statement of an action runs, the interpreter parses it, plans it and generates the
Postgres SQL from the planned AST. The planner rewrites the AST in place: it qualifies each table
with the default namespace, and when the context may mutate state (block execution) it appends an
`ORDER BY` over every result column, so that every node reads the rows in one order. The generator
writes each `$variable` as a numbered parameter cast to the variable's type in the context.

`prepareQuery` caches what it prepares, keyed by the namespace and the SQL text only, in a cache
shared by every context of the process. An entry holds a deterministic and a non-deterministic
variant, but both are planned with the `canMutateState` of the context that missed the cache, and
both are generated with that context's variable types. A later context of the other mode, or with
other types, gets what the first one prepared (`prepareQuery_reuses_read_only_plan`). When all the
contexts that use an entry prepare alike, the cache is invisible (`prepareRun_fresh`).

The statements modelled are the single-core `SELECT`s of result expressions over at most one
table: column references, variables and integer literals, with `ORDER BY` and `LIMIT`. Parsing
(the ANTLR grammar and its visitor) is the parameter `parse`. Of the planner, the rewrite of the
AST is modelled; the logical plan it returns and its checks are not. The cache is an LRU map of
1000 entries; eviction and `clear` are not modelled.
-/

namespace KwilDb.Engine

open KwilDb.Lib KwilDb.Core

/-! ### Types as Postgres writes them -/

/-- `DataType.PGScalar`. -/
def pgScalar (t : DataType) : Except String String :=
  let lname := t.name.toLower
  if lname = "int8" then pure "INT8"
  else if lname = "text" then pure "TEXT"
  else if lname = "bool" then pure "BOOL"
  else if lname = "bytea" then pure "BYTEA"
  else if lname = "uuid" then pure "UUID"
  else if lname = "numeric" then
    if t.metadata = (0, 0) then throw "numeric type requires metadata"
    else
      let precision := t.metadata.1.toNat
      let scale := t.metadata.2.toNat
      pure s!"NUMERIC({precision},{scale})"
  else if lname = "null" then throw "cannot have null column type"
  else
    let name := t.name
    throw s!"unknown column type: {name}"

/-- `DataType.PGString`. -/
def pgString (t : DataType) : Except String String := do
  let scalar ← pgScalar t
  pure (if t.isArray then scalar ++ "[]" else scalar)

/-- `engine.MakeTypeCast`: nothing for the null types. -/
def makeTypeCast (t : DataType) : Except String String :=
  if t = ⟨"null", false, (0, 0)⟩ ∨ t = ⟨"null", true, (0, 0)⟩ then pure ""
  else do
    let pg ← pgString t
    pure ("::" ++ pg)

/-! ### The statements -/

/-- An expression of the fragment. A variable's name carries its `$` or `@`. -/
inductive Expr where
  | column (table column : String)
  | variable (name : String)
  | literal (value : ℤ)
deriving DecidableEq, Repr

/-- `parse.ResultColumnExpression`. -/
structure ResultColumn where
  expr : Expr
  aliasName : String
deriving DecidableEq, Repr

/-- `parse.RelationTable`. -/
structure RelationTable where
  tableNamespace : String
  table : String
  aliasName : String
deriving DecidableEq, Repr

/-- `parse.SelectCore`, without joins, `WHERE`, grouping or windows. -/
structure SelectCore where
  distinct : Bool
  columns : List ResultColumn
  fromTable : Option RelationTable
deriving DecidableEq, Repr

/-- `parse.SelectStatement` of one core, its `ORDER BY` terms and its `LIMIT`. -/
structure SelectStatement where
  core : SelectCore
  ordering : List Expr
  limit : Option Expr
deriving DecidableEq, Repr

/-! ### The planner's rewrite -/

/-- What `CreateLogicalPlan` does to the AST: a table with no namespace is a physical table of the
default namespace, and with `applyDefaultOrdering` the result is ordered on every column
(`ORDER BY 1, 2, ...`). -/
def makePlan (applyDefaultOrdering : Bool) (defaultNamespace : String) (ast : SelectStatement) :
    SelectStatement where
  core := { ast.core with
    fromTable := ast.core.fromTable.map fun t =>
      if t.tableNamespace = "" then { t with tableNamespace := defaultNamespace } else t }
  ordering :=
    if applyDefaultOrdering then
      ast.ordering ++ (List.range ast.core.columns.length).map fun i => .literal (i + 1)
    else ast.ordering
  limit := ast.limit

/-! ### The generator -/

/-- The generator's state is `orderedParams`; a panic it recovers from is an error. -/
abbrev Gen := StateT (List String) (Except String)

section Generate

variable (getVar : String → Except String DataType)

/-- `VisitExpressionColumn`, `VisitExpressionLiteral` and `VisitExpressionVariable`: a variable
already numbered keeps its number. -/
def genExpr : Expr → Gen String
  | .column table column => pure ((if table = "" then "" else table ++ ".") ++ column)
  | .literal value => pure (toString value)
  | .variable name => do
    let dt ← getVar name
    let pgStr ← makeTypeCast dt
    let params ← get
    match params.idxOf? name with
    | some i => pure ("$" ++ toString (i + 1) ++ pgStr)
    | none => do
      set (params ++ [name])
      pure ("$" ++ toString (params.length + 1) ++ pgStr)

/-- `VisitResultColumnExpression`. -/
def genResultColumn (rc : ResultColumn) : Gen String := do
  let e ← genExpr getVar rc.expr
  pure (if rc.aliasName = "" then e else e ++ " AS " ++ rc.aliasName)

/-- `VisitRelationTable`. -/
def genTable (t : RelationTable) : String :=
  (if t.tableNamespace = "" then "" else t.tableNamespace ++ ".") ++ t.table ++
    (if t.aliasName = "" then "" else " AS " ++ t.aliasName)

/-- `VisitSelectCore`. -/
def genCore (c : SelectCore) : Gen String := do
  let cols ← c.columns.mapM (genResultColumn getVar)
  let fromText := match c.fromTable with
    | some t => "\nFROM " ++ genTable t
    | none => ""
  pure ("SELECT " ++ (if c.distinct then "DISTINCT " else "") ++ ", ".intercalate cols ++ fromText)

/-- `VisitSelectStatement`. -/
def genSelect (s : SelectStatement) : Gen String := do
  let core ← genCore getVar s.core
  let terms ← s.ordering.mapM (genExpr getVar)
  let limitText ← match s.limit with
    | some l => do
      let l ← genExpr getVar l
      pure (" LIMIT " ++ l)
    | none => pure ""
  pure (core ++ "\n" ++ (if terms = [] then "" else "ORDER BY " ++ ", ".intercalate terms) ++
    limitText)

/-- **`GenerateSQL`** of a statement with no CTEs: the SQL and the variables in the order of their
numbers. -/
def generateSQL (ast : SelectStatement) : Except String (String × List String) := do
  let (stmt, params) ← (genSelect getVar ast).run []
  pure ("\n" ++ stmt ++ ";", params)

end Generate

/-! ### The cache -/

/-- `preparedStatement`, without the logical plans. -/
structure PreparedStatement where
  deterministicSQL : String
  deterministicParams : List String
  nonDeterministicSQL : String
  nonDeterministicParams : List String
deriving DecidableEq, Repr

/-- `statementCache`: keyed by the namespace and the SQL text. -/
abbrev StatementCache := GoMap (String × String) PreparedStatement

/-- What `prepareQuery` reads of an `executionContext`: the namespace of its scope, whether it may
mutate state, and its variables, with the type of a value. -/
structure ExecutionContext (V : Type) where
  scopeNamespace : String
  canMutateState : Bool
  getVariable : String → Except String V

section Prepare

variable {V : Type} (parse : String → Except String SelectStatement) (typeOf : V → DataType)

/-- `getVariableType`. -/
def ExecutionContext.getVariableType (e : ExecutionContext V) (name : String) :
    Except String DataType :=
  typeOf <$> e.getVariable name

/-- `getValues`. -/
def ExecutionContext.getValues (e : ExecutionContext V) (names : List String) :
    Except String (List V) :=
  names.mapM e.getVariable

/-- `getAST`. -/
def getAST (sql : String) : Except String SelectStatement :=
  (parse sql).mapError fun err => s!"parse error: invalid query \x27{sql}\x27: {err}"

/-- The entry a miss prepares, and caches, for a context: both variants are planned with the
context's `canMutateState`. -/
def prepareStatement (e : ExecutionContext V) (sql : String) : Except String PreparedStatement := do
  let deterministicAST ← getAST parse sql
  let nondeterministicAST ← getAST parse sql
  let deterministicPlan := makePlan e.canMutateState e.scopeNamespace deterministicAST
  let nonDeterministicPlan := makePlan e.canMutateState e.scopeNamespace nondeterministicAST
  let (deterministicSQL, deterministicParams) ←
    (generateSQL (e.getVariableType typeOf) deterministicPlan).mapError
      fun err => "postgres SQL generation error: " ++ err
  let (nonDeterministicSQL, nonDeterministicParams) ←
    (generateSQL (e.getVariableType typeOf) nonDeterministicPlan).mapError
      fun err => "postgres SQL generation error: " ++ err
  pure ⟨deterministicSQL, deterministicParams, nonDeterministicSQL, nonDeterministicParams⟩

/-- The variant a context uses, with the values of its parameters. -/
def ExecutionContext.useStatement (e : ExecutionContext V) (st : PreparedStatement) :
    Except String (String × List V) :=
  if e.canMutateState then do
    let values ← e.getValues st.deterministicParams
    pure (st.deterministicSQL, values)
  else do
    let values ← e.getValues st.nonDeterministicParams
    pure (st.nonDeterministicSQL, values)

/-- **`prepareQuery`**, over the process's statement cache. -/
def prepareQuery (e : ExecutionContext V) (sql : String) :
    EStateM String StatementCache (String × List V) := fun cache =>
  match cache.lookup (e.scopeNamespace, sql) with
  | some cached =>
    match e.useStatement cached with
    | .ok r => .ok r cache
    | .error err => .error err cache
  | none =>
    match prepareStatement parse typeOf e sql with
    | .error err => .error err cache
    | .ok st =>
      let cache' := cache.insert (e.scopeNamespace, sql) st
      match e.useStatement st with
      | .ok r => .ok r cache'
      | .error err => .error err cache'

/-! ### When the cache is invisible -/

/-- What the context would prepare from an empty cache. -/
def fresh (e : ExecutionContext V) (sql : String) : Except String (String × List V) := do
  let st ← prepareStatement parse typeOf e sql
  e.useStatement st

section Cache

variable {e e' : ExecutionContext V} {sql : String} {cache : StatementCache}

/-- A hit answers with the cached entry, whoever made it, and leaves the cache as it is. -/
theorem prepareQuery_of_cached {st : PreparedStatement}
    (h : cache.lookup (e.scopeNamespace, sql) = some st) :
    outcome (prepareQuery parse typeOf e sql cache) = e.useStatement st ∧
      finalState (prepareQuery parse typeOf e sql cache) = cache := by
  simp only [prepareQuery, h]
  cases e.useStatement st <;> exact ⟨rfl, rfl⟩

/-- A miss answers as from an empty cache, and caches what it prepared. -/
theorem prepareQuery_of_miss (h : cache.lookup (e.scopeNamespace, sql) = none) :
    outcome (prepareQuery parse typeOf e sql cache) = fresh parse typeOf e sql ∧
      finalState (prepareQuery parse typeOf e sql cache) =
        match prepareStatement parse typeOf e sql with
        | .ok st => cache.insert (e.scopeNamespace, sql) st
        | .error _ => cache := by
  simp only [prepareQuery, h, fresh]
  cases prepareStatement parse typeOf e sql with
  | error err => exact ⟨rfl, rfl⟩
  | ok st =>
    cases hu : e.useStatement st <;> simp [outcome, finalState, hu, bind, Except.bind]

/-- Every entry of the context's namespace is what the context itself would prepare. -/
def Agrees (e : ExecutionContext V) (cache : StatementCache) : Prop :=
  ∀ sql st, cache.lookup (e.scopeNamespace, sql) = some st →
    prepareStatement parse typeOf e sql = .ok st

lemma agrees_empty (e : ExecutionContext V) : Agrees parse typeOf e ∅ := by
  intro sql st h
  cases h

/-- **A cache that agrees with the context is invisible to it.** -/
theorem outcome_prepareQuery_of_agrees (hag : Agrees parse typeOf e cache) :
    outcome (prepareQuery parse typeOf e sql cache) = fresh parse typeOf e sql := by
  cases hc : cache.lookup (e.scopeNamespace, sql) with
  | none => exact (prepareQuery_of_miss parse typeOf hc).1
  | some st =>
    rw [(prepareQuery_of_cached parse typeOf hc).1, fresh, hag sql st hc]
    rfl

/-- A context's own preparations keep the cache agreeing with it. -/
theorem prepareQuery_agrees (hag : Agrees parse typeOf e cache) :
    Agrees parse typeOf e (finalState (prepareQuery parse typeOf e sql cache)) := by
  cases hc : cache.lookup (e.scopeNamespace, sql) with
  | some st =>
    rw [(prepareQuery_of_cached parse typeOf hc).2]
    exact hag
  | none =>
    rw [(prepareQuery_of_miss parse typeOf hc).2]
    cases hst : prepareStatement parse typeOf e sql with
    | error err => exact hag
    | ok st =>
      dsimp only
      intro sql' st' hlook
      by_cases hsql : sql' = sql
      · subst hsql
        rw [AList.lookup_insert, Option.some_inj] at hlook
        rw [← hlook]
        exact hst
      · have hkey : (e.scopeNamespace, sql') ≠ (e.scopeNamespace, sql) :=
          fun heq => hsql (congrArg Prod.snd heq)
        rw [AList.lookup_insert_ne hkey] at hlook
        exact hag sql' st' hlook

/-- Two contexts that prepare a statement alike: one namespace, one mode, one type per variable. -/
structure PreparesAlike (e e' : ExecutionContext V) : Prop where
  scopeNamespace : e'.scopeNamespace = e.scopeNamespace
  canMutateState : e'.canMutateState = e.canMutateState
  getVariableType : e'.getVariableType typeOf = e.getVariableType typeOf

lemma PreparesAlike.symm (h : PreparesAlike typeOf e e') : PreparesAlike typeOf e' e :=
  ⟨h.scopeNamespace.symm, h.canMutateState.symm, h.getVariableType.symm⟩

lemma prepareStatement_of_alike (h : PreparesAlike typeOf e e') :
    prepareStatement parse typeOf e' sql = prepareStatement parse typeOf e sql := by
  simp only [prepareStatement, h.scopeNamespace, h.canMutateState, h.getVariableType]

lemma Agrees.of_alike (hag : Agrees parse typeOf e cache) (h : PreparesAlike typeOf e e') :
    Agrees parse typeOf e' cache := by
  intro sql st hlook
  rw [prepareStatement_of_alike parse typeOf h]
  exact hag sql st (h.scopeNamespace ▸ hlook)

end Cache

/-- The answers to a run of `prepareQuery` calls on one cache. -/
def prepareRun : List (ExecutionContext V × String) → StatementCache →
    List (Except String (String × List V))
  | [], _ => []
  | (e, sql) :: calls, cache =>
    outcome (prepareQuery parse typeOf e sql cache) ::
      prepareRun calls (finalState (prepareQuery parse typeOf e sql cache))

/-- **Along a run of contexts that all prepare alike, the cache is invisible**: every call answers
as from an empty cache. -/
theorem prepareRun_fresh (e : ExecutionContext V) :
    ∀ (calls : List (ExecutionContext V × String)) (cache : StatementCache),
      Agrees parse typeOf e cache → (∀ p ∈ calls, PreparesAlike typeOf e p.1) →
      prepareRun parse typeOf calls cache = calls.map fun p => fresh parse typeOf p.1 p.2
  | [], _, _, _ => rfl
  | (e', sql) :: calls, cache, hag, halike => by
    rw [List.forall_mem_cons] at halike
    -- the cache agrees with the caller, which prepares as `e` does
    have hag' : Agrees parse typeOf e' cache := hag.of_alike parse typeOf halike.1
    have hnext : Agrees parse typeOf e
        (finalState (prepareQuery parse typeOf e' sql cache)) :=
      (prepareQuery_agrees parse typeOf hag').of_alike parse typeOf halike.1.symm
    rw [prepareRun, List.map_cons, outcome_prepareQuery_of_agrees parse typeOf hag',
      prepareRun_fresh e calls _ hnext halike.2]

end Prepare

/-- `SELECT id FROM t`, as the parser returns it. -/
def selectIdFromT : SelectStatement :=
  ⟨⟨false, [⟨.column "" "id", ""⟩], some ⟨"", "t", ""⟩⟩, [], none⟩

/-- The parser of the examples: `SELECT id FROM t` only. -/
def witnessParse (sql : String) : Except String SelectStatement :=
  if sql = "SELECT id FROM t" then .ok selectIdFromT else .error "unsupported statement"

/-- Block execution prepares `SELECT id FROM t` twice on an empty cache: the miss and the hit both
answer with the ordered SQL. -/
theorem prepareRun_fresh_block_twice :
    let block : ExecutionContext Unit := ⟨"main", true, fun name => .error ("unknown variable: " ++ name)⟩
    prepareRun witnessParse (fun _ => ⟨"text", false, (0, 0)⟩)
        [(block, "SELECT id FROM t"), (block, "SELECT id FROM t")] ∅ =
      [.ok ("\nSELECT id\nFROM main.t\nORDER BY 1;", []),
        .ok ("\nSELECT id\nFROM main.t\nORDER BY 1;", [])] := by
  intro block
  have halike : ∀ p ∈ [(block, "SELECT id FROM t"), (block, "SELECT id FROM t")],
      PreparesAlike (fun _ => ⟨"text", false, (0, 0)⟩) block p.1 := by
    simp only [List.mem_cons, List.not_mem_nil, or_false, or_self, forall_eq]
    exact ⟨rfl, rfl, rfl⟩
  rw [prepareRun_fresh _ _ block _ ∅ (agrees_empty _ _ block) halike]
  rfl

/-! ### A view prepares the statement first -/

/-- **A read-only call leaves an unordered statement for block execution.** A view of namespace
`main` prepares `SELECT id FROM t` first; block execution then gets the cached SQL without the
`ORDER BY` that it would have prepared itself. -/
theorem prepareQuery_reuses_read_only_plan {V : Type}
    (parse : String → Except String SelectStatement) (typeOf : V → DataType)
    (getVariable : String → Except String V)
    (hparse : parse "SELECT id FROM t" = .ok selectIdFromT) :
    let view : ExecutionContext V := ⟨"main", false, getVariable⟩
    let block : ExecutionContext V := ⟨"main", true, getVariable⟩
    let cache := finalState (prepareQuery parse typeOf view "SELECT id FROM t" ∅)
    outcome (prepareQuery parse typeOf block "SELECT id FROM t" cache) =
        .ok ("\nSELECT id\nFROM main.t\n;", []) ∧
      fresh parse typeOf block "SELECT id FROM t" =
        .ok ("\nSELECT id\nFROM main.t\nORDER BY 1;", []) := by
  intro view block cache
  -- the view misses the cache and stores the statement planned without the default ordering
  have hview : prepareStatement parse typeOf view "SELECT id FROM t" =
      .ok ⟨"\nSELECT id\nFROM main.t\n;", [], "\nSELECT id\nFROM main.t\n;", []⟩ := by
    simp only [prepareStatement, getAST, hparse]
    rfl
  have hcache : cache.lookup ("main", "SELECT id FROM t") =
      some ⟨"\nSELECT id\nFROM main.t\n;", [], "\nSELECT id\nFROM main.t\n;", []⟩ := by
    show (finalState (prepareQuery parse typeOf view "SELECT id FROM t" ∅)).lookup _ = _
    rw [(prepareQuery_of_miss parse typeOf rfl).2, hview]
    exact AList.lookup_insert _
  constructor
  · rw [(prepareQuery_of_cached parse typeOf hcache).1]
    rfl
  · simp only [fresh, prepareStatement, getAST, hparse]
    rfl

theorem prepareQuery_reuses_read_only_plan_witness :
    let getVariable : String → Except String Unit :=
      fun name => .error ("unknown variable: " ++ name)
    let view : ExecutionContext Unit := ⟨"main", false, getVariable⟩
    let block : ExecutionContext Unit := ⟨"main", true, getVariable⟩
    let cache := finalState (prepareQuery witnessParse (fun _ => ⟨"text", false, (0, 0)⟩) view
      "SELECT id FROM t" ∅)
    outcome (prepareQuery witnessParse (fun _ => ⟨"text", false, (0, 0)⟩) block
        "SELECT id FROM t" cache) = .ok ("\nSELECT id\nFROM main.t\n;", []) ∧
      fresh witnessParse (fun _ => ⟨"text", false, (0, 0)⟩) block "SELECT id FROM t" =
        .ok ("\nSELECT id\nFROM main.t\nORDER BY 1;", []) :=
  prepareQuery_reuses_read_only_plan witnessParse _ _ rfl

end KwilDb.Engine
