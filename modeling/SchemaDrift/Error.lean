/-
  SchemaDrift/Error.lean
  ======================
  **What can go wrong, and how it is told.**

  An error is a cause with the names it is about; the wording is in one place,
  `SchemaError.message`.  Two families have causes of their own.  A
  `ConfigurationFault` is a description that lacks something or contradicts itself,
  a `StateFault` a change that does not fit the model it is applied to.
-/

namespace SchemaDrift

/-- A description of a join, a foreign key or a join file that cannot be used. -/
inductive ConfigurationFault where
  | noColumnPairs
  | blankEndpoint
  | missingLeftEntity
  | missingRightEntity
  | missingCardinality
  | missingDependence
  | unknownCardinality (text : String)
  | unknownDependence (text : String)
  | bothDependent
  | missingAttribute (element key : String)
  | badFlag (key text : String)
  | foreignKeyArity (table : String) (columns references : Nat)
deriving Repr, DecidableEq

/-- A change that names something missing, or adds something that is there. -/
inductive StateFault where
  | tableExists (table : String)
  | tableMissing (table : String)
  | columnExists (table column : String)
  | columnMissing (table column : String)
  | joinExists (join : String)
  | joinMissing (join : String)
  | keyColumnNull (table column : String)
deriving Repr, DecidableEq

/-- The errors of the library. -/
inductive SchemaError where
  /-- A description is missing a part or contradicts itself. -/
  | configuration (fault : ConfigurationFault)
  /-- A join names a table that its model does not have. -/
  | danglingJoin (join table : String)
  /-- A join names a column that its table does not have. -/
  | unresolvedAttribute (table column : String)
  /-- A change does not fit the model. -/
  | invalidState (fault : StateFault)
  /-- A dialect has no statement for a change. -/
  | unsupportedOperation (dialect operation : String)
  | markup
  | pattern
  /-- A text is not the JSON of the value it should hold. -/
  | serialization
  /-- A file does not hold what it should hold. -/
  | parse
  /-- A file cannot be read or written. -/
  | file
  /-- A database refuses a table. -/
  | database
deriving Repr, DecidableEq

def ConfigurationFault.message : ConfigurationFault → String
  | noColumnPairs => "join condition has no column pairs"
  | blankEndpoint => "join endpoint table name is empty"
  | missingLeftEntity => "join is missing its left entity"
  | missingRightEntity => "join is missing its right entity"
  | missingCardinality => "join is missing toMany semantics"
  | missingDependence => "join is missing toDependentPK semantics"
  | unknownCardinality text => s!"unknown toMany value '{text}'"
  | unknownDependence text => s!"unknown toDependentPK value '{text}'"
  | bothDependent => "both sides of a join cannot point to a dependent primary key"
  | missingAttribute element key => s!"<{element}> is missing the '{key}' attribute"
  | badFlag key text => s!"'{key}' must be true or false, got '{text}'"
  | foreignKeyArity table columns references =>
    s!"foreign key on '{table}' has {columns} columns but references {references}"

def StateFault.message : StateFault → String
  | tableExists table => s!"Table '{table}' already exists"
  | tableMissing table => s!"Table '{table}' does not exist"
  | columnExists table column => s!"Column '{column}' already exists in table '{table}'"
  | columnMissing table column => s!"Column '{column}' does not exist in table '{table}'"
  | joinExists join => s!"Join '{join}' already exists"
  | joinMissing join => s!"Join '{join}' does not exist"
  | keyColumnNull table column => s!"Primary key column '{table}.{column}' cannot allow NULL"

def SchemaError.message : SchemaError → String
  | configuration fault => "Configuration error: " ++ fault.message
  | danglingJoin join table => s!"Join '{join}' references table '{table}' which doesn't exist"
  | unresolvedAttribute table column => s!"Column '{column}' not found in table '{table}'"
  | invalidState fault => "Invalid model state: " ++ fault.message
  | unsupportedOperation dialect operation =>
    s!"Operation '{operation}' is not supported by the {dialect} dialect"
  | markup => "XML error"
  | pattern => "Invalid pattern"
  | serialization => "Serialization error"
  | parse => "Failed to parse file"
  | file => "IO error"
  | database => "Database error"

end SchemaDrift
