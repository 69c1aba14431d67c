/-!
# Kinds of reported errors

The errors that the library reports to its callers form a tree. Each kind has a name, a code that
clients may match on, and a response status; a rejected query is a client's error and a faulty
declaration or configuration is not.
-/

set_option autoImplicit false

namespace Listing

/-- The kind of a reported error. -/
inductive ErrorKind where
  | base
  | domain
  | validation
  | query
  | filterField
  | filterOperator
  | filterValue
  | sortField
  | sortDirection
  | cursor
  | pageSize
  | pageRequest
  | application
  | missingScope
  | schemaDefinition
  | config
  | missingSetting
  | settingValue
  deriving DecidableEq, Repr

namespace ErrorKind

/-- The name of a kind. -/
def name : ErrorKind → String
  | base => "BaseError"
  | domain => "DomainError"
  | validation => "ValidationError"
  | query => "QueryValidationError"
  | filterField => "InvalidFilterField"
  | filterOperator => "InvalidFilterOperator"
  | filterValue => "InvalidFilterValue"
  | sortField => "InvalidSortField"
  | sortDirection => "InvalidSortDirection"
  | cursor => "InvalidCursor"
  | pageSize => "InvalidPageSize"
  | pageRequest => "InvalidPageRequest"
  | application => "ApplicationError"
  | missingScope => "MissingScope"
  | schemaDefinition => "SchemaDefinitionError"
  | config => "ConfigError"
  | missingSetting => "MissingRequiredSettingError"
  | settingValue => "InvalidSettingValueError"

/-- All kinds. -/
def all : List ErrorKind :=
  [base, domain, validation, query, filterField, filterOperator, filterValue, sortField,
    sortDirection, cursor, pageSize, pageRequest, application, missingScope, schemaDefinition,
    config, missingSetting, settingValue]

/-- The kind with a name. -/
def ofName? (s : String) : Option ErrorKind :=
  all.find? (·.name == s)

/-- The code of an error that was given none. -/
def code : ErrorKind → String
  | base => "listquery_error"
  | domain => "domain_error"
  | validation => "validation_error"
  | query => "invalid_query"
  | filterField => "invalid_filter_field"
  | filterOperator => "invalid_filter_operator"
  | filterValue => "invalid_filter_value"
  | sortField => "invalid_sort_field"
  | sortDirection => "invalid_sort_direction"
  | cursor => "invalid_cursor"
  | pageSize => "invalid_page_size"
  | pageRequest => "invalid_page_request"
  | application => "application_error"
  | missingScope => "missing_scope"
  | schemaDefinition => "schema_definition_error"
  | config => "config_error"
  | missingSetting => "missing_required_setting"
  | settingValue => "invalid_setting_value"

/-- The kind directly above, if any. -/
def parent? : ErrorKind → Option ErrorKind
  | base => none
  | domain | application => some base
  | validation => some domain
  | query => some validation
  | filterField | filterOperator | filterValue | sortField | sortDirection | cursor | pageSize
  | pageRequest => some query
  | missingScope | schemaDefinition | config => some application
  | missingSetting | settingValue => some config

/-- The kinds that an error of this kind belongs to, the most special first. -/
def lineage (k : ErrorKind) : List ErrorKind :=
  k :: match k.parent? with
    | none => []
    | some p => p :: match p.parent? with
      | none => []
      | some q => q :: match q.parent? with
        | none => []
        | some r => r :: r.parent?.toList

/-- An error of the first kind is also one of the second. -/
def isA (k ancestor : ErrorKind) : Bool :=
  k.lineage.contains ancestor

/-- The response status. -/
def status (k : ErrorKind) : Nat :=
  if k.isA validation then 400 else if k.isA domain then 422 else 500

/-- The error is the client's. -/
def isOfClient (k : ErrorKind) : Bool :=
  decide (400 ≤ k.status ∧ k.status < 500)

/-- The errors of this kind list the offending fields. -/
def listsFields (k : ErrorKind) : Bool :=
  k.isA validation

/-- The kind is one of configuration, which the general list of kinds leaves out. -/
def isConfiguration (k : ErrorKind) : Bool :=
  k.isA config

end ErrorKind

end Listing
