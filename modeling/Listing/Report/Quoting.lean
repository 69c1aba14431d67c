import Listing.Value.Written

/-!
# Reports that quote a value

The words of these reports hold a value that was given to the library and may be of any type. They are
written before there is a report, so a value that cannot be written stops by that fault instead.
-/

set_option autoImplicit false

namespace Listing

namespace Report

/-- A filter value does not fit its field. -/
def filterValue (field value reason : Value) : Result Report := do
  return plain .filterValue
    ("Invalid value " ++ (← value.quotation) ++ " for field '" ++ (← field.displayed) ++ "': " ++
      (← reason.displayed))
    [("field", field), ("value", value), ("reason", reason)]

/-- A page size is out of bounds. -/
def pageSize (size most : Value) : Result Report := do
  let bound ← most.displayed
  return make .pageSize
    ("Page size must be between 1 and " ++ bound ++ ", got " ++ (← size.displayed))
    [("size", size), ("max", most)]
    (.list [.record [("field", "size"), ("value", size),
      ("reason", .text ("must be between 1 and " ++ bound))]])

/-- A page number is not a positive integer. -/
def pageNumber (page : Value) : Result Report := do
  return plain .pageRequest ("Page must be a positive integer, got " ++ (← page.quotation)) []

/-- A setting has a value out of bounds. -/
def settingValue (name value reason : Value) : Result Report := do
  return plain .settingValue
    ("Setting '" ++ (← name.displayed) ++ "' has invalid value " ++ (← value.quotation) ++ ": " ++
      (← reason.displayed)) []

end Report

/-- Stops with a report, if its words can be written. -/
def rejectWith {α : Type} (r : Result Report) : Result α := do
  reject (← r)

end Listing
