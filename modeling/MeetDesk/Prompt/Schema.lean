import MeetDesk.Query.Operator
import MeetDesk.Value

/-!
# Argument schemas

The descriptions of the two tools' arguments that the agents are shown: which fields there are, what
they mean, and which of them are required. They are values, and a prompt holds their JSON text.
-/

namespace MeetDesk.Schema

/-- The description of a value of a plain type. -/
def plain (type : String) : Value := .object [("type", .text type)]

/-- The description of a value that is defined elsewhere in the schema. -/
def definition (name : String) : Value := .object [("$ref", .text ("#/$defs/" ++ name))]

/-- A field that may be null and is so when it is absent. -/
def nullable (types : List Value) (description : String) : Fields :=
  [("anyOf", .list (types ++ [plain "null"])), ("default", .null),
   ("description", .text description)]

/-- The title of a field. -/
def title (s : String) : Fields := [("title", .text s)]

/-- A required field that holds a text. -/
def requiredText (description name : String) : Value :=
  .object ([("description", .text description)] ++ title name ++ [("type", .text "string")])

/-- An object with the given fields, of which the named ones are required. -/
def record (description name : String) (properties : Fields) (required : List String) : Fields :=
  [("description", .text description), ("properties", .object properties)] ++
    (if required.isEmpty then [] else [("required", .list (required.map Value.text))]) ++
    title name ++ [("type", .text "object")]

/-- One of several texts. -/
def enumeration (description name : String) (choices : List String) : Value :=
  .object ([("description", .text description), ("enum", .list (choices.map Value.text))] ++
    title name ++ [("type", .text "string")])

/-- The arguments of the routing tool. -/
def routing : Value :=
  .object (record "Arguments of the supervisor's ``route_to_agent`` tool." "RouteSelection"
    [("agent", requiredText "The name of the agent to route to." "Agent"),
     ("isPowerliftingQuery",
      .object (nullable [plain "boolean"] "Whether this is a powerlifting-related query" ++
        title "Ispowerliftingquery")),
     ("reasoning",
      .object (nullable [plain "string"] "Brief reasoning for the routing decision" ++
        title "Reasoning"))]
    ["agent"])

/-- One clause of a query. -/
def clause : Value :=
  .object (record "A single ``\x7bcolumn, operator, value?\x7d`` filter." "FilterClause"
    [("column", requiredText "Column to filter on" "Column"),
     ("operator",
      .object [("$ref", .text "#/$defs/FilterOperator"),
        ("description", .text "The operator to use for the filter.")]),
     ("value",
      .object (nullable [plain "string", plain "integer", plain "number"]
        "The value to filter by. Not required for IS NULL or IS NOT NULL." ++ title "Value"))]
    ["column", "operator"])

/-- The operators of a clause. -/
def operators : Value :=
  enumeration "Operators accepted in a filter clause." "FilterOperator"
    (Operator.all.map Operator.symbol)

/-- The directions of a sort. -/
def directions : Value :=
  enumeration "Sort direction for the ORDER BY clause." "SortDirection"
    (Direction.all.map Direction.symbol)

/-- The arguments of the results tool. -/
def results : Value :=
  .object ([("$defs", .object [("FilterClause", clause), ("FilterOperator", operators),
      ("SortDirection", directions)])] ++
    record ("Arguments of the ``get_meet_results`` tool.\n\nAccepts both the camelCase names " ++
        "used in the tool schema and\nsnake_case field names.") "MeetResultsQuery"
      [("filters",
        .object ([("description", .text "An array of filters to apply to the query."),
          ("items", definition "FilterClause")] ++ title "Filters" ++ [("type", .text "array")])),
       ("orderBy",
        .object (nullable [plain "string"] "The column to sort the results by." ++
          title "Orderby")),
       ("sortDirection",
        .object (nullable [definition "SortDirection"] "The direction to sort the results.")),
       ("limit",
        .object (nullable [plain "integer"]
          "The maximum number of results to return (at most 100)." ++ title "Limit"))]
      [])

end MeetDesk.Schema
