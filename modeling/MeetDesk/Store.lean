import MeetDesk.Fault
import MeetDesk.Query.Compiled

/-!
# Stores

A store answers compiled queries with rows. It is a function of all calls that it has received so
far, so what it answers may depend on what it was asked before and on nothing else.
-/

namespace MeetDesk

/-- A query as a store receives it. -/
structure StoreCall where
  /-- The text of the query. -/
  text : String
  /-- The values of its placeholders, by name. -/
  parameters : Fields

/-- The call that carries a compiled query. -/
def CompiledQuery.toCall (q : CompiledQuery) : StoreCall := ⟨q.text, q.parameterFields⟩

/-- A store: its answer when it has received the given calls, the latest one last. -/
abbrev Store := List StoreCall → Except Fault (List Row)

end MeetDesk
