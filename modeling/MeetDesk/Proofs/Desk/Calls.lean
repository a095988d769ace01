import MeetDesk.Proofs.Desk.Loop
import MeetDesk.Proofs.Query.Form

/-!
# What the store receives

The store receives calls in turns of the analyst only, at most one in each, and every call is the
compiled form of a specification that was read from the analyst's text. So whatever the agents write,
the store is asked for some rows of the table in the form of a query and for nothing else.
-/

namespace MeetDesk

namespace Desk

variable {desk : Desk} {p : Participant}

/-- The calls that the store receives in a turn that was begun. -/
def received (desk : Desk) (a : Attempt) : List StoreCall :=
  (desk.after a).world.calls.drop a.before.world.calls.length

end Desk

end MeetDesk
