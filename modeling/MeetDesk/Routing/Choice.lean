import MeetDesk.Form.Slot

/-!
# Route choices

The arguments of the supervisor's routing call: who is to go on, whether the question is about
powerlifting at all, and why.
-/

namespace MeetDesk

/-- What the supervisor chose. -/
structure RouteChoice where
  /-- The name of the participant that is to go on. -/
  agent : String
  /-- Whether the question is about powerlifting, if the supervisor said so. -/
  inDomain? : Option Bool
  /-- The reason, if the supervisor gave one. -/
  reasoning? : Option String

namespace RouteChoice

/-- The slot of the participant's name. -/
def agentSlot : Slot String := .required (.single "agent") Coercion.text

/-- The slot of the domain flag. -/
def inDomainSlot : Slot (Option Bool) :=
  .optional ⟨"is_powerlifting_query", "isPowerliftingQuery"⟩ none
    (Coercion.orNull Coercion.boolean)

/-- The slot of the reason. -/
def reasoningSlot : Slot (Option String) :=
  .optional (.single "reasoning") none (Coercion.orNull Coercion.text)

/-- Reads a choice. -/
def read : Coercion.Reader RouteChoice := Coercion.form "RouteSelection" fun fields =>
  RouteChoice.mk <$> agentSlot.fill fields <*> inDomainSlot.fill fields
    <*> reasoningSlot.fill fields

/-- The choice as a loose value, with its fields under the given naming. -/
def toValue (naming : Naming) (c : RouteChoice) : Value :=
  .object [(agentSlot.label.under naming, .text c.agent),
    (inDomainSlot.label.under naming, .ofBool? c.inDomain?),
    (reasoningSlot.label.under naming, .ofText? c.reasoning?)]

end RouteChoice

end MeetDesk
