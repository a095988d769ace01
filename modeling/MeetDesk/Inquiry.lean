import MeetDesk.Value

/-!
# Inquiries

The state of one run: the question, who asks it, what has been found out so far, and whether the
run is complete. It changes by updates only. An update names the fields that it sets; a field may be
set to nothing, which is different from leaving it alone. The docket of a run counts the updates that
set something.
-/

namespace MeetDesk

/-- The state of a run. -/
structure Inquiry where
  /-- The question. -/
  question : String
  /-- Who asks, if known. -/
  userId? : Option String := none
  /-- The thread that the question belongs to, if it belongs to one. -/
  threadId? : Option String := none
  /-- The message that holds the question, if known. -/
  messageId? : Option String := none
  /-- The rows that the latest query returned. -/
  results : List Row := []
  /-- Whether the question is about powerlifting, once that is decided. -/
  inDomain? : Option Bool := none
  /-- The reason for the latest routing decision, if one was given. -/
  reasoning? : Option String := none
  /-- Whether nothing remains to be done. -/
  completed : Bool := false

/-- The fields to set. A field that is `none` here is left alone. -/
structure Update where
  /-- The rows to set. -/
  results? : Option (List Row) := none
  /-- The domain flag to set. -/
  inDomain? : Option (Option Bool) := none
  /-- The reason to set. -/
  reasoning? : Option (Option String) := none
  /-- The completion flag to set. -/
  completed? : Option Bool := none

namespace Update

/-- Whether the update sets nothing. -/
def isEmpty (u : Update) : Bool :=
  u.results?.isNone && u.inDomain?.isNone && u.reasoning?.isNone && u.completed?.isNone

/-- Carries out an update. -/
def applyTo (u : Update) (q : Inquiry) : Inquiry :=
  { q with
    results := u.results?.getD q.results
    inDomain? := u.inDomain?.getD q.inDomain?
    reasoning? := u.reasoning?.getD q.reasoning?
    completed := u.completed?.getD q.completed }

/-- The update that sets what either of two sets, the second one going first. -/
def merge (first second : Update) : Update :=
  { results? := second.results?.or first.results?
    inDomain? := second.inDomain?.or first.inDomain?
    reasoning? := second.reasoning?.or first.reasoning?
    completed? := second.completed?.or first.completed? }

/-- Two updates in a row have the effect of their merger. -/
theorem applyTo_merge (first second : Update) (q : Inquiry) :
    (first.merge second).applyTo q = second.applyTo (first.applyTo q) := by
  simp only [merge, applyTo, Option.getD_or]

/-- The changes of an update, by the names of the fields. -/
def changes (u : Update) : Fields :=
  (u.results?.map fun rows => ("meet_results", Value.list (rows.map Value.object))).toList ++
    (u.inDomain?.map fun flag => ("is_in_domain", Value.ofBool? flag)).toList ++
    (u.reasoning?.map fun reason => ("routing_reasoning", Value.ofText? reason)).toList ++
    (u.completed?.map fun flag => ("completed", Value.bool flag)).toList

end Update

/-- An inquiry with the number of updates that set something in it. -/
structure Docket where
  /-- The inquiry. -/
  inquiry : Inquiry
  /-- The number of updates that set something. -/
  mutations : Nat := 0

namespace Docket

/-- Carries out an update and counts it, unless it sets nothing. -/
def apply (d : Docket) (u : Update) : Docket :=
  if u.isEmpty then d else ⟨u.applyTo d.inquiry, d.mutations + 1⟩

/-- An update has its effect on the inquiry, whether it is counted or not. -/
theorem inquiry_apply (d : Docket) (u : Update) : (d.apply u).inquiry = u.applyTo d.inquiry := by
  unfold apply
  split
  · rename_i h
    simp only [Update.isEmpty, Bool.and_eq_true, Option.isNone_iff_eq_none] at h
    obtain ⟨⟨⟨hr, hi⟩, hs⟩, hc⟩ := h
    simp [Update.applyTo, hr, hi, hs, hc]
  · rfl

end Docket

end MeetDesk
