import MeetDesk.Inquiry
import Mathlib.Data.List.Induction

/-!
# The latest update counts

Updates can set four parts of an inquiry. Any updates in a row have the effect of one, their merger
(`Docket.inquiry_after`), and the merger gives to each part what the latest of them gives to it among
those that set it (`Inquiry.Part.given?_mergeAll`). So a part depends on no other update, and what
else an inquiry holds on none (`Docket.after_latest`). To set a part to nothing, or to no rows, is to
set it.
-/

namespace MeetDesk

namespace Inquiry

/-- A part of an inquiry that updates can set. -/
inductive Part where
  | results | inDomain | reasoning | completed

namespace Part

/-- What can stand in a part. -/
abbrev Content : Part → Type
  | results => List Row
  | inDomain => Option Bool
  | reasoning => Option String
  | completed => Bool

/-- What stands in a part of an inquiry. -/
def held : (p : Part) → Inquiry → p.Content
  | results, q => q.results
  | inDomain, q => q.inDomain?
  | reasoning, q => q.reasoning?
  | completed, q => q.completed

/-- What an update gives to a part; nothing at all if it leaves the part alone. -/
def given? : (p : Part) → Update → Option p.Content
  | results, u => u.results?
  | inDomain, u => u.inDomain?
  | reasoning, u => u.reasoning?
  | completed, u => u.completed?

/-- The name of a part among the changes of an update. -/
def name : Part → String
  | results => "meet_results"
  | inDomain => "is_in_domain"
  | reasoning => "routing_reasoning"
  | completed => "completed"

/-- The content of a part as a loose value. -/
def toValue : (p : Part) → p.Content → Value
  | results, rows => .list (rows.map Value.object)
  | inDomain, flag => .ofBool? flag
  | reasoning, reason => .ofText? reason
  | completed, flag => .bool flag

/-- What the latest of some updates gives to a part among those that set it. -/
def latest? (p : Part) (us : List Update) : Option p.Content := (us.filterMap p.given?).getLast?

end Part

end Inquiry

open Inquiry (Part)

/-- An update sets something. -/
def Update.SetsSome (u : Update) : Prop := ∃ p : Part, p.given? u ≠ none

/-- The update that sets what any of some updates sets, a later one going first. -/
def Update.mergeAll (us : List Update) : Update := us.foldl Update.merge {}

/-- The docket of an inquiry that no update has reached. -/
def Docket.opened (q : Inquiry) : Docket := { inquiry := q }

/-- A docket after updates. -/
def Docket.after (d : Docket) (us : List Update) : Docket := us.foldl Docket.apply d

variable {u : Update}

/-! ## One update -/

namespace Inquiry.Part

/-- An update sets the parts that it gives and leaves the others. -/
theorem held_applyTo (p : Part) (u : Update) (q : Inquiry) :
    p.held (u.applyTo q) = (p.given? u).getD (p.held q) := by
  cases p <;> rfl

/-- Of two updates in a row the second one counts where both give a part. -/
theorem given?_merge (p : Part) (first second : Update) :
    p.given? (first.merge second) = (p.given? second).or (p.given? first) := by
  cases p <;> rfl

end Inquiry.Part

namespace Update

theorem isEmpty_iff : u.isEmpty = true ↔ ∀ p : Part, p.given? u = none := by
  simp only [isEmpty, Bool.and_eq_true, Option.isNone_iff_eq_none]
  constructor
  · rintro ⟨⟨⟨hresults, hdomain⟩, hreasoning⟩, hcompleted⟩ p
    cases p with
    | results => exact hresults
    | inDomain => exact hdomain
    | reasoning => exact hreasoning
    | completed => exact hcompleted
  · intro h
    exact ⟨⟨⟨h .results, h .inDomain⟩, h .reasoning⟩, h .completed⟩

theorem setsSome_iff : u.SetsSome ↔ ¬ u.isEmpty = true := by
  rw [isEmpty_iff, not_forall]
  rfl

instance : DecidablePred Update.SetsSome := fun _ => decidable_of_iff _ setsSome_iff.symm

/-- The changes of an update are what it gives to the parts, under their names. -/
theorem mem_changes_iff {change : String × Value} :
    change ∈ u.changes ↔
      ∃ (p : Part) (content : p.Content), p.given? u = some content ∧
        (p.name, p.toValue content) = change := by
  simp only [changes, List.mem_append, Option.mem_toList, Option.map_eq_some_iff]
  constructor
  · rintro (((⟨rows, h, hchange⟩ | ⟨flag, h, hchange⟩) | ⟨reason, h, hchange⟩) | ⟨flag, h, hchange⟩)
    · exact ⟨.results, rows, h, hchange⟩
    · exact ⟨.inDomain, flag, h, hchange⟩
    · exact ⟨.reasoning, reason, h, hchange⟩
    · exact ⟨.completed, flag, h, hchange⟩
  · rintro ⟨p, content, h, hchange⟩
    cases p with
    | results => exact Or.inl (Or.inl (Or.inl ⟨content, h, hchange⟩))
    | inDomain => exact Or.inl (Or.inl (Or.inr ⟨content, h, hchange⟩))
    | reasoning => exact Or.inl (Or.inr ⟨content, h, hchange⟩)
    | completed => exact Or.inr ⟨content, h, hchange⟩

end Update

/-- An update counts if it sets anything. -/
theorem Docket.mutations_apply (d : Docket) (u : Update) :
    (d.apply u).mutations = d.mutations + if u.SetsSome then 1 else 0 := by
  unfold apply
  by_cases hempty : u.isEmpty = true
  · rw [if_pos hempty, if_neg fun h => Update.setsSome_iff.mp h hempty, Nat.add_zero]
  · rw [if_neg hempty, if_pos (Update.setsSome_iff.mpr hempty)]

/-! ## Updates in a row -/

namespace Inquiry.Part

theorem latest?_concat (p : Part) (us : List Update) (u : Update) :
    p.latest? (us ++ [u]) = (p.given? u).or (p.latest? us) := by
  unfold latest?
  cases h : p.given? u with
  | none => simp [h]
  | some content => simp [h]

end Inquiry.Part

theorem Update.mergeAll_concat (us : List Update) (u : Update) :
    mergeAll (us ++ [u]) = (mergeAll us).merge u := by
  simp [mergeAll]

/-- The merger of all updates gives what the latest of them gave. -/
theorem Inquiry.Part.given?_mergeAll (p : Part) (us : List Update) :
    p.given? (Update.mergeAll us) = p.latest? us := by
  -- from the last update backwards: the one that decides stands at that end
  induction us using List.reverseRecOn with
  | nil => cases p <;> rfl
  | append_singleton us u ih => rw [Update.mergeAll_concat, given?_merge, ih, latest?_concat]

namespace Docket

theorem after_concat (d : Docket) (us : List Update) (u : Update) :
    d.after (us ++ [u]) = (d.after us).apply u := by
  simp [after]

/-- Updates in a row have the effect of their merger. -/
theorem inquiry_after (d : Docket) (us : List Update) :
    (d.after us).inquiry = (Update.mergeAll us).applyTo d.inquiry := by
  induction us using List.reverseRecOn with
  | nil => rfl
  | append_singleton us u ih =>
    rw [after_concat, inquiry_apply, ih, Update.mergeAll_concat, Update.applyTo_merge]

/-- A part is what the latest update that gave it said, or what it was. The induction is on the updates. -/
theorem held_after (d : Docket) (us : List Update) (p : Part) :
    p.held (d.after us).inquiry = (p.latest? us).getD (p.held d.inquiry) := by
  rw [inquiry_after, Part.held_applyTo, Part.given?_mergeAll]

/-- The updates that set anything are counted. -/
theorem mutations_after (d : Docket) (us : List Update) :
    (d.after us).mutations = d.mutations + us.countP fun u => u.SetsSome := by
  induction us using List.reverseRecOn with
  | nil => rfl
  | append_singleton us u ih =>
    rw [after_concat, mutations_apply, ih, List.countP_append, List.countP_singleton, Nat.add_assoc]
    simp only [decide_eq_true_eq]

/-- After any updates of an inquiry, each part of it holds what the latest update that sets the part
gave to it, and what it held before if there is none; the question, who asked it and where it belongs
are as they were. The updates that set something have been counted. An update sets the parts that are
named among its changes, and two updates in a row come to the same inquiry as the one update that gives
to each part what the second gives to it, or else the first. -/
theorem after_latest (q : Inquiry) (us : List Update) :
    (∀ p : Part, p.held ((opened q).after us).inquiry = (p.latest? us).getD (p.held q)) ∧
    (((opened q).after us).inquiry.question = q.question ∧
      ((opened q).after us).inquiry.userId? = q.userId? ∧
      ((opened q).after us).inquiry.threadId? = q.threadId? ∧
      ((opened q).after us).inquiry.messageId? = q.messageId?) ∧
    ((opened q).after us).mutations = us.countP (fun u => u.SetsSome) ∧
    (∀ (u : Update) (change : String × Value), change ∈ u.changes ↔
      ∃ (p : Part) (content : p.Content), p.given? u = some content ∧
        (p.name, p.toValue content) = change) ∧
    ∀ first second : Update,
      (∀ p : Part, p.given? (first.merge second) = (p.given? second).or (p.given? first)) ∧
      ((((opened q).after us).apply first).apply second).inquiry =
        (((opened q).after us).apply (first.merge second)).inquiry := by
  refine ⟨held_after (opened q) us, ?_, ?_, fun u change => Update.mem_changes_iff,
    fun first second => ⟨fun p => p.given?_merge first second, ?_⟩⟩
  · rw [inquiry_after]
    exact ⟨rfl, rfl, rfl, rfl⟩
  · rw [mutations_after]
    exact Nat.zero_add _
  · rw [inquiry_apply, inquiry_apply, inquiry_apply, Update.applyTo_merge]

/-- A flag that is set to nothing does not come back, and the update that sets nothing is not counted. -/
example : (opened { question := "Who lifts most?" }).after
    [{ inDomain? := some (some true) }, {}, { inDomain? := some none, results? := some [] }] =
    ⟨{ question := "Who lifts most?" }, 2⟩ := rfl

end Docket

end MeetDesk
