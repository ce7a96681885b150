import PanelRelay.Proofs.Device.Query
import PanelRelay.Proofs.Property.Bag
import PanelRelay.Proofs.Property.History

/-!
A description in use while the store that it looks at is changed. What it answers, and what it notes,
is decided by the changes made so far where the query reads, and by nothing else.
-/

namespace PanelRelay.Device

open Property (Address Bag Store Value)
open Property.Bag (Change changesAmong slot?_run_changesAmong)

/-- How a bag is presented to a description. -/
inductive View where
  | plain
  | strict

def View.store : View → Bag → Store
  | .plain, bag => bag.store
  | .strict, bag => bag.store.strict

theorem View.agreeAt (view : View) {bag other : Bag} {address : Address}
    (h : bag.slot? address = other.slot? address) :
    (view.store bag).AgreeAt (view.store other) address := by
  cases view with
  | plain => exact Bag.agreeAt_store h
  | strict => exact (Bag.agreeAt_store h).strict

inductive Step where
  | change (change : Change)
  | ask (query : Query)

/-- What a change takes out of the bag, or what a query is answered. -/
inductive Outcome where
  | changed (taken : Option Value)
  | answered (query : Query) (answer : Noted query.Answer)

structure Session where
  bag : Bag
  description : Description

namespace Session

/-- A new description of a message that has no properties yet. -/
def start (view : View) : Except DescriptionError Session :=
  (Description.ofMessage descriptionKind (view.store Bag.empty)).map fun description =>
    { bag := Bag.empty, description }

/-- The description has no part in a change, but its reference then leads to the changed store. -/
def change (view : View) (session : Session) (bag : Bag) : Session where
  bag := bag
  description := { session.description with store := view.store bag }

def step (view : View) (session : Session) : Step → Outcome × Session
  | .change change =>
      (.changed (session.bag.apply change).1, session.change view (session.bag.apply change).2)
  | .ask query => (.answered query (session.description.ask query), session)

/-- What the steps come to, one by one. -/
def outcomes (view : View) : Session → List Step → List Outcome
  | _, [] => []
  | session, step :: steps =>
      (session.step view step).1 :: outcomes view (session.step view step).2 steps

def run (view : View) (session : Session) (steps : List Step) : Session :=
  steps.foldl (fun session step => (session.step view step).2) session

end Session

/-- The changes among some steps, in their order. -/
def changesOf (steps : List Step) : List Change :=
  steps.filterMap fun
    | .change change => some change
    | .ask _ => none

namespace Session

variable {view : View} {session : Session}

/-- The description is the one that would be made of the message as it is now. -/
def IsCurrent (view : View) (session : Session) : Prop :=
  Description.ofMessage descriptionKind (view.store session.bag) = .ok session.description

theorem isCurrent_iff :
    session.IsCurrent view ↔ session.description = ⟨view.store session.bag⟩ := by
  have hmade (store : Store) : Description.ofMessage descriptionKind store = .ok ⟨store⟩ := rfl
  rw [IsCurrent, hmade, Except.ok.injEq, eq_comm]

theorem exists_start (view : View) :
    ∃ session, start view = .ok session ∧ session.bag = Bag.empty ∧ session.IsCurrent view :=
  ⟨_, rfl, rfl, rfl⟩

/-- No step leaves the description behind the store. -/
theorem IsCurrent.step (h : session.IsCurrent view) (step : Step) :
    (session.step view step).2.IsCurrent view := by
  cases step with
  | change change => exact isCurrent_iff.mpr rfl
  | ask query => exact h

theorem IsCurrent.run (h : session.IsCurrent view) (steps : List Step) :
    (session.run view steps).IsCurrent view := by
  induction steps generalizing session with
  | nil => exact h
  | cons step steps ih => exact ih (h.step step)

/-- Only changes show in the bag. -/
theorem bag_run (steps : List Step) :
    (session.run view steps).bag = Bag.run (changesOf steps) session.bag := by
  induction steps generalizing session with
  | nil => rfl
  | cons step steps ih =>
      cases step with
      | change change => exact ih
      | ask query => exact ih

theorem getElem?_outcomes (before after : List Step) (step : Step) :
    (session.outcomes view (before ++ step :: after))[before.length]? =
      some ((session.run view before).step view step).1 := by
  induction before generalizing session with
  | nil => rfl
  | cons first before ih => exact ih

end Session

/--
A query is answered, and noted, as by a new description of a message that went only through the
changes which came before the query at the addresses that it reads. Queries that came before, and
changes elsewhere, make no difference.
-/
theorem outcomes_follow_changes_where_asked (view : View) (before : List Step) (query : Query)
    (after : List Step) :
    ∃ session fresh, Session.start view = .ok session ∧
      Description.ofMessage descriptionKind
        (view.store (Bag.run (changesAmong query.addresses (changesOf before)) Bag.empty)) =
          .ok fresh ∧
      (session.outcomes view (before ++ .ask query :: after))[before.length]? =
        some (.answered query (fresh.ask query)) := by
  obtain ⟨session, hstart, hempty, hcurrent⟩ := Session.exists_start view
  have hdescription := Session.isCurrent_iff.mp (hcurrent.run before)
  rw [Session.bag_run, hempty] at hdescription
  refine ⟨session, _, hstart, rfl, ?_⟩
  rw [Session.getElem?_outcomes, Session.step, hdescription]
  refine congrArg (fun answer => some (Outcome.answered query answer)) ?_
  apply Description.ask_congr
  intro address haddress
  exact view.agreeAt (slot?_run_changesAmong haddress (changesOf before)).symm

-- The model is there once it is set, and no longer when its status says otherwise.
example : (Session.start .plain).map (fun session => session.outcomes .plain
    [.change (.set ⟨modelProperty, 0⟩ (.text "ATS4500")), .ask .model,
      .change (.setStatus ⟨modelProperty, 0⟩ .failed), .ask .model]) =
    .ok [.changed none, .answered .model ⟨some "ATS4500", []⟩, .changed none,
      .answered .model ⟨none, [(⟨modelProperty, 0⟩ : Address).notAvailable .failed]⟩] := by
  cbv

end PanelRelay.Device
