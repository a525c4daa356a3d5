import RowLayout.View.Basic

/-!
# Changing a view

Every change either carries out its work and lays the view out anew, or leaves the view as it was:
because it was refused, because there was nothing to change, or because nothing would be
different.

## Main definitions

* `View.setText`, `View.useSettings`, `View.addFold`, `View.addInlay`, … — the changes
* `ViewEdit`, `View.apply` — the changes as values, and what they answer
* `View.afterAll` — the view after a list of changes
-/

namespace RowLayout

namespace View

/-! ### Text and settings -/

/-- Replace the text. Folds and inlays are dropped, since their offsets no longer mean anything. -/
def setText (v : View) (text : List Char) : View :=
  relayout { v with document := .ofText text, folds := .empty, inlays := v.inlays.clear }

/-- Use settings already found to be valid. -/
def useSettings (v : View) (settings : Settings) : View := relayout { v with settings := settings }

/-- The settings with another viewport width. -/
def withWidth (v : View) (width : UInt64) : Settings :=
  { v.settings with viewportWidth := width }

/-! ### Folds -/

/-- Use changed folds. -/
def useFolds (v : View) (folds : FoldSet) : View := relayout { v with folds := folds }

/-- Add a fold region. -/
def addFold (v : View) (start stop : Nat) (collapsed : Bool) : Except LayoutError View :=
  (v.folds.add (.plain start stop collapsed) v.document.length).map v.useFolds

/-- Add a fold region over lines. -/
def foldLines (v : View) (first last : Nat) (collapsed : Bool) : Except LayoutError View :=
  (v.folds.addLines v.document first last collapsed).map v.useFolds

/-- Change the innermost fold region that holds an offset. No answer means that there is none. -/
def updateFoldAt (v : View) (change : FoldRegion → FoldRegion) (offset : Nat) : Option View :=
  (v.folds.updateAt change offset).map v.useFolds

/-- Change every fold region. -/
def updateFolds (v : View) (change : FoldRegion → FoldRegion) : View :=
  v.useFolds (v.folds.updateAll change)

/-! ### Inlays -/

/-- Use changed inlays. -/
def useInlays (v : View) (inlays : InlaySet) : View := relayout { v with inlays := inlays }

/-- Add an inlay, which must be anchored within the text or at its end. -/
def addInlay (v : View) (offset height : Nat) (kind : InlayKind) : Except LayoutError View :=
  if v.document.length < offset then .error (.offsetOutOfBounds offset v.document.length)
  else .ok (v.useInlays (v.inlays.add offset height kind))

/-- Remove an inlay. No answer means that there is none with the id. -/
def removeInlay (v : View) (id : Nat) : Option View := (v.inlays.remove id).map v.useInlays

end View

/-! ### Changes as values -/

/-- A change to a view. -/
inductive ViewEdit where
  | setText (text : List Char)
  | setSettings (settings : Settings)
  | setWidth (width : UInt64)
  | addFold (start stop : Nat) (collapsed : Bool)
  | foldLines (first last : Nat) (collapsed : Bool)
  | collapseAt (offset : Nat)
  | expandAt (offset : Nat)
  | toggleAt (offset : Nat)
  | collapseAll
  | expandAll
  | addInlay (offset height : Nat) (kind : InlayKind)
  | removeInlay (id : Nat)
  | clearInlays
deriving DecidableEq, Repr

/-- What a change to a view answers. -/
inductive ViewAnswer where
  /-- The change has nothing to report. -/
  | done
  /-- The change was accepted. -/
  | accepted
  /-- The change was refused. -/
  | refused (error : LayoutError)
  /-- Whether there was something to change. -/
  | found (found : Bool)
  /-- The inlay was added under this id. -/
  | added (id : Nat)
deriving DecidableEq, Repr

/-- What comes of a change: its answer, the view after it, and what was logged. -/
structure ViewOutcome where
  answer : ViewAnswer
  view : View
  events : List LogEvent
deriving DecidableEq, Repr

namespace View

/-- The sizes of the layout, as they are logged. -/
def relaidOutEvent (v : View) : LogEvent :=
  .relaidOut v.rowCount v.wraps.length v.folds.outermost.length v.inlays.inlays.length

/-- The outcome of a change that laid the view out anew. -/
def relaid (answer : ViewAnswer) (v : View) (before : List LogEvent) : ViewOutcome :=
  ⟨answer, v, before ++ [v.relaidOutEvent]⟩

/-- The outcome of a change that left the view as it was. -/
def unchanged (answer : ViewAnswer) (v : View) : ViewOutcome := ⟨answer, v, []⟩

/-- The outcome of a change that may be refused. -/
def orRefused (v : View) (answer : ViewAnswer) (before : List LogEvent) :
    Except LayoutError View → ViewOutcome
  | .ok after => after.relaid answer before
  | .error e => v.unchanged (.refused e)

/-- The outcome of a change to something that may not be there. -/
def orNotFound (v : View) : Option View → ViewOutcome
  | some after => after.relaid (.found true) []
  | none => v.unchanged (.found false)

/-- Carry out a change. -/
def apply (v : View) : ViewEdit → ViewOutcome
  | .setText text => (v.setText text).relaid .done []
  | .setSettings settings =>
    match settings.validate with
    | .error e => v.unchanged (.refused e)
    | .ok () =>
      if v.settings = settings then v.unchanged .accepted
      else (v.useSettings settings).relaid .accepted []
  | .setWidth width =>
    if v.settings.viewportWidth = width then v.unchanged .done
    else (v.useSettings (v.withWidth width)).relaid .done []
  | .addFold start stop collapsed =>
    v.orRefused .accepted [.foldAdded start stop collapsed] (v.addFold start stop collapsed)
  | .foldLines first last collapsed =>
    v.orRefused .accepted [.ofFold (FoldSet.lineRegion v.document first last collapsed)]
      (v.foldLines first last collapsed)
  | .collapseAt offset => v.orNotFound (v.updateFoldAt .collapse offset)
  | .expandAt offset => v.orNotFound (v.updateFoldAt .expand offset)
  | .toggleAt offset => v.orNotFound (v.updateFoldAt .toggle offset)
  | .collapseAll => (v.updateFolds .collapse).relaid .done []
  | .expandAll => (v.updateFolds .expand).relaid .done []
  | .addInlay offset height kind =>
    v.orRefused (.added v.inlays.nextId) [.inlayAdded offset height kind v.inlays.nextId]
      (v.addInlay offset height kind)
  | .removeInlay id => v.orNotFound (v.removeInlay id)
  | .clearInlays =>
    if v.inlays.inlays.isEmpty then v.unchanged .done
    else (v.useInlays v.inlays.clear).relaid .done []

/-- The view after a list of changes, each made to the view the one before it left. -/
def afterAll (v : View) (edits : List ViewEdit) : View :=
  edits.foldl (fun v edit => (v.apply edit).view) v

end View

end RowLayout
