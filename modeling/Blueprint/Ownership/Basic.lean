import Blueprint.Ownership.Pass

/-!
# Ownership

The owners of the constructs of a model, with the pass that found each of them. This is the
Ownership Mapper of the specification (§4.3).

- `Ownership`: the assignments, what each pass added, the constructs that can be owned, and the
  components.
- `Model.assignOwners`: run the passes in order, keeping proposals for constructs without owner.
- `Ownership.owner?`, `Ownership.isFallback`, `Ownership.unassigned`, `Ownership.byComponent`: what
  can be asked of the result.
-/

namespace Blueprint

/-- The owner of a construct and the pass that found it. -/
structure Assignment where
  component : String
  pass : Pass
deriving DecidableEq

/-- What one pass added. -/
structure Snapshot where
  pass : Pass
  owners : Owners

/-- The owners of the constructs of a model. -/
structure Ownership where
  assignments : Table Key Assignment
  snapshots : List Snapshot
  /-- The keys of all constructs that can be owned, with repetitions. -/
  ownable : List Key
  /-- The names of the components in order, with repetitions. -/
  components : List String

namespace Ownership

/-- Whether there is a component. -/
def hasComponents (o : Ownership) : Bool := !o.components.isEmpty

/-- The owner of a construct. -/
def owner? (o : Ownership) (k : Key) : Option String :=
  (o.assignments.find? k).map Assignment.component

/-- Whether a construct only went to the first component because nothing spoke for another. -/
def isFallback (o : Ownership) (k : Key) : Bool :=
  (o.assignments.find? k).any fun a => a.pass = .fallback

/-- The constructs without owner. -/
def unassigned (o : Ownership) : List Key := o.ownable.filter fun k => !o.assignments.contains k

/-- What a pass added. -/
def snapshot? (o : Ownership) (p : Pass) : Option Snapshot :=
  o.snapshots.find? fun s => s.pass = p

/-- The constructs by owner, the components in order. -/
def byComponent (o : Ownership) : Table String (List Key) :=
  o.assignments.entries.foldl
    -- the components come in first, so that they stand in order, with or without constructs
    (fun t e => t.upsert e.2.component fun old => old.getD [] ++ [e.1])
    (o.components.foldl (fun t c => t.insertNew c []) ∅)

end Ownership

/-! ## Running the passes -/

/-- How far the passes have come. -/
structure OwnershipRun where
  evidence : Evidence := {}
  assignments : Table Key Assignment := ∅
  snapshots : List Snapshot := []

namespace OwnershipRun

/-- The owners found so far. -/
def owners (r : OwnershipRun) : Owners := r.assignments.mapValues fun _ a => a.component

/-- The evidence when a pass proposes. -/
def evidenceFor (m : Model) (r : OwnershipRun) (p : Pass) : Evidence :=
  p.observe m r.owners r.evidence

/-- The proposals of a pass for constructs without owner. -/
def accepted (m : Model) (r : OwnershipRun) (p : Pass) : Owners :=
  (p.propose m (r.evidenceFor m p) r.owners).filter fun k _ => !r.assignments.contains k

/-- Run one more pass. -/
def step (m : Model) (r : OwnershipRun) (p : Pass) : OwnershipRun where
  evidence := r.evidenceFor m p
  assignments := r.assignments.extend ((r.accepted m p).mapValues fun _ c => ⟨c, p⟩)
  snapshots := r.snapshots ++ [⟨p, r.accepted m p⟩]

end OwnershipRun

namespace Model

/-- The run of all passes. -/
def ownershipRun (m : Model) : OwnershipRun := Pass.all.foldl (OwnershipRun.step m) {}

/-- Find an owner for every construct of a model (specification, §4.3). -/
def assignOwners (m : Model) : Ownership where
  assignments := m.ownershipRun.assignments
  snapshots := m.ownershipRun.snapshots
  ownable := m.keys
  components := m.componentNames

/-- What is noted in the journal while owners are found. -/
def ownershipNotes (m : Model) : Journal :=
  let o := m.assignOwners
  let missing := o.unassigned
  o.snapshots.flatMap (fun s =>
    s.pass.notes m ++ [.debug s!"Ownership pass {s.pass.label}: {s.owners.size} assigned"]) ++
  (if missing.isEmpty then [] else
    [.warning s!"{missing.length} construct(s) have no owner (model declares no components)"]) ++
  [.info s!"Assigned owners for {o.assignments.size} of {o.ownable.length} construct(s)"]

end Model

end Blueprint
