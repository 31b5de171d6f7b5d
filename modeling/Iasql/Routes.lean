import Iasql.SecurityGroups

namespace Iasql.Routes

open Program Prog Aws SecurityGroups

structure RouteTable where
  id : Option Nat := none
  routeTableId : Option String := none
  vpc : Vpc
  region : String
deriving DecidableEq

structure RouteTableAssociation where
  routeTableAssociationId : Option String := none
  routeTable : RouteTable
  isMain : Bool := false
deriving DecidableEq

-- of the targets of a route a delete looks at the gateway only
structure Route where
  id : Option Nat := none
  routeTable : Option RouteTable
  destination : String
  gatewayId : Option String := none
  region : String
deriving DecidableEq

def idText (id : Option Nat) : String := (id.map toString).getD "undefined"

def Route.entityId (e : Route) : String :=
  let routeTable := e.routeTable.map fun rt => rt.routeTableId.getD (idText rt.id)
  generateId [routeTable.getD "undefined", e.destination, e.region]

structure DeleteRoute where
  region : String
  routeTableId : Option String
  destination : String
deriving DecidableEq

structure State where
  calls : List DeleteRoute := []
  -- what routeTableAssociation.cloud.read finds
  associations : List RouteTableAssociation := []
  -- ctx.memo.db.Route
  dbMemo : Option (Dict String Route) := none
  routes : List Route := []
  nextRouteId : Nat := 1

def isLocal (e : Route) : Bool := e.gatewayId == some "local"

-- the main route table of a default VPC
def inDefaultTable (associations : List RouteTableAssociation) (routeTable : RouteTable) : Bool :=
  associations.any fun a =>
    a.isMain && a.routeTable.routeTableId == routeTable.routeTableId && a.routeTable.vpc.isDefault

def savedRoute (e : Route) (s : State) : Route := { e with id := e.id.or (some s.nextRouteId) }

-- route.db.update, and the memo made sure of
def restore (e : Route) (s : State) : State :=
  let saved := savedRoute e s
  { s with
    routes := Tables.put Route.id saved s.routes
    nextRouteId := if e.id.isNone then s.nextRouteId + 1 else s.nextRouteId
    dbMemo := some ((s.dbMemo.getD ∅).set saved.entityId saved) }

abbrev Removal := DeleteRoute → Except Thrown Unit

def deleteOne (aws : Removal) (e : Route) : Prog State Thrown (Option Unit) := do
  let some routeTable := e.routeTable | return some ()
  if isLocal e then
    writes fun s => { s with dbMemo := s.dbMemo.map (·.eraseAll [e.entityId]) }
    return some ()
  let associations ← reads State.associations
  if inDefaultTable associations routeTable then
    -- nothing leaves the iteration here
    writes (restore e)
  let call : DeleteRoute := ⟨e.region, routeTable.routeTableId, e.destination⟩
  writes fun s => { s with calls := s.calls ++ [call] }
  match aws call with
  | .error err => fail err
  | .ok () => return none

def delete (aws : Removal) (es : List Route) : Prog State Thrown Unit := do
  let _ ← forOf (deleteOne aws) es

section Turns

variable {aws : Removal} {e : Route} {s : State} {routeTable : RouteTable}

def callsOf (e : Route) : List DeleteRoute :=
  match e.routeTable with
  | none => []
  | some routeTable =>
    if isLocal e then [] else [⟨e.region, routeTable.routeTableId, e.destination⟩]

theorem callsOf_eq_nil : callsOf e = [] ↔ e.routeTable = none ∨ isLocal e = true := by
  cases h : e.routeTable with
  | none => simp [callsOf, h]
  | some routeTable => simp [callsOf, h]

theorem deleteOne_none (h : e.routeTable = none) : deleteOne aws e s = (.returned (some ()), s) := by
  simp only [deleteOne, h]
  rfl

theorem deleteOne_local (h : e.routeTable = some routeTable) (hlocal : isLocal e = true) :
    deleteOne aws e s =
      (.returned (some ()), { s with dbMemo := s.dbMemo.map (·.eraseAll [e.entityId]) }) := by
  simp only [deleteOne, h, hlocal, if_true]
  rfl

theorem deleteOne_called (h : e.routeTable = some routeTable) (hlocal : isLocal e = false) :
    ∃ t, t.calls = s.calls ++ callsOf e ∧
      t.routes = (if inDefaultTable s.associations routeTable then restore e s else s).routes ∧
      deleteOne aws e s =
        match aws ⟨e.region, routeTable.routeTableId, e.destination⟩ with
        | .error err => (.thrown err, t)
        | .ok () => (.returned none, t) := by
  have hcalls : callsOf e = [⟨e.region, routeTable.routeTableId, e.destination⟩] := by
    simp [callsOf, h, hlocal]
  simp only [deleteOne, h, hlocal, Bool.false_eq_true, if_false, reads_bind_apply]
  by_cases hdefault : inDefaultTable s.associations routeTable = true
  · rw [if_pos hdefault, if_pos hdefault]
    refine ⟨{ restore e s with calls := s.calls ++ callsOf e }, rfl, rfl, ?_⟩
    rw [hcalls]
    cases aws ⟨e.region, routeTable.routeTableId, e.destination⟩ <;> rfl
  · rw [if_neg hdefault, if_neg hdefault]
    refine ⟨{ s with calls := s.calls ++ callsOf e }, rfl, rfl, ?_⟩
    rw [hcalls]
    cases aws ⟨e.region, routeTable.routeTableId, e.destination⟩ <;> rfl

def goes (_ : Unit) (e : Route) : Bool := e.routeTable.isSome && !isLocal e

theorem goes_eq_false {u : Unit} : goes u e = false ↔ e.routeTable = none ∨ isLocal e = true := by
  cases h : e.routeTable with
  | none => simp [goes, h]
  | some routeTable => simp [goes, h]

theorem turns (hok : ∀ call, aws call = .ok ()) :
    Turns (fun _ => True) State.calls (fun _ => ()) (deleteOne aws) callsOf goes fun _ _ => () where
  kept := fun _ _ _ => trivial
  viewed := fun _ _ _ => rfl
  logged := by
    intro e s _
    cases h : e.routeTable with
    | none => rw [deleteOne_none h, callsOf_eq_nil.mpr (.inl h), List.append_nil]
    | some routeTable =>
      cases hlocal : isLocal e with
      | true =>
        rw [deleteOne_local h hlocal, callsOf_eq_nil.mpr (.inr hlocal), List.append_nil]
      | false =>
        obtain ⟨t, hcalls, -, hrun⟩ := @deleteOne_called aws e s routeTable h hlocal
        rw [hrun, hok]
        exact hcalls
  goes_iff := by
    intro e s _
    cases h : e.routeTable with
    | none => simp [goes, h, deleteOne_none h]
    | some routeTable =>
      cases hlocal : isLocal e with
      | true => simp [goes, hlocal, deleteOne_local h hlocal]
      | false =>
        obtain ⟨t, -, -, hrun⟩ := @deleteOne_called aws e s routeTable h hlocal
        rw [hrun, hok]
        simp [goes, h, hlocal]

end Turns

end Iasql.Routes
