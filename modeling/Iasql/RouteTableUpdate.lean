import Iasql.Edits
import Iasql.Routes

namespace Iasql.RouteTables

open Program Prog Aws Edits SecurityGroups Tags

structure RouteTable extends Routes.RouteTable where
  tags : Option (Dict String String) := none

structure AwsRouteTable where
  routeTableId : Option String
  vpcId : Option String
  tags : Dict String String := ∅

-- the VPC that the database, or else AWS, has under an id
structure VpcReads where
  vpc : String → Option Vpc
  vpcId : ∀ id v, vpc id = some v → v.vpcId = some id

structure AwsError where
  code : String
  message : String

-- what AWS answers to the deletion of a route table, and the id of the one created for it
structure Client where
  deleteRouteTable : Option String → Except AwsError Unit
  newRouteTableId : String

def equals (a b : RouteTable) : Bool := a.vpc.vpcId == b.vpc.vpcId && Tags.Vpc.eqTags a.tags b.tags

section Update

def routeTableMapper (l : VpcReads) (routeTable : AwsRouteTable) (region : String) : Option RouteTable :=
  (l.vpc (routeTable.vpcId.getD "")).map fun vpc =>
    { routeTableId := routeTable.routeTableId
      vpc
      tags := some routeTable.tags
      region }

-- updateOrReplace
def replaces (prev next : RouteTable) : Bool := !(prev.vpc.vpcId == next.vpc.vpcId)

abbrev TableState := Edits.State (Option AwsRouteTable) RouteTable

def delete (client : Client) (e : RouteTable) : Prog TableState Thrown Unit :=
  match client.deleteRouteTable e.routeTableId with
  | .ok () => send fun _ => none
  | .error err => if err.code = "InvalidRouteTableID.NotFound" then pure () else fail (.error err.message)

def create (l : VpcReads) (client : Client) (e : RouteTable) : Prog TableState Thrown Unit := do
  let rawRouteTable : AwsRouteTable := ⟨some client.newRouteTableId, e.vpc.vpcId, e.tags.getD ∅⟩
  send fun _ => some rawRouteTable
  match routeTableMapper l rawRouteTable e.region with
  | none => pure ()
  | some routeTable => save { routeTable with id := e.id }

-- the turn of the loop for one table
def updateRouteTable (l : VpcReads) (client : Client) (cloudRecord e : RouteTable) :
    Prog TableState Thrown Unit := do
  if replaces cloudRecord e then do
    delete client cloudRecord
    create l client e
  else save { cloudRecord with id := e.id }

end Update

section Reach

variable {l : VpcReads} {client : Client} {aws : AwsRouteTable} {e c : RouteTable}

structure Agrees (e r : RouteTable) : Prop where
  vpc : r.vpc.vpcId = e.vpc.vpcId
  tags : SameTags r.tags e.tags

-- the tags are sent with another VPC only
def Meets (l : VpcReads) (e c : RouteTable) : Prop :=
  if replaces c e = true then e.vpc.vpcId.isSome = true ∧ (l.vpc (e.vpc.vpcId.getD "")).isSome = true
  else SameTags c.tags e.tags

def Reached (l : VpcReads) (client : Client) (c e : RouteTable) (aws : AwsRouteTable) : Prop :=
  Reaches (updateRouteTable l client c e) (fun a => a.bind fun a => routeTableMapper l a e.region)
    (fun r => { r with id := e.id }) (fun r _ => Agrees e r) ⟨some aws, e⟩

def created (client : Client) (e : RouteTable) : AwsRouteTable :=
  ⟨some client.newRouteTableId, e.vpc.vpcId, e.tags.getD ∅⟩

theorem updateRouteTable_replaces (hreplaces : replaces c e = true)
    (hdeletes : ∀ id, client.deleteRouteTable id = .ok ()) :
    updateRouteTable l client c e ⟨some aws, e⟩ = (.returned (), ⟨some (created client e),
      ((routeTableMapper l (created client e) e.region).map fun r => { r with id := e.id }).getD e⟩) := by
  have hdelete : delete client c ⟨some aws, e⟩ = (.returned (), ⟨none, e⟩) := by
    rw [delete, hdeletes]
    rfl
  rw [updateRouteTable, if_pos hreplaces, bind_of_returned hdelete]
  change (match routeTableMapper l (created client e) e.region with
    | none => pure ()
    | some routeTable => save { routeTable with id := e.id }) (⟨some (created client e), e⟩ : TableState) = _
  cases routeTableMapper l (created client e) e.region with
  | none => rfl
  | some r => rfl

theorem agrees_created : (∃ r, routeTableMapper l (created client e) e.region = some r ∧ Agrees e r) ↔
    e.vpc.vpcId.isSome = true ∧ (l.vpc (e.vpc.vpcId.getD "")).isSome = true := by
  constructor
  · rintro ⟨r, hr, hagrees⟩
    obtain ⟨v, hv, rfl⟩ := Option.map_eq_some_iff.mp hr
    have hvpc : v.vpcId = e.vpc.vpcId := hagrees.vpc
    have hid : e.vpc.vpcId = some (e.vpc.vpcId.getD "") := hvpc.symm.trans (l.vpcId _ v hv)
    exact ⟨Option.isSome_iff_exists.mpr ⟨_, hid⟩, Option.isSome_iff_exists.mpr ⟨v, hv⟩⟩
  · rintro ⟨hsome, hread⟩
    obtain ⟨id, hid⟩ := Option.isSome_iff_exists.mp hsome
    obtain ⟨v, hv⟩ := Option.isSome_iff_exists.mp hread
    refine ⟨_, Option.map_eq_some_iff.mpr ⟨v, hv, rfl⟩, ?_, fun key => ?_⟩
    · rw [hid] at hv
      exact (l.vpcId _ v hv).trans hid.symm
    · exact get?_getD e.tags key

theorem reached_iff (hread : routeTableMapper l aws e.region = some c)
    (hdeletes : ∀ id, client.deleteRouteTable id = .ok ()) :
    Reached l client c e aws ↔ Meets l e c := by
  rw [Meets]
  cases hreplaces : replaces c e with
  | true =>
    rw [if_pos rfl, ← @agrees_created l client e]
    exact reaches_iff (updateRouteTable_replaces hreplaces hdeletes) fun r hr => by
      change routeTableMapper l (created client e) e.region = some r at hr
      rw [hr]
      rfl
  | false =>
    have hrun : updateRouteTable l client c e ⟨some aws, e⟩ =
        (.returned (), ⟨some aws, { c with id := e.id }⟩) := by
      rw [updateRouteTable, hreplaces]
      rfl
    have hvpc : c.vpc.vpcId = e.vpc.vpcId := by simpa [replaces] using hreplaces
    rw [if_neg Bool.false_ne_true]
    refine (reaches_iff hrun fun r hr => ?_).trans ?_
    · obtain rfl : c = r := Option.some.inj (hread.symm.trans hr)
      rfl
    · constructor
      · rintro ⟨r, hr, hagrees⟩
        obtain rfl : c = r := Option.some.inj (hread.symm.trans hr)
        exact hagrees.tags
      · exact fun h => ⟨c, hread, hvpc, h⟩

end Reach

end Iasql.RouteTables
