import Iasql.Realm

namespace Iasql

open Program Prog

section Networks

structure NetRow where
  vpc : String
  name : String
deriving DecidableEq

instance : JsRecord NetRow := ⟨fun _ e => e, NetRow.name, fun _ e => e⟩

structure NetWorld where
  db : String → List NetRow
  cloud : String → List NetRow

variable {idGen : NetRow → String} {equals : NetRow → NetRow → Bool}
  {admits frees : NetWorld → NetRow → Bool} {name : String} {rows : List NetRow} {e : NetRow}
  {c : Context NetWorld NetRow}

def rowsWithout (idGen : NetRow → String) (i : String) (rows : List NetRow) : List NetRow :=
  rows.filter fun r => idGen r ≠ i

def cloudWith (name : String) (rows : List NetRow) (c : Context NetWorld NetRow) :
    Context NetWorld NetRow :=
  { c with store := { c.store with world := { c.store.world with
      cloud := Function.update c.store.world.cloud name rows } } }

-- a row is written while what it needs is there, and is deleted once nothing needs it
def writeRow (name : String) (idGen : NetRow → String) (admits : NetWorld → NetRow → Bool)
    (e : NetRow) : Prog (Context NetWorld NetRow) Thrown (List NetRow) := fun c =>
  if admits c.store.world e then
    (.returned [e],
      cloudWith name (rowsWithout idGen (idGen e) (c.store.world.cloud name) ++ [e]) c)
  else (.thrown (.error "NotFound"), c)

def deleteRow (name : String) (idGen : NetRow → String) (frees : NetWorld → NetRow → Bool)
    (e : NetRow) : Prog (Context NetWorld NetRow) Thrown Unit := fun c =>
  if frees c.store.world e then
    (.returned (), cloudWith name (rowsWithout idGen (idGen e) (c.store.world.cloud name)) c)
  else (.thrown (.error "DependencyViolation"), c)

def netMapper (name : String) (idGen : NetRow → String) (equals : NetRow → NetRow → Bool)
    (admits frees : NetWorld → NetRow → Bool) : Mapper NetWorld NetRow where
  metadata := { name, tableName := name, ownColumns := [] }
  source := .db
  entityId := idGen
  equals
  updateOrReplace _ _ := .update
  db :=
    { createFn := fun e => pure [e]
      readFn := Prog.reads fun c => c.store.world.db name
      updateFn := fun e => pure [e]
      deleteFn := fun _ => pure () }
  cloud :=
    { createFn := writeRow name idGen admits
      readFn := Prog.reads fun c => c.store.world.cloud name
      updateFn := writeRow name idGen admits
      deleteFn := deleteRow name idGen frees }
  changedEntities _ := pure []

def netVpc : Mapper NetWorld NetRow :=
  netMapper "Vpc" NetRow.vpc (fun _ _ => true) (fun _ _ => true)
    fun w e => !(w.cloud "Subnet").any fun r => r.vpc == e.vpc

def netSubnet : Mapper NetWorld NetRow :=
  netMapper "Subnet" NetRow.name (fun a b => a.vpc == b.vpc)
    (fun w e => (w.cloud "Vpc").any fun r => r.vpc == e.vpc) fun _ _ => true

structure NetSound (st : Store NetWorld) : Prop where
  dbVpcs : ((st.world.db "Vpc").map NetRow.vpc).Nodup
  dbSubnets : ((st.world.db "Subnet").map NetRow.name).Nodup
  vpcs : ((st.world.cloud "Vpc").map NetRow.vpc).Nodup
  subnets : ((st.world.cloud "Subnet").map NetRow.name).Nodup
  references : ∀ s ∈ st.world.db "Subnet", ∃ v ∈ st.world.db "Vpc", v.vpc = s.vpc
  log : st.auditLog = []

def netRealm : Realm NetWorld NetRow where
  rows dest name w := match dest with
    | .db => w.db name
    | .cloud => w.cloud name
  Sound := NetSound
  rank name op := match op with
    | .delete _ => if name = "Vpc" then 3 else 2
    | _ => if name = "Vpc" then 0 else 1

theorem withId_rowsWithout (i k : String) :
    withId idGen (rowsWithout idGen i rows) k = if k = i then [] else withId idGen rows k := by
  split
  · next h =>
    subst h
    exact withId_eq_nil.mpr fun x hx => by simpa using (List.mem_filter.mp hx).2
  · next h =>
    simp only [withId, rowsWithout, List.filter_filter]
    refine List.filter_congr fun x _ => ?_
    by_cases hx : idGen x = k <;> simp [hx, h]

theorem nodup_rowsWithout (h : (rows.map idGen).Nodup) (i : String) :
    ((rowsWithout idGen i rows).map idGen).Nodup := h.sublist (List.filter_sublist.map idGen)

theorem nodup_written (h : (rows.map idGen).Nodup) :
    ((rowsWithout idGen (idGen e) rows ++ [e]).map idGen).Nodup := by
  rw [List.map_append]
  refine List.nodup_append.mpr ⟨nodup_rowsWithout h _, List.nodup_singleton _, ?_⟩
  rintro i hi j hj rfl
  obtain ⟨x, hx, rfl⟩ := List.mem_map.mp hi
  have hne := (List.mem_filter.mp hx).2
  simp only [List.map_cons, List.map_nil, List.mem_singleton] at hj
  simp [hj] at hne

theorem sound_cloudWith (h : NetSound c.store)
    (hn : name = "Vpc" ∧ (rows.map NetRow.vpc).Nodup ∨
      name = "Subnet" ∧ (rows.map NetRow.name).Nodup) :
    NetSound (cloudWith name rows c).store := by
  rcases hn with ⟨rfl, hn⟩ | ⟨rfl, hn⟩
  · exact ⟨h.dbVpcs, h.dbSubnets, by simpa [cloudWith] using hn,
      by simpa [cloudWith] using h.subnets, h.references, h.log⟩
  · exact ⟨h.dbVpcs, h.dbSubnets, by simpa [cloudWith] using h.vpcs,
      by simpa [cloudWith] using hn, h.references, h.log⟩

section Mapped

variable {m : Mapper NetWorld NetRow}

theorem steady_cloudWith (h : NetSound (cloudWith m.entityName rows c).store) :
    netRealm.Steady m (c.view applyDirection)
      ((cloudWith m.entityName rows c).view applyDirection) where
  sound := h
  started := rfl
  apart other hne := by
    refine ⟨rfl, fun dest => ?_⟩
    cases dest
    · rfl
    · exact Function.update_of_ne hne _ _

theorem cell_cloudWith (k : String) :
    netRealm.cell applyDirection m ((cloudWith m.entityName rows c).view applyDirection) k =
      { netRealm.cell applyDirection m (c.view applyDirection) k with
        target := withId m.entityId rows k } := by
  refine Cell.ext rfl rfl ?_
  change withId m.entityId
    (Function.update c.store.world.cloud m.entityName rows m.entityName) k = _
  rw [Function.update_self]

theorem written_cloudWith (hsame : m.equals e e = true)
    (hnoted : (netRealm.cell applyDirection m (c.view applyDirection) (m.entityId e)).noted = [e])
    (htruth : (netRealm.cell applyDirection m (c.view applyDirection) (m.entityId e)).truth = [e]) :
    netRealm.Written applyDirection m (m.entityId e) [e] e e (c.view applyDirection)
      ((cloudWith m.entityName (rowsWithout m.entityId (m.entityId e)
        (c.store.world.cloud m.entityName) ++ [e]) c).view applyDirection) := by
  have hwritten (k : String) : withId m.entityId (rowsWithout m.entityId (m.entityId e)
      (c.store.world.cloud m.entityName) ++ [e]) k =
      if k = m.entityId e then [e] else withId m.entityId (c.store.world.cloud m.entityName) k := by
    rw [withId_append, withId_rowsWithout, withId_cons]
    by_cases hk : k = m.entityId e
    · simp [hk, withId]
    · simp [hk, Ne.symm hk, withId]
  refine ⟨hsame, .inl rfl, ?_, ?_, ⟨e, ?_, rfl, hsame⟩, fun hne => absurd rfl hne,
    fun hne => absurd rfl hne, fun k hk _ => ?_⟩
  · rw [cell_cloudWith]
    exact htruth
  · rw [cell_cloudWith]
    exact (hwritten _).trans (if_pos rfl)
  · rw [cell_cloudWith]
    exact hnoted
  · rw [cell_cloudWith, hwritten, if_neg hk]
    rfl

theorem erased_cloudWith (i : String) :
    netRealm.Erased applyDirection m i (c.view applyDirection)
      ((cloudWith m.entityName (rowsWithout m.entityId i (c.store.world.cloud m.entityName)) c).view
        applyDirection) := by
  refine ⟨?_, fun k hk => ?_⟩
  · rw [cell_cloudWith, withId_rowsWithout, if_pos rfl]
  · rw [cell_cloudWith, withId_rowsWithout, if_neg hk]
    rfl

end Mapped

theorem net_refused {m : Mapper NetWorld NetRow} {op : Operation NetRow} {err : Thrown}
    (hsound : NetSound c.store) (hrun : op.run applyDirection m c = (.thrown err, c))
    {m' : Mapper NetWorld NetRow} (hm' : m' ∈ [netSubnet, netVpc]) {op' : Operation NetRow}
    {i : String} (hid : op'.id applyDirection m' = i)
    (hcalls : (netRealm.cell applyDirection m' (c.view applyDirection) i).Calls
      applyDirection m' op')
    (hrank : netRealm.rank m'.entityName op' < netRealm.rank m.entityName op) :
    netRealm.Performs applyDirection [netSubnet, netVpc] m op c := by
  subst hid
  exact .inr ⟨err, c, hrun, ⟨hsound, rfl, fun _ _ => ⟨rfl, fun _ => rfl⟩⟩, fun _ => rfl,
    m', hm', op', hcalls, hrank⟩

-- a subnet whose VPC is missing waits for the creation of that VPC
theorem vpc_outstanding (hsound : NetSound c.store)
    (hin : netRealm.InStep applyDirection [netSubnet, netVpc] (c.view applyDirection))
    (he : e ∈ c.store.world.db "Subnet")
    (hnone : ∀ r ∈ c.store.world.cloud "Vpc", r.vpc ≠ e.vpc) :
    ∃ v, v.vpc = e.vpc ∧ (netRealm.cell applyDirection netVpc (c.view applyDirection) e.vpc).Calls
      applyDirection netVpc (.create v) := by
  obtain ⟨v, hv, hvpc⟩ := hsound.references e he
  have htruth : v ∈ (netRealm.cell applyDirection netVpc (c.view applyDirection) e.vpc).truth :=
    mem_withId.mpr ⟨hv, hvpc⟩
  have htarget : (netRealm.cell applyDirection netVpc (c.view applyDirection) e.vpc).target = [] :=
    withId_eq_nil.mpr hnone
  rcases hin netVpc (by simp) e.vpc with (⟨-, ht, -⟩ | ⟨_, _, -, hr, -⟩) | ⟨op, hid, hcalls⟩
  · rw [ht] at htruth
    cases htruth
  · cases htarget.symm.trans hr
  · cases op with
    | create w => exact ⟨w, hid, hcalls⟩
    | update ec => cases htarget.symm.trans hcalls.2.2.1
    | delete w =>
      rw [hcalls.2.1] at htruth
      cases htruth

-- a VPC in use waits for a subnet that is to be moved or deleted
theorem subnet_outstanding (hsound : NetSound c.store)
    (hin : netRealm.InStep applyDirection [netSubnet, netVpc] (c.view applyDirection))
    {r : NetRow} (hr : r ∈ c.store.world.cloud "Subnet")
    (hnone : ∀ v ∈ c.store.world.db "Vpc", v.vpc ≠ r.vpc) :
    ∃ op : Operation NetRow, op.id applyDirection netSubnet = r.name ∧
      (netRealm.cell applyDirection netSubnet (c.view applyDirection) r.name).Calls applyDirection
        netSubnet op ∧ netRealm.rank "Subnet" op < 3 := by
  have htarget : r ∈ (netRealm.cell applyDirection netSubnet (c.view applyDirection)
      r.name).target := mem_withId.mpr ⟨hr, rfl⟩
  rcases hin netSubnet (by simp) r.name with
    (⟨-, -, h⟩ | ⟨t, r', ht, h, hsame, -⟩) | ⟨op, hid, hcalls⟩
  · rw [h] at htarget
    cases htarget
  · rw [h] at htarget
    obtain rfl := List.mem_singleton.mp htarget
    have htruth : t ∈ (netRealm.cell applyDirection netSubnet (c.view applyDirection)
        r.name).truth := by
      rw [ht]
      exact List.mem_singleton_self t
    obtain ⟨v, hv, hvpc⟩ := hsound.references t (mem_withId.mp htruth).1
    have heq : t.vpc = r.vpc := beq_iff_eq.mp hsame
    exact absurd (hvpc.trans heq) (hnone v hv)
  · refine ⟨op, hid, hcalls, ?_⟩
    cases op <;> simp [netRealm]

theorem netVpc_performs (hsound : NetSound c.store)
    (hin : netRealm.InStep applyDirection [netSubnet, netVpc] (c.view applyDirection))
    {op : Operation NetRow}
    (hcalls : (netRealm.cell applyDirection netVpc (c.view applyDirection)
      (op.id applyDirection netVpc)).Calls applyDirection netVpc op) :
    netRealm.Performs applyDirection [netSubnet, netVpc] netVpc op c := by
  cases op with
  | create e =>
    exact .inl ⟨[e], _, rfl,
      steady_cloudWith (sound_cloudWith hsound (.inl ⟨rfl, nodup_written hsound.vpcs⟩)), e, e,
      written_cloudWith rfl hcalls.1 hcalls.2.1⟩
  | update ec =>
    exact absurd hcalls.2.2.2 (by simp [Direction.same, applyDirection, netVpc, netMapper])
  | delete e =>
    by_cases hfree : (!(c.store.world.cloud "Subnet").any fun r => r.vpc == e.vpc) = true
    · have hrun : deleteRow "Vpc" NetRow.vpc
          (fun w e => !(w.cloud "Subnet").any fun r => r.vpc == e.vpc) e c =
          (.returned (), cloudWith "Vpc"
            (rowsWithout NetRow.vpc e.vpc (c.store.world.cloud "Vpc")) c) := if_pos hfree
      have hrest := sound_cloudWith hsound (.inl ⟨rfl, nodup_rowsWithout hsound.vpcs e.vpc⟩)
      exact .inl ⟨[], _, bind_of_returned hrun, steady_cloudWith (m := netVpc) hrest,
        erased_cloudWith _⟩
    · have hrun : deleteRow "Vpc" NetRow.vpc
          (fun w e => !(w.cloud "Subnet").any fun r => r.vpc == e.vpc) e c =
          (.thrown (.error "DependencyViolation"), c) := if_neg hfree
      obtain ⟨r, hr, hvpc⟩ : ∃ r ∈ c.store.world.cloud "Subnet", r.vpc = e.vpc := by
        simpa using hfree
      have hnone : ∀ v ∈ c.store.world.db "Vpc", v.vpc ≠ r.vpc := by
        rw [hvpc]
        exact withId_eq_nil.mp hcalls.2.1
      obtain ⟨op, hid, hop, hrank⟩ := subnet_outstanding hsound hin hr hnone
      exact net_refused hsound (bind_of_thrown hrun) (by simp) hid hop hrank

theorem netSubnet_performs (hsound : NetSound c.store)
    (hin : netRealm.InStep applyDirection [netSubnet, netVpc] (c.view applyDirection))
    {op : Operation NetRow}
    (hcalls : (netRealm.cell applyDirection netSubnet (c.view applyDirection)
      (op.id applyDirection netSubnet)).Calls applyDirection netSubnet op) :
    netRealm.Performs applyDirection [netSubnet, netVpc] netSubnet op c := by
  have hwrite (e : NetRow) (hop : op.run applyDirection netSubnet =
      writeRow "Subnet" NetRow.name (fun w e => (w.cloud "Vpc").any fun r => r.vpc == e.vpc) e)
      (hrank : netRealm.rank "Subnet" op = 1) (hid : op.id applyDirection netSubnet = e.name)
      (hnoted : (netRealm.cell applyDirection netSubnet (c.view applyDirection) e.name).noted = [e])
      (htruth : (netRealm.cell applyDirection netSubnet (c.view applyDirection) e.name).truth = [e])
      (heffect : ∀ v', (∃ t r, netRealm.Written applyDirection netSubnet e.name [e] t r
        (c.view applyDirection) v') →
          op.Effect netRealm applyDirection netSubnet [e] (c.view applyDirection) v') :
      netRealm.Performs applyDirection [netSubnet, netVpc] netSubnet op c := by
    have hmem : e ∈ c.store.world.db "Subnet" := by
      have he : e ∈ (netRealm.cell applyDirection netSubnet (c.view applyDirection)
          e.name).truth := by
        rw [htruth]
        exact List.mem_singleton_self e
      exact (mem_withId.mp he).1
    by_cases hadmits : ((c.store.world.cloud "Vpc").any fun r => r.vpc == e.vpc) = true
    · have hwritten := sound_cloudWith hsound (.inr ⟨rfl, nodup_written (e := e) hsound.subnets⟩)
      exact .inl ⟨[e], _, hop.symm ▸ if_pos hadmits, steady_cloudWith (m := netSubnet) hwritten,
        heffect _ ⟨e, e, written_cloudWith (beq_self_eq_true e.vpc) hnoted htruth⟩⟩
    · obtain ⟨v, hv, hcreate⟩ := vpc_outstanding hsound hin hmem (by simpa using hadmits)
      have hrun : op.run applyDirection netSubnet c = (.thrown (.error "NotFound"), c) := by
        rw [hop]
        exact if_neg hadmits
      have hlt : netRealm.rank netVpc.entityName (.create v) <
          netRealm.rank netSubnet.entityName op := by
        change netRealm.rank "Vpc" (.create v) < netRealm.rank "Subnet" op
        rw [hrank]
        simp [netRealm]
      have hvpc : netVpc ∈ [netSubnet, netVpc] := by simp
      have hid : (Operation.create v).id applyDirection netVpc = e.vpc := hv
      exact net_refused hsound hrun hvpc hid hcreate hlt
  cases op with
  | create e => exact hwrite e rfl rfl rfl hcalls.1 hcalls.2.1 fun _ h => h
  | update ec =>
    exact hwrite ec.1 rfl rfl rfl (hcalls.1.elim id id) hcalls.2.1 fun _ h => h
  | delete e =>
    exact .inl ⟨[], _, rfl,
      steady_cloudWith (m := netSubnet)
        (sound_cloudWith hsound (.inr ⟨rfl, nodup_rowsWithout hsound.subnets e.name⟩)),
      erased_cloudWith _⟩

theorem net_all {p : Mapper NetWorld NetRow → Prop} (hvpc : p netVpc) (hsubnet : p netSubnet) :
    ∀ m ∈ [netSubnet, netVpc], p m := by simp [hvpc, hsubnet]

theorem net_legible {d : Direction NetWorld NetRow} (hd : d.truth ≠ d.target) :
    netRealm.Legible d [netSubnet, netVpc] := by
  refine ⟨hd, by decide, net_all (fun dest st hst => ?_) fun dest st hst => ?_,
    net_all (fun dest c _ => ?_) fun dest c _ => ?_⟩
  · cases dest
    · exact hst.dbVpcs
    · exact hst.vpcs
  · cases dest
    · exact hst.dbSubnets
    · exact hst.subnets
  · cases dest <;> rfl
  · cases dest <;> rfl

theorem net_lawful : netRealm.Lawful applyDirection [netSubnet, netVpc] := by
  refine ⟨net_legible (by decide),
    net_all (fun op c hsound hin hcalls => netVpc_performs hsound hin hcalls)
      fun op c hsound hin hcalls => netSubnet_performs hsound hin hcalls,
    net_all (fun _ => rfl) fun _ => rfl, fun _ _ => rfl, ?_⟩
  · intro name name' op op' hop hop'
    cases op <;> cases op' <;> simp only [Operation.Deletes, not_true_eq_false, netRealm] at * <;>
      split <;> split <;> decide

def netModule : Module NetWorld NetRow where
  name := "aws_vpc"
  version := "0.0.1"
  dependencies := []
  tables := ["Vpc", "Subnet"]
  mappers := [netSubnet, netVpc]

def netEnv : Env NetWorld NetRow :=
  Env.reliable { dbUser := "iasql", version := "0.0.1" } [netModule]

-- the database has a new VPC with a subnet, the cloud has one of each that are no longer wanted
def netEngine : Engine NetWorld NetRow where
  ctx :=
    { store :=
        { world :=
            { db := fun name => if name = "Vpc" then [⟨"new", ""⟩] else [⟨"new", "web"⟩]
              cloud := fun name => if name = "Vpc" then [⟨"old", ""⟩] else [⟨"old", "jobs"⟩] }
          auditLog := [] } }

theorem net_calm : netRealm.Calm netEnv none where
  createConn _ _ := ⟨1, rfl⟩
  dropConn _ _ _ := rfl
  roundTrip _ _ := rfl
  upgrading _ _ := rfl
  versionString _ _ := rfl
  unchanged st hst := by
    rw [hst.log]
    rfl

theorem netEngine_sound : NetSound netEngine.ctx.store where
  dbVpcs := by decide
  dbSubnets := by decide
  vpcs := by decide
  subnets := by decide
  references := by decide
  log := rfl

end Networks

end Iasql
