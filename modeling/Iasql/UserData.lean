import Iasql.Instances

namespace Iasql.Instances

open Aws SecurityGroups

section Ascii

variable {c : Char} {text : String}

theorem toNat_ofNat {n : Nat} (h : n < 128) : (Char.ofNat n).toNat = n := by
  have hvalid : n.isValidChar := .inl (by omega)
  rw [Char.ofNat, dif_pos hvalid]
  rfl

theorem utf8EncodeChar_ascii (h : c.toNat < 128) :
    (String.utf8EncodeChar c).map (fun b => Char.ofNat (b.toNat % 128)) = [c] := by
  have hsmall : c.val.toNat ≤ 127 := Nat.le_of_lt_succ h
  have hvalue : (UInt8.ofNat c.val.toNat).toNat % 128 = c.toNat := by
    rw [UInt8.toNat_ofNat']
    change c.toNat % 2 ^ 8 % 128 = c.toNat
    omega
  simp only [String.utf8EncodeChar, hsmall, if_true, List.map_cons, List.map_nil, hvalue,
    Char.ofNat_toNat]

theorem utf8_ne_nil (h : text ≠ "") : utf8 text ≠ [] := by
  cases hlist : text.toList with
  | nil => exact absurd (String.toList_eq_nil_iff.mp hlist) h
  | cons c cs =>
    rw [utf8, hlist, List.flatMap_cons]
    have hne : String.utf8EncodeChar c ≠ [] := by
      rw [String.utf8EncodeChar]
      split
      · exact List.cons_ne_nil _ _
      · split
        · exact List.cons_ne_nil _ _
        · split
          · exact List.cons_ne_nil _ _
          · exact List.cons_ne_nil _ _
    exact fun hnil => hne (List.append_eq_nil_iff.mp hnil).1

-- text is read back exactly where each character has seven bits
theorem ascii_utf8_iff : ascii (utf8 text) = text ↔ ∀ c ∈ text.toList, c.toNat < 128 := by
  constructor
  · intro h c hc
    rw [← h, ascii, String.toList_ofList] at hc
    obtain ⟨b, -, rfl⟩ := List.mem_map.mp hc
    rw [toNat_ofNat (by omega)]
    omega
  · intro h
    have hflat : ∀ cs : List Char, (∀ c ∈ cs, c.toNat < 128) →
        (cs.flatMap String.utf8EncodeChar).map (fun b => Char.ofNat (b.toNat % 128)) = cs := by
      intro cs
      induction cs with
      | nil => exact fun _ => rfl
      | cons c cs ih =>
        intro hall
        rw [List.flatMap_cons, List.map_append, utf8EncodeChar_ascii (hall c List.mem_cons_self),
          ih fun d hd => hall d (List.mem_cons_of_mem _ hd)]
        rfl
    rw [ascii, utf8, hflat text.toList h, String.ofList_toList]

end Ascii

section Survival

variable {l : Reads} {service : Service} {e r : Instance} {instanceId text : String}

theorem encode_ne_nil {bytes : List UInt8} (h : bytes ≠ []) : Base64.encode bytes ≠ [] := by
  cases bytes using Base64.encode.fun_cases with
  | case1 => exact absurd rfl h
  | case2 a => exact List.cons_ne_nil _ _
  | case3 a b => exact List.cons_ne_nil _ _
  | case4 a b c rest => exact List.cons_ne_nil _ _

theorem decodeUserData_encodeUserData :
    decodeUserData (encodeUserData (some text)) = if text = "" then none else some (ascii (utf8 text)) := by
  split
  · next h => rw [h]; rfl
  · next h =>
    have hencoded : String.ofList (Base64.encode (utf8 text)) ≠ "" := fun hempty =>
      encode_ne_nil (utf8_ne_nil h) (by rw [← String.toList_ofList (l := Base64.encode _), hempty]; rfl)
    simp [encodeUserData, decodeUserData, Option.filter, h, hencoded, Base64.decode_encode]

theorem decodeUserData_iff : decodeUserData (encodeUserData (some text)) = some text ↔
    text ≠ "" ∧ ∀ c ∈ text.toList, c.toNat < 128 := by
  rw [decodeUserData_encodeUserData]
  split
  · next h => exact iff_of_false nofun fun hall => hall.1 h
  · next h => rw [Option.some_inj, ascii_utf8_iff, and_iff_right h]

theorem instanceEqReplaceableFields_self (e : Instance) : instanceEqReplaceableFields e e = true := by
  have hgroups : (e.securityGroups.all fun as => e.securityGroups.any fun bs => as.groupId == bs.groupId) =
      true := List.all_eq_true.mpr fun as has => List.any_eq_true.mpr ⟨as, has, beq_self_eq_true _⟩
  simp [instanceEqReplaceableFields, hgroups]

-- the instance launched for e is read with the user data of e, and is not replaced because of it
def Survives (l : Reads) (service : Service) (e : Instance) (instanceId : String) : Prop :=
  ∃ r, instanceMapper l (launched service (instanceParams e) instanceId) e.region = some r ∧
    r.userData = e.userData ∧ instanceEqReplaceableFields { r with userData := e.userData } r = true

theorem instanceMapper_launched (hid : instanceId ≠ "") (htype : e.instanceType ≠ "") :
    instanceMapper l (launched service (instanceParams e) instanceId) e.region =
      some (mapped l (launched service (instanceParams e) instanceId) e.region) := by
  rw [instanceMapper, if_pos]
  simp [launched, instanceParams, Aws.truthy, hid, htype]

theorem with_userData {userData : Option String} (h : r.userData = userData) :
    ({ r with userData } : Instance) = r := by
  subst h
  rfl

theorem survives_iff (hid : instanceId ≠ "") (htype : e.instanceType ≠ "") :
    Survives l service e instanceId ↔ decodeUserData (encodeUserData e.userData) = e.userData := by
  constructor
  · rintro ⟨r, hr, hsame, -⟩
    rw [instanceMapper_launched hid htype] at hr
    cases hr
    exact hsame
  · intro h
    refine ⟨_, instanceMapper_launched hid htype, h, ?_⟩
    rw [with_userData h]
    exact instanceEqReplaceableFields_self _

theorem userData_survives_iff (l : Reads) (service : Service) (e : Instance) (userData : String)
    (instanceId : String) (hid : instanceId ≠ "") (htype : e.instanceType ≠ "") :
    Survives l service { e with userData := some userData } instanceId ↔
      userData ≠ "" ∧ ∀ c ∈ userData.toList, c.toNat < 128 := by
  rw [← decodeUserData_iff]
  exact @survives_iff l service { e with userData := some userData } instanceId hid htype

end Survival

section Scripts

def unread : Reads where
  enabledRegions := ["us-east-1"]
  securityGroup _ _ := none
  role _ := none
  subnet _ _ := none

def launches : Service where
  runInstances _ _ := .ok "i-1"
  imageId := id
  securityGroupIds := ["sg-default"]
  subnetId := "subnet-default"

def micro : Instance := { ami := "ami-1", instanceType := "t3.micro", region := "us-east-1" }

theorem script_survives :
    Survives unread launches { micro with userData := some "#!/bin/sh\necho ok" } "i-1" :=
  (userData_survives_iff unread launches micro "#!/bin/sh\necho ok" "i-1" (by decide) (by decide)).mpr
    ⟨by decide, by simp⟩

theorem accent_lost :
    ¬ Survives unread launches { micro with userData := some "# café" } "i-1" := by
  rw [survives_iff (by decide) (by decide)]
  exact fun h => absurd (decodeUserData_iff.mp h).2 (by simp)

end Scripts

end Iasql.Instances
