import Iasql.AwsDiff
import Iasql.Calculus.Patterns
import Mathlib.Data.List.Chain

namespace Iasql.RouteDestinations

open AwsDiff Patterns Pattern

section Source

abbrev Unit16 := Fin 65536

def range (first last : Char) : Pattern Unit16 := one fun u => first.toNat ≤ u.val && u.val ≤ last.toNat

def lit (c : Char) : Pattern Unit16 := one fun u => u.val == c.toNat

def digit : Pattern Unit16 := range '0' '9'

-- . is any code unit that ends no line
def isTerminator (u : Unit16) : Bool := [10, 13, 8232, 8233].contains u.val

def dot : Pattern Unit16 := one fun u => !isTerminator u

-- 25[0-5]|2[0-4][0-9]|[01]?[0-9][0-9]?
def octet : Pattern Unit16 := anyOf [
  seq (lit '2') (seq (lit '5') (range '0' '5')),
  seq (lit '2') (seq (range '0' '4') digit),
  seq (optional (range '0' '1')) (seq digit (optional digit))]

-- 3[0-2]|[12][0-9]|[0-9]
def length4 : Pattern Unit16 := anyOf [
  seq (lit '3') (range '0' '2'),
  seq (range '1' '2') digit,
  digit]

-- 12[0-8]|1[01][0-9]|[1-9]?[0-9]
def length6 : Pattern Unit16 := anyOf [
  seq (lit '1') (seq (lit '2') (range '0' '8')),
  seq (lit '1') (seq (range '0' '1') digit),
  seq (optional (range '1' '9')) digit]

def cidrIPv4Pattern : Pattern Unit16 :=
  seq (times 3 (seq octet dot)) (seq octet (seq (lit '/') length4))

-- [0-9a-fA-F]{1,4}
def hex : Pattern Unit16 := between 1 4 (anyOf [range '0' '9', range 'a' 'f', range 'A' 'F'])

def address6 : Pattern Unit16 := anyOf [
  seq (between 7 7 (seq hex (lit ':'))) hex,
  seq (between 1 7 (seq hex (lit ':'))) (lit ':'),
  seq (between 1 6 (seq hex (lit ':'))) (seq (lit ':') hex),
  seq (between 1 5 (seq hex (lit ':'))) (between 1 2 (seq (lit ':') hex)),
  seq (between 1 4 (seq hex (lit ':'))) (between 1 3 (seq (lit ':') hex)),
  seq (between 1 3 (seq hex (lit ':'))) (between 1 4 (seq (lit ':') hex)),
  seq (between 1 2 (seq hex (lit ':'))) (between 1 5 (seq (lit ':') hex)),
  seq hex (seq (lit ':') (between 1 6 (seq (lit ':') hex))),
  seq (lit ':') (either (between 1 7 (seq (lit ':') hex)) (lit ':'))]

def cidrIPv6Pattern : Pattern Unit16 := seq address6 (seq (lit '/') length6)

def prefixedListPattern : Pattern Unit16 :=
  seq (lit 'p') (seq (lit 'l') (seq (lit '-') (plus dot)))

structure Route where
  routeTableId : Option JsString
  destination : JsString
  egressOnlyInternetGatewayId : Option JsString := none
  gatewayId : Option JsString := none
  instanceId : Option JsString := none
  natGatewayId : Option JsString := none
  transitGatewayId : Option JsString := none
  localGatewayId : Option JsString := none
  carrierGatewayId : Option JsString := none
  networkInterfaceId : Option JsString := none
  vpcPeeringConnectionId : Option JsString := none
  coreNetworkArn : Option JsString := none

structure DeleteRoute where
  destinationCidrBlock : Option JsString
  destinationIpv6CidrBlock : Option JsString
  destinationPrefixListId : Option JsString
  routeTableId : Option JsString

structure CreateRoute extends DeleteRoute where
  egressOnlyInternetGatewayId : Option JsString
  gatewayId : Option JsString
  instanceId : Option JsString
  natGatewayId : Option JsString
  transitGatewayId : Option JsString
  localGatewayId : Option JsString
  carrierGatewayId : Option JsString
  networkInterfaceId : Option JsString
  vpcPeeringConnectionId : Option JsString
  coreNetworkArn : Option JsString

def deleteRoute (r : Route) : DeleteRoute where
  destinationCidrBlock := if cidrIPv4Pattern.test r.destination then some r.destination else none
  destinationIpv6CidrBlock := if cidrIPv6Pattern.test r.destination then some r.destination else none
  destinationPrefixListId := if prefixedListPattern.test r.destination then some r.destination else none
  routeTableId := r.routeTableId

def createRoute (r : Route) : CreateRoute where
  routeTableId := r.routeTableId
  destinationCidrBlock := if cidrIPv4Pattern.test r.destination then some r.destination else none
  destinationIpv6CidrBlock := if cidrIPv6Pattern.test r.destination then some r.destination else none
  destinationPrefixListId := if prefixedListPattern.test r.destination then some r.destination else none
  egressOnlyInternetGatewayId := r.egressOnlyInternetGatewayId
  gatewayId := r.gatewayId
  instanceId := r.instanceId
  natGatewayId := r.natGatewayId
  transitGatewayId := r.transitGatewayId
  localGatewayId := r.localGatewayId
  carrierGatewayId := r.carrierGatewayId
  networkInterfaceId := r.networkInterfaceId
  vpcPeeringConnectionId := r.vpcPeeringConnectionId
  coreNetworkArn := r.coreNetworkArn

end Source

section Grammar

def IsDigit (u : Unit16) : Prop := 48 ≤ u.val ∧ u.val ≤ 57

def IsHex (u : Unit16) : Prop :=
  IsDigit u ∨ 97 ≤ u.val ∧ u.val ≤ 102 ∨ 65 ≤ u.val ∧ u.val ≤ 70

def value (w : JsString) : Nat := w.foldl (fun n u => 10 * n + (u.val - 48)) 0

def Unpadded (w : JsString) : Prop := ∀ u rest, w = u :: rest → u.val = 48 → rest = []

-- a number of up to three digits, maybe with leading zeros
structure Octet (w : JsString) : Prop where
  nonempty : w ≠ []
  short : w.length ≤ 3
  digits : ∀ u ∈ w, IsDigit u
  bound : value w ≤ 255

structure PrefixLength (max : Nat) (w : JsString) : Prop where
  nonempty : w ≠ []
  digits : ∀ u ∈ w, IsDigit u
  unpadded : Unpadded w
  bound : value w ≤ max

-- four octets with a code unit after each of the first three, and a prefix length
structure Quad where
  octet₁ : JsString
  after₁ : Unit16
  octet₂ : JsString
  after₂ : Unit16
  octet₃ : JsString
  after₃ : Unit16
  octet₄ : JsString
  length : JsString

def Quad.text (q : Quad) : JsString :=
  q.octet₁ ++ q.after₁ :: (q.octet₂ ++ q.after₂ :: (q.octet₃ ++ q.after₃ :: (q.octet₄ ++ js "/" ++ q.length)))

structure Quad.Numbers (q : Quad) : Prop where
  octet₁ : Octet q.octet₁
  octet₂ : Octet q.octet₂
  octet₃ : Octet q.octet₃
  octet₄ : Octet q.octet₄
  length : PrefixLength 32 q.length

def Quad.Dotted (q : Quad) : Prop := [q.after₁] = js "." ∧ [q.after₂] = js "." ∧ [q.after₃] = js "."

def Ipv4Cidr (d : JsString) : Prop := ∃ q : Quad, d = q.text ∧ q.Numbers ∧ q.Dotted

structure Group (w : JsString) : Prop where
  nonempty : w ≠ []
  short : w.length ≤ 4
  hex : ∀ u ∈ w, IsHex u

def joined (groups : List JsString) : JsString := (js ":").intercalate groups

-- eight groups, or fewer with :: for the groups that are left out
inductive Ipv6Address : JsString → Prop
  | full (groups : List JsString) (h : ∀ g ∈ groups, Group g) (hlength : groups.length = 8) :
      Ipv6Address (joined groups)
  | short (before after : List JsString) (hbefore : ∀ g ∈ before, Group g) (hafter : ∀ g ∈ after, Group g)
      (hlength : before.length + after.length ≤ 7) :
      Ipv6Address (joined before ++ js "::" ++ joined after)

def Ipv6Cidr (d : JsString) : Prop :=
  ∃ address length, d = address ++ js "/" ++ length ∧ Ipv6Address address ∧ PrefixLength 128 length

def PrefixListId (d : JsString) : Prop := ∃ rest, rest ≠ [] ∧ d = js "pl-" ++ rest

-- the destination is in at most one of the fields, and in the one of its form
structure Classified (d : JsString) (request : DeleteRoute) : Prop where
  notBoth : ¬ (request.destinationCidrBlock.isSome = true ∧ request.destinationIpv6CidrBlock.isSome = true)
  notList : ¬ (request.destinationCidrBlock.isSome = true ∧ request.destinationPrefixListId.isSome = true)
  notList6 : ¬ (request.destinationIpv6CidrBlock.isSome = true ∧
    request.destinationPrefixListId.isSome = true)
  cidrBlock : request.destinationCidrBlock = some d ↔ Ipv4Cidr d
  ipv6CidrBlock : request.destinationIpv6CidrBlock = some d ↔ Ipv6Cidr d
  prefixListId : request.destinationPrefixListId = some d ↔ PrefixListId d

end Grammar

section Numbers

variable {w : JsString} {first last c : Char}

theorem mem_range : w ∈ (range first last).language ↔
    ∃ u : Unit16, w = [u] ∧ first.toNat ≤ u.val ∧ u.val ≤ last.toNat := by
  rw [range, mem_one]
  simp only [Bool.and_eq_true, decide_eq_true_eq, and_comm, and_assoc]

theorem mem_lit : w ∈ (lit c).language ↔ ∃ u : Unit16, w = [u] ∧ u.val = c.toNat := by
  rw [lit, mem_one]
  simp only [beq_iff_eq, and_comm]

theorem mem_letter (hc : c.toNat < 65536) : w ∈ (lit c).language ↔ w = [⟨c.toNat, hc⟩] := by
  rw [mem_lit]
  constructor
  · rintro ⟨u, rfl, hu⟩
    exact congrArg (fun v => [v]) (Fin.ext hu)
  · rintro rfl
    exact ⟨_, rfl, rfl⟩

theorem le_foldl (w : JsString) (n : Nat) : n ≤ w.foldl (fun n u => 10 * n + (u.val - 48)) n := by
  induction w generalizing n with
  | nil => exact Nat.le_refl n
  | cons u w ih =>
    have hstep : n ≤ 10 * n + (u.val - 48) := by omega
    exact hstep.trans (ih _)

-- a number below a thousand has at most three digits, where it is not padded
theorem short_of_unpadded (hunpadded : Unpadded w) (hdigits : ∀ u ∈ w, IsDigit u) (h : value w < 1000) :
    w.length ≤ 3 := by
  rcases w with _ | ⟨u₁, _ | ⟨u₂, _ | ⟨u₃, _ | ⟨u₄, w⟩⟩⟩⟩
  · simp
  · simp
  · simp
  · simp
  have hfirst : u₁.val ≠ 48 := fun heq => by cases hunpadded u₁ _ rfl heq
  obtain ⟨hlow, hhigh⟩ := hdigits u₁ List.mem_cons_self
  have hle := le_foldl w
    (10 * (10 * (10 * (10 * 0 + (u₁.val - 48)) + (u₂.val - 48)) + (u₃.val - 48)) + (u₄.val - 48))
  have hvalue : value (u₁ :: u₂ :: u₃ :: u₄ :: w) = w.foldl (fun n u => 10 * n + (u.val - 48))
    (10 * (10 * (10 * (10 * 0 + (u₁.val - 48)) + (u₂.val - 48)) + (u₃.val - 48)) + (u₄.val - 48)) := rfl
  omega

-- one character after another
@[simp]
theorem nil_notMem_range_seq {a : Pattern Unit16} : [] ∉ (seq (range first last) a).language := by
  rintro ⟨x, hx, v, hv, heq⟩
  obtain ⟨u, rfl, -⟩ := mem_range.mp hx
  cases heq

@[simp]
theorem nil_notMem_lit_seq {a : Pattern Unit16} : [] ∉ (seq (lit c) a).language := by
  rintro ⟨x, hx, v, hv, heq⟩
  obtain ⟨u, rfl, -⟩ := mem_lit.mp hx
  cases heq

@[simp]
theorem nil_notMem_range : [] ∉ (range first last).language := by
  rintro ⟨u, -, heq⟩
  cases heq

@[simp]
theorem cons_mem_range {u : Unit16} :
    u :: w ∈ (range first last).language ↔ (first.toNat ≤ u.val ∧ u.val ≤ last.toNat) ∧ w = [] := by
  rw [mem_range]
  constructor
  · rintro ⟨u', heq, hu⟩
    obtain ⟨rfl, rfl⟩ := List.cons.inj heq
    exact ⟨hu, rfl⟩
  · rintro ⟨hu, rfl⟩
    exact ⟨u, rfl, hu⟩

@[simp]
theorem cons_mem_range_seq {a : Pattern Unit16} {u : Unit16} : u :: w ∈ (seq (range first last) a).language ↔
    (first.toNat ≤ u.val ∧ u.val ≤ last.toNat) ∧ w ∈ a.language := by
  rw [mem_seq]
  constructor
  · rintro ⟨x, hx, v, hv, heq⟩
    obtain ⟨u', rfl, hu⟩ := mem_range.mp hx
    obtain ⟨rfl, rfl⟩ := List.cons.inj heq
    exact ⟨hu, hv⟩
  · rintro ⟨hu, hv⟩
    exact ⟨[u], mem_range.mpr ⟨u, rfl, hu⟩, w, hv, rfl⟩

@[simp]
theorem cons_mem_lit_seq {a : Pattern Unit16} {u : Unit16} :
    u :: w ∈ (seq (lit c) a).language ↔ u.val = c.toNat ∧ w ∈ a.language := by
  rw [mem_seq]
  constructor
  · rintro ⟨x, hx, v, hv, heq⟩
    obtain ⟨u', rfl, hu⟩ := mem_lit.mp hx
    obtain ⟨rfl, rfl⟩ := List.cons.inj heq
    exact ⟨hu, hv⟩
  · rintro ⟨hu, hv⟩
    exact ⟨[u], mem_lit.mpr ⟨u, rfl, hu⟩, w, hv, rfl⟩

@[simp]
theorem mem_optional_seq {a b : Pattern Unit16} : w ∈ (seq (optional a) b).language ↔
    w ∈ (seq a b).language ∨ w ∈ b.language := by
  rw [mem_seq, mem_seq]
  constructor
  · rintro ⟨x, hx | rfl, v, hv, rfl⟩
    · exact .inl ⟨x, hx, v, hv, rfl⟩
    · exact .inr hv
  · rintro (⟨x, hx, v, hv, rfl⟩ | h)
    · exact ⟨x, .inl hx, v, hv, rfl⟩
    · exact ⟨[], .inr rfl, w, h, rfl⟩

theorem octet_spec : Octet w ↔ w ≠ [] ∧ w.length ≤ 3 ∧ (∀ u ∈ w, IsDigit u) ∧ value w ≤ 255 :=
  ⟨fun h => ⟨h.nonempty, h.short, h.digits, h.bound⟩, fun ⟨h₁, h₂, h₃, h₄⟩ => ⟨h₁, h₂, h₃, h₄⟩⟩

theorem octet_iff : w ∈ octet.language ↔ Octet w := by
  rw [octet_spec]
  rcases w with _ | ⟨u, _ | ⟨v, _ | ⟨x, _ | ⟨y, w⟩⟩⟩⟩
  · simp [octet, mem_anyOf, digit]
  · simp [octet, mem_anyOf, digit, mem_optional, value, IsDigit]
    omega
  · simp [octet, mem_anyOf, digit, mem_optional, value, IsDigit]
    omega
  · simp [octet, mem_anyOf, digit, mem_optional, value, IsDigit]
    omega
  · simp [octet, mem_anyOf, digit, mem_optional]

theorem prefixLength_spec {max : Nat} : PrefixLength max w ↔
    w ≠ [] ∧ (∀ u ∈ w, IsDigit u) ∧ Unpadded w ∧ value w ≤ max :=
  ⟨fun h => ⟨h.nonempty, h.digits, h.unpadded, h.bound⟩, fun ⟨h₁, h₂, h₃, h₄⟩ => ⟨h₁, h₂, h₃, h₄⟩⟩

theorem PrefixLength.short {max : Nat} (h : PrefixLength max w) (hmax : max < 1000) : w.length ≤ 3 :=
  short_of_unpadded h.unpadded h.digits (h.bound.trans_lt hmax)

@[simp]
theorem unpadded_cons {u : Unit16} : Unpadded (u :: w) ↔ (u.val = 48 → w = []) := by
  constructor
  · intro h
    exact h u w rfl
  · rintro h u' rest heq
    obtain ⟨rfl, rfl⟩ := List.cons.inj heq
    exact h

theorem length4_iff : w ∈ length4.language ↔ PrefixLength 32 w := by
  rcases w with _ | ⟨u, _ | ⟨v, _ | ⟨x, _ | ⟨y, w⟩⟩⟩⟩
  · simp [length4, mem_anyOf, digit, prefixLength_spec]
  · simp [length4, mem_anyOf, digit, prefixLength_spec, value, IsDigit]
    omega
  · simp [length4, mem_anyOf, digit, prefixLength_spec, value, IsDigit]
    omega
  · simp [length4, mem_anyOf, digit, prefixLength_spec, value, IsDigit]
    omega
  · refine iff_of_false (by simp [length4, mem_anyOf, digit]) fun h => ?_
    have hshort := h.short (by decide)
    simp only [List.length_cons] at hshort
    omega

theorem length6_iff : w ∈ length6.language ↔ PrefixLength 128 w := by
  rcases w with _ | ⟨u, _ | ⟨v, _ | ⟨x, _ | ⟨y, w⟩⟩⟩⟩
  · simp [length6, mem_anyOf, digit, prefixLength_spec]
  · simp [length6, mem_anyOf, digit, prefixLength_spec, value, IsDigit]
    omega
  · simp [length6, mem_anyOf, digit, prefixLength_spec, value, IsDigit]
    omega
  · simp [length6, mem_anyOf, digit, prefixLength_spec, value, IsDigit]
    omega
  · refine iff_of_false (by simp [length6, mem_anyOf, digit]) fun h => ?_
    have hshort := h.short (by decide)
    simp only [List.length_cons] at hshort
    omega

theorem hex_iff : w ∈ hex.language ↔ Group w := by
  have hletter : ∀ v : JsString,
      v ∈ (anyOf [range '0' '9', range 'a' 'f', range 'A' 'F']).language ↔ ∃ u, IsHex u ∧ v = [u] := by
    intro v
    simp only [mem_anyOf, List.mem_cons, exists_eq_or_imp, List.not_mem_nil, or_false, exists_eq_left,
      mem_range, IsHex, IsDigit, and_comm (b := v = _), and_or_left, exists_or]
    rfl
  have hwords := exists_letters (w := w) hletter (P := fun k => 1 ≤ k ∧ k ≤ 4)
  rw [hex, mem_between (by decide)]
  simp only [and_assoc] at hwords
  rw [hwords]
  constructor
  · rintro ⟨hmin, hmax, hhex⟩
    exact ⟨List.ne_nil_of_length_pos hmin, hmax, hhex⟩
  · intro h
    exact ⟨List.length_pos_of_ne_nil h.nonempty, h.short, h.hex⟩

end Numbers

section Groups

variable {w : JsString} {groups : List JsString} {m n : Nat}

-- a colon after each group, or before each
def ended (groups : List JsString) : JsString := (groups.map (· ++ js ":")).flatten

def begun (groups : List JsString) : JsString := (groups.map (js ":" ++ ·)).flatten

theorem mem_colon : w ∈ (lit ':').language ↔ w = js ":" := mem_letter (by decide)

theorem mem_slash : w ∈ (lit '/').language ↔ w = js "/" := mem_letter (by decide)

theorem mem_ended (h : m ≤ n) : w ∈ (between m n (seq hex (lit ':'))).language ↔
    ∃ groups : List JsString, (∀ g ∈ groups, Group g) ∧ (m ≤ groups.length ∧ groups.length ≤ n) ∧
      w = ended groups := by
  have hseq : ∀ v, v ∈ (seq hex (lit ':')).language ↔ ∃ g, Group g ∧ v = g ++ js ":" := by
    intro v
    rw [mem_seq]
    constructor
    · rintro ⟨g, hg, colon, hcolon, rfl⟩
      exact ⟨g, hex_iff.mp hg, by rw [mem_colon.mp hcolon]⟩
    · rintro ⟨g, hg, rfl⟩
      exact ⟨g, hex_iff.mpr hg, js ":", mem_colon.mpr rfl, rfl⟩
  rw [mem_between h]
  simpa only [and_assoc, ended] using exists_parts hseq (P := fun k => m ≤ k ∧ k ≤ n)

theorem mem_begun (h : m ≤ n) : w ∈ (between m n (seq (lit ':') hex)).language ↔
    ∃ groups : List JsString, (∀ g ∈ groups, Group g) ∧ (m ≤ groups.length ∧ groups.length ≤ n) ∧
      w = begun groups := by
  have hseq : ∀ v, v ∈ (seq (lit ':') hex).language ↔ ∃ g, Group g ∧ v = js ":" ++ g := by
    intro v
    rw [mem_seq]
    constructor
    · rintro ⟨colon, hcolon, g, hg, rfl⟩
      exact ⟨g, hex_iff.mp hg, by rw [mem_colon.mp hcolon]⟩
    · rintro ⟨g, hg, rfl⟩
      exact ⟨js ":", mem_colon.mpr rfl, g, hex_iff.mpr hg, rfl⟩
  rw [mem_between h]
  simpa only [and_assoc, begun] using exists_parts hseq (P := fun k => m ≤ k ∧ k ≤ n)

theorem joined_append_colon (h : groups ≠ []) : joined groups ++ js ":" = ended groups := by
  induction groups with
  | nil => exact absurd rfl h
  | cons g groups ih =>
    rcases groups with _ | ⟨g', groups⟩
    · simp [joined, ended]
    · rw [joined, List.intercalate_cons_cons, List.append_assoc, ← joined, ih (List.cons_ne_nil _ _)]
      simp [ended]

theorem colon_append_joined (h : groups ≠ []) : js ":" ++ joined groups = begun groups := by
  induction groups with
  | nil => exact absurd rfl h
  | cons g groups ih =>
    rcases groups with _ | ⟨g', groups⟩
    · simp [joined, begun]
    · rw [joined, List.intercalate_cons_cons, List.append_assoc, ← joined, ih (List.cons_ne_nil _ _)]
      simp [begun]

theorem ended_append (groups : List JsString) (g : JsString) : ended groups ++ g = joined (groups ++ [g]) := by
  induction groups with
  | nil => simp [joined, ended]
  | cons g' groups ih =>
    have hne : groups ++ [g] ≠ [] := List.append_ne_nil_of_right_ne_nil _ (List.cons_ne_nil g [])
    rw [List.cons_append, joined, List.intercalate_cons_of_ne_nil hne, ← joined, ← ih]
    simp [ended]

theorem short_both {before after : List JsString} (hbefore : before ≠ []) (hafter : after ≠ []) :
    joined before ++ js "::" ++ joined after = ended before ++ begun after := by
  have hcolons : js "::" = js ":" ++ js ":" := rfl
  rw [← joined_append_colon hbefore, ← colon_append_joined hafter, hcolons]
  simp only [List.append_assoc]

theorem short_before {before : List JsString} (hbefore : before ≠ []) :
    joined before ++ js "::" ++ joined [] = ended before ++ js ":" := by
  have hcolons : js "::" = js ":" ++ js ":" := rfl
  rw [← joined_append_colon hbefore, hcolons, joined, joined, List.intercalate_nil, List.append_nil,
    List.append_assoc]

theorem short_after {after : List JsString} (hafter : after ≠ []) :
    joined [] ++ js "::" ++ joined after = js ":" ++ begun after := by
  have hcolons : js "::" = js ":" ++ js ":" := rfl
  rw [← colon_append_joined hafter, hcolons, joined, List.intercalate_nil, List.nil_append, List.append_assoc]

-- some groups before the two colons, some after
theorem short_of_mem (hm : 1 ≤ m) (hn : 1 ≤ n) (hmn : m + n ≤ 7)
    (h : w ∈ (seq (between 1 m (seq hex (lit ':'))) (between 1 n (seq (lit ':') hex))).language) :
    Ipv6Address w := by
  obtain ⟨u, hu, v, hv, rfl⟩ := mem_seq.mp h
  obtain ⟨before, hbefore, ⟨hposBefore, hmaxBefore⟩, rfl⟩ := (mem_ended hm).mp hu
  obtain ⟨after, hafter, ⟨hposAfter, hmaxAfter⟩, rfl⟩ := (mem_begun hn).mp hv
  rw [← short_both (List.ne_nil_of_length_pos hposBefore) (List.ne_nil_of_length_pos hposAfter)]
  exact .short before after hbefore hafter (by omega)

theorem mem_of_short {before after : List JsString} (hbefore : ∀ g ∈ before, Group g)
    (hafter : ∀ g ∈ after, Group g) (hm : 1 ≤ before.length ∧ before.length ≤ m)
    (hn : 1 ≤ after.length ∧ after.length ≤ n) :
    joined before ++ js "::" ++ joined after ∈
      (seq (between 1 m (seq hex (lit ':'))) (between 1 n (seq (lit ':') hex))).language := by
  rw [short_both (List.ne_nil_of_length_pos hm.1) (List.ne_nil_of_length_pos hn.1)]
  exact mem_seq.mpr ⟨_, (mem_ended (hm.1.trans hm.2)).mpr ⟨before, hbefore, hm, rfl⟩,
    _, (mem_begun (hn.1.trans hn.2)).mpr ⟨after, hafter, hn, rfl⟩, rfl⟩

theorem address6_sound (h : w ∈ address6.language) : Ipv6Address w := by
  simp only [address6, mem_anyOf, List.mem_cons, exists_eq_or_imp, List.not_mem_nil, or_false,
    exists_eq_left] at h
  rcases h with h | h | h | h | h | h | h | h | h
  · obtain ⟨u, hu, g, hg, rfl⟩ := mem_seq.mp h
    obtain ⟨groups, hgroups, ⟨hmin, hmax⟩, rfl⟩ := (mem_ended (by decide)).mp hu
    rw [ended_append]
    refine .full (groups ++ [g]) ?_ ?_
    · exact List.forall_mem_append.mpr ⟨hgroups, List.forall_mem_singleton.mpr (hex_iff.mp hg)⟩
    · rw [List.length_append, List.length_singleton]
      omega
  · obtain ⟨u, hu, colon, hcolon, rfl⟩ := mem_seq.mp h
    obtain ⟨before, hbefore, ⟨hmin, hmax⟩, rfl⟩ := (mem_ended (by decide)).mp hu
    rw [mem_colon.mp hcolon, ← short_before (List.ne_nil_of_length_pos hmin)]
    exact .short before [] hbefore (List.forall_mem_nil _) hmax
  · obtain ⟨u, hu, v, hv, rfl⟩ := mem_seq.mp h
    obtain ⟨before, hbefore, ⟨hmin, hmax⟩, rfl⟩ := (mem_ended (by decide)).mp hu
    obtain ⟨colon, hcolon, g, hg, rfl⟩ := mem_seq.mp hv
    have htext : colon ++ g = begun [g] := by simp [begun, mem_colon.mp hcolon]
    rw [htext, ← short_both (List.ne_nil_of_length_pos hmin) (List.cons_ne_nil g [])]
    exact .short before [g] hbefore (List.forall_mem_singleton.mpr (hex_iff.mp hg)) (Nat.succ_le_succ hmax)
  · exact short_of_mem (by decide) (by decide) (by decide) h
  · exact short_of_mem (by decide) (by decide) (by decide) h
  · exact short_of_mem (by decide) (by decide) (by decide) h
  · exact short_of_mem (by decide) (by decide) (by decide) h
  · obtain ⟨g, hg, u, hu, rfl⟩ := mem_seq.mp h
    obtain ⟨colon, hcolon, v, hv, rfl⟩ := mem_seq.mp hu
    obtain ⟨after, hafter, ⟨hmin, hmax⟩, rfl⟩ := (mem_begun (by decide)).mp hv
    have htext : g ++ (colon ++ begun after) = ended [g] ++ begun after := by
      simp [ended, mem_colon.mp hcolon]
    rw [htext, ← short_both (List.cons_ne_nil g []) (List.ne_nil_of_length_pos hmin)]
    refine .short [g] after (List.forall_mem_singleton.mpr (hex_iff.mp hg)) hafter ?_
    rw [List.length_singleton]
    omega
  · obtain ⟨colon, hcolon, u, hu, rfl⟩ := mem_seq.mp h
    rw [mem_colon.mp hcolon]
    rcases mem_either.mp hu with hu | hu
    · obtain ⟨after, hafter, ⟨hmin, hmax⟩, rfl⟩ := (mem_begun (by decide)).mp hu
      rw [← short_after (List.ne_nil_of_length_pos hmin)]
      refine .short [] after (List.forall_mem_nil _) hafter ?_
      rwa [List.length_nil, Nat.zero_add]
    · rw [mem_colon.mp hu]
      exact .short [] [] (List.forall_mem_nil _) (List.forall_mem_nil _) (by decide)

theorem address6_complete (h : Ipv6Address w) : w ∈ address6.language := by
  simp only [address6, mem_anyOf, List.mem_cons, exists_eq_or_imp, List.not_mem_nil, or_false,
    exists_eq_left]
  cases h with
  | full groups h hlength =>
    left
    have hne : groups ≠ [] := List.ne_nil_of_length_pos (hlength ▸ Nat.succ_pos 7)
    obtain ⟨init, g, rfl⟩ := List.eq_nil_or_concat'  groups |>.resolve_left hne
    obtain ⟨hinit, hg⟩ := List.forall_mem_append.mp h
    rw [List.length_append, List.length_singleton] at hlength
    rw [← ended_append]
    refine mem_seq.mpr ⟨_, (mem_ended (Nat.le_refl 7)).mpr ⟨init, hinit, by omega, rfl⟩, g, ?_, rfl⟩
    exact hex_iff.mpr (List.forall_mem_singleton.mp hg)
  | short before after hbefore hafter hlength =>
    by_cases hb : before = []
    · subst hb
      rw [List.length_nil, Nat.zero_add] at hlength
      iterate 8 right
      by_cases ha : after = []
      · subst ha
        exact mem_seq.mpr ⟨js ":", mem_colon.mpr rfl, js ":", .inr (mem_colon.mpr rfl), rfl⟩
      · rw [short_after ha]
        exact mem_seq.mpr ⟨js ":", mem_colon.mpr rfl, begun after,
          .inl ((mem_begun (by decide)).mpr ⟨after, hafter, ⟨List.length_pos_of_ne_nil ha, hlength⟩, rfl⟩), rfl⟩
    have hposBefore := List.length_pos_of_ne_nil hb
    by_cases ha : after = []
    · subst ha
      right; left
      rw [short_before hb]
      exact mem_seq.mpr ⟨ended before, (mem_ended (by decide)).mpr ⟨before, hbefore, ⟨hposBefore, hlength⟩, rfl⟩,
        js ":", mem_colon.mpr rfl, rfl⟩
    have hposAfter := List.length_pos_of_ne_nil ha
    -- the more groups follow the colons, the fewer may stand before
    have hcases : after.length = 1 ∨ after.length = 2 ∨ after.length = 3 ∨ after.length = 4 ∨
      after.length = 5 ∨ before.length = 1 := by omega
    rcases hcases with h | h | h | h | h | h
    · obtain ⟨g, rfl⟩ := List.length_eq_one_iff.mp h
      right; right; left
      rw [short_both hb ha]
      refine mem_seq.mpr ⟨ended before, (mem_ended (by decide)).mpr ⟨before, hbefore, ⟨hposBefore, by omega⟩, rfl⟩,
        begun [g], mem_seq.mpr ⟨js ":", mem_colon.mpr rfl, g, ?_, ?_⟩, rfl⟩
      · exact hex_iff.mpr (List.forall_mem_singleton.mp hafter)
      · simp [begun]
    · iterate 3 right
      left
      exact mem_of_short hbefore hafter ⟨hposBefore, by omega⟩ ⟨hposAfter, by omega⟩
    · iterate 4 right
      left
      exact mem_of_short hbefore hafter ⟨hposBefore, by omega⟩ ⟨hposAfter, by omega⟩
    · iterate 5 right
      left
      exact mem_of_short hbefore hafter ⟨hposBefore, by omega⟩ ⟨hposAfter, by omega⟩
    · iterate 6 right
      left
      exact mem_of_short hbefore hafter ⟨hposBefore, by omega⟩ ⟨hposAfter, by omega⟩
    · obtain ⟨g, rfl⟩ := List.length_eq_one_iff.mp h
      iterate 7 right
      left
      rw [short_both hb ha]
      refine mem_seq.mpr ⟨g, hex_iff.mpr (List.forall_mem_singleton.mp hbefore), js ":" ++ begun after, ?_, ?_⟩
      · exact mem_seq.mpr ⟨js ":", mem_colon.mpr rfl, begun after,
          (mem_begun (by decide)).mpr ⟨after, hafter, ⟨hposAfter, by omega⟩, rfl⟩, rfl⟩
      · simp [ended]

theorem address6_iff : w ∈ address6.language ↔ Ipv6Address w := ⟨address6_sound, address6_complete⟩

end Groups

section Destinations

variable {d : JsString}

def Quad.Matched (q : Quad) : Prop :=
  isTerminator q.after₁ = false ∧ isTerminator q.after₂ = false ∧ isTerminator q.after₃ = false

theorem mem_dot {w : JsString} : w ∈ dot.language ↔ ∃ u, w = [u] ∧ isTerminator u = false := by
  rw [dot, mem_one]
  simp only [Bool.not_eq_true', and_comm]

theorem mem_octet_dot {a : Pattern Unit16} {w : JsString} : w ∈ (seq (seq octet dot) a).language ↔
    ∃ (o : JsString) (u : Unit16) (v : JsString), Octet o ∧ isTerminator u = false ∧ v ∈ a.language ∧
      w = o ++ u :: v := by
  rw [mem_seq]
  constructor
  · rintro ⟨x, hx, v, hv, rfl⟩
    obtain ⟨o, ho, y, hy, rfl⟩ := mem_seq.mp hx
    obtain ⟨u, rfl, hu⟩ := mem_dot.mp hy
    exact ⟨o, u, v, octet_iff.mp ho, hu, hv, by simp⟩
  · rintro ⟨o, u, v, ho, hu, hv, rfl⟩
    refine ⟨o ++ [u], mem_seq.mpr ⟨o, octet_iff.mpr ho, [u], mem_dot.mpr ⟨u, rfl, hu⟩, rfl⟩, v, hv, by simp⟩

theorem cidrIPv4Pattern_iff :
    cidrIPv4Pattern.test d = true ↔ ∃ q : Quad, d = q.text ∧ q.Numbers ∧ q.Matched := by
  rw [test_iff, cidrIPv4Pattern, mem_seq]
  constructor
  · rintro ⟨x, hx, y, hy, rfl⟩
    obtain ⟨o₁, u₁, v₁, ho₁, hu₁, hv₁, rfl⟩ := mem_octet_dot.mp hx
    obtain ⟨o₂, u₂, v₂, ho₂, hu₂, hv₂, rfl⟩ := mem_octet_dot.mp hv₁
    obtain ⟨o₃, u₃, v₃, ho₃, hu₃, hv₃, rfl⟩ := mem_octet_dot.mp hv₂
    obtain ⟨o₄, ho₄, z, hz, rfl⟩ := mem_seq.mp hy
    obtain ⟨slash, hslash, l, hl, rfl⟩ := mem_seq.mp hz
    cases mem_empty.mp hv₃
    refine ⟨⟨o₁, u₁, o₂, u₂, o₃, u₃, o₄, l⟩, ?_, ⟨ho₁, ho₂, ho₃, octet_iff.mp ho₄, length4_iff.mp hl⟩,
      hu₁, hu₂, hu₃⟩
    rw [mem_slash.mp hslash]
    simp [Quad.text]
  · rintro ⟨q, rfl, hnumbers, hu₁, hu₂, hu₃⟩
    refine ⟨q.octet₁ ++ q.after₁ :: (q.octet₂ ++ q.after₂ :: (q.octet₃ ++ q.after₃ :: [])), ?_,
      q.octet₄ ++ (js "/" ++ q.length), ?_, by simp [Quad.text]⟩
    · refine mem_octet_dot.mpr ⟨_, _, _, hnumbers.octet₁, hu₁, ?_, rfl⟩
      refine mem_octet_dot.mpr ⟨_, _, _, hnumbers.octet₂, hu₂, ?_, rfl⟩
      exact mem_octet_dot.mpr ⟨_, _, _, hnumbers.octet₃, hu₃, mem_empty.mpr rfl, rfl⟩
    · exact mem_seq.mpr ⟨_, octet_iff.mpr hnumbers.octet₄, _,
        mem_seq.mpr ⟨_, mem_slash.mpr rfl, _, length4_iff.mpr hnumbers.length, rfl⟩, rfl⟩

theorem cidrIPv6Pattern_iff : cidrIPv6Pattern.test d = true ↔ Ipv6Cidr d := by
  rw [test_iff, cidrIPv6Pattern, mem_seq]
  constructor
  · rintro ⟨address, haddress, x, hx, rfl⟩
    obtain ⟨slash, hslash, l, hl, rfl⟩ := mem_seq.mp hx
    refine ⟨address, l, ?_, address6_iff.mp haddress, length6_iff.mp hl⟩
    rw [mem_slash.mp hslash, List.append_assoc]
  · rintro ⟨address, l, rfl, haddress, hl⟩
    refine ⟨address, address6_iff.mpr haddress, js "/" ++ l, ?_, (List.append_assoc _ _ _).symm⟩
    exact mem_seq.mpr ⟨_, mem_slash.mpr rfl, l, length6_iff.mpr hl, rfl⟩

theorem prefixedListPattern_iff : prefixedListPattern.test d = true ↔
    ∃ rest, rest ≠ [] ∧ d = js "pl-" ++ rest ∧ ∀ u ∈ rest, isTerminator u = false := by
  have hdots : ∀ w : JsString, w ∈ dot.plus.language ↔ w ≠ [] ∧ ∀ u ∈ w, isTerminator u = false := by
    intro w
    have hletter : ∀ v : JsString, v ∈ dot.language ↔ ∃ u, isTerminator u = false ∧ v = [u] := by
      intro v
      rw [mem_dot]
      simp only [and_comm]
    rw [mem_plus, ← List.length_pos_iff, ← exists_letters hletter (P := fun k => 0 < k)]
    simp only [List.length_pos_iff]
  rw [test_iff, prefixedListPattern, mem_seq]
  constructor
  · rintro ⟨p, hp, x, hx, rfl⟩
    obtain ⟨l, hl, y, hy, rfl⟩ := mem_seq.mp hx
    obtain ⟨minus, hminus, rest, hrest, rfl⟩ := mem_seq.mp hy
    obtain ⟨hne, hmatched⟩ := (hdots rest).mp hrest
    rw [(mem_letter (by decide)).mp hp, (mem_letter (by decide)).mp hl, (mem_letter (by decide)).mp hminus]
    exact ⟨rest, hne, rfl, hmatched⟩
  · rintro ⟨rest, hne, rfl, hmatched⟩
    refine ⟨js "p", (mem_letter (by decide)).mpr rfl, js "l-" ++ rest, ?_, rfl⟩
    refine mem_seq.mpr ⟨js "l", (mem_letter (by decide)).mpr rfl, js "-" ++ rest, ?_, rfl⟩
    exact mem_seq.mpr ⟨js "-", (mem_letter (by decide)).mpr rfl, rest, (hdots rest).mpr ⟨hne, hmatched⟩, rfl⟩

end Destinations

section Apart

variable {d w : JsString} {groups : List JsString}

def colon : Unit16 := ⟨58, by decide⟩

def Apart (u v : Unit16) : Prop := u ≠ colon ∨ v ≠ colon

theorem ne_colon_of_isDigit {u : Unit16} (h : IsDigit u) : u ≠ colon := by
  rintro rfl
  exact absurd h.2 (by decide)

theorem ne_colon_of_isHex {u : Unit16} (h : IsHex u) : u ≠ colon := by
  rintro rfl
  rcases h with h | h | h
  · exact absurd h.2 (by decide)
  · exact absurd h.1 (by decide)
  · exact absurd h.1 (by decide)

theorem Octet.ne_colon (h : Octet w) {u : Unit16} (hu : u ∈ w) : u ≠ colon :=
  ne_colon_of_isDigit (h.digits u hu)

theorem isChain_of_ne_colon (h : ∀ u ∈ w, u ≠ colon) : w.IsChain Apart := by
  induction w with
  | nil => exact .nil
  | cons u w ih =>
    obtain ⟨hu, hw⟩ := List.forall_mem_cons.mp h
    exact List.isChain_cons.mpr ⟨fun v _ => .inl hu, ih hw⟩

-- an octet keeps two colons apart
theorem isChain_octet {o rest : JsString} {u : Unit16} (ho : Octet o) (hrest : rest.IsChain Apart)
    (hhead : ∀ v ∈ rest.head?, v ≠ colon) : (o ++ u :: rest).IsChain Apart := by
  refine List.isChain_append.mpr ⟨isChain_of_ne_colon fun v hv => ho.ne_colon hv, ?_, ?_⟩
  · exact List.isChain_cons.mpr ⟨fun v hv => .inr (hhead v hv), hrest⟩
  · exact fun v hv _ _ => .inl (ho.ne_colon (List.mem_of_mem_getLast? hv))

theorem head_octet {o rest : JsString} (ho : Octet o) : ∀ v ∈ (o ++ rest).head?, v ≠ colon := by
  intro v hv
  rw [List.head?_append_of_ne_nil _ ho.nonempty] at hv
  exact ho.ne_colon (List.mem_of_mem_head? hv)

theorem last_ne_colon {q : Quad} (h : q.Numbers) : ∀ u ∈ q.octet₄ ++ js "/" ++ q.length, u ≠ colon := by
  intro u hu
  rcases List.mem_append.mp hu with hu | hu
  · rcases List.mem_append.mp hu with hu | hu
    · exact h.octet₄.ne_colon hu
    · rw [List.mem_singleton.mp hu]
      decide
  · exact ne_colon_of_isDigit (h.length.digits u hu)

theorem Quad.Numbers.isChain {q : Quad} (h : q.Numbers) : q.text.IsChain Apart := by
  refine isChain_octet h.octet₁ (isChain_octet h.octet₂ (isChain_octet h.octet₃ ?_ ?_) ?_) ?_
  · exact isChain_of_ne_colon (last_ne_colon h)
  · rw [List.append_assoc]
    exact head_octet h.octet₄
  · exact head_octet h.octet₃
  · exact head_octet h.octet₂

theorem Quad.Numbers.count_colon {q : Quad} (h : q.Numbers) : q.text.count colon ≤ 3 := by
  have hnone : ∀ {v : JsString}, (∀ u ∈ v, u ≠ colon) → v.count colon = 0 := by
    intro v hv
    exact List.count_eq_zero.mpr fun hmem => hv colon hmem rfl
  have hone : ∀ u : Unit16, [u].count colon ≤ 1 := fun u => List.count_le_length
  have h₁ := hone q.after₁
  have h₂ := hone q.after₂
  have h₃ := hone q.after₃
  have htext : q.text = q.octet₁ ++ ([q.after₁] ++ (q.octet₂ ++ ([q.after₂] ++ (q.octet₃ ++ ([q.after₃] ++
    (q.octet₄ ++ js "/" ++ q.length)))))) := rfl
  rw [htext]
  simp only [@List.count_append _ _ _ _ (_ ++ _), hnone fun _ hu => h.octet₁.ne_colon hu,
    hnone fun _ hu => h.octet₂.ne_colon hu, hnone fun _ hu => h.octet₃.ne_colon hu, hnone (last_ne_colon h)]
  omega

theorem Group.ne_colon {g : JsString} (h : Group g) {u : Unit16} (hu : u ∈ g) : u ≠ colon :=
  ne_colon_of_isHex (h.hex u hu)

theorem count_ended (h : ∀ g ∈ groups, Group g) : (ended groups).count colon = groups.length := by
  induction groups with
  | nil => rfl
  | cons g groups ih =>
    obtain ⟨hg, hrest⟩ := List.forall_mem_cons.mp h
    have hzero : g.count colon = 0 := List.count_eq_zero.mpr fun hmem => hg.ne_colon hmem rfl
    have hcons : ended (g :: groups) = g ++ (js ":" ++ ended groups) := by simp [ended]
    have hcolon : (js ":").count colon = 1 := rfl
    rw [hcons, List.count_append, List.count_append, hzero, hcolon, ih hrest, List.length_cons]
    omega

theorem Ipv6Cidr.colons (h : Ipv6Cidr d) : 7 ≤ d.count colon ∨ ¬ d.IsChain Apart := by
  obtain ⟨address, l, rfl, haddress, -⟩ := h
  cases haddress with
  | full groups h hlength =>
    left
    have hne : groups ≠ [] := List.ne_nil_of_length_pos (hlength ▸ Nat.succ_pos 7)
    obtain ⟨init, g, rfl⟩ := (List.eq_nil_or_concat' groups).resolve_left hne
    rw [List.length_append, List.length_singleton] at hlength
    rw [← ended_append, List.count_append, List.count_append, List.count_append,
      count_ended (List.forall_mem_append.mp h).1]
    omega
  | short before after =>
    right
    intro hchain
    have hsplit : joined before ++ js "::" ++ joined after ++ js "/" ++ l =
        joined before ++ colon :: colon :: (joined after ++ (js "/" ++ l)) := by
      have hcolons : js "::" = [colon, colon] := rfl
      simp [hcolons]
    rw [hsplit, List.isChain_append_cons_cons] at hchain
    rcases hchain.2.1 with hne | hne
    · exact hne rfl
    · exact hne rfl

theorem not_ipv6Cidr_of_quad {q : Quad} (h : q.Numbers) : ¬ Ipv6Cidr q.text := by
  intro h6
  rcases h6.colons with hcount | hchain
  · have hfew := h.count_colon
    omega
  · exact hchain h.isChain

theorem mem_joined (h : ∀ g ∈ groups, Group g) {u : Unit16} (hu : u ∈ joined groups) :
    IsHex u ∨ u = colon := by
  have hended : u ∈ ended groups := by
    rcases groups with _ | ⟨g, groups⟩
    · exact hu
    · rw [← joined_append_colon (List.cons_ne_nil g groups)]
      exact List.mem_append_left _ hu
  obtain ⟨part, hpart, hmem⟩ := List.mem_flatten.mp hended
  obtain ⟨g, hg, rfl⟩ := List.mem_map.mp hpart
  rcases List.mem_append.mp hmem with hmem | hmem
  · exact .inl ((h g hg).hex u hmem)
  · exact .inr (List.mem_singleton.mp hmem)

theorem Ipv6Address.mem (h : Ipv6Address w) {u : Unit16} (hu : u ∈ w) : IsHex u ∨ u = colon := by
  cases h with
  | full groups h _ => exact mem_joined h hu
  | short before after hbefore hafter _ =>
    rcases List.mem_append.mp hu with hu | hu
    · rcases List.mem_append.mp hu with hu | hu
      · exact mem_joined hbefore hu
      · have hcolons : js "::" = [colon, colon] := rfl
        rw [hcolons] at hu
        simp only [List.mem_cons, List.not_mem_nil, or_false, or_self] at hu
        exact .inr hu
    · exact mem_joined hafter hu

def letterP : Unit16 := ⟨112, by decide⟩

theorem not_ipv6Cidr_of_prefixListId (h : PrefixListId d) : ¬ Ipv6Cidr d := by
  rintro ⟨address, l, heq, haddress, hl⟩
  obtain ⟨rest, -, hd⟩ := h
  have hmem : letterP ∈ address ++ js "/" ++ l := by
    rw [← heq, hd]
    exact List.mem_cons_self
  rcases List.mem_append.mp hmem with hmem | hmem
  · rcases List.mem_append.mp hmem with hmem | hmem
    · rcases haddress.mem hmem with (h | h | h) | h
      · exact absurd h.2 (by decide)
      · exact absurd h.2 (by decide)
      · exact absurd h.2 (by decide)
      · exact absurd h (by decide)
    · exact absurd hmem (by decide)
  · exact absurd (hl.digits _ hmem).2 (by decide)

theorem not_prefixListId_of_quad {q : Quad} (h : q.Numbers) : ¬ PrefixListId q.text := by
  rintro ⟨rest, -, heq⟩
  obtain ⟨u, o, ho⟩ := List.exists_cons_of_ne_nil h.octet₁.nonempty
  rw [Quad.text, ho] at heq
  have hfirst : u = letterP := (List.cons.inj heq).1
  have hdigit : IsDigit u := h.octet₁.digits u (ho ▸ List.mem_cons_self)
  exact absurd (hfirst ▸ hdigit).2 (by decide)

end Apart

section Classification

variable {d : JsString}

theorem dotted_matched {q : Quad} (h : q.Dotted) : q.Matched := by
  obtain ⟨h₁, h₂, h₃⟩ := h
  have hdot : ∀ {u : Unit16}, [u] = js "." → isTerminator u = false := by
    intro u hu
    rw [(List.cons.inj hu).1]
    decide
  exact ⟨hdot h₁, hdot h₂, hdot h₃⟩

-- no octet, nor the length, holds a full stop
theorem count_dot_digits {w : JsString} (h : ∀ u ∈ w, IsDigit u) : w.count ⟨46, by decide⟩ = 0 :=
  List.count_eq_zero.mpr fun hmem => absurd (h _ hmem).1 (by decide)

theorem count_dot {q : Quad} (h : q.Numbers) : q.text.count ⟨46, by decide⟩ =
    [q.after₁].count ⟨46, by decide⟩ + [q.after₂].count ⟨46, by decide⟩ + [q.after₃].count ⟨46, by decide⟩ := by
  have htext : q.text = q.octet₁ ++ ([q.after₁] ++ (q.octet₂ ++ ([q.after₂] ++ (q.octet₃ ++ ([q.after₃] ++
    (q.octet₄ ++ (js "/" ++ q.length))))))) := by simp [Quad.text]
  have hslash : (js "/").count ⟨46, by decide⟩ = 0 := rfl
  rw [htext]
  simp only [List.count_append, count_dot_digits h.octet₁.digits, count_dot_digits h.octet₂.digits,
    count_dot_digits h.octet₃.digits, count_dot_digits h.octet₄.digits, count_dot_digits h.length.digits, hslash]
  omega

theorem dotted_iff_count {q : Quad} (h : q.Numbers) : q.Dotted ↔ q.text.count ⟨46, by decide⟩ = 3 := by
  have hone : ∀ u : Unit16, [u].count ⟨46, by decide⟩ ≤ 1 := fun u => List.count_le_length
  have hdot : ∀ u : Unit16, [u] = js "." ↔ [u].count ⟨46, by decide⟩ = 1 := by
    intro u
    rw [List.count_singleton]
    constructor
    · intro hu
      rw [(List.cons.inj hu).1]
      rfl
    · intro hu
      split at hu
      · next heq => rw [beq_iff_eq.mp heq]; rfl
      · cases hu
  have h₁ := hone q.after₁
  have h₂ := hone q.after₂
  have h₃ := hone q.after₃
  rw [count_dot h, Quad.Dotted, hdot, hdot, hdot]
  omega

-- every reading of the destination as four numbers and a length, any character between them, has dots
def OnlyDots (d : JsString) : Prop := ∀ q : Quad, d = q.text → q.Numbers → q.Matched → q.Dotted

def NoTerminators (d : JsString) : Prop := ∀ rest, d = js "pl-" ++ rest → ∀ u ∈ rest, isTerminator u = false

theorem ipv4_classified_iff : (cidrIPv4Pattern.test d = true ↔ Ipv4Cidr d) ↔ OnlyDots d := by
  rw [cidrIPv4Pattern_iff]
  constructor
  · rintro h q rfl hnumbers hmatched
    obtain ⟨q', heq, hnumbers', hdotted⟩ := h.mp ⟨q, rfl, hnumbers, hmatched⟩
    rwa [dotted_iff_count hnumbers, heq, ← dotted_iff_count hnumbers']
  · intro h
    constructor
    · rintro ⟨q, hd, hnumbers, hmatched⟩
      exact ⟨q, hd, hnumbers, h q hd hnumbers hmatched⟩
    · rintro ⟨q, hd, hnumbers, hdotted⟩
      exact ⟨q, hd, hnumbers, dotted_matched hdotted⟩

theorem prefixList_classified_iff :
    (prefixedListPattern.test d = true ↔ PrefixListId d) ↔ NoTerminators d := by
  rw [prefixedListPattern_iff]
  constructor
  · rintro h rest hd
    by_cases hrest : rest = []
    · rw [hrest]
      exact List.forall_mem_nil _
    · obtain ⟨rest', -, hd', hmatched⟩ := h.mpr ⟨rest, hrest, hd⟩
      rwa [List.append_cancel_left (hd.symm.trans hd')]
  · intro h
    constructor
    · rintro ⟨rest, hne, hd, -⟩
      exact ⟨rest, hne, hd⟩
    · rintro ⟨rest, hne, hd⟩
      exact ⟨rest, hne, hd, h rest hd⟩

theorem isSome_iff {b : Bool} : (if b then some d else none).isSome = true ↔ b = true := by
  cases b <;> simp

theorem some_iff {b : Bool} : (if b then some d else none) = some d ↔ b = true := by
  cases b <;> simp

theorem ipv4_not_ipv6 (h4 : cidrIPv4Pattern.test d = true) : cidrIPv6Pattern.test d ≠ true := by
  rw [ne_eq, cidrIPv6Pattern_iff]
  obtain ⟨q, rfl, hnumbers, -⟩ := cidrIPv4Pattern_iff.mp h4
  exact not_ipv6Cidr_of_quad hnumbers

theorem ipv4_not_list (h4 : cidrIPv4Pattern.test d = true) : prefixedListPattern.test d ≠ true := by
  intro hlist
  obtain ⟨q, rfl, hnumbers, -⟩ := cidrIPv4Pattern_iff.mp h4
  obtain ⟨rest, hne, heq, -⟩ := prefixedListPattern_iff.mp hlist
  exact not_prefixListId_of_quad hnumbers ⟨rest, hne, heq⟩

theorem ipv6_not_list (h6 : cidrIPv6Pattern.test d = true) : prefixedListPattern.test d ≠ true := by
  intro hlist
  obtain ⟨rest, hne, heq, -⟩ := prefixedListPattern_iff.mp hlist
  exact not_ipv6Cidr_of_prefixListId ⟨rest, hne, heq⟩ (cidrIPv6Pattern_iff.mp h6)

theorem classified_iff (r : Route) : Classified r.destination (deleteRoute r) ↔
    OnlyDots r.destination ∧ NoTerminators r.destination := by
  rw [← ipv4_classified_iff, ← prefixList_classified_iff]
  constructor
  · intro h
    exact ⟨some_iff.symm.trans h.cidrBlock, some_iff.symm.trans h.prefixListId⟩
  · rintro ⟨h4, hlist⟩
    refine ⟨?_, ?_, ?_, some_iff.trans h4, some_iff.trans cidrIPv6Pattern_iff, some_iff.trans hlist⟩
    · rintro ⟨h, h'⟩
      exact ipv4_not_ipv6 (isSome_iff.mp h) (isSome_iff.mp h')
    · rintro ⟨h, h'⟩
      exact ipv4_not_list (isSome_iff.mp h) (isSome_iff.mp h')
    · rintro ⟨h, h'⟩
      exact ipv6_not_list (isSome_iff.mp h) (isSome_iff.mp h')

theorem destinations_classified (r : Route) :
    Classified r.destination (createRoute r).toDeleteRoute ∧ Classified r.destination (deleteRoute r) ↔
      OnlyDots r.destination ∧ NoTerminators r.destination := by
  have hsame : (createRoute r).toDeleteRoute = deleteRoute r := rfl
  rw [hsame, and_self, classified_iff]

-- 1a2b3c4/8 is sent as a cidr block
theorem letters_between_octets :
    (createRoute { routeTableId := none, destination := js "1a2b3c4/8" }).destinationCidrBlock =
      some (js "1a2b3c4/8") ∧
    ¬ Classified (js "1a2b3c4/8") (createRoute { routeTableId := none, destination := js "1a2b3c4/8" }).toDeleteRoute := by
  have hsent : (createRoute { routeTableId := none, destination := js "1a2b3c4/8" }).destinationCidrBlock =
    some (js "1a2b3c4/8") := by decide +kernel
  refine ⟨hsent, fun h => ?_⟩
  obtain ⟨q, heq, hnumbers, hdotted⟩ := h.cidrBlock.mp hsent
  have hcount := (dotted_iff_count hnumbers).mp hdotted
  rw [← heq] at hcount
  exact absurd hcount (by decide)

end Classification

end Iasql.RouteDestinations
