import Iasql.PoliciesAreSame
import Mathlib.Algebra.GroupWithZero.Nat
import Mathlib.Data.List.Pairwise
import Mathlib.Logic.Relation

namespace Iasql.CanonicalPolicy

open AwsDiff OrderedMap Relation

section Rewrites

variable (lower : LowerCase)

inductive ListRewrite {α : Type} : OneOrMany α → OneOrMany α → Prop
  | permute {as bs} (h : as.Perm bs) : ListRewrite (.many as) (.many bs)
  | duplicate {a as} (h : a ∈ as) : ListRewrite (.many as) (.many (a :: as))
  | unwrap (a) : ListRewrite (.many [a]) (.one a)
  | wrap (a) : ListRewrite (.one a) (.many [a])

inductive ActionRewrite : OneOrMany JsString → OneOrMany JsString → Prop
  | list {a b} (h : ListRewrite a b) : ActionRewrite a b
  | caseOne {s t} (h : lower.toLowerCase s = lower.toLowerCase t) :
      ActionRewrite (.one s) (.one t)
  | caseMany {before s t after} (h : lower.toLowerCase s = lower.toLowerCase t) :
      ActionRewrite (.many (before ++ s :: after)) (.many (before ++ t :: after))

inductive PrincipalRewrite : Principal → Principal → Prop
  | star : PrincipalRewrite .star (.kinds ⟨some (.one (js "*")), none, none⟩)
  | aws {k a b} (h : k.aws = some a) (rewrite : ListRewrite a b) :
      PrincipalRewrite (.kinds k) (.kinds { k with aws := some b })
  | service {k a b} (h : k.service = some a) (rewrite : ListRewrite a b) :
      PrincipalRewrite (.kinds k) (.kinds { k with service := some b })
  | federated {k a b} (h : k.federated = some a) (rewrite : ListRewrite a b) :
      PrincipalRewrite (.kinds k) (.kinds { k with federated := some b })

structure KeyRewrites (e f : JsString × OneOrMany ConditionValue) : Prop where
  key : lower.toLowerCase e.1 = lower.toLowerCase f.1
  value : ReflTransGen ListRewrite e.2 f.2

structure OperatorRewrites (e f : JsString × Keys) : Prop where
  operator : e.1 = f.1
  keys : List.Forall₂ (KeyRewrites lower) e.2.entries f.2.entries

def ConditionRewrites (c d : Condition) : Prop :=
  List.Forall₂ (OperatorRewrites lower) c.entries d.entries

structure StatementRewrites (s t : Statement) : Prop where
  action : Option.Rel (ReflTransGen (ActionRewrite lower)) s.action t.action
  notAction : Option.Rel (ReflTransGen (ActionRewrite lower)) s.notAction t.notAction
  principal : Option.Rel (ReflTransGen PrincipalRewrite) s.principal t.principal
  notPrincipal : Option.Rel (ReflTransGen PrincipalRewrite) s.notPrincipal t.notPrincipal
  resource : Option.Rel (ReflTransGen ListRewrite) s.resource t.resource
  notResource : Option.Rel (ReflTransGen ListRewrite) s.notResource t.notResource
  condition : Option.Rel (ConditionRewrites lower) s.condition t.condition
  effect : s.effect = t.effect
  sid : s.sid = t.sid

-- q is p rewritten, any number of times in each field of each statement; a single statement and
-- the list of it are one
structure Rewrites (p q : Policy) : Prop where
  id : p.id = q.id
  version : p.version = q.version
  statements : List.Forall₂ (StatementRewrites lower) p.statement.toList q.statement.toList

end Rewrites

section Absorbed

variable (lower : LowerCase)

def Both {α : Type} (r : α → α → Prop) (a b : Option α) : Prop := ∀ x ∈ a, ∀ y ∈ b, r x y

-- each text is there as often in both
def Counted (f : JsString → JsString) (a b : OneOrMany JsString) : Prop :=
  (a = .one [] ↔ b = .one []) ∧ ∀ s, (a.toList.map f).count s = (b.toList.map f).count s

def Aligned (a b : OneOrMany JsString) : Prop := (a = .one [] ↔ b = .one []) ∧ a.toList = b.toList

-- of two texts the same one is met first in both
def MetAlike (v w : OneOrMany ConditionValue) : Prop :=
  ∀ s ∈ texts v, ∀ t ∈ texts v,
    (texts v).idxOf s < (texts v).idxOf t ↔ (texts w).idxOf s < (texts w).idxOf t

structure AbsorbedPrincipal (p q : Principal) : Prop where
  aws : Both Aligned p.toKinds.aws q.toKinds.aws
  service : Both Aligned p.toKinds.service q.toKinds.service
  federated : Both Aligned p.toKinds.federated q.toKinds.federated

def AbsorbedKeys (d e : Keys) : Prop :=
  ∀ key, Both MetAlike (lastUnder lower d key) (lastUnder lower e key)

def AbsorbedCondition (c d : Condition) : Prop :=
  ∀ operator, Both (AbsorbedKeys lower) (c.get? operator) (d.get? operator)

structure AbsorbedStatement (s t : Statement) : Prop where
  action : Both (Counted lower.toLowerCase) s.action t.action
  notAction : Both (Counted lower.toLowerCase) s.notAction t.notAction
  principal : Both AbsorbedPrincipal s.principal t.principal
  notPrincipal : Both AbsorbedPrincipal s.notPrincipal t.notPrincipal
  resource : Both (Counted id) s.resource t.resource
  notResource : Both (Counted id) s.notResource t.notResource
  condition : Both (AbsorbedCondition lower) s.condition t.condition

def Absorbed (p q : Policy) : Prop :=
  List.Forall₂ (AbsorbedStatement lower) p.statement.toList q.statement.toList

end Absorbed

section Uniq

variable {α : Type} [BEq α] [LawfulBEq α] [DecidableEq α] {xs ys : List α}

theorem pairwise_uniq (xs : List α) : (uniq xs).Pairwise fun x y => xs.idxOf x < xs.idxOf y := by
  induction xs with
  | nil => exact .nil
  | cons x xs ih =>
    have hne : ∀ y, y ∈ (uniq xs).filter (fun y => decide (y ≠ x)) → y ≠ x := fun y hy => by
      simpa using (List.mem_filter.mp hy).2
    refine List.pairwise_cons.mpr ⟨fun y hy => ?_, ?_⟩
    · rw [List.idxOf_cons_self, List.idxOf_cons_ne _ (hne y hy).symm]
      omega
    · refine ((ih.filter _).imp_of_mem fun {y z} hy hz hlt => ?_)
      rw [List.idxOf_cons_ne _ (hne y hy).symm, List.idxOf_cons_ne _ (hne z hz).symm]
      omega

theorem uniq_eq_iff (h : ∀ x, x ∈ xs ↔ x ∈ ys) :
    uniq xs = uniq ys ↔
      ∀ x ∈ xs, ∀ y ∈ xs, xs.idxOf x < xs.idxOf y ↔ ys.idxOf x < ys.idxOf y := by
  constructor
  · intro heq x hx y hy
    let Ordered (x y : α) : Prop := (xs.idxOf x < xs.idxOf y ∧ ys.idxOf x < ys.idxOf y) ∨
      (xs.idxOf y < xs.idxOf x ∧ ys.idxOf y < ys.idxOf x)
    have hboth : (uniq xs).Pairwise Ordered :=
      ((pairwise_uniq xs).and (heq ▸ pairwise_uniq ys)).imp .inl
    have hsymm : Std.Symm Ordered := ⟨fun _ _ => Or.symm⟩
    by_cases hxy : x = y
    · subst hxy
      simp
    · rcases hboth.forall (mem_uniq.mpr hx) (mem_uniq.mpr hy) hxy with ⟨h, h'⟩ | ⟨h, h'⟩
      · exact iff_of_true h h'
      · exact iff_of_false h.asymm h'.asymm
  · intro horder
    have hperm : (uniq xs).Perm (uniq ys) :=
      (List.perm_ext_iff_of_nodup (nodup_uniq xs) (nodup_uniq ys)).mpr fun x => by
        rw [mem_uniq, mem_uniq, h]
    have hys : (uniq ys).Pairwise fun x y => xs.idxOf x < xs.idxOf y :=
      (pairwise_uniq ys).imp_of_mem fun {x y} hx hy hlt =>
        (horder x ((h x).mpr (mem_uniq.mp hx)) y ((h y).mpr (mem_uniq.mp hy))).mpr hlt
    refine hperm.eq_of_pairwise (fun x y _ _ hxy hyx => ?_) (pairwise_uniq xs) hys
    omega

end Uniq

section Relate

variable {α β κ : Type} {r s t : α → α → Prop}

theorem rel_iff_both {a b : Option α} (h : Option.Rel r a b)
    (hst : ∀ x y, r x y → (s x y ↔ t x y)) : Option.Rel s a b ↔ Both t a b := by
  cases h with
  | none => simp [Both]
  | some hr => simpa [Both] using hst _ _ hr

theorem rel_map {a b : Option α} {q : β → β → Prop} {f : α → β} (h : Option.Rel r a b)
    (hf : ∀ {x y}, r x y → q (f x) (f y)) : Option.Rel q (a.map f) (b.map f) := by
  cases h with
  | none => exact .none
  | some hr => exact .some (hf hr)

theorem forall₂_congr_of {xs ys : List α} (h : List.Forall₂ r xs ys)
    (hst : ∀ x y, r x y → (s x y ↔ t x y)) : List.Forall₂ s xs ys ↔ List.Forall₂ t xs ys := by
  induction h with
  | nil => simp
  | cons hr _ ih => rw [List.forall₂_cons, List.forall₂_cons, hst _ _ hr, ih]

theorem rel_find [DecidableEq κ] {m n : List (κ × α)} {q : κ × α → κ × α → Prop}
    (h : List.Forall₂ q m n) (hkey : ∀ {p p'}, q p p' → p.1 = p'.1)
    (hvalue : ∀ {p p'}, q p p' → r p.2 p'.2) (k : κ) : Option.Rel r (find k m) (find k n) := by
  induction h with
  | nil => exact .none
  | @cons p p' m n hq _ ih =>
    rw [find, find, hkey hq]
    split
    · exact .some (hvalue hq)
    · exact ih

theorem rel_getLast? {xs ys : List α} (h : List.Forall₂ r xs ys) :
    Option.Rel r xs.getLast? ys.getLast? := by
  have hreverse := List.forall₂_reverse_iff.mpr h
  rw [List.getLast?_eq_head?_reverse, List.getLast?_eq_head?_reverse]
  generalize xs.reverse = xs at hreverse ⊢
  generalize ys.reverse = ys at hreverse ⊢
  cases hreverse with
  | nil => exact .none
  | cons hr _ => exact .some hr

theorem rel_lastWith [DecidableEq κ] {xs ys : List α} {f : α → κ} (h : List.Forall₂ r xs ys)
    (hkey : ∀ {x y}, r x y → f x = f y) (k : κ) :
    Option.Rel r (lastWith f xs k) (lastWith f ys k) := by
  refine rel_getLast? ?_
  induction h with
  | nil => exact .nil
  | cons hr _ ih =>
    rw [List.filter_cons, List.filter_cons, hkey hr]
    split
    · exact .cons hr ih
    · exact ih

end Relate

section Exact

variable {lower : LowerCase}

theorem truthy_eq_false {a : OneOrMany JsString} : truthy a = false ↔ a = .one [] := by
  rcases a with (_ | ⟨c, cs⟩) | as <;> simp [truthy]

theorem truthy_eq_iff {a b : OneOrMany JsString} :
    truthy a = truthy b ↔ (a = .one [] ↔ b = .one []) := by
  rw [← truthy_eq_false, ← truthy_eq_false]
  cases truthy a <;> cases truthy b <;> simp

theorem alikeTexts_iff (f : JsString → JsString) (a b : OneOrMany JsString) :
    AlikeTexts f a b ↔ Counted f a b := by
  rw [AlikeTexts, Counted, truthy_eq_iff, List.perm_iff_count]

theorem alikeLists_iff (a b : OneOrMany JsString) : AlikeLists a b ↔ Aligned a b := by
  rw [AlikeLists, Aligned, truthy_eq_iff]

theorem mem_of_listRewrite {α : Type} {a b : OneOrMany α} (h : ListRewrite a b) (x : α) :
    x ∈ a.toList ↔ x ∈ b.toList := by
  cases h with
  | permute h => exact h.mem_iff
  | duplicate h =>
    refine ⟨List.mem_cons_of_mem _, fun hx => ?_⟩
    rcases List.mem_cons.mp hx with rfl | hx
    · exact h
    · exact hx
  | unwrap a => rfl
  | wrap a => rfl

theorem mem_texts_of_rewrites {v w : OneOrMany ConditionValue} (h : ReflTransGen ListRewrite v w)
    (s : JsString) : s ∈ texts v ↔ s ∈ texts w := by
  induction h with
  | refl => rfl
  | tail _ hstep ih =>
    rw [ih, texts, texts, List.mem_map, List.mem_map]
    exact exists_congr fun x => and_congr_left' (mem_of_listRewrite hstep x)

-- the same kinds are given
structure SameKinds (p q : Principal) : Prop where
  aws : p.toKinds.aws.isSome = q.toKinds.aws.isSome
  service : p.toKinds.service.isSome = q.toKinds.service.isSome
  federated : p.toKinds.federated.isSome = q.toKinds.federated.isSome

theorem sameKinds_of_rewrite {p q : Principal} (h : PrincipalRewrite p q) : SameKinds p q := by
  have hsome : ∀ {o : Option (OneOrMany JsString)} {a b}, o = some a →
      o.isSome = (some b : Option (OneOrMany JsString)).isSome := fun h => h ▸ rfl
  cases h with
  | star => exact ⟨rfl, rfl, rfl⟩
  | aws h _ => exact ⟨hsome h, rfl, rfl⟩
  | service h _ => exact ⟨rfl, hsome h, rfl⟩
  | federated h _ => exact ⟨rfl, rfl, hsome h⟩

theorem sameKinds_of_rewrites {p q : Principal} (h : ReflTransGen PrincipalRewrite p q) :
    SameKinds p q := by
  induction h with
  | refl => exact ⟨rfl, rfl, rfl⟩
  | tail _ hstep ih =>
    obtain ⟨haws, hservice, hfederated⟩ := sameKinds_of_rewrite hstep
    exact ⟨ih.aws.trans haws, ih.service.trans hservice, ih.federated.trans hfederated⟩

theorem alikePrincipals_iff {p q : Principal} (h : ReflTransGen PrincipalRewrite p q) :
    AlikePrincipals p q ↔ AbsorbedPrincipal p q := by
  have hkind : ∀ {a b : Option (OneOrMany JsString)}, a.isSome = b.isSome →
      (Option.Rel AlikeLists a b ↔ Both Aligned a b) := by
    intro a b hsome
    have hrel : Option.Rel (fun _ _ => True) a b := by
      cases a <;> cases b <;> simp at hsome ⊢
    exact rel_iff_both hrel fun x y _ => alikeLists_iff x y
  obtain ⟨haws, hservice, hfederated⟩ := sameKinds_of_rewrites h
  constructor
  · rintro ⟨ha, hs, hf⟩
    exact ⟨(hkind haws).mp ha, (hkind hservice).mp hs, (hkind hfederated).mp hf⟩
  · rintro ⟨ha, hs, hf⟩
    exact ⟨(hkind haws).mpr ha, (hkind hservice).mpr hs, (hkind hfederated).mpr hf⟩

theorem alikeKeys_iff {d e : Keys} (h : List.Forall₂ (KeyRewrites lower) d.entries e.entries) :
    AlikeKeys lower d e ↔ AbsorbedKeys lower d e := by
  refine forall_congr' fun key => ?_
  have hlast := rel_lastWith h (fun hr => hr.key) key
  exact rel_iff_both (rel_map hlast fun hr => hr.value) fun v w hvw => uniq_eq_iff (mem_texts_of_rewrites hvw)

theorem alikeConditions_iff {c d : Condition} (h : ConditionRewrites lower c d) :
    AlikeConditions lower c d ↔ AbsorbedCondition lower c d :=
  forall_congr' fun operator =>
    rel_iff_both (rel_find h (fun hr => hr.operator) (fun hr => hr.keys) operator)
      fun _ _ => alikeKeys_iff

theorem alike_iff_absorbed {s t : Statement} (h : StatementRewrites lower s t) :
    Alike lower s t ↔ AbsorbedStatement lower s t := by
  have haction := rel_iff_both h.action fun a b _ => alikeTexts_iff lower.toLowerCase a b
  have hnotAction := rel_iff_both h.notAction fun a b _ => alikeTexts_iff lower.toLowerCase a b
  have hprincipal := rel_iff_both h.principal fun p q => alikePrincipals_iff
  have hnotPrincipal := rel_iff_both h.notPrincipal fun p q => alikePrincipals_iff
  have hresource := rel_iff_both h.resource fun a b _ => alikeTexts_iff id a b
  have hnotResource := rel_iff_both h.notResource fun a b _ => alikeTexts_iff id a b
  have hcondition := rel_iff_both h.condition fun c d => alikeConditions_iff
  constructor
  · intro h
    exact ⟨haction.mp h.action, hnotAction.mp h.notAction, hprincipal.mp h.principal,
      hnotPrincipal.mp h.notPrincipal, hresource.mp h.resource, hnotResource.mp h.notResource,
      hcondition.mp h.condition⟩
  · intro h'
    exact ⟨haction.mpr h'.action, hnotAction.mpr h'.notAction, hprincipal.mpr h'.principal,
      hnotPrincipal.mpr h'.notPrincipal, hresource.mpr h'.resource,
      hnotResource.mpr h'.notResource, hcondition.mpr h'.condition, h.effect, h.sid⟩

-- a rewritten policy is found the same exactly when no text was duplicated where the lists are
-- sorted, and no order was changed where they are not
theorem same_iff_absorbed (lower : LowerCase) {p q : Policy} (h : Rewrites lower p q) :
    policiesAreSame lower (some p) (some q) = true ↔ Absorbed lower p q := by
  rw [policiesAreSame_iff, and_iff_right h.id, and_iff_right h.version]
  exact forall₂_congr_of h.statements fun s t => alike_iff_absorbed

end Exact

section Pushed

local instance codeUnits : NeZero 65536 := ⟨by decide⟩

def asciiLower (u : Fin 65536) : Fin 65536 :=
  if 65 ≤ u.val ∧ u.val ≤ 90 then Fin.ofNat _ (u.val + 32) else u

def ascii : LowerCase where
  toLowerCase := List.map asciiLower
  idem s := by
    rw [List.map_map]
    refine List.map_congr_left fun u _ => ?_
    simp only [asciiLower, Function.comp_apply]
    split
    · next h =>
      rw [if_neg]
      simp only [Fin.val_ofNat]
      omega
    · rfl

def blank : Statement := ⟨none, none, none, none, none, none, none, .allow, none⟩

def policy (s : Statement) : Policy := ⟨none, .one s, js "2012-10-17"⟩

def acting (a : OneOrMany JsString) : Policy := policy { blank with action := some a }

def trusting (a : OneOrMany JsString) : Policy :=
  policy { blank with principal := some (.kinds ⟨some a, none, none⟩) }

-- a duplicated action and two accounts in the other order are found different
theorem pushed_again :
    (Rewrites ascii (acting (.many [js "a"])) (acting (.many [js "a", js "a"])) ∧
      policiesAreSame ascii (some (acting (.many [js "a"])))
        (some (acting (.many [js "a", js "a"]))) = false) ∧
    (Rewrites ascii (trusting (.many [js "a", js "b"])) (trusting (.many [js "b", js "a"])) ∧
      policiesAreSame ascii (some (trusting (.many [js "a", js "b"])))
        (some (trusting (.many [js "b", js "a"]))) = false) := by
  refine ⟨⟨⟨rfl, rfl, .cons ?_ .nil⟩, by decide⟩, ⟨rfl, rfl, .cons ?_ .nil⟩, by decide⟩
  · refine ⟨.some ?_, .none, .none, .none, .none, .none, .none, rfl, rfl⟩
    exact .single (.list (.duplicate List.mem_cons_self))
  · refine ⟨.none, .none, .some ?_, .none, .none, .none, .none, rfl, rfl⟩
    exact .single (.aws rfl (.permute (.swap _ _ _)))

theorem reordered_actions :
    Absorbed ascii (acting (.many [js "a", js "b"])) (acting (.many [js "b", js "a"])) := by
  have hrewrites : Rewrites ascii (acting (.many [js "a", js "b"]))
      (acting (.many [js "b", js "a"])) := by
    refine ⟨rfl, rfl, .cons ⟨.some ?_, .none, .none, .none, .none, .none, .none, rfl, rfl⟩ .nil⟩
    exact .single (.list (.permute (.swap _ _ _)))
  exact (same_iff_absorbed ascii hrewrites).mp (by decide)

end Pushed

end Iasql.CanonicalPolicy
