import Mathlib.Computability.Language

namespace Patterns

section Languages

variable {α : Type}

-- a regular expression whose letters are classes of characters
inductive Pattern (α : Type) where
  | never
  | empty
  | one (allowed : α → Bool)
  | seq (a b : Pattern α)
  | either (a b : Pattern α)
  | many (a : Pattern α)

namespace Pattern

def language : Pattern α → Language α
  | never => 0
  | empty => 1
  | one allowed => {w | ∃ c, allowed c = true ∧ w = [c]}
  | seq a b => a.language * b.language
  | either a b => a.language + b.language
  | many a => KStar.kstar a.language

def nullable : Pattern α → Bool
  | never => false
  | empty => true
  | one _ => false
  | seq a b => a.nullable && b.nullable
  | either a b => a.nullable || b.nullable
  | many _ => true

-- what is left to match after a character
def deriv (c : α) : Pattern α → Pattern α
  | never => never
  | empty => never
  | one allowed => if allowed c then empty else never
  | seq a b => if a.nullable then either (seq (a.deriv c) b) (b.deriv c) else seq (a.deriv c) b
  | either a b => either (a.deriv c) (b.deriv c)
  | many a => seq (a.deriv c) (many a)

-- whether the whole text matches
def test : Pattern α → List α → Bool
  | a, [] => a.nullable
  | a, c :: w => test (a.deriv c) w

def optional (a : Pattern α) : Pattern α := either a empty

def plus (a : Pattern α) : Pattern α := seq a (many a)

def times : Nat → Pattern α → Pattern α
  | 0, _ => empty
  | n + 1, a => seq a (times n a)

def atMost : Nat → Pattern α → Pattern α
  | 0, _ => empty
  | n + 1, a => optional (seq a (atMost n a))

-- a{m,n}
def between (m n : Nat) (a : Pattern α) : Pattern α := seq (times m a) (atMost (n - m) a)

def anyOf : List (Pattern α) → Pattern α
  | [] => never
  | a :: as => either a (anyOf as)

end Pattern

open Pattern

variable {a b : Pattern α} {w : List α} {c : α} {m n : Nat}

theorem mem_never : w ∉ (never : Pattern α).language := id

theorem mem_empty : w ∈ (empty : Pattern α).language ↔ w = [] := Iff.rfl

theorem mem_one {allowed : α → Bool} : w ∈ (one allowed).language ↔ ∃ c, allowed c = true ∧ w = [c] := Iff.rfl

theorem mem_seq : w ∈ (seq a b).language ↔ ∃ u ∈ a.language, ∃ v ∈ b.language, u ++ v = w :=
  Language.mem_mul

theorem mem_either : w ∈ (either a b).language ↔ w ∈ a.language ∨ w ∈ b.language := Iff.rfl

theorem nullable_iff (a : Pattern α) : a.nullable = true ↔ [] ∈ a.language := by
  induction a with
  | never => exact iff_of_false Bool.false_ne_true mem_never
  | empty => exact iff_of_true rfl rfl
  | one allowed =>
    refine iff_of_false Bool.false_ne_true ?_
    rintro ⟨c, -, h⟩
    cases h
  | seq a b iha ihb =>
    rw [nullable, Bool.and_eq_true, iha, ihb, mem_seq]
    constructor
    · rintro ⟨ha, hb⟩
      exact ⟨[], ha, [], hb, rfl⟩
    · rintro ⟨u, hu, v, hv, huv⟩
      obtain ⟨rfl, rfl⟩ := List.append_eq_nil_iff.mp huv
      exact ⟨hu, hv⟩
  | either a b iha ihb => rw [nullable, Bool.or_eq_true, iha, ihb, mem_either]
  | many a _ => exact iff_of_true rfl (Language.mem_kstar.mpr ⟨[], rfl, List.forall_mem_nil _⟩)

theorem mem_deriv_seq (ha : ∀ w, w ∈ (a.deriv c).language ↔ c :: w ∈ a.language) :
    w ∈ (seq (a.deriv c) b).language ↔ ∃ u, c :: u ∈ a.language ∧ ∃ v ∈ b.language, u ++ v = w := by
  rw [mem_seq]
  simp only [ha]

theorem mem_deriv (c : α) (a : Pattern α) (w : List α) : w ∈ (a.deriv c).language ↔ c :: w ∈ a.language := by
  induction a generalizing w with
  | never => exact Iff.rfl
  | empty => exact iff_of_false mem_never (List.cons_ne_nil c w)
  | one allowed =>
    rw [Pattern.deriv]
    split
    · next h =>
      rw [mem_empty, mem_one]
      constructor
      · rintro rfl
        exact ⟨c, h, rfl⟩
      · rintro ⟨d, -, heq⟩
        exact (List.cons.inj heq).2
    · next h =>
      refine iff_of_false mem_never ?_
      rintro ⟨d, hd, heq⟩
      exact h ((List.cons.inj heq).1 ▸ hd)
  | seq a b iha ihb =>
    -- the character comes from the first part, or from the second where the first matches nothing
    have hsplit : c :: w ∈ (seq a b).language ↔
        (∃ u, c :: u ∈ a.language ∧ ∃ v ∈ b.language, u ++ v = w) ∨
          [] ∈ a.language ∧ c :: w ∈ b.language := by
      rw [mem_seq]
      constructor
      · rintro ⟨u, hu, v, hv, huv⟩
        cases u with
        | nil => exact .inr ⟨hu, huv ▸ hv⟩
        | cons d u =>
          obtain ⟨rfl, rfl⟩ := List.cons.inj huv
          exact .inl ⟨u, hu, v, hv, rfl⟩
      · rintro (⟨u, hu, v, hv, rfl⟩ | ⟨ha, hb⟩)
        · exact ⟨c :: u, hu, v, hv, rfl⟩
        · exact ⟨[], ha, c :: w, hb, rfl⟩
    rw [hsplit, ← nullable_iff, Pattern.deriv]
    split
    · next h => rw [mem_either, mem_deriv_seq iha, ihb, h, and_iff_right rfl]
    · next h => rw [mem_deriv_seq iha, or_iff_left fun hboth => h hboth.1]
  | either a b iha ihb => rw [Pattern.deriv, mem_either, iha, ihb, mem_either]
  | many a iha =>
    rw [Pattern.deriv, mem_deriv_seq iha]
    constructor
    · rintro ⟨u, hu, v, hv, rfl⟩
      obtain ⟨parts, rfl, hparts⟩ := Language.mem_kstar.mp hv
      refine Language.mem_kstar.mpr ⟨(c :: u) :: parts, rfl, ?_⟩
      exact List.forall_mem_cons.mpr ⟨hu, hparts⟩
    · intro h
      obtain ⟨parts, hw, hparts⟩ := Language.mem_kstar_iff_exists_nonempty.mp h
      cases parts with
      | nil => cases hw
      | cons part parts =>
        obtain ⟨⟨hpart, hne⟩, hrest⟩ := List.forall_mem_cons.mp hparts
        obtain ⟨d, u, rfl⟩ := List.exists_cons_of_ne_nil hne
        obtain ⟨rfl, rfl⟩ := List.cons.inj hw
        exact ⟨u, hpart, parts.flatten, Language.mem_kstar.mpr ⟨parts, rfl, fun v hv => (hrest v hv).1⟩, rfl⟩

theorem test_iff (a : Pattern α) (w : List α) : a.test w = true ↔ w ∈ a.language := by
  induction w generalizing a with
  | nil => exact nullable_iff a
  | cons c w ih => rw [test, ih, mem_deriv]

theorem mem_optional : w ∈ a.optional.language ↔ w ∈ a.language ∨ w = [] := Iff.rfl

theorem mem_anyOf {as : List (Pattern α)} : w ∈ (anyOf as).language ↔ ∃ a ∈ as, w ∈ a.language := by
  induction as with
  | nil => exact iff_of_false mem_never fun ⟨_, h, _⟩ => absurd h List.not_mem_nil
  | cons a as ih => simp only [anyOf, mem_either, ih, List.mem_cons, exists_eq_or_imp]

theorem mem_plus : w ∈ a.plus.language ↔
    ∃ parts : List (List α), w = parts.flatten ∧ parts ≠ [] ∧ ∀ part ∈ parts, part ∈ a.language := by
  rw [plus, mem_seq]
  constructor
  · rintro ⟨u, hu, v, hv, rfl⟩
    obtain ⟨parts, rfl, hparts⟩ := Language.mem_kstar.mp hv
    exact ⟨u :: parts, rfl, List.cons_ne_nil u parts, List.forall_mem_cons.mpr ⟨hu, hparts⟩⟩
  · rintro ⟨parts, rfl, hne, hparts⟩
    cases parts with
    | nil => exact absurd rfl hne
    | cons u parts =>
      obtain ⟨hu, hrest⟩ := List.forall_mem_cons.mp hparts
      exact ⟨u, hu, parts.flatten, Language.mem_kstar.mpr ⟨parts, rfl, hrest⟩, rfl⟩

theorem mem_times : w ∈ (times n a).language ↔
    ∃ parts : List (List α), w = parts.flatten ∧ parts.length = n ∧ ∀ part ∈ parts, part ∈ a.language := by
  induction n generalizing w with
  | zero =>
    rw [times, mem_empty]
    constructor
    · rintro rfl
      exact ⟨[], rfl, rfl, List.forall_mem_nil _⟩
    · rintro ⟨parts, rfl, hlength, -⟩
      rw [List.length_eq_zero_iff.mp hlength, List.flatten_nil]
  | succ n ih =>
    rw [times, mem_seq]
    constructor
    · rintro ⟨u, hu, v, hv, rfl⟩
      obtain ⟨parts, rfl, hlength, hparts⟩ := ih.mp hv
      exact ⟨u :: parts, rfl, by rw [List.length_cons, hlength], List.forall_mem_cons.mpr ⟨hu, hparts⟩⟩
    · rintro ⟨parts, rfl, hlength, hparts⟩
      cases parts with
      | nil => cases hlength
      | cons u parts =>
        obtain ⟨hu, hrest⟩ := List.forall_mem_cons.mp hparts
        exact ⟨u, hu, parts.flatten, ih.mpr ⟨parts, rfl, Nat.succ.inj hlength, hrest⟩, rfl⟩

theorem mem_atMost : w ∈ (atMost n a).language ↔
    ∃ parts : List (List α), w = parts.flatten ∧ parts.length ≤ n ∧ ∀ part ∈ parts, part ∈ a.language := by
  induction n generalizing w with
  | zero =>
    rw [atMost, mem_empty]
    constructor
    · rintro rfl
      exact ⟨[], rfl, Nat.le_refl 0, List.forall_mem_nil _⟩
    · rintro ⟨parts, rfl, hlength, -⟩
      rw [List.length_eq_zero_iff.mp (Nat.le_zero.mp hlength), List.flatten_nil]
  | succ n ih =>
    rw [atMost, mem_optional, mem_seq]
    constructor
    · rintro (⟨u, hu, v, hv, rfl⟩ | rfl)
      · obtain ⟨parts, rfl, hlength, hparts⟩ := ih.mp hv
        refine ⟨u :: parts, rfl, ?_, List.forall_mem_cons.mpr ⟨hu, hparts⟩⟩
        exact Nat.succ_le_succ hlength
      · exact ⟨[], rfl, Nat.zero_le _, List.forall_mem_nil _⟩
    · rintro ⟨parts, rfl, hlength, hparts⟩
      cases parts with
      | nil => exact .inr rfl
      | cons u parts =>
        obtain ⟨hu, hrest⟩ := List.forall_mem_cons.mp hparts
        exact .inl ⟨u, hu, parts.flatten, ih.mpr ⟨parts, rfl, Nat.le_of_succ_le_succ hlength, hrest⟩, rfl⟩

theorem mem_between (h : m ≤ n) : w ∈ (between m n a).language ↔
    ∃ parts : List (List α), w = parts.flatten ∧ m ≤ parts.length ∧ parts.length ≤ n ∧
      ∀ part ∈ parts, part ∈ a.language := by
  rw [between, mem_seq]
  constructor
  · rintro ⟨u, hu, v, hv, rfl⟩
    obtain ⟨first, rfl, hfirst, hmemFirst⟩ := mem_times.mp hu
    obtain ⟨rest, rfl, hrest, hmemRest⟩ := mem_atMost.mp hv
    refine ⟨first ++ rest, List.flatten_append.symm, ?_, ?_, List.forall_mem_append.mpr ⟨hmemFirst, hmemRest⟩⟩
    · rw [List.length_append]
      omega
    · rw [List.length_append]
      omega
  · rintro ⟨parts, rfl, hmin, hmax, hparts⟩
    refine ⟨(parts.take m).flatten, mem_times.mpr ⟨parts.take m, rfl, ?_, ?_⟩,
      (parts.drop m).flatten, mem_atMost.mpr ⟨parts.drop m, rfl, ?_, ?_⟩, ?_⟩
    · exact List.length_take_of_le hmin
    · exact fun part hpart => hparts part (List.mem_of_mem_take hpart)
    · rw [List.length_drop]
      omega
    · exact fun part hpart => hparts part (List.mem_of_mem_drop hpart)
    · rw [← List.flatten_append, List.take_append_drop]

-- the parts of a repetition, where each is made of one thing
theorem exists_parts {β : Type} {f : β → List α} {G : β → Prop} {P : Nat → Prop}
    (ha : ∀ v, v ∈ a.language ↔ ∃ g, G g ∧ v = f g) :
    (∃ parts : List (List α), w = parts.flatten ∧ P parts.length ∧ ∀ part ∈ parts, part ∈ a.language) ↔
      ∃ things : List β, (∀ g ∈ things, G g) ∧ P things.length ∧ w = (things.map f).flatten := by
  constructor
  · rintro ⟨parts, rfl, hlength, hparts⟩
    have hmap : ∃ things : List β, (∀ g ∈ things, G g) ∧ parts = things.map f := by
      clear hlength
      induction parts with
      | nil => exact ⟨[], List.forall_mem_nil _, rfl⟩
      | cons part parts ih =>
        obtain ⟨hpart, hrest⟩ := List.forall_mem_cons.mp hparts
        obtain ⟨g, hg, rfl⟩ := (ha part).mp hpart
        obtain ⟨things, hthings, rfl⟩ := ih hrest
        exact ⟨g :: things, List.forall_mem_cons.mpr ⟨hg, hthings⟩, rfl⟩
    obtain ⟨things, hthings, rfl⟩ := hmap
    exact ⟨things, hthings, by rwa [List.length_map] at hlength, rfl⟩
  · rintro ⟨things, hthings, hlength, rfl⟩
    refine ⟨things.map f, rfl, by rwa [List.length_map], ?_⟩
    intro part hpart
    obtain ⟨g, hg, rfl⟩ := List.mem_map.mp hpart
    exact (ha _).mpr ⟨g, hthings g hg, rfl⟩

theorem exists_letters {G : α → Prop} {P : Nat → Prop} (ha : ∀ v, v ∈ a.language ↔ ∃ c, G c ∧ v = [c]) :
    (∃ parts : List (List α), w = parts.flatten ∧ P parts.length ∧ ∀ part ∈ parts, part ∈ a.language) ↔
      P w.length ∧ ∀ c ∈ w, G c := by
  have hflatten : ∀ letters : List α, (letters.map fun c => [c]).flatten = letters := by
    intro letters
    rw [← List.flatMap_def, List.flatMap_singleton']
  rw [exists_parts ha]
  constructor
  · rintro ⟨letters, hletters, hlength, rfl⟩
    rw [hflatten]
    exact ⟨hlength, hletters⟩
  · rintro ⟨hlength, hletters⟩
    exact ⟨w, hletters, hlength, (hflatten w).symm⟩

end Languages

end Patterns
