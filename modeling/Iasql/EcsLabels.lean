import Iasql.EcsTables

namespace Iasql.EcsSimplified

section Label

-- a NUMERIC with two decimals, in hundredths
def numericText (hundredths : Nat) : String :=
  toString (hundredths / 100) ++ "." ++ toString (hundredths % 100 / 10) ++
    toString (hundredths % 10)

def rtrimZeros (text : String) : String :=
  String.ofList (text.toList.reverse.dropWhile (· = '0')).reverse

-- ROUND(GREATEST(COALESCE(units, least), least) / 1024.0, 2)
def gigas (units : Option Int) (least : Int) : Nat :=
  ((max (units.getD least) least).toNat * 100 + 512) / 1024

def getCpuMemEnumFromParts (cpu mem : Option Int) : String :=
  "vCPU" ++ rtrimZeros (numericText (gigas cpu 256)) ++ "-" ++
    rtrimZeros (numericText (gigas mem 512)) ++ "GB"

end Label

section Numbers

theorem toList_numericText (h : Nat) : (numericText h).toList =
    Nat.toDigits 10 (h / 100) ++ '.' :: [(h % 100 / 10).digitChar, (h % 10).digitChar] := by
  have htens : toString (h % 100 / 10) = String.ofList [(h % 100 / 10).digitChar] := by
    rw [← Nat.toDigits_of_lt_base (b := 10) (by omega)]
    exact Nat.repr_eq_ofList_toDigits
  have hones : toString (h % 10) = String.ofList [(h % 10).digitChar] := by
    rw [← Nat.toDigits_of_lt_base (b := 10) (by omega)]
    exact Nat.repr_eq_ofList_toDigits
  have hwhole : toString (h / 100) = String.ofList (Nat.toDigits 10 (h / 100)) :=
    Nat.repr_eq_ofList_toDigits
  rw [numericText, htens, hones, hwhole]
  simp

def decimals (h : Nat) : List Char :=
  ([(h % 100 / 10).digitChar, (h % 10).digitChar].reverse.dropWhile (· = '0')).reverse

theorem dropWhile_stop {α : Type} {p : α → Bool} {a : α} (l r : List α) (ha : p a = false) :
    (l ++ a :: r).dropWhile p = l.dropWhile p ++ a :: r := by
  induction l with
  | nil => simp [ha]
  | cons b l ih =>
    rw [List.cons_append, List.dropWhile_cons, List.dropWhile_cons]
    split
    · exact ih
    · rfl

theorem toList_rtrimZeros (h : Nat) : (rtrimZeros (numericText h)).toList =
    Nat.toDigits 10 (h / 100) ++ '.' :: decimals h := by
  rw [rtrimZeros, toList_numericText, String.toList_ofList, List.reverse_append,
    List.reverse_cons, List.append_assoc, List.singleton_append,
    dropWhile_stop _ _ (by decide), decimals]
  simp

theorem not_mem_digits {c : Char} (hc : c.isDigit = false) (n : Nat) : c ∉ Nat.toDigits 10 n := by
  intro hmem
  have hdigit := Nat.isDigit_of_mem_toDigits (by omega) (by omega) hmem
  rw [hc] at hdigit
  cases hdigit

theorem digitChar_ne {c : Char} (hc : c.isDigit = false) {n : Nat} (hn : n < 10) :
    n.digitChar ≠ c := by
  intro heq
  have hmem : c ∈ Nat.toDigits 10 n := by simp [Nat.toDigits_of_lt_base hn, heq]
  exact not_mem_digits hc n hmem

theorem not_mem_decimals {c : Char} (hc : c.isDigit = false) (h : Nat) : c ∉ decimals h := by
  intro hmem
  have hmem' : c ∈ [(h % 100 / 10).digitChar, (h % 10).digitChar].reverse :=
    (List.dropWhile_sublist _).subset (List.mem_reverse.mp hmem)
  simp only [List.reverse_cons, List.reverse_nil, List.nil_append, List.cons_append,
    List.mem_cons, List.not_mem_nil, or_false] at hmem'
  obtain heq | heq := hmem'
  · exact digitChar_ne hc (by omega) heq.symm
  · exact digitChar_ne hc (by omega) heq.symm

-- every label has the decimal point of its two numbers
theorem count_points (cpu mem : Option Int) :
    (getCpuMemEnumFromParts cpu mem).toList.count '.' = 2 := by
  have hzero : ∀ n, (Nat.toDigits 10 n).count '.' = 0 :=
    fun n => List.count_eq_zero.mpr (not_mem_digits (by decide) n)
  have hdec : ∀ n, (decimals n).count '.' = 0 :=
    fun n => List.count_eq_zero.mpr (not_mem_decimals (by decide) n)
  unfold getCpuMemEnumFromParts
  simp only [String.toList_append, List.count_append, toList_rtrimZeros, List.count_cons, hzero,
    hdec]
  decide

theorem two_points (c : CpuMemory) (h : c.label.toList.count '.' = 2) :
    c = .vCPU0p25x0p5GB := by
  cases c <;> first | rfl | (exact absurd h (by decide))

theorem digits_eq_zero {n : Nat} (h : Nat.toDigits 10 n = ['0']) : n = 0 := by
  have hle : n < 10 ^ 1 :=
    (Nat.length_toDigits_le_iff (by omega) (by omega)).mp (by simp [h])
  rw [Nat.toDigits_of_lt_base (by omega)] at h
  have hchar : n.digitChar.toNat = 48 := congrArg Char.toNat (List.singleton_inj.mp h)
  rw [Nat.toNat_digitChar_of_lt_ten (by omega)] at hchar
  omega

theorem decimals_mod (h : Nat) : decimals h = decimals (h % 100) := by
  have htens : h % 100 % 100 / 10 = h % 100 / 10 := by omega
  have hones : h % 100 % 10 = h % 10 := by omega
  rw [decimals, decimals, htens, hones]

theorem split_at {α : Type} {x : α} {a b r r' : List α} (ha : x ∉ a) (hb : x ∉ b)
    (h : a ++ x :: r = b ++ x :: r') : a = b ∧ r = r' := by
  induction a generalizing b with
  | nil =>
    cases b with
    | nil => exact ⟨rfl, (List.cons.inj h).2⟩
    | cons y b => exact absurd (List.cons.inj h).1 fun hx => hb (hx ▸ List.mem_cons_self)
  | cons y a ih =>
    cases b with
    | nil => exact absurd (List.cons.inj h).1.symm fun hx => ha (hx ▸ List.mem_cons_self)
    | cons z b =>
      obtain ⟨rfl, htail⟩ := List.cons.inj h
      obtain ⟨rfl, rfl⟩ := ih (fun hx => ha (List.mem_cons_of_mem y hx))
        (fun hx => hb (List.mem_cons_of_mem y hx)) htail
      exact ⟨rfl, rfl⟩

theorem hundredths_eq {h : Nat} {tail : List Char}
    (heq : (rtrimZeros (numericText h)).toList = '0' :: '.' :: tail) :
    h / 100 = 0 ∧ decimals h = tail := by
  rw [toList_rtrimZeros] at heq
  obtain ⟨hwhole, htail⟩ := split_at (b := ['0']) (not_mem_digits (by decide) _) (by decide) heq
  exact ⟨digits_eq_zero hwhole, htail⟩

theorem not_mem_number (h : Nat) : '-' ∉ (rtrimZeros (numericText h)).toList := by
  rw [toList_rtrimZeros, List.mem_append, List.mem_cons]
  rintro (hmem | hmem | hmem)
  · exact not_mem_digits (by decide) _ hmem
  · exact absurd hmem (by decide)
  · exact not_mem_decimals (by decide) _ hmem

theorem parts_of_label {cpu mem : Option Int}
    (h : getCpuMemEnumFromParts cpu mem = "vCPU0.25-0.5GB") :
    gigas cpu 256 = 25 ∧ gigas mem 512 = 50 := by
  have hlist := congrArg String.toList h
  have hvCPU : "vCPU".toList = ['v', 'C', 'P', 'U'] := by decide
  have hdash : "-".toList = ['-'] := by decide
  have hGB : "GB".toList = ['G', 'B'] := by decide
  have hlabel : "vCPU0.25-0.5GB".toList =
      ['v', 'C', 'P', 'U', '0', '.', '2', '5', '-', '0', '.', '5', 'G', 'B'] := by decide
  rw [getCpuMemEnumFromParts, String.toList_append, String.toList_append, String.toList_append,
    String.toList_append, hvCPU, hdash, hGB, hlabel] at hlist
  simp only [List.cons_append, List.nil_append, List.append_assoc, List.cons.injEq,
    true_and] at hlist
  obtain ⟨hcpu, hmem⟩ := split_at (b := ['0', '.', '2', '5']) (not_mem_number _) (by decide) hlist
  have hmem' : (rtrimZeros (numericText (gigas mem 512))).toList = ['0', '.', '5'] :=
    (List.append_left_inj ['G', 'B']).mp hmem
  obtain ⟨hcpuWhole, hcpuTail⟩ := hundredths_eq hcpu
  obtain ⟨hmemWhole, hmemTail⟩ := hundredths_eq hmem'
  have htwenty : ∀ r < 100, decimals r = ['2', '5'] → r = 25 := by decide
  have hfifty : ∀ r < 100, decimals r = ['5'] → r = 50 := by decide
  have h25 := htwenty _ (Nat.mod_lt _ (by omega)) (decimals_mod _ ▸ hcpuTail)
  have h50 := hfifty _ (Nat.mod_lt _ (by omega)) (decimals_mod _ ▸ hmemTail)
  omega

theorem gigas_cpu {units : Option Int} : gigas units 256 = 25 ↔ units.getD 256 ≤ 261 := by
  unfold gigas
  omega

theorem gigas_mem {units : Option Int} : gigas units 512 = 50 ↔ units.getD 512 ≤ 517 := by
  unfold gigas
  omega

theorem label_of_ofLabel {label : String} {c : CpuMemory} (h : CpuMemory.ofLabel label = some c) :
    c.label = label := by
  rw [CpuMemory.ofLabel] at h
  have hfound := List.find?_some h
  exact of_decide_eq_true hfound

theorem ofLabel_parts {cpu mem : Option Int} :
    (CpuMemory.ofLabel (getCpuMemEnumFromParts cpu mem)).isSome = true ↔
      cpu.getD 256 ≤ 261 ∧ mem.getD 512 ≤ 517 := by
  rw [← gigas_cpu, ← gigas_mem]
  constructor
  · intro h
    obtain ⟨c, hc⟩ := Option.isSome_iff_exists.mp h
    have hlabel := label_of_ofLabel hc
    have hone := two_points c (by rw [hlabel, count_points])
    rw [hone] at hlabel
    exact parts_of_label hlabel.symm
  · rintro ⟨hcpu, hmem⟩
    rw [getCpuMemEnumFromParts, hcpu, hmem]
    decide

theorem ofLabel_label (c : CpuMemory) : CpuMemory.ofLabel c.label = some c := by
  cases c <;> decide

end Numbers

end Iasql.EcsSimplified
